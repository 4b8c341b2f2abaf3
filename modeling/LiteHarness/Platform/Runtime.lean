import LiteHarness.Platform.JsValue

/-!
# The host platform

What the program takes from Node: `JSON.stringify` on numbers, SHA-256 and the ISO rendering of
dates. The hash is assumed free of collisions and the date rendering to distinguish instants; both
are fields, so that every result below holds of any platform with these properties.

Instants are integers, the milliseconds since the epoch. Comparing two of them is comparing the
program's ISO strings, which order as the instants do.
-/

namespace LiteHarness

/-- The parts of the host the program computes with. -/
structure Platform extends NumberLiterals where
  /-- `createHash("sha256").update(text).digest("hex")`. -/
  sha256 : JsString → JsString
  /-- Different texts have different digests. -/
  sha256_injective : Function.Injective sha256
  /-- `new Date(instant).toISOString()`. -/
  toISOString : ℤ → JsString
  /-- Different instants have different renderings. -/
  toISOString_injective : Function.Injective toISOString

/-! ## A reference platform

The assumptions above are satisfiable: whole numbers are written in decimal as the host writes
them, the remaining rationals by numerator and denominator, and the hash is the text itself. -/

/-- A decimal integer literal. -/
def intLiteral (z : ℤ) : JsString := if z < 0 then 45 :: decimal z.natAbs else decimal z.natAbs

theorem intLiteral_unit {z : ℤ} {u : UInt16} (h : u ∈ intLiteral z) :
    u = 45 ∨ (48 ≤ u.toNat ∧ u.toNat ≤ 57) := by
  rw [intLiteral] at h
  split_ifs at h
  · rcases List.mem_cons.mp h with rfl | h
    · exact Or.inl rfl
    · exact Or.inr (decimal_unit h)
  · exact Or.inr (decimal_unit h)

theorem intLiteral_injective : Function.Injective intLiteral := by
  have hsign : ∀ {n : ℕ} {w : JsString}, decimal n ≠ 45 :: w := by
    intro n w h
    exact absurd (decimal_unit (h ▸ List.mem_cons_self : (45 : UInt16) ∈ decimal n)).1 (by decide)
  intro z z' h
  rw [intLiteral, intLiteral] at h
  split_ifs at h with hz hz' hz'
  · have := decimal_injective (List.cons.inj h).2
    omega
  · exact absurd h.symm hsign
  · exact absurd h hsign
  · have := decimal_injective h
    omega

theorem decimal_ne_nil (n : ℕ) : decimal n ≠ [] :=
  fun h ↦ Nat.toDigits_ne_nil (List.map_eq_nil_iff.mp h)

theorem intLiteral_ne_nil (z : ℤ) : intLiteral z ≠ [] := by
  rw [intLiteral]
  split_ifs
  · exact List.cons_ne_nil _ _
  · exact decimal_ne_nil _

/-- The reference literal of a rational. -/
def ratLiteral (q : ℚ) : JsString := intLiteral q.num ++ if q.den = 1 then [] else 101 :: decimal q.den

theorem ratLiteral_injective : Function.Injective ratLiteral := by
  intro p q h
  have hfree : ∀ z : ℤ, ∀ u ∈ intLiteral z, ¬u = 101 := by
    rintro z u hu rfl
    rcases intLiteral_unit hu with hu | hu
    · exact absurd hu (by decide)
    · exact absurd hu.2 (by decide)
  have hstart : ∀ r : ℚ, Foundation.StartsIn (· = 101)
      (if r.den = 1 then ([] : JsString) else 101 :: decimal r.den) := by
    intro r
    split_ifs <;> simp
  obtain ⟨hnum, hden⟩ := Foundation.append_eq_append_of_free (hfree _) (hfree _) (hstart p)
    (hstart q) h
  refine Rat.ext (intLiteral_injective hnum) ?_
  split_ifs at hden with hp hq hq
  · rw [hp, hq]
  · exact decimal_injective (List.cons.inj hden).2

/-- A platform to evaluate the model on. -/
def referencePlatform : Platform where
  literal := ratLiteral
  literal_injective := ratLiteral_injective
  literal_ne_nil q h := intLiteral_ne_nil q.num (List.append_eq_nil_iff.mp h).1
  literal_unit q u hu := by
    have hdigit : ∀ {v : UInt16}, 48 ≤ v.toNat ∧ v.toNat ≤ 57 → isNumberUnit v = true := by
      intro v hv
      simp [isNumberUnit, hv.1, hv.2]
    rcases List.mem_append.mp hu with hu | hu
    · rcases intLiteral_unit hu with rfl | hu
      · decide
      · exact hdigit hu
    · split_ifs at hu
      · exact absurd hu List.not_mem_nil
      · rcases List.mem_cons.mp hu with rfl | hu
        · decide
        · exact hdigit (decimal_unit hu)
  sha256 := id
  sha256_injective := Function.injective_id
  toISOString := intLiteral
  toISOString_injective := intLiteral_injective

end LiteHarness
