import Mathlib.Data.List.Basic
import Mathlib.Data.List.Forall2
import Mathlib.Data.Nat.Digits.Defs

/-!
# Self-delimiting encodings

An encoding `enc : β → List α` is *delimited* by a set `D` of symbols when a code word can be read
off the front of a longer text as long as the text after it is empty or starts with a symbol of
`D`. With `D` everything, this is the usual prefix-freeness; with `D` the separators and closing
brackets of a concrete syntax it is what a literal such as a number offers.

Everything is stated at one value, `DelimitedAt D V R enc x`, among the values satisfying `V`, and
with a relation `R` in place of equality. The pointwise form is what an induction over a syntax
tree can use: the hypothesis about the children is available one child at a time. The relation lets
an encoding forget what it is meant to forget, and `V` leaves out values that have no code word.

## Contents

* `DelimitedAt`, and the two ways a primitive literal provides it;
* `closedList_delimited`, the rule for a separated list with a closing bracket;
* `lengthPrefixed`, the decimal length-prefixed form of an arbitrary word.
-/

namespace LiteHarness.Foundation

variable {α β : Type*}

/-- The text is empty or starts with a symbol of `D`. -/
def StartsIn (D : α → Prop) : List α → Prop
  | [] => True
  | c :: _ => D c

@[simp] theorem startsIn_nil (D : α → Prop) : StartsIn D [] := trivial

@[simp] theorem startsIn_cons {D : α → Prop} {c : α} {s : List α} :
    StartsIn D (c :: s) ↔ D c := Iff.rfl

theorem startsIn_of_forall {D : α → Prop} (h : ∀ c, D c) : ∀ s : List α, StartsIn D s
  | [] => trivial
  | c :: _ => h c

/-- Reading the code word of `x` off the front of a text gives a value related to `x` and the same
rest, provided the text continues in `D`. -/
def DelimitedAt (D : α → Prop) (V : β → Prop) (R : β → β → Prop) (enc : β → List α) (x : β) :
    Prop :=
  ∀ y, V y → ∀ s t : List α, StartsIn D s → StartsIn D t → enc x ++ s = enc y ++ t → R x y ∧ s = t

section DelimitedAt

variable {D : α → Prop} {V : β → Prop} {R : β → β → Prop} {enc : β → List α} {x y : β}

/-- The whole text determines the value: the case of nothing left over. -/
theorem DelimitedAt.rel_of_eq (h : DelimitedAt D V R enc x) (hy : V y) (heq : enc x = enc y) :
    R x y :=
  (h y hy [] [] trivial trivial (by rw [heq])).1

/-! ## Primitive literals -/

/-- Two words free of `D` that continue in `D` split a common text at the same place. -/
theorem append_eq_append_of_free {D : α → Prop} : ∀ {u v s t : List α},
    (∀ c ∈ u, ¬D c) → (∀ c ∈ v, ¬D c) → StartsIn D s → StartsIn D t → u ++ s = v ++ t →
      u = v ∧ s = t
  | [], [], _, _, _, _, _, _, heq => ⟨rfl, heq⟩
  | [], d :: v, s, _, _, hv, hs, _, heq => by
    rw [List.nil_append] at heq
    subst heq
    exact absurd hs (hv d List.mem_cons_self)
  | c :: u, [], _, t, hu, _, _, ht, heq => by
    rw [List.nil_append] at heq
    subst heq
    exact absurd ht (hu c List.mem_cons_self)
  | c :: u, d :: v, s, t, hu, hv, hs, ht, heq => by
    rw [List.cons_append, List.cons_append, List.cons.injEq] at heq
    obtain ⟨rfl, htail⟩ := heq
    obtain ⟨rfl, hst⟩ := append_eq_append_of_free
      (fun x hx ↦ hu x (List.mem_cons_of_mem _ hx))
      (fun x hx ↦ hv x (List.mem_cons_of_mem _ hx)) hs ht htail
    exact ⟨rfl, hst⟩

/-- A literal that a reader recovers from the front of any text is delimited by everything. -/
theorem delimitedAt_of_reader (read : List α → Option (β × List α))
    (hread : ∀ y s, read (enc y ++ s) = some (y, s)) (x : β) : DelimitedAt D V (· = ·) enc x := by
  intro y _ s t _ _ heq
  have hx := hread x s
  rw [heq, hread y t, Option.some.injEq, Prod.mk.injEq] at hx
  exact ⟨hx.1.symm, hx.2.symm⟩

/-! ## Separated lists -/

/-- A separated list followed by a closing bracket. -/
def closedList (sep close : α) (words : List (List α)) : List α :=
  [sep].intercalate words ++ [close]

@[simp] theorem closedList_nil (sep close : α) : closedList sep close [] = [close] := rfl

@[simp] theorem closedList_singleton (sep close : α) (w : List α) :
    closedList sep close [w] = w ++ [close] := by
  simp [closedList, List.intercalate]

theorem closedList_cons_cons (sep close : α) (w v : List α) (ws : List (List α)) :
    closedList sep close (w :: v :: ws) = w ++ sep :: closedList sep close (v :: ws) := by
  simp [closedList, List.intercalate, List.append_assoc]

/-- **Separated lists.** If the separator and the bracket are in `D`, differ, and the bracket never
starts a code word, a closed list of code words can be read off the front of any text. -/
theorem closedList_delimited {sep close : α} (hsep : D sep) (hclose : D close) (hne : sep ≠ close)
    (hhead : ∀ y, V y → ∃ c w, enc y = c :: w ∧ c ≠ close) :
    ∀ {xs : List β}, (∀ x ∈ xs, V x ∧ DelimitedAt D V R enc x) →
      ∀ ys : List β, (∀ y ∈ ys, V y) → ∀ s t : List α,
      closedList sep close (xs.map enc) ++ s = closedList sep close (ys.map enc) ++ t →
        List.Forall₂ R xs ys ∧ s = t := by
  have hsepStart : ∀ u : List α, StartsIn D (sep :: u) := fun _ ↦ hsep
  have hcloseStart : ∀ u : List α, StartsIn D (close :: u) := fun _ ↦ hclose
  intro xs
  induction xs with
  | nil =>
    intro _ ys hys s t heq
    rcases ys with _ | ⟨y, ys⟩
    · simp only [List.map_nil, closedList_nil, List.cons_append, List.nil_append,
        List.cons.injEq, true_and] at heq
      exact ⟨List.Forall₂.nil, heq⟩
    · obtain ⟨c, w, hw, hc⟩ := hhead y (hys y List.mem_cons_self)
      rcases ys with _ | ⟨z, ys⟩
      · simp [hw] at heq
        exact absurd heq.1.symm hc
      · simp [hw, closedList_cons_cons] at heq
        exact absurd heq.1.symm hc
  | cons x xs ih =>
    intro hx ys hys s t heq
    obtain ⟨hxV, hxd⟩ := hx x List.mem_cons_self
    have ihx := ih fun z hz ↦ hx z (List.mem_cons_of_mem _ hz)
    rcases ys with _ | ⟨y, ys⟩
    · obtain ⟨c, w, hw, hc⟩ := hhead x hxV
      rcases xs with _ | ⟨z, xs⟩
      · simp [hw] at heq
        exact absurd heq.1 hc
      · simp [hw, closedList_cons_cons] at heq
        exact absurd heq.1 hc
    · have hyV := hys y List.mem_cons_self
      -- after the first word both texts continue with the separator or with the bracket
      rcases xs with _ | ⟨x', xs⟩ <;> rcases ys with _ | ⟨y', ys⟩
      · simp only [List.map_cons, List.map_nil, closedList_singleton, List.append_assoc] at heq
        obtain ⟨hR, hrest⟩ := hxd y hyV _ _ (hcloseStart _) (hcloseStart _) heq
        exact ⟨.cons hR .nil, by simpa using hrest⟩
      · simp only [List.map_cons, List.map_nil, closedList_singleton, closedList_cons_cons,
          List.append_assoc] at heq
        obtain ⟨-, hrest⟩ := hxd y hyV _ _ (hcloseStart _) (hsepStart _) heq
        rw [List.cons.injEq] at hrest
        exact absurd hrest.1.symm hne
      · simp only [List.map_cons, List.map_nil, closedList_singleton, closedList_cons_cons,
          List.append_assoc] at heq
        obtain ⟨-, hrest⟩ := hxd y hyV _ _ (hsepStart _) (hcloseStart _) heq
        rw [List.cons.injEq] at hrest
        exact absurd hrest.1 hne
      · simp only [List.map_cons, closedList_cons_cons, List.append_assoc, List.cons_append] at heq
        obtain ⟨hR, hrest⟩ := hxd y hyV _ _ (hsepStart _) (hsepStart _) heq
        rw [List.cons.injEq] at hrest
        obtain ⟨htail, hst⟩ := ihx (y' :: ys)
          (fun z hz ↦ hys z (List.mem_cons_of_mem _ hz)) s t (by simpa using hrest.2)
        exact ⟨.cons hR htail, hst⟩

end DelimitedAt

/-! ## Length prefixes -/

/-- A word announced by the numeral of its length and a colon. -/
def lengthPrefixed (numeral : ℕ → List α) (colon : α) (w : List α) : List α :=
  numeral w.length ++ colon :: w

/-- A length-prefixed word can be read off the front of any text, whatever symbols it contains. -/
theorem lengthPrefixed_delimited {numeral : ℕ → List α} {colon : α}
    (hfree : ∀ n, ∀ c ∈ numeral n, c ≠ colon) (hinj : Function.Injective numeral) (w : List α) :
    DelimitedAt (fun _ ↦ True) (fun _ ↦ True) (· = ·) (lengthPrefixed numeral colon) w := by
  intro v _ s t _ _ heq
  simp only [lengthPrefixed, List.append_assoc, List.cons_append] at heq
  have hcolon : ∀ u : List α, StartsIn (· = colon) (colon :: u) := fun _ ↦ rfl
  obtain ⟨hnum, hrest⟩ := append_eq_append_of_free (D := (· = colon)) (hfree _) (hfree _)
    (hcolon _) (hcolon _) heq
  have hlen : w.length = v.length := hinj hnum
  rw [List.cons.injEq] at hrest
  exact List.append_inj hrest.2 hlen

end LiteHarness.Foundation
