import Mathlib.Algebra.Order.Ring.Defs
import Mathlib.Data.Int.Cast.Lemmas
import Mathlib.Data.List.Basic
import Mathlib.Tactic.Linarith
import Mathlib.Tactic.Ring

/-!
# Times along a grid

A time is followed by one that lies some steps later, or a little behind that. Each delay is added
to those before it, so the `n`-th time after the first lies in a window behind a point of the grid
that is `n` delays wide (`OnGrid.append`). Without delays, and with one step at a time, no point of
the grid is left out (`Consecutive.append`).
-/

namespace LiteHarness.Foundation

variable {α : Type*}

/-- A time of a list of one. -/
theorem eq_of_getElem?_singleton {a b : α} {n : ℕ} (h : [a][n]? = some b) : n = 0 ∧ b = a := by
  rcases n with _ | n
  · exact ⟨rfl, (Option.some.inj h).symm⟩
  · simp at h

/-- A time of a list that was extended. -/
theorem getElem?_concat_cases {times : List α} {n : ℕ} {t u : α}
    (h : (times ++ [t])[n]? = some u) :
    (n < times.length ∧ times[n]? = some u) ∨ (n = times.length ∧ u = t) := by
  rcases lt_trichotomy n times.length with hlt | rfl | hgt
  · rw [List.getElem?_append_left hlt] at h
    exact Or.inl ⟨hlt, h⟩
  · rw [List.getElem?_concat_length] at h
    exact Or.inr ⟨rfl, (Option.some.inj h).symm⟩
  · rw [List.getElem?_eq_none (by rw [List.length_append, List.length_singleton]; omega)] at h
    exact absurd h nofun

/-- The last time of a list by its number. -/
theorem getElem?_of_getLast? {times : List α} {t : α} (h : times.getLast? = some t) :
    ∃ last, times.length = last + 1 ∧ times[last]? = some t := by
  rw [List.getLast?_eq_getElem?] at h
  obtain ⟨last, hlength⟩ : ∃ last, times.length = last + 1 := by
    refine Nat.exists_eq_succ_of_ne_zero fun hnil ↦ ?_
    rw [List.length_eq_zero_iff.mp hnil] at h
    exact absurd h nofun
  rw [hlength, Nat.add_sub_cancel] at h
  exact ⟨last, hlength, h⟩

/-! ## Without delays -/

variable {R : Type*} [CommRing R] {c i j t t' : R} {times : List R}

/-- The times are the points of the grid that starts at `c` with steps of `i`. -/
def Consecutive (c i : R) (times : List R) : Prop := ∀ (n : ℕ) t, times[n]? = some t → t = c + n * i

theorem consecutive_singleton : Consecutive c i [c] := by
  intro n t h
  obtain ⟨rfl, rfl⟩ := eq_of_getElem?_singleton h
  simp

/-- One step without a delay leaves no point out. -/
theorem Consecutive.append (h : Consecutive c i times) (hlast : times.getLast? = some t) :
    Consecutive c i (times ++ [t + i]) := by
  intro n u hu
  rcases getElem?_concat_cases hu with ⟨-, hu⟩ | ⟨rfl, rfl⟩
  · exact h n u hu
  · obtain ⟨last, hlength, hlast⟩ := getElem?_of_getLast? hlast
    rw [h last t hlast, hlength]
    push_cast
    ring

/-! ## With delays -/

variable [LinearOrder R]

/-- The times follow the grid that starts at `c` with steps of `i`, and the `n`-th of them is at
most `n` delays of `j` behind a point of it. The points are later and later ones. -/
def OnGrid (c i j : R) (times : List R) : Prop :=
  ∃ k : ℕ → ℤ, k 0 = 0 ∧ (∀ m n, m < n → n < times.length → k m < k n) ∧
    ∀ (n : ℕ) t, times[n]? = some t → c + k n * i ≤ t ∧ t ≤ c + k n * i + n * j

theorem onGrid_singleton : OnGrid c i j [c] := by
  refine ⟨fun _ ↦ 0, rfl, fun m n hlt hlen ↦ ?_, fun n t h ↦ ?_⟩
  · rw [List.length_singleton] at hlen
    omega
  · obtain ⟨rfl, rfl⟩ := eq_of_getElem?_singleton h
    simp

/-- **Each delay widens the window by one**: after `m` steps and a delay of at most `j`. -/
theorem OnGrid.append [IsStrictOrderedRing R] (h : OnGrid c i j times)
    (hlast : times.getLast? = some t) {m : ℤ} (hm : 1 ≤ m) (hlow : t + m * i ≤ t')
    (hhigh : t' ≤ t + m * i + j) : OnGrid c i j (times ++ [t']) := by
  obtain ⟨k, hzero, hmono, hwindow⟩ := h
  obtain ⟨last, hlength, hlast⟩ := getElem?_of_getLast? hlast
  obtain ⟨hlow', hhigh'⟩ := hwindow last t hlast
  -- The new time is `m` points later than the last one.
  refine ⟨Function.update k times.length (k last + m), ?_, fun a b hlt hb ↦ ?_, fun n u hu ↦ ?_⟩
  · rw [Function.update_of_ne (by omega), hzero]
  · rw [List.length_append, List.length_singleton] at hb
    rw [Function.update_of_ne (show a ≠ times.length by omega)]
    rcases Nat.lt_succ_iff_lt_or_eq.mp hb with hb | rfl
    · rw [Function.update_of_ne hb.ne]
      exact hmono a b hlt hb
    · rw [Function.update_self]
      have hle : k a ≤ k last := by
        rcases (show a ≤ last by omega).eq_or_lt with rfl | hlt'
        · exact le_rfl
        · exact (hmono a last hlt' (by omega)).le
      omega
  · rcases getElem?_concat_cases hu with ⟨hlt, hu⟩ | ⟨rfl, rfl⟩
    · rw [Function.update_of_ne hlt.ne]
      exact hwindow n u hu
    · rw [Function.update_self, hlength]
      push_cast
      constructor <;> linarith

end LiteHarness.Foundation
