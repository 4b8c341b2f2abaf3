import Mathlib.Data.List.TakeWhile

/-!
# Places in a tree

A path is followed part by part from the root: some parts stand for the place itself, one goes up,
which at the root goes nowhere, and the others go down. A path without the part that goes up stays
at the place it starts from, or below it (`resolve_append`).

Parts are what separators leave of a text. With more separators the parts get finer, and the parts
that have no separator in them stay (`mem_splitOnP_of_imp`).
-/

namespace LiteHarness.Foundation

variable {α : Type*}

section Resolve

variable [DecidableEq α] (stays : α → Bool) (up : α)

/-- A part, followed from a place. -/
def advance (place : List α) (part : α) : List α :=
  if stays part then place else if part = up then place.dropLast else place ++ [part]

/-- The place that parts lead to from the root. -/
def resolve (parts : List α) : List α := parts.foldl (advance stays up) []

theorem foldl_advance (place : List α) {parts : List α} (h : up ∉ parts) :
    parts.foldl (advance stays up) place = place ++ parts.filter fun part ↦ !stays part := by
  induction parts generalizing place with
  | nil => exact (List.append_nil place).symm
  | cons part parts ih =>
    rw [List.mem_cons, not_or] at h
    rw [List.foldl_cons, ih _ h.2, advance]
    by_cases hstays : stays part = true
    · rw [if_pos hstays, List.filter_cons_of_neg (by simp [hstays])]
    · rw [if_neg hstays, if_neg (Ne.symm h.1), List.filter_cons_of_pos (by simpa using hstays),
        List.append_assoc, List.singleton_append]

/-- **Parts that do not go up** lead to the place or below it. -/
theorem resolve_append (parts : List α) {below : List α} (h : up ∉ below) :
    resolve stays up (parts ++ below) =
      resolve stays up parts ++ below.filter fun part ↦ !stays part := by
  rw [resolve, List.foldl_append, foldl_advance stays up _ h, resolve]

end Resolve

/-- A part without separators is a part for more separators too. -/
theorem mem_splitOnP_of_imp {p q : α → Bool} (himp : ∀ a, p a = true → q a = true) {s part : List α}
    (hpart : part ∈ s.splitOnP p) (hfree : ∀ a ∈ part, q a = false) : part ∈ s.splitOnP q := by
  by_cases hsep : ∃ a ∈ s, p a = true
  · obtain ⟨a, ha, hp⟩ := hsep
    obtain ⟨before, after, rfl⟩ := List.append_of_mem ha
    have hshort : before.length < (before ++ a :: after).length := by simp
    have hshort' : after.length < (before ++ a :: after).length := by simp; omega
    rw [List.splitOnP_append_cons _ _ hp, List.mem_append] at hpart
    rw [List.splitOnP_append_cons _ _ (himp a hp), List.mem_append]
    exact hpart.imp (fun h ↦ mem_splitOnP_of_imp himp h hfree)
      fun h ↦ mem_splitOnP_of_imp himp h hfree
  · have hnone : ∀ a ∈ s, p a = false := by simpa using hsep
    rw [List.splitOnP_eq_singleton hnone, List.mem_singleton] at hpart
    subst hpart
    rw [List.splitOnP_eq_singleton hfree]
    exact List.mem_singleton_self _
  termination_by s.length

end LiteHarness.Foundation
