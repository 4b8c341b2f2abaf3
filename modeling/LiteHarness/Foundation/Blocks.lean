import Mathlib.Data.List.Induction

/-!
# Blocks

A sequence is cut into blocks at every doubled delimiter, reading from the left, as one does to
read records that end in an empty line. `finished` is what a reader can take off a buffer: the
blocks that are over, and the rest.

The append law is what a reader of a stream relies on: taking the finished blocks off as they come
leaves nothing undone.
-/

namespace LiteHarness.Foundation

variable {α : Type*} [DecidableEq α]

/-- The blocks of `s` that a doubled `e` ends, and what follows the last of them. -/
def finished (e : α) : List α → List (List α) × List α
  | [] => ([], [])
  | [a] => ([], [a])
  | a :: b :: s =>
    if a = e ∧ b = e then ([] :: (finished e s).1, (finished e s).2)
    else
      match finished e (b :: s) with
      | (block :: blocks, rest) => ((a :: block) :: blocks, rest)
      | ([], rest) => ([], a :: rest)

/-- All the blocks of `s`, the unfinished one included. -/
def blocks (e : α) (s : List α) : List (List α) := (finished e s).1 ++ [(finished e s).2]

variable {e : α}

theorem finished_delimiter (s : List α) :
    finished e (e :: e :: s) = ([] :: (finished e s).1, (finished e s).2) := by
  rw [finished, if_pos ⟨rfl, rfl⟩]

/-- A symbol that starts no doubled delimiter belongs to the first block. -/
theorem finished_cons {a : α} {s : List α} (h : a = e → s.head? ≠ some e) :
    finished e (a :: s) = match finished e s with
      | (block :: blocks, rest) => ((a :: block) :: blocks, rest)
      | ([], rest) => ([], a :: rest) := by
  rcases s with _ | ⟨b, s⟩
  · rfl
  · have hne : ¬ (a = e ∧ b = e) := fun hab ↦ h hab.1 (congrArg some hab.2)
    rw [finished, if_neg hne]

/-- The rest is the whole sequence as long as no block is over. -/
theorem rest_of_none {s : List α} (h : (finished e s).1 = []) : (finished e s).2 = s := by
  induction s with
  | nil => rfl
  | cons a s ih =>
    by_cases hstart : a = e ∧ s.head? = some e
    · obtain ⟨rfl, hs⟩ := hstart
      obtain ⟨t, rfl⟩ := List.head?_eq_some_iff.mp hs
      rw [finished_delimiter] at h
      exact absurd h (List.cons_ne_nil _ _)
    · rw [finished_cons fun ha hs ↦ hstart ⟨ha, hs⟩] at h ⊢
      rcases hf : finished e s with ⟨_ | ⟨block, blocks⟩, rest⟩
      · rw [hf] at ih
        exact congrArg (a :: ·) (ih rfl)
      · rw [hf] at h
        exact absurd h (List.cons_ne_nil _ _)

/-- **Blocks of a longer sequence**: those of the first part, and those of its rest with the second
part. -/
theorem finished_append (s t : List α) :
    finished e (s ++ t)
      = ((finished e s).1 ++ (finished e ((finished e s).2 ++ t)).1,
          (finished e ((finished e s).2 ++ t)).2) := by
  induction s using List.twoStepInduction with
  | nil => rfl
  | singleton a => rfl
  | cons_cons a b s ihs ih =>
    by_cases hab : a = e ∧ b = e
    · obtain ⟨rfl, rfl⟩ := hab
      rw [List.cons_append, List.cons_append, finished_delimiter, finished_delimiter, ihs]
      rfl
    · have hstart : a = e → (b :: s).head? ≠ some e := fun ha hb ↦ hab ⟨ha, Option.some.inj hb⟩
      rw [List.cons_append, finished_cons (by exact hstart), finished_cons hstart, ih b]
      rcases hf : finished e (b :: s) with ⟨_ | ⟨block, blocks⟩, rest⟩
      · -- No block is over in the first part, so its rest is all of it.
        have hrest : rest = b :: s := by
          have := rest_of_none (e := e) (s := b :: s) (by rw [hf])
          rwa [hf] at this
        subst hrest
        simp only [List.nil_append, List.cons_append]
        rw [finished_cons (s := b :: (s ++ t)) (by exact hstart)]
      · rfl

/-- Nothing is over in what is left. -/
theorem finished_rest (s : List α) : finished e (finished e s).2 = ([], (finished e s).2) := by
  have happend := finished_append (e := e) s []
  rw [List.append_nil, List.append_nil] at happend
  have hnone : (finished e (finished e s).2).1 = [] := by
    have := congrArg (List.length ∘ Prod.fst) happend
    simp only [Function.comp_apply, List.length_append] at this
    exact List.length_eq_zero_iff.mp (by omega)
  exact Prod.ext hnone (rest_of_none hnone)

theorem blocks_append (s t : List α) :
    blocks e (s ++ t) = (finished e s).1 ++ blocks e ((finished e s).2 ++ t) := by
  rw [blocks, finished_append, blocks, List.append_assoc]

theorem blocks_rest (s : List α) : blocks e (finished e s).2 = [(finished e s).2] := by
  rw [blocks, finished_rest]
  rfl

/-! ## Blocks and lines -/

/-- A line is made of symbols of the text. -/
theorem mem_of_mem_splitOn {l s : List α} (hl : l ∈ s.splitOn e) {a : α} (ha : a ∈ l) : a ∈ s := by
  have hlines : ∀ ls : List (List α), l ∈ ls → a ∈ [e].intercalate ls := by
    intro ls
    induction ls with
    | nil => exact fun h ↦ absurd h List.not_mem_nil
    | cons l' ls ih =>
      intro h
      rcases ls with _ | ⟨l'', ls⟩
      · rw [List.intercalate_singleton]
        rwa [List.mem_singleton.mp h] at ha
      · rw [List.intercalate_cons_cons]
        rcases List.mem_cons.mp h with rfl | h
        · exact List.mem_append_left _ (List.mem_append_left _ ha)
        · exact List.mem_append_right _ (ih h)
  have hjoin : [e].intercalate (s.splitOn e) = s := List.intercalate_splitOn e
  rw [← hjoin]
  exact hlines _ hl

/-- A line has no delimiter in it. -/
theorem notMem_of_mem_splitOn {l s : List α} (hl : l ∈ s.splitOn e) : e ∉ l := by
  induction s generalizing l with
  | nil =>
    rw [List.splitOn_nil, List.mem_singleton] at hl
    exact hl ▸ List.not_mem_nil
  | cons a s ih =>
    rw [List.splitOn_cons_eq_if_modifyHead] at hl
    by_cases ha : a = e
    · rw [if_pos (beq_iff_eq.mpr ha)] at hl
      rcases List.mem_cons.mp hl with rfl | hl
      · exact List.not_mem_nil
      · exact ih hl
    · rw [if_neg (mt beq_iff_eq.mp ha)] at hl
      rcases hs : s.splitOn e with _ | ⟨first, rest⟩
      · exact absurd hs (List.splitOn_ne_nil e s)
      · rw [hs, List.modifyHead_cons] at hl
        rcases List.mem_cons.mp hl with rfl | hl
        · refine fun hmem ↦ (List.mem_cons.mp hmem).elim (fun h ↦ ha h.symm) ?_
          exact ih (hs ▸ List.mem_cons_self)
        · exact ih (hs ▸ List.mem_cons_of_mem _ hl)

/-- What is put before a text goes on with its first line. -/
theorem splitOn_append_of_notMem {l : List α} (h : e ∉ l) (t : List α) :
    (l ++ t).splitOn e = (t.splitOn e).modifyHead (l ++ ·) := by
  induction l with
  | nil =>
    rw [List.nil_append]
    rcases t.splitOn e with _ | ⟨line, lines⟩ <;> rfl
  | cons a l ih =>
    have hmem := not_or.mp (mt List.mem_cons.mpr h)
    rw [List.cons_append, List.splitOn_cons_eq_if_modifyHead,
      if_neg (mt beq_iff_eq.mp (Ne.symm hmem.1)), ih hmem.2, List.modifyHead_modifyHead]
    rfl

/-- Texts with a delimiter in front of each. -/
theorem splitOn_flatMap_cons {ls : List (List α)} (h : ∀ l ∈ ls, e ∉ l) :
    (ls.flatMap (e :: ·)).splitOn e = [] :: ls := by
  induction ls with
  | nil => exact List.splitOn_nil e
  | cons l ls ih =>
    rw [List.forall_mem_cons] at h
    rw [List.flatMap_cons, List.cons_append, List.splitOn_cons_eq_if_modifyHead,
      if_pos (beq_self_eq_true e), splitOn_append_of_notMem h.1, ih h.2, List.modifyHead_cons,
      List.append_nil]

/-- Texts with a delimiter behind each. -/
theorem splitOn_flatMap_append {ls : List (List α)} (h : ∀ l ∈ ls, e ∉ l) :
    (ls.flatMap (· ++ [e])).splitOn e = ls ++ [[]] := by
  induction ls with
  | nil => exact List.splitOn_nil e
  | cons l ls ih =>
    rw [List.forall_mem_cons] at h
    rw [List.flatMap_cons, List.append_assoc, List.singleton_append, List.splitOn_append_cons_self,
      List.splitOn_eq_singleton h.1, ih h.2]
    rfl

/-- A line is the start of the first line, whatever follows it. -/
theorem exists_splitOn_append {l : List α} (h : e ∉ l) (t : List α) :
    ∃ t' rest, (l ++ t).splitOn e = (l ++ t') :: rest := by
  rw [splitOn_append_of_notMem h]
  rcases ht : t.splitOn e with _ | ⟨t', rest⟩
  · exact absurd ht (List.splitOn_ne_nil e t)
  · exact ⟨t', rest, rfl⟩

/-- What is added goes on with the last line. -/
theorem splitOn_append {s last : List α} {lines : List (List α)}
    (h : s.splitOn e = lines ++ [last]) (t : List α) :
    (s ++ t).splitOn e = lines ++ (last ++ t).splitOn e := by
  induction lines generalizing s with
  | nil =>
    have hjoin : [e].intercalate (s.splitOn e) = s := List.intercalate_splitOn e
    rw [h, List.nil_append, List.intercalate_singleton] at hjoin
    rw [hjoin]
    rfl
  | cons l lines ih =>
    have hne : lines ++ [last] ≠ [] := List.append_ne_nil_of_right_ne_nil _ (List.cons_ne_nil _ _)
    have hfree (k : List α) (hk : k ∈ s.splitOn e) : e ∉ k := notMem_of_mem_splitOn hk
    have hjoin : s = l ++ e :: [e].intercalate (lines ++ [last]) := by
      have hjoin : [e].intercalate (s.splitOn e) = s := List.intercalate_splitOn e
      rw [h, List.cons_append, List.intercalate_cons_of_ne_nil hne, List.append_assoc] at hjoin
      exact hjoin.symm
    have hrest : ([e].intercalate (lines ++ [last])).splitOn e = lines ++ [last] :=
      List.splitOn_intercalate e (fun k hk ↦ hfree k (h ▸ List.mem_cons_of_mem _ hk)) hne
    have hl : l.splitOn e = [l] := List.splitOn_eq_singleton (hfree l (h ▸ List.mem_cons_self))
    rw [hjoin, List.append_assoc, List.cons_append, List.splitOn_append_cons_self, hl, ih hrest]
    rfl

theorem finished_of_notMem {s : List α} (h : e ∉ s) : finished e s = ([], s) := by
  induction s with
  | nil => rfl
  | cons a s ih =>
    have hmem := not_or.mp (mt List.mem_cons.mpr h)
    rw [finished_cons fun ha ↦ absurd ha.symm hmem.1, ih hmem.2]

/-- A line that nothing follows is a block. -/
theorem blocks_of_notMem {s : List α} (h : e ∉ s) : blocks e s = [s] := by
  rw [blocks, finished_of_notMem h]
  rfl

theorem blocks_ne_nil (s : List α) : blocks e s ≠ [] :=
  List.append_ne_nil_of_right_ne_nil _ (List.cons_ne_nil _ _)

/-- A symbol before the first block. -/
theorem blocks_cons {a : α} {s : List α} (h : a = e → s.head? ≠ some e) :
    blocks e (a :: s) = (blocks e s).modifyHead (a :: ·) := by
  rw [blocks, blocks, finished_cons h]
  rcases finished e s with ⟨_ | ⟨block, blocks⟩, rest⟩ <;> rfl

/-- An empty line ends the block. -/
theorem blocks_line_delimiter {l : List α} (h : e ∉ l) (s : List α) :
    blocks e (l ++ e :: e :: s) = l :: blocks e s := by
  induction l with
  | nil =>
    rw [List.nil_append, blocks, finished_delimiter]
    rfl
  | cons a l ih =>
    have hmem := not_or.mp (mt List.mem_cons.mpr h)
    rw [List.cons_append, blocks_cons fun ha ↦ absurd ha.symm hmem.1, ih hmem.2]
    rfl

/-- A line with something behind it belongs to the block of what follows. -/
theorem blocks_line {l s : List α} (h : e ∉ l) (hs : s.head? ≠ some e) :
    blocks e (l ++ e :: s) = (blocks e s).modifyHead (l ++ e :: ·) := by
  induction l with
  | nil => exact blocks_cons fun _ ↦ hs
  | cons a l ih =>
    have hmem := not_or.mp (mt List.mem_cons.mpr h)
    rw [List.cons_append, blocks_cons fun ha ↦ absurd ha.symm hmem.1, ih hmem.2,
      List.modifyHead_modifyHead]
    rfl

end LiteHarness.Foundation
