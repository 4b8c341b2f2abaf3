import Mathlib.Data.List.DropRight
import LiteHarness.Foundation.Table

/-!
# Bounded memos

A memo holds the value computed for a key, and at most `capacity` entries: the oldest is dropped for
a new one. While no key is entered twice, a memo is the end of the log of all entries
(`enter_rtake`).
-/

namespace LiteHarness.Foundation.Memo

variable {κ α : Type*} [DecidableEq κ]

/-- Enters a value. An entry keeps its place if its key is already there; else it is the newest, and
the oldest ones beyond the capacity are dropped. (Irreducible: comparing two states would unfold it
down to the capacity.) -/
@[irreducible] def enter (capacity : ℕ) (k : κ) (v : α) (memo : List (κ × α)) : List (κ × α) :=
  (Table.upsert Prod.fst (k, v) (fun _ ↦ (k, v)) memo).rtake capacity

theorem rtake_rtake_concat (l : List α) (n : ℕ) (a : α) :
    (l.rtake n ++ [a]).rtake n = (l ++ [a]).rtake n := by
  cases n with
  | zero => rw [List.rtake_zero, List.rtake_zero]
  | succ n =>
    rw [List.rtake_concat_succ, List.rtake_concat_succ, List.rtake_eq_reverse_take_reverse,
      List.rtake_eq_reverse_take_reverse, List.reverse_reverse, List.take_take,
      min_eq_left (Nat.le_succ n), ← List.rtake_eq_reverse_take_reverse]

theorem mem_of_mem_rtake {l : List α} {n : ℕ} {a : α} (h : a ∈ l.rtake n) : a ∈ l :=
  List.mem_of_mem_drop h

/-- **A memo is the end of its log**, as long as the entered key is not in the log. -/
theorem enter_rtake {capacity : ℕ} {k : κ} {v : α} {log : List (κ × α)}
    (h : k ∉ log.map Prod.fst) :
    enter capacity k v (log.rtake capacity) = (log ++ [(k, v)]).rtake capacity := by
  have hfresh : (Table.lookup Prod.fst k (log.rtake capacity)).isSome = false := by
    rw [Bool.eq_false_iff]
    intro hfound
    obtain ⟨q, hq, rfl⟩ := List.mem_map.mp (Table.lookup_isSome_iff.mp hfound)
    exact h (List.mem_map_of_mem (mem_of_mem_rtake hq))
  rw [enter, Table.upsert, if_neg (by rw [hfresh]; exact Bool.false_ne_true), rtake_rtake_concat]

/-- An entry was there, or was entered. -/
theorem mem_enter {capacity : ℕ} {k : κ} {v : α} {memo : List (κ × α)} {e : κ × α}
    (h : e ∈ enter capacity k v memo) : e ∈ memo ∨ e = (k, v) := by
  rw [enter, Table.upsert] at h
  have hmem := mem_of_mem_rtake h
  split_ifs at hmem
  · obtain ⟨e', he', heq⟩ := Table.mem_update.mp hmem
    split_ifs at heq
    · exact Or.inr heq.symm
    · exact Or.inl (heq ▸ he')
  · exact (List.mem_append.mp hmem).imp id List.mem_singleton.mp

end LiteHarness.Foundation.Memo
