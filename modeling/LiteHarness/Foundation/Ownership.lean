import Mathlib.Data.List.Pairwise
import LiteHarness.Foundation.Suspension

/-!
# Calls that own something while they are suspended

A suspended call may own a key, and count on what no one but the owner of a key undoes. `Ownership`
adds this to the rely–guarantee method of `Protocol`: keys owned at one time are distinct, and a
stretch keeps what is true of the keys that others own.
-/

namespace LiteHarness.Foundation

variable {σ π α κ : Type*}

/-- What a suspended call owns, and what its owner may count on. -/
structure Ownership (σ π κ : Type*) where
  owns : π → Option κ
  free : κ → σ → Prop

namespace Ownership

variable (O : Ownership σ π κ)

/-- The keys the calls of a list own. -/
def owned (pending : List (ℕ × π)) : List κ := pending.filterMap fun q ↦ O.owns q.2

/-- Owned keys are distinct, and free. -/
structure Holds (c : Calls σ π α) : Prop where
  nodup : (O.owned c.pending).Nodup
  free : ∀ k ∈ O.owned c.pending, O.free k c.shared

/-- A stretch that started in `s`, while others own the keys `taken`. -/
structure Guarantee (taken : List κ) (s : σ) (r : σ × Ending π α) : Prop where
  keeps : ∀ k ∈ taken, O.free k s → O.free k r.1
  takes : ∀ p k, r.2 = .suspends p → O.owns p = some k → k ∉ taken ∧ O.free k r.1

variable {O} {c : Calls σ π α}

theorem mem_owned {pending : List (ℕ × π)} {k : κ} :
    k ∈ O.owned pending ↔ ∃ q ∈ pending, O.owns q.2 = some k := List.mem_filterMap

theorem holds_init {s : σ} : O.Holds ({ shared := s } : Calls σ π α) where
  nodup := List.nodup_nil
  free _ hk := absurd hk List.not_mem_nil

theorem Holds.conclude (h : O.Holds c) {n : ℕ} {r : σ × Ending π α}
    (hr : O.Guarantee (O.owned c.pending) c.shared r) : O.Holds (c.conclude n r) := by
  obtain ⟨s, p | a⟩ := r
  · have howned : O.owned (c.pending ++ [(n, p)]) = O.owned c.pending ++ (O.owns p).toList := by
      rw [owned, List.filterMap_append, owned]
      cases hp : O.owns p with
      | none => simp [hp]
      | some k => simp [hp]
    have htaken : ∀ k ∈ (O.owns p).toList, k ∉ O.owned c.pending ∧ O.free k s :=
      fun k hk ↦ hr.takes p k rfl (Option.mem_toList.mp hk)
    refine ⟨?_, fun k hk ↦ ?_⟩
    · rw [Calls.conclude, howned, List.nodup_append]
      refine ⟨h.nodup, ?_, fun k hk l hl heq ↦ (htaken l hl).1 (heq ▸ hk)⟩
      cases O.owns p <;> simp
    · rw [Calls.conclude, howned] at hk
      rcases List.mem_append.mp hk with hk | hk
      · exact hr.keeps k hk (h.free k hk)
      · exact (htaken k hk).2
  · exact ⟨h.nodup, fun k hk ↦ hr.keeps k hk (h.free k hk)⟩

/-- The first stretch of a call. -/
theorem Holds.start (h : O.Holds c) {f : σ → σ × Ending π α}
    (hf : O.Guarantee (O.owned c.pending) c.shared (f c.shared)) : O.Holds (c.start f) := by
  have hnext : O.Holds { c with started := c.started + 1 } := ⟨h.nodup, h.free⟩
  exact hnext.conclude hf

/-- A change that keeps what is owned free. -/
theorem Holds.change (h : O.Holds c) {f : σ → σ}
    (hf : ∀ k ∈ O.owned c.pending, O.free k c.shared → O.free k (f c.shared)) :
    O.Holds (c.change f) := ⟨h.nodup, fun k hk ↦ hf k hk (h.free k hk)⟩

/-- What a call owns, no other does. -/
theorem Holds.not_owned_by_others (h : O.Holds c) {n : ℕ} {p : π} {k : κ}
    (hp : (n, p) ∈ c.pending) (hk : O.owns p = some k) :
    k ∉ O.owned (c.pending.filter fun q ↦ q.1 ≠ n) := by
  intro hmem
  obtain ⟨q, hq, hqk⟩ := mem_owned.mp hmem
  obtain ⟨hq, hne⟩ := List.mem_filter.mp hq
  have hdistinct : c.pending.Pairwise fun q r ↦
      ∀ k, O.owns q.2 = some k → ∀ l, O.owns r.2 = some l → k ≠ l :=
    List.pairwise_filterMap.mp h.nodup
  have : Std.Symm fun q r : ℕ × π ↦
      ∀ k, O.owns q.2 = some k → ∀ l, O.owns r.2 = some l → k ≠ l :=
    ⟨fun q r hqr k hk l hl ↦ (hqr l hl k hk).symm⟩
  refine hdistinct.forall hp hq ?_ k hk k hqk rfl
  rintro rfl
  exact of_decide_eq_true hne rfl

/-- The next stretch of a suspended call, which may rely on the key it owns. -/
theorem Holds.resume (h : O.Holds c) (n : ℕ) {f : π → σ → σ × Ending π α}
    (hf : ∀ p, (n, p) ∈ c.pending →
      (∀ k, O.owns p = some k →
        k ∉ O.owned (c.pending.filter fun q ↦ q.1 ≠ n) ∧ O.free k c.shared) →
      O.Guarantee (O.owned (c.pending.filter fun q ↦ q.1 ≠ n)) c.shared (f p c.shared)) :
    O.Holds (c.resume n f) := by
  rw [Calls.resume]
  cases hlookup : Table.lookup Prod.fst n c.pending with
  | none => exact h
  | some q =>
    obtain ⟨m, p⟩ := q
    have hmem := Table.mem_of_lookup hlookup
    obtain rfl : m = n := Table.key_of_lookup hlookup
    have hrest : O.Holds { c with pending := c.pending.filter fun q ↦ q.1 ≠ m } := by
      refine ⟨h.nodup.sublist (List.filter_sublist.filterMap _), fun k hk ↦ h.free k ?_⟩
      exact (List.filter_sublist.filterMap _).subset hk
    exact hrest.conclude (hf p hmem fun k hk ↦
      ⟨h.not_owned_by_others hmem hk, h.free k (mem_owned.mpr ⟨_, hmem, hk⟩)⟩)

end Ownership

end LiteHarness.Foundation
