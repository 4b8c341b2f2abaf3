import LiteHarness.Foundation.Noninterference
import LiteHarness.Foundation.Table

/-!
# Calls that suspend

Calls share a state. A call runs one stretch at a time: each stretch works on the shared state
without interruption and ends by answering the call, or by suspending it until a promise settles.
Between two stretches of a call any other stretches may run.

`Protocol` is the rely–guarantee method for such calls. Its invariant is about the shared state, and
what a suspended call depends on has to survive every change the protocol allows; so each stretch
is checked by itself, and `Protocol.Holds` follows for every interleaving.
-/

namespace LiteHarness.Foundation

variable {σ π α ι : Type*}

/-! ## Histories -/

/-- A condition on the steps of two histories, one after the other. -/
theorem throughout_append {step : σ → ι → σ} {ok : σ → ι → Prop} {s : σ} {history later : List ι} :
    Throughout step ok s (history ++ later) ↔
      Throughout step ok s history ∧ Throughout step ok (history.foldl step s) later := by
  induction history generalizing s with
  | nil => simp [Throughout]
  | cons i history ih => simp only [List.cons_append, Throughout, List.foldl_cons, ih, and_assoc]

/-- What a step preserves where its condition is met, a history preserves. -/
theorem Throughout.induction {step : σ → ι → σ} {ok : σ → ι → Prop} {p : σ → Prop}
    (hstep : ∀ s i, p s → ok s i → p (step s i)) {s : σ} (hs : p s) {history : List ι}
    (h : Throughout step ok s history) : p (history.foldl step s) := by
  induction history generalizing s with
  | nil => exact hs
  | cons i history ih => exact ih (hstep s i hs h.1) h.2

/-! ## Calls -/

/-- How a stretch of a call ends. -/
inductive Ending (π α : Type*) where
  | suspends (promise : π)
  | answers (answer : α)

/-- The shared state, the suspended calls, and the answers given so far. Calls are numbered in the
order in which they begin. -/
structure Calls (σ π α : Type*) where
  shared : σ
  started : ℕ := 0
  pending : List (ℕ × π) := []
  answers : List (ℕ × α) := []

namespace Calls

variable (c : Calls σ π α)

/-- A stretch of call `n` has ended. -/
def conclude (n : ℕ) : σ × Ending π α → Calls σ π α
  | (s, .suspends p) => { c with shared := s, pending := c.pending ++ [(n, p)] }
  | (s, .answers a) => { c with shared := s, answers := c.answers ++ [(n, a)] }

/-- A call begins, and runs its first stretch. -/
def start (f : σ → σ × Ending π α) : Calls σ π α :=
  { c with started := c.started + 1 }.conclude c.started (f c.shared)

/-- The promise of call `n` has settled, and the next stretch runs. -/
def resume (n : ℕ) (f : π → σ → σ × Ending π α) : Calls σ π α :=
  match Table.lookup Prod.fst n c.pending with
  | none => c
  | some (_, p) =>
    { c with pending := c.pending.filter fun q ↦ q.1 ≠ n }.conclude n (f p c.shared)

/-- The newest call goes on where it was suspended. -/
theorem resume_conclude {n : ℕ} (h : ∀ q ∈ c.pending, q.1 ≠ n) (s : σ) (p : π)
    (f : π → σ → σ × Ending π α) :
    (c.conclude n (s, .suspends p)).resume n f = c.conclude n (f p s) := by
  have hfound : Table.lookup Prod.fst n (c.pending ++ [(n, p)]) = some (n, p) := by
    rw [Table.lookup_append, Table.lookup_eq_none_iff.mpr h, Option.none_or,
      Table.lookup_singleton, if_pos rfl]
  have hrest : (c.pending ++ [(n, p)]).filter (fun q ↦ q.1 ≠ n) = c.pending := by
    rw [List.filter_append, List.filter_eq_self.mpr fun q hq ↦ decide_eq_true (h q hq)]
    simp
  rw [resume, conclude]
  dsimp only
  rw [hfound]
  dsimp only
  rw [hrest]
  cases f p s with
  | mk t ending => cases ending <;> rfl

/-- The shared state changes between two stretches. -/
def change (f : σ → σ) : Calls σ π α := { c with shared := f c.shared }

end Calls

/-! ## Rely and guarantee -/

/-- What the stretches of calls keep: an invariant of the shared state, the changes they may make,
what a suspended call may count on, and what is true of an answer ever after. -/
structure Protocol (σ π α : Type*) where
  inv : σ → Prop
  rely : σ → σ → Prop
  suspended : ℕ → π → σ → Prop
  answered : ℕ → α → σ → Prop
  refl : ∀ s, rely s s
  trans : ∀ s t w, rely s t → rely t w → rely s w
  suspended_stable : ∀ n p s t, suspended n p s → rely s t → suspended n p t
  answered_stable : ∀ n a s t, answered n a s → rely s t → answered n a t

namespace Protocol

variable (P : Protocol σ π α)

/-- The ending of a stretch of call `n` keeps the protocol. -/
def Ended (n : ℕ) (s : σ) : Ending π α → Prop
  | .suspends p => P.suspended n p s
  | .answers a => P.answered n a s

/-- A stretch of call `n` that started in `s` keeps the protocol. -/
structure Guarantee (n : ℕ) (s : σ) (r : σ × Ending π α) : Prop where
  inv : P.inv r.1
  rely : P.rely s r.1
  ended : P.Ended n r.1 r.2

variable {P} in
/-- A stretch that first changes the state as the protocol allows. -/
theorem Guarantee.of_rely {n : ℕ} {s t : σ} {r : σ × Ending π α} (hst : P.rely s t)
    (h : P.Guarantee n t r) : P.Guarantee n s r :=
  ⟨h.inv, P.trans _ _ _ hst h.rely, h.ended⟩

/-- The protocol holds of the shared state, of every suspended call and of every answer. -/
structure Holds (c : Calls σ π α) : Prop where
  inv : P.inv c.shared
  begun : ∀ q ∈ c.pending, q.1 < c.started
  suspended : ∀ q ∈ c.pending, P.suspended q.1 q.2 c.shared
  replied : ∀ q ∈ c.answers, q.1 < c.started
  answered : ∀ q ∈ c.answers, P.answered q.1 q.2 c.shared

variable {P} {c : Calls σ π α}

theorem holds_init {s : σ} (h : P.inv s) : P.Holds { shared := s } where
  inv := h
  begun _ hq := absurd hq List.not_mem_nil
  suspended _ hq := absurd hq List.not_mem_nil
  replied _ hq := absurd hq List.not_mem_nil
  answered _ hq := absurd hq List.not_mem_nil

/-- A change that keeps what the suspended calls and the answers count on. -/
theorem Holds.changed (h : P.Holds c) {f : σ → σ} (hinv : P.inv (f c.shared))
    (hsuspended : ∀ q ∈ c.pending, P.suspended q.1 q.2 (f c.shared))
    (hanswered : ∀ q ∈ c.answers, P.answered q.1 q.2 (f c.shared)) : P.Holds (c.change f) where
  inv := hinv
  begun := h.begun
  suspended := hsuspended
  replied := h.replied
  answered := hanswered

/-- A change the protocol allows. -/
theorem Holds.change (h : P.Holds c) {f : σ → σ} (hinv : P.inv (f c.shared))
    (hrely : P.rely c.shared (f c.shared)) : P.Holds (c.change f) :=
  h.changed hinv (fun q hq ↦ P.suspended_stable _ _ _ _ (h.suspended q hq) hrely)
    fun q hq ↦ P.answered_stable _ _ _ _ (h.answered q hq) hrely

/-- A stretch that keeps the protocol. -/
theorem Holds.conclude (h : P.Holds c) {n : ℕ} (hn : n < c.started) {r : σ × Ending π α}
    (hr : P.Guarantee n c.shared r) : P.Holds (c.conclude n r) := by
  obtain ⟨s, p | a⟩ := r
  · have hpending : ∀ q ∈ c.pending ++ [(n, p)],
        q.1 < c.started ∧ P.suspended q.1 q.2 s := by
      intro q hq
      rcases List.mem_append.mp hq with hq | hq
      · exact ⟨h.begun q hq, P.suspended_stable _ _ _ _ (h.suspended q hq) hr.rely⟩
      · rw [List.mem_singleton.mp hq]
        exact ⟨hn, hr.ended⟩
    exact
      { inv := hr.inv
        begun := fun q hq ↦ (hpending q hq).1
        suspended := fun q hq ↦ (hpending q hq).2
        replied := h.replied
        answered := fun q hq ↦ P.answered_stable _ _ _ _ (h.answered q hq) hr.rely }
  · have hanswers : ∀ q ∈ c.answers ++ [(n, a)],
        q.1 < c.started ∧ P.answered q.1 q.2 s := by
      intro q hq
      rcases List.mem_append.mp hq with hq | hq
      · exact ⟨h.replied q hq, P.answered_stable _ _ _ _ (h.answered q hq) hr.rely⟩
      · rw [List.mem_singleton.mp hq]
        exact ⟨hn, hr.ended⟩
    exact
      { inv := hr.inv
        begun := h.begun
        suspended := fun q hq ↦ P.suspended_stable _ _ _ _ (h.suspended q hq) hr.rely
        replied := fun q hq ↦ (hanswers q hq).1
        answered := fun q hq ↦ (hanswers q hq).2 }

@[simp] theorem conclude_shared (n : ℕ) (r : σ × Ending π α) : (c.conclude n r).shared = r.1 := by
  obtain ⟨s, p | a⟩ := r <;> rfl

@[simp] theorem conclude_started (n : ℕ) (r : σ × Ending π α) :
    (c.conclude n r).started = c.started := by
  obtain ⟨s, p | a⟩ := r <;> rfl

/-- The first stretch of a call. -/
theorem Holds.start (h : P.Holds c) {f : σ → σ × Ending π α}
    (hf : P.Guarantee c.started c.shared (f c.shared)) : P.Holds (c.start f) := by
  have hnext : P.Holds { c with started := c.started + 1 } :=
    { inv := h.inv
      begun := fun q hq ↦ Nat.lt_succ_of_lt (h.begun q hq)
      suspended := h.suspended
      replied := fun q hq ↦ Nat.lt_succ_of_lt (h.replied q hq)
      answered := h.answered }
  exact hnext.conclude (Nat.lt_succ_self _) hf

/-- The shared state after the first stretch of a call. -/
theorem Guarantee.rely_start {f : σ → σ × Ending π α}
    (hf : P.Guarantee c.started c.shared (f c.shared)) :
    P.rely c.shared (c.start f).shared := by
  rw [Calls.start, conclude_shared]
  exact hf.rely

/-- The next stretch of a suspended call. -/
theorem Holds.resume (h : P.Holds c) (n : ℕ) {f : π → σ → σ × Ending π α}
    (hf : ∀ p, (n, p) ∈ c.pending → P.suspended n p c.shared →
      P.Guarantee n c.shared (f p c.shared)) : P.Holds (c.resume n f) := by
  rw [Calls.resume]
  cases hlookup : Table.lookup Prod.fst n c.pending with
  | none => exact h
  | some q =>
    obtain ⟨m, p⟩ := q
    have hmem := Table.mem_of_lookup hlookup
    obtain rfl : m = n := Table.key_of_lookup hlookup
    have hrest : P.Holds { c with pending := c.pending.filter fun q ↦ q.1 ≠ m } :=
      { inv := h.inv
        begun := fun q hq ↦ h.begun q (List.mem_of_mem_filter hq)
        suspended := fun q hq ↦ h.suspended q (List.mem_of_mem_filter hq)
        replied := h.replied
        answered := h.answered }
    exact hrest.conclude (h.begun _ hmem) (hf p hmem (h.suspended _ hmem))

/-- The shared state after the next stretch of a suspended call. -/
theorem rely_resume (h : P.Holds c) (n : ℕ) {f : π → σ → σ × Ending π α}
    (hf : ∀ p, (n, p) ∈ c.pending → P.suspended n p c.shared →
      P.Guarantee n c.shared (f p c.shared)) : P.rely c.shared (c.resume n f).shared := by
  rw [Calls.resume]
  cases hlookup : Table.lookup Prod.fst n c.pending with
  | none => exact P.refl _
  | some q =>
    obtain ⟨m, p⟩ := q
    have hmem := Table.mem_of_lookup hlookup
    obtain rfl : m = n := Table.key_of_lookup hlookup
    rw [conclude_shared]
    exact (hf p hmem (h.suspended _ hmem)).rely

/-- What a history does to the shared state is a change the protocol allows, and the protocol holds
at its end. -/
theorem Holds.run {step : Calls σ π α → ι → Calls σ π α} {ok : Calls σ π α → ι → Prop}
    (hstep : ∀ c i, P.Holds c → ok c i →
      P.Holds (step c i) ∧ P.rely c.shared (step c i).shared)
    (h : P.Holds c) {history : List ι} (hok : Throughout step ok c history) :
    P.Holds (history.foldl step c) ∧ P.rely c.shared (history.foldl step c).shared := by
  refine Throughout.induction (p := fun c' ↦ P.Holds c' ∧ P.rely c.shared c'.shared) ?_
    ⟨h, P.refl _⟩ hok
  rintro c' i ⟨hc', hrely⟩ hi
  obtain ⟨hnext, hrely'⟩ := hstep c' i hc' hi
  exact ⟨hnext, P.trans _ _ _ hrely hrely'⟩

end Protocol

end LiteHarness.Foundation
