import LiteHarness.Foundation.Effect

/-!
# Two runs compared

`LockStep R s t m n` says that `m` started in `s` and `n` started in `t` have the same outcome and
end in states related by `R`. The rules follow the program constructs, so that two runs of one
program are compared statement by statement, with what each has done so far at hand.

`Unwinding` lifts such a comparison from single steps to histories. Some steps of a system are
those of an observer; where the other steps keep a state related to itself, and the observer's own
steps keep related states related, the observer cannot tell two histories apart that contain the
same steps of his.
-/

namespace LiteHarness.Foundation

universe u

/-! ## Programs in lockstep -/

section LockStep

variable {σ ε α β : Type u} {R R' : σ → σ → Prop} {s t : σ}

/-- The two programs have the same outcome and end in related states. -/
def LockStep (R : σ → σ → Prop) (s t : σ) (m n : Eff σ ε α) : Prop :=
  (m.run s).1 = (n.run t).1 ∧ R (m.run s).2 (n.run t).2

theorem LockStep.pure (h : R s t) (a : α) :
    LockStep R s t (pure a : Eff σ ε α) (pure a) := ⟨rfl, h⟩

theorem LockStep.throw (h : R s t) (e : ε) :
    LockStep R s t (throw e : Eff σ ε α) (throw e) := ⟨rfl, h⟩

theorem LockStep.modify {f g : σ → σ} (h : R (f s) (g t)) :
    LockStep R s t (Eff.modify f : Eff σ ε PUnit) (Eff.modify g) := ⟨rfl, h⟩

/-- The rest is compared in the states the first parts have reached. -/
theorem LockStep.bind {m n : Eff σ ε α} {f g : α → Eff σ ε β} (hm : LockStep R s t m n)
    (hf : ∀ a s' t', m.run s = (.ok a, s') → n.run t = (.ok a, t') → R s' t' →
      LockStep R s' t' (f a) (g a)) :
    LockStep R s t (m >>= f) (n >>= g) := by
  obtain ⟨hout, hstate⟩ := hm
  unfold LockStep
  rw [Eff.run_bind, Eff.run_bind]
  rcases hs : m.run s with ⟨x, s'⟩
  rcases ht : n.run t with ⟨y, t'⟩
  rw [hs, ht] at hout hstate
  obtain rfl : x = y := hout
  cases x with
  | error e => exact ⟨rfl, hstate⟩
  | ok a => exact hf a s' t' hs ht hstate

/-- A read hands each run its own state. -/
theorem LockStep.gets {f g : σ → Eff σ ε α} (h : LockStep R s t (f s) (g t)) :
    LockStep R s t (Eff.get >>= f) (Eff.get >>= g) := h

theorem LockStep.ite {c d : Prop} [Decidable c] [Decidable d] {m m' n n' : Eff σ ε α}
    (hcd : c ↔ d) (ht : c → d → LockStep R s t m n) (he : ¬c → ¬d → LockStep R s t m' n') :
    LockStep R s t (if c then m else m') (if d then n else n') := by
  by_cases hc : c
  · rw [if_pos hc, if_pos (hcd.mp hc)]
    exact ht hc (hcd.mp hc)
  · rw [if_neg hc, if_neg fun hd ↦ hc (hcd.mpr hd)]
    exact he hc fun hd ↦ hc (hcd.mpr hd)

/-- A transaction that throws returns to where it began. -/
theorem LockStep.transaction {m n : Eff σ ε α} (hm : LockStep R s t m n) (hrelated : R' s t)
    (hcommit : ∀ a s' t', m.run s = (.ok a, s') → n.run t = (.ok a, t') → R s' t' → R' s' t') :
    LockStep R' s t (Eff.transaction m) (Eff.transaction n) := by
  obtain ⟨hout, hstate⟩ := hm
  unfold LockStep
  rcases hs : m.run s with ⟨x, s'⟩
  rcases ht : n.run t with ⟨y, t'⟩
  rw [hs, ht] at hout hstate
  obtain rfl : x = y := hout
  cases x with
  | error e =>
    rw [Eff.transaction_of_error hs, Eff.transaction_of_error ht]
    exact ⟨rfl, hrelated⟩
  | ok a =>
    rw [Eff.transaction_of_ok hs, Eff.transaction_of_ok ht]
    exact ⟨rfl, hcommit a s' t' hs ht hstate⟩

/-- The result is forgotten. -/
theorem LockStep.discard {m n : Eff σ ε α} (hm : LockStep R s t m n) :
    LockStep R s t (do let _ ← m : Eff σ ε PUnit) (do let _ ← n) :=
  hm.bind fun _ _ _ _ _ h ↦ .pure h _

end LockStep

/-! ## Unwinding -/

section Unwinding

variable {σ ι : Type*}

/-- The steps of the observer along a history, as the states it passes through tell them. -/
def ownSteps (step : σ → ι → σ) (own : σ → ι → Prop) [∀ s, DecidablePred (own s)] :
    σ → List ι → List ι
  | _, [] => []
  | s, i :: history =>
    if own s i then i :: ownSteps step own (step s i) history
    else ownSteps step own (step s i) history

/-- The condition holds of every step, in the state in which it is taken. -/
def Throughout (step : σ → ι → σ) (ok : σ → ι → Prop) : σ → List ι → Prop
  | _, [] => True
  | s, i :: history => ok s i ∧ Throughout step ok (step s i) history

instance (step : σ → ι → σ) (ok : σ → ι → Prop) [∀ s i, Decidable (ok s i)] :
    ∀ s history, Decidable (Throughout step ok s history)
  | _, [] => isTrue trivial
  | s, i :: history =>
    have := instDecidableThroughout step ok (step s i) history
    inferInstanceAs (Decidable (ok s i ∧ Throughout step ok (step s i) history))

/-- An invariant, and a relation that the steps of others do not leave and the observer's own
steps, taken on both sides, keep. -/
structure Unwinding (step : σ → ι → σ) (own ok : σ → ι → Prop) (p : σ → Prop)
    (R : σ → σ → Prop) : Prop where
  refl : ∀ s, R s s
  symm : ∀ s t, R s t → R t s
  trans : ∀ s t w, R s t → R t w → R s w
  preserves : ∀ s i, p s → ok s i → p (step s i)
  agrees : ∀ s t i, p s → p t → R s t → (own s i ↔ own t i)
  respects : ∀ s i, p s → ok s i → ¬own s i → R s (step s i)
  consistent : ∀ s t i, p s → p t → R s t → ok s i → ok t i → own s i → own t i →
    R (step s i) (step t i)

variable {step : σ → ι → σ} {own ok : σ → ι → Prop} {p : σ → Prop} {R : σ → σ → Prop}

/-- The invariant holds wherever a history leads. -/
theorem Unwinding.invariant (h : Unwinding step own ok p R) {s : σ} (hs : p s) {history : List ι}
    (hok : Throughout step ok s history) : p (history.foldl step s) := by
  induction history generalizing s with
  | nil => exact hs
  | cons i history ih => exact ih (h.preserves s i hs hok.1) hok.2

variable [∀ s, DecidablePred (own s)]

theorem ownSteps_cons_own {s : σ} {i : ι} (hi : own s i) (history : List ι) :
    ownSteps step own s (i :: history) = i :: ownSteps step own (step s i) history :=
  if_pos hi

theorem ownSteps_cons_other {s : σ} {i : ι} (hi : ¬own s i) (history : List ι) :
    ownSteps step own s (i :: history) = ownSteps step own (step s i) history :=
  if_neg hi

/-- **Noninterference.** Two histories with the same steps of the observer end in related
states. -/
theorem Unwinding.related (h : Unwinding step own ok p R) {s t : σ} (hs : p s) (ht : p t)
    (hrelated : R s t) {history history' : List ι} (hok : Throughout step ok s history)
    (hok' : Throughout step ok t history')
    (hown : ownSteps step own s history = ownSteps step own t history') :
    R (history.foldl step s) (history'.foldl step t) := by
  induction history generalizing s t history' with
  | nil =>
    -- what is left on the other side are steps of others
    induction history' generalizing t with
    | nil => exact hrelated
    | cons j history' ih =>
      by_cases hj : own t j
      · rw [ownSteps_cons_own hj] at hown
        exact absurd hown (List.cons_ne_nil _ _).symm
      · rw [ownSteps_cons_other hj] at hown
        refine ih (h.preserves t j ht hok'.1) ?_ hok'.2 hown
        exact h.trans _ _ _ hrelated (h.respects t j ht hok'.1 hj)
  | cons i history ih =>
    by_cases hi : own s i
    · rw [ownSteps_cons_own hi] at hown
      -- the other side reaches the same step after steps of others
      induction history' generalizing t with
      | nil => exact absurd hown (List.cons_ne_nil _ _)
      | cons j history' ih' =>
        by_cases hj : own t j
        · rw [ownSteps_cons_own hj] at hown
          obtain ⟨rfl, hown⟩ := List.cons.inj hown
          refine ih (h.preserves s i hs hok.1) (h.preserves t i ht hok'.1) ?_ hok.2 hok'.2 hown
          exact h.consistent s t i hs ht hrelated hok.1 hok'.1 hi hj
        · rw [ownSteps_cons_other hj] at hown
          refine ih' (h.preserves t j ht hok'.1) ?_ hok'.2 hown
          exact h.trans _ _ _ hrelated (h.respects t j ht hok'.1 hj)
    · rw [ownSteps_cons_other hi] at hown
      refine ih (h.preserves s i hs hok.1) ht ?_ hok.2 hok' hown
      exact h.trans _ _ _ (h.symm _ _ (h.respects s i hs hok.1 hi)) hrelated

end Unwinding

end LiteHarness.Foundation
