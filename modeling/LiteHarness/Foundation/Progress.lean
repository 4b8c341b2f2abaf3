import LiteHarness.Foundation.Suspension

/-!
# Steps that are due

Something is to happen after finitely many steps of one kind, whatever other steps come between.
`Within s k` says that at most `k` such steps are left; no step makes more of them, and a step that
is due makes one less. A history with enough due steps then brings it about, with no assumption on
the order or the number of the others.
-/

namespace LiteHarness.Foundation

variable {σ ι : Type*}

/-- The number of steps of a history that are due when they are taken. -/
def dueSteps (step : σ → ι → σ) (due : σ → ι → Bool) : σ → List ι → ℕ
  | _, [] => 0
  | s, i :: history => (if due s i then 1 else 0) + dueSteps step due (step s i) history

/-- **Progress.** Each due step leaves one step less. -/
theorem within_of_dueSteps {step : σ → ι → σ} {due : σ → ι → Bool} {p : σ → Prop}
    {within : σ → ℕ → Prop} (hp : ∀ s i, p s → p (step s i))
    (hstep : ∀ s i k, p s → within s k → within (step s i) k)
    (hdue : ∀ s i k, p s → due s i = true → within s (k + 1) → within (step s i) k) :
    ∀ (history : List ι) (s : σ) (n : ℕ), p s → n ≤ dueSteps step due s history → within s n →
      within (history.foldl step s) 0 := by
  intro history
  induction history with
  | nil =>
    intro s n _ hn h
    obtain rfl : n = 0 := Nat.le_zero.mp hn
    exact h
  | cons i history ih =>
    intro s n hs hn h
    by_cases hi : due s i = true
    · cases n with
      | zero => exact ih _ 0 (hp s i hs) (Nat.zero_le _) (hstep s i 0 hs h)
      | succ n =>
        refine ih _ n (hp s i hs) ?_ (hdue s i n hs hi h)
        rw [dueSteps, if_pos hi] at hn
        omega
    · refine ih _ n (hp s i hs) ?_ (hstep s i n hs h)
      rw [dueSteps, if_neg hi] at hn
      omega

end LiteHarness.Foundation
