import LiteHarness.ControlPlane.Steps
import LiteHarness.Storage.Sealed

/-!
# Where an execution can stand

`Execution.Staged` relates the point at which an execution is suspended to its local variables, to
the status of its run and to whether the run is active; `Consistent` says so of every execution.
Stretches that do not control a run leave its stage alone.
-/

namespace LiteHarness

open Foundation Foundation.Eff

/-! ## Stages -/

/-- The controller was aborted because the lease was lost. -/
def Execution.LostLease (e : Execution) : Prop :=
  ∃ reason ∈ e.abortReason, reason.kind = .workspaceLeaseLost

/-- The run has not started running yet. -/
def RunStatus.IsEarly (status : RunStatus) : Prop := status = .queued ∨ status = .preparing

/-- The run has started running and not ended. -/
def RunStatus.IsLate (status : RunStatus) : Prop := status = .running ∨ status = .checkpointing

/-- How the execution ends a run of this status. The table allows the result that was chosen, but
for a run that has not started running: a lost lease orphans it, and no other cause does. -/
def Execution.EndsWith (e : Execution) (status : RunStatus) (terminal : TerminalResult) : Prop :=
  status.IsLate ∧ RunStatus.Allowed status terminal.status ∨
    status.IsEarly ∧ (e.LostLease ∧ terminal.status = .orphaned ∨
      ¬e.LostLease ∧ RunStatus.Allowed status terminal.status)

/-- The run has ended, or the execution knows how to end it. -/
def Execution.Decided (e : Execution) (status : RunStatus) : Prop :=
  status.isTerminalRunStatus = true ∨ ∃ terminal, e.terminal = some terminal ∧
    e.EndsWith status terminal

/-- Neither the total timeout nor the renewal interval can fire. -/
def Execution.Silent (e : Execution) : Prop := e.timeout = false ∧ e.renewal = false

/-- The execution has not done anything yet that its `finally` block would have to undo. -/
def Execution.Untouched (e : Execution) : Prop :=
  e.terminal = none ∧ e.workspacePrepared = false ∧ e.lease = none

/-- Only a call that needs no approval is authorized without one. -/
def AgentPoint.Sound (O : Options) (run : RunRecord) : AgentPoint → Prop
  | .authorized call _ none => O.requiresApproval call run = false
  | _ => True

/-- What holds while an execution is suspended at its point. -/
def Execution.Place (O : Options) (e : Execution) (status : RunStatus) (active : Prop) : Prop :=
  match e.point with
  | .queued => ¬active ∧ (status = .queued ∨ status.isTerminalRunStatus = true) ∧ e.Untouched ∧
      e.Silent
  | .waitingLease _ | .leaseAcquired _ | .preparing =>
    active ∧ status = .preparing ∧ e.terminal = none ∧ e.workspacePrepared = false
  | .agent point _ => active ∧ status = .running ∧ e.terminal = none ∧ point.Sound O e.run
  | .rejected _ | .returned => active ∧ status = .running ∧ e.terminal = none
  | .checkpointing => active ∧ status.IsLate ∧ e.timeout = false ∧
      ∃ terminal, e.terminal = some terminal ∧ RunStatus.Allowed status terminal.status
  | .releasing => ¬active ∧ e.Silent ∧ e.Decided status
  | .settled => ¬active ∧ e.Silent

/-- The stage of an execution. -/
structure Execution.Staged (O : Options) (e : Execution) (status : RunStatus) (active : Prop) :
    Prop where
  run : e.run.id = e.runId
  queueTimeout : e.queueTimeout = true → e.point = .queued
  accepted : status ≠ .accepted
  place : e.Place O status active

namespace Execution

variable {O : Options} {e e' : Execution} {status status' : RunStatus} {active : Prop}

theorem not_silent_of_timeout (h : e.timeout = true) : ¬e.Silent :=
  fun hs ↦ absurd (h.symm.trans hs.1) (by simp)

theorem not_silent_of_renewal (h : e.renewal = true) : ¬e.Silent :=
  fun hs ↦ absurd (h.symm.trans hs.2) (by simp)

/-- While a timer can fire the run is active. -/
theorem Staged.active_of_not_silent (h : e.Staged O status active) (hs : ¬e.Silent) : active := by
  have hplace := h.place
  unfold Place at hplace
  split at hplace
  case h_1 => exact absurd hplace.2.2.2 hs
  case h_9 => exact absurd hplace.2.1 hs
  case h_10 => exact absurd hplace.2 hs
  all_goals exact hplace.1

/-- A run that has ended is not active. -/
theorem Staged.not_active_of_terminal (h : e.Staged O status active)
    (ht : status.isTerminalRunStatus = true) : ¬active := by
  have hplace := h.place
  unfold Place at hplace
  split at hplace
  case h_1 | h_9 | h_10 => exact hplace.1
  case h_8 =>
    obtain ⟨-, -, -, _, -, hallowed⟩ := hplace
    exact absurd ht (by simp [RunStatus.not_isTerminal_of_allowed hallowed])
  all_goals
    obtain ⟨-, rfl, -⟩ := hplace
    exact absurd ht Bool.false_ne_true

/-- Where the execution of a run that has ended can be suspended. -/
theorem Staged.point_of_ended (h : e.Staged O status active) (ht : status.isTerminalRunStatus = true) :
    e.point = .queued ∨ e.point = .releasing ∨ e.point = .settled := by
  have hinactive := h.not_active_of_terminal ht
  have hplace := h.place
  unfold Place at hplace
  split at hplace
  case h_1 hpoint => exact Or.inl hpoint
  case h_9 hpoint => exact Or.inr (Or.inl hpoint)
  case h_10 hpoint => exact Or.inr (Or.inr hpoint)
  all_goals exact absurd hplace.1 hinactive

/-- What other stretches do to an execution leaves its stage alone. -/
theorem Staged.nudged (h : e.Staged O status active) (hn : e.Nudged active e') :
    e'.Staged O status active := by
  have hrun : e'.run = e.run := by rw [hn.eq]
  have hterminal : e'.terminal = e.terminal := by rw [hn.eq]
  have htimeout : e'.timeout = e.timeout := by rw [hn.eq]
  have hprepared : e'.workspacePrepared = e.workspacePrepared := by rw [hn.eq]
  have huntouched : e'.Untouched ↔ e.Untouched := by
    rw [Untouched, hn.eq, Untouched]
  have hsilent : e'.Silent ↔ e.Silent := by rw [Silent, hn.eq, Silent]
  refine ⟨by rw [hrun, hn.runId]; exact h.run, fun ht ↦ ?_, h.accepted, ?_⟩
  · have hqueued := h.queueTimeout (by rw [hn.eq] at ht; exact ht)
    rcases hn.point with hsame | ⟨_, _, _, _, _, hpoint, -⟩
    · exact hsame.trans hqueued
    · exact absurd (hqueued.symm.trans hpoint) (by simp)
  · have hplace := h.place
    rcases hn.point with hsame | ⟨call, rest, id, a, value, hpoint, hpoint'⟩
    · unfold Place at hplace ⊢
      rw [hsame, hrun, hterminal, htimeout, hprepared, huntouched, hsilent]
      split at hplace
      case h_9 =>
        -- an abort only reaches active runs
        obtain ⟨hactive, hsilent, hdecided⟩ := hplace
        refine ⟨hactive, hsilent, ?_⟩
        simp only [Decided, EndsWith, LostLease, hterminal, hn.reason hactive] at hdecided ⊢
        exact hdecided
      all_goals exact hplace
    · unfold Place at hplace ⊢
      rw [hpoint] at hplace
      rw [hpoint', hterminal]
      exact ⟨hplace.1, hplace.2.1, hplace.2.2.1, trivial⟩

/-- Ending a run that is not active leaves its execution in a place. -/
theorem Staged.ended (h : e.Staged O status active) (hactive : ¬active)
    (ht : status'.isTerminalRunStatus = true) : e.Staged O status' active := by
  refine ⟨h.run, h.queueTimeout, ?_, ?_⟩
  · rintro rfl
    exact absurd ht Bool.false_ne_true
  · have hplace := h.place
    unfold Place at hplace ⊢
    split at hplace
    case h_1 => exact ⟨hplace.1, Or.inr ht, hplace.2.2⟩
    case h_9 => exact ⟨hplace.1, hplace.2.1, Or.inl ht⟩
    case h_10 => exact hplace
    all_goals exact absurd hplace.1 hactive

end Execution

namespace Service

variable {H : Host} {O : Options}

/-! ## Consistent states -/

/-- The stage of a run's execution, if it has one. -/
def StagedRun (O : Options) (s : Service) (r : JsString) : Prop :=
  ∀ e, s.execution? r = some e → ∃ row, s.store.run? r = some row ∧
    e.Staged O row.status (r ∈ s.active)

/-- Every execution is in its place, and no attempt outlives its run. -/
structure Consistent (O : Options) (s : Service) : Prop where
  nodup : (s.executions.map Execution.runId).Nodup
  staged : ∀ r, s.StagedRun O r
  active : ∀ r ∈ s.active, ∃ e, s.execution? r = some e
  calm : ∀ r, s.store.Calm r

theorem Consistent.empty : Consistent O {} where
  nodup := List.nodup_nil
  staged _ _ h := absurd h (by simp [execution?, Table.lookup])
  active _ h := absurd h List.not_mem_nil
  calm := Store.Calm.empty

/-- **Frame.** A stretch that does not control a run, and ends it at most while it is not active,
leaves the stage of the run's execution alone. -/
theorem StagedRun.effects {L : Licence} {s s' : Service} {r : JsString} (h : s.StagedRun O r)
    (heffects : Effects H L s s') (hr : ¬L.controls r) (hends : L.ends r → r ∉ s.active) :
    s'.StagedRun O r := by
  have hframe := heffects.undisturbed hr
  intro e' he'
  cases he : s.execution? r with
  | none => exact absurd (he'.symm.trans (hframe.idle he)) (by simp)
  | some e =>
    obtain ⟨e₁, he₁, hnudged⟩ := hframe.execution e he
    obtain rfl := Option.some.inj (he'.symm.trans he₁)
    obtain ⟨row, hrow, hstaged⟩ := h e he
    obtain ⟨row', hrow', -, hstatus⟩ := heffects.status_eq_or hr hrow
    refine ⟨row', hrow', ?_⟩
    rw [hframe.active]
    rcases hstatus with hsame | ⟨hended, ht⟩
    · rw [hsame]
      exact hstaged.nudged hnudged
    · exact (hstaged.nudged hnudged).ended (hends hended) ht

/-- A stretch that controls no run keeps the state consistent. -/
theorem Consistent.effects {L : Licence} {s s' : Service} (h : s.Consistent O)
    (heffects : Effects H L s s') (hcontrols : ∀ r, ¬L.controls r)
    (hends : ∀ r, L.ends r → r ∉ s.active) (hfiles : ∀ r, ¬L.files r)
    (hqueue : ¬L.enqueues) : s'.Consistent O where
  nodup := heffects.runIds_eq hqueue ▸ h.nodup
  staged r := (h.staged r).effects heffects (hcontrols r) (hends r)
  active r hr := by
    have hframe := heffects.undisturbed (hcontrols r)
    obtain ⟨e, he⟩ := h.active r (hframe.active.mp hr)
    obtain ⟨e', he', -⟩ := hframe.execution e he
    exact ⟨e', he'⟩
  calm r := heffects.evolves.calm (hfiles r) (h.calm r)

end Service

end LiteHarness
