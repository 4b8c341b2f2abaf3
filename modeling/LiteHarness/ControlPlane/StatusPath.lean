import LiteHarness.ControlPlane.EventSourcing

/-!
# The path of statuses

The transition table is asked on one path only, so that a log follows the table is a property of
everything that may write a status. Each status change of a log is a move of the table, with one
exception: a restart ends every run that is not terminal as orphaned, and the table does not allow
that move from a run which has not yet started running.
-/

namespace LiteHarness

open Foundation

/-- The event a restart writes to a run of the given status. -/
structure EventRow.IsRestart (e : EventRow) (previous : RunStatus) : Prop where
  type : e.type = .runOrphaned
  payload : e.payload = .lifecycle .orphaned { retryable := true, previousStatus := previous }
  active : previous.isTerminalRunStatus = false

/-- The status changes of a log follow the table, except where a restart ends the run. -/
structure FollowsTable (log : List EventRow) : Prop where
  starts : (statusPath log).head? = some .accepted
  moves : ∀ before e rest, log = before ++ e :: rest →
    ∀ source ∈ (statusPath before).getLast?, ∀ target ∈ e.statusChange,
      RunStatus.Allowed source target ∨ e.IsRestart source

/-- One more event: a status change has to follow from the status the log ends with. -/
theorem FollowsTable.append {log : List EventRow} (h : FollowsTable log) {e : EventRow}
    (he : ∀ source ∈ (statusPath log).getLast?, ∀ target ∈ e.statusChange,
      RunStatus.Allowed source target ∨ e.IsRestart source) : FollowsTable (log ++ [e]) := by
  refine ⟨?_, fun before e' rest heq ↦ ?_⟩
  · rw [statusPath_append, List.head?_append, h.starts]
    rfl
  · rcases List.eq_nil_or_concat rest with rfl | ⟨rest', last, rfl⟩
    · obtain ⟨rfl, hlast⟩ := List.append_inj' heq rfl
      obtain rfl := List.head_eq_of_cons_eq hlast
      exact he
    · rw [List.concat_eq_append, ← List.cons_append, ← List.append_assoc] at heq
      exact h.moves before e' rest' (List.append_inj' heq rfl).1

namespace Store

/-- A row whose log follows the table still has one after an issued event. -/
theorem LogStep.followsTable {L : Licence} {S S' : Store} (h : LogStep L S S') (hlogged : S.Logged)
    (hS : S.EachRun fun _ log ↦ FollowsTable log) : S'.EachRun fun _ log ↦ FollowsTable log := by
  cases h with
  | silent hruns hevents => exact hS.congr hruns hevents
  | created hid hlicence h =>
    refine hS.created hlogged h ⟨rfl, fun before e rest heq source hsource ↦ ?_⟩
    -- the only event of the log has no status before it
    obtain ⟨rfl, -⟩ := (List.append_eq_singleton_iff.mp heq.symm).resolve_right (by simp)
    exact absurd hsource (by simp [statusPath])
  | @event createdAt params row h hcoherent hsets hstatus hruns hevents =>
    refine (hS.recorded hlogged.ids h fun hlog ↦ hlog.append ?_).congr hruns hevents
    intro source hsource target htarget
    have hfold := hlogged.fold row (run?_mem h.row_eq).1
    obtain rfl := Option.some.inj (hfold.status.symm.trans hsource)
    have htarget' : params.status = some target := hcoherent.status.trans htarget
    refine (hstatus target htarget').imp id fun hrestart ↦ ⟨hrestart.type, hrestart.payload, ?_⟩
    -- a terminal run takes no event with a status
    refine Bool.eq_false_iff.mpr fun ht ↦ ?_
    exact absurd (htarget'.symm.trans (h.keeps_terminal ht)) (by simp)

end Store

namespace Service

variable {H : Host} {O : Options}

/-- **The statuses of a run follow the table**, but for the restarts that end it: after any history
of the service every log starts with `ACCEPTED`, and each status change is a move of the table or
the `run.orphaned` a restart writes to a run that was not terminal. -/
theorem log_followsTable (history : List Input) (runId : JsString) (row : RunRow)
    (hrow : (after H O {} history).store.run? runId = some row) :
    FollowsTable ((after H O {} history).store.eventsOf runId) := by
  have hall : (after H O {} history).store.EachRun fun _ log ↦ FollowsTable log := by
    refine Reachable.induction (p := fun s ↦ s.store.EachRun fun _ log ↦ FollowsTable log)
      (fun _ h ↦ absurd h List.not_mem_nil) (fun s input hs hlogs ↦ ?_) ⟨history, rfl⟩
    obtain ⟨L, hevolves⟩ := step_evolves O hs.logged input
    exact (hevolves.preserves_log (p := fun S ↦ S.Logged ∧ S.EachRun fun _ log ↦ FollowsTable log)
      (fun _ _ hstep hS ↦ ⟨hstep.logged hS.1, hstep.followsTable hS.1 hS.2⟩) ⟨hs.logged, hlogs⟩).2
  obtain ⟨hmem, rfl⟩ := Store.run?_mem hrow
  exact hall row hmem

/-- A run that is accepted and then found by a restart. -/
theorem log_followsTable_restart :
    ∃ row, (after referenceHost referenceOptions {} [.createRun rootRequest, .restart]).store.run?
        (js "run_0") = some row ∧
      FollowsTable ((after referenceHost referenceOptions {}
        [.createRun rootRequest, .restart]).store.eventsOf (js "run_0")) := by
  obtain ⟨row, hrow⟩ := Option.isSome_iff_exists.mp (show Option.isSome ((after referenceHost
    referenceOptions {} [.createRun rootRequest, .restart]).store.run? (js "run_0")) = true by
      decide +kernel)
  exact ⟨row, hrow, log_followsTable _ _ row hrow⟩

/-- The restart takes an accepted run where the table does not lead. -/
theorem not_isChain_allowed_restart :
    ¬∀ (H : Host) (O : Options) (history : List Input) (runId : JsString),
      (statusPath ((after H O {} history).store.eventsOf runId)).IsChain RunStatus.Allowed := by
  intro h
  have hpath : statusPath ((after referenceHost referenceOptions {}
      [.createRun rootRequest, .restart]).store.eventsOf (js "run_0")) = [.accepted, .orphaned] := by
    decide +kernel
  have hchain := h referenceHost referenceOptions [.createRun rootRequest, .restart] (js "run_0")
  rw [hpath] at hchain
  exact absurd hchain (by decide)

end Service

end LiteHarness
