import LiteHarness.ControlPlane.Steps

/-!
# Runs are the folds of their logs

A history mixes inputs of the service with calls of the store. As long as the calls say what they
do to a run, every row is what its log adds up to, whatever fails and rolls back on the way. The
store has two calls that need not say so: `recordUsage` adds to the totals of a run without an
event, and `appendEvent` takes a status that its event does not carry.
-/

namespace LiteHarness

open Foundation

/-- One operation of a history. -/
inductive Operation where
  | service (input : Input)
  | store (op : StoreOp)

/-- The calls of the store in it are coherent. -/
def Operation.Coherent : Operation → Prop
  | service _ => True
  | store op => op.Coherent

namespace Service

variable (H : Host) (O : Options)

/-- The process after an operation. -/
def perform (s : Service) : Operation → Service
  | .service input => step H O s input
  | .store op => { s with store := op.apply H.toPlatform s.store }

/-- The process after a history of operations. -/
def operate (s : Service) (history : List Operation) : Service := history.foldl (perform H O) s

variable {H : Host} {O : Options}

/-- A coherent operation keeps every row the fold of its log. -/
theorem perform_logged {s : Service} (h : s.store.Logged) {op : Operation} (hc : op.Coherent) :
    (perform H O s op).store.Logged := by
  cases op with
  | service input => exact step_logged h input
  | store op => exact op.logged h hc

theorem operate_logged {s : Service} (h : s.store.Logged) {history : List Operation}
    (hc : ∀ op ∈ history, op.Coherent) : (operate H O s history).store.Logged := by
  induction history generalizing s with
  | nil => exact h
  | cons op history ih =>
    exact ih (perform_logged h (hc op List.mem_cons_self)) fun op' hop ↦
      hc op' (List.mem_cons_of_mem _ hop)

/-- A row is what a log adds up to: the events are numbered from one to the row's last sequence
number, the row has the status the log ends with, and its usage is the total of what the log
reports, absent where nothing was reported. -/
def AddsUpTo (log : List EventRow) (row : RunRow) : Prop :=
  log.map EventRow.sequence = List.range' 1 row.lastSequence ∧
    (statusPath log).getLast? = some row.status ∧
    row.usage =
      { inputTokens := reportedTotal RunUsageDelta.inputTokens log
        outputTokens := reportedTotal RunUsageDelta.outputTokens log
        costUsd := reportedTotal RunUsageDelta.costUsd log
        toolCalls := (log.filter fun e ↦ e.type = .toolCallRequested).length }

/-- **Every run is the fold of its log**, after any history of coherent operations. -/
theorem log_addsUpTo_row {history : List Operation} (hc : ∀ op ∈ history, op.Coherent)
    {runId : JsString} {row : RunRow} (hrow : (operate H O {} history).store.run? runId = some row) :
    AddsUpTo ((operate H O {} history).store.eventsOf runId) row := by
  obtain ⟨hmem, rfl⟩ := Store.run?_mem hrow
  have hfold := (operate_logged .empty hc).fold row hmem
  exact ⟨hfold.sequence, hfold.status, hfold.usage_eq⟩

/-! ## Calls that do not say what they do -/

/-- A run whose usage is reported by an event. -/
def loggedUsage : List Operation :=
  [.service (.createRun rootRequest),
    .store (.appendEvent 0
      { runId := js "run_0", type := .usageUpdated
        payload := .usage (.number (.finite 5)) .null .undefined
        usage := some { inputTokens := some 5 } })]

theorem log_addsUpTo_row_loggedUsage :
    ∃ row, (operate referenceHost referenceOptions {} loggedUsage).store.run? (js "run_0")
        = some row ∧
      AddsUpTo ((operate referenceHost referenceOptions {} loggedUsage).store.eventsOf
        (js "run_0")) row := by
  have hc : ∀ op ∈ loggedUsage, op.Coherent := by
    simp [loggedUsage, Operation.Coherent, StoreOp.Coherent]
    exact ⟨rfl, rfl⟩
  obtain ⟨row, hrow⟩ := Option.isSome_iff_exists.mp (show Option.isSome
    ((operate referenceHost referenceOptions {} loggedUsage).store.run? (js "run_0")) = true by
      decide +kernel)
  exact ⟨row, hrow, log_addsUpTo_row hc hrow⟩

/-- A run whose usage is recorded behind the back of its log. -/
def unloggedUsage : List Operation :=
  [.service (.createRun rootRequest), .store (.recordUsage 0 (js "run_0") { inputTokens := some 5 })]

/-- `recordUsage` leaves a total that no event reports. -/
theorem not_addsUpTo_unloggedUsage :
    ¬∀ (H : Host) (O : Options) (history : List Operation) (runId : JsString) (row : RunRow),
      (operate H O {} history).store.run? runId = some row →
        AddsUpTo ((operate H O {} history).store.eventsOf runId) row := by
  intro h
  have husage : ((operate referenceHost referenceOptions {} unloggedUsage).store.run?
      (js "run_0")).map (fun row ↦ row.usage.inputTokens) = some (some 5) := by
    decide +kernel
  have hlog : reportedTotal RunUsageDelta.inputTokens
      ((operate referenceHost referenceOptions {} unloggedUsage).store.eventsOf (js "run_0"))
        = none := by
    decide +kernel
  obtain ⟨row, hrow, hinput⟩ := Option.map_eq_some_iff.mp husage
  rw [(h _ _ _ _ row hrow).2.2, hlog] at hinput
  exact absurd hinput (by simp)

end Service

end LiteHarness
