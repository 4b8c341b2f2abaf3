import LiteHarness.Domain.Status
import LiteHarness.Platform.JsValue

/-!
# Records of the run store

The records the service and the store exchange: owners, budgets, usage, run requests, events and
their payloads. Token counts, costs and time limits are rational numbers, since nothing in the code
rounds them and the child-budget arithmetic takes whatever finite number it is given; sums are
exact.
-/

namespace LiteHarness

/-! ## Owners -/

/-- The principal a resource belongs to. -/
structure ResourceOwner where
  appId : JsString
  tenantId : JsString
  userId : JsString
  deriving DecidableEq

/-- The string when it is truthy: JavaScript treats an absent and an empty string alike. -/
def truthy : Option JsString → Option JsString
  | some [] => none
  | s => s

theorem truthy_of_ne_nil {s : JsString} (h : s ≠ []) : truthy (some s) = some s := by
  cases s with
  | nil => exact absurd rfl h
  | cons c s => rfl

theorem eq_some_of_truthy {s : Option JsString} {t : JsString} (h : truthy s = some t) :
    s = some t := by
  match s with
  | none => exact h
  | some [] => exact absurd h (by simp [truthy])
  | some (_ :: _) => exact h

/-! ## Budgets and usage -/

/-- The limits of a run. -/
structure RunBudget where
  maxTurns : ℚ
  maxToolCalls : ℚ
  maxInputTokens : ℚ
  maxOutputTokens : ℚ
  maxCostUsd : ℚ
  totalTimeoutMs : ℚ
  modelIdleTimeoutMs : ℚ
  commandTimeoutMs : ℚ
  deriving DecidableEq

/-- A partial budget: the fields a request or a stored default gives. -/
structure RunBudgetOverrides where
  maxTurns : Option ℚ := none
  maxToolCalls : Option ℚ := none
  maxInputTokens : Option ℚ := none
  maxOutputTokens : Option ℚ := none
  maxCostUsd : Option ℚ := none
  totalTimeoutMs : Option ℚ := none
  modelIdleTimeoutMs : Option ℚ := none
  commandTimeoutMs : Option ℚ := none
  deriving DecidableEq

def DEFAULT_RUN_BUDGET : RunBudget where
  maxTurns := 8
  maxToolCalls := 32
  maxInputTokens := 250000
  maxOutputTokens := 64000
  maxCostUsd := 25
  totalTimeoutMs := 15 * 60000
  modelIdleTimeoutMs := 2 * 60000
  commandTimeoutMs := 5 * 60000

/-- A full budget as a partial one. -/
def RunBudget.toOverrides (b : RunBudget) : RunBudgetOverrides where
  maxTurns := some b.maxTurns
  maxToolCalls := some b.maxToolCalls
  maxInputTokens := some b.maxInputTokens
  maxOutputTokens := some b.maxOutputTokens
  maxCostUsd := some b.maxCostUsd
  totalTimeoutMs := some b.totalTimeoutMs
  modelIdleTimeoutMs := some b.modelIdleTimeoutMs
  commandTimeoutMs := some b.commandTimeoutMs

/-- `{ ...base, ...override }`. -/
def RunBudgetOverrides.spread (base override : RunBudgetOverrides) : RunBudgetOverrides where
  maxTurns := override.maxTurns <|> base.maxTurns
  maxToolCalls := override.maxToolCalls <|> base.maxToolCalls
  maxInputTokens := override.maxInputTokens <|> base.maxInputTokens
  maxOutputTokens := override.maxOutputTokens <|> base.maxOutputTokens
  maxCostUsd := override.maxCostUsd <|> base.maxCostUsd
  totalTimeoutMs := override.totalTimeoutMs <|> base.totalTimeoutMs
  modelIdleTimeoutMs := override.modelIdleTimeoutMs <|> base.modelIdleTimeoutMs
  commandTimeoutMs := override.commandTimeoutMs <|> base.commandTimeoutMs

/-- Fills the missing fields with the defaults. -/
def normalizeBudget (value : RunBudgetOverrides) : RunBudget where
  maxTurns := value.maxTurns.getD DEFAULT_RUN_BUDGET.maxTurns
  maxToolCalls := value.maxToolCalls.getD DEFAULT_RUN_BUDGET.maxToolCalls
  maxInputTokens := value.maxInputTokens.getD DEFAULT_RUN_BUDGET.maxInputTokens
  maxOutputTokens := value.maxOutputTokens.getD DEFAULT_RUN_BUDGET.maxOutputTokens
  maxCostUsd := value.maxCostUsd.getD DEFAULT_RUN_BUDGET.maxCostUsd
  totalTimeoutMs := value.totalTimeoutMs.getD DEFAULT_RUN_BUDGET.totalTimeoutMs
  modelIdleTimeoutMs := value.modelIdleTimeoutMs.getD DEFAULT_RUN_BUDGET.modelIdleTimeoutMs
  commandTimeoutMs := value.commandTimeoutMs.getD DEFAULT_RUN_BUDGET.commandTimeoutMs

/-- The recorded usage of a run; `none` is a dimension nothing was reported for. -/
structure RunUsage where
  inputTokens : Option ℚ
  outputTokens : Option ℚ
  costUsd : Option ℚ
  toolCalls : ℕ
  deriving DecidableEq

/-- A partial usage, as an event or a call adds it. -/
structure RunUsageDelta where
  inputTokens : Option ℚ := none
  outputTokens : Option ℚ := none
  costUsd : Option ℚ := none
  toolCalls : Option ℕ := none
  deriving DecidableEq

/-! ## Tool calls -/

/-- A tool call of the model. -/
structure ToolCall where
  id : JsString
  name : JsString
  /-- The arguments record, in insertion order. -/
  arguments : List (JsString × JsValue)

/-- The result of a tool call. -/
structure ToolResult where
  callId : JsString
  ok : Bool
  content : JsString
  metadata : JsValue := .undefined

/-! ## Run requests -/

/-- A request to start a run. -/
structure InternalStartRunRequest where
  agent : JsString
  workspace : JsString
  session : Option JsString := none
  providerConnectionId : Option JsString := none
  input : JsString
  budget : Option RunBudgetOverrides := none
  idempotencyKey : JsString
  principal : ResourceOwner
  parentRunId : Option JsString := none
  depth : Option ℤ := none
  deliveryAllowed : Option Bool := none
  createIfMissing : Option Bool := none
  deriving DecidableEq

/-! ## Events -/

/-- The types of run events. -/
inductive RunEventType where
  | runAccepted | runQueued | runPreparing | runStarted | runSnapshotFrozen | runCheckpointing
  | runTimedOut | runSteered | agentMessageDelta | agentMessageCompleted | toolCallRequested
  | toolCallCompleted | usageUpdated | workspaceLeaseAcquired | workspaceLeaseReleased
  | workspaceRestoreStarted | workspaceRestoreCompleted | workspaceCheckpointCompleted
  | workspaceCheckpointFailed | approvalRequested | approvalResolved | artifactCreated
  | subagentStarted | subagentCompleted | runSucceeded | runFailed | runCancelled | runOrphaned
  deriving DecidableEq

/-- The event type as the program writes it. -/
def RunEventType.text : RunEventType → JsString
  | runAccepted => js "run.accepted"
  | runQueued => js "run.queued"
  | runPreparing => js "run.preparing"
  | runStarted => js "run.started"
  | runSnapshotFrozen => js "run.snapshot.frozen"
  | runCheckpointing => js "run.checkpointing"
  | runTimedOut => js "run.timed_out"
  | runSteered => js "run.steered"
  | agentMessageDelta => js "agent.message.delta"
  | agentMessageCompleted => js "agent.message.completed"
  | toolCallRequested => js "tool.call.requested"
  | toolCallCompleted => js "tool.call.completed"
  | usageUpdated => js "usage.updated"
  | workspaceLeaseAcquired => js "workspace.lease.acquired"
  | workspaceLeaseReleased => js "workspace.lease.released"
  | workspaceRestoreStarted => js "workspace.restore.started"
  | workspaceRestoreCompleted => js "workspace.restore.completed"
  | workspaceCheckpointCompleted => js "workspace.checkpoint.completed"
  | workspaceCheckpointFailed => js "workspace.checkpoint.failed"
  | approvalRequested => js "approval.requested"
  | approvalResolved => js "approval.resolved"
  | artifactCreated => js "artifact.created"
  | subagentStarted => js "subagent.started"
  | subagentCompleted => js "subagent.completed"
  | runSucceeded => js "run.succeeded"
  | runFailed => js "run.failed"
  | runCancelled => js "run.cancelled"
  | runOrphaned => js "run.orphaned"

/-- The event announces a new status of its run. -/
def RunEventType.changesStatus : RunEventType → Bool
  | runAccepted | runQueued | runPreparing | runStarted | runCheckpointing | runTimedOut
  | runSucceeded | runFailed | runCancelled | runOrphaned => true
  | _ => false

/-- The statuses of an approval. -/
inductive ApprovalStatus where
  | pending | approved | denied | expired
  deriving DecidableEq

/-- The statuses an approval can be resolved to. -/
abbrev ApprovalResolution := { s : ApprovalStatus // s ≠ .pending }

/-- The resolution nobody asked for. -/
abbrev ApprovalResolution.expired : ApprovalResolution := ⟨.expired, by decide⟩

/-- What a status change adds to its payload. -/
structure TransitionPayload where
  reason : Option JsString := none
  code : Option JsString := none
  message : Option JsString := none
  retryable : Option Bool := none
  phase : Option JsString := none
  previousStatus : Option RunStatus := none
  deriving DecidableEq

/-- The payload of an event, one constructor for each record the service writes. -/
inductive EventPayload where
  /-- A status change: the status and what the transition adds to it. -/
  | lifecycle (status : RunStatus) (details : TransitionPayload)
  | subagentStarted (childRunId agent workspaceId : JsString) (depth : ℤ)
  | subagentCompleted (childRunId : JsString) (status : RunStatus)
      (summary errorCode : Option JsString)
  | approvalRequested (approvalId toolCallId toolName toolArgumentsDigest
      executionDigest : JsString) (expiresAt : ℤ)
  | approvalResolved (approvalId : JsString) (status : ApprovalStatus) (executionDigest : JsString)
  | workspaceLease (workspaceId : JsString) (fencingToken : ℕ)
  | workspaceRestored (workspaceId : JsString) (recoveredFromPrevious : Bool)
  | checkpointCompleted (workspaceId : JsString) (cold skipped : Bool)
  | checkpointFailed (workspaceId : Option JsString) (message : JsString)
  | snapshotFrozen (attemptId digest : JsString)
  | steered (instruction : JsString)
  | messageDelta (delta : JsString) (turn : ℕ)
  | messageCompleted (content : JsString) (toolCalls : List ToolCall) (turn : ℕ)
  | toolRequested (callId name : JsString) (arguments : List (JsString × JsValue))
  | toolCompleted (callId : JsString) (ok : Bool) (content : JsString) (metadata : JsValue)
  /-- A provider's usage report; the fields are whatever the provider sent. -/
  | usage (inputTokens outputTokens costUsd : JsValue)
  | artifact (artifactId path sha256 : JsString) (sizeBytes : ℕ)

namespace EventPayload

/-- `payload.childRunId`, when it is a string. -/
def childRunId : EventPayload → Option JsString
  | subagentStarted child _ _ _ => some child
  | subagentCompleted child _ _ _ => some child
  | _ => none

/-- `payload.status`, when it is a run status. -/
def runStatus : EventPayload → Option RunStatus
  | lifecycle status _ => some status
  | subagentCompleted _ status _ _ => some status
  | _ => none

/-- `payload.code`, when it is a string. -/
def code : EventPayload → Option JsString
  | lifecycle _ details => details.code
  | _ => none

/-- `payload.message`, when it is a string. -/
def message : EventPayload → Option JsString
  | lifecycle _ details => details.message
  | checkpointFailed _ message => some message
  | _ => none

/-- `payload.content`, when it is a string. -/
def content : EventPayload → Option JsString
  | messageCompleted content _ _ => some content
  | toolCompleted _ _ content _ => some content
  | _ => none

end EventPayload

/-- `numberValue`: a usage figure counts when it is a finite non-negative number. -/
def numberValue : JsValue → Option ℚ
  | .number (.finite q) => if 0 ≤ q then some q else none
  | .number .negativeZero => some 0
  | _ => none

/-- The parameters of `appendEvent`. -/
structure AppendRunEvent where
  runId : JsString
  type : RunEventType
  payload : EventPayload
  status : Option RunStatus := none
  errorCode : Option JsString := none
  errorMessage : Option JsString := none
  usage : Option RunUsageDelta := none

end LiteHarness
