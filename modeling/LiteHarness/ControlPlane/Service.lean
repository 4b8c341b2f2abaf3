import LiteHarness.ControlPlane.ApprovalDigest
import LiteHarness.Storage.Operations

/-!
# The run service: state and transitions of runs

The state of one Manager process: the database, the service's in-memory maps, and for every run it
has queued the local variables of its `#execute` call together with the point at which that call is
suspended. A program over this state is one stretch of code between two suspensions of the event
loop.

The clock and the random ids come from the host, as arbitrary sequences the process reads through
two counters: nothing relates two readings, and ids may repeat.

Observability, event-emitter notifications and the timing maps they use are left out; they are
wrapped so that they cannot affect a run.
-/

namespace LiteHarness

open Foundation Foundation.Eff

/-- The host with its clock and its source of random ids. -/
structure Host extends Platform where
  /-- `Date.now()`, reading by reading. -/
  clock : ℕ → ℤ
  /-- `randomUUID().replaceAll("-", "")`, draw by draw. -/
  uuid : ℕ → JsString

/-- A host to evaluate the model on: its clock counts, and so do its ids. -/
def referenceHost : Host where
  toPlatform := referencePlatform
  clock n := n
  uuid := decimal

/-! ## Messages and events of the agent -/

/-- A message of the model conversation. -/
structure ModelMessage where
  role : SessionMessageRole
  content : JsString
  toolCalls : List ToolCall := []
  toolCallId : Option JsString := none

def toModelMessage (message : MessageRow) : ModelMessage where
  role := if message.role = .system then .user else message.role
  content := message.content
  toolCalls :=
    match message.role, message.metadata with
    | .assistant, .assistant _ calls => calls
    | _, _ => []
  toolCallId :=
    match message.role, message.metadata with
    | .tool, .tool callId _ => some callId
    | _, _ => none

/-- Why a model turn ended. -/
inductive FinishReason where
  | stop | toolCalls
  deriving DecidableEq

/-- An event of a model stream. -/
inductive ModelEvent where
  | textDelta (delta : JsString)
  | toolCall (call : ToolCall)
  | usage (inputTokens outputTokens costUsd : JsValue)
  | completed (finishReason : FinishReason)

/-- An artifact a tool published. -/
structure Artifact where
  artifactId : JsString
  path : JsString
  sha256 : JsString
  sizeBytes : ℕ

/-! ## Configuration -/

/-- The options of the service, and the parts of its collaborators it calls synchronously. -/
structure Options where
  workspaceLeaseTtlMs : ℤ
  workspaceQueueTimeoutMs : ℤ
  approvalTimeoutMs : ℤ
  maxSubagentDepth : ℤ
  requireAuthoritativeUsage : Bool
  allowUnmeteredUsage : Bool
  requiresApproval : ToolCall → RunRecord → Bool
  /-- `workspaceLifecycle` is configured. -/
  workspaceLifecycle : Bool
  /-- `runSnapshot` is configured. -/
  runSnapshot : Bool
  /-- The schema check of a call's arguments. -/
  validateToolArguments : RunRecord → ToolCall → Except JsError Unit
  /-- The context-window check of a turn's messages. -/
  assertModelContextFits : RunRecord → List ModelMessage → Except JsError Unit
  /-- The artifact a result of `artifact_publish` describes. -/
  artifactCreated : ToolCall → ToolResult → Except JsError (Option Artifact)
  /-- The constructor rejects shorter leases. -/
  ttl_bound : 20 ≤ workspaceLeaseTtlMs

/-- Options to evaluate the model with: every tool call needs an approval, and workspaces are
restored and checkpointed. -/
def referenceOptions : Options where
  workspaceLeaseTtlMs := 60000
  workspaceQueueTimeoutMs := 30000
  approvalTimeoutMs := 60000
  maxSubagentDepth := 3
  requireAuthoritativeUsage := false
  allowUnmeteredUsage := false
  requiresApproval _ _ := true
  workspaceLifecycle := true
  runSnapshot := false
  validateToolArguments _ _ := .ok ()
  assertModelContextFits _ _ := .ok ()
  artifactCreated _ _ := .ok none
  ttl_bound := by decide

/-! ## The state of the process -/

/-- The local variables of `AgentRunner.run`. -/
structure AgentState where
  instructions : JsString
  messages : List ModelMessage
  turn : ℕ := 0
  assistantText : JsString := []
  toolCalls : List ToolCall := []
  finishReason : Option FinishReason := none
  sawTerminalEvent : Bool := false
  sawUsageEvent : Bool := false

/-- Where the agent loop is suspended. -/
inductive AgentPoint where
  /-- Before the first turn: route, tools, context and snapshot are being prepared. -/
  | preparing
  /-- In the model stream. -/
  | streaming
  /-- In the promise of an approval; `decision` is what it was settled with. -/
  | awaitingApproval (call : ToolCall) (rest : List ToolCall) (approvalId : JsString)
      (decision : Option Bool)
  /-- `beforeToolCall` has resolved, with the approval whose execution it guards. -/
  | authorized (call : ToolCall) (rest : List ToolCall) (approval : Option JsString)
  /-- In `tools.execute`. -/
  | executing (call : ToolCall) (rest : List ToolCall)

/-- Where `#execute` is suspended. -/
inductive Point where
  /-- Waiting for the predecessors in the queue. -/
  | queued
  /-- In the delay of `#waitForWorkspaceLease`. -/
  | waitingLease (deadline : ℤ)
  /-- `#waitForWorkspaceLease` has resolved. -/
  | leaseAcquired (lease : WorkspaceLease)
  /-- In `workspaceLifecycle.prepare`. -/
  | preparing
  /-- In `agent.run`. -/
  | agent (point : AgentPoint) (state : AgentState)
  /-- An awaited promise of the `try` block was rejected. -/
  | rejected (error : JsError)
  /-- `agent.run` has resolved. -/
  | returned
  /-- In `workspaceLifecycle.checkpoint`. -/
  | checkpointing
  /-- In `releaseRun`. -/
  | releasing
  /-- The execution promise has settled. -/
  | settled

def Point.isSettled : Point → Bool
  | .settled => true
  | _ => false

@[simp] theorem Point.isSettled_iff {point : Point} : point.isSettled = true ↔ point = .settled := by
  cases point <;> simp [isSettled]

/-- The variable `terminal` of `#execute`, which always holds a status that ends the run. -/
structure TerminalResult where
  status : RunStatus
  type : RunEventType
  payload : TransitionPayload := {}
  ends : status.isTerminalRunStatus = true ∧ type.changesStatus = true

/-- One queued run: its place in the queue and the local variables of its execution. -/
structure Execution where
  runId : JsString
  run : RunRecord
  keys : List JsString
  /-- The runs whose tails this one waits for. -/
  predecessors : List JsString
  /-- The queue timer is armed. -/
  queueTimeout : Bool := true
  point : Point := .queued
  /-- `controller.signal.reason`, once aborted. -/
  abortReason : Option JsError := none
  attempt : Option JsString := none
  /-- The total-timeout timer is armed. -/
  timeout : Bool := false
  lease : Option WorkspaceLease := none
  /-- The renewal interval is running. -/
  renewal : Bool := false
  /-- `leaseLoss.signal.aborted`. -/
  leaseLost : Bool := false
  workspacePrepared : Bool := false
  terminal : Option TerminalResult := none
  /-- The entries of the settled promise have been removed from the maps. -/
  drained : Bool := false

/-- An entry of `#approvalWaiters`, with what its abort listener closes over. -/
structure ApprovalWaiter where
  approvalId : JsString
  runId : JsString
  executionDigest : JsString

/-- A call that reached `tools.execute`. -/
structure ToolExecution where
  runId : JsString
  call : ToolCall
  approval : Option JsString

/-- The Manager process. -/
structure Service where
  store : Store := {}
  accepting : Bool := true
  /-- The runs waiting for their `setImmediate` callback. -/
  scheduled : List RunRecord := []
  /-- The keys of `#active`. -/
  active : List JsString := []
  steering : List (JsString × List JsString) := []
  approvalWaiters : List ApprovalWaiter := []
  /-- `#queueTails`: each key with the run whose promise is its tail. -/
  queueTails : List (JsString × JsString) := []
  executions : List Execution := []
  /-- `approvalRouteGeneration`, which may change while the process runs. -/
  routeGeneration : RunRecord → JsString := fun _ ↦ js "default-route-v1"
  /-- The calls `tools.execute` was given, oldest first. -/
  executed : List ToolExecution := []
  readings : ℕ := 0
  draws : ℕ := 0

/-- A stretch of code of the service. -/
abbrev ServiceM := Eff Service JsError

namespace Service

/-! ## Primitives -/

variable (H : Host)

/-- `Date.now()`. -/
def now : ServiceM ℤ := do
  let s ← get
  modify fun s ↦ { s with readings := s.readings + 1 }
  pure (H.clock s.readings)

/-- `createId(prefix)`, and the internal ids of the store. -/
def createId (kind : String) : ServiceM JsString := do
  let s ← get
  modify fun s ↦ { s with draws := s.draws + 1 }
  pure (js kind ++ js "_" ++ H.uuid s.draws)

/-- Call an operation of the store. -/
def onStore {α : Type} (m : StoreM α) : ServiceM α :=
  zoom Service.store (fun S s ↦ { s with store := S }) m

def getRun (runId : JsString) : ServiceM (Option RunRecord) := do
  let s ← get
  pure (s.store.getRun runId)

def execution? (s : Service) (runId : JsString) : Option Execution :=
  Table.lookup Execution.runId runId s.executions

/-- Assign to local variables of an execution. -/
def updateExecution (runId : JsString) (f : Execution → Execution) : ServiceM PUnit :=
  modify fun s ↦
    { s with executions := Table.update (fun e ↦ e.runId = runId) f s.executions }

def setPoint (runId : JsString) (point : Point) : ServiceM PUnit :=
  updateExecution runId fun e ↦ { e with point }

/-- `signal.throwIfAborted()` on the controller of an execution. -/
def throwIfAborted (runId : JsString) : ServiceM PUnit := do
  let s ← get
  match (s.execution? runId).bind Execution.abortReason with
  | some reason => throw reason
  | none => pure ⟨⟩

/-! ## Events and transitions -/

def appendEvent (params : AppendRunEvent) : ServiceM EventRow := do
  let createdAt ← now H
  onStore (Store.appendEvent createdAt params)

/-- The summary a parent gets when its child ends. -/
def appendSubagentSummary (run : RunRecord) (parentRunId : JsString) (status : RunStatus)
    (payload : TransitionPayload) : ServiceM PUnit := do
  let s ← get
  let summary := (s.store.getLastEvent run.id .agentMessageCompleted).bind fun e ↦ e.payload.content
  tryCatch
    (do
      let _ ← appendEvent H
        { runId := parentRunId, type := .subagentCompleted
          payload := .subagentCompleted run.id status summary payload.code })
    fun error ↦ do
      match ← getRun parentRunId with
      | some parent => if parent.status.isTerminalRunStatus then pure ⟨⟩ else throw error
      | none => throw error

/-- `#transition`: the only writer that consults the transition table. -/
def transition (runId : JsString) (status : RunStatus) (type : RunEventType)
    (payload : TransitionPayload := {}) : ServiceM PUnit := do
  match ← getRun runId with
  | none => throw (.new (js "Run not found: " ++ runId))
  | some run =>
    fromExcept (RunStatus.assertRunTransition run.status status)
    let _ ← appendEvent H
      { runId, type, payload := .lifecycle status payload, status := some status
        errorCode := payload.code, errorMessage := payload.message }
    if status.isTerminalRunStatus then
      match run.parentRunId with
      | some parentRunId => appendSubagentSummary H run parentRunId status payload
      | none => pure ⟨⟩

/-- `#transitionIfActive`: whether the run was still active. -/
def transitionIfActive (runId : JsString) (status : RunStatus) (type : RunEventType) :
    ServiceM Bool := do
  match ← getRun runId with
  | none => pure false
  | some run =>
    if run.status.isTerminalRunStatus then pure false
    else
      transition H runId status type
      pure true

end Service

/-! ## Errors -/

/-- `new RunTimeoutError(timeoutMs)`. -/
def runTimeoutError (N : NumberLiterals) (timeoutMs : ℚ) : JsError :=
  ⟨.runTimeout, js "Run exceeded its total timeout of " ++ N.literal timeoutMs ++ js "ms"⟩

def runCancelledError : JsError := ⟨.runCancelled, js "Run was cancelled"⟩

def workspaceLeaseLostError : JsError := ⟨.workspaceLeaseLost, js "Workspace lease was lost"⟩

def budgetExceededError (kind : JsString) : JsError :=
  ⟨.budgetExceeded, js "Run exceeded its " ++ kind ++ js " budget"⟩

namespace Service

/-- `acceptedDeadline(run)`. -/
def acceptedDeadline (run : RunRecord) : ℚ := run.createdAt + run.budget.totalTimeoutMs

/-- `#timeoutQueuedRun`. -/
def timeoutQueuedRun (H : Host) (runId : JsString) (timeoutMs : ℚ) : ServiceM PUnit := do
  match ← getRun runId with
  | none => pure ⟨⟩
  | some run =>
    if run.status = .queued then
      transition H runId .timedOut .runTimedOut
        { code := js "run_timeout", message := (runTimeoutError H.toNumberLiterals timeoutMs).message
          retryable := true, phase := js "queue" }
    else pure ⟨⟩

end Service

end LiteHarness
