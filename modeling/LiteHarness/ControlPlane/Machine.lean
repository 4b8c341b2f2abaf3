import LiteHarness.ControlPlane.Execute

/-!
# The service as a state machine

An input is one thing that can happen to the Manager process: a call of a public operation, a timer
that fires, a promise that settles, a restart. `step` runs the stretch of code the input wakes, up
to its next suspension; an input that does not fit the state wakes nothing.

Any history of inputs is allowed, so timers fire early, late or not at all, promises settle in any
order, and stretches of different runs interleave wherever the code suspends. An exception that
leaves a stretch is seen by its caller only and is not part of the state.
-/

namespace LiteHarness

open Foundation Foundation.Eff

/-- What can happen to the process. The failures of collaborators carry their message: an exception
of the service's own classes reaches the collaborators only through the abort signal. -/
inductive Input where
  | createRun (request : InternalStartRunRequest)
  | createChildRun (request : ChildRunRequest)
  | steerRun (runId instruction : JsString)
  | cancelRun (runId : JsString)
  | resolveApproval (approvalId : JsString) (approved : Bool)
  | shutdown
  | createAgentProfile (record : AgentProfileRecord)
  | deleteAgentProfile (id : JsString) (owner : ResourceOwner)
  | createWorkspace (record : WorkspaceRecord)
  | createProviderConnection (record : ProviderConnectionRecord)
  | updateProviderConnection (id : JsString) (owner : ResourceOwner)
      (status : ProviderConnectionStatus) (lastErrorCode : Option JsString)
  | deleteProviderConnection (id : JsString) (owner : ResourceOwner)
  /-- `approvalRouteGeneration` yields other values from now on. -/
  | reconfigure (routeGeneration : RunRecord → JsString)
  /-- The process is replaced by a new one on the same database. -/
  | restart
  /-- The `setImmediate` callback of a creation. -/
  | immediate (runId : JsString)
  | queueTimeout (runId : JsString)
  /-- All predecessors of a queued run have settled. -/
  | predecessorsSettled (runId : JsString)
  /-- The `finally` callback of a settled execution. -/
  | drain (runId : JsString)
  | totalTimeout (runId : JsString)
  | leaseRenewal (runId : JsString)
  /-- The delay between two tries for the lease is over, by its timer or by the abort signal. -/
  | leaseDelay (runId : JsString) (aborted : Bool)
  /-- The continuation of a promise that has settled runs. -/
  | resume (runId : JsString)
  | workspacePrepared (runId : JsString) (outcome : Except JsString PrepareResult)
  | agentPrepared (runId : JsString) (outcome : Except JsString AgentPreparation)
  | modelEvent (runId : JsString) (event : ModelEvent)
  | modelDone (runId : JsString)
  /-- The model stream failed, was idle for too long, or was aborted. -/
  | modelFailed (runId message : JsString)
  | approvalTimeout (approvalId : JsString)
  | toolReturned (runId : JsString) (outcome : Except JsString ToolResult)
  | checkpointed (runId : JsString) (outcome : Except JsString CheckpointResult)
  | released (runId : JsString) (outcome : ReleaseOutcome)

namespace Service

variable (H : Host) (O : Options)

/-- The promise of a run's agent loop is woken at the point `point`. -/
def wakeAgent (e : Execution) (a : AgentState) : AgentPoint → Input → ServiceM PUnit
  | .preparing, .agentPrepared _ (.ok preparation) =>
    agentStretch e.runId (agentPrepared H O e a preparation)
  | .preparing, .agentPrepared _ (.error message) =>
    setPoint e.runId (.rejected (.new message))
  | .streaming, .modelEvent _ event => agentStretch e.runId (modelEvent H e a event)
  | .streaming, .modelDone _ => agentStretch e.runId (modelDone H O e a)
  | .streaming, .modelFailed _ message => setPoint e.runId (.rejected (.new message))
  | .awaitingApproval call rest id (some approved), .resume _ =>
    agentStretch e.runId (approvalSettled a call rest id approved)
  | .authorized call rest approval, .resume _ =>
    agentStretch e.runId (executeTool H e a call rest approval)
  | .executing call rest, .toolReturned _ (.ok result) =>
    agentStretch e.runId (toolReturned H O e a call rest result)
  | .executing _ _, .toolReturned _ (.error message) =>
    setPoint e.runId (.rejected (.new message))
  | _, _ => pure ⟨⟩

/-- The execution of a run is woken. -/
def wake (e : Execution) : Point → Input → ServiceM PUnit
  | .queued, .predecessorsSettled _ => do
    let s ← get
    if ∀ r ∈ e.predecessors, ∃ p ∈ s.execution? r, p.point.isSettled = true then
      startExecution H O e
    else pure ⟨⟩
  | .settled, .drain _ => if e.drained then pure ⟨⟩ else drain e
  | .waitingLease deadline, .leaseDelay _ aborted =>
    match aborted, e.abortReason with
    | true, none => pure ⟨⟩
    | true, some reason => execution H O e.runId (throw reason)
    | false, _ =>
      execution H O e.runId do
        let point ← waitForWorkspaceLease H O e.run deadline
        pure (some point)
  | .leaseAcquired lease, .resume _ => execution H O e.runId (leaseGranted H O e lease)
  | .preparing, .workspacePrepared _ (.ok prepared) =>
    execution H O e.runId (workspacePrepared H e prepared)
  | .preparing, .workspacePrepared _ (.error message) =>
    execution H O e.runId (throw (.new message))
  | .agent point a, input => wakeAgent H O e a point input
  | .rejected error, .resume _ => execution H O e.runId (throw error)
  | .returned, .resume _ => execution H O e.runId (agentReturned H O e.runId)
  | .checkpointing, .checkpointed _ outcome => checkpointed H e outcome
  | .releasing, .released _ outcome => released H e outcome
  | _, _ => pure ⟨⟩

/-- The input concerns the execution of this run, if there is one. -/
def onExecution (runId : JsString) (f : Execution → ServiceM PUnit) : ServiceM PUnit := do
  let s ← get
  match s.execution? runId with
  | some e => f e
  | none => pure ⟨⟩

/-- The stretch of code an input wakes. -/
def handle (input : Input) : ServiceM PUnit :=
  match input with
  | .createRun request => do let _ ← createRun H request
  | .createChildRun request => do let _ ← createChildRun H O request
  | .steerRun runId instruction => do let _ ← steerRun H runId instruction
  | .cancelRun runId => do let _ ← cancelRun H runId
  | .resolveApproval approvalId approved => do let _ ← resolveApproval H approvalId approved
  | .shutdown => shutdown H
  | .createAgentProfile record => do
    let internalId ← createId H "agt"
    let _ ← onStore (Store.createAgentProfile internalId record)
  | .deleteAgentProfile id owner => do let _ ← onStore (Store.deleteAgentProfile id owner)
  | .createWorkspace record => do
    let internalId ← createId H "wsp"
    onStore (Store.createWorkspace internalId record)
  | .createProviderConnection record => do
    let internalId ← createId H "pc"
    onStore (Store.createProviderConnection internalId record)
  | .updateProviderConnection id owner status lastErrorCode => do
    let t ← now H
    onStore (Store.updateProviderConnection t id owner status lastErrorCode)
  | .deleteProviderConnection id owner => onStore (Store.deleteProviderConnection id owner)
  | .reconfigure routeGeneration => modify fun s ↦ { s with routeGeneration }
  | .restart => do
    modify fun s ↦ { store := s.store, readings := s.readings, draws := s.draws
                     executed := s.executed, routeGeneration := s.routeGeneration }
    let _ ← reconcileInterruptedRuns H
  | .immediate runId => do
    let s ← get
    match s.scheduled.find? fun run ↦ run.id = runId with
    | none => pure ⟨⟩
    | some run =>
      modify fun s ↦ { s with scheduled := s.scheduled.filter fun run ↦ run.id ≠ runId }
      if s.accepting then enqueue H run else pure ⟨⟩
  | .queueTimeout runId => onExecution runId fun e ↦
    if e.queueTimeout then timeoutQueuedRun H runId e.run.budget.totalTimeoutMs else pure ⟨⟩
  | .totalTimeout runId => onExecution runId fun e ↦
    if e.timeout then
      abort H runId (runTimeoutError H.toNumberLiterals e.run.budget.totalTimeoutMs)
    else pure ⟨⟩
  | .leaseRenewal runId => onExecution runId fun e ↦
    if e.renewal ∧ e.leaseLost = false then renewLease H O e else pure ⟨⟩
  | .approvalTimeout approvalId => do
    let s ← get
    match s.approvalWaiters.find? fun w ↦ w.approvalId = approvalId with
    | some waiter => refuse H ApprovalResolution.expired waiter
    | none => pure ⟨⟩
  | .predecessorsSettled runId => onExecution runId fun e ↦ wake H O e e.point input
  | .drain runId => onExecution runId fun e ↦ wake H O e e.point input
  | .leaseDelay runId _ => onExecution runId fun e ↦ wake H O e e.point input
  | .resume runId => onExecution runId fun e ↦ wake H O e e.point input
  | .workspacePrepared runId _ => onExecution runId fun e ↦ wake H O e e.point input
  | .agentPrepared runId _ => onExecution runId fun e ↦ wake H O e e.point input
  | .modelEvent runId _ => onExecution runId fun e ↦ wake H O e e.point input
  | .modelDone runId => onExecution runId fun e ↦ wake H O e e.point input
  | .modelFailed runId _ => onExecution runId fun e ↦ wake H O e e.point input
  | .toolReturned runId _ => onExecution runId fun e ↦ wake H O e e.point input
  | .checkpointed runId _ => onExecution runId fun e ↦ wake H O e e.point input
  | .released runId _ => onExecution runId fun e ↦ wake H O e e.point input

/-- The process after an input. -/
def step (s : Service) (input : Input) : Service := ((handle H O input).run s).2

/-- The process after a history of inputs. -/
def after (s : Service) (history : List Input) : Service := history.foldl (step H O) s

/-- A state some history reaches from an empty database. -/
def Reachable (s : Service) : Prop := ∃ history, after H O {} history = s

/-- A request of a root run. -/
def rootRequest : InternalStartRunRequest where
  agent := js "agent"
  workspace := js "workspace"
  input := js "input"
  idempotencyKey := js "key"
  principal := ⟨js "app", js "tenant", js "user"⟩

end Service

end LiteHarness
