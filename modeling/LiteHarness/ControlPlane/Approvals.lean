import LiteHarness.ControlPlane.Service

/-!
# Approvals of tool calls

Who asks for an approval, who decides it and what is checked before the call runs. An approval is
resolved by the operator, by its expiry timer or by the abort of its run, each through the same
store operation; the promise the agent waits on is settled separately.
-/

namespace LiteHarness

open Foundation Foundation.Eff

/-- The resolver of an approval's promise: an agent loop that still waits for it has its answer. -/
def Execution.settle (approvalId : JsString) (value : Bool) (e : Execution) : Execution :=
  match e.point with
  | .agent (.awaitingApproval call rest id none) a =>
    if id = approvalId then
      { e with point := .agent (.awaitingApproval call rest id (some value)) a }
    else e
  | _ => e

namespace Service

variable (H : Host) (O : Options)

/-! ## The execution binding -/

/-- `#approvalRouteGeneration`. -/
def approvalRouteGeneration (run : RunRecord) : ServiceM JsString := do
  let s ← get
  let generation := s.routeGeneration run
  if generation = [] ∨ 256 < generation.length ∨
      ∃ u ∈ generation, u = 13 ∨ u = 10 ∨ u = 0 then
    throw (.new (js "Approval route generation must be a bounded single-line value"))
  else pure generation

/-- The exception of a digest. -/
def digest (x : Except CanonicalJsonError JsString) : ServiceM JsString :=
  fromExcept (x.mapError fun e ↦ .new e.message)

/-- The binding of a call of a run under a policy and a route. -/
def bindingOf (run : RunRecord) (callId callName argumentsDigest : JsString)
    (policyGeneration : ℤ) (routeGeneration : JsString) (expiresAt : ℤ) :
    ApprovalExecutionBinding where
  runId := run.id
  toolCallId := callId
  toolName := callName
  toolArgumentsDigest := argumentsDigest
  appId := run.owner.appId
  tenantId := run.owner.tenantId
  userId := run.owner.userId
  workspaceId := run.workspaceId
  policyGeneration
  routeGeneration
  expiresAt := H.toISOString expiresAt

/-- `#approvalBindingIsCurrent`: the record still describes its run under the present policy and
route, and, where a call is given, that call. -/
def approvalBindingIsCurrent (record : ApprovalRow) (call : Option ToolCall) : ServiceM Bool := do
  match ← getRun record.runId with
  | none => pure false
  | some run =>
    let s ← get
    match s.store.getAgentProfile run.agentId run.owner with
    | none => pure false
    | some profile =>
      let routeGeneration ← approvalRouteGeneration run
      if record.owner ≠ run.owner ∨ record.workspaceId ≠ run.workspaceId ∨
          record.policyGeneration ≠ profile.version ∨ record.routeGeneration ≠ routeGeneration then
        pure false
      else
        let argumentsDigest ←
          match call with
          | some call => digest (H.approvalArgumentsDigest call.arguments)
          | none => pure record.toolArgumentsDigest
        let executionDigest ← digest (H.approvalExecutionDigest (bindingOf H run
          ((call.map ToolCall.id).getD record.toolCallId)
          ((call.map ToolCall.name).getD record.toolName) argumentsDigest profile.version
          routeGeneration record.expiresAt))
        pure (executionDigest = record.executionDigest)

/-- `#assertApprovalExecutable`: throws unless the approval still authorizes the call. -/
def assertApprovalExecutable (approvalId : JsString) (run : RunRecord) (call : ToolCall) :
    ServiceM PUnit := do
  let s ← get
  let notApproved := JsError.new (js "Tool approval is not approved")
  match s.store.approval? approvalId with
  | none => throw notApproved
  | some approval =>
    if approval.status ≠ .approved then throw notApproved
    else
      let t ← now H
      if approval.expiresAt ≤ t then
        throw (.new (js "Tool approval expired before execution"))
      else
        let changed := JsError.new (js "Tool approval execution binding changed before execution")
        if approval.runId ≠ run.id then throw changed
        else
          let current ← approvalBindingIsCurrent H approval (some call)
          if current then pure ⟨⟩ else throw changed

/-! ## Resolving -/

/-- `resolveApprovalAndAppendEvent` with the payload every caller gives it. -/
def resolveWithEvent (approvalId : JsString) (status : ApprovalResolution)
    (executionDigest : JsString) : ServiceM (Option ApprovalRow) := do
  let resolvedAt ← now H
  let createdAt ← now H
  onStore (Store.resolveApprovalAndAppendEvent resolvedAt createdAt approvalId status
    executionDigest (.approvalResolved approvalId status executionDigest))

/-- The local `settle` of an approval's promise: the first call decides. -/
def settle (approvalId : JsString) (value : Bool) : ServiceM PUnit := do
  let s ← get
  match s.approvalWaiters.find? fun w ↦ w.approvalId = approvalId with
  | none => pure ⟨⟩
  | some waiter =>
    modify fun s ↦
      { s with approvalWaiters := s.approvalWaiters.filter fun w ↦ w.approvalId ≠ approvalId }
    updateExecution waiter.runId (Execution.settle approvalId value)

/-- The abort listener and the expiry timer of a pending approval: resolve the record, then settle
the promise with `false`. -/
def refuse (status : ApprovalResolution) (waiter : ApprovalWaiter) : ServiceM PUnit := do
  let _ ← resolveWithEvent H waiter.approvalId status waiter.executionDigest
  settle waiter.approvalId false

/-- `controller.abort(reason)` for a controller in `#active`: only the first abort takes effect,
and it runs the abort listeners of the run's pending approvals. -/
def abort (runId : JsString) (reason : JsError) : ServiceM PUnit := do
  let s ← get
  match (s.execution? runId).bind Execution.abortReason with
  | some _ => pure ⟨⟩
  | none =>
    updateExecution runId fun e ↦ { e with abortReason := some reason }
    -- an exception of a listener does not reach the caller of `abort`
    forEach (fun w ↦ tryCatch (refuse H ⟨.denied, by decide⟩ w) fun _ ↦ pure ⟨⟩)
      (s.approvalWaiters.filter fun w ↦ w.runId = runId)

/-- `resolveApproval`, the operator's decision. -/
def resolveApproval (approvalId : JsString) (approved : Bool) :
    ServiceM (Option ApprovalRow) := do
  let s ← get
  match s.store.approval? approvalId with
  | none => pure none
  | some existing =>
    if existing.status ≠ .pending then pure (some existing)
    else
      let bindingValid ← approvalBindingIsCurrent H existing none
      let t ← now H
      let status : ApprovalResolution :=
        if existing.expiresAt ≤ t then ApprovalResolution.expired
        else if bindingValid ∧ approved then ⟨.approved, by decide⟩
        else ⟨.denied, by decide⟩
      let first ← resolveWithEvent H approvalId status existing.executionDigest
      -- the store may judge the expiry by a later reading than the service did
      let resolved ←
        if status.1 = .approved ∧ first.map ApprovalRow.status = some .pending then
          resolveWithEvent H approvalId ApprovalResolution.expired existing.executionDigest
        else pure first
      settle approvalId (resolved.map ApprovalRow.status = some .approved)
      pure resolved

/-! ## Authorizing a call -/

/-- `#approveToolIfRequired` up to its `await`: the id of the approval that is now pending, or
nothing where none is required. -/
def approveToolIfRequired (run : RunRecord) (call : ToolCall) (policyGeneration : ℤ) :
    ServiceM (Option JsString) := do
  if O.requiresApproval call run = false then pure none
  else
    throwIfAborted run.id
    let id ← createId H "apr"
    let createdAt ← now H
    let t ← now H
    let expiresAt := t + O.approvalTimeoutMs
    let routeGeneration ← approvalRouteGeneration run
    let argumentsDigest ← digest (H.approvalArgumentsDigest call.arguments)
    let executionDigest ← digest (H.approvalExecutionDigest (bindingOf H run call.id call.name
      argumentsDigest policyGeneration routeGeneration expiresAt))
    let _ ← onStore (Store.createApproval
      { id, runId := run.id, toolCallId := call.id, toolName := call.name
        toolArgumentsDigest := argumentsDigest, executionDigest, owner := run.owner
        workspaceId := run.workspaceId, policyGeneration, routeGeneration, status := .pending
        expiresAt, createdAt, resolvedAt := none })
    let _ ← appendEvent H
      { runId := run.id, type := .approvalRequested
        payload := .approvalRequested id call.id call.name argumentsDigest executionDigest
          expiresAt }
    modify fun s ↦ { s with approvalWaiters := s.approvalWaiters ++ [⟨id, run.id, executionDigest⟩] }
    pure (some id)

/-- The tools a run without delivery may not call. -/
def deliveryTools : List JsString :=
  [js "message_send", js "integration_reply", js "connector_send"]

/-- `#authorizeTool` up to its `await`. -/
def authorizeTool (run : RunRecord) (call : ToolCall) : ServiceM (Option JsString) := do
  let s ← get
  let notAllowed := JsError.new (js "Tool is not allowed by agent policy: " ++ call.name)
  match s.store.getAgentProfile run.agentId run.owner with
  | none => throw notAllowed
  | some profile =>
    if call.name ∉ profile.allowedTools then throw notAllowed
    else if run.deliveryAllowed = false ∧ call.name ∈ deliveryTools then
      throw (.new (js "Delivery tools are disabled for subagent runs"))
    else approveToolIfRequired H O run call profile.version

end Service

end LiteHarness
