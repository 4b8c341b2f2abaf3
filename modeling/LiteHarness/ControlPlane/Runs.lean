import LiteHarness.ControlPlane.Approvals
import LiteHarness.ControlPlane.ChildBudget

/-!
# Creating, steering and cancelling runs

The public operations of the service on runs: creation, child creation, steering, cancellation with
its recursion over the child tree, shutdown, and the reconciliation a restarted Manager performs.
-/

namespace LiteHarness

open Foundation Foundation.Eff

/-- What a creation answers. -/
structure CreateRunResponse where
  runId : JsString
  status : RunStatus
  eventCursor : ℕ
  idempotentReplay : Bool

/-- A request for a child run. -/
structure ChildRunRequest where
  parentRunId : JsString
  agent : JsString
  input : JsString
  idempotencyKey : JsString
  budget : Option RunBudgetOverrides := none

/-- The given fields of a partial budget agree with a budget. -/
def RunBudgetOverrides.AgreesWith (b : RunBudgetOverrides) (budget : RunBudget) : Prop :=
  (∀ q ∈ b.maxTurns, budget.maxTurns = q) ∧ (∀ q ∈ b.maxToolCalls, budget.maxToolCalls = q) ∧
    (∀ q ∈ b.maxInputTokens, budget.maxInputTokens = q) ∧
    (∀ q ∈ b.maxOutputTokens, budget.maxOutputTokens = q) ∧
    (∀ q ∈ b.maxCostUsd, budget.maxCostUsd = q) ∧
    (∀ q ∈ b.totalTimeoutMs, budget.totalTimeoutMs = q) ∧
    (∀ q ∈ b.modelIdleTimeoutMs, budget.modelIdleTimeoutMs = q) ∧
    (∀ q ∈ b.commandTimeoutMs, budget.commandTimeoutMs = q)

instance (b : RunBudgetOverrides) (budget : RunBudget) : Decidable (b.AgreesWith budget) :=
  inferInstanceAs (Decidable (_ ∧ _ ∧ _ ∧ _ ∧ _ ∧ _ ∧ _ ∧ _))

namespace Service

variable (H : Host) (O : Options)

/-! ## Creation -/

def createRun (request : InternalStartRunRequest) : ServiceM CreateRunResponse := do
  let s ← get
  if s.accepting = false then throw (.new (js "Run service is shutting down"))
  else
    let id ← createId H "run"
    let t ← now H
    let agent ← createId H "agt"
    let workspace ← createId H "wsp"
    let session ← createId H "ses"
    let (run, created) ← onStore
      (Store.createOrGetRun H.toPlatform t ⟨agent, workspace, session⟩ id request)
    if created then
      modify fun s ↦ { s with scheduled := s.scheduled ++ [run] }
      pure ⟨run.id, run.status, run.lastSequence, false⟩
    else pure ⟨run.id, run.status, run.lastSequence, true⟩

/-- The checks of `createChildRun` on the two agent profiles. -/
def requireSubagentAuthority (parentProfile : Option AgentProfileRecord)
    (childProfile : AgentProfileRecord) : Except JsError PUnit :=
  match parentProfile with
  | none => .ok ⟨⟩
  | some parentProfile =>
    if ∃ tool ∈ childProfile.allowedTools, tool ∉ parentProfile.allowedTools then
      .error (.new (js "Subagent tool authority must be a subset of the parent agent"))
    else if ∃ capability ∈ childProfile.modelCapabilities,
        capability ∉ parentProfile.modelCapabilities then
      .error (.new (js "Subagent model capabilities must be a subset of the parent agent"))
    else .ok ⟨⟩

/-- The request a granted child is created with. -/
def childRunRequest (parent : RunRecord) (request : ChildRunRequest) (idempotencyKey : JsString)
    (budget : RunBudget) : InternalStartRunRequest :=
  let suffix := (H.sha256 idempotencyKey).take 24
  { agent := request.agent
    workspace := js "wsp_sub_" ++ suffix
    session := js "ses_sub_" ++ suffix
    providerConnectionId := parent.providerConnectionId
    input := request.input
    budget := budget.toOverrides
    idempotencyKey
    parentRunId := parent.id
    depth := some (parent.depth + 1)
    deliveryAllowed := false
    createIfMissing := true
    principal := parent.owner }

def createChildRun (request : ChildRunRequest) : ServiceM CreateRunResponse := do
  let unavailable := JsError.new (js "Parent run is unavailable or terminal")
  match ← getRun request.parentRunId with
  | none => throw unavailable
  | some parent =>
    if parent.status.isTerminalRunStatus then throw unavailable
    else if O.maxSubagentDepth ≤ parent.depth then
      throw (.new (js "Subagent nesting limit reached"))
    else
      let s ← get
      match s.store.getAgentProfile request.agent parent.owner with
      | none => throw (.new (js "Subagent agent profile is unavailable: " ++ request.agent))
      | some childProfile =>
        fromExcept (requireSubagentAuthority
          (s.store.getAgentProfile parent.agentId parent.owner) childProfile)
        let existing := s.store.listChildRuns parent.id
        let idempotencyKey := js "subagent:" ++ parent.id ++ colon :: request.idempotencyKey
        match existing.find? fun child ↦ child.idempotencyKey = idempotencyKey with
        | some replay =>
          if replay.agentId ≠ request.agent ∨ replay.input ≠ request.input ∨
              ¬(request.budget.getD {}).AgreesWith replay.budget then
            throw (.new
              (js "Subagent idempotency key was reused with a different request"))
          else pure ⟨replay.id, replay.status, replay.lastSequence, true⟩
        | none =>
          let available := remainingChildBudget parent existing
          let budget ← fromExcept (boundedChildBudget (request.budget.getD {}) parent available)
          let start := childRunRequest H parent request idempotencyKey budget
          let result ← createRun H start
          if result.idempotentReplay then pure result
          else
            let _ ← appendEvent H
              { runId := parent.id, type := .subagentStarted
                payload := .subagentStarted result.runId request.agent start.workspace
                  (parent.depth + 1) }
            pure result

/-! ## Steering -/

def steerRun (runId instruction : JsString) : ServiceM (Option RunRecord) := do
  let inactive := JsError.new (js "Run is not active")
  match ← getRun runId with
  | none => throw inactive
  | some run =>
    if run.status.isTerminalRunStatus then throw inactive
    else
      modify fun s ↦
        { s with
          steering := Table.upsert Prod.fst (runId, [instruction])
            (fun entry ↦ (entry.1, entry.2 ++ [instruction])) s.steering }
      match run.sessionId with
      | some sessionId =>
        let id ← createId H "msg"
        let t ← now H
        let _ ← onStore (Store.appendSessionMessage t
          { id, sessionId, runId, role := .user, content := instruction, metadata := .steering })
      | none => pure ⟨⟩
      let _ ← appendEvent H { runId, type := .runSteered, payload := .steered instruction }
      getRun runId

/-! ## Cancellation -/

/-- `cancelRun` on a call stack of bounded depth. -/
def cancelRunWithin : ℕ → JsString → ServiceM PUnit
  | 0, _ => throw (.new (js "Maximum call stack size exceeded"))
  | depth + 1, runId => do
    match ← getRun runId with
    | none => pure ⟨⟩
    | some run =>
      if run.status.isTerminalRunStatus then pure ⟨⟩
      else
        let s ← get
        forEach (cancelRunWithin depth) ((s.store.listChildRuns runId).map RunRecord.id)
        let s ← get
        if runId ∈ s.active then abort H runId runCancelledError
        else transition H runId .cancelled .runCancelled { reason := js "requested" }

/-- `cancelRun`. A chain of children has no repetition, so the stack never holds more calls than
there are runs, and one more for the last check. -/
def cancelRun (runId : JsString) : ServiceM (Option RunRecord) := do
  let s ← get
  cancelRunWithin H (s.store.runs.length + 1) runId
  getRun runId

/-- The runs a shutdown cancels: scheduled, queued or executing, and active. -/
def pendingRunIds (s : Service) : List JsString :=
  (s.scheduled.map RunRecord.id ++
    (s.executions.filter fun e ↦ !e.drained).map Execution.runId ++ s.active).dedup

/-- `shutdown` up to its `await`. -/
def shutdown : ServiceM PUnit := do
  let s ← get
  if s.accepting = false ∧ (s.executions.filter fun e ↦ !e.drained) = [] then pure ⟨⟩
  else
    modify fun s ↦ { s with accepting := false }
    forEach (fun runId ↦ do let _ ← cancelRun H runId) (pendingRunIds s)
    let s ← get
    forEach (fun w ↦ settle w.approvalId false) s.approvalWaiters

/-! ## Restart -/

def restartMessage : JsString :=
  js ("Manager restarted while the run was nonterminal; " ++
    "retry with a new idempotency key.")

/-- The body of the loop of `reconcileInterruptedRuns`. -/
def reconcileRun (run : RunRecord) : ServiceM PUnit := do
  let t ← now H
  let _ ← onStore (Store.completeRunningAttempts t run.id ⟨.orphaned, rfl⟩)
  let _ ← appendEvent H
    { runId := run.id, type := .runOrphaned, status := some .orphaned
      errorCode := js "manager_restarted", errorMessage := restartMessage
      payload := .lifecycle .orphaned { retryable := true, previousStatus := run.status } }

def reconcileInterruptedRuns : ServiceM ℕ := do
  let s ← get
  let interrupted := s.store.listNonTerminalRuns
  forEach (reconcileRun H) interrupted
  pure interrupted.length

end Service

end LiteHarness
