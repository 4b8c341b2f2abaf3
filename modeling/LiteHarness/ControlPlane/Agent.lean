import LiteHarness.ControlPlane.Runs

/-!
# The agent loop

`AgentRunner.run` between its suspensions, with the callbacks the service hands it. A program of
this file ends at the point where the loop is suspended next, or throws what the loop throws.

What the loop awaits is supplied from outside: the events of the model stream, the results of
tools, and the outcome of the preparation before the first turn.
-/

namespace LiteHarness

open Foundation Foundation.Eff

/-- What the preparation before the first turn yields. -/
structure AgentPreparation where
  /-- The messages the context compiler contributes. -/
  context : List ModelMessage
  /-- The digest of the snapshot that is frozen, where snapshots are configured. -/
  snapshotDigest : JsString

namespace Service

variable (H : Host) (O : Options)

/-! ## Callbacks of the service -/

/-- `#enforceBudget`. -/
def enforceBudget (runId : JsString) : ServiceM PUnit := do
  match ← getRun runId with
  | none => pure ⟨⟩
  | some run =>
    let exceeded : Option JsString :=
      if ∃ used ∈ run.usage.inputTokens, run.budget.maxInputTokens < used then
        some (js "input token")
      else if ∃ used ∈ run.usage.outputTokens, run.budget.maxOutputTokens < used then
        some (js "output token")
      else if ∃ used ∈ run.usage.costUsd, run.budget.maxCostUsd < used then some (js "cost")
      else if run.budget.maxToolCalls < run.usage.toolCalls then some (js "tool call")
      else none
    match exceeded with
    | some kind =>
      let s ← get
      if run.id ∈ s.active then abort H run.id (budgetExceededError kind) else pure ⟨⟩
    | none => pure ⟨⟩

/-- The usage an agent event adds to its run. -/
def usageOf (type : RunEventType) (payload : EventPayload) : Option RunUsageDelta :=
  match type, payload with
  | .usageUpdated, .usage inputTokens outputTokens costUsd =>
    some { inputTokens := numberValue inputTokens, outputTokens := numberValue outputTokens
           costUsd := numberValue costUsd }
  | .toolCallRequested, _ => some { toolCalls := some 1 }
  | _, _ => none

/-- The session message an agent event leaves. -/
def messageOf (type : RunEventType) (payload : EventPayload) :
    Option (SessionMessageRole × JsString × MessageMetadata) :=
  match type, payload with
  | .agentMessageCompleted, .messageCompleted content toolCalls turn =>
    some (.assistant, content, .assistant turn toolCalls)
  | .toolCallCompleted, .toolCompleted callId ok content _ =>
    some (.tool, content, .tool callId ok)
  | _, _ => none

/-- `#appendAgentEvent`. -/
def appendAgentEvent (run : RunRecord) (type : RunEventType) (payload : EventPayload) :
    ServiceM PUnit := do
  match ← getRun run.id with
  | none => pure ⟨⟩
  | some current =>
    if current.status.isTerminalRunStatus then pure ⟨⟩
    else
      let appended ← tryCatch
        (do
          let _ ← appendEvent H { runId := run.id, type, payload, usage := usageOf type payload }
          pure true)
        fun error ↦ do
          let latest ← getRun run.id
          if ((latest.map RunRecord.status).getD run.status).isTerminalRunStatus then pure false
          else throw error
      if appended then
        if type = .usageUpdated ∨ type = .toolCallRequested then enforceBudget H run.id
        match run.sessionId, messageOf type payload with
        | some sessionId, some (role, content, metadata) =>
          let id ← createId H "msg"
          let t ← now H
          let _ ← onStore (Store.appendSessionMessage t
            { id, sessionId, runId := run.id, role, content, metadata })
        | _, _ => pure ⟨⟩

/-- `#takeSteering`. -/
def takeSteering (runId : JsString) : ServiceM (List ModelMessage) := do
  let s ← get
  let queued := ((s.steering.find? fun entry ↦ entry.1 = runId).map Prod.snd).getD []
  modify fun s ↦
    { s with steering := Table.upsert Prod.fst (runId, []) (fun entry ↦ (entry.1, [])) s.steering }
  pure (queued.map fun instruction ↦ { role := .user, content := instruction })

/-- `beforeToolCall` up to its `await`. -/
def beforeToolCall (e : Execution) (call : ToolCall) : ServiceM (Option JsString) := do
  match e.lease with
  | none => throw workspaceLeaseLostError
  | some lease =>
    let t ← now H
    let s ← get
    if Store.validateWorkspaceLease t lease s.store then authorizeTool H O e.run call
    else throw workspaceLeaseLostError

/-! ## Turns -/

/-- The start of a turn, or the error once the turns are used up. -/
def beginTurn (e : Execution) (a : AgentState) : ServiceM Point := do
  if (a.turn : ℚ) < e.run.budget.maxTurns then
    throwIfAborted e.runId
    let steering ← takeSteering e.runId
    let messages := a.messages ++ steering
    fromExcept (O.assertModelContextFits e.run messages)
    throwIfAborted e.runId
    pure (.agent .streaming
      { a with
        messages, assistantText := [], toolCalls := [], finishReason := none
        sawTerminalEvent := false, sawUsageEvent := false })
  else
    throw (.new (js "Agent exceeded the " ++ H.literal e.run.budget.maxTurns ++ js "-turn limit"))

/-- The end of a turn whose tool calls are done. -/
def endTurn (e : Execution) (a : AgentState) : ServiceM Point :=
  if a.finishReason = some .stop ∧ a.toolCalls.isEmpty then pure .returned
  else if a.finishReason ≠ some .toolCalls ∧ a.toolCalls.isEmpty then
    throw (.new (js "Model turn ended without a stop reason or tool call"))
  else beginTurn H O e { a with turn := a.turn + 1 }

/-- The next tool call of the turn, up to the suspension in `beforeToolCall`. -/
def nextToolCall (e : Execution) (a : AgentState) : List ToolCall → ServiceM Point
  | [] => endTurn H O e a
  | call :: rest => do
    fromExcept (O.validateToolArguments e.run call)
    appendAgentEvent H e.run .toolCallRequested
      (.toolRequested call.id call.name call.arguments)
    match ← beforeToolCall H O e call with
    | some approvalId => pure (.agent (.awaitingApproval call rest approvalId none) a)
    | none => pure (.agent (.authorized call rest none) a)

/-! ## What the loop is woken with -/

/-- The preparation has finished: freeze the snapshot and start the first turn. -/
def agentPrepared (e : Execution) (a : AgentState) (preparation : AgentPreparation) :
    ServiceM Point := do
  match e.attempt with
  | some attempt =>
    if O.runSnapshot then
      let _ ← appendEvent H
        { runId := e.runId, type := .runSnapshotFrozen
          payload := .snapshotFrozen attempt preparation.snapshotDigest }
  | none => pure ⟨⟩
  let instructions := trim a.instructions
  let system : List ModelMessage :=
    if instructions = [] then [] else [{ role := .system, content := instructions }]
  let conversation : List ModelMessage :=
    if a.messages.isEmpty then [{ role := .user, content := e.run.input }] else a.messages
  beginTurn H O e { a with messages := system ++ preparation.context ++ conversation }

/-- An event of the model stream. -/
def modelEvent (e : Execution) (a : AgentState) (event : ModelEvent) : ServiceM Point := do
  let a ← match event with
    | .textDelta delta => do
      appendAgentEvent H e.run .agentMessageDelta (.messageDelta delta a.turn)
      pure { a with assistantText := a.assistantText ++ delta }
    | .toolCall call => pure { a with toolCalls := a.toolCalls ++ [call] }
    | .usage _ _ .undefined =>
      throw (.new (js "Model usage omitted cost while the run has an enforced cost ceiling"))
    | .usage inputTokens outputTokens costUsd => do
      appendAgentEvent H e.run .usageUpdated (.usage inputTokens outputTokens costUsd)
      pure { a with sawUsageEvent := true }
    | .completed finishReason =>
      pure { a with sawTerminalEvent := true, finishReason := some finishReason }
  throwIfAborted e.runId
  pure (.agent .streaming a)

/-- The end of the model stream. -/
def modelDone (e : Execution) (a : AgentState) : ServiceM Point := do
  if a.sawTerminalEvent = false then
    throw (.new (js "Provider stream ended before a terminal event"))
  else if O.requireAuthoritativeUsage ∧ a.sawUsageEvent = false ∧
      O.allowUnmeteredUsage = false then
    throw (.new
      (js "Provider turn completed without authoritative usage under an enforced cost ceiling"))
  else
    let message : ModelMessage :=
      { role := .assistant, content := a.assistantText, toolCalls := a.toolCalls }
    appendAgentEvent H e.run .agentMessageCompleted
      (.messageCompleted a.assistantText a.toolCalls a.turn)
    nextToolCall H O e { a with messages := a.messages ++ [message] } a.toolCalls

/-- The promise of an approval has been settled. -/
def approvalSettled (a : AgentState) (call : ToolCall) (rest : List ToolCall)
    (approvalId : JsString) (approved : Bool) : ServiceM Point :=
  if approved then pure (.agent (.authorized call rest (some approvalId)) a)
  else throw (.new (js "Tool approval denied or expired: " ++ call.name))

/-- The command timeout has to be a whole number of milliseconds in range. -/
def commandTimeoutValid (timeoutMs : ℚ) : Prop :=
  timeoutMs.den = 1 ∧ 100 ≤ timeoutMs ∧ timeoutMs ≤ 3600000

instance (timeoutMs : ℚ) : Decidable (commandTimeoutValid timeoutMs) :=
  inferInstanceAs (Decidable (_ ∧ _ ∧ _))

/-- `beforeToolCall` has resolved: recheck the approval and hand the call to the tools. -/
def executeTool (e : Execution) (a : AgentState) (call : ToolCall) (rest : List ToolCall)
    (approval : Option JsString) : ServiceM Point := do
  match approval with
  | some approvalId => assertApprovalExecutable H approvalId e.run call
  | none => pure ⟨⟩
  if commandTimeoutValid e.run.budget.commandTimeoutMs then
    modify fun s ↦ { s with executed := s.executed ++ [⟨e.runId, call, approval⟩] }
    pure (.agent (.executing call rest) a)
  else
    throw (.new (js "Command timeout must be between 100 and 3600000 milliseconds"))

/-- A tool has returned. -/
def toolReturned (e : Execution) (a : AgentState) (call : ToolCall) (rest : List ToolCall)
    (result : ToolResult) : ServiceM Point := do
  let artifact ← fromExcept (O.artifactCreated call result)
  appendAgentEvent H e.run .toolCallCompleted
    (.toolCompleted result.callId result.ok result.content result.metadata)
  match artifact with
  | some x =>
    appendAgentEvent H e.run .artifactCreated (.artifact x.artifactId x.path x.sha256 x.sizeBytes)
  | none => pure ⟨⟩
  let message : ModelMessage :=
    { role := .tool, content := result.content, toolCallId := some result.callId }
  nextToolCall H O e { a with messages := a.messages ++ [message] } rest

end Service

end LiteHarness
