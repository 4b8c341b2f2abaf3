import LiteHarness.Foundation.Effect
import LiteHarness.Storage.Rows

/-!
# Runs, events and messages

`createOrGetRun`, `appendEvent`, `appendSessionMessage`, `recordUsage` and the queries on runs. An
operation is a computation on the database; `BEGIN IMMEDIATE … COMMIT` with its `ROLLBACK` is
`transaction`. The clock reading an operation takes and the random ids it draws are its arguments.

An insert throws when it violates a key. The operations below never rely on that: the queries in
front of each insert, and the ids the program draws, are what keeps keys apart.
-/

namespace LiteHarness

open Foundation Foundation.Eff

/-- An operation of the run store. -/
abbrev StoreM := Eff Store JsError

namespace Store

/-! ## Queries -/

/-- `SELECT * FROM runs WHERE id = ?`. -/
def run? (S : Store) (id : JsString) : Option RunRow := Table.lookup RunRow.id id S.runs

/-- The events of a run, in the order they were appended. -/
def eventsOf (S : Store) (runId : JsString) : List EventRow :=
  S.events.filter fun e ↦ e.runId = runId

def getRun (S : Store) (id : JsString) : Option RunRecord := (S.run? id).map toRunRecord

/-- `ORDER BY created_at ASC, id ASC`. -/
def createdBefore (a b : RunRow) : Prop :=
  a.createdAt < b.createdAt ∨ (a.createdAt = b.createdAt ∧ keyLe a.id b.id)

instance : DecidableRel createdBefore := fun _ _ ↦ inferInstanceAs (Decidable (_ ∨ _))

/-- `Number.isSafeInteger(limit) ? Math.min(Math.max(limit, 1), 1_000) : 100`. -/
def boundedRunLimit : JsNumber → ℕ
  | .finite q =>
    if q.den = 1 ∧ |q.num| ≤ maxSafeInteger then (min (max q.num 1) 1000).toNat else 100
  | .negativeZero => 1
  | .nonFinite => 100

/-- `ORDER BY created_at DESC, id DESC`. -/
def listRuns (S : Store) (principal : ResourceOwner) (limit : JsNumber) : List RunRecord :=
  (((S.runs.filter fun row ↦ row.owner = principal).insertionSort
    fun a b ↦ createdBefore b a).take (boundedRunLimit limit)).map toRunRecord

def listChildRuns (S : Store) (parentRunId : JsString) : List RunRecord :=
  ((S.runs.filter fun row ↦ row.parentRunId = some parentRunId).insertionSort
    createdBefore).map toRunRecord

def listNonTerminalRuns (S : Store) : List RunRecord :=
  ((S.runs.filter fun row ↦ !row.status.isTerminalRunStatus).insertionSort
    fun a b ↦ a.createdAt ≤ b.createdAt).map toRunRecord

def listEvents (S : Store) (runId : JsString) (after limit : ℕ) : List EventRow :=
  ((S.events.filter fun e ↦ e.runId = runId ∧ after < e.sequence).insertionSort
    fun a b ↦ a.sequence ≤ b.sequence).take limit

/-- `getLastEvent(runId, type)`: the event of the type with the largest sequence number. -/
def getLastEvent (S : Store) (runId : JsString) (type : RunEventType) : Option EventRow :=
  ((S.events.filter fun e ↦ e.runId = runId ∧ e.type = type).insertionSort
    fun a b ↦ b.sequence ≤ a.sequence).head?

/-- A row by owner and public id. -/
def agent? (S : Store) (owner : ResourceOwner) (id : JsString) : Option AgentRow :=
  Table.lookup (fun row ↦ (row.owner, row.id)) (owner, id) S.agents

def workspace? (S : Store) (owner : ResourceOwner) (id : JsString) : Option WorkspaceRow :=
  Table.lookup (fun row ↦ (row.owner, row.id)) (owner, id) S.workspaces

def session? (S : Store) (owner : ResourceOwner) (id : JsString) : Option SessionRow :=
  Table.lookup (fun row ↦ (row.owner, row.id)) (owner, id) S.sessions

def connection? (S : Store) (owner : ResourceOwner) (id : JsString) :
    Option ProviderConnectionRow :=
  Table.lookup (fun row ↦ (row.owner, row.id)) (owner, id) S.connections

def getAgentProfile (S : Store) (id : JsString) (owner : ResourceOwner) :
    Option AgentProfileRecord :=
  (S.agent? owner id).map toAgentProfile

/-- `SELECT COALESCE(MAX(sequence), 0) + 1 FROM session_messages WHERE session_internal_id = ?`. -/
def nextMessageSequence (S : Store) (sessionInternalId : JsString) : ℕ :=
  ((S.messages.filter fun m ↦ m.sessionInternalId = sessionInternalId).map
    MessageRow.sequence).foldr max 0 + 1

def listSessionMessages (S : Store) (sessionId : JsString) (owner : ResourceOwner) (limit : ℕ) :
    List MessageRow :=
  match S.session? owner sessionId with
  | none => []
  | some session =>
    (((S.messages.filter fun m ↦ m.sessionInternalId = session.internalId).insertionSort
      fun a b ↦ b.sequence ≤ a.sequence).take limit).reverse

/-! ## Inserts -/

/-- The error of a violated key. -/
def uniqueViolation (columns : String) : JsError :=
  .new (js "UNIQUE constraint failed: " ++ js columns)

def foreignKeyViolation : JsError := .new (js "FOREIGN KEY constraint failed")

/-- Throws unless the condition holds. -/
def require (c : Prop) [Decidable c] (e : JsError) : StoreM PUnit :=
  if c then pure ⟨⟩ else throw e

def insertRun (row : RunRow) : StoreM PUnit := do
  let S ← get
  require (∀ r ∈ S.runs, r.id ≠ row.id) (uniqueViolation "runs.id")
  require (∀ p ∈ row.parentRunId, p = row.id ∨ (S.run? p).isSome = true) foreignKeyViolation
  modify fun S ↦ { S with runs := S.runs ++ [row] }

def insertEvent (row : EventRow) : StoreM PUnit := do
  let S ← get
  require (∀ e ∈ S.events, e.runId = row.runId → e.sequence ≠ row.sequence)
    (uniqueViolation "run_events.run_id, run_events.sequence")
  modify fun S ↦ { S with events := S.events ++ [row] }

def insertMessage (row : MessageRow) : StoreM PUnit := do
  let S ← get
  require (∀ m ∈ S.messages, m.id ≠ row.id) (uniqueViolation "session_messages.id")
  modify fun S ↦ { S with messages := S.messages ++ [row] }

def insertAgent (row : AgentRow) : StoreM PUnit := do
  let S ← get
  require (∀ a ∈ S.agents, a.internalId ≠ row.internalId)
    (uniqueViolation "agent_profiles.internal_id")
  require (S.agent? row.owner row.id = none)
    (uniqueViolation ("agent_profiles.app_id, agent_profiles.tenant_id, " ++
      "agent_profiles.user_id, agent_profiles.id"))
  modify fun S ↦ { S with agents := S.agents ++ [row] }

def insertWorkspace (row : WorkspaceRow) : StoreM PUnit := do
  let S ← get
  require (∀ w ∈ S.workspaces, w.internalId ≠ row.internalId)
    (uniqueViolation "workspaces.internal_id")
  require (S.workspace? row.owner row.id = none)
    (uniqueViolation ("workspaces.app_id, workspaces.tenant_id, " ++
      "workspaces.user_id, workspaces.id"))
  modify fun S ↦ { S with workspaces := S.workspaces ++ [row] }

def insertSession (row : SessionRow) : StoreM PUnit := do
  let S ← get
  require (∀ s ∈ S.sessions, s.internalId ≠ row.internalId)
    (uniqueViolation "sessions.internal_id")
  modify fun S ↦ { S with sessions := S.sessions ++ [row] }

/-! ## Creating a run -/

/-- The internal ids a creation draws for the rows it may have to insert. -/
structure FreshInternalIds where
  agent : JsString
  workspace : JsString
  session : JsString
  deriving DecidableEq

/-- The run that already has the caller's idempotency key. -/
def existingRun (S : Store) (principal : ResourceOwner) (key : JsString) : Option RunRow :=
  S.runs.find? fun row ↦ row.owner.appId = principal.appId ∧
    row.owner.tenantId = principal.tenantId ∧ row.idempotencyKey = key

/-- The named provider connection has to be the principal's and ready. -/
def requireReadyConnection (request : InternalStartRunRequest) : StoreM PUnit := do
  match truthy request.providerConnectionId with
  | none => pure ⟨⟩
  | some id =>
    let S ← get
    match S.connection? request.principal id with
    | none =>
      throw (.new (js "Provider connection does not belong to the requesting principal"))
    | some connection =>
      require (connection.status = .ready)
        (.new (js "Provider connection is not ready: " ++ connection.status.text))

/-- A child has to be one level below a run of the same owner; a root run has depth zero. -/
def requireParent (request : InternalStartRunRequest) : StoreM PUnit := do
  match truthy request.parentRunId with
  | some parentRunId =>
    let S ← get
    match S.run? parentRunId with
    | none => throw (.new (js "Parent run does not belong to the requesting principal"))
    | some parent =>
      require (parent.owner = request.principal)
        (.new (js "Parent run does not belong to the requesting principal"))
      require (request.depth = some (parent.depth + 1)) (.new (js "Child run depth is invalid"))
  | none => require (request.depth.getD 0 = 0) (.new (js "Root run depth must be zero"))

/-- The requested agent profile, created with the defaults where it is missing. -/
def ensureAgent (now : ℤ) (fresh : FreshInternalIds) (request : InternalStartRunRequest) :
    StoreM AgentRow := do
  let S ← get
  match S.agent? request.principal request.agent with
  | some agent => pure agent
  | none =>
    require (request.createIfMissing ≠ some false)
      (.new (js "Agent profile is unavailable: " ++ request.agent))
    let agent : AgentRow :=
      { internalId := fresh.agent, id := request.agent, version := 1, owner := request.principal
        name := request.agent, instructions := [], modelCapabilities := [js "text", js "tools"]
        allowedTools := [js "read_file", js "write_file"]
        defaultBudget := DEFAULT_RUN_BUDGET.toOverrides, createdAt := now }
    insertAgent agent
    pure agent

/-- The requested workspace, created where it is missing. -/
def ensureWorkspace (now : ℤ) (fresh : FreshInternalIds) (request : InternalStartRunRequest) :
    StoreM WorkspaceRow := do
  let S ← get
  match S.workspace? request.principal request.workspace with
  | some workspace => pure workspace
  | none =>
    require (request.createIfMissing ≠ some false)
      (.new (js "Workspace is unavailable: " ++ request.workspace))
    let workspace : WorkspaceRow :=
      { internalId := fresh.workspace, id := request.workspace, owner := request.principal
        mode := .managed, state := .warm, registeredPath := none, createdAt := now
        updatedAt := now }
    insertWorkspace workspace
    pure workspace

/-- The session of the run, created where it is missing; it has to be of the run's agent. -/
def ensureSession (now : ℤ) (fresh : FreshInternalIds) (request : InternalStartRunRequest)
    (sessionId : JsString) (agent : AgentRow) : StoreM SessionRow := do
  let S ← get
  match S.session? request.principal sessionId with
  | some session =>
    require (session.agentInternalId = agent.internalId)
      (.new (js "Session does not belong to the requesting principal and agent"))
    pure session
  | none =>
    let session : SessionRow :=
      { internalId := fresh.session, id := sessionId, owner := request.principal
        agentId := request.agent, agentInternalId := agent.internalId, createdAt := now
        updatedAt := now }
    insertSession session
    pure session

/-- The workspaces the runs of a session use. -/
def sessionWorkspaces (S : Store) (sessionInternalId : JsString) : List JsString :=
  (S.runs.filter fun row ↦ row.sessionInternalId = some sessionInternalId).filterMap
    RunRow.workspaceInternalId

/-- A session stays in the workspace of its earlier runs. -/
def requireSessionWorkspace (session : SessionRow) (workspace : WorkspaceRow) : StoreM PUnit := do
  let S ← get
  require (∀ w ∈ S.sessionWorkspaces session.internalId, w = workspace.internalId)
    (.new (js "Session is bound to a different workspace; use a new session for this workspace"))

/-- The row of a new run. -/
def newRun (now : ℤ) (id fingerprint : JsString) (request : InternalStartRunRequest)
    (agent : AgentRow) (workspace : WorkspaceRow) (session : SessionRow) : RunRow where
  id := id
  idempotencyKey := scopedIdempotencyKey request.principal.userId request.idempotencyKey
  requestFingerprint := fingerprint
  owner := request.principal
  agentId := request.agent
  workspaceId := request.workspace
  sessionId := some (request.session.getD (js "ses_" ++ id.drop 4))
  providerConnectionId := request.providerConnectionId
  agentInternalId := some agent.internalId
  workspaceInternalId := some workspace.internalId
  sessionInternalId := some session.internalId
  parentRunId := request.parentRunId
  depth := request.depth.getD 0
  deliveryAllowed := request.deliveryAllowed ≠ some false
  input := request.input
  budget := normalizeBudget (agent.defaultBudget.spread (request.budget.getD {}))
  usageInputTokens := 0
  usageOutputTokens := 0
  usageCostUsd := 0
  usageToolCalls := 0
  usageInputTokensReported := false
  usageOutputTokensReported := false
  usageCostReported := false
  status := .accepted
  lastSequence := 1
  errorCode := none
  errorMessage := none
  createdAt := now
  updatedAt := now

/-- The first event of a run. -/
def acceptedEvent (now : ℤ) (id : JsString) : EventRow :=
  ⟨id, 1, .runAccepted, .lifecycle .accepted {}, now⟩

/-- The body of a creation once no earlier run has the key. -/
def createRun (now : ℤ) (fresh : FreshInternalIds) (id fingerprint : JsString)
    (request : InternalStartRunRequest) : StoreM RunRow := do
  requireReadyConnection request
  requireParent request
  let agent ← ensureAgent now fresh request
  let workspace ← ensureWorkspace now fresh request
  let session ← ensureSession now fresh request (request.session.getD (js "ses_" ++ id.drop 4)) agent
  requireSessionWorkspace session workspace
  let row := newRun now id fingerprint request agent workspace session
  insertRun row
  insertEvent (acceptedEvent now id)
  let S ← get
  insertMessage
    { id := js "msg_" ++ id.drop 4 ++ js "_user", sessionInternalId := session.internalId
      runId := some id, role := .user, content := request.input, metadata := .empty
      createdAt := now, sequence := S.nextMessageSequence session.internalId }
  pure row

/-- `createOrGetRun`: the run and whether this call created it. -/
def createOrGetRun (P : Platform) (now : ℤ) (fresh : FreshInternalIds) (id : JsString)
    (request : InternalStartRunRequest) : StoreM (RunRecord × Bool) :=
  transaction do
    let fingerprint := P.requestFingerprint request
    let S ← get
    match S.existingRun request.principal
        (scopedIdempotencyKey request.principal.userId request.idempotencyKey) with
    | some existing =>
      require (existing.requestFingerprint = fingerprint)
        (.new (js "Idempotency key was reused with a different run request"))
      pure (toRunRecord existing, false)
    | none =>
      let row ← createRun now fresh id fingerprint request
      pure (toRunRecord row, true)

/-! ## Appending events -/

/-- The run an event's payload calls its child. -/
def childOf (S : Store) (params : AppendRunEvent) : Option RunRow :=
  (truthy params.payload.childRunId).bind S.run?

/-- A summary of a child that has ended: the one event a terminal run still takes. -/
def DetachedSubagentSummary (S : Store) (params : AppendRunEvent) : Prop :=
  params.type = .subagentCompleted ∧ params.status = none ∧ params.errorCode = none ∧
    params.errorMessage = none ∧ params.usage = none ∧
    ∃ child ∈ S.childOf params, child.parentRunId = some params.runId ∧
      child.status.isTerminalRunStatus = true ∧ params.payload.runStatus = some child.status

instance (S : Store) (params : AppendRunEvent) : Decidable (S.DetachedSubagentSummary params) :=
  inferInstanceAs (Decidable (_ ∧ _ ∧ _ ∧ _ ∧ _ ∧ _))

/-- A row with a usage added to its totals. -/
def withUsage (updatedAt : ℤ) (delta : RunUsageDelta) (row : RunRow) : RunRow :=
  { row with
    usageInputTokens := row.usageInputTokens + delta.inputTokens.getD 0
    usageInputTokensReported := row.usageInputTokensReported || delta.inputTokens.isSome
    usageOutputTokens := row.usageOutputTokens + delta.outputTokens.getD 0
    usageOutputTokensReported := row.usageOutputTokensReported || delta.outputTokens.isSome
    usageCostUsd := row.usageCostUsd + delta.costUsd.getD 0
    usageCostReported := row.usageCostReported || delta.costUsd.isSome
    usageToolCalls := row.usageToolCalls + delta.toolCalls.getD 0
    updatedAt }

/-- What an event of the given parameters does to the row of its run. -/
def appended (createdAt : ℤ) (params : AppendRunEvent) (row : RunRow) : RunRow :=
  { withUsage createdAt (params.usage.getD {}) row with
    status := params.status.getD row.status
    lastSequence := row.lastSequence + 1
    errorCode := params.errorCode <|> row.errorCode
    errorMessage := params.errorMessage <|> row.errorMessage }

/-- `UPDATE run_attempts SET status, ended_at WHERE run_id = ? AND status = 'RUNNING'`. -/
def endAttempts (now : ℤ) (runId : JsString) (status : RunStatus) (S : Store) : Store :=
  { S with
    attempts := Table.update (fun a ↦ a.runId = runId ∧ a.status = .running)
      (fun a ↦ { a with status := status, endedAt := some now }) S.attempts }

/-- `UPDATE runs SET … WHERE id = ?`. -/
def updateRun (id : JsString) (f : RunRow → RunRow) (S : Store) : Store :=
  { S with runs := Table.update (fun row ↦ row.id = id) f S.runs }

def appendEventWithinTransaction (createdAt : ℤ) (params : AppendRunEvent) : StoreM EventRow := do
  let S ← get
  match S.run? params.runId with
  | none => throw (.new (js "Run not found: " ++ params.runId))
  | some row =>
    require (params.type = .subagentCompleted → S.DetachedSubagentSummary params)
      (.new (js "Invalid detached subagent summary for run " ++ params.runId))
    require (row.status.isTerminalRunStatus = true → S.DetachedSubagentSummary params)
      (.new (js "Run " ++ params.runId ++ js " is terminal; cannot append event " ++
        params.type.text))
    let event : EventRow :=
      ⟨params.runId, row.lastSequence + 1, params.type, params.payload, createdAt⟩
    insertEvent event
    modify (updateRun params.runId (appended createdAt params))
    match params.status with
    | some status =>
      if status.isTerminalRunStatus then modify (endAttempts createdAt params.runId status)
      pure event
    | none => pure event

def appendEvent (createdAt : ℤ) (params : AppendRunEvent) : StoreM EventRow :=
  transaction (appendEventWithinTransaction createdAt params)

/-! ## Messages and usage -/

/-- The parameters of `appendSessionMessage`. -/
structure AppendSessionMessage where
  id : JsString
  sessionId : JsString
  runId : JsString
  role : SessionMessageRole
  content : JsString
  metadata : MessageMetadata

def appendSessionMessage (createdAt : ℤ) (params : AppendSessionMessage) : StoreM MessageRow :=
  transaction do
    let S ← get
    let foreign := JsError.new (js "Session message does not belong to the supplied run")
    match S.run? params.runId with
    | none => throw foreign
    | some run =>
      match truthy run.sessionInternalId with
      | none => throw foreign
      | some sessionInternalId =>
        require (run.sessionId = some params.sessionId) foreign
        require (run.status.isTerminalRunStatus = false)
          (.new (js "Run " ++ params.runId ++ js " is terminal; cannot append a session message"))
        let message : MessageRow :=
          { id := params.id, sessionInternalId, runId := some params.runId, role := params.role
            content := params.content, metadata := params.metadata, createdAt
            sequence := S.nextMessageSequence sessionInternalId }
        insertMessage message
        pure message

/-- `recordUsage`: adds to the totals of a run without an event. -/
def recordUsage (updatedAt : ℤ) (runId : JsString) (delta : RunUsageDelta) : StoreM RunRecord :=
  transaction do
    let S ← get
    match S.run? runId with
    | none => throw (.new (js "Run not found: " ++ runId))
    | some current =>
      require (current.status.isTerminalRunStatus = false)
        (.new (js "Run " ++ runId ++ js " is terminal; cannot record usage"))
      modify (updateRun runId (withUsage updatedAt delta))
      pure (toRunRecord (withUsage updatedAt delta current))

end Store

end LiteHarness
