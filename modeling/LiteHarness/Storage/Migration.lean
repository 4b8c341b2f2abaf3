import LiteHarness.Storage.Registry
import Mathlib.Data.List.MinMax
import Mathlib.Data.List.Dedup

/-!
# Upgrading a database

The schema migrations that rewrite rows. Migration 6 puts the user id in front of every idempotency
key; migration 7 rebuilds the tables with owner-scoped identities; the later ones number the
messages, bind the approvals and mark the usage that was reported. Migrations 1 to 5 create tables
and columns: a table a version does not have yet is empty here, and a column has its default.

The SQL of migrations 6 and 7 is followed statement by statement. A join is a `flatMap` over the
matching rows, `INSERT INTO … SELECT` fails where two rows would share a key, and the random ids it
draws are numbered by the rows it inserts. The order in which SQLite visits groups is left open by
the language; another order is another numbering of the draws.
-/

namespace LiteHarness

open Foundation Foundation.Eff

/-! ## SQLite text -/

/-- The Unicode code points of a string; a lone surrogate counts as itself. -/
def codePoints : JsString → List ℕ
  | [] => []
  | [u] => [u.toNat]
  | u :: v :: rest =>
    if isLead u && isTrail v then
      (0x10000 + (u.toNat - 0xD800) * 0x400 + (v.toNat - 0xDC00)) :: codePoints rest
    else u.toNat :: codePoints (v :: rest)

/-- `length(s)`. -/
def sqlLength (s : JsString) : ℕ := (codePoints s).length

/-- `MIN` over text: the bytes of UTF-8 order as the code points do. -/
def minText (texts : List JsString) : Option JsString := texts.argmin codePoints

/-- `MIN` and `MAX` over instants; a group is never empty. -/
def minInstant (instants : List ℤ) : ℤ := instants.min?.getD 0

def maxInstant (instants : List ℤ) : ℤ := instants.max?.getD 0

/-! ## The tables before owner-scoped identities -/

structure LegacyRun where
  id : JsString
  idempotencyKey : JsString
  requestFingerprint : JsString
  owner : ResourceOwner
  agentId : JsString
  workspaceId : JsString
  sessionId : Option JsString
  parentRunId : Option JsString := none
  depth : ℤ := 0
  deliveryAllowed : Bool := true
  input : JsString
  budget : RunBudgetOverrides := {}
  usageInputTokens : ℚ := 0
  usageOutputTokens : ℚ := 0
  usageCostUsd : ℚ := 0
  usageToolCalls : ℕ := 0
  status : RunStatus
  lastSequence : ℕ := 0
  errorCode : Option JsString := none
  errorMessage : Option JsString := none
  createdAt : ℤ
  updatedAt : ℤ

structure LegacySession where
  id : JsString
  owner : ResourceOwner
  agentId : JsString
  createdAt : ℤ
  updatedAt : ℤ
  deriving DecidableEq

structure LegacyMessage where
  id : JsString
  sessionId : JsString
  runId : Option JsString
  role : SessionMessageRole
  content : JsString
  metadata : MessageMetadata
  createdAt : ℤ

structure LegacyLease where
  workspaceId : JsString
  ownerRunId : Option JsString
  fencingToken : ℕ
  expiresAt : Option ℤ
  updatedAt : ℤ

structure LegacyApproval where
  id : JsString
  runId : JsString
  toolCallId : JsString
  toolName : JsString
  status : ApprovalStatus
  expiresAt : ℤ
  createdAt : ℤ
  resolvedAt : Option ℤ

structure LegacyAgent where
  id : JsString
  version : ℤ
  owner : ResourceOwner
  name : JsString
  instructions : JsString
  modelCapabilities : List JsString
  allowedTools : List JsString
  defaultBudget : RunBudgetOverrides
  createdAt : ℤ

structure LegacyWorkspace where
  id : JsString
  owner : ResourceOwner
  mode : WorkspaceMode
  state : WorkspaceState
  registeredPath : Option JsString
  createdAt : ℤ
  updatedAt : ℤ

/-- The database before version 7. -/
structure LegacyTables where
  runs : List LegacyRun := []
  events : List EventRow := []
  sessions : List LegacySession := []
  messages : List LegacyMessage := []
  leases : List LegacyLease := []
  approvals : List LegacyApproval := []
  agents : List LegacyAgent := []
  workspaces : List LegacyWorkspace := []
  attempts : List AttemptRow := []

/-- The keys and references the old schema enforces on the tables that are rebuilt. -/
structure LegacyTables.Valid (T : LegacyTables) : Prop where
  runIds : (T.runs.map LegacyRun.id).Nodup
  runKeys : (T.runs.map fun r ↦ (r.owner.appId, r.owner.tenantId, r.idempotencyKey)).Nodup
  sessionIds : (T.sessions.map LegacySession.id).Nodup
  messageIds : (T.messages.map LegacyMessage.id).Nodup
  messageSessions : ∀ m ∈ T.messages, ∃ s ∈ T.sessions, s.id = m.sessionId
  leaseWorkspaces : (T.leases.map LegacyLease.workspaceId).Nodup
  agentIds : (T.agents.map LegacyAgent.id).Nodup
  workspaceIds : (T.workspaces.map LegacyWorkspace.id).Nodup

/-- The random parts of internal ids, `lower(hex(randomblob(16)))`, row by row. -/
structure Draws where
  agent : ℕ → JsString
  workspace : ℕ → JsString
  session : ℕ → JsString

namespace LegacyTables

/-! ## Migration 6 -/

/-- `length(user_id) || ':' || user_id || ':' || idempotency_key`. -/
def sqlScopedKey (userId key : JsString) : JsString :=
  decimal (sqlLength userId) ++ colon :: (userId ++ colon :: key)

/-- A run under its new key. -/
def rescoped (r : LegacyRun) : LegacyRun :=
  { r with idempotencyKey := sqlScopedKey r.owner.userId r.idempotencyKey }

/-- The columns of `UNIQUE (app_id, tenant_id, idempotency_key)`. -/
def keyScope (r : LegacyRun) : JsString × JsString × JsString :=
  (r.owner.appId, r.owner.tenantId, r.idempotencyKey)

/-- `UPDATE runs SET idempotency_key = …`. SQLite holds every changed row against the rows as they
are at that moment: those before it have their new keys, those after it still the old ones. -/
def rescopeKeys (updated : List LegacyRun) : List LegacyRun → Option (List LegacyRun)
  | [] => some updated
  | r :: rest =>
    if ∀ o ∈ updated ++ rest, keyScope o ≠ keyScope (rescoped r) then
      rescopeKeys (updated ++ [rescoped r]) rest
    else none

def migration6 (T : LegacyTables) : Option LegacyTables :=
  (rescopeKeys [] T.runs).map fun runs ↦ { T with runs }

end LegacyTables

/-! ## Migration 7 -/

/-- `INSERT INTO … SELECT …` on a table with a primary and a unique key. -/
def insertSelect {ρ ι κ : Type} [DecidableEq ι] [DecidableEq κ] (ident : ρ → ι) (key : ρ → κ)
    (rows selected : List ρ) : Option (List ρ) :=
  if ((rows ++ selected).map ident).Nodup ∧ ((rows ++ selected).map key).Nodup then
    some (rows ++ selected)
  else none

namespace LegacyTables

variable (draws : Draws) (T : LegacyTables)

/-- The profiles the old table has. -/
def recordedAgents : List AgentRow :=
  T.agents.mapIdx fun i a ↦
    { internalId := js "agt_" ++ draws.agent i, id := a.id, version := a.version, owner := a.owner
      name := a.name, instructions := a.instructions, modelCapabilities := a.modelCapabilities
      allowedTools := a.allowedTools, defaultBudget := a.defaultBudget, createdAt := a.createdAt }

/-- The runs whose agent has no profile. -/
def runsWithoutAgent (agents : List AgentRow) : List LegacyRun :=
  T.runs.filter fun r ↦ ∀ a ∈ agents, a.key ≠ (r.owner, r.agentId)

/-- The profiles invented for them, one for each owner and agent. -/
def inventedAgents (agents : List AgentRow) : List AgentRow :=
  let runs := T.runsWithoutAgent agents
  ((runs.map fun r ↦ (r.owner, r.agentId)).dedup).mapIdx fun i key ↦
    { internalId := js "agt_" ++ draws.agent (agents.length + i), id := key.2, version := 1
      owner := key.1, name := key.2, instructions := []
      modelCapabilities := [js "text", js "tools"]
      allowedTools := [js "read_file", js "write_file"], defaultBudget := {}
      createdAt := minInstant ((runs.filter fun r ↦ (r.owner, r.agentId) = key).map
        LegacyRun.createdAt) }

/-- `agent_profiles_v7`. -/
def scopedAgents : Option (List AgentRow) := do
  let agents ← insertSelect AgentRow.internalId AgentRow.key [] (T.recordedAgents draws)
  insertSelect AgentRow.internalId AgentRow.key agents (T.inventedAgents draws agents)

def recordedWorkspaces : List WorkspaceRow :=
  T.workspaces.mapIdx fun i w ↦
    { internalId := js "wsp_" ++ draws.workspace i, id := w.id, owner := w.owner, mode := w.mode
      state := w.state, registeredPath := w.registeredPath, createdAt := w.createdAt
      updatedAt := w.updatedAt }

def runsWithoutWorkspace (workspaces : List WorkspaceRow) : List LegacyRun :=
  T.runs.filter fun r ↦ ∀ w ∈ workspaces, w.key ≠ (r.owner, r.workspaceId)

def inventedWorkspaces (workspaces : List WorkspaceRow) : List WorkspaceRow :=
  let runs := T.runsWithoutWorkspace workspaces
  ((runs.map fun r ↦ (r.owner, r.workspaceId)).dedup).mapIdx fun i key ↦
    let group := runs.filter fun r ↦ (r.owner, r.workspaceId) = key
    { internalId := js "wsp_" ++ draws.workspace (workspaces.length + i), id := key.2
      owner := key.1, mode := .managed, state := .warm, registeredPath := none
      createdAt := minInstant (group.map LegacyRun.createdAt)
      updatedAt := maxInstant (group.map LegacyRun.updatedAt) }

/-- `workspaces_v7`. -/
def scopedWorkspaces : Option (List WorkspaceRow) := do
  let workspaces ←
    insertSelect WorkspaceRow.internalId WorkspaceRow.key [] (T.recordedWorkspaces draws)
  insertSelect WorkspaceRow.internalId WorkspaceRow.key workspaces
    (T.inventedWorkspaces draws workspaces)

/-- `sessions JOIN agent_profiles_v7`, by the session's owner and agent. -/
def sessionsWithAgents (agents : List AgentRow) : List (LegacySession × AgentRow) :=
  T.sessions.flatMap fun s ↦
    (agents.filter fun a ↦ a.key = (s.owner, s.agentId)).map fun a ↦ (s, a)

def recordedSessions (agents : List AgentRow) : List SessionRow :=
  (T.sessionsWithAgents agents).mapIdx fun i pair ↦
    { internalId := js "ses_" ++ draws.session i, id := pair.1.id, owner := pair.1.owner
      agentId := pair.1.agentId, agentInternalId := pair.2.internalId
      createdAt := pair.1.createdAt, updatedAt := pair.1.updatedAt }

/-- `runs JOIN agent_profiles_v7`, of the runs whose session has no row; with the session's id. -/
def runsWithoutSession (agents : List AgentRow) (sessions : List SessionRow) :
    List (JsString × LegacyRun × AgentRow) :=
  T.runs.flatMap fun r ↦
    match r.sessionId with
    | none => []
    | some id =>
      if ∀ s ∈ sessions, s.key ≠ (r.owner, id) then
        (agents.filter fun a ↦ a.key = (r.owner, r.agentId)).map fun a ↦ (id, r, a)
      else []

/-- The sessions invented for them. `MIN(r.agent_id)` and `MIN(a.internal_id)` are taken apart. -/
def inventedSessions (agents : List AgentRow) (sessions : List SessionRow) : List SessionRow :=
  let rows := T.runsWithoutSession agents sessions
  ((rows.map fun row ↦ (row.2.1.owner, row.1)).dedup).mapIdx fun i key ↦
    let group := rows.filter fun row ↦ (row.2.1.owner, row.1) = key
    { internalId := js "ses_" ++ draws.session (sessions.length + i), id := key.2
      owner := key.1
      agentId := (minText (group.map fun row ↦ row.2.1.agentId)).getD []
      agentInternalId := (minText (group.map fun row ↦ row.2.2.internalId)).getD []
      createdAt := minInstant (group.map fun row ↦ row.2.1.createdAt)
      updatedAt := maxInstant (group.map fun row ↦ row.2.1.updatedAt) }

/-- `sessions_v7`. -/
def scopedSessions (agents : List AgentRow) : Option (List SessionRow) := do
  let sessions ←
    insertSelect SessionRow.internalId SessionRow.key [] (T.recordedSessions draws agents)
  insertSelect SessionRow.internalId SessionRow.key sessions
    (T.inventedSessions draws agents sessions)

/-- `session_messages_v7`: by the owner and the id of the session a message belongs to. -/
def scopedMessages (sessions : List SessionRow) : Option (List MessageRow) :=
  insertSelect MessageRow.id MessageRow.id [] <|
    T.messages.flatMap fun m ↦
      (T.sessions.filter fun s ↦ s.id = m.sessionId).flatMap fun legacy ↦
        (sessions.filter fun s ↦ s.key = (legacy.owner, legacy.id)).map fun s ↦
          { id := m.id, sessionInternalId := s.internalId, runId := m.runId, role := m.role
            content := m.content, metadata := m.metadata, createdAt := m.createdAt, sequence := 0 }

/-- `workspace_leases_v7`: by the public id of the workspace alone. -/
def scopedLeases (workspaces : List WorkspaceRow) : Option (List LeaseRow) :=
  insertSelect LeaseRow.workspaceInternalId LeaseRow.workspaceInternalId [] <|
    T.leases.flatMap fun l ↦
      (workspaces.filter fun w ↦ w.id = l.workspaceId).map fun w ↦
        { workspaceInternalId := w.internalId, ownerRunId := l.ownerRunId
          fencingToken := l.fencingToken, expiresAt := l.expiresAt, updatedAt := l.updatedAt }

/-- A run in the columns of the new schema, with the references it is given. -/
def withReferences (r : LegacyRun) (agent workspace session : Option JsString) : RunRow where
  id := r.id
  idempotencyKey := r.idempotencyKey
  requestFingerprint := r.requestFingerprint
  owner := r.owner
  agentId := r.agentId
  workspaceId := r.workspaceId
  sessionId := r.sessionId
  providerConnectionId := none
  agentInternalId := agent
  workspaceInternalId := workspace
  sessionInternalId := session
  parentRunId := r.parentRunId
  depth := r.depth
  deliveryAllowed := r.deliveryAllowed
  input := r.input
  budget := normalizeBudget r.budget
  usageInputTokens := r.usageInputTokens
  usageOutputTokens := r.usageOutputTokens
  usageCostUsd := r.usageCostUsd
  usageToolCalls := r.usageToolCalls
  usageInputTokensReported := false
  usageOutputTokensReported := false
  usageCostReported := false
  status := r.status
  lastSequence := r.lastSequence
  errorCode := r.errorCode
  errorMessage := r.errorMessage
  createdAt := r.createdAt
  updatedAt := r.updatedAt

/-- A run with its references: each by the run's owner and the public id. -/
def scopedRun (agents : List AgentRow) (workspaces : List WorkspaceRow)
    (sessions : List SessionRow) (r : LegacyRun) : RunRow :=
  withReferences r
    ((Table.lookup AgentRow.key (r.owner, r.agentId) agents).map AgentRow.internalId)
    ((Table.lookup WorkspaceRow.key (r.owner, r.workspaceId) workspaces).map
      WorkspaceRow.internalId)
    (r.sessionId.bind fun id ↦
      (Table.lookup SessionRow.key (r.owner, id) sessions).map SessionRow.internalId)

/-- The mark of an approval that was requested before approvals were bound. -/
def legacyUnbound : JsString := js "legacy-unbound"

/-- An approval under the defaults of the columns that bind it. -/
def unboundApproval (a : LegacyApproval) : ApprovalRow where
  id := a.id
  runId := a.runId
  toolCallId := a.toolCallId
  toolName := a.toolName
  toolArgumentsDigest := legacyUnbound
  executionDigest := legacyUnbound
  owner := ⟨legacyUnbound, legacyUnbound, legacyUnbound⟩
  workspaceId := legacyUnbound
  policyGeneration := 0
  routeGeneration := legacyUnbound
  status := a.status
  expiresAt := a.expiresAt
  createdAt := a.createdAt
  resolvedAt := a.resolvedAt

/-- Some reference of a run has no row. -/
def unresolved (row : RunRow) : Bool :=
  row.agentInternalId.isNone || row.workspaceInternalId.isNone ||
    (row.sessionId.isSome && row.sessionInternalId.isNone)

def migration7 : Option Store := do
  let agents ← T.scopedAgents draws
  let workspaces ← T.scopedWorkspaces draws
  let sessions ← T.scopedSessions draws agents
  let messages ← T.scopedMessages sessions
  let leases ← T.scopedLeases workspaces
  let runs := T.runs.map (scopedRun agents workspaces sessions)
  -- `missing.count !== 0`
  if runs.any unresolved then none
  else
    pure { runs, events := T.events, sessions, messages, leases
           approvals := T.approvals.map unboundApproval, agents, workspaces
           attempts := T.attempts }

end LegacyTables

/-! ## The later migrations -/

namespace Store

/-- The messages of a session up to a message, by creation and then by id. -/
def priorMessages (S : Store) (m : MessageRow) : List MessageRow :=
  S.messages.filter fun prior ↦ prior.sessionInternalId = m.sessionInternalId ∧
    (prior.createdAt < m.createdAt ∨
      prior.createdAt = m.createdAt ∧ codePoints prior.id ≤ codePoints m.id)

/-- Numbers the messages of every session. -/
def migration8 (S : Store) : Option Store :=
  let messages := S.messages.map fun m ↦ { m with sequence := (S.priorMessages m).length }
  if (messages.map fun m ↦ (m.sessionInternalId, m.sequence)).Nodup then
    some { S with messages }
  else none

/-- Binds the approvals of the old schema to their runs and expires the pending ones. -/
def migration10 (migratedAt : ℤ) (S : Store) : Store :=
  { S with
    approvals := Table.update (fun a ↦ a.executionDigest = LegacyTables.legacyUnbound)
      (fun a ↦
        { a with
          owner := ((S.run? a.runId).map RunRow.owner).getD a.owner
          workspaceId := ((S.run? a.runId).map RunRow.workspaceId).getD a.workspaceId
          status := if a.status = .pending then .expired else a.status
          resolvedAt := if a.status = .pending then some migratedAt else a.resolvedAt })
      S.approvals }

/-- Marks the usage that is not zero as reported. -/
def migration16 (S : Store) : Store :=
  { S with
    runs := S.runs.map fun r ↦
      { r with
        usageInputTokensReported := r.usageInputTokens ≠ 0 || r.usageInputTokensReported
        usageOutputTokensReported := r.usageOutputTokens ≠ 0 || r.usageOutputTokensReported
        usageCostReported := r.usageCostUsd ≠ 0 || r.usageCostReported } }

end Store

/-! ## The migration loop -/

/-- A database of some schema version. -/
inductive Database where
  | legacy (version : ℕ) (tables : LegacyTables)
  | current (version : ℕ) (store : Store)

/-- `SQLITE_SCHEMA_VERSION`. -/
def SQLITE_SCHEMA_VERSION : ℕ := 16

def Database.version : Database → ℕ
  | legacy version _ => version
  | current version _ => version

/-- The statements of a migration, on the version before it. -/
def Database.migrated (draws : Draws) (migratedAt : ℤ) : Database → Option Database
  | legacy 5 T => T.migration6.map (legacy 6)
  | legacy 6 T => (T.migration7 draws).map (current 7)
  | legacy version T => some (legacy (version + 1) T)
  | current 7 S => S.migration8.map (current 8)
  | current 9 S => some (current 10 (S.migration10 migratedAt))
  | current 15 S => some (current 16 S.migration16)
  | current version S => some (current (version + 1) S)

/-- One migration, in a transaction of its own. -/
def applyMigration (draws : Draws) (migratedAt : ℤ) : Eff Database JsError PUnit := do
  let db ← get
  let failed := JsError.new (js "SQLite migration " ++ decimal (db.version + 1) ++ js " failed")
  transaction do
    match db.migrated draws migratedAt with
    | some db => modify fun _ ↦ db
    | none => throw failed

/-- The loop over the migrations that are left. -/
def migrate (draws : Draws) (migratedAt : ℤ) : ℕ → Eff Database JsError PUnit
  | 0 => pure ⟨⟩
  | n + 1 => do
    applyMigration draws migratedAt
    migrate draws migratedAt n

/-- What a start of the program does to the database. -/
def upgrade (draws : Draws) (migratedAt : ℤ) : Eff Database JsError PUnit := do
  let db ← get
  migrate draws migratedAt (SQLITE_SCHEMA_VERSION - db.version)

end LiteHarness
