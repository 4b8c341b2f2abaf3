import LiteHarness.ControlPlane.CanonicalJson
import LiteHarness.Domain.Records
import LiteHarness.Foundation.Table
import LiteHarness.Platform.NumberText
import LiteHarness.Platform.Runtime

/-!
# The tables of the run store

The rows of the SQLite schema at its current version, the records the store returns for them, and
the two keys derived from a request: its scoped idempotency key and its fingerprint. A table is the
list of its rows in insertion order. Instants are integers; the columns that hold ISO strings are
only ever compared with one another, and ISO strings order as the instants they render.

Left out are the tables no run operation reads: route plans, model usage, snapshots, runtime
containers and the migration log.
-/

namespace LiteHarness

open Foundation

/-! ## Rows -/

structure RunRow where
  id : JsString
  idempotencyKey : JsString
  requestFingerprint : JsString
  owner : ResourceOwner
  agentId : JsString
  workspaceId : JsString
  sessionId : Option JsString
  providerConnectionId : Option JsString
  agentInternalId : Option JsString
  workspaceInternalId : Option JsString
  sessionInternalId : Option JsString
  parentRunId : Option JsString
  depth : ℤ
  deliveryAllowed : Bool
  input : JsString
  budget : RunBudget
  usageInputTokens : ℚ
  usageOutputTokens : ℚ
  usageCostUsd : ℚ
  usageToolCalls : ℕ
  usageInputTokensReported : Bool
  usageOutputTokensReported : Bool
  usageCostReported : Bool
  status : RunStatus
  lastSequence : ℕ
  errorCode : Option JsString
  errorMessage : Option JsString
  createdAt : ℤ
  updatedAt : ℤ

structure EventRow where
  runId : JsString
  sequence : ℕ
  type : RunEventType
  payload : EventPayload
  createdAt : ℤ

structure AgentRow where
  internalId : JsString
  id : JsString
  version : ℤ
  owner : ResourceOwner
  name : JsString
  instructions : JsString
  modelCapabilities : List JsString
  allowedTools : List JsString
  defaultBudget : RunBudgetOverrides
  createdAt : ℤ

/-- The modes of a workspace. -/
inductive WorkspaceMode where
  | managed | registeredBind
  deriving DecidableEq

/-- The states of a workspace. -/
inductive WorkspaceState where
  | warm | cold | restoring | inUse | snapshotting | corrupt | error
  deriving DecidableEq

structure WorkspaceRow where
  internalId : JsString
  id : JsString
  owner : ResourceOwner
  mode : WorkspaceMode
  state : WorkspaceState
  registeredPath : Option JsString
  createdAt : ℤ
  updatedAt : ℤ

structure SessionRow where
  internalId : JsString
  id : JsString
  owner : ResourceOwner
  agentId : JsString
  agentInternalId : JsString
  createdAt : ℤ
  updatedAt : ℤ

/-- The roles of a session message. -/
inductive SessionMessageRole where
  | system | user | assistant | tool
  deriving DecidableEq

/-- The metadata of a session message, one constructor for each record the service writes. -/
inductive MessageMetadata where
  | empty
  | steering
  | assistant (turn : ℕ) (toolCalls : List ToolCall)
  | tool (callId : JsString) (ok : Bool)

structure MessageRow where
  id : JsString
  sessionInternalId : JsString
  runId : Option JsString
  role : SessionMessageRole
  content : JsString
  metadata : MessageMetadata
  createdAt : ℤ
  sequence : ℕ

structure LeaseRow where
  workspaceInternalId : JsString
  ownerRunId : Option JsString
  fencingToken : ℕ
  expiresAt : Option ℤ
  updatedAt : ℤ
  deriving DecidableEq

structure ApprovalRow where
  id : JsString
  runId : JsString
  toolCallId : JsString
  toolName : JsString
  toolArgumentsDigest : JsString
  executionDigest : JsString
  owner : ResourceOwner
  workspaceId : JsString
  policyGeneration : ℤ
  routeGeneration : JsString
  status : ApprovalStatus
  expiresAt : ℤ
  createdAt : ℤ
  resolvedAt : Option ℤ
  deriving DecidableEq

structure AttemptRow where
  id : JsString
  runId : JsString
  attempt : ℕ
  /-- One of `RUNNING` and the terminal statuses. -/
  status : RunStatus
  startedAt : ℤ
  endedAt : Option ℤ
  deriving DecidableEq

/-- The statuses of a provider connection. -/
inductive ProviderConnectionStatus where
  | needsLogin | ready | error | revoked
  deriving DecidableEq

/-- The status as the program writes it. -/
def ProviderConnectionStatus.text : ProviderConnectionStatus → JsString
  | needsLogin => js "needs_login"
  | ready => js "ready"
  | error => js "error"
  | revoked => js "revoked"

structure ProviderConnectionRow where
  internalId : JsString
  id : JsString
  owner : ResourceOwner
  providerId : JsString
  credentialProfileId : JsString
  modelIds : List JsString
  status : ProviderConnectionStatus
  lastErrorCode : Option JsString
  createdAt : ℤ
  updatedAt : ℤ

/-- The database. -/
structure Store where
  runs : List RunRow := []
  events : List EventRow := []
  sessions : List SessionRow := []
  messages : List MessageRow := []
  leases : List LeaseRow := []
  approvals : List ApprovalRow := []
  agents : List AgentRow := []
  workspaces : List WorkspaceRow := []
  attempts : List AttemptRow := []
  connections : List ProviderConnectionRow := []

/-! ## Idempotency keys -/

/-- `${userId.length}:${userId}:${key}`. -/
def scopedIdempotencyKey (userId key : JsString) : JsString := sized userId ++ colon :: key

/-- The value of a decimal digit. -/
def digitValue (u : UInt16) : Option ℕ :=
  if 48 ≤ u.toNat ∧ u.toNat ≤ 57 then some (u.toNat - 48) else none

/-- The number spelled by the longest digit prefix, given the value of what was read before. -/
def parseDigits (acc : ℕ) : JsString → ℕ
  | [] => acc
  | u :: s =>
    match digitValue u with
    | some d => parseDigits (10 * acc + d) s
    | none => acc

/-- `Number.parseInt(s, 10)`; `none` is `NaN`. -/
def parseInt (s : JsString) : Option ℤ :=
  let unsigned : JsString → Option ℕ := fun w ↦
    match w with
    | [] => none
    | u :: rest => (digitValue u).map fun d ↦ parseDigits d rest
  match s.dropWhile isStrWhiteSpace with
  | 45 :: rest => (unsigned rest).map fun n ↦ -(n : ℤ)
  | 43 :: rest => (unsigned rest).map fun n ↦ (n : ℤ)
  | w => (unsigned w).map fun n ↦ (n : ℤ)

/-- `Number.MAX_SAFE_INTEGER`. -/
def maxSafeInteger : ℤ := 2 ^ 53 - 1

/-- The idempotency key a caller sees: the scope prefix is removed where it parses. -/
def publicIdempotencyKey (value : JsString) : JsString :=
  let delimiter := value.idxOf colon
  if delimiter < 1 ∨ delimiter = value.length then value
  else
    match parseInt (value.take delimiter) with
    | none => value
    | some userLength =>
      if userLength < 0 ∨ maxSafeInteger < userLength then value
      else
        let keyDelimiter := delimiter + 1 + userLength.toNat
        if value[keyDelimiter]? = some colon then value.drop (keyDelimiter + 1) else value

/-! ## The request fingerprint -/

/-- A field that is written only when it has a value. -/
def optionalField (key : JsString) (value : Option ℚ) : List (JsString × JsValue) :=
  match value with
  | some q => [(key, .number (.finite q))]
  | none => []

/-- The JSON object of a partial budget. -/
def RunBudgetOverrides.fields (b : RunBudgetOverrides) : List (JsString × JsValue) :=
  optionalField (js "maxTurns") b.maxTurns ++ optionalField (js "maxToolCalls") b.maxToolCalls ++
    optionalField (js "maxInputTokens") b.maxInputTokens ++
    optionalField (js "maxOutputTokens") b.maxOutputTokens ++
    optionalField (js "maxCostUsd") b.maxCostUsd ++
    optionalField (js "totalTimeoutMs") b.totalTimeoutMs ++
    optionalField (js "modelIdleTimeoutMs") b.modelIdleTimeoutMs ++
    optionalField (js "commandTimeoutMs") b.commandTimeoutMs

/-- `value ?? null` for strings. -/
def nullable (s : Option JsString) : JsValue := (s.map JsValue.string).getD .null

/-- What the fingerprint is taken of. -/
def InternalStartRunRequest.fingerprintFields (r : InternalStartRunRequest) :
    List (JsString × JsValue) :=
  [(js "appId", .string r.principal.appId), (js "tenantId", .string r.principal.tenantId),
    (js "userId", .string r.principal.userId), (js "agent", .string r.agent),
    (js "workspace", .string r.workspace), (js "session", nullable r.session)] ++
  (match truthy r.providerConnectionId with
    | some c => [(js "providerConnectionId", .string c)]
    | none => []) ++
  [(js "input", .string r.input),
    (js "budget", (r.budget.map fun b ↦ JsValue.object b.fields).getD .null),
    (js "parentRunId", nullable r.parentRunId),
    (js "depth", .number (.finite (r.depth.getD 0))),
    (js "deliveryAllowed", .bool (r.deliveryAllowed.getD true))]

/-- The fingerprint of a request. The program sorts the keys with `localeCompare`, which orders
these fixed ASCII names as `render` does. -/
def Platform.requestFingerprint (P : Platform) (r : InternalStartRunRequest) : JsString :=
  P.sha256 (P.render (.object r.fingerprintFields))

/-! ## Records -/

/-- A run as the store returns it. -/
structure RunRecord where
  id : JsString
  idempotencyKey : JsString
  owner : ResourceOwner
  agentId : JsString
  workspaceId : JsString
  sessionId : Option JsString
  providerConnectionId : Option JsString
  parentRunId : Option JsString
  depth : ℤ
  deliveryAllowed : Bool
  input : JsString
  budget : RunBudget
  usage : RunUsage
  status : RunStatus
  lastSequence : ℕ
  errorCode : Option JsString
  errorMessage : Option JsString
  createdAt : ℤ
  updatedAt : ℤ

/-- The usage a row reports: a dimension counts once something was reported for it. -/
def RunRow.usage (row : RunRow) : RunUsage where
  inputTokens := if row.usageInputTokensReported then some row.usageInputTokens else none
  outputTokens := if row.usageOutputTokensReported then some row.usageOutputTokens else none
  costUsd := if row.usageCostReported then some row.usageCostUsd else none
  toolCalls := row.usageToolCalls

def toRunRecord (row : RunRow) : RunRecord where
  id := row.id
  idempotencyKey := publicIdempotencyKey row.idempotencyKey
  owner := row.owner
  agentId := row.agentId
  workspaceId := row.workspaceId
  sessionId := truthy row.sessionId
  providerConnectionId := truthy row.providerConnectionId
  parentRunId := truthy row.parentRunId
  depth := row.depth
  deliveryAllowed := row.deliveryAllowed
  input := row.input
  budget := normalizeBudget row.budget.toOverrides
  usage := row.usage
  status := row.status
  lastSequence := row.lastSequence
  errorCode := truthy row.errorCode
  errorMessage := truthy row.errorMessage
  createdAt := row.createdAt
  updatedAt := row.updatedAt

@[simp] theorem toRunRecord_id (row : RunRow) : (toRunRecord row).id = row.id := rfl

@[simp] theorem toRunRecord_status (row : RunRow) : (toRunRecord row).status = row.status := rfl

@[simp] theorem toRunRecord_budget (row : RunRow) : (toRunRecord row).budget = row.budget := rfl

@[simp] theorem toRunRecord_usage (row : RunRow) : (toRunRecord row).usage = row.usage := rfl

@[simp] theorem toRunRecord_depth (row : RunRow) : (toRunRecord row).depth = row.depth := rfl

/-- An agent profile as the store returns it. -/
structure AgentProfileRecord where
  id : JsString
  version : ℤ
  owner : ResourceOwner
  name : JsString
  instructions : JsString
  modelCapabilities : List JsString
  allowedTools : List JsString
  defaultBudget : RunBudget
  createdAt : ℤ

def toAgentProfile (row : AgentRow) : AgentProfileRecord where
  id := row.id
  version := row.version
  owner := row.owner
  name := row.name
  instructions := row.instructions
  modelCapabilities := row.modelCapabilities
  allowedTools := row.allowedTools
  defaultBudget := normalizeBudget row.defaultBudget
  createdAt := row.createdAt

/-- A workspace as its creator describes it. -/
structure WorkspaceRecord where
  id : JsString
  owner : ResourceOwner
  mode : WorkspaceMode
  state : WorkspaceState
  registeredPath : Option JsString := none
  createdAt : ℤ
  updatedAt : ℤ

/-- A provider connection as its creator describes it. -/
structure ProviderConnectionRecord where
  id : JsString
  owner : ResourceOwner
  providerId : JsString
  credentialProfileId : JsString
  modelIds : List JsString
  status : ProviderConnectionStatus
  lastErrorCode : Option JsString := none
  createdAt : ℤ
  updatedAt : ℤ

/-- A granted lease, as its holder keeps it. -/
structure WorkspaceLease where
  workspaceId : JsString
  ownerRunId : JsString
  fencingToken : ℕ
  expiresAt : ℤ
  deriving DecidableEq

end LiteHarness
