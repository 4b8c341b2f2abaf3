import LiteHarness.Storage.RunStore

/-!
# Leases, approvals, attempts and configuration

The remaining operations of the run store, and `StoreOp`, which lists every operation that writes
to the modelled tables. A single SQL statement outside a transaction is atomic by itself.
-/

namespace LiteHarness

open Foundation Foundation.Eff

/-! ## Workspace leases -/

/-- `expires_at && expires_at > now`. -/
def LeaseRow.Live (row : LeaseRow) (now : ℤ) : Prop := ∃ e ∈ row.expiresAt, now < e

instance (row : LeaseRow) (now : ℤ) : Decidable (row.Live now) :=
  inferInstanceAs (Decidable (∃ e ∈ row.expiresAt, now < e))

/-- The row names this holder and this token. -/
def LeaseRow.HeldBy (row : LeaseRow) (lease : WorkspaceLease) : Prop :=
  row.ownerRunId = some lease.ownerRunId ∧ row.fencingToken = lease.fencingToken

instance (row : LeaseRow) (lease : WorkspaceLease) : Decidable (row.HeldBy lease) :=
  inferInstanceAs (Decidable (_ ∧ _))

/-- The record with a resolution written to it. -/
def ApprovalRow.resolve (status : ApprovalStatus) (resolvedAt : ℤ) (row : ApprovalRow) :
    ApprovalRow :=
  { row with status, resolvedAt := some resolvedAt }

namespace Store

def lease? (S : Store) (workspaceInternalId : JsString) : Option LeaseRow :=
  Table.lookup LeaseRow.workspaceInternalId workspaceInternalId S.leases

/-- `SELECT workspace_internal_id FROM runs WHERE id = ? AND workspace_id = ?`. -/
def leaseTarget (S : Store) (runId workspaceId : JsString) : Option JsString :=
  (S.run? runId).bind fun run ↦
    if run.workspaceId = workspaceId then run.workspaceInternalId else none

/-- The row a lease object speaks of. -/
def leaseRow? (S : Store) (lease : WorkspaceLease) : Option LeaseRow :=
  (S.leaseTarget lease.ownerRunId lease.workspaceId).bind S.lease?

/-- The row keeps another run's unexpired lease. -/
def heldByOther (row : LeaseRow) (runId : JsString) (now : ℤ) : Prop :=
  (∃ o ∈ truthy row.ownerRunId, o ≠ runId) ∧ row.Live now

instance (row : LeaseRow) (runId : JsString) (now : ℤ) : Decidable (heldByOther row runId now) :=
  inferInstanceAs (Decidable (_ ∧ _))

/-- The token of a grant: the owner of a live lease keeps it, everyone else gets the next one. -/
def grantToken (row : Option LeaseRow) (runId : JsString) (now : ℤ) : ℕ :=
  match row with
  | some row =>
    if row.ownerRunId = some runId ∧ row.Live now then row.fencingToken else row.fencingToken + 1
  | none => 1

/-- `INSERT INTO workspace_leases … ON CONFLICT DO UPDATE`. -/
def upsertLease (row : LeaseRow) (S : Store) : Store :=
  { S with
    leases := Table.upsert LeaseRow.workspaceInternalId row
      (fun r ↦ { row with workspaceInternalId := r.workspaceInternalId }) S.leases }

/-- `UPDATE workspace_leases SET … WHERE workspace_internal_id = ?`. -/
def updateLease (workspaceInternalId : JsString) (f : LeaseRow → LeaseRow) (S : Store) : Store :=
  { S with
    leases := Table.update (fun row ↦ row.workspaceInternalId = workspaceInternalId) f S.leases }

def acquireWorkspaceLease (now : ℤ) (workspaceId runId : JsString) (ttlMs : ℤ) :
    StoreM (Option WorkspaceLease) :=
  transaction do
    let S ← get
    let foreign := JsError.new (js "Workspace lease does not belong to the supplied run")
    match S.run? runId with
    | none => throw foreign
    | some run =>
      match truthy run.workspaceInternalId with
      | none => throw foreign
      | some w =>
        require (run.workspaceId = workspaceId) foreign
        let row := S.lease? w
        if ∃ r ∈ row, heldByOther r runId now then pure none
        else
          let token := grantToken row runId now
          modify (upsertLease ⟨w, some runId, token, some (now + ttlMs), now⟩)
          pure (some ⟨workspaceId, runId, token, now + ttlMs⟩)

def getWorkspaceLease (S : Store) (workspaceId runId : JsString) : Option WorkspaceLease :=
  match (S.leaseTarget runId workspaceId).bind S.lease? with
  | none => none
  | some row =>
    if row.ownerRunId = some runId then
      row.expiresAt.map fun e ↦ ⟨workspaceId, runId, row.fencingToken, e⟩
    else none

def validateWorkspaceLease (now : ℤ) (lease : WorkspaceLease) (S : Store) : Bool :=
  match S.leaseRow? lease with
  | none => false
  | some row => row.HeldBy lease ∧ row.Live now

def renewWorkspaceLease (now : ℤ) (lease : WorkspaceLease) (ttlMs : ℤ) :
    StoreM (Option WorkspaceLease) := do
  let S ← get
  match S.leaseRow? lease with
  | none => pure none
  | some row =>
    if row.HeldBy lease ∧ row.Live now then
      modify (updateLease row.workspaceInternalId fun r ↦
        { r with expiresAt := some (now + ttlMs), updatedAt := now })
      pure (some { lease with expiresAt := now + ttlMs })
    else pure none

def releaseWorkspaceLease (now : ℤ) (lease : WorkspaceLease) : StoreM Bool := do
  let S ← get
  match S.leaseRow? lease with
  | none => pure false
  | some row =>
    if row.HeldBy lease then
      modify (updateLease row.workspaceInternalId fun r ↦
        { r with ownerRunId := none, expiresAt := none, updatedAt := now })
      pure true
    else pure false

/-! ## Approvals -/

def approval? (S : Store) (id : JsString) : Option ApprovalRow :=
  Table.lookup ApprovalRow.id id S.approvals

def createApproval (record : ApprovalRow) : StoreM ApprovalRow := do
  let S ← get
  require (∀ a ∈ S.approvals, a.id ≠ record.id) (uniqueViolation "approvals.id")
  require ((S.run? record.runId).isSome = true) foreignKeyViolation
  modify fun S ↦ { S with approvals := S.approvals ++ [record] }
  pure record

/-- The condition under which a pending approval takes a status. -/
def Resolvable (S : Store) (row : ApprovalRow) (status : ApprovalStatus)
    (expectedExecutionDigest : JsString) (resolvedAt : ℤ) : Prop :=
  row.status = .pending ∧ row.executionDigest = expectedExecutionDigest ∧
    (status = .approved → resolvedAt < row.expiresAt) ∧
    ∃ run ∈ S.run? row.runId, run.status.isTerminalRunStatus = false

instance (S : Store) (row : ApprovalRow) (status : ApprovalStatus) (digest : JsString) (now : ℤ) :
    Decidable (S.Resolvable row status digest now) :=
  inferInstanceAs (Decidable (_ ∧ _ ∧ _ ∧ _))

/-- `UPDATE approvals SET status, resolved_at WHERE id = ?`. -/
def setApproval (id : JsString) (status : ApprovalStatus) (resolvedAt : ℤ) (S : Store) : Store :=
  { S with
    approvals := Table.update (fun row ↦ row.id = id) (ApprovalRow.resolve status resolvedAt)
      S.approvals }

/-- Whether the update changed the row. -/
def resolveApprovalWithinTransaction (resolvedAt : ℤ) (id : JsString)
    (status : ApprovalResolution) (expectedExecutionDigest : JsString) : StoreM Bool := do
  let S ← get
  match S.approval? id with
  | none => pure false
  | some row =>
    if S.Resolvable row status expectedExecutionDigest resolvedAt then
      modify (setApproval id status resolvedAt)
      pure true
    else pure false

def resolveApproval (resolvedAt : ℤ) (id : JsString) (status : ApprovalResolution)
    (expectedExecutionDigest : JsString) : StoreM (Option ApprovalRow) :=
  transaction do
    let _ ← resolveApprovalWithinTransaction resolvedAt id status expectedExecutionDigest
    let S ← get
    pure (S.approval? id)

/-- `resolveApprovalAndAppendEvent`: the record after the attempt, with one event exactly when the
record changed. The event is stamped with a reading of its own. -/
def resolveApprovalAndAppendEvent (resolvedAt createdAt : ℤ) (id : JsString)
    (status : ApprovalResolution) (expectedExecutionDigest : JsString) (payload : EventPayload) :
    StoreM (Option ApprovalRow) :=
  transaction do
    let changed ← resolveApprovalWithinTransaction resolvedAt id status expectedExecutionDigest
    let S ← get
    match S.approval? id with
    | some record =>
      if changed then
        let _ ← appendEventWithinTransaction createdAt
          { runId := record.runId, type := .approvalResolved, payload }
        pure (some record)
      else pure (some record)
    | none => pure none

/-! ## Attempts -/

def createRunAttempt (startedAt : ℤ) (runId id : JsString) : StoreM AttemptRow := do
  let S ← get
  let count := (S.attempts.filter fun a ↦ a.runId = runId).length
  require (∀ a ∈ S.attempts, a.id ≠ id) (uniqueViolation "run_attempts.id")
  require (∀ a ∈ S.attempts, a.runId = runId → a.attempt ≠ count + 1)
    (uniqueViolation "run_attempts.run_id, run_attempts.attempt")
  require ((S.run? runId).isSome = true) foreignKeyViolation
  let attempt : AttemptRow := ⟨id, runId, count + 1, .running, startedAt, none⟩
  modify fun S ↦ { S with attempts := S.attempts ++ [attempt] }
  pure attempt

def completeRunAttempt (now : ℤ) (id : JsString) (status : RunStatus.Terminal) :
    StoreM AttemptRow := do
  modify fun S ↦
    { S with
      attempts := Table.update (fun a ↦ a.id = id ∧ a.status = .running)
        (fun a ↦ { a with status := status, endedAt := some now }) S.attempts }
  let S ← get
  match Table.lookup AttemptRow.id id S.attempts with
  | some attempt => pure attempt
  | none => throw (.new (js "Run attempt not found: " ++ id))

def completeRunningAttempts (now : ℤ) (runId : JsString) (status : RunStatus.Terminal) :
    StoreM ℕ := do
  let S ← get
  modify (endAttempts now runId status)
  pure (S.attempts.filter fun a ↦ a.runId = runId ∧ a.status = .running).length

/-! ## Configuration -/

def createAgentProfile (internalId : JsString) (record : AgentProfileRecord) :
    StoreM (Option AgentProfileRecord) := do
  insertAgent
    { internalId, id := record.id, version := record.version, owner := record.owner
      name := record.name, instructions := record.instructions
      modelCapabilities := record.modelCapabilities, allowedTools := record.allowedTools
      defaultBudget := (normalizeBudget record.defaultBudget.toOverrides).toOverrides
      createdAt := record.createdAt }
  let S ← get
  pure (S.getAgentProfile record.id record.owner)

/-- Deletes the profile unless a run or a session refers to it. -/
def deleteAgentProfile (id : JsString) (owner : ResourceOwner) : StoreM Bool := do
  let S ← get
  match S.agent? owner id with
  | none => pure false
  | some agent =>
    if (∃ r ∈ S.runs, r.agentInternalId = some agent.internalId) ∨
        (∃ s ∈ S.sessions, s.agentInternalId = agent.internalId) then pure false
    else
      modify fun S ↦
        { S with agents := S.agents.filter fun a ↦ ¬(a.owner = owner ∧ a.id = id) }
      pure true

def createWorkspace (internalId : JsString) (record : WorkspaceRecord) : StoreM PUnit :=
  insertWorkspace
    { internalId, id := record.id, owner := record.owner, mode := record.mode
      state := record.state, registeredPath := record.registeredPath
      createdAt := record.createdAt, updatedAt := record.updatedAt }

def updateWorkspaceState (updatedAt : ℤ) (id : JsString) (owner : ResourceOwner)
    (expected state : WorkspaceState) : StoreM Bool := do
  let S ← get
  match S.workspace? owner id with
  | none => pure false
  | some workspace =>
    if workspace.state = expected then
      modify fun S ↦
        { S with
          workspaces := Table.update (fun w ↦ w.owner = owner ∧ w.id = id)
            (fun w ↦ { w with state, updatedAt }) S.workspaces }
      pure true
    else pure false

def createProviderConnection (internalId : JsString) (record : ProviderConnectionRecord) :
    StoreM PUnit := do
  let S ← get
  require (∀ c ∈ S.connections, c.internalId ≠ internalId)
    (uniqueViolation "provider_connections.internal_id")
  require (S.connection? record.owner record.id = none)
    (uniqueViolation ("provider_connections.app_id, provider_connections.tenant_id, " ++
      "provider_connections.user_id, provider_connections.id"))
  require (∀ c ∈ S.connections, c.owner = record.owner →
      c.credentialProfileId ≠ record.credentialProfileId)
    (uniqueViolation ("provider_connections.app_id, provider_connections.tenant_id, " ++
      "provider_connections.user_id, provider_connections.credential_profile_id"))
  modify fun S ↦
    { S with
      connections := S.connections ++
        [{ internalId, id := record.id, owner := record.owner, providerId := record.providerId
           credentialProfileId := record.credentialProfileId, modelIds := record.modelIds
           status := record.status, lastErrorCode := record.lastErrorCode
           createdAt := record.createdAt, updatedAt := record.updatedAt }] }

def updateProviderConnection (updatedAt : ℤ) (id : JsString) (owner : ResourceOwner)
    (status : ProviderConnectionStatus) (lastErrorCode : Option JsString) : StoreM PUnit :=
  modify fun S ↦
    { S with
      connections := Table.update (fun c ↦ c.owner = owner ∧ c.id = id)
        (fun c ↦ { c with status, lastErrorCode, updatedAt }) S.connections }

def deleteProviderConnection (id : JsString) (owner : ResourceOwner) : StoreM PUnit :=
  modify fun S ↦
    { S with connections := S.connections.filter fun c ↦ ¬(c.owner = owner ∧ c.id = id) }

end Store

/-! ## Histories of the store -/

/-- A call of a store operation that writes, with the readings and ids it takes. -/
inductive StoreOp where
  | createOrGetRun (now : ℤ) (fresh : Store.FreshInternalIds) (id : JsString)
      (request : InternalStartRunRequest)
  | appendEvent (createdAt : ℤ) (params : AppendRunEvent)
  | appendSessionMessage (createdAt : ℤ) (params : Store.AppendSessionMessage)
  | recordUsage (updatedAt : ℤ) (runId : JsString) (delta : RunUsageDelta)
  | acquireWorkspaceLease (now : ℤ) (workspaceId runId : JsString) (ttlMs : ℤ)
  | renewWorkspaceLease (now : ℤ) (lease : WorkspaceLease) (ttlMs : ℤ)
  | releaseWorkspaceLease (now : ℤ) (lease : WorkspaceLease)
  | createApproval (record : ApprovalRow)
  | resolveApproval (resolvedAt : ℤ) (id : JsString) (status : ApprovalResolution)
      (expectedExecutionDigest : JsString)
  | resolveApprovalAndAppendEvent (resolvedAt createdAt : ℤ) (id : JsString)
      (status : ApprovalResolution) (expectedExecutionDigest : JsString) (payload : EventPayload)
  | createRunAttempt (startedAt : ℤ) (runId id : JsString)
  | completeRunAttempt (now : ℤ) (id : JsString) (status : RunStatus.Terminal)
  | completeRunningAttempts (now : ℤ) (runId : JsString) (status : RunStatus.Terminal)
  | createAgentProfile (internalId : JsString) (record : AgentProfileRecord)
  | deleteAgentProfile (id : JsString) (owner : ResourceOwner)
  | createWorkspace (internalId : JsString) (record : WorkspaceRecord)
  | updateWorkspaceState (updatedAt : ℤ) (id : JsString) (owner : ResourceOwner)
      (expected state : WorkspaceState)
  | createProviderConnection (internalId : JsString) (record : ProviderConnectionRecord)
  | updateProviderConnection (updatedAt : ℤ) (id : JsString) (owner : ResourceOwner)
      (status : ProviderConnectionStatus) (lastErrorCode : Option JsString)
  | deleteProviderConnection (id : JsString) (owner : ResourceOwner)

/-- The operation with its result forgotten. -/
def StoreOp.call (P : Platform) : StoreOp → StoreM PUnit
  | .createOrGetRun now fresh id request => do
    let _ ← Store.createOrGetRun P now fresh id request
  | .appendEvent createdAt params => do let _ ← Store.appendEvent createdAt params
  | .appendSessionMessage createdAt params => do
    let _ ← Store.appendSessionMessage createdAt params
  | .recordUsage updatedAt runId delta => do let _ ← Store.recordUsage updatedAt runId delta
  | .acquireWorkspaceLease now workspaceId runId ttlMs => do
    let _ ← Store.acquireWorkspaceLease now workspaceId runId ttlMs
  | .renewWorkspaceLease now lease ttlMs => do
    let _ ← Store.renewWorkspaceLease now lease ttlMs
  | .releaseWorkspaceLease now lease => do let _ ← Store.releaseWorkspaceLease now lease
  | .createApproval record => do let _ ← Store.createApproval record
  | .resolveApproval resolvedAt id status digest => do
    let _ ← Store.resolveApproval resolvedAt id status digest
  | .resolveApprovalAndAppendEvent resolvedAt createdAt id status digest payload => do
    let _ ← Store.resolveApprovalAndAppendEvent resolvedAt createdAt id status digest payload
  | .createRunAttempt startedAt runId id => do let _ ← Store.createRunAttempt startedAt runId id
  | .completeRunAttempt now id status => do let _ ← Store.completeRunAttempt now id status
  | .completeRunningAttempts now runId status => do
    let _ ← Store.completeRunningAttempts now runId status
  | .createAgentProfile internalId record => do
    let _ ← Store.createAgentProfile internalId record
  | .deleteAgentProfile id owner => do let _ ← Store.deleteAgentProfile id owner
  | .createWorkspace internalId record => Store.createWorkspace internalId record
  | .updateWorkspaceState updatedAt id owner expected state => do
    let _ ← Store.updateWorkspaceState updatedAt id owner expected state
  | .createProviderConnection internalId record =>
    Store.createProviderConnection internalId record
  | .updateProviderConnection updatedAt id owner status lastErrorCode =>
    Store.updateProviderConnection updatedAt id owner status lastErrorCode
  | .deleteProviderConnection id owner => Store.deleteProviderConnection id owner

/-- The store after one call, whether it returned or threw. -/
def StoreOp.apply (P : Platform) (op : StoreOp) (S : Store) : Store := ((op.call P).run S).2

/-- The store after a history of calls. -/
def Store.after (P : Platform) (S : Store) (history : List StoreOp) : Store :=
  history.foldl (fun S op ↦ op.apply P S) S

/-- What every operation keeps holds after any history. -/
theorem Store.after_induction {P : Platform} {p : Store → Prop}
    (hstep : ∀ S op, p S → p (StoreOp.apply P op S)) {S : Store} (h : p S)
    (history : List StoreOp) : p (S.after P history) := by
  induction history generalizing S with
  | nil => exact h
  | cons op history ih => exact ih (hstep S op h)

end LiteHarness
