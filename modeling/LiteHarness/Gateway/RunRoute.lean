import LiteHarness.ControlPlane.BudgetTree
import LiteHarness.Domain.Budgets
import LiteHarness.Storage.Idempotency

/-!
# Creating a run through the gateway

`POST /v1/runs` holds a request against the token it came with: the agent, the workspace and the
budget. The budget it compares with the token's ceiling is the request's over the defaults of the
program. The store merges once more when it creates the run, over the default budget of the agent,
and that merge is the one the run is stored with.

A refusal of the Manager and an exception of its service reach the gateway as an exception, which
the gateway answers with status 500.
-/

namespace LiteHarness

open Foundation Foundation.Eff

/-- The body of `POST /v1/runs`. -/
structure CreateRunRequest where
  agent : JsString
  workspace : JsString
  session : Option JsString := none
  providerConnectionId : Option JsString := none
  input : JsString
  budget : Option RunBudgetOverrides := none

/-- What the routes take from their libraries: the schema checks, and the owner headers as they
arrive. -/
structure Transport where
  /-- `Value.Check(CreateRunRequestSchema, body)`. -/
  createRunSchema : CreateRunRequest → Bool
  /-- `Value.Check(InternalStartRunRequestSchema, body)`. -/
  internalStartRunSchema : InternalStartRunRequest → InternalPrincipal → Bool
  /-- The owner in the headers of a call, if they can be sent. -/
  ownerHeaders : ResourceOwner → Option ResourceOwner

def stringHeader (value : Option JsString) : Option JsString :=
  value.bind fun s ↦ truthy (some (trim s))

/-! ## The Manager -/

namespace Service

variable (H : Host)

/-- `POST /internal/runs`, called with the owner of the headers. -/
def internalRuns (T : Transport) (headers : ResourceOwner) (body : InternalStartRunRequest)
    (principal : InternalPrincipal) : ServiceM CreateRunResponse := do
  if T.internalStartRunSchema body principal = false then
    throw (.new (js "Malformed internal run request"))
  else if headers.appId = [] ∨ headers.tenantId = [] ∨ headers.userId = [] then
    throw (.new (js "Owner headers are required for Manager IPC operations"))
  else if principal.owner ≠ headers then
    throw (.new (js "The request principal does not match the authenticated IPC owner"))
  else createRun H { body with principal := headers }

/-- `ManagerClient.startRun`. -/
def startRun (T : Transport) (body : InternalStartRunRequest) (principal : InternalPrincipal) :
    ServiceM CreateRunResponse :=
  match T.ownerHeaders principal.owner with
  | none => throw (.new (js "Invalid character in header content"))
  | some headers => internalRuns H T headers body principal

end Service

/-! ## The gateway -/

/-- A call of `POST /v1/runs` by an authenticated caller. -/
structure RunSubmission where
  principal : InternalPrincipal
  body : CreateRunRequest
  idempotencyKeyHeader : Option JsString := none
  /-- The key drawn where the header gives none. -/
  randomKey : JsString

/-- What the gateway answers. -/
inductive RunReply where
  | refused (status : ℕ) (code message : JsString)
  | accepted (response : CreateRunResponse)

namespace RunSubmission

/-- The key the run is created under. -/
def idempotencyKey (submission : RunSubmission) : JsString :=
  (stringHeader submission.idempotencyKeyHeader).getD submission.randomKey

/-- The key is empty, too long, or contains a NUL or a line break. -/
def badKey (key : JsString) : Bool :=
  key.isEmpty || decide (200 < key.length) || key.any fun u ↦ u == 0 || u == 13 || u == 10

/-- The budget the gateway holds against the ceiling. -/
def effectiveBudget (submission : RunSubmission) : RunBudgetOverrides :=
  DEFAULT_RUN_BUDGET.toOverrides.spread (submission.body.budget.getD {})

/-- The request leaves the bounds of its token. -/
def ViolatesBinding (submission : RunSubmission) : Prop :=
  (∃ agentId ∈ truthy submission.principal.agentId, agentId ≠ submission.body.agent) ∨
    (∃ workspaceId ∈ truthy submission.principal.workspaceId,
      workspaceId ≠ submission.body.workspace) ∨
    ∃ ceiling ∈ submission.principal.budgetCeiling,
      budgetWithin submission.effectiveBudget ceiling = false

instance (submission : RunSubmission) : Decidable submission.ViolatesBinding :=
  inferInstanceAs (Decidable (_ ∨ _ ∨ _))

/-- The call of the Manager. -/
def internalRequest (submission : RunSubmission) : InternalStartRunRequest where
  agent := submission.body.agent
  workspace := submission.body.workspace
  session := submission.body.session
  providerConnectionId := submission.body.providerConnectionId
  input := submission.body.input
  budget := submission.body.budget
  idempotencyKey := submission.idempotencyKey
  createIfMissing := some false
  principal := submission.principal.owner

end RunSubmission

/-- `POST /v1/runs`. -/
def postRun (H : Host) (T : Transport) (submission : RunSubmission) : ServiceM RunReply := do
  if js "runs:create" ∉ submission.principal.scopes then
    pure (.refused 403 (js "insufficient_scope") (js "Route requires scope runs:create"))
  else if T.createRunSchema submission.body = false then
    pure (.refused 400 (js "invalid_request") (js "Run body does not match the schema"))
  else if RunSubmission.badKey submission.idempotencyKey then
    pure (.refused 400 (js "invalid_idempotency_key")
      (js "Idempotency key is empty, too long, or contains a forbidden control character"))
  else if submission.ViolatesBinding then
    pure (.refused 403 (js "token_binding_violation")
      (js "Run request exceeds its token binding"))
  else
    let response ← Service.startRun H T submission.internalRequest submission.principal
    pure (.accepted response)

/-! ## What a creation without provisioning stores -/

namespace Store

/-- The agent's own limits under those of the request, completed with the program's. -/
def mergedBudget (agent : AgentRow) (budget : Option RunBudgetOverrides) : RunBudget :=
  normalizeBudget (agent.defaultBudget.spread (budget.getD {}))

/-- Without provisioning, the agent of a created run was there. -/
theorem createRun_agent {now : ℤ} {fresh : FreshInternalIds} {id fingerprint : JsString}
    {request : InternalStartRunRequest} {S S' : Store} {row : RunRow}
    (hmissing : request.createIfMissing = some false)
    (h : (createRun now fresh id fingerprint request).run S = (.ok row, S')) :
    ∃ agent, S.agent? request.principal request.agent = some agent ∧
      row.budget = mergedBudget agent request.budget := by
  obtain ⟨agent, workspace, session, rfl, hadmitted⟩ := createRun_admitted h
  cases hagents : S.agent? request.principal request.agent with
  | some found =>
    refine ⟨found, rfl, ?_⟩
    -- the agent of the new row is the one that was found
    have hagent : agent = found := by
      have hensured := hadmitted.agents
      generalize S'.agents = agents at hensured
      cases hensured with
      | found hlookup => exact Option.some.inj (hlookup.symm.trans hagents)
      | inserted hnone => exact absurd (hnone.symm.trans hagents) nofun
    rw [hagent]
    rfl
  | none =>
    rw [createRun, bind_eq_ok_iff] at h
    obtain ⟨_, S₁, hconnection, h⟩ := h
    obtain rfl := requireReadyConnection_eq_ok hconnection
    rw [bind_eq_ok_iff] at h
    obtain ⟨_, S₂, hparent, h⟩ := h
    obtain ⟨rfl, -⟩ := requireParent_eq_ok hparent
    rw [bind_eq_ok_iff] at h
    obtain ⟨agent, S₃, hagent, -⟩ := h
    rw [ensureAgent, run_get_bind, hagents] at hagent
    obtain ⟨hprovisioned, -⟩ := require_bind_eq_ok_iff.mp hagent
    exact absurd hmissing hprovisioned

/-- The budget of the run a call returns: that of the earlier run under its key, or the merge of the
agent's limits and the request's. -/
theorem createOrGetRun_budget {P : Platform} {now : ℤ} {fresh : FreshInternalIds} {id : JsString}
    {request : InternalStartRunRequest} {S S' : Store} {run : RunRecord} {created : Bool}
    (hmissing : request.createIfMissing = some false) (hids : (S.runs.map RunRow.id).Nodup)
    (h : (createOrGetRun P now fresh id request).run S = (.ok (run, created), S')) :
    S'.getRun run.id = some run ∧
      match S.existingRun request.principal
          (scopedIdempotencyKey request.principal.userId request.idempotencyKey) with
      | some earlier => run = toRunRecord earlier
      | none => ∃ agent, S.agent? request.principal request.agent = some agent ∧
          run.budget = mergedBudget agent request.budget := by
  have hcases := createOrGetRun_cases P now fresh id request S
  cases hexisting : S.existingRun request.principal
      (scopedIdempotencyKey request.principal.userId request.idempotencyKey) with
  | some earlier =>
    rw [hexisting] at hcases
    dsimp only at hcases ⊢
    rw [h] at hcases
    split_ifs at hcases
    · obtain ⟨hresult, rfl⟩ := Prod.mk.inj hcases
      obtain ⟨rfl, -⟩ := Prod.mk.inj (Except.ok.inj hresult)
      refine ⟨?_, rfl⟩
      rw [getRun, toRunRecord_id, run?_of_mem hids (existingRun_some hexisting).1, Option.map_some]
    · exact absurd (Prod.mk.inj hcases).1 (by simp)
  | none =>
    rw [hexisting] at hcases
    dsimp only at hcases ⊢
    rw [hcases, transaction_eq_ok_iff, bind_eq_ok_iff] at h
    obtain ⟨row, S₁, hrow, hpure⟩ := h
    obtain ⟨hresult, rfl⟩ := pure_eq_ok_iff.mp hpure
    obtain ⟨rfl, -⟩ := Prod.mk.inj hresult
    refine ⟨?_, createRun_agent hmissing hrow⟩
    have hcreated := createRun_eq_ok hrow
    rw [getRun, toRunRecord_id, hcreated.run?_eq, if_pos hcreated.id_eq.symm, Option.map_some]

end Store

namespace Service

variable {H : Host} {O : Options}

/-- The run a call of `createRun` without provisioning answers, and its budget. -/
theorem createRun_budget {request : InternalStartRunRequest} {s : Service}
    (hmissing : request.createIfMissing = some false) (hlogged : s.store.Logged) :
    match (createRun H request).run s with
    | (.error _, s') => s'.store = s.store
    | (.ok response, s') => s'.store.Logged ∧ ∃ run, s'.store.getRun response.runId = some run ∧
        match s.store.existingRun request.principal
            (scopedIdempotencyKey request.principal.userId request.idempotencyKey) with
        | some earlier => run = toRunRecord earlier
        | none => ∃ agent, s.store.agent? request.principal request.agent = some agent ∧
            run.budget = Store.mergedBudget agent request.budget := by
  rw [createRun, run_get_bind, run_ite]
  split_ifs with haccepting
  · rfl
  · simp only [createId, now, run_bind, run_get, andThen_ok, run_modify, run_pure]
    generalize hfresh : ({ s with readings := _, draws := _ } : Service) = s₁
    have hstore : s₁.store = s.store := by rw [← hfresh]
    rcases hrun : (onStore (Store.createOrGetRun H.toPlatform _ _ _ request)).run s₁ with
      ⟨e | ⟨run, created⟩, s₂⟩
    · rw [andThen_error, onStore_error (Atomic.transaction _) hrun]
      exact hstore
    · obtain ⟨S, hcall, rfl⟩ := onStore_eq_ok_iff.mp hrun
      rw [hstore] at hcall
      have hlogged' : S.Logged := by
        rcases Store.createOrGetRun_eq_ok hcall with ⟨-, rfl⟩ | ⟨-, row, -, hcreated⟩
        · exact hlogged
        · exact hlogged.created hcreated
      obtain ⟨hget, hbudget⟩ := Store.createOrGetRun_budget hmissing hlogged.ids hcall
      cases created with
      | false => exact ⟨hlogged', run, hget, hbudget⟩
      | true => exact ⟨hlogged', run, hget, hbudget⟩

end Service

/-! ## The ceiling of the token -/

namespace RunSubmission

/-- The agent's own limits stay within the ceiling wherever the request leaves them open; for a key
that is in use, the run it names stays within the ceiling. -/
def AgentWithin (submission : RunSubmission) (S : Store) (ceiling : RunBudgetOverrides) : Prop :=
  match S.existingRun submission.principal.owner
      (scopedIdempotencyKey submission.principal.owner.userId submission.idempotencyKey) with
  | some earlier => ∀ f : BudgetField, ∀ bound ∈ f.given ceiling, f.of earlier.budget ≤ bound
  | none => ∀ agent ∈ S.agent? submission.principal.owner submission.body.agent,
      ∀ f : BudgetField, f.given (submission.body.budget.getD {}) = none →
        ∀ limit ∈ f.given agent.defaultBudget, ∀ bound ∈ f.given ceiling, limit ≤ bound

/-- Once the gateway has compared its own merge, only the agent's limits can leave the ceiling. -/
theorem mergedBudget_within_iff {submission : RunSubmission} {ceiling : RunBudgetOverrides}
    (h : budgetWithin submission.effectiveBudget ceiling = true) (agent : AgentRow) :
    (∀ f : BudgetField, ∀ bound ∈ f.given ceiling,
        f.of (Store.mergedBudget agent submission.body.budget) ≤ bound) ↔
      ∀ f : BudgetField, f.given (submission.body.budget.getD {}) = none →
        ∀ limit ∈ f.given agent.defaultBudget, ∀ bound ∈ f.given ceiling, limit ≤ bound := by
  rw [budgetWithin_iff] at h
  refine forall_congr' fun f ↦ ?_
  have hf := h f
  rw [effectiveBudget, BudgetField.given_spread, BudgetField.given_toOverrides] at hf
  rw [Store.mergedBudget, BudgetField.of_normalizeBudget, BudgetField.given_spread]
  revert hf
  cases f.given (submission.body.budget.getD {}) with
  | some value =>
    intro hf
    simpa using hf
  | none =>
    cases f.given agent.defaultBudget with
    | some limit => simp
    | none =>
      intro hf
      simpa using hf

end RunSubmission

open Service in
/-- A call of the Manager's route creates the run, or leaves the store as it was. -/
theorem startRun_budget {H : Host} (T : Transport) (submission : RunSubmission) {s : Service}
    (hlogged : s.store.Logged) :
    match (startRun H T submission.internalRequest submission.principal).run s with
    | (.error _, s') => s'.store = s.store
    | (.ok response, s') => s'.store.Logged ∧ ∃ run, s'.store.getRun response.runId = some run ∧
        match s.store.existingRun submission.principal.owner
            (scopedIdempotencyKey submission.principal.owner.userId submission.idempotencyKey) with
        | some earlier => run = toRunRecord earlier
        | none => ∃ agent,
            s.store.agent? submission.principal.owner submission.body.agent = some agent ∧
              run.budget = Store.mergedBudget agent submission.body.budget := by
  rw [startRun]
  cases T.ownerHeaders submission.principal.owner with
  | none => rfl
  | some headers =>
    simp only [internalRuns, run_ite]
    by_cases hschema : T.internalStartRunSchema submission.internalRequest submission.principal
        = false
    · rw [if_pos hschema]
      rfl
    rw [if_neg hschema]
    by_cases hheaders : headers.appId = [] ∨ headers.tenantId = [] ∨ headers.userId = []
    · rw [if_pos hheaders]
      rfl
    rw [if_neg hheaders]
    by_cases howner : submission.principal.owner = headers
    · subst howner
      rw [if_neg (not_not.mpr rfl)]
      have hmissing : submission.internalRequest.createIfMissing = some false := rfl
      exact createRun_budget hmissing hlogged
    · rw [if_pos howner]
      rfl

open Service in
/-- **When the stored budget stays within the token's ceiling.** After any history, a call of the
route that is not accepted leaves the store as it was. An accepted one answers a stored run, and the
budget stored with it, now and from then on, is within the ceiling exactly when the agent's limits
are. -/
theorem postRun_withinCeiling_iff (H : Host) (O : Options) (T : Transport) (history : List Input)
    (submission : RunSubmission) :
    let s := after H O {} history
    match (postRun H T submission).run s with
    | (.ok (.accepted response), s') => ∀ later, ∃ run,
        (after H O s' later).store.getRun response.runId = some run ∧
        ∀ ceiling ∈ submission.principal.budgetCeiling,
          (∀ f : BudgetField, ∀ bound ∈ f.given ceiling, f.of run.budget ≤ bound) ↔
            submission.AgentWithin s.store ceiling
    | (_, s') => s'.store = s.store := by
  intro s
  have hreach : Reachable H O s := ⟨history, rfl⟩
  simp only [postRun, run_ite, run_pure]
  by_cases hscope : js "runs:create" ∉ submission.principal.scopes
  · rw [if_pos hscope]
  rw [if_neg hscope]
  by_cases hschema : T.createRunSchema submission.body = false
  · rw [if_pos hschema]
  rw [if_neg hschema]
  by_cases hkey : RunSubmission.badKey submission.idempotencyKey = true
  · rw [if_pos hkey]
  rw [if_neg hkey]
  by_cases hbinding : submission.ViolatesBinding
  · rw [if_pos hbinding]
  rw [if_neg hbinding, run_bind]
  have hstart := startRun_budget (H := H) T submission hreach.logged
  rcases hrun : (startRun H T submission.internalRequest submission.principal).run s with
    ⟨e | response, s'⟩
  · rw [hrun] at hstart
    exact hstart
  rw [hrun] at hstart
  obtain ⟨hlogged, run, hget, hbudget⟩ := hstart
  intro later
  -- the stored budget never changes, so the merge of the creation decides
  obtain ⟨row, hrow, rfl⟩ := Option.map_eq_some_iff.mp hget
  obtain ⟨row', hrow', hidentity⟩ := after_keeps (H := H) (O := O) hlogged later hrow
  have hsame : row'.budget = row.budget := congrArg RunIdentity.budget hidentity
  refine ⟨toRunRecord row', by rw [Store.getRun, hrow', Option.map_some], fun ceiling hceiling ↦ ?_⟩
  have hwithin : budgetWithin submission.effectiveBudget ceiling = true := by
    by_contra hover
    exact hbinding (Or.inr (Or.inr ⟨ceiling, hceiling, Bool.eq_false_iff.mpr hover⟩))
  rw [toRunRecord_budget, hsame, RunSubmission.AgentWithin]
  cases hexisting : s.store.existingRun submission.principal.owner
      (scopedIdempotencyKey submission.principal.owner.userId submission.idempotencyKey) with
  | some earlier =>
    rw [hexisting] at hbudget
    have hearlier : row.budget = earlier.budget := congrArg RunRecord.budget hbudget
    rw [hearlier]
  | none =>
    rw [hexisting] at hbudget
    obtain ⟨agent, hagent, hmerged⟩ := hbudget
    rw [toRunRecord_budget] at hmerged
    rw [hmerged, RunSubmission.mergedBudget_within_iff hwithin, hagent]
    simp

/-! ## A run beyond its token's ceiling -/

/-- A transport that lets every call through. -/
def referenceTransport : Transport where
  createRunSchema _ := true
  internalStartRunSchema _ _ := true
  ownerHeaders := some

/-- An agent with a default of 100 turns, and a workspace for it. -/
def generousAgent : List Input :=
  let owner : ResourceOwner := ⟨js "app", js "tenant", js "user"⟩
  [.createAgentProfile
      { id := js "agent", version := 1, owner, name := js "agent", instructions := []
        modelCapabilities := [js "text"], allowedTools := []
        defaultBudget := { DEFAULT_RUN_BUDGET with maxTurns := 100 }, createdAt := 0 },
    .createWorkspace
      { id := js "workspace", owner, mode := .managed, state := .warm, createdAt := 0
        updatedAt := 0 }]

/-- A request without a budget, under a token for runs of at most ten turns. -/
def tenTurns : RunSubmission where
  principal :=
    { owner := ⟨js "app", js "tenant", js "user"⟩, scopes := [js "runs:create"]
      tokenId := js "tok", tokenType := some .run, budgetCeiling := some { maxTurns := some 10 } }
  body := { agent := js "agent", workspace := js "workspace", input := js "input" }
  idempotencyKeyHeader := js "key"
  randomKey := js "random"

/-- The turns of the run that was accepted. -/
def acceptedTurns : Except JsError RunReply × Service → Option ℚ
  | (.ok (.accepted response), s') => (s'.store.getRun response.runId).map fun run ↦
      run.budget.maxTurns
  | _ => none

open Service in
/-- The gateway lets the request through, and its run is stored with the 100 turns of its agent. -/
theorem not_withinCeiling_tenTurns :
    ¬∀ (H : Host) (O : Options) (T : Transport) (history : List Input)
      (submission : RunSubmission) (response : CreateRunResponse) (s' : Service),
      (postRun H T submission).run (after H O {} history) = (.ok (.accepted response), s') →
        ∀ ceiling ∈ submission.principal.budgetCeiling,
          ∀ run ∈ s'.store.getRun response.runId,
            ∀ f : BudgetField, ∀ bound ∈ f.given ceiling, f.of run.budget ≤ bound := by
  intro h
  have hstored : acceptedTurns ((postRun referenceHost referenceTransport tenTurns).run
      (after referenceHost referenceOptions {} generousAgent)) = some 100 := by
    decide +kernel
  rcases hrun : (postRun referenceHost referenceTransport tenTurns).run
    (after referenceHost referenceOptions {} generousAgent) with ⟨e | reply, s'⟩
  · rw [hrun] at hstored
    exact absurd hstored nofun
  · cases reply with
    | refused status code message =>
      rw [hrun] at hstored
      exact absurd hstored nofun
    | accepted response =>
      rw [hrun] at hstored
      obtain ⟨run, hget, hturns⟩ := Option.map_eq_some_iff.mp hstored
      have hle := h _ _ _ _ _ response s' hrun _ rfl run hget .maxTurns 10 rfl
      change run.budget.maxTurns ≤ 10 at hle
      rw [hturns] at hle
      exact absurd hle (by decide +kernel)

end LiteHarness
