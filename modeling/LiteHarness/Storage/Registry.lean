import LiteHarness.Storage.Changes

/-!
# Who refers to what

A creation finds or inserts the agent, the workspace and the session of the run. `Admitted` says
how: by the public ids of the request within its owner's rows, with internal ids no other row has.
`StoreOp.Registers` lists what every operation does to the tables that refer to one another.
-/

namespace LiteHarness

open Foundation Foundation.Eff

/-- The columns of a run that no operation changes, its references among them. -/
structure RunRow.Registration where
  id : JsString
  idempotencyKey : JsString
  requestFingerprint : JsString
  owner : ResourceOwner
  agentId : JsString
  workspaceId : JsString
  sessionId : Option JsString
  agentInternalId : Option JsString
  workspaceInternalId : Option JsString
  sessionInternalId : Option JsString
  parentRunId : Option JsString
  depth : ℤ

def RunRow.registration (row : RunRow) : RunRow.Registration where
  id := row.id
  idempotencyKey := row.idempotencyKey
  requestFingerprint := row.requestFingerprint
  owner := row.owner
  agentId := row.agentId
  workspaceId := row.workspaceId
  sessionId := row.sessionId
  agentInternalId := row.agentInternalId
  workspaceInternalId := row.workspaceInternalId
  sessionInternalId := row.sessionInternalId
  parentRunId := row.parentRunId
  depth := row.depth

/-- The owner and the public id of a row. -/
abbrev AgentRow.key (row : AgentRow) : ResourceOwner × JsString := (row.owner, row.id)
abbrev WorkspaceRow.key (row : WorkspaceRow) : ResourceOwner × JsString := (row.owner, row.id)
abbrev SessionRow.key (row : SessionRow) : ResourceOwner × JsString := (row.owner, row.id)

/-- The public id of the session of a new run. -/
def InternalStartRunRequest.sessionOf (request : InternalStartRunRequest) (id : JsString) :
    JsString := request.session.getD (js "ses_" ++ id.drop 4)

namespace Store

/-! ## Creations -/

theorem insertAgent_eq_ok_iff {row : AgentRow} {S S' : Store} {u : PUnit} :
    (insertAgent row).run S = (.ok u, S') ↔ (∀ a ∈ S.agents, a.internalId ≠ row.internalId) ∧
      S.agent? row.owner row.id = none ∧ S' = { S with agents := S.agents ++ [row] } := by
  simp only [insertAgent, run_get_bind, require_bind_eq_ok_iff, modify_eq_ok_iff]

theorem insertWorkspace_eq_ok_iff {row : WorkspaceRow} {S S' : Store} {u : PUnit} :
    (insertWorkspace row).run S = (.ok u, S') ↔
      (∀ w ∈ S.workspaces, w.internalId ≠ row.internalId) ∧
      S.workspace? row.owner row.id = none ∧
      S' = { S with workspaces := S.workspaces ++ [row] } := by
  simp only [insertWorkspace, run_get_bind, require_bind_eq_ok_iff, modify_eq_ok_iff]

theorem insertSession_eq_ok_iff {row : SessionRow} {S S' : Store} {u : PUnit} :
    (insertSession row).run S = (.ok u, S') ↔
      (∀ s ∈ S.sessions, s.internalId ≠ row.internalId) ∧
      S' = { S with sessions := S.sessions ++ [row] } := by
  simp only [insertSession, run_get_bind, require_bind_eq_ok_iff, modify_eq_ok_iff]

theorem ensureAgent_ensured {now : ℤ} {fresh : FreshInternalIds}
    {request : InternalStartRunRequest} {S S' : Store} {agent : AgentRow}
    (h : (ensureAgent now fresh request).run S = (.ok agent, S')) :
    ∃ agents, S' = { S with agents } ∧ Table.Ensured AgentRow.key AgentRow.internalId
      (request.principal, request.agent) agent S.agents agents := by
  rw [ensureAgent, run_get_bind] at h
  split at h
  · rename_i found hfound
    obtain ⟨rfl, rfl⟩ := pure_eq_ok_iff.mp h
    exact ⟨_, rfl, .found hfound⟩
  · rename_i hnone
    rw [require_bind_eq_ok_iff, bind_eq_ok_iff] at h
    obtain ⟨-, _, _, hinsert, hpure⟩ := h
    obtain ⟨hfresh, -, rfl⟩ := insertAgent_eq_ok_iff.mp hinsert
    obtain ⟨rfl, rfl⟩ := pure_eq_ok_iff.mp hpure
    exact ⟨_, rfl, .inserted hnone rfl hfresh⟩

theorem ensureWorkspace_ensured {now : ℤ} {fresh : FreshInternalIds}
    {request : InternalStartRunRequest} {S S' : Store} {workspace : WorkspaceRow}
    (h : (ensureWorkspace now fresh request).run S = (.ok workspace, S')) :
    ∃ workspaces, S' = { S with workspaces } ∧
      Table.Ensured WorkspaceRow.key WorkspaceRow.internalId
        (request.principal, request.workspace) workspace S.workspaces workspaces := by
  rw [ensureWorkspace, run_get_bind] at h
  split at h
  · rename_i found hfound
    obtain ⟨rfl, rfl⟩ := pure_eq_ok_iff.mp h
    exact ⟨_, rfl, .found hfound⟩
  · rename_i hnone
    rw [require_bind_eq_ok_iff, bind_eq_ok_iff] at h
    obtain ⟨-, _, _, hinsert, hpure⟩ := h
    obtain ⟨hfresh, -, rfl⟩ := insertWorkspace_eq_ok_iff.mp hinsert
    obtain ⟨rfl, rfl⟩ := pure_eq_ok_iff.mp hpure
    exact ⟨_, rfl, .inserted hnone rfl hfresh⟩

theorem ensureSession_ensured {now : ℤ} {fresh : FreshInternalIds}
    {request : InternalStartRunRequest} {sessionId : JsString} {agent : AgentRow} {S S' : Store}
    {session : SessionRow}
    (h : (ensureSession now fresh request sessionId agent).run S = (.ok session, S')) :
    ∃ sessions, S' = { S with sessions } ∧ session.agentInternalId = agent.internalId ∧
      Table.Ensured SessionRow.key SessionRow.internalId (request.principal, sessionId) session
        S.sessions sessions := by
  rw [ensureSession, run_get_bind] at h
  split at h
  · rename_i found hfound
    rw [require_bind_eq_ok_iff] at h
    obtain ⟨hagent, h⟩ := h
    obtain ⟨rfl, rfl⟩ := pure_eq_ok_iff.mp h
    exact ⟨_, rfl, hagent, .found hfound⟩
  · rename_i hnone
    obtain ⟨_, _, hinsert, hpure⟩ := bind_eq_ok_iff.mp h
    obtain ⟨hfresh, rfl⟩ := insertSession_eq_ok_iff.mp hinsert
    obtain ⟨rfl, rfl⟩ := pure_eq_ok_iff.mp hpure
    exact ⟨_, rfl, rfl, .inserted hnone rfl hfresh⟩

/-- `S'` is `S` with a run created for the request, and with the rows the run refers to. -/
structure Admitted (now : ℤ) (id fingerprint : JsString) (request : InternalStartRunRequest)
    (agent : AgentRow) (workspace : WorkspaceRow) (session : SessionRow) (S S' : Store) : Prop where
  parent : S.ParentSound request
  agents : Table.Ensured AgentRow.key AgentRow.internalId (request.principal, request.agent) agent
    S.agents S'.agents
  workspaces : Table.Ensured WorkspaceRow.key WorkspaceRow.internalId
    (request.principal, request.workspace) workspace S.workspaces S'.workspaces
  sessions : Table.Ensured SessionRow.key SessionRow.internalId
    (request.principal, request.sessionOf id) session S.sessions S'.sessions
  sessionAgent : session.agentInternalId = agent.internalId
  bound : ∀ w ∈ S.sessionWorkspaces session.internalId, w = workspace.internalId
  fresh : ∀ r ∈ S.runs, r.id ≠ id
  runs : S'.runs = S.runs ++ [newRun now id fingerprint request agent workspace session]
  events : S'.events = S.events ++ [acceptedEvent now id]
  messages : ∃ m : MessageRow, m.runId = some id ∧ m.sessionInternalId = session.internalId ∧
    S'.messages = S.messages ++ [m]
  connections : S'.connections = S.connections
  approvals : S'.approvals = S.approvals

theorem createRun_admitted {now : ℤ} {fresh : FreshInternalIds} {id fingerprint : JsString}
    {request : InternalStartRunRequest} {S S' : Store} {row : RunRow}
    (h : (createRun now fresh id fingerprint request).run S = (.ok row, S')) :
    ∃ agent workspace session, row = newRun now id fingerprint request agent workspace session ∧
      Admitted now id fingerprint request agent workspace session S S' := by
  rw [createRun, bind_eq_ok_iff] at h
  obtain ⟨_, S₁, hconnection, h⟩ := h
  obtain rfl := requireReadyConnection_eq_ok hconnection
  rw [bind_eq_ok_iff] at h
  obtain ⟨_, S₂, hparent, h⟩ := h
  obtain ⟨rfl, hsound⟩ := requireParent_eq_ok hparent
  rw [bind_eq_ok_iff] at h
  obtain ⟨agent, S₃, hagent, h⟩ := h
  obtain ⟨agents, rfl, hagents⟩ := ensureAgent_ensured hagent
  rw [bind_eq_ok_iff] at h
  obtain ⟨workspace, S₄, hworkspace, h⟩ := h
  obtain ⟨workspaces, rfl, hworkspaces⟩ := ensureWorkspace_ensured hworkspace
  rw [bind_eq_ok_iff] at h
  obtain ⟨session, S₅, hsession, h⟩ := h
  obtain ⟨sessions, rfl, hsessionAgent, hsessions⟩ := ensureSession_ensured hsession
  rw [bind_eq_ok_iff] at h
  obtain ⟨_, S₆, hbound, h⟩ := h
  rw [requireSessionWorkspace, run_get_bind, require_eq_ok_iff] at hbound
  obtain ⟨hbound, rfl⟩ := hbound
  rw [bind_eq_ok_iff] at h
  obtain ⟨_, S₇, hrun, h⟩ := h
  obtain ⟨hfresh, -, rfl⟩ := insertRun_eq_ok_iff.mp hrun
  rw [bind_eq_ok_iff] at h
  obtain ⟨_, S₈, hevent, h⟩ := h
  obtain ⟨-, rfl⟩ := insertEvent_eq_ok_iff.mp hevent
  rw [run_get_bind, bind_eq_ok_iff] at h
  obtain ⟨_, S₉, hmessage, h⟩ := h
  obtain ⟨-, rfl⟩ := insertMessage_eq_ok_iff.mp hmessage
  obtain ⟨rfl, rfl⟩ := pure_eq_ok_iff.mp h
  exact ⟨agent, workspace, session, rfl, hsound, hagents, hworkspaces, hsessions, hsessionAgent,
    hbound, hfresh, rfl, rfl, ⟨_, rfl, rfl, rfl⟩, rfl, rfl⟩

/-- **The three outcomes of a call that returns or is refused for its key.** The caller's run is
returned, the key is refused, or the creation decides. -/
theorem createOrGetRun_cases (P : Platform) (now : ℤ) (fresh : FreshInternalIds) (id : JsString)
    (request : InternalStartRunRequest) (S : Store) :
    match S.existingRun request.principal
        (scopedIdempotencyKey request.principal.userId request.idempotencyKey) with
    | some existing =>
      (createOrGetRun P now fresh id request).run S =
        if existing.requestFingerprint = P.requestFingerprint request then
          (.ok (toRunRecord existing, false), S)
        else (.error (.new (js "Idempotency key was reused with a different run request")), S)
    | none =>
      (createOrGetRun P now fresh id request).run S =
        (transaction do
          let row ← createRun now fresh id (P.requestFingerprint request) request
          pure (toRunRecord row, true)).run S := by
  cases hexisting : S.existingRun request.principal
      (scopedIdempotencyKey request.principal.userId request.idempotencyKey) with
  | some existing =>
    simp only [createOrGetRun, run_transaction_get_bind, hexisting]
    split_ifs with hfingerprint
    · exact transaction_of_ok (require_bind_eq_ok_iff.mpr ⟨hfingerprint, rfl⟩)
    · refine transaction_of_error (t := S) ?_
      rw [require, if_neg hfingerprint]
      rfl
  | none => simp only [createOrGetRun, run_transaction_get_bind, hexisting]

end Store

/-! ## Operations -/

/-- What an operation does to the tables that refer to one another. -/
inductive StoreOp.Registers (P : Platform) (S : Store) : StoreOp → Store → Prop
  | quiet {op S'} (hruns : S'.runs.map RunRow.registration = S.runs.map RunRow.registration)
      (hmessages : S'.messages = S.messages) (hagents : S'.agents = S.agents)
      (hworkspaces : S'.workspaces = S.workspaces) (hsessions : S'.sessions = S.sessions) :
      Registers P S op S'
  | created {now fresh id request agent workspace session S'}
      (h : Store.Admitted now id (P.requestFingerprint request) request agent workspace session
        S S') :
      Registers P S (.createOrGetRun now fresh id request) S'
  | message {createdAt run message} {params : Store.AppendSessionMessage}
      (hrun : S.run? params.runId = some run) (hid : message.runId = some params.runId)
      (hsession : run.sessionInternalId = some message.sessionInternalId) :
      Registers P S (.appendSessionMessage createdAt params)
        { S with messages := S.messages ++ [message] }
  | agentCreated {internalId record} {agent : AgentRow} (howner : agent.owner = record.owner)
      (hfresh : ∀ a ∈ S.agents, a.internalId ≠ agent.internalId)
      (hkey : S.agent? agent.owner agent.id = none) :
      Registers P S (.createAgentProfile internalId record)
        { S with agents := S.agents ++ [agent] }
  | agentDeleted {id owner agent} (hagent : S.agent? owner id = some agent)
      (hruns : ∀ r ∈ S.runs, r.agentInternalId ≠ some agent.internalId)
      (hsessions : ∀ s ∈ S.sessions, s.agentInternalId ≠ agent.internalId) :
      Registers P S (.deleteAgentProfile id owner)
        { S with agents := S.agents.filter fun a ↦ ¬(a.owner = owner ∧ a.id = id) }
  | workspaceCreated {internalId record} {workspace : WorkspaceRow}
      (howner : workspace.owner = record.owner)
      (hfresh : ∀ w ∈ S.workspaces, w.internalId ≠ workspace.internalId) :
      Registers P S (.createWorkspace internalId record)
        { S with workspaces := S.workspaces ++ [workspace] }
  | workspaceUpdated {updatedAt id owner expected state} :
      Registers P S (.updateWorkspaceState updatedAt id owner expected state)
        { S with
          workspaces := Table.update (fun w ↦ w.owner = owner ∧ w.id = id)
            (fun w ↦ { w with state, updatedAt }) S.workspaces }

open Store in
/-- A message that is appended belongs to its run and to the run's session. -/
theorem Store.appendSessionMessage_registers {createdAt : ℤ} {params : AppendSessionMessage}
    {S S' : Store} {message : MessageRow}
    (h : (appendSessionMessage createdAt params).run S = (.ok message, S')) :
    ∃ run, S.run? params.runId = some run ∧ message.runId = some params.runId ∧
      run.sessionInternalId = some message.sessionInternalId ∧
      S' = { S with messages := S.messages ++ [message] } := by
  rw [appendSessionMessage, transaction_eq_ok_iff, run_get_bind] at h
  dsimp only at h
  cases hrun : S.run? params.runId with
  | none =>
    rw [hrun] at h
    exact absurd h not_throw_eq_ok
  | some run =>
    rw [hrun] at h
    dsimp only at h
    cases hsession : truthy run.sessionInternalId with
    | none =>
      rw [hsession] at h
      exact absurd h not_throw_eq_ok
    | some sessionInternalId =>
      rw [hsession] at h
      rw [require_bind_eq_ok_iff, require_bind_eq_ok_iff, bind_eq_ok_iff] at h
      obtain ⟨-, -, _, _, hinsert, hpure⟩ := h
      obtain ⟨-, rfl⟩ := insertMessage_eq_ok_iff.mp hinsert
      obtain ⟨rfl, rfl⟩ := pure_eq_ok_iff.mp hpure
      exact ⟨run, rfl, rfl, eq_some_of_truthy hsession, rfl⟩

/-- The operations that write to the tables runs refer to, or to the messages. -/
def StoreOp.IsRegistration : StoreOp → Prop
  | createOrGetRun .. | appendSessionMessage .. => True
  | op => op.IsConfiguration

/-- The other operations keep the registration of every run. -/
theorem StoreOp.Change.quiet {P : Platform} {op : StoreOp} {S S' : Store} (h : op.Change S S') :
    op.IsRegistration ∨ op.Registers P S S' := by
  have hregistration : ∀ {id : JsString} {f : RunRow → RunRow},
      (∀ r, (f r).registration = r.registration) →
      (Table.update (fun row ↦ row.id = id) f S.runs).map RunRow.registration
        = S.runs.map RunRow.registration := fun hf ↦ Table.map_update hf S.runs
  cases h with
  | created => exact Or.inl trivial
  | message => exact Or.inl trivial
  | configured hconfig =>
    refine Or.inl ?_
    unfold StoreOp.IsRegistration
    split
    · exact trivial
    · exact trivial
    · exact hconfig
  | appended => exact Or.inr (.quiet (hregistration fun _ ↦ rfl) rfl rfl rfl rfl)
  | usage => exact Or.inr (.quiet (hregistration fun _ ↦ rfl) rfl rfl rfl rfl)
  | approvalRecorded => exact Or.inr (.quiet (hregistration fun _ ↦ rfl) rfl rfl rfl rfl)
  | acquired hacquired =>
    rw [hacquired.store]
    exact Or.inr (.quiet rfl rfl rfl rfl rfl)
  | _ => exact Or.inr (.quiet rfl rfl rfl rfl rfl)

open Store in
/-- **Every operation leaves the store alone or registers what it says.** -/
theorem StoreOp.registers (P : Platform) (op : StoreOp) (S : Store) :
    op.apply P S = S ∨ op.Registers P S (op.apply P S) := by
  rcases hrun : (op.call P).run S with ⟨e | u, S'⟩
  · rw [StoreOp.apply, hrun]
    exact Or.inl (op.call_atomic P S e S' hrun)
  rw [StoreOp.apply, hrun]
  cases op with
  | createOrGetRun now fresh id request =>
    obtain ⟨⟨run, created⟩, hcall⟩ := discard_eq_ok hrun
    have hcases := createOrGetRun_cases P now fresh id request S
    split at hcases
    · split_ifs at hcases
      · exact Or.inl (congrArg Prod.snd (hcall.symm.trans hcases))
      · exact absurd (hcall.symm.trans hcases) (by simp)
    · rw [hcases, transaction_eq_ok_iff] at hcall
      obtain ⟨row, _, hrow, hpure⟩ := bind_eq_ok_iff.mp hcall
      obtain ⟨-, rfl⟩ := pure_eq_ok_iff.mp hpure
      obtain ⟨_, _, _, -, hadmitted⟩ := createRun_admitted hrow
      exact Or.inr (.created hadmitted)
  | appendSessionMessage createdAt params =>
    obtain ⟨message, hcall⟩ := discard_eq_ok hrun
    obtain ⟨run, hfound, hid, hsession, rfl⟩ := appendSessionMessage_registers hcall
    exact Or.inr (.message hfound hid hsession)
  | createAgentProfile internalId record =>
    obtain ⟨_, hcall⟩ := discard_eq_ok hrun
    rw [Store.createAgentProfile, bind_eq_ok_iff] at hcall
    obtain ⟨_, _, hinsert, hget⟩ := hcall
    obtain ⟨hfresh, hkey, rfl⟩ := insertAgent_eq_ok_iff.mp hinsert
    rw [run_get_bind, pure_eq_ok_iff] at hget
    obtain ⟨-, rfl⟩ := hget
    exact Or.inr (.agentCreated rfl hfresh hkey)
  | deleteAgentProfile id owner =>
    obtain ⟨_, hcall⟩ := discard_eq_ok hrun
    rw [Store.deleteAgentProfile, run_get_bind] at hcall
    split at hcall
    · exact Or.inl (pure_eq_ok_iff.mp hcall).2
    · rename_i agent hagent
      split_ifs at hcall with hused
      · exact Or.inl (pure_eq_ok_iff.mp hcall).2
      · rw [run_modify_bind, pure_eq_ok_iff] at hcall
        obtain ⟨-, rfl⟩ := hcall
        obtain ⟨hruns, hsessions⟩ := not_or.mp hused
        exact Or.inr (.agentDeleted hagent (fun r hr heq ↦ hruns ⟨r, hr, heq⟩)
          fun s hs heq ↦ hsessions ⟨s, hs, heq⟩)
  | createWorkspace internalId record =>
    obtain ⟨hfresh, -, rfl⟩ := insertWorkspace_eq_ok_iff.mp hrun
    exact Or.inr (.workspaceCreated rfl hfresh)
  | updateWorkspaceState updatedAt id owner expected state =>
    obtain ⟨_, hcall⟩ := discard_eq_ok hrun
    rw [Store.updateWorkspaceState, run_get_bind] at hcall
    split at hcall
    · exact Or.inl (pure_eq_ok_iff.mp hcall).2
    · split_ifs at hcall
      · rw [run_modify_bind, pure_eq_ok_iff] at hcall
        obtain ⟨-, rfl⟩ := hcall
        exact Or.inr .workspaceUpdated
      · exact Or.inl (pure_eq_ok_iff.mp hcall).2
  | createProviderConnection internalId record =>
    simp only [StoreOp.call, Store.createProviderConnection, run_get_bind, require_bind_eq_ok_iff,
      modify_eq_ok_iff] at hrun
    obtain ⟨-, -, -, rfl⟩ := hrun
    exact Or.inr (.quiet rfl rfl rfl rfl rfl)
  | updateProviderConnection updatedAt id owner status lastErrorCode =>
    obtain rfl := modify_eq_ok_iff.mp hrun
    exact Or.inr (.quiet rfl rfl rfl rfl rfl)
  | deleteProviderConnection id owner =>
    obtain rfl := modify_eq_ok_iff.mp hrun
    exact Or.inr (.quiet rfl rfl rfl rfl rfl)
  | _ =>
    rcases StoreOp.call_eq_ok hrun with hsame | hchange
    · exact Or.inl hsame
    · exact Or.inr (hchange.quiet.resolve_left id)

end LiteHarness
