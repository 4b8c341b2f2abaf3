import LiteHarness.Foundation.Forest
import LiteHarness.Storage.Registry
import LiteHarness.Storage.Tree

/-!
# The references of a run hold

Every run of a reachable store refers to an agent, a workspace and a session of its own owner, and
so does its parent; a session keeps its agent and its workspace; messages belong to runs of their
session. The invariant speaks of registrations, so that what only moves statuses and totals leaves
it alone.
-/

namespace LiteHarness

open Foundation Foundation.Forest

namespace Store

/-- The unchanging columns of the runs. -/
def registrations (S : Store) : List RunRow.Registration := S.runs.map RunRow.registration

/-- The run's agent, workspace and session are rows of its owner, with the public ids the run
names, and the session is the agent's. -/
def RefersTo (S : Store) (run : RunRow.Registration) : Prop :=
  ∃ a ∈ S.agents, ∃ w ∈ S.workspaces, ∃ s ∈ S.sessions,
    a.key = (run.owner, run.agentId) ∧ w.key = (run.owner, run.workspaceId) ∧
    s.owner = run.owner ∧ run.sessionId = some s.id ∧ run.agentInternalId = some a.internalId ∧
    run.workspaceInternalId = some w.internalId ∧ run.sessionInternalId = some s.internalId ∧
    s.agentInternalId = a.internalId

/-- The run is a root, or one level below a run of its owner. -/
def HangsBelow (runs : List RunRow.Registration) (run : RunRow.Registration) : Prop :=
  match truthy run.parentRunId with
  | some p => ∃ parent ∈ runs, parent.id = p ∧ parent.owner = run.owner ∧
      run.depth = parent.depth + 1
  | none => run.depth = 0

theorem HangsBelow.mono {runs runs' : List RunRow.Registration} (h : runs ⊆ runs')
    {run : RunRow.Registration} (hrun : HangsBelow runs run) : HangsBelow runs' run := by
  unfold HangsBelow at hrun ⊢
  split
  · rename_i p hp
    rw [hp] at hrun
    obtain ⟨parent, hmem, hparent⟩ := hrun
    exact ⟨parent, h hmem, hparent⟩
  · rename_i hp
    rw [hp] at hrun
    exact hrun

/-- The references of the store hold. -/
structure Linked (S : Store) : Prop where
  runIds : (S.registrations.map RunRow.Registration.id).Nodup
  agentKeys : (S.agents.map AgentRow.key).Nodup
  agentIds : (S.agents.map AgentRow.internalId).Nodup
  workspaceIds : (S.workspaces.map WorkspaceRow.internalId).Nodup
  sessionIds : (S.sessions.map SessionRow.internalId).Nodup
  refers : ∀ run ∈ S.registrations, S.RefersTo run
  bound : ∀ run ∈ S.registrations, ∀ run' ∈ S.registrations,
    run.sessionInternalId = run'.sessionInternalId →
      run.workspaceInternalId = run'.workspaceInternalId
  hangs : ∀ run ∈ S.registrations, HangsBelow S.registrations run
  messages : ∀ m ∈ S.messages, ∃ run ∈ S.registrations, m.runId = some run.id ∧
    run.sessionInternalId = some m.sessionInternalId

theorem Linked.empty : Linked {} := by
  constructor <;> simp [registrations]

/-- References survive where rows do. -/
theorem RefersTo.mono {S S' : Store} (hagents : S.agents ⊆ S'.agents)
    (hworkspaces : S.workspaces ⊆ S'.workspaces) (hsessions : S.sessions ⊆ S'.sessions)
    {run : RunRow.Registration} (h : S.RefersTo run) : S'.RefersTo run := by
  obtain ⟨a, ha, w, hw, s, hs, hrefers⟩ := h
  exact ⟨a, hagents ha, w, hworkspaces hw, s, hsessions hs, hrefers⟩

/-! ## Creations -/

/-- The registration of a new run. -/
theorem registration_newRun (now : ℤ) (id fingerprint : JsString)
    (request : InternalStartRunRequest) (agent : AgentRow) (workspace : WorkspaceRow)
    (session : SessionRow) :
    (newRun now id fingerprint request agent workspace session).registration =
      { id, requestFingerprint := fingerprint
        idempotencyKey := scopedIdempotencyKey request.principal.userId request.idempotencyKey
        owner := request.principal, agentId := request.agent, workspaceId := request.workspace
        sessionId := some (request.sessionOf id), agentInternalId := some agent.internalId
        workspaceInternalId := some workspace.internalId
        sessionInternalId := some session.internalId, parentRunId := request.parentRunId
        depth := request.depth.getD 0 } := rfl

section Admitted

variable {now : ℤ} {id fingerprint : JsString} {request : InternalStartRunRequest}
  {agent : AgentRow} {workspace : WorkspaceRow} {session : SessionRow} {S S' : Store}

theorem Admitted.registrations (h : Admitted now id fingerprint request agent workspace session S S') :
    S'.registrations = S.registrations ++
      [(newRun now id fingerprint request agent workspace session).registration] := by
  rw [Store.registrations, h.runs, List.map_append]
  rfl

/-- The new run refers to the rows it found or inserted. -/
theorem Admitted.refers (h : Admitted now id fingerprint request agent workspace session S S') :
    S'.RefersTo (newRun now id fingerprint request agent workspace session).registration := by
  have hsession := Prod.mk.inj h.sessions.key_eq
  refine ⟨agent, h.agents.mem, workspace, h.workspaces.mem, session, h.sessions.mem,
    h.agents.key_eq, h.workspaces.key_eq, hsession.1, ?_, rfl, rfl, rfl, h.sessionAgent⟩
  rw [hsession.2]
  rfl

/-- The new run is in the workspace the session's runs are in. -/
theorem Admitted.sameWorkspace
    (h : Admitted now id fingerprint request agent workspace session S S') (hS : S.Linked)
    {run : RunRow.Registration} (hrun : run ∈ S.registrations)
    (hsession : run.sessionInternalId = some session.internalId) :
    run.workspaceInternalId = some workspace.internalId := by
  obtain ⟨_, _, w, _, _, _, -, -, -, -, -, hw, -⟩ := hS.refers run hrun
  obtain ⟨row, hrow, rfl⟩ := List.mem_map.mp hrun
  have hmem : w.internalId ∈ S.sessionWorkspaces session.internalId :=
    List.mem_filterMap.mpr ⟨row, List.mem_filter.mpr ⟨hrow, decide_eq_true hsession⟩, hw⟩
  rw [hw, h.bound _ hmem]

theorem Admitted.hangs (h : Admitted now id fingerprint request agent workspace session S S') :
    HangsBelow S.registrations
      (newRun now id fingerprint request agent workspace session).registration := by
  have hparent := h.parent
  unfold ParentSound at hparent
  rw [HangsBelow, registration_newRun]
  dsimp only
  generalize truthy request.parentRunId = parentRunId at hparent ⊢
  cases parentRunId with
  | some p =>
    obtain ⟨parent, hfound, howner, hdepth⟩ := hparent
    obtain ⟨hmem, hid⟩ := run?_mem hfound
    refine ⟨parent.registration, List.mem_map_of_mem hmem, hid, howner, ?_⟩
    rw [hdepth]
    rfl
  | none => exact hparent

/-- A creation keeps the references. -/
theorem Linked.admitted (hS : S.Linked)
    (h : Admitted now id fingerprint request agent workspace session S S') : S'.Linked := by
  have hruns := h.registrations
  have hkept : S.registrations ⊆ S'.registrations := hruns ▸ List.subset_append_left _ _
  have hnew : ∀ {run}, run ∈ S'.registrations → run ∈ S.registrations ∨
      run = (newRun now id fingerprint request agent workspace session).registration := by
    intro run hrun
    rw [hruns] at hrun
    exact (List.mem_append.mp hrun).imp_right List.mem_singleton.mp
  refine ⟨?_, ?_, h.agents.nodup_ident hS.agentIds, h.workspaces.nodup_ident hS.workspaceIds,
    h.sessions.nodup_ident hS.sessionIds, ?_, ?_, ?_, ?_⟩
  · rw [hruns, List.map_append, List.nodup_append]
    refine ⟨hS.runIds, List.nodup_singleton _, ?_⟩
    rintro k hk _ hk' rfl
    obtain ⟨run, hrun, rfl⟩ := List.mem_map.mp hk
    obtain ⟨row, hrow, rfl⟩ := List.mem_map.mp hrun
    exact h.fresh row hrow (List.mem_singleton.mp hk')
  · exact h.agents.nodup_key hS.agentKeys
  · intro run hrun
    rcases hnew hrun with hrun | rfl
    · exact (hS.refers run hrun).mono (fun _ ↦ h.agents.keeps) (fun _ ↦ h.workspaces.keeps)
        fun _ ↦ h.sessions.keeps
    · exact h.refers
  · intro run hrun run' hrun' heq
    rcases hnew hrun with hrun | rfl <;> rcases hnew hrun' with hrun' | rfl
    · exact hS.bound run hrun run' hrun' heq
    · exact h.sameWorkspace hS hrun heq
    · exact (h.sameWorkspace hS hrun' heq.symm).symm
    · rfl
  · intro run hrun
    rcases hnew hrun with hrun | rfl
    · exact (hS.hangs run hrun).mono hkept
    · exact h.hangs.mono hkept
  · obtain ⟨message, hid, hsession, hmessages⟩ := h.messages
    intro m hm
    rw [hmessages] at hm
    rcases List.mem_append.mp hm with hm | hm
    · obtain ⟨run, hrun, hbelongs⟩ := hS.messages m hm
      exact ⟨run, hkept hrun, hbelongs⟩
    · obtain rfl := List.mem_singleton.mp hm
      refine ⟨_, hruns ▸ List.mem_append_right _ (List.mem_singleton.mpr rfl), hid, ?_⟩
      rw [hsession]
      rfl

end Admitted

/-! ## Every operation -/

/-- **Every operation keeps the references.** -/
theorem Linked.apply {P : Platform} {S : Store} (h : S.Linked) (op : StoreOp) :
    (op.apply P S).Linked := by
  rcases op.registers P S with heq | hregisters
  · rw [heq]
    exact h
  generalize op.apply P S = S' at hregisters
  cases hregisters with
  | quiet hruns hmessages hagents hworkspaces hsessions =>
    have hregistrations : S'.registrations = S.registrations := hruns
    obtain ⟨h₁, h₂, h₃, h₄, h₅, h₆, h₇, h₈, h₉⟩ := h
    constructor <;>
      simp only [RefersTo, hregistrations, hmessages, hagents, hworkspaces, hsessions] <;>
      assumption
  | created hadmitted => exact h.admitted hadmitted
  | @message _ run _ params hrun hid hsession =>
    refine ⟨h.runIds, h.agentKeys, h.agentIds, h.workspaceIds, h.sessionIds, h.refers, h.bound,
      h.hangs, fun m hm ↦ ?_⟩
    rcases List.mem_append.mp hm with hm | hm
    · exact h.messages m hm
    · obtain rfl := List.mem_singleton.mp hm
      obtain ⟨hmem, hrunId⟩ := run?_mem hrun
      refine ⟨run.registration, List.mem_map_of_mem hmem, ?_, hsession⟩
      rw [hid, ← hrunId]
      rfl
  | agentCreated _ hfresh hkey =>
    have hinserted : Table.Ensured AgentRow.key AgentRow.internalId _ _ _ _ :=
      .inserted hkey rfl hfresh
    refine ⟨h.runIds, hinserted.nodup_key h.agentKeys, hinserted.nodup_ident h.agentIds,
      h.workspaceIds, h.sessionIds, fun run hrun ↦ ?_, h.bound, h.hangs, h.messages⟩
    refine (h.refers run hrun).mono ?_ ?_ ?_
    · exact fun _ ↦ hinserted.keeps
    · exact List.Subset.refl _
    · exact List.Subset.refl _
  | @agentDeleted id owner agent hagent hruns hsessions =>
    refine ⟨h.runIds, h.agentKeys.sublist (List.filter_sublist.map _),
      h.agentIds.sublist (List.filter_sublist.map _), h.workspaceIds, h.sessionIds,
      fun run hrun ↦ ?_, h.bound, h.hangs, h.messages⟩
    -- the agent of a run is not the one deleted
    obtain ⟨a, ha, w, hw, s, hs, hkey, hwkey, howner, hsession, hagentId, hrest⟩ := h.refers run hrun
    refine ⟨a, List.mem_filter.mpr ⟨ha, decide_eq_true fun hdeleted ↦ ?_⟩, w, hw, s, hs, hkey, hwkey,
      howner, hsession, hagentId, hrest⟩
    have hsame : a = agent := List.inj_on_of_nodup_map h.agentKeys ha (Table.mem_of_lookup hagent)
      ((Prod.ext hdeleted.1 hdeleted.2).trans (Table.key_of_lookup hagent).symm)
    obtain ⟨row, hrow, rfl⟩ := List.mem_map.mp hrun
    exact hruns row hrow (hsame ▸ hagentId)
  | workspaceCreated _ hfresh =>
    refine ⟨h.runIds, h.agentKeys, h.agentIds, ?_, h.sessionIds, fun run hrun ↦ ?_, h.bound,
      h.hangs, h.messages⟩
    · exact Table.nodup_append_fresh h.workspaceIds hfresh
    · refine (h.refers run hrun).mono ?_ ?_ ?_
      · exact List.Subset.refl _
      · exact List.subset_append_left _ _
      · exact List.Subset.refl _
  | @workspaceUpdated updatedAt id owner _ state =>
    refine ⟨h.runIds, h.agentKeys, h.agentIds, ?_, h.sessionIds, fun run hrun ↦ ?_, h.bound,
      h.hangs, h.messages⟩
    · refine (congrArg List.Nodup ?_).mpr h.workspaceIds
      exact Table.map_update (g := WorkspaceRow.internalId)
        (f := fun w ↦ { w with state, updatedAt }) (fun _ ↦ rfl) S.workspaces
    · obtain ⟨a, ha, w, hw, s, hs, hkey, hwkey, howner, hsession, hagentId, hwId, hrest⟩ :=
        h.refers run hrun
      obtain ⟨w', hw', hkey', hid'⟩ : ∃ w' ∈ Table.update (fun w ↦ w.owner = owner ∧ w.id = id)
          (fun w ↦ { w with state, updatedAt }) S.workspaces,
          w'.key = w.key ∧ w'.internalId = w.internalId := by
        refine ⟨_, List.mem_map_of_mem hw, ?_⟩
        split_ifs <;> exact ⟨rfl, rfl⟩
      exact ⟨a, ha, w', hw', s, hs, hkey, hkey'.trans hwkey, howner, hsession, hagentId,
        hid'.symm ▸ hwId, hrest⟩

theorem after_linked (P : Platform) (history : List StoreOp) : (Store.after P {} history).Linked :=
  after_induction (p := Linked) (fun _ op h ↦ h.apply op) .empty history

/-! ## The claims of the tables -/

theorem mem_registrations {S : Store} {row : RunRow} (h : row ∈ S.runs) :
    row.registration ∈ S.registrations := List.mem_map_of_mem h

/-- Runs of one session have one agent. -/
theorem Linked.sameAgent {S : Store} (h : S.Linked) {run run' : RunRow.Registration}
    (hrun : run ∈ S.registrations) (hrun' : run' ∈ S.registrations)
    (hsession : run.sessionInternalId = run'.sessionInternalId) :
    run.agentInternalId = run'.agentInternalId := by
  obtain ⟨a, _, _, _, s, hs, -, -, -, -, ha, -, hid, hsa⟩ := h.refers run hrun
  obtain ⟨a', _, _, _, s', hs', -, -, -, -, ha', -, hid', hsa'⟩ := h.refers run' hrun'
  have hids : s.internalId = s'.internalId := Option.some.inj (hid ▸ hid' ▸ hsession)
  obtain rfl : s = s' := List.inj_on_of_nodup_map h.sessionIds hs hs' hids
  rw [ha, ha', ← hsa, ← hsa']

/-- A parent link leads to a run of the same owner, one level up. -/
theorem Linked.parent {S : Store} (h : S.Linked) {row : RunRow} (hrow : row ∈ S.runs)
    {p : JsString} (hp : truthy row.parentRunId = some p) :
    ∃ parent ∈ S.runs, parent.id = p ∧ parent.owner = row.owner ∧
      row.depth = parent.depth + 1 := by
  have hhangs := h.hangs _ (mem_registrations hrow)
  rw [HangsBelow, show row.registration.parentRunId = row.parentRunId from rfl, hp] at hhangs
  obtain ⟨_, hmem, hparent⟩ := hhangs
  obtain ⟨parent, hrun, rfl⟩ := List.mem_map.mp hmem
  exact ⟨parent, hrun, hparent⟩

/-- The runs form a forest. -/
theorem Linked.levelled {S : Store} (h : S.Linked) : Levelled S.parentOf S.depthOf := by
  intro c p hparent
  obtain ⟨row, hrow, hp⟩ := parentOf_eq_some hparent
  obtain ⟨parent, hmem, rfl, -, hdepth⟩ := h.parent (run?_mem hrow).1 hp
  have hids : (S.runs.map RunRow.id).Nodup := by
    have hmap : S.registrations.map RunRow.Registration.id = S.runs.map RunRow.id :=
      List.map_map
    exact hmap ▸ h.runIds
  rw [depthOf, hrow, depthOf, run?_of_mem hids hmem]
  exact hdepth

/-- **The references of every reachable store.** A run refers to an agent, a workspace, a session
and, where it has one, a parent of its own owner; the runs of a session share agent and workspace;
a child is one level below its parent, and no run is its own ancestor; every message belongs to a
run of its session. -/
theorem references_hold (P : Platform) (history : List StoreOp) :
    let S := Store.after P {} history
    (∀ row ∈ S.runs,
      (∃ a ∈ S.agents, row.agentInternalId = some a.internalId ∧ a.owner = row.owner ∧
        a.id = row.agentId) ∧
      (∃ w ∈ S.workspaces, row.workspaceInternalId = some w.internalId ∧ w.owner = row.owner ∧
        w.id = row.workspaceId) ∧
      (∃ s ∈ S.sessions, row.sessionInternalId = some s.internalId ∧ s.owner = row.owner ∧
        row.sessionId = some s.id) ∧
      ∀ p ∈ truthy row.parentRunId, ∃ parent ∈ S.runs, parent.id = p ∧
        parent.owner = row.owner ∧ row.depth = parent.depth + 1) ∧
    (∀ row ∈ S.runs, ∀ row' ∈ S.runs, row.sessionInternalId = row'.sessionInternalId →
      row.agentInternalId = row'.agentInternalId ∧
        row.workspaceInternalId = row'.workspaceInternalId) ∧
    (∀ run, ¬Relation.TransGen (fun p c ↦ S.parentOf c = some p) run run) ∧
    ∀ m ∈ S.messages, ∃ row ∈ S.runs, m.runId = some row.id ∧
      row.sessionInternalId = some m.sessionInternalId := by
  intro S
  have h : S.Linked := after_linked P history
  refine ⟨fun row hrow ↦ ⟨?_, ?_, ?_, fun p hp ↦ h.parent hrow hp⟩, ?_,
    fun run ↦ acyclic h.levelled, fun m hm ↦ ?_⟩
  · obtain ⟨a, ha, _, _, _, _, hkey, -, -, -, hid, -⟩ := h.refers _ (mem_registrations hrow)
    exact ⟨a, ha, hid, Prod.mk.inj hkey⟩
  · obtain ⟨_, _, w, hw, _, _, -, hkey, -, -, -, hid, -⟩ := h.refers _ (mem_registrations hrow)
    exact ⟨w, hw, hid, Prod.mk.inj hkey⟩
  · obtain ⟨_, _, _, _, s, hs, -, -, howner, hsession, -, -, hid, -⟩ :=
      h.refers _ (mem_registrations hrow)
    exact ⟨s, hs, hid, howner, hsession⟩
  · intro row hrow row' hrow' hsession
    exact ⟨h.sameAgent (mem_registrations hrow) (mem_registrations hrow') hsession,
      h.bound _ (mem_registrations hrow) _ (mem_registrations hrow') hsession⟩
  · obtain ⟨run, hrun, hid, hsession⟩ := h.messages m hm
    obtain ⟨row, hrow, rfl⟩ := List.mem_map.mp hrun
    exact ⟨row, hrow, hid, hsession⟩

end Store

end LiteHarness
