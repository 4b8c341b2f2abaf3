import LiteHarness.Storage.MigratedKeys

/-!
# Owner-scoped identities after an upgrade

Migration 7 gives every agent, workspace and session an internal id and lets runs, messages and
leases refer to it. Where a run names an agent, a workspace or a session without a row, one is
invented. What the rebuilt tables hold is described join by join; put together, the migration
carries everything over exactly for the databases that `Unambiguous` describes.
-/

namespace LiteHarness

open Foundation Foundation.Eff

theorem insertSelect_eq_some {ρ ι κ : Type} [DecidableEq ι] [DecidableEq κ] {ident : ρ → ι}
    {key : ρ → κ} {rows selected out : List ρ} :
    insertSelect ident key rows selected = some out ↔
      out = rows ++ selected ∧ (out.map ident).Nodup ∧ (out.map key).Nodup := by
  rw [insertSelect]
  constructor
  · intro h
    split_ifs at h with hnodup
    obtain rfl := Option.some.inj h
    exact ⟨rfl, hnodup⟩
  · rintro ⟨rfl, hnodup⟩
    rw [if_pos hnodup]

theorem minText_mem {texts : List JsString} {m : JsString} (h : minText texts = some m) :
    m ∈ texts := List.argmin_mem h

theorem minText_isSome {texts : List JsString} {t : JsString} (h : t ∈ texts) :
    ∃ m, minText texts = some m := by
  cases hmin : minText texts with
  | none =>
    rw [List.argmin_eq_none.mp hmin] at h
    exact absurd h List.not_mem_nil
  | some m => exact ⟨m, rfl⟩

/-- Numbering rows leaves a column alone that does not depend on the number. -/
theorem map_mapIdx_eq {α β γ : Type} {f : ℕ → α → β} {g : β → γ} {k : α → γ}
    (h : ∀ i a, g (f i a) = k a) (l : List α) : (l.mapIdx f).map g = l.map k := by
  refine List.ext_getElem (by simp) fun i _ _ ↦ ?_
  simp [h]

/-- The keys of a table whose missing rows are invented from the rows that name them. -/
theorem exists_key_iff {ρ σ κ : Type} [DecidableEq κ] {key : ρ → κ} {named : σ → κ}
    {recorded invented : List ρ} {rows : List σ}
    (hinvented : invented.map key
      = ((rows.filter fun r ↦ ∀ a ∈ recorded, key a ≠ named r).map named).dedup) (k : κ) :
    (∃ a ∈ recorded ++ invented, key a = k) ↔
      (∃ a ∈ recorded, key a = k) ∨ ∃ r ∈ rows, named r = k := by
  have hmem : ∀ k, (∃ a ∈ invented, key a = k) ↔
      ∃ r ∈ rows, (∀ a ∈ recorded, key a ≠ named r) ∧ named r = k := by
    intro k
    rw [← List.mem_map, hinvented, List.mem_dedup, List.mem_map]
    simp [and_assoc]
  constructor
  · rintro ⟨a, ha, rfl⟩
    rcases List.mem_append.mp ha with ha | ha
    · exact Or.inl ⟨a, ha, rfl⟩
    · obtain ⟨r, hr, -, hkey⟩ := (hmem (key a)).mp ⟨a, ha, rfl⟩
      exact Or.inr ⟨r, hr, hkey⟩
  · rintro (⟨a, ha, rfl⟩ | ⟨r, hr, rfl⟩)
    · exact ⟨a, List.mem_append_left _ ha, rfl⟩
    · by_cases hhas : ∃ a ∈ recorded, key a = named r
      · obtain ⟨a, ha, hkey⟩ := hhas
        exact ⟨a, List.mem_append_left _ ha, hkey⟩
      · obtain ⟨a, ha, hkey⟩ := (hmem (named r)).mpr ⟨r, hr, fun a ha heq ↦ hhas ⟨a, ha, heq⟩, rfl⟩
        exact ⟨a, List.mem_append_right _ ha, hkey⟩

namespace LegacyTables

variable {draws : Draws} {T : LegacyTables} {agents : List AgentRow}
  {workspaces : List WorkspaceRow} {sessions : List SessionRow} {owner : ResourceOwner}
  {id : JsString}

/-! ## Agents and workspaces -/

/-- The owner has an agent of this name: a profile, or a run that names it. -/
def KnowsAgent (T : LegacyTables) (owner : ResourceOwner) (id : JsString) : Prop :=
  (∃ a ∈ T.agents, (a.owner, a.id) = (owner, id)) ∨
    ∃ r ∈ T.runs, (r.owner, r.agentId) = (owner, id)

/-- The owner has a workspace of this name. -/
def KnowsWorkspace (T : LegacyTables) (owner : ResourceOwner) (id : JsString) : Prop :=
  (∃ w ∈ T.workspaces, (w.owner, w.id) = (owner, id)) ∨
    ∃ r ∈ T.runs, (r.owner, r.workspaceId) = (owner, id)

/-- The rebuilt profiles have distinct ids, and they are those of the known agents. -/
theorem scopedAgents_spec (h : T.scopedAgents draws = some agents) :
    (agents.map AgentRow.internalId).Nodup ∧ (agents.map AgentRow.key).Nodup ∧
      ∀ owner id, (∃ a ∈ agents, a.key = (owner, id)) ↔ T.KnowsAgent owner id := by
  obtain ⟨recorded, hrecorded, h⟩ := Option.bind_eq_some_iff.mp h
  obtain ⟨rfl, -, -⟩ := insertSelect_eq_some.mp hrecorded
  obtain ⟨rfl, hids, hkeys⟩ := insertSelect_eq_some.mp h
  refine ⟨hids, hkeys, fun owner id ↦ ?_⟩
  have hinvented : (T.inventedAgents draws ([] ++ T.recordedAgents draws)).map AgentRow.key
      = ((T.runsWithoutAgent ([] ++ T.recordedAgents draws)).map
          fun r ↦ (r.owner, r.agentId)).dedup :=
    (map_mapIdx_eq (k := fun key ↦ key) (fun _ _ ↦ rfl) _).trans (List.map_id _)
  rw [exists_key_iff hinvented, List.nil_append, ← List.mem_map, recordedAgents,
    map_mapIdx_eq (k := fun a ↦ (a.owner, a.id)) (fun _ _ ↦ rfl), List.mem_map, KnowsAgent]

/-- The rebuilt workspaces, in the same way. -/
theorem scopedWorkspaces_spec (h : T.scopedWorkspaces draws = some workspaces) :
    (workspaces.map WorkspaceRow.internalId).Nodup ∧ (workspaces.map WorkspaceRow.key).Nodup ∧
      ∀ owner id, (∃ w ∈ workspaces, w.key = (owner, id)) ↔ T.KnowsWorkspace owner id := by
  obtain ⟨recorded, hrecorded, h⟩ := Option.bind_eq_some_iff.mp h
  obtain ⟨rfl, -, -⟩ := insertSelect_eq_some.mp hrecorded
  obtain ⟨rfl, hids, hkeys⟩ := insertSelect_eq_some.mp h
  refine ⟨hids, hkeys, fun owner id ↦ ?_⟩
  have hinvented : (T.inventedWorkspaces draws ([] ++ T.recordedWorkspaces draws)).map
        WorkspaceRow.key
      = ((T.runsWithoutWorkspace ([] ++ T.recordedWorkspaces draws)).map
          fun r ↦ (r.owner, r.workspaceId)).dedup :=
    (map_mapIdx_eq (k := fun key ↦ key) (fun _ _ ↦ rfl) _).trans (List.map_id _)
  rw [exists_key_iff hinvented, List.nil_append, ← List.mem_map, recordedWorkspaces,
    map_mapIdx_eq (k := fun w ↦ (w.owner, w.id)) (fun _ _ ↦ rfl), List.mem_map, KnowsWorkspace]

/-- The internal id migration 7 gives to an agent. -/
def internalAgentId (draws : Draws) (T : LegacyTables) (owner : ResourceOwner)
    (agentId : JsString) : Option JsString :=
  (T.scopedAgents draws).bind fun agents ↦
    (Table.lookup AgentRow.key (owner, agentId) agents).map AgentRow.internalId

/-! ## Sessions -/

/-- The runs of a session. -/
def runsOf (T : LegacyTables) (owner : ResourceOwner) (id : JsString) : List LegacyRun :=
  T.runs.filter fun r ↦ r.owner = owner ∧ r.sessionId = some id

/-- Of the agents the runs of a session name, the one with the least name has the least internal
id. -/
def LeastTogether (draws : Draws) (T : LegacyTables) (owner : ResourceOwner) (id : JsString) :
    Prop :=
  minText ((T.runsOf owner id).filterMap fun r ↦ T.internalAgentId draws owner r.agentId)
    = (minText ((T.runsOf owner id).map LegacyRun.agentId)).bind (T.internalAgentId draws owner)

/-- The recorded sessions are the old ones whose agent is known, each with that agent. -/
theorem mem_recordedSessions {s' : SessionRow} (h : s' ∈ T.recordedSessions draws agents) :
    ∃ s ∈ T.sessions, ∃ a ∈ agents, a.key = (s.owner, s.agentId) ∧ s'.id = s.id ∧
      s'.owner = s.owner ∧ s'.agentId = s.agentId ∧ s'.agentInternalId = a.internalId ∧
      s'.createdAt = s.createdAt ∧ s'.updatedAt = s.updatedAt := by
  obtain ⟨i, hi, rfl⟩ := List.mem_mapIdx.mp h
  obtain ⟨s, hs, hpair⟩ := List.mem_flatMap.mp (List.getElem_mem hi)
  obtain ⟨a, ha, heq⟩ := List.mem_map.mp hpair
  obtain ⟨ha, hkey⟩ := List.mem_filter.mp ha
  rw [← heq]
  exact ⟨s, hs, a, ha, of_decide_eq_true hkey, rfl, rfl, rfl, rfl, rfl, rfl⟩

theorem exists_recordedSession (draws : Draws) {s : LegacySession} (hs : s ∈ T.sessions) {a : AgentRow}
    (ha : a ∈ agents) (hkey : a.key = (s.owner, s.agentId)) :
    ∃ s' ∈ T.recordedSessions draws agents, s'.id = s.id ∧ s'.owner = s.owner ∧
      s'.agentId = s.agentId ∧ s'.createdAt = s.createdAt ∧ s'.updatedAt = s.updatedAt := by
  have hpair : (s, a) ∈ T.sessionsWithAgents agents :=
    List.mem_flatMap.mpr ⟨s, hs, List.mem_map.mpr ⟨a, List.mem_filter.mpr
      ⟨ha, decide_eq_true hkey⟩, rfl⟩⟩
  obtain ⟨i, hi, hget⟩ := List.getElem_of_mem hpair
  refine ⟨_, List.mem_mapIdx.mpr ⟨i, hi, rfl⟩, ?_⟩
  rw [hget]
  exact ⟨rfl, rfl, rfl, rfl, rfl⟩

/-- The rows a session is invented from: its runs, each with its agent. -/
theorem filter_runsWithoutSession (hkeys : (agents.map AgentRow.key).Nodup)
    (hfree : ∀ s ∈ sessions, s.key ≠ (owner, id)) :
    (T.runsWithoutSession agents sessions).filter (fun row ↦ (row.2.1.owner, row.1) = (owner, id))
      = (T.runsOf owner id).filterMap fun r ↦
          (Table.lookup AgentRow.key (owner, r.agentId) agents).map fun a ↦ (id, r, a) := by
  rw [runsWithoutSession, List.filter_flatMap, runsOf, List.filterMap_filter,
    List.filterMap_eq_flatMap_toList]
  refine List.flatMap_congr fun r _ ↦ ?_
  cases hsession : r.sessionId with
  | none => simp
  | some id' =>
    by_cases hsame : (r.owner, id') = (owner, id)
    · obtain ⟨rfl, rfl⟩ := Prod.mk.inj hsame
      have hjoin : (agents.filter fun a ↦ a.key = (r.owner, r.agentId))
          = (Table.lookup AgentRow.key (r.owner, r.agentId) agents).toList :=
        Table.filter_eq_lookup hkeys _
      dsimp only
      rw [if_pos hfree, hjoin]
      cases Table.lookup AgentRow.key (r.owner, r.agentId) agents <;> simp
    · have hother : ¬(r.owner = owner ∧ some id' = some id) := by
        rintro ⟨rfl, hid⟩
        exact hsame (by rw [Option.some.inj hid])
      dsimp only
      simp only [hother, decide_false, Bool.false_eq_true, if_false, Option.toList_none]
      refine List.filter_eq_nil_iff.mpr fun row hrow heq ↦ hsame ?_
      split_ifs at hrow
      · obtain ⟨a, -, rfl⟩ := List.mem_map.mp hrow
        exact of_decide_eq_true heq
      · exact absurd hrow List.not_mem_nil

theorem mem_runsWithoutSession {row : JsString × LegacyRun × AgentRow} :
    row ∈ T.runsWithoutSession agents sessions ↔ row.2.1 ∈ T.runs ∧
      row.2.1.sessionId = some row.1 ∧ (∀ s ∈ sessions, s.key ≠ (row.2.1.owner, row.1)) ∧
      row.2.2 ∈ agents ∧ row.2.2.key = (row.2.1.owner, row.2.1.agentId) := by
  rw [runsWithoutSession, List.mem_flatMap]
  constructor
  · rintro ⟨r, hr, hrow⟩
    cases hsession : r.sessionId with
    | none =>
      rw [hsession] at hrow
      exact absurd hrow List.not_mem_nil
    | some id' =>
      rw [hsession] at hrow
      dsimp only at hrow
      split_ifs at hrow with hfree
      · obtain ⟨a, ha, rfl⟩ := List.mem_map.mp hrow
        obtain ⟨ha, hkey⟩ := List.mem_filter.mp ha
        exact ⟨hr, hsession, hfree, ha, of_decide_eq_true hkey⟩
      · exact absurd hrow List.not_mem_nil
  · rintro ⟨hr, hsession, hfree, ha, hkey⟩
    refine ⟨row.2.1, hr, ?_⟩
    rw [hsession]
    dsimp only
    rw [if_pos hfree]
    exact List.mem_map.mpr ⟨row.2.2, List.mem_filter.mpr ⟨ha, decide_eq_true hkey⟩, rfl⟩

/-- An invented session: of a session without a row, with the least name and the least internal id
of its runs' agents. -/
theorem inventedSessions_spec (hkeys : (agents.map AgentRow.key).Nodup)
    (hknown : ∀ r ∈ T.runs, ∃ a ∈ agents, a.key = (r.owner, r.agentId)) {s' : SessionRow}
    (h : s' ∈ T.inventedSessions draws agents sessions) :
    (∀ s ∈ sessions, s.key ≠ s'.key) ∧
      minText ((T.runsOf s'.owner s'.id).map LegacyRun.agentId) = some s'.agentId ∧
      minText ((T.runsOf s'.owner s'.id).filterMap fun r ↦
        (Table.lookup AgentRow.key (s'.owner, r.agentId) agents).map AgentRow.internalId)
          = some s'.agentInternalId := by
  obtain ⟨i, hi, rfl⟩ := List.mem_mapIdx.mp h
  generalize hkey : ((T.runsWithoutSession agents sessions).map
    fun row ↦ (row.2.1.owner, row.1)).dedup[i] = key
  obtain ⟨owner, id⟩ := key
  -- the group is not empty: its key comes from a row
  obtain ⟨row, hrow, hrowKey⟩ : ∃ row ∈ T.runsWithoutSession agents sessions,
      (row.2.1.owner, row.1) = (owner, id) := by
    rw [← hkey]
    exact List.mem_map.mp (List.mem_dedup.mp (List.getElem_mem hi))
  obtain ⟨rfl, rfl⟩ := Prod.mk.inj hrowKey
  obtain ⟨hr, hsession, hfree, ha, hagent⟩ := mem_runsWithoutSession.mp hrow
  have hgroup := filter_runsWithoutSession (T := T) hkeys hfree
  have hin : row ∈ (T.runsWithoutSession agents sessions).filter
      fun x ↦ (x.2.1.owner, x.1) = (row.2.1.owner, row.1) :=
    List.mem_filter.mpr ⟨hrow, decide_eq_true rfl⟩
  have hnames : ((T.runsOf row.2.1.owner row.1).filterMap fun r ↦
      (Table.lookup AgentRow.key (row.2.1.owner, r.agentId) agents).map
        fun a ↦ (row.1, r, a)).map (fun x ↦ x.2.1.agentId)
      = (T.runsOf row.2.1.owner row.1).map LegacyRun.agentId := by
    rw [List.map_filterMap, ← List.filterMap_eq_map]
    refine List.filterMap_congr fun r hr ↦ ?_
    obtain ⟨hmem, hof⟩ := List.mem_filter.mp hr
    obtain ⟨howner, -⟩ := of_decide_eq_true hof
    obtain ⟨a, ha, hkey⟩ := hknown r hmem
    rw [← howner, ← hkey, Table.lookup_of_mem hkeys ha]
    rfl
  refine ⟨hfree, ?_, ?_⟩
  · obtain ⟨m, hm⟩ := minText_isSome (List.mem_map_of_mem (f := fun x ↦ x.2.1.agentId) hin)
    dsimp only
    rw [hm, Option.getD_some, ← hm, hgroup, hnames]
  · obtain ⟨m, hm⟩ := minText_isSome (List.mem_map_of_mem (f := fun x ↦ x.2.2.internalId) hin)
    dsimp only
    rw [hm, Option.getD_some, ← hm, hgroup, List.map_filterMap]
    simp only [Option.map_map]
    rfl

/-- Every run's session without a row is invented. -/
theorem exists_inventedSession (draws : Draws) {r : LegacyRun} (hr : r ∈ T.runs) (hsession : r.sessionId = some id)
    (hfree : ∀ s ∈ sessions, s.key ≠ (r.owner, id)) {a : AgentRow} (ha : a ∈ agents)
    (hkey : a.key = (r.owner, r.agentId)) :
    ∃ s' ∈ T.inventedSessions draws agents sessions, s'.key = (r.owner, id) := by
  have hgroup : (r.owner, id) ∈ ((T.runsWithoutSession agents sessions).map
      fun row ↦ (row.2.1.owner, row.1)).dedup :=
    List.mem_dedup.mpr (List.mem_map.mpr
      ⟨(id, r, a), mem_runsWithoutSession.mpr ⟨hr, hsession, hfree, ha, hkey⟩, rfl⟩)
  obtain ⟨i, hi, hget⟩ := List.getElem_of_mem hgroup
  exact ⟨_, List.mem_mapIdx.mpr ⟨i, hi, rfl⟩, hget⟩

/-! ## Counterparts -/

end LegacyTables

/-- The new row has the columns of the old session. -/
def SessionRow.Carries (s' : SessionRow) (s : LegacySession) : Prop :=
  s'.id = s.id ∧ s'.owner = s.owner ∧ s'.agentId = s.agentId ∧ s'.createdAt = s.createdAt ∧
    s'.updatedAt = s.updatedAt

/-- The new row has the columns of the old message, in the session of the old session's owner and
id. -/
def MessageRow.Carries (T : LegacyTables) (S : Store) (m' : MessageRow) (m : LegacyMessage) : Prop :=
  m'.id = m.id ∧ m'.runId = m.runId ∧ m'.role = m.role ∧ m'.content = m.content ∧
    m'.metadata = m.metadata ∧ m'.createdAt = m.createdAt ∧
    ∃ legacy ∈ T.sessions, legacy.id = m.sessionId ∧
      ∃ s ∈ S.sessions, s.internalId = m'.sessionInternalId ∧ s.key = (legacy.owner, legacy.id)

/-- The new row has the columns of the old lease, on a workspace with the public id of the old
one. -/
def LeaseRow.Carries (S : Store) (l' : LeaseRow) (l : LegacyLease) : Prop :=
  l'.ownerRunId = l.ownerRunId ∧ l'.fencingToken = l.fencingToken ∧
    l'.expiresAt = l.expiresAt ∧ l'.updatedAt = l.updatedAt ∧
    ∃ w ∈ S.workspaces, w.internalId = l'.workspaceInternalId ∧ w.id = l.workspaceId

/-- The references of a run denote the rows with its owner and the public ids. -/
structure RunRow.Resolved (S : Store) (r : RunRow) : Prop where
  agent : ∃ a ∈ S.agents, r.agentInternalId = some a.internalId ∧ a.key = (r.owner, r.agentId)
  workspace : ∃ w ∈ S.workspaces, r.workspaceInternalId = some w.internalId ∧
    w.key = (r.owner, r.workspaceId)
  session : ∀ id, r.sessionId = some id →
    ∃ s ∈ S.sessions, r.sessionInternalId = some s.internalId ∧ s.key = (r.owner, id)

namespace LegacyTables

variable {draws : Draws} {T : LegacyTables} {S : Store} {owner : ResourceOwner} {id : JsString}

/-- What migration 7 has to achieve. -/
structure Faithful (T : LegacyTables) (S : Store) : Prop where
  identities : (S.agents.map AgentRow.internalId).Nodup ∧
    (S.workspaces.map WorkspaceRow.internalId).Nodup ∧ (S.sessions.map SessionRow.internalId).Nodup
  runs : List.Forall₂ (fun r r' ↦ r' = withReferences r r'.agentInternalId r'.workspaceInternalId
    r'.sessionInternalId) T.runs S.runs
  references : ∀ r ∈ S.runs, r.Resolved S
  sessions : ∀ s ∈ T.sessions, ∃! s', s' ∈ S.sessions ∧ s'.Carries s
  messages : ∀ m ∈ T.messages, ∃! m', m' ∈ S.messages ∧ m'.Carries T S m
  leases : ∀ l ∈ T.leases, ∃! l', l' ∈ S.leases ∧ l'.Carries S l
  sessionAgents : ∀ s ∈ S.sessions,
    ∃ a ∈ S.agents, a.internalId = s.agentInternalId ∧ a.key = (s.owner, s.agentId)
  leaseOwners : ∀ l ∈ S.leases, ∀ r ∈ S.runs, l.ownerRunId = some r.id →
    ∃ w ∈ S.workspaces, w.internalId = l.workspaceInternalId ∧ w.owner = r.owner

/-- The databases whose joins have one answer: the agent of every session is known to its owner, one
owner has the workspace of a lease, the one of the run that holds it, and a session without a row
has its least agent and its least internal id together. -/
structure Unambiguous (draws : Draws) (T : LegacyTables) : Prop where
  agents : ∀ s ∈ T.sessions, T.KnowsAgent s.owner s.agentId
  leases : ∀ l ∈ T.leases, ∃! owner, T.KnowsWorkspace owner l.workspaceId
  holders : ∀ l ∈ T.leases, ∀ r ∈ T.runs, l.ownerRunId = some r.id →
    T.KnowsWorkspace r.owner l.workspaceId
  sessions : ∀ owner id, (∀ s ∈ T.sessions, (s.owner, s.id) ≠ (owner, id)) →
    T.LeastTogether draws owner id

/-! ## The rebuilt tables -/

/-- The tables of `S` are those migration 7 builds, one from the other. -/
structure Rebuilt (draws : Draws) (T : LegacyTables) (S : Store) : Prop where
  agents : T.scopedAgents draws = some S.agents
  workspaces : T.scopedWorkspaces draws = some S.workspaces
  sessions : T.scopedSessions draws S.agents = some S.sessions
  messages : T.scopedMessages S.sessions = some S.messages
  leases : T.scopedLeases S.workspaces = some S.leases
  runs : S.runs = T.runs.map (scopedRun S.agents S.workspaces S.sessions)
  resolved : ∀ r ∈ S.runs, unresolved r = false

theorem migration7_rebuilt (h : T.migration7 draws = some S) : T.Rebuilt draws S := by
  simp only [migration7, Option.bind_eq_bind, Option.bind_eq_some_iff] at h
  obtain ⟨agents, hagents, workspaces, hworkspaces, sessions, hsessions, messages, hmessages,
    leases, hleases, h⟩ := h
  split_ifs at h with hunresolved
  obtain rfl := Option.some.inj h
  refine ⟨hagents, hworkspaces, hsessions, hmessages, hleases, rfl, fun r hr ↦ ?_⟩
  rw [Bool.eq_false_iff]
  exact fun hbad ↦ hunresolved (List.any_eq_true.mpr ⟨r, hr, hbad⟩)

namespace Rebuilt

theorem knowsAgent_iff (h : T.Rebuilt draws S) : (∃ a ∈ S.agents, a.key = (owner, id)) ↔
    T.KnowsAgent owner id := (scopedAgents_spec h.agents).2.2 owner id

theorem knowsWorkspace_iff (h : T.Rebuilt draws S) : (∃ w ∈ S.workspaces, w.key = (owner, id)) ↔
    T.KnowsWorkspace owner id := (scopedWorkspaces_spec h.workspaces).2.2 owner id

theorem agentKeys (h : T.Rebuilt draws S) : (S.agents.map AgentRow.key).Nodup :=
  (scopedAgents_spec h.agents).2.1

/-- The agent of every run is known. -/
theorem runAgents (h : T.Rebuilt draws S) :
    ∀ r ∈ T.runs, ∃ a ∈ S.agents, a.key = (r.owner, r.agentId) :=
  fun r hr ↦ h.knowsAgent_iff.mpr (Or.inr ⟨r, hr, rfl⟩)

theorem sessions_eq (h : T.Rebuilt draws S) :
    S.sessions = T.recordedSessions draws S.agents
        ++ T.inventedSessions draws S.agents (T.recordedSessions draws S.agents) ∧
      (S.sessions.map SessionRow.internalId).Nodup ∧ (S.sessions.map SessionRow.key).Nodup := by
  obtain ⟨recorded, hrecorded, hsessions⟩ := Option.bind_eq_some_iff.mp h.sessions
  obtain ⟨rfl, -, -⟩ := insertSelect_eq_some.mp hrecorded
  exact insertSelect_eq_some.mp hsessions

/-- A session is carried over exactly when its agent is known to its owner. -/
theorem session_carried_iff (h : T.Rebuilt draws S) {s : LegacySession} (hs : s ∈ T.sessions) :
    (∃! s', s' ∈ S.sessions ∧ s'.Carries s) ↔ T.KnowsAgent s.owner s.agentId := by
  obtain ⟨hsessions, -, hkeys⟩ := h.sessions_eq
  constructor
  · rintro ⟨s', ⟨hs', hid, howner, hagent, -⟩, -⟩
    rw [hsessions] at hs'
    rcases List.mem_append.mp hs' with hs' | hs'
    · obtain ⟨s₂, -, a, ha, hkey, -, howner₂, hagent₂, -⟩ := mem_recordedSessions hs'
      refine h.knowsAgent_iff.mp ⟨a, ha, ?_⟩
      rw [hkey, ← howner, ← hagent, howner₂, hagent₂]
    · obtain ⟨-, hname, -⟩ := inventedSessions_spec h.agentKeys h.runAgents hs'
      obtain ⟨r, hr, hrAgent⟩ := List.mem_map.mp (minText_mem hname)
      obtain ⟨hrMem, hof⟩ := List.mem_filter.mp hr
      obtain ⟨hrOwner, -⟩ := of_decide_eq_true hof
      exact Or.inr ⟨r, hrMem, by rw [hrOwner, hrAgent, howner, hagent]⟩
  · intro hknown
    obtain ⟨a, ha, hkey⟩ := h.knowsAgent_iff.mpr hknown
    obtain ⟨s', hs', hcarries⟩ := exists_recordedSession draws hs ha hkey
    have hmem : s' ∈ S.sessions := by
      rw [hsessions]
      exact List.mem_append_left _ hs'
    refine ⟨s', ⟨hmem, hcarries⟩, fun s₂ ⟨hs₂, hcarries₂⟩ ↦ ?_⟩
    refine List.inj_on_of_nodup_map hkeys hs₂ hmem ?_
    rw [SessionRow.key, SessionRow.key, hcarries₂.1, hcarries₂.2.1, hcarries.1, hcarries.2.1]

/-- Where every session's agent is known, every message is carried over. -/
theorem message_carried (h : T.Rebuilt draws S) (hvalid : T.Valid)
    (hagents : ∀ s ∈ T.sessions, T.KnowsAgent s.owner s.agentId) {m : LegacyMessage}
    (hm : m ∈ T.messages) : ∃! m', m' ∈ S.messages ∧ m'.Carries T S m := by
  obtain ⟨hmessages, hids, -⟩ := insertSelect_eq_some.mp h.messages
  rw [List.nil_append] at hmessages
  obtain ⟨legacy, hlegacy, hsession⟩ := hvalid.messageSessions m hm
  obtain ⟨s', ⟨hs', hid, howner, -⟩, -⟩ := (h.session_carried_iff hlegacy).mpr (hagents _ hlegacy)
  have hkey : s'.key = (legacy.owner, legacy.id) := by rw [SessionRow.key, hid, howner]
  -- the one row of the join
  let row : MessageRow :=
    { id := m.id, sessionInternalId := s'.internalId, runId := m.runId, role := m.role
      content := m.content, metadata := m.metadata, createdAt := m.createdAt, sequence := 0 }
  have hrow : row ∈ S.messages := by
    rw [hmessages]
    exact List.mem_flatMap.mpr ⟨m, hm, List.mem_flatMap.mpr ⟨legacy,
      List.mem_filter.mpr ⟨hlegacy, decide_eq_true hsession⟩, List.mem_map.mpr ⟨s',
        List.mem_filter.mpr ⟨hs', decide_eq_true hkey⟩, rfl⟩⟩⟩
  refine ⟨row, ⟨hrow, rfl, rfl, rfl, rfl, rfl, rfl, legacy, hlegacy, hsession, s', hs', rfl, hkey⟩,
    ?_⟩
  rintro m₂ ⟨hm₂, hid₂, -⟩
  exact List.inj_on_of_nodup_map hids hm₂ hrow hid₂

/-- A lease of the new store is an old one on a workspace with the same public id. -/
theorem mem_leases_iff (h : T.Rebuilt draws S) {l' : LeaseRow} : l' ∈ S.leases ↔
    ∃ l ∈ T.leases, ∃ w ∈ S.workspaces, w.id = l.workspaceId ∧
      l' = ⟨w.internalId, l.ownerRunId, l.fencingToken, l.expiresAt, l.updatedAt⟩ := by
  obtain ⟨hleases, -, -⟩ := insertSelect_eq_some.mp h.leases
  rw [hleases, List.nil_append, List.mem_flatMap]
  refine exists_congr fun l ↦ and_congr_right fun _ ↦ ?_
  simp only [List.mem_map, List.mem_filter, decide_eq_true_eq, and_assoc, eq_comm (a := l')]

/-- A lease is carried over exactly when one owner has its workspace. -/
theorem lease_carried_iff (h : T.Rebuilt draws S) {l : LegacyLease} (hl : l ∈ T.leases) :
    (∃! l', l' ∈ S.leases ∧ l'.Carries S l) ↔ ∃! owner, T.KnowsWorkspace owner l.workspaceId := by
  obtain ⟨hids, hkeys, -⟩ := scopedWorkspaces_spec h.workspaces
  -- the lease on a workspace of the public id
  have hon : ∀ w ∈ S.workspaces, w.id = l.workspaceId →
      ∃ l' ∈ S.leases, l'.Carries S l ∧ l'.workspaceInternalId = w.internalId :=
    fun w hw hid ↦ ⟨_, h.mem_leases_iff.mpr ⟨l, hl, w, hw, hid, rfl⟩,
      ⟨rfl, rfl, rfl, rfl, w, hw, rfl, hid⟩, rfl⟩
  constructor
  · rintro ⟨l', ⟨hl', hcarries⟩, hunique⟩
    obtain ⟨-, -, -, -, w, hw, hwid, hid⟩ := hcarries
    refine ⟨w.owner, h.knowsWorkspace_iff.mp ⟨w, hw, by rw [WorkspaceRow.key, hid]⟩, ?_⟩
    intro owner hknows
    obtain ⟨w₂, hw₂, hkey₂⟩ := h.knowsWorkspace_iff.mpr hknows
    obtain ⟨rfl, hid₂⟩ := Prod.mk.inj hkey₂
    obtain ⟨l₂, hl₂, hcarries₂, hon₂⟩ := hon w₂ hw₂ hid₂
    rw [hunique l₂ ⟨hl₂, hcarries₂⟩, ← hwid] at hon₂
    rw [List.inj_on_of_nodup_map hids hw hw₂ hon₂]
  · rintro ⟨owner, hknows, hunique⟩
    obtain ⟨w, hw, hkey⟩ := h.knowsWorkspace_iff.mpr hknows
    obtain ⟨rfl, hid⟩ := Prod.mk.inj hkey
    obtain ⟨l', hl', hcarries, hwid⟩ := hon w hw hid
    refine ⟨l', ⟨hl', hcarries⟩, ?_⟩
    rintro l₂ ⟨-, hrun₂, htoken₂, hexpires₂, hupdated₂, w₂, hw₂, hwid₂, hid₂⟩
    have howner : w₂.owner = w.owner :=
      hunique w₂.owner (h.knowsWorkspace_iff.mp ⟨w₂, hw₂, by rw [WorkspaceRow.key, hid₂]⟩)
    have hsame : w₂ = w :=
      List.inj_on_of_nodup_map hkeys hw₂ hw (by rw [WorkspaceRow.key, howner, hid₂, hkey])
    obtain ⟨hrun, htoken, hexpires, hupdated, -⟩ := hcarries
    cases l₂
    cases l'
    simp_all

/-- Where each lease has one owner's workspace, the holders fit exactly when the runs that hold the
leases are that owner's. -/
theorem leaseOwners_iff (h : T.Rebuilt draws S)
    (hone : ∀ l ∈ T.leases, ∃! owner, T.KnowsWorkspace owner l.workspaceId) :
    (∀ l ∈ S.leases, ∀ r ∈ S.runs, l.ownerRunId = some r.id →
        ∃ w ∈ S.workspaces, w.internalId = l.workspaceInternalId ∧ w.owner = r.owner) ↔
      ∀ l ∈ T.leases, ∀ r ∈ T.runs, l.ownerRunId = some r.id →
        T.KnowsWorkspace r.owner l.workspaceId := by
  obtain ⟨hids, -, -⟩ := scopedWorkspaces_spec h.workspaces
  constructor
  · intro hnew l hl r hr hheld
    obtain ⟨owner, hknows, -⟩ := hone l hl
    obtain ⟨w, hw, hkey⟩ := h.knowsWorkspace_iff.mpr hknows
    obtain ⟨-, hid⟩ := Prod.mk.inj hkey
    have hrun : scopedRun S.agents S.workspaces S.sessions r ∈ S.runs := by
      rw [h.runs]
      exact List.mem_map_of_mem hr
    obtain ⟨w₂, hw₂, hwid, howner⟩ := hnew _ (h.mem_leases_iff.mpr ⟨l, hl, w, hw, hid, rfl⟩) _ hrun
      hheld
    obtain rfl := List.inj_on_of_nodup_map hids hw₂ hw hwid
    exact h.knowsWorkspace_iff.mp ⟨w₂, hw₂, by rw [WorkspaceRow.key, howner, hid]; rfl⟩
  · intro hold l' hl' r' hr' hheld
    obtain ⟨l, hl, w, hw, hid, rfl⟩ := h.mem_leases_iff.mp hl'
    rw [h.runs] at hr'
    obtain ⟨r, hr, rfl⟩ := List.mem_map.mp hr'
    obtain ⟨owner, -, hunique⟩ := hone l hl
    have hrun := hunique _ (hold l hl r hr hheld)
    have hworkspace := hunique w.owner
      (h.knowsWorkspace_iff.mp ⟨w, hw, by rw [WorkspaceRow.key, hid]⟩)
    exact ⟨w, hw, rfl, hworkspace.trans hrun.symm⟩

/-- Where every session's agent is known, the agents of the sessions fit exactly when the sessions
without a row have their least agent and their least internal id together. -/
theorem sessionAgents_iff (h : T.Rebuilt draws S)
    (hagents : ∀ s ∈ T.sessions, T.KnowsAgent s.owner s.agentId) :
    (∀ s ∈ S.sessions,
        ∃ a ∈ S.agents, a.internalId = s.agentInternalId ∧ a.key = (s.owner, s.agentId)) ↔
      ∀ owner id, (∀ s ∈ T.sessions, (s.owner, s.id) ≠ (owner, id)) →
        T.LeastTogether draws owner id := by
  obtain ⟨hsessions, -, -⟩ := h.sessions_eq
  have hinternal : ∀ owner agentId, T.internalAgentId draws owner agentId
      = (Table.lookup AgentRow.key (owner, agentId) S.agents).map AgentRow.internalId := by
    intro owner agentId
    rw [internalAgentId, h.agents]
    rfl
  constructor
  · intro hnew owner id hfree
    rw [LeastTogether]
    cases hruns : T.runsOf owner id with
    | nil => rfl
    | cons r rest =>
      obtain ⟨hr, hof⟩ := List.mem_filter.mp (hruns ▸ List.mem_cons_self : r ∈ T.runsOf owner id)
      obtain ⟨rfl, hsession⟩ := of_decide_eq_true hof
      have hfree' : ∀ s ∈ T.recordedSessions draws S.agents, s.key ≠ (r.owner, id) := by
        intro s hs hkey
        obtain ⟨s₂, hs₂, -, -, -, hid, howner, -⟩ := mem_recordedSessions hs
        exact hfree s₂ hs₂ (by rw [← hkey, SessionRow.key, hid, howner])
      obtain ⟨a, ha, hkey⟩ := h.runAgents r hr
      obtain ⟨s', hs', hkey'⟩ :=
        exists_inventedSession draws hr hsession hfree' ha hkey
      obtain ⟨howner', hid'⟩ := Prod.mk.inj hkey'
      obtain ⟨-, hname, hleastId⟩ := inventedSessions_spec h.agentKeys h.runAgents hs'
      obtain ⟨a', ha', hint, hkey₂⟩ := hnew s' (by
        rw [hsessions]
        exact List.mem_append_right _ hs')
      rw [howner', hid', hruns] at hname hleastId
      simp only [hinternal]
      rw [hleastId, hname, Option.bind_some, ← howner', ← hkey₂,
        Table.lookup_of_mem h.agentKeys ha', Option.map_some, hint]
  · intro hleast s hs
    rw [hsessions] at hs
    rcases List.mem_append.mp hs with hs | hs
    · obtain ⟨s₂, -, a, ha, hkey, -, howner, hagent, hint, -⟩ := mem_recordedSessions hs
      exact ⟨a, ha, hint.symm, by rw [hkey, howner, hagent]⟩
    · obtain ⟨hfree, hname, hleastId⟩ := inventedSessions_spec h.agentKeys h.runAgents hs
      have htogether := hleast s.owner s.id (by
        intro s₂ hs₂ hsame
        obtain ⟨a, ha, hkey⟩ := h.knowsAgent_iff.mpr (hagents s₂ hs₂)
        obtain ⟨s₃, hs₃, hid, howner, -⟩ := exists_recordedSession draws hs₂ ha hkey
        exact hfree s₃ hs₃ (by rw [SessionRow.key, hid, howner, hsame]))
      rw [LeastTogether, hname, Option.bind_some] at htogether
      simp only [hinternal] at htogether
      rw [hleastId] at htogether
      obtain ⟨a, hlookup, hint⟩ := Option.map_eq_some_iff.mp htogether.symm
      exact ⟨a, Table.mem_of_lookup hlookup, hint, Table.key_of_lookup hlookup⟩

/-- Every reference of a run was found: the migration checks for it. -/
theorem run_resolved (h : T.Rebuilt draws S) : ∀ r ∈ S.runs, r.Resolved S := by
  intro r' hr'
  have hresolved := h.resolved r' hr'
  rw [h.runs] at hr'
  obtain ⟨r, -, rfl⟩ := List.mem_map.mp hr'
  simp only [unresolved, Bool.or_eq_false_iff, scopedRun, withReferences, Option.isNone_eq_false_iff,
    Option.isSome_map] at hresolved
  obtain ⟨⟨hagent, hworkspace⟩, hsession⟩ := hresolved
  obtain ⟨a, ha⟩ := Option.isSome_iff_exists.mp hagent
  obtain ⟨w, hw⟩ := Option.isSome_iff_exists.mp hworkspace
  refine ⟨⟨a, Table.mem_of_lookup ha, by rw [scopedRun, withReferences, ha]; rfl,
    Table.key_of_lookup ha⟩, ⟨w, Table.mem_of_lookup hw, by rw [scopedRun, withReferences, hw]; rfl,
    Table.key_of_lookup hw⟩, fun id hid ↦ ?_⟩
  change r.sessionId = some id at hid
  rw [hid, Option.isSome_some, Bool.true_and, Option.bind_some, Option.isNone_eq_false_iff,
    Option.isSome_map] at hsession
  obtain ⟨s, hs⟩ := Option.isSome_iff_exists.mp hsession
  refine ⟨s, Table.mem_of_lookup hs, ?_, Table.key_of_lookup hs⟩
  rw [scopedRun, withReferences, hid, Option.bind_some, hs]
  rfl

/-- **The rebuilt store is faithful exactly where the joins have one answer.** -/
theorem faithful_iff (h : T.Rebuilt draws S) (hvalid : T.Valid) :
    T.Faithful S ↔ T.Unambiguous draws := by
  constructor
  · intro hfaithful
    have hagents : ∀ s ∈ T.sessions, T.KnowsAgent s.owner s.agentId :=
      fun s hs ↦ (h.session_carried_iff hs).mp (hfaithful.sessions s hs)
    have hone : ∀ l ∈ T.leases, ∃! owner, T.KnowsWorkspace owner l.workspaceId :=
      fun l hl ↦ (h.lease_carried_iff hl).mp (hfaithful.leases l hl)
    exact ⟨hagents, hone, (h.leaseOwners_iff hone).mp hfaithful.leaseOwners,
      (h.sessionAgents_iff hagents).mp hfaithful.sessionAgents⟩
  · intro hcondition
    refine ⟨⟨(scopedAgents_spec h.agents).1, (scopedWorkspaces_spec h.workspaces).1,
      h.sessions_eq.2.1⟩, ?_, h.run_resolved, ?_, ?_, ?_, ?_, ?_⟩
    · rw [h.runs, List.forall₂_map_right_iff]
      exact List.forall₂_same.mpr fun r _ ↦ rfl
    · exact fun s hs ↦ (h.session_carried_iff hs).mpr (hcondition.agents s hs)
    · exact fun m hm ↦ h.message_carried hvalid hcondition.agents hm
    · exact fun l hl ↦ (h.lease_carried_iff hl).mpr (hcondition.leases l hl)
    · exact (h.sessionAgents_iff hcondition.agents).mpr hcondition.sessions
    · exact (h.leaseOwners_iff hcondition.leases).mpr hcondition.holders

end Rebuilt

end LegacyTables

/-- **When migration 7 carries everything over.** On a database of version 6 the migration is rolled
back and leaves it as it was, or it ends at version 7 with a store that is faithful to the old one
exactly when the old database is unambiguous. -/
theorem migration7_faithful_iff (draws : Draws) (migratedAt : ℤ) {T : LegacyTables}
    (hvalid : T.Valid) :
    (∃ e, (applyMigration draws migratedAt).run (.legacy 6 T) = (.error e, .legacy 6 T)) ∨
      ∃ S, (applyMigration draws migratedAt).run (.legacy 6 T) = (.ok ⟨⟩, .current 7 S) ∧
        (T.Faithful S ↔ T.Unambiguous draws) := by
  rw [Database.applyMigration_run, Database.migrated]
  cases hmigrated : T.migration7 draws with
  | none => exact Or.inl ⟨_, rfl⟩
  | some S =>
    exact Or.inr ⟨S, rfl, (LegacyTables.migration7_rebuilt hmigrated).faithful_iff hvalid⟩

/-! ## A session with the wrong agent -/

/-- Two runs of one session that has no row, each with an agent of its own. -/
def twoAgents : LegacyTables where
  runs := [{ id := js "run_1", idempotencyKey := js "4:user:one", requestFingerprint := []
             owner := ⟨js "app", js "tenant", js "user"⟩, agentId := js "writer"
             workspaceId := js "workspace", sessionId := js "session", input := js "input"
             status := .succeeded, createdAt := 0, updatedAt := 1 },
    { id := js "run_2", idempotencyKey := js "4:user:two", requestFingerprint := []
      owner := ⟨js "app", js "tenant", js "user"⟩, agentId := js "reader"
      workspaceId := js "workspace", sessionId := js "session", input := js "input"
      status := .succeeded, createdAt := 2, updatedAt := 3 }]

theorem twoAgents_valid : twoAgents.Valid where
  runIds := by decide
  runKeys := by decide
  sessionIds := List.nodup_nil
  messageIds := List.nodup_nil
  messageSessions _ hm := absurd hm List.not_mem_nil
  leaseWorkspaces := List.nodup_nil
  agentIds := List.nodup_nil
  workspaceIds := List.nodup_nil

/-- The migration of the two runs goes through. -/
theorem applyMigration_twoAgents :
    ∃ S, twoAgents.migration7 referenceDraws = some S ∧
      (applyMigration referenceDraws 4).run (.legacy 6 twoAgents) = (.ok ⟨⟩, .current 7 S) := by
  have hok : (twoAgents.migration7 referenceDraws).isSome = true := by decide +kernel
  obtain ⟨S, hS⟩ := Option.isSome_iff_exists.mp hok
  refine ⟨S, hS, ?_⟩
  rw [Database.applyMigration_run, Database.migrated, hS]
  rfl

theorem migration7_faithful_iff_twoAgents :
    ∃ S, (applyMigration referenceDraws 4).run (.legacy 6 twoAgents) = (.ok ⟨⟩, .current 7 S) ∧
      (twoAgents.Faithful S ↔ twoAgents.Unambiguous referenceDraws) := by
  obtain ⟨S, -, hrun⟩ := applyMigration_twoAgents
  rcases migration7_faithful_iff referenceDraws 4 twoAgents_valid with ⟨e, hfailed⟩ | hmigrated
  · exact absurd (Prod.mk.inj (hrun.symm.trans hfailed)).1 nofun
  · exact hmigrated

/-- The invented session is called the reader's and belongs to the writer. -/
theorem not_faithful_twoAgents :
    ¬∀ (draws : Draws) (migratedAt : ℤ) (T : LegacyTables), T.Valid → ∀ S : Store,
      (applyMigration draws migratedAt).run (.legacy 6 T) = (.ok ⟨⟩, .current 7 S) →
        T.Faithful S := by
  intro h
  have hwrong : (twoAgents.migration7 referenceDraws).map (fun S ↦ decide (∀ s ∈ S.sessions,
      ∃ a ∈ S.agents, a.internalId = s.agentInternalId ∧ a.key = (s.owner, s.agentId)))
        = some false := by
    decide +kernel
  obtain ⟨S, hS, hrun⟩ := applyMigration_twoAgents
  rw [hS, Option.map_some] at hwrong
  exact of_decide_eq_false (Option.some.inj hwrong) (h _ _ _ twoAgents_valid S hrun).sessionAgents

end LiteHarness
