import LiteHarness.Storage.OwnerView

/-!
# The rows of different owners are independent

`Separated` collects what keeps an owner's rows apart from the others': references stay within an
owner, events, approvals and attempts belong to runs, runs have names, and the stored idempotency
key of a run determines its user. Every operation with fresh ids keeps it. The second half reads
off what a query by run id, approval id or idempotency key sees of an owner's rows.
-/

namespace LiteHarness

open Foundation

namespace Store

/-! ## Records filed under a run -/

/-- Records, given by their id and the run they are filed under: ids differ, and the runs exist. -/
structure FiledUnder (runIds : List JsString) (filings : List (JsString × JsString)) : Prop where
  apart : (filings.map Prod.fst).Nodup
  known : ∀ f ∈ filings, f.2 ∈ runIds

theorem FiledUnder.mono {runIds runIds' : List JsString} {filings : List (JsString × JsString)}
    (h : FiledUnder runIds filings) (hsub : runIds ⊆ runIds') : FiledUnder runIds' filings :=
  ⟨h.apart, fun f hf ↦ hsub (h.known f hf)⟩

theorem FiledUnder.snoc {runIds : List JsString} {filings : List (JsString × JsString)}
    {f : JsString × JsString} (h : FiledUnder runIds filings) (hfresh : ∀ g ∈ filings, g.1 ≠ f.1)
    (hknown : f.2 ∈ runIds) : FiledUnder runIds (filings ++ [f]) := by
  refine ⟨Table.nodup_append_fresh h.apart hfresh, fun g hg ↦ ?_⟩
  rcases List.mem_append.mp hg with hg | hg
  · exact h.known g hg
  · rw [List.mem_singleton.mp hg]
    exact hknown

def runIds (S : Store) : List JsString := S.runs.map RunRow.id

/-- The approvals with the runs they are filed under. -/
def approvalFilings (S : Store) : List (JsString × JsString) :=
  S.approvals.map fun a ↦ (a.id, a.runId)

/-- The attempts with the runs they are filed under. -/
def attemptFilings (S : Store) : List (JsString × JsString) :=
  S.attempts.map fun a ↦ (a.id, a.runId)

/-- The rows of different owners are independent. -/
structure Separated (S : Store) : Prop extends Linked S where
  named : ∀ run ∈ S.registrations, run.id ≠ []
  keyed : ∀ run ∈ S.registrations, ∃ key,
    run.idempotencyKey = scopedIdempotencyKey run.owner.userId key
  sessionAgents : ∀ s ∈ S.sessions, ∃ a ∈ S.agents, a.internalId = s.agentInternalId ∧
    a.owner = s.owner
  events : ∀ e ∈ S.events, e.runId ∈ S.runIds
  approvalsFiled : FiledUnder S.runIds S.approvalFilings
  attemptsFiled : FiledUnder S.runIds S.attemptFilings

theorem Separated.empty : Separated {} where
  toLinked := .empty
  named := by simp [registrations]
  keyed := by simp [registrations]
  sessionAgents := by simp
  events := by simp
  approvalsFiled := ⟨List.nodup_nil, by simp [approvalFilings]⟩
  attemptsFiled := ⟨List.nodup_nil, by simp [attemptFilings]⟩

/-! ## Every operation keeps the invariant -/

theorem map_registrations_id (S : Store) :
    S.registrations.map RunRow.Registration.id = S.runIds := List.map_map

theorem mem_runIds_of_run? {S : Store} {k : JsString} {row : RunRow} (h : S.run? k = some row) :
    k ∈ S.runIds := List.mem_map.mpr ⟨row, run?_mem h⟩

theorem mem_runIds_of_isSome {S : Store} {k : JsString} (h : (S.run? k).isSome = true) :
    k ∈ S.runIds := by
  obtain ⟨row, hrow⟩ := Option.isSome_iff_exists.mp h
  exact mem_runIds_of_run? hrow

end Store

/-- Runs stay. -/
theorem StoreOp.runIds_subset (P : Platform) (op : StoreOp) (S : Store) :
    S.runIds ⊆ (op.apply P S).runIds := by
  rcases op.registers P S with heq | hregisters
  · rw [heq]
    exact List.Subset.refl _
  generalize op.apply P S = S' at hregisters
  cases hregisters with
  | quiet hruns =>
    have hregistrations : S'.registrations = S.registrations := hruns
    rw [← Store.map_registrations_id, ← Store.map_registrations_id, hregistrations]
    exact List.Subset.refl _
  | created hadmitted =>
    rw [Store.runIds, Store.runIds, hadmitted.runs, List.map_append]
    exact List.subset_append_left _ _
  | _ => exact List.Subset.refl _

/-- Attempts that end are the same attempts. -/
theorem Store.attemptFilings_update (p : AttemptRow → Bool) (status : RunStatus) (now : ℤ)
    (S : Store) :
    Store.attemptFilings { S with
      attempts := Table.update p (fun a ↦ { a with status := status, endedAt := some now })
        S.attempts } = S.attemptFilings :=
  Table.map_update (f := fun a : AttemptRow ↦ { a with status := status, endedAt := some now })
    (fun _ ↦ rfl) S.attempts

theorem Store.attemptFilings_endAttempts (now : ℤ) (runId : JsString) (status : RunStatus)
    (S : Store) : (Store.endAttempts now runId status S).attemptFilings = S.attemptFilings :=
  attemptFilings_update _ status now S

theorem Store.attemptFilings_recorded (createdAt : ℤ) (params : AppendRunEvent) (row : RunRow)
    (S : Store) : (S.recorded createdAt params row).attemptFilings = S.attemptFilings := by
  rw [recorded_eq]
  cases params.status with
  | none => rfl
  | some status =>
    dsimp only
    split_ifs
    · exact attemptFilings_endAttempts _ _ _ _
    · rfl

/-- What an operation files: at most one event, approval or attempt, under a run there is. -/
structure StoreOp.Files (S S' : Store) : Prop where
  events : ∀ e ∈ S'.events, e ∈ S.events ∨ e.runId ∈ S'.runIds
  approvals : S'.approvalFilings = S.approvalFilings ∨ ∃ f, (∀ g ∈ S.approvalFilings, g.1 ≠ f.1) ∧
    f.2 ∈ S.runIds ∧ S'.approvalFilings = S.approvalFilings ++ [f]
  attempts : S'.attemptFilings = S.attemptFilings ∨ ∃ f, (∀ g ∈ S.attemptFilings, g.1 ≠ f.1) ∧
    f.2 ∈ S.runIds ∧ S'.attemptFilings = S.attemptFilings ++ [f]

/-- An appended event is filed under its run. -/
theorem StoreOp.Files.recorded {S S₁ : Store} (hevents : S₁.events = S.events)
    (happrovals : S₁.approvalFilings = S.approvalFilings)
    (hattempts : S₁.attemptFilings = S.attemptFilings) {createdAt : ℤ} {params : AppendRunEvent}
    {row : RunRow} (h : S₁.Appendable params row) : Files S (S₁.recorded createdAt params row) where
  events e he := by
    have hids : (S₁.recorded createdAt params row).runIds = S₁.runIds :=
      Table.map_update (f := Store.appended createdAt params) (fun _ ↦ rfl) S₁.runs
    rcases List.mem_append.mp he with he | he
    · exact Or.inl (hevents ▸ he)
    · rw [List.mem_singleton.mp he, hids]
      exact Or.inr (Store.mem_runIds_of_run? h.row_eq)
  approvals := Or.inl happrovals
  attempts := Or.inl ((Store.attemptFilings_recorded createdAt params row S₁).trans hattempts)

theorem StoreOp.Change.files {op : StoreOp} {S S' : Store} (h : op.Change S S') : Files S S' := by
  have hquiet : ∀ {S' : Store}, S'.events = S.events → S'.approvalFilings = S.approvalFilings →
      S'.attemptFilings = S.attemptFilings → Files S S' := by
    intro S' hevents happrovals hattempts
    exact ⟨fun e he ↦ Or.inl (hevents ▸ he), Or.inl happrovals, Or.inl hattempts⟩
  have hresolve : ∀ (id : JsString) (status : ApprovalStatus) (now : ℤ),
      (Store.setApproval id status now S).approvalFilings = S.approvalFilings := by
    intro id status now
    exact Table.map_update (f := ApprovalRow.resolve status now) (fun _ ↦ rfl) S.approvals
  cases h with
  | created hcreated =>
    refine ⟨fun e he ↦ ?_, Or.inl ?_, Or.inl ?_⟩
    · rw [hcreated.events] at he
      rcases List.mem_append.mp he with he | he
      · exact Or.inl he
      · rw [List.mem_singleton.mp he, Store.runIds, hcreated.runs, List.map_append]
        exact Or.inr (List.mem_append_right _ (List.mem_singleton.mpr hcreated.id_eq.symm))
    · rw [Store.approvalFilings, hcreated.approvals, Store.approvalFilings]
    · rw [Store.attemptFilings, hcreated.attempts, Store.attemptFilings]
  | appended happend => exact .recorded rfl rfl rfl happend
  | approvalRecorded _ _ happend =>
    refine .recorded ?_ ?_ ?_ happend
    · rfl
    · exact hresolve _ _ _
    · rfl
  | approvalResolved => exact hquiet rfl (hresolve _ _ _) rfl
  | approvalCreated hfresh hrun =>
    refine ⟨fun e he ↦ Or.inl he, Or.inr ⟨_, fun g hg ↦ ?_, Store.mem_runIds_of_isSome hrun,
      List.map_append⟩, Or.inl rfl⟩
    obtain ⟨a, ha, rfl⟩ := List.mem_map.mp hg
    exact hfresh a ha
  | @attemptCreated _ runId id attempt hid hattempt _ hfresh hrun =>
    refine ⟨fun e he ↦ Or.inl he, Or.inl rfl, Or.inr ⟨(attempt.id, attempt.runId), fun g hg ↦ ?_, ?_,
      List.map_append⟩⟩
    · obtain ⟨a, ha, rfl⟩ := List.mem_map.mp hg
      exact hid ▸ hfresh a ha
    · rw [hattempt]
      exact Store.mem_runIds_of_isSome hrun
  | attemptCompleted =>
    exact hquiet rfl rfl (Store.attemptFilings_update _ _ _ S)
  | attemptsCompleted => exact hquiet rfl rfl (Store.attemptFilings_endAttempts _ _ _ _)
  | acquired hacquired =>
    rw [hacquired.store]
    exact hquiet rfl rfl rfl
  | _ => exact hquiet rfl rfl rfl

namespace Store

/-- What is filed, stays filed. -/
theorem FiledUnder.step {runIds runIds' : List JsString} {filings filings' : List (JsString × JsString)}
    (h : FiledUnder runIds filings) (hsub : runIds ⊆ runIds')
    (hstep : filings' = filings ∨ ∃ f, (∀ g ∈ filings, g.1 ≠ f.1) ∧ f.2 ∈ runIds ∧
      filings' = filings ++ [f]) : FiledUnder runIds' filings' := by
  rcases hstep with rfl | ⟨f, hfresh, hknown, rfl⟩
  · exact h.mono hsub
  · exact (h.snoc hfresh hknown).mono hsub

/-- The owner-related part of the invariant, from what an operation registers. -/
theorem Separated.registered {P : Platform} {S S' : Store} {op : StoreOp} (h : S.Separated)
    (hfresh : op.DrawsFresh S) (hregisters : op.Registers P S S') :
    (∀ run ∈ S'.registrations, run.id ≠ []) ∧
      (∀ run ∈ S'.registrations, ∃ key,
        run.idempotencyKey = scopedIdempotencyKey run.owner.userId key) ∧
      ∀ s ∈ S'.sessions, ∃ a ∈ S'.agents, a.internalId = s.agentInternalId ∧ a.owner = s.owner := by
  cases hregisters with
  | quiet hruns hmessages hagents hworkspaces hsessions =>
    have hregistrations : S'.registrations = S.registrations := hruns
    rw [hregistrations, hagents, hsessions]
    exact ⟨h.named, h.keyed, h.sessionAgents⟩
  | @created now fresh id request agent workspace session _ hadmitted =>
    have hnew : ∀ run ∈ S'.registrations, run ∈ S.registrations ∨ run = RunRow.registration
        (newRun now id (P.requestFingerprint request) request agent workspace session) := by
      intro run hrun
      rw [hadmitted.registrations] at hrun
      exact (List.mem_append.mp hrun).imp_right List.mem_singleton.mp
    refine ⟨fun run hrun ↦ ?_, fun run hrun ↦ ?_, fun s hs ↦ ?_⟩
    · rcases hnew run hrun with hrun | rfl
      · exact h.named run hrun
      · exact hfresh.1
    · rcases hnew run hrun with hrun | rfl
      · exact h.keyed run hrun
      · exact ⟨request.idempotencyKey, rfl⟩
    · rcases hadmitted.sessions.mem_cases hs with hs | rfl
      · obtain ⟨a, ha, hid⟩ := h.sessionAgents s hs
        exact ⟨a, hadmitted.agents.keeps ha, hid⟩
      · refine ⟨agent, hadmitted.agents.mem, hadmitted.sessionAgent.symm, ?_⟩
        rw [(Prod.mk.inj hadmitted.agents.key_eq).1, (Prod.mk.inj hadmitted.sessions.key_eq).1]
  | message => exact ⟨h.named, h.keyed, h.sessionAgents⟩
  | agentCreated =>
    refine ⟨h.named, h.keyed, fun s hs ↦ ?_⟩
    obtain ⟨a, ha, hid⟩ := h.sessionAgents s hs
    exact ⟨a, List.mem_append_left _ ha, hid⟩
  | @agentDeleted id owner agent hagent hruns hsessions =>
    refine ⟨h.named, h.keyed, fun s hs ↦ ?_⟩
    obtain ⟨a, ha, hid, howner⟩ := h.sessionAgents s hs
    refine ⟨a, List.mem_filter.mpr ⟨ha, decide_eq_true fun hdeleted ↦ ?_⟩, hid, howner⟩
    -- the agent of a session is not the one deleted
    have hsame : a = agent := List.inj_on_of_nodup_map h.agentKeys ha (Table.mem_of_lookup hagent)
      ((Prod.ext hdeleted.1 hdeleted.2).trans (Table.key_of_lookup hagent).symm)
    exact hsessions s hs (hsame ▸ hid.symm)
  | workspaceCreated => exact ⟨h.named, h.keyed, h.sessionAgents⟩
  | workspaceUpdated => exact ⟨h.named, h.keyed, h.sessionAgents⟩

/-- **Every operation with fresh ids keeps the rows of different owners independent.** -/
theorem Separated.apply {P : Platform} {S : Store} (h : S.Separated) {op : StoreOp}
    (hfresh : op.DrawsFresh S) : (op.apply P S).Separated := by
  have hsub := op.runIds_subset P S
  have hfiles : StoreOp.Files S (op.apply P S) := by
    rcases op.cases P S with heq | hchange
    · rw [heq]
      exact ⟨fun e he ↦ Or.inl he, Or.inl rfl, Or.inl rfl⟩
    · exact hchange.files
  have hregistered : (∀ run ∈ (op.apply P S).registrations, run.id ≠ []) ∧
      (∀ run ∈ (op.apply P S).registrations, ∃ key,
        run.idempotencyKey = scopedIdempotencyKey run.owner.userId key) ∧
      ∀ s ∈ (op.apply P S).sessions, ∃ a ∈ (op.apply P S).agents,
        a.internalId = s.agentInternalId ∧ a.owner = s.owner := by
    rcases op.registers P S with heq | hregisters
    · rw [heq]
      exact ⟨h.named, h.keyed, h.sessionAgents⟩
    · exact h.registered hfresh hregisters
  refine ⟨h.toLinked.apply op, hregistered.1, hregistered.2.1, hregistered.2.2, fun e he ↦ ?_,
    h.approvalsFiled.step hsub hfiles.approvals, h.attemptsFiled.step hsub hfiles.attempts⟩
  rcases hfiles.events e he with he | he
  · exact hsub (h.events e he)
  · exact he

/-! ## Queries that see an owner's rows -/

section Queries

variable {B : ResourceOwner} {I J : JsString → Bool} {S T : Store} {k : JsString} {row : RunRow}

theorem Separated.runIds_nodup (h : S.Separated) : S.runIds.Nodup := by
  rw [← map_registrations_id]
  exact h.runIds

theorem Separated.approvalIds_nodup (h : S.Separated) : (S.approvals.map ApprovalRow.id).Nodup := by
  have hids : S.approvalFilings.map Prod.fst = S.approvals.map ApprovalRow.id := List.map_map
  exact hids ▸ h.approvalsFiled.apart

theorem Separated.attemptIds_nodup (h : S.Separated) : (S.attempts.map AttemptRow.id).Nodup := by
  have hids : S.attemptFilings.map Prod.fst = S.attempts.map AttemptRow.id := List.map_map
  exact hids ▸ h.attemptsFiled.apart

/-- A run has a name. -/
theorem Separated.run?_ne_nil (h : S.Separated) (hrow : S.run? k = some row) : k ≠ [] := by
  obtain ⟨hmem, rfl⟩ := run?_mem hrow
  exact h.named _ (mem_registrations hmem)

/-- The owner's part of a query by run id is a query of the owner's runs. -/
theorem Separated.run?_filter (h : S.Separated) (B : ResourceOwner) (k : JsString) :
    (S.run? k).filter (fun row ↦ row.owner = B)
      = Table.lookup RunRow.id k (S.runs.filter fun row ↦ row.owner = B) :=
  (Table.lookup_filter h.runIds_nodup k).symm

/-- The owner's part of a query by run id is the same. -/
theorem AlikeOn.run?_filter (h : AlikeOn B I J S T) (hS : S.Separated) (hT : T.Separated)
    (k : JsString) : (S.run? k).filter (fun row ↦ row.owner = B)
      = (T.run? k).filter fun row ↦ row.owner = B := by
  rw [hS.run?_filter, hT.run?_filter, h.runs]

/-- A run of the owner's is found in both stores. -/
theorem AlikeOn.run?_some (h : AlikeOn B I J S T) (hS : S.Separated) (hT : T.Separated)
    (hrow : S.run? k = some row) (howner : row.owner = B) : T.run? k = some row := by
  have hfound := h.run?_filter hS hT k
  rw [hrow, Option.filter_some, if_pos (decide_eq_true howner)] at hfound
  exact (Option.filter_eq_some_iff.mp hfound.symm).1

theorem Separated.ownsRun_iff (h : S.Separated) :
    S.ownsRun B k = true ↔ ∃ row, S.run? k = some row ∧ row.owner = B := by
  rw [ownsRun_eq_true_iff]
  constructor
  · rintro ⟨row, hmem, howner, rfl⟩
    exact ⟨row, run?_of_mem h.runIds_nodup hmem, howner⟩
  · rintro ⟨row, hrow, howner⟩
    exact ⟨row, (run?_mem hrow).1, howner, (run?_mem hrow).2⟩

/-- An operation on a run is issued by its owner. -/
theorem Separated.map_owner_iff (h : S.Separated) :
    (S.run? k).map RunRow.owner = some B ↔ S.ownsRun B k = true := by
  rw [h.ownsRun_iff, Option.map_eq_some_iff]

/-- A session of an owner's run is the owner's. -/
theorem Separated.session_owner (h : S.Separated) (hmem : row ∈ S.runs) {s : SessionRow}
    (hs : s ∈ S.sessions) (hsession : row.sessionInternalId = some s.internalId) :
    s.owner = row.owner := by
  obtain ⟨_, _, _, _, s', hs', -, -, howner, -, -, -, hid, -⟩ := h.refers _ (mem_registrations hmem)
  have hids : s'.internalId = s.internalId := Option.some.inj (hid.symm.trans hsession)
  obtain rfl : s' = s := List.inj_on_of_nodup_map h.sessionIds hs' hs hids
  exact howner

/-- An agent of a run is its owner's. -/
theorem Separated.agent_owner (h : S.Separated) (hmem : row ∈ S.runs) {a : AgentRow}
    (ha : a ∈ S.agents) (hagent : row.agentInternalId = some a.internalId) :
    a.owner = row.owner := by
  obtain ⟨a', ha', _, _, _, _, hkey, -, -, -, hid, -⟩ := h.refers _ (mem_registrations hmem)
  have hids : a'.internalId = a.internalId := Option.some.inj (hid.symm.trans hagent)
  obtain rfl : a' = a := List.inj_on_of_nodup_map h.agentIds ha' ha hids
  exact (Prod.mk.inj hkey).1

/-- An agent of a session is the owner's of the session. -/
theorem Separated.sessionAgent_owner (h : S.Separated) {s : SessionRow} (hs : s ∈ S.sessions)
    {a : AgentRow} (ha : a ∈ S.agents) (hagent : s.agentInternalId = a.internalId) :
    a.owner = s.owner := by
  obtain ⟨a', ha', hid, howner⟩ := h.sessionAgents s hs
  obtain rfl : a' = a := List.inj_on_of_nodup_map h.agentIds ha' ha (hid.trans hagent)
  exact howner

/-- Only the owner's runs can have a key scoped to the owner. -/
theorem Separated.existingRun_eq (h : S.Separated) (B : ResourceOwner) (key : JsString) :
    S.existingRun B (scopedIdempotencyKey B.userId key)
      = (S.runs.filter fun row ↦ row.owner = B).find?
          fun row ↦ row.idempotencyKey = scopedIdempotencyKey B.userId key := by
  rw [existingRun, List.find?_filter, ← List.head?_filter, ← List.head?_filter]
  refine congrArg List.head? (List.filter_congr fun row hrow ↦ ?_)
  rw [Bool.eq_iff_iff]
  simp only [decide_eq_true_eq]
  constructor
  · rintro ⟨happ, htenant, hkey⟩
    obtain ⟨key', hkey'⟩ := h.keyed _ (mem_registrations hrow)
    have huser := (scopedIdempotencyKey_inj (hkey'.symm.trans hkey)).1
    refine ⟨?_, hkey⟩
    rcases hB : B with ⟨app, tenant, user⟩
    rw [hB] at happ htenant huser
    rcases howner : row.owner with ⟨app', tenant', user'⟩
    have huser' : row.owner.userId = user := huser
    rw [howner] at happ htenant huser'
    simp only at happ htenant huser'
    rw [happ, htenant, huser']
  · rintro ⟨rfl, hkey⟩
    exact ⟨rfl, rfl, hkey⟩

theorem AlikeOn.existingRun_eq (h : AlikeOn B I J S T) (hS : S.Separated) (hT : T.Separated)
    (key : JsString) : S.existingRun B (scopedIdempotencyKey B.userId key)
      = T.existingRun B (scopedIdempotencyKey B.userId key) := by
  rw [hS.existingRun_eq, hT.existingRun_eq, h.runs]

theorem AlikeOn.agent?_eq (h : AlikeOn B I J S T) : S.agent? B k = T.agent? B k := by
  have hown : ∀ r : AgentRow, (r.owner, r.id) = (B, k) → decide (r.owner = B) = true :=
    fun r hr ↦ decide_eq_true (Prod.mk.inj hr).1
  rw [agent?, ← Table.lookup_filter_of_key hown, h.agents, Table.lookup_filter_of_key hown, agent?]

theorem AlikeOn.workspace?_eq (h : AlikeOn B I J S T) : S.workspace? B k = T.workspace? B k := by
  have hown : ∀ r : WorkspaceRow, (r.owner, r.id) = (B, k) → decide (r.owner = B) = true :=
    fun r hr ↦ decide_eq_true (Prod.mk.inj hr).1
  rw [workspace?, ← Table.lookup_filter_of_key hown, h.workspaces,
    Table.lookup_filter_of_key hown, workspace?]

theorem AlikeOn.session?_eq (h : AlikeOn B I J S T) : S.session? B k = T.session? B k := by
  have hown : ∀ r : SessionRow, (r.owner, r.id) = (B, k) → decide (r.owner = B) = true :=
    fun r hr ↦ decide_eq_true (Prod.mk.inj hr).1
  rw [session?, ← Table.lookup_filter_of_key hown, h.sessions, Table.lookup_filter_of_key hown,
    session?]

theorem AlikeOn.connection?_eq (h : AlikeOn B I J S T) : S.connection? B k = T.connection? B k := by
  have hown : ∀ r : ProviderConnectionRow, (r.owner, r.id) = (B, k) → decide (r.owner = B) = true :=
    fun r hr ↦ decide_eq_true (Prod.mk.inj hr).1
  rw [connection?, ← Table.lookup_filter_of_key hown, h.connections,
    Table.lookup_filter_of_key hown, connection?]

/-- The owner's part of a query by approval id is the same. -/
theorem AlikeOn.approval?_filter (h : AlikeOn B I J S T) (hS : S.Separated) (hT : T.Separated)
    (k : JsString) :
    (S.approval? k).filter (fun a ↦ I a.runId) = (T.approval? k).filter fun a ↦ I a.runId := by
  rw [approval?, ← Table.lookup_filter hS.approvalIds_nodup, h.approvals,
    Table.lookup_filter hT.approvalIds_nodup, approval?]

theorem AlikeOn.attempt_filter (h : AlikeOn B I J S T) (hS : S.Separated) (hT : T.Separated)
    (k : JsString) : (Table.lookup AttemptRow.id k S.attempts).filter (fun a ↦ I a.runId)
      = (Table.lookup AttemptRow.id k T.attempts).filter fun a ↦ I a.runId := by
  rw [← Table.lookup_filter hS.attemptIds_nodup, h.attempts,
    Table.lookup_filter hT.attemptIds_nodup]

end Queries

end Store

end LiteHarness
