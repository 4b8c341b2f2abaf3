import LiteHarness.Storage.OwnOperations

/-!
# Owners do not interfere

The operations of other principals leave an owner's rows as they are, whatever ids, keys and
parents they name; his own operations do the same in stores that are alike for him. Unwinding gives
the guarantee over histories: what an owner is told depends on his own operations only.

The guarantee is about what is asked under his name. `getRun` and `listEvents` take a run id and no
principal, so they answer for any run; their callers compare the owner of the run first.
-/

namespace LiteHarness

open Foundation Foundation.Eff

/-- The operations on leases. -/
def StoreOp.IsLease : StoreOp → Prop
  | acquireWorkspaceLease .. | renewWorkspaceLease .. | releaseWorkspaceLease .. => True
  | _ => False

namespace Store

variable {B : ResourceOwner} {S T : Store} {k : JsString}

/-! ## What others do -/

theorem Alike.of_lease (B : ResourceOwner) (S : Store) (leases : List LeaseRow) :
    Alike B S { S with leases } := { Alike.refl B S with }

theorem Alike.of_attempts (p : AttemptRow → Bool) {f : AttemptRow → AttemptRow}
    (hrun : ∀ a, (f a).runId = a.runId)
    (hother : ∀ a ∈ S.attempts, p a = true → S.ownsRun B a.runId = false) :
    Alike B S { S with attempts := Table.update p f S.attempts } := by
  have hcond : ∀ a, S.ownsRun B (f a).runId = S.ownsRun B a.runId := fun a ↦ by rw [hrun]
  exact { Alike.refl B S with
    attempts := (Table.filter_update_of_disjoint (q := fun a : AttemptRow ↦ S.ownsRun B a.runId) hcond
      hother).symm }

theorem Alike.of_endAttempts (hother : S.ownsRun B k = false) (now : ℤ) (status : RunStatus) :
    Alike B S (endAttempts now k status S) := by
  refine Alike.of_attempts _ (fun _ ↦ rfl) fun a _ ha ↦ ?_
  rw [(of_decide_eq_true ha).1]
  exact hother

theorem Alike.of_updateRun (hother : S.ownsRun B k = false) {f : RunRow → RunRow}
    (howner : ∀ r, (f r).owner = r.owner) : Alike B S (updateRun k f S) := by
  have hcond : ∀ r, decide ((f r).owner = B) = decide (r.owner = B) := fun r ↦ by rw [howner]
  refine { Alike.refl B S with runs := (Table.filter_update_of_disjoint hcond ?_).symm }
  intro r hr hid
  refine decide_eq_false fun hB ↦ Bool.false_ne_true (hother.symm.trans ?_)
  exact ownsRun_eq_true_iff.mpr ⟨r, hr, hB, of_decide_eq_true hid⟩

theorem Alike.of_event {e : EventRow} (hother : S.ownsRun B e.runId = false) :
    Alike B S { S with events := S.events ++ [e] } := by
  refine { Alike.refl B S with events := ?_ }
  rw [List.filter_append, List.filter_cons_of_neg (by simp [hother]), List.filter_nil,
    List.append_nil]

/-- An update of runs keeps who owns which. -/
theorem ownsRun_updateRun (j : JsString) {f : RunRow → RunRow}
    (hkeys : ∀ r, (f r).owner = r.owner ∧ (f r).id = r.id) :
    (updateRun j f S).ownsRun B k = S.ownsRun B k := by
  rw [Bool.eq_iff_iff, ownsRun_iff_mem_map, ownsRun_iff_mem_map, updateRun,
    Table.map_update (g := fun r : RunRow ↦ (r.owner, r.id)) fun r ↦ by
      rw [(hkeys r).1, (hkeys r).2]]

/-- An event for a run of someone else. -/
theorem Alike.of_recorded {createdAt : ℤ} {params : AppendRunEvent} {row : RunRow}
    (hother : S.ownsRun B params.runId = false) : Alike B S (S.recorded createdAt params row) := by
  have hevent : Alike B S _ := Alike.of_event (e := eventOf createdAt params row) hother
  have hrun : Alike B S (updateRun params.runId (appended createdAt params)
      { S with events := S.events ++ [eventOf createdAt params row] }) :=
    hevent.trans (by
      refine Alike.of_updateRun ?_ fun _ ↦ rfl
      exact hother)
  have hstill : (updateRun params.runId (appended createdAt params)
      { S with events := S.events ++ [eventOf createdAt params row] }).ownsRun B params.runId
        = false := by
    rw [ownsRun_updateRun]
    · exact hother
    · exact fun _ ↦ ⟨rfl, rfl⟩
  rw [recorded_eq]
  cases params.status with
  | none => exact hrun
  | some status =>
    dsimp only
    by_cases hterminal : status.isTerminalRunStatus = true
    · rw [if_pos hterminal]
      exact hrun.trans (Alike.of_endAttempts hstill _ _)
    · rw [if_neg hterminal]
      exact hrun

theorem Alike.of_setApproval (hS : S.Separated) {a : ApprovalRow} (ha : S.approval? k = some a)
    (hother : S.ownsRun B a.runId = false) (status : ApprovalStatus) (now : ℤ) :
    Alike B S (setApproval k status now S) := by
  have hcond : ∀ b : ApprovalRow,
      S.ownsRun B (b.resolve status now).runId = S.ownsRun B b.runId := fun _ ↦ rfl
  refine { Alike.refl B S with
    approvals := (Table.filter_update_of_disjoint (q := fun b : ApprovalRow ↦ S.ownsRun B b.runId)
      hcond
      fun b hb hid ↦ ?_).symm }
  have hfound := Table.lookup_of_mem hS.approvalIds_nodup hb
  rw [of_decide_eq_true hid] at hfound
  obtain rfl := Option.some.inj (hfound.symm.trans ha)
  exact hother

theorem Alike.of_message {m : MessageRow} (hother : S.ownsSession B m.sessionInternalId = false) :
    Alike B S { S with messages := S.messages ++ [m] } := by
  refine { Alike.refl B S with messages := ?_ }
  rw [List.filter_append, List.filter_cons_of_neg (by simp [hother]), List.filter_nil,
    List.append_nil]

/-- A session that belongs to one owner is not another's. -/
theorem Linked.not_ownsSession (hS : S.Linked) {s : SessionRow} (hs : s ∈ S.sessions)
    (hother : s.owner ≠ B) : S.ownsSession B s.internalId = false := by
  refine Bool.eq_false_iff.mpr fun howns ↦ ?_
  obtain ⟨s', hs', howner, hid⟩ := ownsSession_eq_true_iff.mp howns
  obtain rfl : s' = s := List.inj_on_of_nodup_map hS.sessionIds hs' hs hid
  exact hother howner

/-- A run that someone else has created. -/
theorem Alike.of_admitted {now : ℤ} {id fingerprint : JsString} {request : InternalStartRunRequest}
    {agent : AgentRow} {workspace : WorkspaceRow} {session : SessionRow} (hS : S.Separated)
    (h : Admitted now id fingerprint request agent workspace session S T)
    (hattempts : T.attempts = S.attempts) (hother : request.principal ≠ B) : Alike B S T := by
  have hagent : agent.owner = request.principal := (Prod.mk.inj h.agents.key_eq).1
  have hworkspace : workspace.owner = request.principal := (Prod.mk.inj h.workspaces.key_eq).1
  have hsession : session.owner = request.principal := (Prod.mk.inj h.sessions.key_eq).1
  obtain ⟨m, -, hm, hmessages⟩ := h.messages
  have hnotMine : S.ownsSession B m.sessionInternalId = false := by
    -- a session of the owner's would be there after the creation too
    refine Bool.eq_false_iff.mpr fun howns ↦ ?_
    obtain ⟨s, hs, howner, hid⟩ := ownsSession_eq_true_iff.mp howns
    have hnot := (hS.toLinked.admitted h).not_ownsSession h.sessions.mem (hsession ▸ hother)
    refine Bool.false_ne_true (hnot.symm.trans (ownsSession_eq_true_iff.mpr ?_))
    exact ⟨s, h.sessions.keeps hs, howner, hid.trans hm⟩
  have hfresh : S.ownsRun B id = false := by
    refine Bool.eq_false_iff.mpr fun howns ↦ ?_
    obtain ⟨row, hrow, -, hid⟩ := ownsRun_eq_true_iff.mp howns
    exact h.fresh row hrow hid
  refine
    { runs := ?_, agents := ?_, workspaces := ?_, sessions := ?_, connections := ?_, events := ?_,
      approvals := ?_, attempts := ?_, messages := ?_, ownRuns := fun _ hk ↦ hk,
      ownSessions := fun _ hk ↦ hk }
  · rw [h.runs, List.filter_append, List.filter_cons_of_neg, List.filter_nil, List.append_nil]
    exact fun hB ↦ hother (of_decide_eq_true hB)
  · exact (h.agents.filter_eq (decide_eq_false (hagent ▸ hother))).symm
  · exact (h.workspaces.filter_eq (decide_eq_false (hworkspace ▸ hother))).symm
  · exact (h.sessions.filter_eq (decide_eq_false (hsession ▸ hother))).symm
  · rw [h.connections]
  · rw [h.events, List.filter_append, List.filter_cons_of_neg (by simp [acceptedEvent, hfresh]),
      List.filter_nil, List.append_nil]
  · rw [h.approvals]
  · rw [hattempts]
  · rw [hmessages, List.filter_append, List.filter_cons_of_neg (by simp [hnotMine]),
      List.filter_nil, List.append_nil]

/-- A creation changes nothing, or admits a run. -/
theorem createOrGetRun_apply (P : Platform) (now : ℤ) (fresh : FreshInternalIds) (id : JsString)
    (request : InternalStartRunRequest) (S : Store) :
    StoreOp.apply P (.createOrGetRun now fresh id request) S = S ∨
      ∃ agent workspace session, Admitted now id (P.requestFingerprint request) request agent
        workspace session S (StoreOp.apply P (.createOrGetRun now fresh id request) S) ∧
        (StoreOp.apply P (.createOrGetRun now fresh id request) S).attempts = S.attempts := by
  rcases hrun : (StoreOp.call P (.createOrGetRun now fresh id request)).run S with ⟨e | u, S'⟩
  · rw [StoreOp.apply, hrun]
    exact Or.inl (StoreOp.call_atomic P _ S e S' hrun)
  rw [StoreOp.apply, hrun]
  obtain ⟨⟨run, created⟩, hcall⟩ := discard_eq_ok hrun
  have hcases := createOrGetRun_cases P now fresh id request S
  split at hcases
  · split_ifs at hcases
    · exact Or.inl (congrArg Prod.snd (hcall.symm.trans hcases))
    · exact absurd (hcall.symm.trans hcases) (by simp)
  · rw [hcases, transaction_eq_ok_iff] at hcall
    obtain ⟨row, _, hrow, hpure⟩ := bind_eq_ok_iff.mp hcall
    obtain ⟨-, rfl⟩ := pure_eq_ok_iff.mp hpure
    obtain ⟨agent, workspace, session, -, hadmitted⟩ := createRun_admitted hrow
    exact Or.inr ⟨agent, workspace, session, hadmitted, (createRun_eq_ok hrow).attempts⟩

/-- A message is appended to the session of its run, or nothing is. -/
theorem appendSessionMessage_apply (P : Platform) (createdAt : ℤ) (params : AppendSessionMessage)
    (S : Store) :
    StoreOp.apply P (.appendSessionMessage createdAt params) S = S ∨
      ∃ message run, S.run? params.runId = some run ∧
        run.sessionInternalId = some message.sessionInternalId ∧
        StoreOp.apply P (.appendSessionMessage createdAt params) S
          = { S with messages := S.messages ++ [message] } := by
  rcases hrun : (StoreOp.call P (.appendSessionMessage createdAt params)).run S with ⟨e | u, S'⟩
  · rw [StoreOp.apply, hrun]
    exact Or.inl (StoreOp.call_atomic P _ S e S' hrun)
  rw [StoreOp.apply, hrun]
  obtain ⟨message, hcall⟩ := discard_eq_ok hrun
  obtain ⟨run, hrow, -, hsession, rfl⟩ := appendSessionMessage_registers hcall
  exact Or.inr ⟨message, run, hrow, hsession, rfl⟩

/-- What an operation on agents, workspaces or connections of someone else leaves. -/
theorem Alike.of_configuration {P : Platform} {op : StoreOp} (hop : op.IsConfiguration)
    (hother : op.issuer S ≠ some B) : Alike B S (op.apply P S) := by
  rcases hrun : (op.call P).run S with ⟨e | u, S'⟩
  · rw [StoreOp.apply, hrun, op.call_atomic P S e S' hrun]
    exact .refl B S
  rw [StoreOp.apply, hrun]
  have hne : ∀ {owner : ResourceOwner}, some owner ≠ some B → decide (owner = B) = false :=
    fun h ↦ decide_eq_false fun heq ↦ h (congrArg some heq)
  cases op with
  | createAgentProfile internalId record =>
    obtain ⟨_, hcall⟩ := discard_eq_ok hrun
    rw [Store.createAgentProfile, bind_eq_ok_iff] at hcall
    obtain ⟨_, _, hinsert, hget⟩ := hcall
    obtain ⟨-, -, rfl⟩ := insertAgent_eq_ok_iff.mp hinsert
    rw [run_get_bind, pure_eq_ok_iff] at hget
    obtain ⟨-, rfl⟩ := hget
    refine { Alike.refl B S with agents := ?_ }
    rw [List.filter_append, List.filter_cons_of_neg (by simpa using hne hother), List.filter_nil,
      List.append_nil]
  | deleteAgentProfile id owner =>
    obtain ⟨_, hcall⟩ := discard_eq_ok hrun
    rw [Store.deleteAgentProfile, run_get_bind] at hcall
    split at hcall
    · rw [(pure_eq_ok_iff.mp hcall).2]
      exact .refl B S
    · split_ifs at hcall
      · rw [(pure_eq_ok_iff.mp hcall).2]
        exact .refl B S
      · rw [run_modify_bind, pure_eq_ok_iff] at hcall
        obtain ⟨-, rfl⟩ := hcall
        refine { Alike.refl B S with agents := (filter_filter_of_imp fun a _ ha ↦ ?_).symm }
        refine decide_eq_true fun hdeleted ↦ hother ?_
        exact congrArg some (hdeleted.1.symm.trans (of_decide_eq_true ha))
  | createWorkspace internalId record =>
    obtain ⟨-, -, rfl⟩ := insertWorkspace_eq_ok_iff.mp hrun
    refine { Alike.refl B S with workspaces := ?_ }
    rw [List.filter_append, List.filter_cons_of_neg (by simpa using hne hother), List.filter_nil,
      List.append_nil]
  | updateWorkspaceState updatedAt id owner expected state =>
    obtain ⟨_, hcall⟩ := discard_eq_ok hrun
    rw [Store.updateWorkspaceState, run_get_bind] at hcall
    split at hcall
    · rw [(pure_eq_ok_iff.mp hcall).2]
      exact .refl B S
    · split_ifs at hcall
      · rw [run_modify_bind, pure_eq_ok_iff] at hcall
        obtain ⟨-, rfl⟩ := hcall
        have hcond : ∀ w : WorkspaceRow,
            decide (({ w with state, updatedAt } : WorkspaceRow).owner = B)
              = decide (w.owner = B) := fun _ ↦ rfl
        refine { Alike.refl B S with
          workspaces := (Table.filter_update_of_disjoint hcond fun w _ hw ↦ ?_).symm }
        rw [(of_decide_eq_true hw).1]
        exact hne hother
      · rw [(pure_eq_ok_iff.mp hcall).2]
        exact .refl B S
  | createProviderConnection internalId record =>
    simp only [StoreOp.call, Store.createProviderConnection, run_get_bind, require_bind_eq_ok_iff,
      modify_eq_ok_iff] at hrun
    obtain ⟨-, -, -, rfl⟩ := hrun
    refine { Alike.refl B S with connections := ?_ }
    rw [List.filter_append, List.filter_cons_of_neg (by simpa using hne hother), List.filter_nil,
      List.append_nil]
  | updateProviderConnection updatedAt id owner status lastErrorCode =>
    obtain rfl := modify_eq_ok_iff.mp hrun
    have hcond : ∀ c : ProviderConnectionRow,
        decide (({ c with status, lastErrorCode, updatedAt } : ProviderConnectionRow).owner = B)
          = decide (c.owner = B) := fun _ ↦ rfl
    refine { Alike.refl B S with
      connections := (Table.filter_update_of_disjoint hcond fun c _ hc ↦ ?_).symm }
    rw [(of_decide_eq_true hc).1]
    exact hne hother
  | deleteProviderConnection id owner =>
    obtain rfl := modify_eq_ok_iff.mp hrun
    refine { Alike.refl B S with connections := (filter_filter_of_imp fun c _ hc ↦ ?_).symm }
    refine decide_eq_true fun hdeleted ↦ hother ?_
    exact congrArg some (hdeleted.1.symm.trans (of_decide_eq_true hc))
  | _ => exact absurd hop id

/-- Whoever issues it, an operation on leases leaves everyone's rows. -/
theorem Alike.of_leases (P : Platform) {op : StoreOp} (hop : op.IsLease) (S : Store) :
    Alike B S (op.apply P S) := by
  rcases op.cases P S with heq | hchange
  · rw [heq]
    exact .refl B S
  generalize op.apply P S = S' at hchange
  cases hchange with
  | acquired hacquired =>
    rw [hacquired.store]
    exact Alike.of_lease B S _
  | renewed => exact Alike.of_lease B S _
  | released => exact Alike.of_lease B S _
  | configured hconfig =>
    cases op with
    | _ => first | exact absurd hop id | exact absurd hconfig id
  | _ => exact absurd hop id

/-- **What others do leaves an owner's rows as they are.** -/
theorem Alike.of_other (P : Platform) (hS : S.Separated) {op : StoreOp}
    (hother : op.issuer S ≠ some B) : Alike B S (op.apply P S) := by
  have hforeign : ∀ {j : JsString}, ¬(S.run? j).map RunRow.owner = some B →
      S.ownsRun B j = false := fun h ↦ Bool.eq_false_iff.mpr fun howns ↦
    h (hS.map_owner_iff.mpr howns)
  -- the issuer of an operation on a record is the owner of the record's run
  have hrecord : ∀ {ρ : Type} {query : Option ρ} {run : ρ → JsString} {r : ρ}, query = some r →
      ¬(query.bind fun r ↦ (S.run? (run r)).map RunRow.owner) = some B →
      S.ownsRun B (run r) = false := by
    rintro ρ _ run r rfl h
    exact hforeign h
  rcases op.cases P S with heq | hchange
  · rw [heq]
    exact .refl B S
  generalize happly : op.apply P S = S' at hchange ⊢
  cases hchange with
  | @created now fresh id request =>
    rcases createOrGetRun_apply P now fresh id request S with
      heq | ⟨_, _, _, hadmitted, hattempts⟩
    · rw [← happly, heq]
      exact .refl B S
    · rw [happly] at hadmitted hattempts
      exact .of_admitted hS hadmitted hattempts fun heq ↦ hother (congrArg some heq)
  | appended => exact .of_recorded (hforeign hother)
  | @message createdAt _ _ params =>
    rcases appendSessionMessage_apply P createdAt params S with
      heq | ⟨message, run, hrow, hsession, heq⟩
    · rw [← happly, heq]
      exact .refl B S
    · rw [← happly, heq]
      refine .of_message ?_
      -- the session of the run is its owner's
      obtain ⟨_, _, _, _, s, hs, -, -, howner, -, -, -, hid, -⟩ :=
        hS.refers _ (mem_registrations (run?_mem hrow).1)
      have hsame : s.internalId = message.sessionInternalId :=
        Option.some.inj (hid.symm.trans hsession)
      rw [← hsame]
      refine hS.not_ownsSession hs fun hB ↦ hother ?_
      rw [StoreOp.issuer, hrow, Option.map_some, ← hB, howner]
      rfl
  | usage => exact .of_updateRun (hforeign hother) fun _ ↦ rfl
  | acquired =>
    rw [← happly]
    refine .of_leases P ?_ S
    exact trivial
  | renewed =>
    rw [← happly]
    refine .of_leases P ?_ S
    exact trivial
  | released =>
    rw [← happly]
    refine .of_leases P ?_ S
    exact trivial
  | approvalCreated =>
    refine { Alike.refl B S with approvals := ?_ }
    rw [List.filter_append, List.filter_cons_of_neg (by simp [hforeign hother]), List.filter_nil,
      List.append_nil]
  | approvalResolved hrow => exact .of_setApproval hS hrow (hrecord hrow hother) _ _
  | approvalRecorded hrow =>
    have hown := hrecord hrow hother
    refine (Alike.of_setApproval hS hrow hown _ _).trans (.of_recorded ?_)
    exact hown
  | @attemptCreated _ runId _ attempt _ hattempt =>
    have hown : S.ownsRun B attempt.runId = false := hattempt ▸ hforeign hother
    refine { Alike.refl B S with attempts := ?_ }
    rw [List.filter_append, List.filter_cons_of_neg (by simp [hown]), List.filter_nil,
      List.append_nil]
  | attemptCompleted =>
    refine .of_attempts _ (fun _ ↦ rfl) fun a ha hp ↦ ?_
    have hfound := Table.lookup_of_mem hS.attemptIds_nodup ha
    rw [(of_decide_eq_true hp).1] at hfound
    exact hrecord hfound hother
  | attemptsCompleted => exact .of_endAttempts (hforeign hother) _ _
  | configured hconfig =>
    rw [← happly]
    exact .of_configuration hconfig hother

/-! ## What the owner does -/

/-- **What an owner does, does the same to his rows in alike stores.** -/
theorem Alike.of_own (P : Platform) (h : Alike B S T) (hS : S.Separated) (hT : T.Separated)
    {op : StoreOp} (hfreshS : op.DrawsFresh S) (hfreshT : op.DrawsFresh T)
    (hown : op.issuer S = some B) : Alike B (op.apply P S) (op.apply P T) := by
  have hrun : ∀ {j : JsString}, (S.run? j).map RunRow.owner = some B → S.ownsRun B j = true :=
    fun h ↦ hS.map_owner_iff.mp h
  by_cases hlease : op.IsLease
  · exact ((Alike.of_leases P hlease S).symm.trans h).trans (.of_leases P hlease T)
  cases op with
  | createOrGetRun now fresh id request =>
    obtain rfl := Option.some.inj hown
    exact (h.createOrGetRun P hS hT hfreshS hfreshT).discard.2
  | appendEvent createdAt params => exact (h.appendEvent hS hT (hrun hown) createdAt).discard.2
  | appendSessionMessage createdAt params =>
    exact (h.appendSessionMessage hS hT (hrun hown) hfreshS hfreshT createdAt).discard.2
  | recordUsage updatedAt runId delta =>
    exact (h.recordUsage hS hT (hrun hown) updatedAt delta).discard.2
  | createApproval record => exact (h.createApproval hS hT (hrun hown) hfreshS hfreshT).discard.2
  | resolveApproval resolvedAt id status digest =>
    exact (h.resolveApproval hS hT hown resolvedAt status digest).discard.2
  | resolveApprovalAndAppendEvent resolvedAt createdAt id status digest payload =>
    exact (h.resolveApprovalAndAppendEvent hS hT hown resolvedAt createdAt status digest
      payload).discard.2
  | createRunAttempt startedAt runId id =>
    exact (h.createRunAttempt hS hT (hrun hown) hfreshS hfreshT startedAt).discard.2
  | completeRunAttempt now id status => exact (h.completeRunAttempt hS hT hown now status).discard.2
  | completeRunningAttempts now runId status =>
    exact (h.completeRunningAttempts (hrun hown) now status).discard.2
  | createAgentProfile internalId record =>
    obtain rfl := Option.some.inj hown
    exact (h.createAgentProfile hfreshS hfreshT).discard.2
  | deleteAgentProfile id owner =>
    obtain rfl := Option.some.inj hown
    exact (h.deleteAgentProfile hS hT id).discard.2
  | createWorkspace internalId record =>
    obtain rfl := Option.some.inj hown
    exact (h.createWorkspace hfreshS hfreshT).2
  | updateWorkspaceState updatedAt id owner expected state =>
    obtain rfl := Option.some.inj hown
    exact (h.updateWorkspaceState updatedAt id expected state).discard.2
  | createProviderConnection internalId record =>
    obtain rfl := Option.some.inj hown
    exact (h.createProviderConnection hfreshS hfreshT).2
  | updateProviderConnection updatedAt id owner status lastErrorCode =>
    obtain rfl := Option.some.inj hown
    exact (h.updateProviderConnection updatedAt id status lastErrorCode).2
  | deleteProviderConnection id owner =>
    obtain rfl := Option.some.inj hown
    exact (h.deleteProviderConnection id).2
  | _ => exact absurd trivial hlease

/-- A query by run id and a comparison of the owner, in alike stores. -/
theorem AlikeOn.runOwner_iff {I J : JsString → Bool} (h : AlikeOn B I J S T) (hS : S.Separated)
    (hT : T.Separated) :
    (S.run? k).map RunRow.owner = some B ↔ (T.run? k).map RunRow.owner = some B := by
  rw [hS.map_owner_iff, hT.map_owner_iff, h.ownsRun_eq]

/-- A query for a record and then for its run, in alike stores. -/
theorem recordOwner_iff {ρ : Type} {run : ρ → JsString} {q q' : Option ρ} (h : Alike B S T)
    (hS : S.Separated) (hT : T.Separated)
    (hq : q.filter (fun r ↦ S.ownsRun B (run r)) = q'.filter fun r ↦ S.ownsRun B (run r)) :
    (q.bind fun r ↦ (S.run? (run r)).map RunRow.owner) = some B ↔
      (q'.bind fun r ↦ (T.run? (run r)).map RunRow.owner) = some B := by
  have hiff : ∀ {U : Store}, U.Separated → U.ownsRun B = S.ownsRun B → ∀ p : Option ρ,
      (p.bind fun r ↦ (U.run? (run r)).map RunRow.owner) = some B ↔
        (p.filter fun r ↦ S.ownsRun B (run r)).isSome = true := by
    intro U hU heq p
    cases p with
    | none => simp
    | some r =>
      rw [Option.bind_some, hU.map_owner_iff, heq, Option.filter_some]
      by_cases howns : S.ownsRun B (run r) = true
      · simp [howns]
      · simp [howns]
  rw [hiff hS rfl, hiff hT (AlikeOn.ownsRun_eq h), hq]

/-- Alike stores take the same operations for the owner's. -/
theorem Alike.issuer_iff (h : Alike B S T) (hS : S.Separated) (hT : T.Separated) (op : StoreOp) :
    op.issuer S = some B ↔ op.issuer T = some B := by
  have hrun : ∀ j, (S.run? j).map RunRow.owner = some B ↔ (T.run? j).map RunRow.owner = some B :=
    fun j ↦ AlikeOn.runOwner_iff h hS hT
  cases op with
  | appendEvent => exact hrun _
  | appendSessionMessage => exact hrun _
  | recordUsage => exact hrun _
  | acquireWorkspaceLease => exact hrun _
  | renewWorkspaceLease => exact hrun _
  | releaseWorkspaceLease => exact hrun _
  | createApproval => exact hrun _
  | createRunAttempt => exact hrun _
  | completeRunningAttempts => exact hrun _
  | resolveApproval => exact recordOwner_iff h hS hT (AlikeOn.approval?_filter h hS hT _)
  | resolveApprovalAndAppendEvent =>
    exact recordOwner_iff h hS hT (AlikeOn.approval?_filter h hS hT _)
  | completeRunAttempt => exact recordOwner_iff h hS hT (AlikeOn.attempt_filter h hS hT _)
  | _ => exact Iff.rfl

/-! ## The guarantee -/

/-- The steps of an owner, among those of others, unwind. -/
theorem unwinding (P : Platform) (B : ResourceOwner) :
    Unwinding (fun S op ↦ StoreOp.apply P op S) (fun S op ↦ op.issuer S = some B)
      (fun S op ↦ op.DrawsFresh S) Separated (Alike B) where
  refl := Alike.refl B
  symm _ _ := Alike.symm
  trans _ _ _ := Alike.trans
  preserves _ _ hS hfresh := hS.apply hfresh
  agrees _ _ op hS hT h := h.issuer_iff hS hT op
  respects _ _ hS _ hother := .of_other P hS hother
  consistent _ _ _ hS hT h hfreshS hfreshT hown _ := .of_own P h hS hT hfreshS hfreshT hown

/-- A run by id, for a principal: nothing unless it is his. -/
def getRunOf (S : Store) (principal : ResourceOwner) (id : JsString) : Option RunRecord :=
  (S.getRun id).filter fun run ↦ run.owner = principal

/-- The events of a run by id, for a principal: nothing unless the run is his. -/
def listEventsOf (S : Store) (principal : ResourceOwner) (id : JsString) (after limit : ℕ) :
    List EventRow :=
  if (S.getRunOf principal id).isSome then S.listEvents id after limit else []

theorem getRunOf_eq_map (S : Store) (B : ResourceOwner) (id : JsString) :
    S.getRunOf B id = ((S.run? id).filter fun row ↦ row.owner = B).map toRunRecord := by
  rw [getRunOf, getRun, Option.filter_map]
  rfl

theorem AlikeOn.getRunOf_eq {I J : JsString → Bool} (h : AlikeOn B I J S T) (hS : S.Separated)
    (hT : T.Separated) (id : JsString) : S.getRunOf B id = T.getRunOf B id := by
  rw [getRunOf_eq_map, getRunOf_eq_map, h.run?_filter hS hT]

theorem getRunOf_isSome (hS : S.Separated) {id : JsString} :
    (S.getRunOf B id).isSome = true ↔ S.ownsRun B id = true := by
  rw [hS.ownsRun_iff, getRunOf_eq_map, Option.isSome_map, Option.isSome_iff_exists]
  simp only [Option.filter_eq_some_iff, decide_eq_true_eq]

theorem AlikeOn.listEventsOf_eq (h : Alike B S T) (hS : S.Separated) (hT : T.Separated)
    (id : JsString) (after limit : ℕ) :
    S.listEventsOf B id after limit = T.listEventsOf B id after limit := by
  rw [listEventsOf, listEventsOf, AlikeOn.getRunOf_eq h hS hT]
  by_cases hmine : (T.getRunOf B id).isSome = true
  · rw [if_pos hmine, if_pos hmine, listEvents, listEvents]
    have howns : S.ownsRun B id = true := by
      rw [← AlikeOn.ownsRun_eq h]
      exact (getRunOf_isSome hT).mp hmine
    rw [filter_of_filter_eq (AlikeOn.events h) fun e he ↦ ?_]
    rw [(of_decide_eq_true he).1]
    exact howns
  · rw [if_neg hmine, if_neg hmine]

theorem AlikeOn.listSessionMessages_eq (h : Alike B S T) (sessionId : JsString) (limit : ℕ) :
    S.listSessionMessages sessionId B limit = T.listSessionMessages sessionId B limit := by
  have hsame := AlikeOn.session?_eq h (k := sessionId)
  rw [listSessionMessages, listSessionMessages, hsame]
  cases hsession : T.session? B sessionId with
  | none => rfl
  | some session =>
    rw [hsession] at hsame
    have hkey : session.key = (B, sessionId) := Table.key_of_lookup hsame
    have howns : S.ownsSession B session.internalId = true :=
      ownsSession_eq_true_iff.mpr ⟨session, Table.mem_of_lookup hsame, (Prod.mk.inj hkey).1, rfl⟩
    dsimp only
    rw [filter_of_filter_eq (AlikeOn.messages h) fun m hm ↦ ?_]
    rw [of_decide_eq_true hm]
    exact howns

def alice : ResourceOwner := ⟨js "app", js "tenant", js "alice"⟩
def bob : ResourceOwner := ⟨js "app", js "tenant", js "bob"⟩

/-- The same creation for either of them, with ids of its own. -/
def creationOf (principal : ResourceOwner) (n : String) : StoreOp :=
  .createOrGetRun 0 ⟨js "agt_" ++ js n, js "wsp_" ++ js n, js "ses_" ++ js n⟩ (js "run_" ++ js n)
    { agent := js "agent", workspace := js "workspace", session := some (js "session")
      input := js "hello", idempotencyKey := js "key", principal }

/-- A creation for someone else is not among the calls of a principal. -/
theorem callsOf_creation {P : Platform} {principal B : ResourceOwner} (h : principal ≠ B)
    (n : String) (S : Store) (history : List StoreOp) :
    ownSteps (fun S op ↦ StoreOp.apply P op S) (fun S op ↦ op.issuer S = some B) S
        (creationOf principal n :: history)
      = ownSteps (fun S op ↦ StoreOp.apply P op S) (fun S op ↦ op.issuer S = some B)
          ((creationOf principal n).apply P S) history := by
  have hother : ¬(creationOf principal n).issuer S = some B := fun heq ↦ h (Option.some.inj heq)
  rw [ownSteps, if_neg hother]

def bobAlone : GeneratedHistory referencePlatform where
  calls := [creationOf bob "1"]
  fresh := by decide +kernel

def bobAfterAlice : GeneratedHistory referencePlatform where
  calls := [creationOf alice "0", creationOf bob "1"]
  fresh := by decide +kernel

end Store

end LiteHarness
