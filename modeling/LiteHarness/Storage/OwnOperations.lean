import LiteHarness.Storage.Separated

/-!
# An owner's operations in two stores

An operation that an owner issues behaves alike in any two stores that have the same rows of his:
it returns or throws the same, and the stores it leaves have the same rows of his again. The
programs are compared statement by statement; the guards ask about the owner's rows only, or about
ids that are new on both sides.
-/

namespace LiteHarness

open Foundation Foundation.Eff

namespace Store

variable {B : ResourceOwner} {I J : JsString → Bool} {S T : Store}

/-! ## Guards and inserts -/

theorem lockStep_require {R : Store → Store → Prop} {c d : Prop} [Decidable c] [Decidable d]
    {e : JsError} (h : R S T) (hcd : c ↔ d) : LockStep R S T (require c e) (require d e) :=
  .ite hcd (fun _ _ ↦ .pure h _) fun _ _ ↦ .throw h e

/-- The rest is compared where both guards let through. -/
theorem lockStep_require_bind {α : Type} {R : Store → Store → Prop} {c d : Prop} [Decidable c]
    [Decidable d] {e : JsError} {f g : PUnit → StoreM α} (h : R S T) (hcd : c ↔ d)
    (hrest : c → d → LockStep R S T (f ⟨⟩) (g ⟨⟩)) :
    LockStep R S T (require c e >>= f) (require d e >>= g) := by
  refine (lockStep_require h hcd).bind fun _ S' T' hS hT _ ↦ ?_
  obtain ⟨hc, rfl⟩ := require_eq_ok_iff.mp hS
  obtain ⟨hd, rfl⟩ := require_eq_ok_iff.mp hT
  exact hrest hc hd

/-- Two programs that keep more than the owner's rows alike keep these. -/
theorem lockStep_alike {α : Type} {m n : StoreM α} (h : LockStep (AlikeOn B I J) S T m n) :
    LockStep (Alike B) S T m n := ⟨h.1, h.2.alike⟩

/-- What holds of the rows of a kind may be asked of a selection that has them all. -/
theorem forall_filter_iff {ρ : Type} {p : ρ → Bool} {q r : ρ → Prop} {rows : List ρ}
    (h : ∀ x, q x → p x = true) :
    (∀ x ∈ rows.filter p, q x → r x) ↔ ∀ x ∈ rows, q x → r x := by
  constructor
  · intro hall x hx hq
    exact hall x (List.mem_filter.mpr ⟨hx, h x hq⟩) hq
  · intro hall x hx hq
    exact hall x (List.mem_of_mem_filter hx) hq

/-- A selection of a kind of rows is a selection among a larger kind. -/
theorem filter_filter_of_imp {ρ : Type} {p q : ρ → Bool} {rows : List ρ}
    (h : ∀ x ∈ rows, q x = true → p x = true) : (rows.filter p).filter q = rows.filter q := by
  rw [List.filter_filter]
  refine List.filter_congr fun x hx ↦ ?_
  by_cases hq : q x = true
  · rw [hq, h x hx hq]
    rfl
  · rw [Bool.eq_false_iff.mpr hq, Bool.false_and]

theorem ownsRun_iff_mem_map {k : JsString} :
    S.ownsRun B k = true ↔ (B, k) ∈ S.runs.map fun row ↦ (row.owner, row.id) := by
  rw [ownsRun_eq_true_iff, List.mem_map]
  simp only [Prod.mk.injEq]

theorem AlikeOn.insertAgent (h : AlikeOn B I J S T) {row : AgentRow} (howner : row.owner = B)
    (hS : ∀ a ∈ S.agents, a.internalId ≠ row.internalId)
    (hT : ∀ a ∈ T.agents, a.internalId ≠ row.internalId) :
    LockStep (AlikeOn B I J) S T (insertAgent row) (insertAgent row) := by
  refine .gets (lockStep_require_bind h (iff_of_true hS hT) fun _ _ ↦ ?_)
  refine lockStep_require_bind h ?_ fun _ _ ↦ .modify ?_
  · rw [howner, h.agent?_eq]
  · exact { h with agents := by rw [List.filter_append, List.filter_append, h.agents] }

theorem AlikeOn.insertWorkspace (h : AlikeOn B I J S T) {row : WorkspaceRow}
    (howner : row.owner = B) (hS : ∀ w ∈ S.workspaces, w.internalId ≠ row.internalId)
    (hT : ∀ w ∈ T.workspaces, w.internalId ≠ row.internalId) :
    LockStep (AlikeOn B I J) S T (insertWorkspace row) (insertWorkspace row) := by
  refine .gets (lockStep_require_bind h (iff_of_true hS hT) fun _ _ ↦ ?_)
  refine lockStep_require_bind h ?_ fun _ _ ↦ .modify ?_
  · rw [howner, h.workspace?_eq]
  · exact { h with workspaces := by rw [List.filter_append, List.filter_append, h.workspaces] }

theorem AlikeOn.insertSession (h : AlikeOn B I J S T) {row : SessionRow}
    (hJ : J row.internalId = true) (hS : ∀ s ∈ S.sessions, s.internalId ≠ row.internalId)
    (hT : ∀ s ∈ T.sessions, s.internalId ≠ row.internalId) :
    LockStep (AlikeOn B I J) S T (insertSession row) (insertSession row) := by
  refine .gets (lockStep_require_bind h (iff_of_true hS hT) fun _ _ ↦ .modify ?_)
  refine { h with sessions := ?_, ownSessions := fun k hk ↦ ?_ }
  · rw [List.filter_append, List.filter_append, h.sessions]
  · obtain ⟨s, hs, howner, rfl⟩ := ownsSession_eq_true_iff.mp hk
    rcases List.mem_append.mp hs with hs | hs
    · exact h.ownSessions _ (ownsSession_eq_true_iff.mpr ⟨s, hs, howner, rfl⟩)
    · rw [List.mem_singleton.mp hs]
      exact hJ

theorem AlikeOn.insertRun (h : AlikeOn B I J S T) {row : RunRow} (hI : I row.id = true)
    (hS : ∀ r ∈ S.runs, r.id ≠ row.id) (hT : ∀ r ∈ T.runs, r.id ≠ row.id)
    (hparent : ∀ p ∈ row.parentRunId, (S.run? p).isSome = (T.run? p).isSome) :
    LockStep (AlikeOn B I J) S T (insertRun row) (insertRun row) := by
  refine .gets (lockStep_require_bind h (iff_of_true hS hT) fun _ _ ↦ ?_)
  refine lockStep_require_bind h ?_ fun _ _ ↦ .modify ?_
  · exact forall₂_congr fun p hp ↦ by rw [hparent p hp]
  · refine { h with runs := ?_, ownRuns := fun k hk ↦ ?_ }
    · rw [List.filter_append, List.filter_append, h.runs]
    · obtain ⟨r, hr, howner, rfl⟩ := ownsRun_eq_true_iff.mp hk
      rcases List.mem_append.mp hr with hr | hr
      · exact h.ownRuns _ (ownsRun_eq_true_iff.mpr ⟨r, hr, howner, rfl⟩)
      · rw [List.mem_singleton.mp hr]
        exact hI

theorem AlikeOn.insertEvent (h : AlikeOn B I J S T) {row : EventRow} (hI : I row.runId = true) :
    LockStep (AlikeOn B I J) S T (insertEvent row) (insertEvent row) := by
  have hown : ∀ e : EventRow, e.runId = row.runId → I e.runId = true := fun e he ↦ he ▸ hI
  refine .gets (lockStep_require_bind h ?_ fun _ _ ↦ .modify ?_)
  · rw [← forall_filter_iff hown, h.events, forall_filter_iff hown]
  · exact { h with events := by rw [List.filter_append, List.filter_append, h.events] }

theorem AlikeOn.insertMessage (h : AlikeOn B I J S T) {row : MessageRow}
    (hS : ∀ m ∈ S.messages, m.id ≠ row.id) (hT : ∀ m ∈ T.messages, m.id ≠ row.id) :
    LockStep (AlikeOn B I J) S T (insertMessage row) (insertMessage row) := by
  refine .gets (lockStep_require_bind h (iff_of_true hS hT) fun _ _ ↦ .modify ?_)
  exact { h with messages := by rw [List.filter_append, List.filter_append, h.messages] }

/-- The next sequence number in a session of the owner's. -/
theorem AlikeOn.nextMessageSequence_eq (h : AlikeOn B I J S T) {k : JsString} (hJ : J k = true) :
    S.nextMessageSequence k = T.nextMessageSequence k := by
  have hown : ∀ m : MessageRow, decide (m.sessionInternalId = k) = true →
      J m.sessionInternalId = true := fun m hm ↦ (of_decide_eq_true hm) ▸ hJ
  rw [nextMessageSequence, nextMessageSequence, filter_of_filter_eq h.messages hown]

/-! ## Creating a run -/

section Creation

variable {now : ℤ} {fresh : FreshInternalIds} {id fingerprint : JsString}
  {request : InternalStartRunRequest}

theorem AlikeOn.requireReadyConnection (h : AlikeOn request.principal I J S T) :
    LockStep (AlikeOn request.principal I J) S T (requireReadyConnection request)
      (requireReadyConnection request) := by
  unfold Store.requireReadyConnection
  cases truthy request.providerConnectionId with
  | none => exact .pure h _
  | some c =>
    refine .gets ?_
    rw [h.connection?_eq]
    cases T.connection? request.principal c with
    | none => exact .throw h _
    | some connection => exact lockStep_require h Iff.rfl

/-- A parent of another owner is refused with the words for a parent there is not. -/
theorem requireParent_run (S : Store) {p : JsString} (hp : truthy request.parentRunId = some p) :
    (requireParent request).run S =
      match (S.run? p).filter fun row ↦ row.owner = request.principal with
      | none => (throw (.new (js "Parent run does not belong to the requesting principal")) :
          StoreM PUnit).run S
      | some parent => (require (request.depth = some (parent.depth + 1))
          (.new (js "Child run depth is invalid"))).run S := by
  unfold Store.requireParent
  rw [hp]
  dsimp only
  rw [run_get_bind]
  cases S.run? p with
  | none => rfl
  | some parent =>
    rw [Option.filter_some]
    by_cases howner : parent.owner = request.principal
    · rw [if_pos (decide_eq_true howner)]
      simp only [require, if_pos howner]
      rfl
    · rw [if_neg (by simpa using howner)]
      simp only [require, if_neg howner]
      rfl

theorem AlikeOn.requireParent (h : AlikeOn request.principal I J S T) (hS : S.Separated)
    (hT : T.Separated) :
    LockStep (AlikeOn request.principal I J) S T (requireParent request)
      (requireParent request) := by
  cases hp : truthy request.parentRunId with
  | none =>
    unfold Store.requireParent
    rw [hp]
    exact lockStep_require h Iff.rfl
  | some p =>
    unfold LockStep
    rw [requireParent_run S hp, requireParent_run T hp, h.run?_filter hS hT]
    cases (T.run? p).filter fun row ↦ row.owner = request.principal with
    | none => exact LockStep.throw h _
    | some parent => exact lockStep_require h Iff.rfl

theorem AlikeOn.ensureAgent (h : AlikeOn request.principal I J S T)
    (hS : ∀ a ∈ S.agents, a.internalId ≠ fresh.agent)
    (hT : ∀ a ∈ T.agents, a.internalId ≠ fresh.agent) :
    LockStep (AlikeOn request.principal I J) S T (ensureAgent now fresh request)
      (ensureAgent now fresh request) := by
  refine .gets ?_
  rw [h.agent?_eq]
  cases T.agent? request.principal request.agent with
  | some agent => exact .pure h _
  | none =>
    refine lockStep_require_bind h Iff.rfl fun _ _ ↦ ?_
    exact (h.insertAgent rfl hS hT).bind fun _ _ _ _ _ h' ↦ .pure h' _

theorem AlikeOn.ensureWorkspace (h : AlikeOn request.principal I J S T)
    (hS : ∀ w ∈ S.workspaces, w.internalId ≠ fresh.workspace)
    (hT : ∀ w ∈ T.workspaces, w.internalId ≠ fresh.workspace) :
    LockStep (AlikeOn request.principal I J) S T (ensureWorkspace now fresh request)
      (ensureWorkspace now fresh request) := by
  refine .gets ?_
  rw [h.workspace?_eq]
  cases T.workspace? request.principal request.workspace with
  | some workspace => exact .pure h _
  | none =>
    refine lockStep_require_bind h Iff.rfl fun _ _ ↦ ?_
    exact (h.insertWorkspace rfl hS hT).bind fun _ _ _ _ _ h' ↦ .pure h' _

theorem AlikeOn.ensureSession (h : AlikeOn request.principal I J S T) (hJ : J fresh.session = true)
    (hS : ∀ s ∈ S.sessions, s.internalId ≠ fresh.session)
    (hT : ∀ s ∈ T.sessions, s.internalId ≠ fresh.session) (sessionId : JsString)
    (agent : AgentRow) :
    LockStep (AlikeOn request.principal I J) S T (ensureSession now fresh request sessionId agent)
      (ensureSession now fresh request sessionId agent) := by
  refine .gets ?_
  rw [h.session?_eq]
  cases T.session? request.principal sessionId with
  | some session => exact lockStep_require_bind h Iff.rfl fun _ _ ↦ .pure h _
  | none => exact (h.insertSession hJ hS hT).bind fun _ _ _ _ _ h' ↦ .pure h' _

/-- The runs of the session of a creation are the requester's. -/
theorem Separated.runs_of_ensured (hS : S.Separated) {sessions : List SessionRow}
    {session : SessionRow} {sessionId : JsString}
    (hensured : Table.Ensured SessionRow.key SessionRow.internalId (B, sessionId) session
      S.sessions sessions) {row : RunRow} (hrow : row ∈ S.runs)
    (hsession : row.sessionInternalId = some session.internalId) : row.owner = B := by
  cases hensured with
  | found hfound =>
    have hkey : session.key = (B, sessionId) := Table.key_of_lookup hfound
    rw [← hS.session_owner hrow (Table.mem_of_lookup hfound) hsession]
    exact (Prod.mk.inj hkey).1
  | inserted _ _ hfresh =>
    obtain ⟨_, _, _, _, s, hs, -, -, -, -, -, -, hid, -⟩ := hS.refers _ (mem_registrations hrow)
    exact absurd (Option.some.inj (hid.symm.trans hsession)) (hfresh s hs)

theorem AlikeOn.sessionWorkspaces_eq (h : AlikeOn B I J S T) {k : JsString}
    (hS : ∀ r ∈ S.runs, r.sessionInternalId = some k → r.owner = B)
    (hT : ∀ r ∈ T.runs, r.sessionInternalId = some k → r.owner = B) :
    S.sessionWorkspaces k = T.sessionWorkspaces k := by
  have hown : ∀ {runs : List RunRow}, (∀ r ∈ runs, r.sessionInternalId = some k → r.owner = B) →
      ∀ r ∈ runs, decide (r.sessionInternalId = some k) = true → decide (r.owner = B) = true :=
    fun hall r hr hk ↦ decide_eq_true (hall r hr (of_decide_eq_true hk))
  rw [sessionWorkspaces, sessionWorkspaces, ← filter_filter_of_imp (hown hS), h.runs,
    filter_filter_of_imp (hown hT)]

theorem AlikeOn.requireSessionWorkspace (h : AlikeOn B I J S T) {session : SessionRow}
    (hS : ∀ r ∈ S.runs, r.sessionInternalId = some session.internalId → r.owner = B)
    (hT : ∀ r ∈ T.runs, r.sessionInternalId = some session.internalId → r.owner = B)
    (workspace : WorkspaceRow) :
    LockStep (AlikeOn B I J) S T (requireSessionWorkspace session workspace)
      (requireSessionWorkspace session workspace) := by
  refine .gets (lockStep_require h ?_)
  rw [h.sessionWorkspaces_eq hS hT]

/-- The parent a sound request names is there on both sides, or on neither. -/
theorem ParentSound.isSome_eq (hS : S.Separated) (hT : T.Separated)
    (hsoundS : S.ParentSound request) (hsoundT : T.ParentSound request) {p : JsString}
    (hp : request.parentRunId = some p) : (S.run? p).isSome = (T.run? p).isSome := by
  by_cases hnil : p = []
  · have hnone : ∀ {U : Store}, U.Separated → U.run? p = none := by
      intro U hU
      by_contra hsome
      obtain ⟨row, hrow⟩ := Option.ne_none_iff_exists'.mp hsome
      exact hU.run?_ne_nil hrow hnil
    rw [hnone hS, hnone hT]
  · have hfound : ∀ {U : Store}, U.ParentSound request → (U.run? p).isSome = true := by
      intro U hsound
      unfold ParentSound at hsound
      rw [hp, truthy_of_ne_nil hnil] at hsound
      obtain ⟨parent, hparent, -⟩ := hsound
      rw [hparent]
      rfl
    rw [hfound hsoundS, hfound hsoundT]

theorem AlikeOn.createRun (h : AlikeOn request.principal I J S T) (hS : S.Separated)
    (hT : T.Separated) (hfreshS : (StoreOp.createOrGetRun now fresh id request).DrawsFresh S)
    (hfreshT : (StoreOp.createOrGetRun now fresh id request).DrawsFresh T) (hI : I id = true)
    (hJ : J fresh.session = true) :
    LockStep (AlikeOn request.principal I J) S T (createRun now fresh id fingerprint request)
      (createRun now fresh id fingerprint request) := by
  obtain ⟨-, hrunS, hagentS, hworkspaceS, hsessionS, hmessageS⟩ := hfreshS
  obtain ⟨-, hrunT, hagentT, hworkspaceT, hsessionT, hmessageT⟩ := hfreshT
  refine h.requireReadyConnection.bind fun _ S₁ T₁ hS₁ hT₁ _ ↦ ?_
  obtain rfl := requireReadyConnection_eq_ok hS₁
  obtain rfl := requireReadyConnection_eq_ok hT₁
  refine (h.requireParent hS hT).bind fun _ S₂ T₂ hS₂ hT₂ _ ↦ ?_
  obtain ⟨rfl, hsoundS⟩ := requireParent_eq_ok hS₂
  obtain ⟨rfl, hsoundT⟩ := requireParent_eq_ok hT₂
  refine (h.ensureAgent hagentS hagentT).bind fun agent S₃ T₃ hS₃ hT₃ h ↦ ?_
  obtain ⟨_, rfl⟩ := ensureAgent_eq_ok hS₃
  obtain ⟨_, rfl⟩ := ensureAgent_eq_ok hT₃
  refine (h.ensureWorkspace hworkspaceS hworkspaceT).bind fun workspace S₄ T₄ hS₄ hT₄ h ↦ ?_
  obtain ⟨_, rfl⟩ := ensureWorkspace_eq_ok hS₄
  obtain ⟨_, rfl⟩ := ensureWorkspace_eq_ok hT₄
  refine (h.ensureSession hJ hsessionS hsessionT _ agent).bind fun session S₅ T₅ hS₅ hT₅ h ↦ ?_
  obtain ⟨_, rfl, -, hensuredS⟩ := ensureSession_ensured hS₅
  obtain ⟨_, rfl, -, hensuredT⟩ := ensureSession_ensured hT₅
  have hJsession : J session.internalId = true := by
    refine h.ownSessions _ (ownsSession_eq_true_iff.mpr ⟨session, hensuredS.mem, ?_, rfl⟩)
    exact (Prod.mk.inj hensuredS.key_eq).1
  refine (h.requireSessionWorkspace (fun _ ↦ hS.runs_of_ensured hensuredS)
    (fun _ ↦ hT.runs_of_ensured hensuredT) workspace).bind fun _ S₆ T₆ hS₆ hT₆ _ ↦ ?_
  rw [Store.requireSessionWorkspace, run_get_bind, require_eq_ok_iff] at hS₆ hT₆
  obtain ⟨-, rfl⟩ := hS₆
  obtain ⟨-, rfl⟩ := hT₆
  refine (h.insertRun hI hrunS hrunT fun p hp ↦ ?_).bind fun _ S₇ T₇ hS₇ hT₇ h ↦ ?_
  · exact ParentSound.isSome_eq hS hT hsoundS hsoundT hp
  obtain ⟨-, -, rfl⟩ := insertRun_eq_ok_iff.mp hS₇
  obtain ⟨-, -, rfl⟩ := insertRun_eq_ok_iff.mp hT₇
  refine (h.insertEvent hI).bind fun _ S₈ T₈ hS₈ hT₈ h ↦ ?_
  obtain ⟨-, rfl⟩ := insertEvent_eq_ok_iff.mp hS₈
  obtain ⟨-, rfl⟩ := insertEvent_eq_ok_iff.mp hT₈
  refine .gets ?_
  rw [h.nextMessageSequence_eq hJsession]
  exact (h.insertMessage hmessageS hmessageT).bind fun _ _ _ _ _ h ↦ .pure h _

/-- Nothing of the two stores belongs to a run or a session that is still to be created. -/
theorem Alike.extend (h : Alike B S T) (hS : S.Separated) (hT : T.Separated)
    (hrunS : ∀ r ∈ S.runs, r.id ≠ id) (hrunT : ∀ r ∈ T.runs, r.id ≠ id) {k : JsString}
    (hsessionS : ∀ s ∈ S.sessions, s.internalId ≠ k)
    (hsessionT : ∀ s ∈ T.sessions, s.internalId ≠ k) :
    AlikeOn B (fun j ↦ S.ownsRun B j || j = id) (fun j ↦ S.ownsSession B j || j = k) S T := by
  have hknown : ∀ {U : Store}, (∀ r ∈ U.runs, r.id ≠ id) → ∀ j ∈ U.runIds,
      (S.ownsRun B j || decide (j = id)) = S.ownsRun B j := by
    intro U hfresh j hj
    obtain ⟨row, hrow, rfl⟩ := List.mem_map.mp hj
    rw [decide_eq_false (hfresh row hrow), Bool.or_false]
  have hmessage : ∀ {U : Store}, U.Separated → (∀ s ∈ U.sessions, s.internalId ≠ k) →
      ∀ m ∈ U.messages, (S.ownsSession B m.sessionInternalId || decide (m.sessionInternalId = k))
        = S.ownsSession B m.sessionInternalId := by
    intro U hU hfresh m hm
    obtain ⟨run, hrun, -, hsession⟩ := hU.messages m hm
    obtain ⟨_, _, _, _, s, hs, -, -, -, -, -, -, hid, -⟩ := hU.refers run hrun
    have hsame : s.internalId = m.sessionInternalId := Option.some.inj (hid.symm.trans hsession)
    rw [decide_eq_false (hsame ▸ hfresh s hs), Bool.or_false]
  have hfiled : ∀ {U : Store} {filings : List (JsString × JsString)}, FiledUnder U.runIds filings →
      ∀ {ρ : Type} {f : ρ → JsString × JsString} {rows : List ρ}, rows.map f = filings →
      ∀ r ∈ rows, (f r).2 ∈ U.runIds := by
    rintro U _ hfiled ρ f rows rfl r hr
    exact hfiled.known _ (List.mem_map_of_mem hr)
  refine { h with events := ?_, approvals := ?_, attempts := ?_, messages := ?_,
                  ownRuns := ?_, ownSessions := ?_ }
  · rw [List.filter_congr fun e he ↦ hknown hrunS _ (hS.events e he), AlikeOn.events h,
      List.filter_congr fun e he ↦ hknown hrunT _ (hT.events e he)]
  · rw [List.filter_congr fun a ha ↦ hknown hrunS _ (hfiled hS.approvalsFiled rfl a ha),
      AlikeOn.approvals h,
      List.filter_congr fun a ha ↦ hknown hrunT _ (hfiled hT.approvalsFiled rfl a ha)]
  · rw [List.filter_congr fun a ha ↦ hknown hrunS _ (hfiled hS.attemptsFiled rfl a ha),
      AlikeOn.attempts h,
      List.filter_congr fun a ha ↦ hknown hrunT _ (hfiled hT.attemptsFiled rfl a ha)]
  · rw [List.filter_congr (hmessage hS hsessionS), AlikeOn.messages h,
      List.filter_congr (hmessage hT hsessionT)]
  · exact fun j hj ↦ by rw [hj, Bool.true_or]
  · exact fun j hj ↦ by rw [hj, Bool.true_or]

/-- **A creation has the same outcome in stores alike for the requester**, errors included. -/
theorem Alike.createOrGetRun (P : Platform) (h : Alike request.principal S T) (hS : S.Separated)
    (hT : T.Separated) (hfreshS : (StoreOp.createOrGetRun now fresh id request).DrawsFresh S)
    (hfreshT : (StoreOp.createOrGetRun now fresh id request).DrawsFresh T) :
    LockStep (Alike request.principal) S T (createOrGetRun P now fresh id request)
      (createOrGetRun P now fresh id request) := by
  obtain ⟨I, J, hextended, hI, hJ⟩ : ∃ I J, AlikeOn request.principal I J S T ∧ I id = true ∧
      J fresh.session = true :=
    ⟨_, _, h.extend hS hT hfreshS.2.1 hfreshT.2.1 hfreshS.2.2.2.2.1 hfreshT.2.2.2.2.1, by simp,
      by simp⟩
  refine .transaction (R := AlikeOn request.principal I J) ?_ h fun _ _ _ _ _ h' ↦ h'.alike
  refine .gets ?_
  rw [AlikeOn.existingRun_eq h hS hT]
  cases T.existingRun request.principal
      (scopedIdempotencyKey request.principal.userId request.idempotencyKey) with
  | some existing => exact lockStep_require_bind hextended Iff.rfl fun _ _ ↦ .pure hextended _
  | none =>
    exact (hextended.createRun hS hT hfreshS hfreshT hI hJ).bind fun _ _ _ _ _ h' ↦ .pure h' _

end Creation

/-! ## Events -/

/-- A run of the owner's is the same row in both stores. -/
theorem AlikeOn.ownRow (h : AlikeOn B I J S T) (hS : S.Separated) (hT : T.Separated) {k : JsString}
    (hown : S.ownsRun B k = true) :
    ∃ row, S.run? k = some row ∧ T.run? k = some row ∧ row.owner = B := by
  obtain ⟨row, hrow, howner⟩ := hS.ownsRun_iff.mp hown
  exact ⟨row, hrow, h.run?_some hS hT hrow howner, howner⟩

theorem AlikeOn.updateRun (h : AlikeOn B I J S T) {f : RunRow → RunRow}
    (howner : ∀ r, (f r).owner = r.owner) (hid : ∀ r, (f r).id = r.id) (k : JsString) :
    AlikeOn B I J (updateRun k f S) (updateRun k f T) := by
  have hcond : ∀ r, decide ((f r).owner = B) = decide (r.owner = B) := by
    intro r
    rw [howner]
  refine { h with runs := ?_, ownRuns := fun j hj ↦ h.ownRuns j ?_ }
  · rw [Store.updateRun, Store.updateRun, Table.filter_update hcond, Table.filter_update hcond,
      h.runs]
  · rw [ownsRun_iff_mem_map] at hj ⊢
    have hkeys := Table.map_update (p := fun row ↦ row.id = k) (f := f)
      (g := fun r : RunRow ↦ (r.owner, r.id)) (fun r ↦ by rw [howner, hid]) S.runs
    rw [← hkeys]
    exact hj

theorem AlikeOn.updateAttempts (h : AlikeOn B I J S T) (p : AttemptRow → Bool)
    {f : AttemptRow → AttemptRow} (hrun : ∀ a, (f a).runId = a.runId) :
    AlikeOn B I J { S with attempts := Table.update p f S.attempts }
      { T with attempts := Table.update p f T.attempts } := by
  have hcond : ∀ a, I (f a).runId = I a.runId := fun a ↦ by rw [hrun]
  refine { h with attempts := ?_ }
  rw [Table.filter_update (p := p) hcond, Table.filter_update (p := p) hcond, h.attempts]

theorem AlikeOn.endAttempts (h : AlikeOn B I J S T) (now : ℤ) (runId : JsString)
    (status : RunStatus) :
    AlikeOn B I J (endAttempts now runId status S) (endAttempts now runId status T) :=
  h.updateAttempts _ fun _ ↦ rfl

/-- A child whose end is summarized in a run of the owner's is the owner's. -/
theorem AlikeOn.detached (h : AlikeOn B I J S T) (hS : S.Separated) (hT : T.Separated)
    {params : AppendRunEvent} (hown : S.ownsRun B params.runId = true)
    (hsummary : S.DetachedSubagentSummary params) : T.DetachedSubagentSummary params := by
  obtain ⟨htype, hstatus, hcode, hmessage, husage, child, hchild, hparent, hrest⟩ := hsummary
  refine ⟨htype, hstatus, hcode, hmessage, husage, child, ?_, hparent, hrest⟩
  obtain ⟨c, hc, hrow⟩ := Option.bind_eq_some_iff.mp hchild
  obtain ⟨run, hrun, howner⟩ := hS.ownsRun_iff.mp hown
  have htruthy : truthy child.parentRunId = some params.runId := by
    rw [hparent, truthy_of_ne_nil (hS.run?_ne_nil hrun)]
  obtain ⟨parent, hmem, hid, hsame, -⟩ := hS.parent (run?_mem hrow).1 htruthy
  have hfound := run?_of_mem hS.runIds_nodup hmem
  rw [hid, hrun] at hfound
  obtain rfl := Option.some.inj hfound
  exact Option.bind_eq_some_iff.mpr ⟨c, hc, h.run?_some hS hT hrow (hsame.symm.trans howner)⟩

theorem AlikeOn.detached_iff (h : AlikeOn B I J S T) (hS : S.Separated) (hT : T.Separated)
    {params : AppendRunEvent} (hown : S.ownsRun B params.runId = true) :
    S.DetachedSubagentSummary params ↔ T.DetachedSubagentSummary params :=
  ⟨h.detached hS hT hown, h.symm.detached hT hS (h.ownsRun_eq ▸ hown)⟩

theorem AlikeOn.appendEventWithinTransaction (h : AlikeOn B I J S T) {createdAt : ℤ}
    {params : AppendRunEvent} {row : RunRow} (hrowS : S.run? params.runId = some row)
    (hrowT : T.run? params.runId = some row) (hI : I params.runId = true)
    (hsummary : S.DetachedSubagentSummary params ↔ T.DetachedSubagentSummary params) :
    LockStep (AlikeOn B I J) S T (appendEventWithinTransaction createdAt params)
      (appendEventWithinTransaction createdAt params) := by
  refine .gets ?_
  rw [hrowS, hrowT]
  refine lockStep_require_bind h (by rw [hsummary]) fun _ _ ↦ ?_
  refine lockStep_require_bind h (by rw [hsummary]) fun _ _ ↦ ?_
  refine (h.insertEvent hI).bind fun _ _ _ _ _ h ↦ ?_
  refine (LockStep.modify (h.updateRun ?_ ?_ params.runId)).bind fun _ _ _ _ _ h ↦ ?_
  · exact fun _ ↦ rfl
  · exact fun _ ↦ rfl
  cases params.status with
  | none => exact .pure h _
  | some status =>
    refine .ite Iff.rfl (fun _ _ ↦ ?_) fun _ _ ↦ .pure h _
    exact (LockStep.modify (h.endAttempts _ _ _)).bind fun _ _ _ _ _ h ↦ .pure h _

section Own

variable {k : JsString}

theorem Alike.appendEvent (h : Alike B S T) (hS : S.Separated) (hT : T.Separated)
    {params : AppendRunEvent} (hown : S.ownsRun B params.runId = true) (createdAt : ℤ) :
    LockStep (Alike B) S T (appendEvent createdAt params) (appendEvent createdAt params) := by
  obtain ⟨row, hrowS, hrowT, -⟩ := AlikeOn.ownRow h hS hT hown
  have hsummary := AlikeOn.detached_iff h hS hT hown
  exact .transaction (AlikeOn.appendEventWithinTransaction h hrowS hrowT hown hsummary) h
    fun _ _ _ _ _ h' ↦ h'.alike

/-! ## Messages and usage -/

theorem Alike.appendSessionMessage (h : Alike B S T) (hS : S.Separated) (hT : T.Separated)
    {params : AppendSessionMessage} (hown : S.ownsRun B params.runId = true)
    (hfreshS : ∀ m ∈ S.messages, m.id ≠ params.id) (hfreshT : ∀ m ∈ T.messages, m.id ≠ params.id)
    (createdAt : ℤ) :
    LockStep (Alike B) S T (appendSessionMessage createdAt params)
      (appendSessionMessage createdAt params) := by
  obtain ⟨row, hrowS, hrowT, howner⟩ := AlikeOn.ownRow h hS hT hown
  refine .transaction (R := AlikeOn B (S.ownsRun B) (S.ownsSession B)) ?_ h
    fun _ _ _ _ _ h' ↦ h'.alike
  refine .gets ?_
  rw [hrowS, hrowT]
  dsimp only
  cases hsession : truthy row.sessionInternalId with
  | none => exact .throw h _
  | some sessionInternalId =>
    have hJ : S.ownsSession B sessionInternalId = true := by
      obtain ⟨_, _, _, _, s, hs, -, -, hsOwner, -, -, -, hid, -⟩ :=
        hS.refers _ (mem_registrations (run?_mem hrowS).1)
      have hsame : s.internalId = sessionInternalId :=
        Option.some.inj (hid.symm.trans (eq_some_of_truthy hsession))
      exact ownsSession_eq_true_iff.mpr ⟨s, hs, hsOwner.trans howner, hsame⟩
    refine lockStep_require_bind h Iff.rfl fun _ _ ↦ lockStep_require_bind h Iff.rfl fun _ _ ↦ ?_
    rw [AlikeOn.nextMessageSequence_eq h hJ]
    exact (AlikeOn.insertMessage h hfreshS hfreshT).bind fun _ _ _ _ _ h' ↦ .pure h' _

theorem Alike.recordUsage (h : Alike B S T) (hS : S.Separated) (hT : T.Separated)
    (hown : S.ownsRun B k = true) (updatedAt : ℤ) (delta : RunUsageDelta) :
    LockStep (Alike B) S T (recordUsage updatedAt k delta) (recordUsage updatedAt k delta) := by
  obtain ⟨row, hrowS, hrowT, -⟩ := AlikeOn.ownRow h hS hT hown
  refine .transaction (R := AlikeOn B (S.ownsRun B) (S.ownsSession B)) ?_ h
    fun _ _ _ _ _ h' ↦ h'.alike
  refine .gets ?_
  rw [hrowS, hrowT]
  refine lockStep_require_bind h Iff.rfl fun _ _ ↦ ?_
  have hupdated := AlikeOn.updateRun h (f := withUsage updatedAt delta) (fun _ ↦ rfl)
    (fun _ ↦ rfl) k
  exact (LockStep.modify hupdated).bind fun _ _ _ _ _ h' ↦ .pure h' _

/-! ## Approvals -/

theorem Alike.createApproval (h : Alike B S T) (hS : S.Separated) (hT : T.Separated)
    {record : ApprovalRow} (hown : S.ownsRun B record.runId = true)
    (hfreshS : ∀ a ∈ S.approvals, a.id ≠ record.id)
    (hfreshT : ∀ a ∈ T.approvals, a.id ≠ record.id) :
    LockStep (Alike B) S T (createApproval record) (createApproval record) := by
  obtain ⟨row, hrowS, hrowT, -⟩ := AlikeOn.ownRow h hS hT hown
  refine .gets (lockStep_require_bind h (iff_of_true hfreshS hfreshT) fun _ _ ↦ ?_)
  refine lockStep_require_bind h (by rw [hrowS, hrowT]) fun _ _ ↦ ?_
  refine (LockStep.modify (AlikeOn.alike (I := S.ownsRun B) (J := S.ownsSession B) ?_)).bind
    fun _ _ _ _ _ h' ↦ .pure h' _
  have happrovals := AlikeOn.approvals h
  exact { h with approvals := by rw [List.filter_append, List.filter_append, happrovals] }

theorem AlikeOn.setApproval (h : AlikeOn B I J S T) (id : JsString) (status : ApprovalStatus)
    (resolvedAt : ℤ) :
    AlikeOn B I J (setApproval id status resolvedAt S) (setApproval id status resolvedAt T) := by
  have hcond : ∀ a : ApprovalRow, I (a.resolve status resolvedAt).runId = I a.runId :=
    fun _ ↦ rfl
  refine { h with approvals := ?_ }
  rw [Store.setApproval, Store.setApproval, Table.filter_update hcond, Table.filter_update hcond,
    h.approvals]

theorem AlikeOn.resolveApprovalWithinTransaction (h : AlikeOn B I J S T) {a : ApprovalRow}
    {row : RunRow} (hS : S.approval? k = some a) (hT : T.approval? k = some a)
    (hrowS : S.run? a.runId = some row) (hrowT : T.run? a.runId = some row) (resolvedAt : ℤ)
    (status : ApprovalResolution) (digest : JsString) :
    LockStep (AlikeOn B I J) S T (resolveApprovalWithinTransaction resolvedAt k status digest)
      (resolveApprovalWithinTransaction resolvedAt k status digest) := by
  refine .gets ?_
  rw [hS, hT]
  refine .ite ?_ (fun _ _ ↦ ?_) fun _ _ ↦ .pure h _
  · rw [Resolvable, Resolvable, hrowS, hrowT]
  · exact (LockStep.modify (h.setApproval k status resolvedAt)).bind
      fun _ _ _ _ _ h' ↦ .pure h' _

/-- An approval under a run of the owner's is the same record in both stores. -/
theorem AlikeOn.ownApproval (h : AlikeOn B I J S T) (hS : S.Separated) (hT : T.Separated)
    (hissuer : ((S.approval? k).bind fun a ↦ (S.run? a.runId).map RunRow.owner) = some B) :
    ∃ a row, S.approval? k = some a ∧ T.approval? k = some a ∧ S.ownsRun B a.runId = true ∧
      S.run? a.runId = some row ∧ T.run? a.runId = some row := by
  obtain ⟨a, ha, howner⟩ := Option.bind_eq_some_iff.mp hissuer
  have hown := hS.map_owner_iff.mp howner
  obtain ⟨row, hrowS, hrowT, -⟩ := h.ownRow hS hT hown
  have hfilter := h.approval?_filter hS hT k
  rw [ha, Option.filter_some, if_pos (h.ownRuns _ hown)] at hfilter
  exact ⟨a, row, ha, (Option.filter_eq_some_iff.mp hfilter.symm).1, hown, hrowS, hrowT⟩

/-- The record after a resolution that was tried. -/
theorem approval?_resolved {a : ApprovalRow} {resolvedAt : ℤ} {status : ApprovalResolution}
    {digest : JsString} {S' : Store} {changed : Bool} (ha : S.approval? k = some a)
    (h : (resolveApprovalWithinTransaction resolvedAt k status digest).run S = (.ok changed, S')) :
    S'.approval? k = some (if changed then a.resolve status resolvedAt else a) ∧
      S'.runs = S.runs := by
  rcases resolveApprovalWithinTransaction_eq_ok h with ⟨rfl, rfl, -⟩ | ⟨rfl, rfl, -⟩
  · exact ⟨ha, rfl⟩
  · rw [approval?_setApproval, ha, Option.map_some, if_pos (Table.key_of_lookup ha)]
    exact ⟨rfl, rfl⟩

theorem Alike.resolveApproval (h : Alike B S T) (hS : S.Separated) (hT : T.Separated)
    (hissuer : ((S.approval? k).bind fun a ↦ (S.run? a.runId).map RunRow.owner) = some B)
    (resolvedAt : ℤ) (status : ApprovalResolution) (digest : JsString) :
    LockStep (Alike B) S T (resolveApproval resolvedAt k status digest)
      (resolveApproval resolvedAt k status digest) := by
  obtain ⟨a, row, haS, haT, -, hrowS, hrowT⟩ := AlikeOn.ownApproval h hS hT hissuer
  refine .transaction (R := AlikeOn B (S.ownsRun B) (S.ownsSession B)) ?_ h
    fun _ _ _ _ _ h' ↦ h'.alike
  refine (AlikeOn.resolveApprovalWithinTransaction h haS haT hrowS hrowT _ _ _).bind
    fun changed S' T' hS' hT' h' ↦ .gets ?_
  rw [(approval?_resolved haS hS').1, (approval?_resolved haT hT').1]
  exact .pure h' _

theorem Alike.resolveApprovalAndAppendEvent (h : Alike B S T) (hS : S.Separated)
    (hT : T.Separated)
    (hissuer : ((S.approval? k).bind fun a ↦ (S.run? a.runId).map RunRow.owner) = some B)
    (resolvedAt createdAt : ℤ) (status : ApprovalResolution) (digest : JsString)
    (payload : EventPayload) :
    LockStep (Alike B) S T
      (resolveApprovalAndAppendEvent resolvedAt createdAt k status digest payload)
      (resolveApprovalAndAppendEvent resolvedAt createdAt k status digest payload) := by
  obtain ⟨a, row, haS, haT, hown, hrowS, hrowT⟩ := AlikeOn.ownApproval h hS hT hissuer
  refine .transaction (R := AlikeOn B (S.ownsRun B) (S.ownsSession B)) ?_ h
    fun _ _ _ _ _ h' ↦ h'.alike
  refine (AlikeOn.resolveApprovalWithinTransaction h haS haT hrowS hrowT _ _ _).bind
    fun changed S' T' hS' hT' h' ↦ .gets ?_
  obtain ⟨haS', hrunsS⟩ := approval?_resolved haS hS'
  obtain ⟨haT', hrunsT⟩ := approval?_resolved haT hT'
  rw [haS', haT']
  refine .ite Iff.rfl (fun hchanged _ ↦ ?_) fun _ _ ↦ .pure h' _
  rw [if_pos hchanged]
  -- the event of a resolution is no summary of a child
  have hsummary : ∀ U : Store, ¬U.DetachedSubagentSummary
      { runId := (a.resolve status resolvedAt).runId, type := .approvalResolved, payload } :=
    fun U hU ↦ absurd hU.1 (show RunEventType.approvalResolved ≠ .subagentCompleted by decide)
  have hrowS' : S'.run? a.runId = some row := by
    rw [run?, hrunsS]
    exact hrowS
  have hrowT' : T'.run? a.runId = some row := by
    rw [run?, hrunsT]
    exact hrowT
  exact (h'.appendEventWithinTransaction hrowS' hrowT' hown
    (iff_of_false (hsummary _) (hsummary _))).bind fun _ _ _ _ _ h'' ↦ .pure h'' _

/-! ## Attempts -/

theorem Alike.createRunAttempt (h : Alike B S T) (hS : S.Separated) (hT : T.Separated)
    (hown : S.ownsRun B k = true) {id : JsString} (hfreshS : ∀ a ∈ S.attempts, a.id ≠ id)
    (hfreshT : ∀ a ∈ T.attempts, a.id ≠ id) (startedAt : ℤ) :
    LockStep (Alike B) S T (createRunAttempt startedAt k id) (createRunAttempt startedAt k id) := by
  obtain ⟨row, hrowS, hrowT, -⟩ := AlikeOn.ownRow h hS hT hown
  have hattempts := AlikeOn.attempts h
  have hmine : ∀ a : AttemptRow, a.runId = k → S.ownsRun B a.runId = true := fun a ha ↦ ha ▸ hown
  have hcount : (S.attempts.filter fun a ↦ a.runId = k) = T.attempts.filter fun a ↦ a.runId = k :=
    filter_of_filter_eq hattempts fun a ha ↦ hmine a (of_decide_eq_true ha)
  refine .gets ?_
  dsimp only
  rw [hcount]
  refine lockStep_require_bind h (iff_of_true hfreshS hfreshT) fun _ _ ↦ ?_
  refine lockStep_require_bind h ?_ fun _ _ ↦ ?_
  · rw [← forall_filter_iff hmine, hattempts, forall_filter_iff hmine]
  refine lockStep_require_bind h (by rw [hrowS, hrowT]) fun _ _ ↦ ?_
  refine (LockStep.modify (AlikeOn.alike (I := S.ownsRun B) (J := S.ownsSession B) ?_)).bind
    fun _ _ _ _ _ h' ↦ .pure h' _
  exact { h with attempts := by rw [List.filter_append, List.filter_append, hattempts] }

theorem Alike.completeRunAttempt (h : Alike B S T) (hS : S.Separated) (hT : T.Separated)
    (hissuer : ((Table.lookup AttemptRow.id k S.attempts).bind fun a ↦
      (S.run? a.runId).map RunRow.owner) = some B) (now : ℤ) (status : RunStatus.Terminal) :
    LockStep (Alike B) S T (completeRunAttempt now k status)
      (completeRunAttempt now k status) := by
  obtain ⟨a, haS, howner⟩ := Option.bind_eq_some_iff.mp hissuer
  have hown := hS.map_owner_iff.mp howner
  have haT : Table.lookup AttemptRow.id k T.attempts = some a := by
    have hfilter := AlikeOn.attempt_filter h hS hT k
    rw [haS, Option.filter_some, if_pos hown] at hfilter
    exact (Option.filter_eq_some_iff.mp hfilter.symm).1
  have hupdated := AlikeOn.updateAttempts h (fun a ↦ a.id = k ∧ a.status = .running)
    (f := fun a ↦ { a with status := status, endedAt := some now }) fun _ ↦ rfl
  refine (LockStep.modify (AlikeOn.alike hupdated)).bind fun _ S' T' hS' hT' h' ↦ .gets ?_
  rw [modify_eq_ok_iff.mp hS', modify_eq_ok_iff.mp hT'] at h' ⊢
  dsimp only
  rw [Table.lookup_update, Table.lookup_update, haS, haT]
  · exact .pure h' _
  · exact fun _ ↦ rfl
  · exact fun _ ↦ rfl

theorem Alike.completeRunningAttempts (h : Alike B S T) (hown : S.ownsRun B k = true) (now : ℤ)
    (status : RunStatus.Terminal) :
    LockStep (Alike B) S T (completeRunningAttempts now k status)
      (completeRunningAttempts now k status) := by
  have hrunning : (S.attempts.filter fun a ↦ a.runId = k ∧ a.status = .running)
      = T.attempts.filter fun a ↦ a.runId = k ∧ a.status = .running := by
    refine filter_of_filter_eq (AlikeOn.attempts h) fun a ha ↦ ?_
    rw [(of_decide_eq_true ha).1]
    exact hown
  refine .gets ?_
  rw [hrunning]
  exact (LockStep.modify (AlikeOn.endAttempts h now k status).alike).bind
    fun _ _ _ _ _ h' ↦ .pure h' _

/-! ## Configuration -/

theorem Alike.createAgentProfile {record : AgentProfileRecord} (h : Alike record.owner S T)
    {internalId : JsString} (hfreshS : ∀ a ∈ S.agents, a.internalId ≠ internalId)
    (hfreshT : ∀ a ∈ T.agents, a.internalId ≠ internalId) :
    LockStep (Alike record.owner) S T (createAgentProfile internalId record)
      (createAgentProfile internalId record) := by
  refine LockStep.bind (R := Alike record.owner) ?_ fun _ S' T' _ _ h' ↦ .gets ?_
  · exact lockStep_alike (AlikeOn.insertAgent h rfl hfreshS hfreshT)
  · rw [getAgentProfile, getAgentProfile, AlikeOn.agent?_eq h']
    exact .pure h' _

/-- Only the owner's runs and sessions use an agent of his. -/
theorem Alike.agent_used (h : Alike B S T) (hS : S.Separated) {agent : AgentRow}
    (hagent : S.agent? B k = some agent)
    (hused : (∃ r ∈ S.runs, r.agentInternalId = some agent.internalId) ∨
      ∃ s ∈ S.sessions, s.agentInternalId = agent.internalId) :
    (∃ r ∈ T.runs, r.agentInternalId = some agent.internalId) ∨
      ∃ s ∈ T.sessions, s.agentInternalId = agent.internalId := by
  have hmem := Table.mem_of_lookup hagent
  have hkey : agent.key = (B, k) := Table.key_of_lookup hagent
  have howner : agent.owner = B := (Prod.mk.inj hkey).1
  rcases hused with ⟨r, hr, hid⟩ | ⟨s, hs, hid⟩
  · have hown : r ∈ S.runs.filter fun row ↦ row.owner = B :=
      List.mem_filter.mpr ⟨hr, decide_eq_true ((hS.agent_owner hr hmem hid).symm.trans howner)⟩
    rw [AlikeOn.runs h] at hown
    exact Or.inl ⟨r, List.mem_of_mem_filter hown, hid⟩
  · have hown : s ∈ S.sessions.filter fun row ↦ row.owner = B :=
      List.mem_filter.mpr
        ⟨hs, decide_eq_true ((hS.sessionAgent_owner hs hmem hid).symm.trans howner)⟩
    rw [AlikeOn.sessions h] at hown
    exact Or.inr ⟨s, List.mem_of_mem_filter hown, hid⟩

theorem Alike.deleteAgentProfile (h : Alike B S T) (hS : S.Separated) (hT : T.Separated)
    (id : JsString) :
    LockStep (Alike B) S T (deleteAgentProfile id B) (deleteAgentProfile id B) := by
  refine .gets ?_
  have hsame := AlikeOn.agent?_eq h (k := id)
  cases hagent : T.agent? B id with
  | none =>
    rw [hsame, hagent]
    exact .pure h _
  | some agent =>
    rw [hagent] at hsame
    rw [hsame]
    refine .ite ⟨h.agent_used hS hsame, h.symm.agent_used hT hagent⟩ (fun _ _ ↦ .pure h _)
      fun _ _ ↦ ?_
    refine (LockStep.modify (AlikeOn.alike (I := S.ownsRun B) (J := S.ownsSession B) ?_)).bind
      fun _ _ _ _ _ h' ↦ .pure h' _
    have hagents := AlikeOn.agents h
    exact { h with agents := by rw [List.filter_comm, hagents, List.filter_comm] }

theorem Alike.createWorkspace {record : WorkspaceRecord} (h : Alike record.owner S T)
    {internalId : JsString} (hfreshS : ∀ w ∈ S.workspaces, w.internalId ≠ internalId)
    (hfreshT : ∀ w ∈ T.workspaces, w.internalId ≠ internalId) :
    LockStep (Alike record.owner) S T (createWorkspace internalId record)
      (createWorkspace internalId record) := by
  exact lockStep_alike (AlikeOn.insertWorkspace h rfl hfreshS hfreshT)

theorem Alike.updateWorkspaceState (h : Alike B S T) (updatedAt : ℤ) (id : JsString)
    (expected state : WorkspaceState) :
    LockStep (Alike B) S T (updateWorkspaceState updatedAt id B expected state)
      (updateWorkspaceState updatedAt id B expected state) := by
  refine .gets ?_
  rw [AlikeOn.workspace?_eq h]
  cases T.workspace? B id with
  | none => exact .pure h _
  | some workspace =>
    refine .ite Iff.rfl (fun _ _ ↦ ?_) fun _ _ ↦ .pure h _
    refine (LockStep.modify (AlikeOn.alike (I := S.ownsRun B) (J := S.ownsSession B) ?_)).bind
      fun _ _ _ _ _ h' ↦ .pure h' _
    have hcond : ∀ w : WorkspaceRow,
        decide (({ w with state, updatedAt } : WorkspaceRow).owner = B) = decide (w.owner = B) :=
      fun _ ↦ rfl
    have hworkspaces := AlikeOn.workspaces h
    exact { h with workspaces := by rw [Table.filter_update hcond, Table.filter_update hcond, hworkspaces] }

theorem Alike.createProviderConnection {record : ProviderConnectionRecord}
    (h : Alike record.owner S T) {internalId : JsString}
    (hfreshS : ∀ c ∈ S.connections, c.internalId ≠ internalId)
    (hfreshT : ∀ c ∈ T.connections, c.internalId ≠ internalId) :
    LockStep (Alike record.owner) S T (createProviderConnection internalId record)
      (createProviderConnection internalId record) := by
  have hconnections := AlikeOn.connections h
  have hmine : ∀ c : ProviderConnectionRow, c.owner = record.owner →
      decide (c.owner = record.owner) = true := fun c hc ↦ decide_eq_true hc
  refine .gets (lockStep_require_bind h (iff_of_true hfreshS hfreshT) fun _ _ ↦ ?_)
  refine lockStep_require_bind h (by rw [AlikeOn.connection?_eq h]) fun _ _ ↦ ?_
  refine lockStep_require_bind h ?_ fun _ _ ↦ .modify (AlikeOn.alike (I := S.ownsRun record.owner)
    (J := S.ownsSession record.owner) ?_)
  · rw [← forall_filter_iff hmine, hconnections, forall_filter_iff hmine]
  · exact { h with
      connections := by rw [List.filter_append, List.filter_append, hconnections] }

theorem Alike.updateProviderConnection (h : Alike B S T) (updatedAt : ℤ) (id : JsString)
    (status : ProviderConnectionStatus) (lastErrorCode : Option JsString) :
    LockStep (Alike B) S T (updateProviderConnection updatedAt id B status lastErrorCode)
      (updateProviderConnection updatedAt id B status lastErrorCode) := by
  refine .modify (AlikeOn.alike (I := S.ownsRun B) (J := S.ownsSession B) ?_)
  have hcond : ∀ c : ProviderConnectionRow,
      decide (({ c with status, lastErrorCode, updatedAt } : ProviderConnectionRow).owner = B)
        = decide (c.owner = B) := fun _ ↦ rfl
  have hconnections := AlikeOn.connections h
  exact { h with
    connections := by rw [Table.filter_update hcond, Table.filter_update hcond, hconnections] }

theorem Alike.deleteProviderConnection (h : Alike B S T) (id : JsString) :
    LockStep (Alike B) S T (deleteProviderConnection id B) (deleteProviderConnection id B) := by
  refine .modify (AlikeOn.alike (I := S.ownsRun B) (J := S.ownsSession B) ?_)
  have hconnections := AlikeOn.connections h
  exact { h with connections := by rw [List.filter_comm, hconnections, List.filter_comm] }

end Own

end Store

end LiteHarness
