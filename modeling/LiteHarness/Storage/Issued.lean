import LiteHarness.ControlPlane.ApprovalDigest
import LiteHarness.Storage.Logged

/-!
# The operations the service issues

The store takes any call; the service makes only some, and only in some circumstances. A `Licence`
bounds what one stretch of the service may do, `StoreOp.Issued` says under which licence and in
which store the service makes a call, and `Store.Evolves` is what a number of such calls does to
the store. `Store.LogStep` is the one case analysis the results on runs and logs are proved from.
-/

namespace LiteHarness

open Foundation

/-- The changes a stretch of the service may make. -/
structure Licence where
  /-- The requests it may create runs for. -/
  creates : InternalStartRunRequest → Prop := fun _ ↦ False
  /-- The runs it may create approvals and attempts for. -/
  files : JsString → Prop := fun _ ↦ False
  /-- The runs whose status and execution it may set. -/
  controls : JsString → Prop := fun _ ↦ False
  /-- The runs it may end without touching their execution. -/
  ends : JsString → Prop := fun _ ↦ False
  /-- It may resolve approvals. -/
  resolves : Prop := False
  /-- It may resolve them as approved. -/
  approves : Prop := False
  /-- It may put runs it controls into the queue. -/
  enqueues : Prop := False
  /-- It may take the settled promises of runs it controls out of the queue. -/
  drains : Prop := False
  /-- It may hand a call to the tools. -/
  executes : Prop := False

/-- The licence to give a run a status. -/
def Licence.Sets (L : Licence) (runId : JsString) (status : RunStatus) : Prop :=
  L.controls runId ∨ L.ends runId ∧ status.isTerminalRunStatus = true

/-! ## Issued operations -/

/-- The event of a restart: its run ends as orphaned, whatever its status was. -/
structure AppendRunEvent.IsRestart (params : AppendRunEvent) (previous : RunStatus) : Prop where
  type : params.type = .runOrphaned
  status : params.status = some .orphaned
  payload : params.payload =
    .lifecycle .orphaned { retryable := true, previousStatus := previous }

/-- The service appends the event in this store. -/
structure AppendRunEvent.Issued (L : Licence) (S : Store) (params : AppendRunEvent) : Prop where
  coherent : params.Coherent
  type : params.type ≠ .approvalResolved
  sets : ∀ status ∈ params.status, L.Sets params.runId status
  status : ∀ row, S.run? params.runId = some row → ∀ status ∈ params.status,
    RunStatus.Allowed row.status status ∨ params.IsRestart row.status

/-- The binding an approval was requested with. -/
def ApprovalRow.binding (P : Platform) (a : ApprovalRow) : ApprovalExecutionBinding where
  runId := a.runId
  toolCallId := a.toolCallId
  toolName := a.toolName
  toolArgumentsDigest := a.toolArgumentsDigest
  appId := a.owner.appId
  tenantId := a.owner.tenantId
  userId := a.owner.userId
  workspaceId := a.workspaceId
  policyGeneration := a.policyGeneration
  routeGeneration := a.routeGeneration
  expiresAt := P.toISOString a.expiresAt

/-- The service makes the call in this store. -/
def StoreOp.Issued (P : Platform) (L : Licence) (S : Store) : StoreOp → Prop
  | createOrGetRun _ _ id request => L.creates request ∧ ∃ u, id = js "run_" ++ u
  | appendEvent _ params => params.Issued L S
  | createApproval record => L.files record.runId ∧ record.status = .pending ∧
      P.approvalExecutionDigest (record.binding P) = .ok record.executionDigest
  | resolveApprovalAndAppendEvent _ _ id status digest payload =>
    L.resolves ∧ (status.1 = .approved → L.approves) ∧
      payload = .approvalResolved id status digest
  | createRunAttempt _ runId _ => L.files runId
  | completeRunningAttempts _ runId status => L.Sets runId status
  | recordUsage .. | resolveApproval .. | completeRunAttempt .. => False
  | _ => True

/-! ## Runs and logs -/

/-- The columns of a run that no operation changes. -/
structure RunIdentity where
  id : JsString
  idempotencyKey : JsString
  owner : ResourceOwner
  agentId : JsString
  workspaceId : JsString
  sessionId : Option JsString
  parentRunId : Option JsString
  depth : ℤ
  input : JsString
  budget : RunBudget
  createdAt : ℤ

/-- The unchanging part of a row. -/
def RunRow.identity (row : RunRow) : RunIdentity where
  id := row.id
  idempotencyKey := row.idempotencyKey
  owner := row.owner
  agentId := row.agentId
  workspaceId := row.workspaceId
  sessionId := row.sessionId
  parentRunId := row.parentRunId
  depth := row.depth
  input := row.input
  budget := row.budget
  createdAt := row.createdAt

namespace Store

/-- What an issued call does to runs and events: nothing, a creation, or the append of one event. -/
inductive LogStep (L : Licence) (S S' : Store) : Prop
  | silent (hruns : S'.runs = S.runs) (hevents : S'.events = S.events)
  | created {now : ℤ} {id u : JsString} {request : InternalStartRunRequest} {row : RunRow}
      (hid : id = js "run_" ++ u) (hlicence : L.creates request)
      (h : Created now id request row S S')
  | event {createdAt : ℤ} {params : AppendRunEvent} {row : RunRow}
      (h : S.Appendable params row) (hcoherent : params.Coherent)
      (hsets : ∀ status ∈ params.status, L.Sets params.runId status)
      (hstatus : ∀ status ∈ params.status,
        RunStatus.Allowed row.status status ∨ params.IsRestart row.status)
      (hruns : S'.runs = (S.recorded createdAt params row).runs)
      (hevents : S'.events = (S.recorded createdAt params row).events)

theorem LogStep.of_issued {P : Platform} {L : Licence} {S : Store} {op : StoreOp}
    (h : op.Issued P L S) : LogStep L S (op.apply P S) := by
  rcases op.cases P S with heq | hchange
  · rw [heq]
    exact .silent rfl rfl
  · generalize op.apply P S = S' at hchange
    cases hchange with
    | created hcreated =>
      obtain ⟨hlicence, u, rfl⟩ := h
      exact .created rfl hlicence hcreated
    | appended happend =>
      obtain ⟨hcoherent, -, hsets, hstatus⟩ := h
      exact .event happend hcoherent hsets (hstatus _ happend.row_eq) rfl rfl
    | usage => exact absurd h id
    | approvalResolved => exact absurd h id
    | attemptCompleted => exact absurd h id
    | acquired hacquired =>
      rw [hacquired.store]
      exact .silent rfl rfl
    | approvalRecorded hrow hres happend =>
      obtain ⟨-, -, rfl⟩ := h
      exact .event (S := S) ⟨happend.row_eq, happend.summary, happend.terminal, happend.fresh⟩
        ⟨rfl, rfl⟩ (fun _ h ↦ absurd h (Option.not_mem_none _))
        (fun _ h ↦ absurd h (Option.not_mem_none _)) rfl rfl
    | _ => exact .silent rfl rfl

/-- The store after a number of issued calls. -/
abbrev Evolves (P : Platform) (L : Licence) : Store → Store → Prop :=
  Relation.ReflTransGen fun S S' ↦ ∃ op : StoreOp, op.Issued P L S ∧ S' = op.apply P S

/-- What every step of runs and logs preserves, every evolution preserves. -/
theorem Evolves.preserves_log {P : Platform} {L : Licence} {p : Store → Prop}
    (hp : ∀ S S', LogStep L S S' → p S → p S') {S S' : Store} (h : Evolves P L S S')
    (hS : p S) : p S' := by
  induction h with
  | refl => exact hS
  | tail _ hstep ih =>
    obtain ⟨op, hissued, rfl⟩ := hstep
    exact hp _ _ (.of_issued hissued) ih

/-! ### The log invariant -/

theorem LogStep.logged {L : Licence} {S S' : Store} (h : LogStep L S S') (hS : S.Logged) :
    S'.Logged := by
  cases h with
  | silent hruns hevents => exact hS.congr hruns hevents
  | created _ _ h => exact hS.created h
  | event h hcoherent _ _ hruns hevents => exact (hS.recorded h hcoherent).congr hruns hevents

theorem Evolves.logged {P : Platform} {L : Licence} {S S' : Store} (h : Evolves P L S S')
    (hS : S.Logged) : S'.Logged :=
  h.preserves_log (fun _ _ hstep ↦ hstep.logged) hS

/-! ### The columns that never change -/

theorem run?_congr {S S' : Store} (h : S'.runs = S.runs) (k : JsString) : S'.run? k = S.run? k := by
  rw [run?, h, run?]

/-- A run that exists stays as it is or takes one event. -/
theorem LogStep.run?_some {L : Licence} {S S' : Store} (h : LogStep L S S') {k : JsString}
    {row : RunRow} (hrow : S.run? k = some row) :
    S'.run? k = some row ∨ ∃ createdAt params, params.runId = k ∧ S.Appendable params row ∧
      (∀ status ∈ params.status, L.Sets k status) ∧
      (∀ status ∈ params.status,
        RunStatus.Allowed row.status status ∨ params.IsRestart row.status) ∧
      S'.run? k = some (appended createdAt params row) := by
  cases h with
  | silent hruns _ => exact Or.inl ((run?_congr hruns k).trans hrow)
  | created hid hlicence h =>
    refine Or.inl ?_
    rw [h.run?_eq, if_neg, hrow]
    rintro rfl
    exact h.fresh row (run?_mem hrow).1 (run?_mem hrow).2
  | @event createdAt params r happend hcoherent hsets hstatus hruns hevents =>
    have hafter := (run?_congr hruns k).trans (run?_recorded createdAt params r S k)
    rw [hrow, Option.map_some, (run?_mem hrow).2] at hafter
    by_cases hk : k = params.runId
    · subst hk
      obtain rfl := Option.some.inj (hrow.symm.trans happend.row_eq)
      rw [if_pos rfl] at hafter
      exact Or.inr ⟨createdAt, params, rfl, happend, hsets, hstatus, hafter⟩
    · rw [if_neg hk] at hafter
      exact Or.inl hafter

/-- A run that appears has been created. -/
theorem LogStep.run?_none {L : Licence} {S S' : Store} (h : LogStep L S S') {k : JsString}
    {row : RunRow} (hnone : S.run? k = none) (hrow : S'.run? k = some row) :
    ∃ now u request, k = js "run_" ++ u ∧ L.creates request ∧ Created now k request row S S' := by
  cases h with
  | silent hruns _ => exact absurd ((run?_congr hruns k).symm.trans hrow) (by simp [hnone])
  | @created now id u request r hid hlicence h =>
    rw [h.run?_eq] at hrow
    split_ifs at hrow with hk
    · subst hk
      obtain rfl := Option.some.inj hrow
      exact ⟨now, u, request, hid, hlicence, h⟩
    · exact absurd (hnone.symm.trans hrow) (by simp)
  | @event createdAt params r happend hcoherent hsets hstatus hruns hevents =>
    have hafter := (run?_congr hruns k).trans (run?_recorded createdAt params r S k)
    rw [hnone, hrow] at hafter
    exact absurd hafter (by simp)

/-- What an evolution keeps of a run. -/
structure Kept (L : Licence) (row row' : RunRow) : Prop where
  identity : row'.identity = row.identity
  status : ¬L.controls row.id → row'.status = row.status ∨
    L.ends row.id ∧ row'.status.isTerminalRunStatus = true
  terminal : row.status.isTerminalRunStatus = true → row'.status = row.status

theorem Kept.trans {L : Licence} {a b c : RunRow} (h : Kept L a b) (h' : Kept L b c) :
    Kept L a c := by
  have hid : b.id = a.id := congrArg RunIdentity.id h.identity
  refine ⟨h'.identity.trans h.identity, fun hc ↦ ?_, fun ht ↦ ?_⟩
  · rcases h'.status (hid ▸ hc) with heq | hends
    · rw [heq]
      exact h.status hc
    · exact Or.inr (hid ▸ hends)
  · have hb := h.terminal ht
    exact (h'.terminal (hb ▸ ht)).trans hb

/-- An event leaves a terminal status alone. -/
theorem Appendable.keeps_terminal {S : Store} {params : AppendRunEvent} {row : RunRow}
    (h : S.Appendable params row) (ht : row.status.isTerminalRunStatus = true) :
    params.status = none := (h.terminal ht).2.1

theorem LogStep.keeps {L : Licence} {S S' : Store} (h : LogStep L S S') {k : JsString}
    {row : RunRow} (hrow : S.run? k = some row) : ∃ row', S'.run? k = some row' ∧ Kept L row row' := by
  rcases h.run?_some hrow with h | ⟨createdAt, params, rfl, happend, hsets, -, h⟩
  · exact ⟨row, h, rfl, fun _ ↦ Or.inl rfl, fun _ ↦ rfl⟩
  · refine ⟨_, h, rfl, fun hc ↦ ?_, fun ht ↦ ?_⟩
    · cases hs : params.status with
      | none => exact Or.inl (by simp [appended, hs])
      | some status =>
        rw [(run?_mem hrow).2] at hc ⊢
        exact Or.inr (by simpa [appended, hs] using (hsets status hs).resolve_left hc)
    · simp [appended, happend.keeps_terminal ht]

theorem Evolves.keeps {P : Platform} {L : Licence} {S S' : Store} (h : Evolves P L S S')
    {k : JsString} {row : RunRow} (hrow : S.run? k = some row) :
    ∃ row', S'.run? k = some row' ∧ Kept L row row' := by
  induction h with
  | refl => exact ⟨row, hrow, rfl, fun _ ↦ Or.inl rfl, fun _ ↦ rfl⟩
  | tail _ hstep ih =>
    obtain ⟨op, hissued, rfl⟩ := hstep
    obtain ⟨row₁, hrow₁, hkept₁⟩ := ih
    obtain ⟨row₂, hrow₂, hkept₂⟩ := (LogStep.of_issued hissued).keeps hrow₁
    exact ⟨row₂, hrow₂, hkept₁.trans hkept₂⟩

/-! ### The tree of runs -/

/-- Every run has an id, and hangs one level below an existing run of its owner or at the root. -/
def Rooted (S : Store) : Prop :=
  ∀ k row, S.run? k = some row → k ≠ [] ∧
    match truthy row.parentRunId with
    | some p => ∃ parent, S.run? p = some parent ∧ parent.owner = row.owner ∧
        row.depth = parent.depth + 1
    | none => row.depth = 0

theorem Rooted.empty : Rooted {} := fun _ _ h ↦ absurd h (by simp [run?, Table.lookup])

theorem LogStep.rooted {L : Licence} {S S' : Store} (h : LogStep L S S') (hS : S.Rooted) :
    S'.Rooted := by
  intro k row' hrow'
  have hparent : ∀ {p : JsString} {parent : RunRow}, S.run? p = some parent →
      ∃ parent', S'.run? p = some parent' ∧ parent'.owner = parent.owner ∧
        parent'.depth = parent.depth := by
    intro p parent hp
    obtain ⟨parent', hp', hkept⟩ := h.keeps hp
    exact ⟨parent', hp', congrArg RunIdentity.owner hkept.identity,
      congrArg RunIdentity.depth hkept.identity⟩
  cases hrow : S.run? k with
  | some row =>
    obtain ⟨row₁, hrow₁, hkept⟩ := h.keeps hrow
    obtain rfl := Option.some.inj (hrow'.symm.trans hrow₁)
    have hpar : row'.parentRunId = row.parentRunId := congrArg RunIdentity.parentRunId hkept.identity
    have hdepth : row'.depth = row.depth := congrArg RunIdentity.depth hkept.identity
    have howner : row'.owner = row.owner := congrArg RunIdentity.owner hkept.identity
    have hsound := (hS k row hrow).2
    refine ⟨(hS k row hrow).1, ?_⟩
    rw [hpar]
    generalize truthy row.parentRunId = parentRunId at hsound ⊢
    cases parentRunId with
    | some p =>
      obtain ⟨parent, hfound, ho, hd⟩ := hsound
      obtain ⟨parent', hfound', ho', hd'⟩ := hparent hfound
      exact ⟨parent', hfound', by rw [ho', ho, howner], by rw [hdepth, hd, hd']⟩
    | none => exact hdepth.trans hsound
  | none =>
    obtain ⟨now, u, request, rfl, -, hcreated⟩ := h.run?_none hrow hrow'
    obtain ⟨fingerprint, agent, workspace, session, rfl⟩ := hcreated.row_eq
    have hsound := hcreated.parent
    unfold ParentSound at hsound
    refine ⟨List.append_ne_nil_of_left_ne_nil (by decide) u, ?_⟩
    change match truthy request.parentRunId with | some p => _ | none => _
    generalize truthy request.parentRunId = parentRunId at hsound ⊢
    cases parentRunId with
    | some p =>
      obtain ⟨parent, hfound, ho, hd⟩ := hsound
      obtain ⟨parent', hfound', ho', hd'⟩ := hparent hfound
      exact ⟨parent', hfound', by rw [ho', ho]; rfl, by rw [hd']; simp [newRun, hd]⟩
    | none => exact hsound

theorem Evolves.rooted {P : Platform} {L : Licence} {S S' : Store} (h : Evolves P L S S')
    (hS : S.Rooted) : S'.Rooted :=
  h.preserves_log (fun _ _ hstep ↦ hstep.rooted) hS

end Store

end LiteHarness
