import LiteHarness.Storage.Operations

/-!
# What a store operation can do

For each operation the exact condition under which it returns and the store it then leaves. Every
operation is atomic: one that throws leaves the store as it was. `StoreOp.cases` collects the
outcomes of all operations, and invariants of the store are proved from it without unfolding an
operation again.
-/

namespace LiteHarness

open Foundation Foundation.Eff

namespace Store

/-! ## Guards and inserts -/

theorem require_eq_ok_iff {c : Prop} [Decidable c] {e : JsError} {S S' : Store} {u : PUnit} :
    (require c e).run S = (.ok u, S') ↔ c ∧ S' = S := by
  rw [require, run_ite]
  split_ifs with h
  · rw [pure_eq_ok_iff]
    exact ⟨fun h' ↦ ⟨h, h'.2⟩, fun h' ↦ ⟨rfl, h'.2⟩⟩
  · exact ⟨fun h' ↦ absurd h' not_throw_eq_ok, fun h' ↦ absurd h'.1 h⟩

theorem require_bind_eq_ok_iff {α : Type} {c : Prop} [Decidable c] {e : JsError}
    {f : PUnit → StoreM α} {S S' : Store} {a : α} :
    (require c e >>= f).run S = (.ok a, S') ↔ c ∧ (f ⟨⟩).run S = (.ok a, S') := by
  simp only [bind_eq_ok_iff, require_eq_ok_iff]
  exact ⟨fun ⟨_, _, ⟨hc, hS⟩, h⟩ ↦ ⟨hc, hS ▸ h⟩, fun ⟨hc, h⟩ ↦ ⟨_, _, ⟨hc, rfl⟩, h⟩⟩

theorem require_readOnly (c : Prop) [Decidable c] (e : JsError) : ReadOnly (require c e) := by
  intro S
  rw [require, run_ite]
  split_ifs <;> rfl

/-- A guard in front of an atomic program. -/
theorem require_bind_atomic {α : Type} {c : Prop} [Decidable c] {e : JsError}
    {f : PUnit → StoreM α} (hf : ∀ u, Atomic (f u)) : Atomic (require c e >>= f) :=
  (require_readOnly c e).bind_atomic hf

theorem insertRun_eq_ok_iff {row : RunRow} {S S' : Store} {u : PUnit} :
    (insertRun row).run S = (.ok u, S') ↔ (∀ r ∈ S.runs, r.id ≠ row.id) ∧
      (∀ p ∈ row.parentRunId, p = row.id ∨ (S.run? p).isSome = true) ∧
      S' = { S with runs := S.runs ++ [row] } := by
  simp only [insertRun, run_get_bind, require_bind_eq_ok_iff, modify_eq_ok_iff]

theorem insertEvent_eq_ok_iff {row : EventRow} {S S' : Store} {u : PUnit} :
    (insertEvent row).run S = (.ok u, S') ↔
      (∀ e ∈ S.events, e.runId = row.runId → e.sequence ≠ row.sequence) ∧
      S' = { S with events := S.events ++ [row] } := by
  simp only [insertEvent, run_get_bind, require_bind_eq_ok_iff, modify_eq_ok_iff]

theorem insertMessage_eq_ok_iff {row : MessageRow} {S S' : Store} {u : PUnit} :
    (insertMessage row).run S = (.ok u, S') ↔ (∀ m ∈ S.messages, m.id ≠ row.id) ∧
      S' = { S with messages := S.messages ++ [row] } := by
  simp only [insertMessage, run_get_bind, require_bind_eq_ok_iff, modify_eq_ok_iff]

theorem insertAgent_eq_ok {row : AgentRow} {S S' : Store} {u : PUnit}
    (h : (insertAgent row).run S = (.ok u, S')) :
    S' = { S with agents := S.agents ++ [row] } := by
  simp only [insertAgent, run_get_bind, require_bind_eq_ok_iff, modify_eq_ok_iff] at h
  exact h.2.2

theorem insertWorkspace_eq_ok {row : WorkspaceRow} {S S' : Store} {u : PUnit}
    (h : (insertWorkspace row).run S = (.ok u, S')) :
    S' = { S with workspaces := S.workspaces ++ [row] } := by
  simp only [insertWorkspace, run_get_bind, require_bind_eq_ok_iff, modify_eq_ok_iff] at h
  exact h.2.2

theorem insertSession_eq_ok {row : SessionRow} {S S' : Store} {u : PUnit}
    (h : (insertSession row).run S = (.ok u, S')) :
    S' = { S with sessions := S.sessions ++ [row] } := by
  simp only [insertSession, run_get_bind, require_bind_eq_ok_iff, modify_eq_ok_iff] at h
  exact h.2

theorem insertAgent_atomic (row : AgentRow) : Atomic (insertAgent row) :=
  ReadOnly.get.bind_atomic fun _ ↦ require_bind_atomic fun _ ↦
    require_bind_atomic fun _ ↦ (Returns.modify _).atomic

theorem insertWorkspace_atomic (row : WorkspaceRow) : Atomic (insertWorkspace row) :=
  ReadOnly.get.bind_atomic fun _ ↦ require_bind_atomic fun _ ↦
    require_bind_atomic fun _ ↦ (Returns.modify _).atomic

/-! ## Creating a run -/

/-- The parent link of a request is sound: the parent is of the same owner, one level above. -/
def ParentSound (S : Store) (request : InternalStartRunRequest) : Prop :=
  match truthy request.parentRunId with
  | some p => ∃ parent, S.run? p = some parent ∧ parent.owner = request.principal ∧
      request.depth = some (parent.depth + 1)
  | none => request.depth.getD 0 = 0

theorem requireReadyConnection_eq_ok {request : InternalStartRunRequest} {S S' : Store} {u : PUnit}
    (h : (requireReadyConnection request).run S = (.ok u, S')) : S' = S := by
  unfold requireReadyConnection at h
  split at h
  · exact (pure_eq_ok_iff.mp h).2
  · rw [run_get_bind] at h
    split at h
    · exact absurd h not_throw_eq_ok
    · exact (require_eq_ok_iff.mp h).2

theorem requireParent_eq_ok {request : InternalStartRunRequest} {S S' : Store} {u : PUnit}
    (h : (requireParent request).run S = (.ok u, S')) : S' = S ∧ S.ParentSound request := by
  unfold requireParent at h
  unfold ParentSound
  generalize truthy request.parentRunId = parentRunId at h ⊢
  cases parentRunId with
  | some p =>
    simp only [run_get_bind] at h
    cases hparent : S.run? p with
    | none =>
      rw [hparent] at h
      exact absurd h not_throw_eq_ok
    | some parent =>
      rw [hparent] at h
      simp only [require_bind_eq_ok_iff, require_eq_ok_iff] at h
      exact ⟨h.2.2, parent, hparent, h.1, h.2.1⟩
  | none =>
    rw [require_eq_ok_iff] at h
    exact ⟨h.2, h.1⟩

theorem ensureAgent_eq_ok {now : ℤ} {fresh : FreshInternalIds} {request : InternalStartRunRequest}
    {S S' : Store} {agent : AgentRow}
    (h : (ensureAgent now fresh request).run S = (.ok agent, S')) :
    ∃ agents, S' = { S with agents } := by
  rw [ensureAgent, run_get_bind] at h
  split at h
  · exact ⟨_, (pure_eq_ok_iff.mp h).2⟩
  · rw [require_bind_eq_ok_iff, bind_eq_ok_iff] at h
    obtain ⟨-, _, _, hinsert, hpure⟩ := h
    exact ⟨_, (pure_eq_ok_iff.mp hpure).2.trans (insertAgent_eq_ok hinsert)⟩

theorem ensureWorkspace_eq_ok {now : ℤ} {fresh : FreshInternalIds}
    {request : InternalStartRunRequest} {S S' : Store} {workspace : WorkspaceRow}
    (h : (ensureWorkspace now fresh request).run S = (.ok workspace, S')) :
    ∃ workspaces, S' = { S with workspaces } := by
  rw [ensureWorkspace, run_get_bind] at h
  split at h
  · exact ⟨_, (pure_eq_ok_iff.mp h).2⟩
  · rw [require_bind_eq_ok_iff, bind_eq_ok_iff] at h
    obtain ⟨-, _, _, hinsert, hpure⟩ := h
    exact ⟨_, (pure_eq_ok_iff.mp hpure).2.trans (insertWorkspace_eq_ok hinsert)⟩

theorem ensureSession_eq_ok {now : ℤ} {fresh : FreshInternalIds}
    {request : InternalStartRunRequest} {sessionId : JsString} {agent : AgentRow} {S S' : Store}
    {session : SessionRow}
    (h : (ensureSession now fresh request sessionId agent).run S = (.ok session, S')) :
    ∃ sessions, S' = { S with sessions } := by
  rw [ensureSession, run_get_bind] at h
  split at h
  · rw [require_bind_eq_ok_iff] at h
    exact ⟨_, (pure_eq_ok_iff.mp h.2).2⟩
  · obtain ⟨_, _, hinsert, hpure⟩ := bind_eq_ok_iff.mp h
    exact ⟨_, (pure_eq_ok_iff.mp hpure).2.trans (insertSession_eq_ok hinsert)⟩

/-- `S'` is `S` with the run `row` created: the run, its first event and its first message, and
possibly new agent, workspace and session rows. -/
structure Created (now : ℤ) (id : JsString) (request : InternalStartRunRequest) (row : RunRow)
    (S S' : Store) : Prop where
  row_eq : ∃ fingerprint agent workspace session,
    row = newRun now id fingerprint request agent workspace session
  fresh : ∀ r ∈ S.runs, r.id ≠ id
  parent : S.ParentSound request
  runs : S'.runs = S.runs ++ [row]
  noEvent : ∀ e ∈ S.events, e.runId = id → e.sequence ≠ 1
  events : S'.events = S.events ++ [acceptedEvent now id]
  messages : ∃ m : MessageRow, m.runId = some id ∧ S'.messages = S.messages ++ [m]
  leases : S'.leases = S.leases
  approvals : S'.approvals = S.approvals
  attempts : S'.attempts = S.attempts

theorem Created.id_eq {now : ℤ} {id : JsString} {request : InternalStartRunRequest} {row : RunRow}
    {S S' : Store} (h : Created now id request row S S') : row.id = id := by
  obtain ⟨_, _, _, _, rfl⟩ := h.row_eq
  rfl

/-- A query on runs after a creation. -/
theorem Created.run?_eq {now : ℤ} {id : JsString} {request : InternalStartRunRequest}
    {row : RunRow} {S S' : Store} (h : Created now id request row S S') (k : JsString) :
    S'.run? k = if id = k then some row else S.run? k := by
  have hid := h.id_eq
  rw [run?, h.runs, Table.lookup_append, Table.lookup_singleton, hid]
  split_ifs with hk
  · subst hk
    rw [Table.lookup_eq_none_iff.mpr h.fresh, Option.none_or]
  · rw [Option.or_none]
    rfl

theorem createRun_eq_ok {now : ℤ} {fresh : FreshInternalIds} {id fingerprint : JsString}
    {request : InternalStartRunRequest} {S S' : Store} {row : RunRow}
    (h : (createRun now fresh id fingerprint request).run S = (.ok row, S')) :
    Created now id request row S S' := by
  rw [createRun, bind_eq_ok_iff] at h
  obtain ⟨_, S₁, hconnection, h⟩ := h
  obtain rfl := requireReadyConnection_eq_ok hconnection
  rw [bind_eq_ok_iff] at h
  obtain ⟨_, S₂, hparent, h⟩ := h
  obtain ⟨rfl, hsound⟩ := requireParent_eq_ok hparent
  rw [bind_eq_ok_iff] at h
  obtain ⟨agent, S₃, hagent, h⟩ := h
  obtain ⟨agents, rfl⟩ := ensureAgent_eq_ok hagent
  rw [bind_eq_ok_iff] at h
  obtain ⟨workspace, S₄, hworkspace, h⟩ := h
  obtain ⟨workspaces, rfl⟩ := ensureWorkspace_eq_ok hworkspace
  rw [bind_eq_ok_iff] at h
  obtain ⟨session, S₅, hsession, h⟩ := h
  obtain ⟨sessions, rfl⟩ := ensureSession_eq_ok hsession
  rw [bind_eq_ok_iff] at h
  obtain ⟨_, S₆, hbound, h⟩ := h
  rw [requireSessionWorkspace, run_get_bind, require_eq_ok_iff] at hbound
  obtain ⟨-, rfl⟩ := hbound
  rw [bind_eq_ok_iff] at h
  obtain ⟨_, S₇, hrun, h⟩ := h
  obtain ⟨hfresh, -, rfl⟩ := insertRun_eq_ok_iff.mp hrun
  rw [bind_eq_ok_iff] at h
  obtain ⟨_, S₈, hevent, h⟩ := h
  obtain ⟨hnoEvent, rfl⟩ := insertEvent_eq_ok_iff.mp hevent
  rw [run_get_bind, bind_eq_ok_iff] at h
  obtain ⟨_, S₉, hmessage, h⟩ := h
  obtain ⟨-, rfl⟩ := insertMessage_eq_ok_iff.mp hmessage
  obtain ⟨rfl, rfl⟩ := pure_eq_ok_iff.mp h
  exact ⟨⟨_, _, _, _, rfl⟩, hfresh, hsound, rfl, hnoEvent, rfl, ⟨_, rfl, rfl⟩, rfl, rfl, rfl⟩

/-- A creation returns the caller's earlier run and changes nothing, or it creates the run. -/
theorem createOrGetRun_eq_ok {P : Platform} {now : ℤ} {fresh : FreshInternalIds} {id : JsString}
    {request : InternalStartRunRequest} {S S' : Store} {run : RunRecord} {created : Bool}
    (h : (createOrGetRun P now fresh id request).run S = (.ok (run, created), S')) :
    (created = false ∧ S' = S) ∨
      created = true ∧ ∃ row, run = toRunRecord row ∧ Created now id request row S S' := by
  rw [createOrGetRun, transaction_eq_ok_iff] at h
  dsimp only at h
  rw [run_get_bind] at h
  split at h
  · rw [require_bind_eq_ok_iff, pure_eq_ok_iff] at h
    exact Or.inl ⟨(Prod.mk.inj h.2.1).2, h.2.2⟩
  · rw [bind_eq_ok_iff] at h
    obtain ⟨row, _, hrow, hpure⟩ := h
    obtain ⟨hresult, rfl⟩ := pure_eq_ok_iff.mp hpure
    obtain ⟨rfl, rfl⟩ := Prod.mk.inj hresult
    exact Or.inr ⟨rfl, row, rfl, createRun_eq_ok hrow⟩

/-! ## Appending an event -/

/-- The event `params` becomes on the given row. -/
def eventOf (createdAt : ℤ) (params : AppendRunEvent) (row : RunRow) : EventRow :=
  ⟨params.runId, row.lastSequence + 1, params.type, params.payload, createdAt⟩

/-- The store after an append to the given row. -/
def recorded (createdAt : ℤ) (params : AppendRunEvent) (row : RunRow) (S : Store) : Store :=
  { S with
    events := S.events ++ [eventOf createdAt params row]
    runs := Table.update (fun r ↦ r.id = params.runId) (appended createdAt params) S.runs
    attempts :=
      match params.status with
      | some status =>
        if status.isTerminalRunStatus then (endAttempts createdAt params.runId status S).attempts
        else S.attempts
      | none => S.attempts }

/-- When an append returns. -/
structure Appendable (S : Store) (params : AppendRunEvent) (row : RunRow) : Prop where
  row_eq : S.run? params.runId = some row
  summary : params.type = .subagentCompleted → S.DetachedSubagentSummary params
  terminal : row.status.isTerminalRunStatus = true → S.DetachedSubagentSummary params
  fresh : ∀ e ∈ S.events, e.runId = params.runId → e.sequence ≠ row.lastSequence + 1

/-- What the statements after the guards leave. -/
theorem recorded_eq (createdAt : ℤ) (params : AppendRunEvent) (row : RunRow) (S : Store) :
    S.recorded createdAt params row =
      match params.status with
      | some status =>
        if status.isTerminalRunStatus then
          endAttempts createdAt params.runId status (updateRun params.runId
            (appended createdAt params) { S with events := S.events ++ [eventOf createdAt params row] })
        else
          updateRun params.runId (appended createdAt params)
            { S with events := S.events ++ [eventOf createdAt params row] }
      | none =>
        updateRun params.runId (appended createdAt params)
          { S with events := S.events ++ [eventOf createdAt params row] } := by
  rw [recorded]
  split
  · split_ifs <;> rfl
  · rfl

theorem appendEventWithinTransaction_eq_ok_iff {createdAt : ℤ} {params : AppendRunEvent}
    {S S' : Store} {event : EventRow} :
    (appendEventWithinTransaction createdAt params).run S = (.ok event, S') ↔
      ∃ row, S.Appendable params row ∧ event = eventOf createdAt params row ∧
        S' = S.recorded createdAt params row := by
  rw [appendEventWithinTransaction, run_get_bind]
  cases hrow : S.run? params.runId with
  | none =>
    refine ⟨fun h ↦ absurd h not_throw_eq_ok, ?_⟩
    rintro ⟨row, happend, -⟩
    exact absurd (hrow.symm.trans happend.row_eq) (by simp)
  | some row =>
    have hguards : S.Appendable params row ↔
        (params.type = .subagentCompleted → S.DetachedSubagentSummary params) ∧
        (row.status.isTerminalRunStatus = true → S.DetachedSubagentSummary params) ∧
        (∀ e ∈ S.events, e.runId = params.runId → e.sequence ≠ row.lastSequence + 1) :=
      ⟨fun h ↦ ⟨h.summary, h.terminal, h.fresh⟩, fun h ↦ ⟨hrow, h.1, h.2.1, h.2.2⟩⟩
    have hunique : (∃ r, S.Appendable params r ∧ event = eventOf createdAt params r ∧
        S' = S.recorded createdAt params r) ↔ S.Appendable params row ∧
        event = eventOf createdAt params row ∧ S' = S.recorded createdAt params row := by
      refine ⟨?_, fun h ↦ ⟨row, h⟩⟩
      rintro ⟨r, happend, h⟩
      obtain rfl := Option.some.inj (hrow.symm.trans happend.row_eq)
      exact ⟨happend, h⟩
    rw [hunique, hguards]
    simp only [require_bind_eq_ok_iff, bind_eq_ok_iff (m := insertEvent _), insertEvent_eq_ok_iff,
      and_assoc]
    refine and_congr_right fun _ ↦ and_congr_right fun _ ↦ ?_
    constructor
    · rintro ⟨_, _, hfresh, rfl, h⟩
      refine ⟨hfresh, ?_⟩
      rw [run_modify_bind] at h
      rw [recorded_eq]
      cases hstatus : params.status with
      | none =>
        simp only [hstatus] at h ⊢
        exact pure_eq_ok_iff.mp h
      | some status =>
        simp only [hstatus] at h ⊢
        split_ifs at h ⊢
        · rw [run_modify_bind] at h
          exact pure_eq_ok_iff.mp h
        · exact pure_eq_ok_iff.mp h
    · rintro ⟨hfresh, rfl, rfl⟩
      refine ⟨⟨⟩, _, hfresh, rfl, ?_⟩
      rw [run_modify_bind, recorded_eq]
      cases hstatus : params.status with
      | none => rfl
      | some status =>
        simp only
        split_ifs <;> rfl

theorem appendEvent_eq_ok_iff {createdAt : ℤ} {params : AppendRunEvent} {S S' : Store}
    {event : EventRow} :
    (appendEvent createdAt params).run S = (.ok event, S') ↔
      ∃ row, S.Appendable params row ∧ event = eventOf createdAt params row ∧
        S' = S.recorded createdAt params row := by
  rw [appendEvent, transaction_eq_ok_iff, appendEventWithinTransaction_eq_ok_iff]

/-! ## Messages and usage -/

theorem appendSessionMessage_eq_ok {createdAt : ℤ} {params : AppendSessionMessage} {S S' : Store}
    {message : MessageRow}
    (h : (appendSessionMessage createdAt params).run S = (.ok message, S')) :
    message.runId = some params.runId ∧
      (∃ run, S.run? params.runId = some run ∧ run.status.isTerminalRunStatus = false) ∧
      S' = { S with messages := S.messages ++ [message] } := by
  rw [appendSessionMessage, transaction_eq_ok_iff] at h
  dsimp only at h
  rw [run_get_bind] at h
  split at h
  · exact absurd h not_throw_eq_ok
  · rename_i run hrun
    split at h
    · exact absurd h not_throw_eq_ok
    · rw [require_bind_eq_ok_iff, require_bind_eq_ok_iff, bind_eq_ok_iff] at h
      obtain ⟨-, hstatus, _, _, hinsert, hpure⟩ := h
      obtain ⟨rfl, rfl⟩ := pure_eq_ok_iff.mp hpure
      exact ⟨rfl, ⟨run, hrun, hstatus⟩, (insertMessage_eq_ok_iff.mp hinsert).2⟩

theorem recordUsage_eq_ok {updatedAt : ℤ} {runId : JsString} {delta : RunUsageDelta} {S S' : Store}
    {record : RunRecord} (h : (recordUsage updatedAt runId delta).run S = (.ok record, S')) :
    (∃ run, S.run? runId = some run ∧ run.status.isTerminalRunStatus = false) ∧
      S' = updateRun runId (withUsage updatedAt delta) S := by
  rw [recordUsage, transaction_eq_ok_iff] at h
  rw [run_get_bind] at h
  split at h
  · exact absurd h not_throw_eq_ok
  · rename_i run hrun
    rw [require_bind_eq_ok_iff, run_modify_bind] at h
    exact ⟨⟨run, hrun, h.1⟩, (pure_eq_ok_iff.mp h.2).2⟩

/-! ## Leases -/

/-- What a successful acquisition has seen and done. -/
structure Acquired (now : ℤ) (workspaceId runId : JsString) (ttlMs : ℤ) (w : JsString)
    (S S' : Store) : Prop where
  target : S.leaseTarget runId workspaceId = some w
  free : ∀ row ∈ S.lease? w, ¬heldByOther row runId now
  store : S' = upsertLease
    ⟨w, some runId, grantToken (S.lease? w) runId now, some (now + ttlMs), now⟩ S

theorem acquireWorkspaceLease_eq_ok {now : ℤ} {workspaceId runId : JsString} {ttlMs : ℤ}
    {S S' : Store} {result : Option WorkspaceLease}
    (h : (acquireWorkspaceLease now workspaceId runId ttlMs).run S = (.ok result, S')) :
    (result = none ∧ S' = S) ∨ ∃ w, Acquired now workspaceId runId ttlMs w S S' ∧
      result = some ⟨workspaceId, runId, grantToken (S.lease? w) runId now, now + ttlMs⟩ := by
  rw [acquireWorkspaceLease, transaction_eq_ok_iff] at h
  dsimp only at h
  rw [run_get_bind] at h
  split at h
  · exact absurd h not_throw_eq_ok
  · rename_i run hrun
    split at h
    · exact absurd h not_throw_eq_ok
    · rename_i w hw
      rw [require_bind_eq_ok_iff] at h
      obtain ⟨hworkspace, h⟩ := h
      split_ifs at h with hheld
      · exact Or.inl (pure_eq_ok_iff.mp h)
      · rw [run_modify_bind, pure_eq_ok_iff] at h
        refine Or.inr ⟨w, ⟨?_, fun row hrow hother ↦ hheld ⟨row, hrow, hother⟩, h.2⟩, h.1⟩
        rw [leaseTarget, hrun, Option.bind_some, if_pos hworkspace]
        exact eq_some_of_truthy hw

theorem renewWorkspaceLease_eq_ok {now : ℤ} {lease : WorkspaceLease} {ttlMs : ℤ} {S S' : Store}
    {result : Option WorkspaceLease}
    (h : (renewWorkspaceLease now lease ttlMs).run S = (.ok result, S')) :
    (result = none ∧ S' = S) ∨ ∃ row, S.leaseRow? lease = some row ∧ row.HeldBy lease ∧
      row.Live now ∧ result = some { lease with expiresAt := now + ttlMs } ∧
      S' = updateLease row.workspaceInternalId
        (fun r ↦ { r with expiresAt := some (now + ttlMs), updatedAt := now }) S := by
  rw [renewWorkspaceLease, run_get_bind] at h
  split at h
  · exact Or.inl (pure_eq_ok_iff.mp h)
  · rename_i row hrow
    split_ifs at h with hheld
    · rw [run_modify_bind, pure_eq_ok_iff] at h
      exact Or.inr ⟨row, hrow, hheld.1, hheld.2, h.1, h.2⟩
    · exact Or.inl (pure_eq_ok_iff.mp h)

theorem releaseWorkspaceLease_eq_ok {now : ℤ} {lease : WorkspaceLease} {S S' : Store}
    {result : Bool} (h : (releaseWorkspaceLease now lease).run S = (.ok result, S')) :
    (result = false ∧ S' = S) ∨ ∃ row, S.leaseRow? lease = some row ∧ row.HeldBy lease ∧
      result = true ∧ S' = updateLease row.workspaceInternalId
        (fun r ↦ { r with ownerRunId := none, expiresAt := none, updatedAt := now }) S := by
  rw [releaseWorkspaceLease, run_get_bind] at h
  split at h
  · exact Or.inl (pure_eq_ok_iff.mp h)
  · rename_i row hrow
    split_ifs at h with hheld
    · rw [run_modify_bind, pure_eq_ok_iff] at h
      exact Or.inr ⟨row, hrow, hheld, h.1, h.2⟩
    · exact Or.inl (pure_eq_ok_iff.mp h)

/-! ## Approvals -/

theorem createApproval_eq_ok {record result : ApprovalRow} {S S' : Store}
    (h : (createApproval record).run S = (.ok result, S')) :
    result = record ∧ (∀ a ∈ S.approvals, a.id ≠ record.id) ∧
      (S.run? record.runId).isSome = true ∧
      S' = { S with approvals := S.approvals ++ [record] } := by
  rw [createApproval, run_get_bind, require_bind_eq_ok_iff, require_bind_eq_ok_iff,
    run_modify_bind, pure_eq_ok_iff] at h
  exact ⟨h.2.2.1, h.1, h.2.1, h.2.2.2⟩

theorem resolveApprovalWithinTransaction_eq_ok {resolvedAt : ℤ} {id : JsString}
    {status : ApprovalResolution} {digest : JsString} {S S' : Store} {changed : Bool}
    (h : (resolveApprovalWithinTransaction resolvedAt id status digest).run S
      = (.ok changed, S')) :
    (changed = false ∧ S' = S ∧
        ∀ row, S.approval? id = some row → ¬S.Resolvable row status digest resolvedAt) ∨
      changed = true ∧ S' = setApproval id status resolvedAt S ∧
        ∃ row, S.approval? id = some row ∧ S.Resolvable row status digest resolvedAt := by
  rw [resolveApprovalWithinTransaction, run_get_bind] at h
  split at h
  · rename_i hnone
    obtain ⟨rfl, rfl⟩ := pure_eq_ok_iff.mp h
    refine Or.inl ⟨rfl, rfl, fun row hrow ↦ ?_⟩
    exact absurd (hnone.symm.trans hrow) (by simp)
  · rename_i row hrow
    split_ifs at h with hres
    · rw [run_modify_bind, pure_eq_ok_iff] at h
      exact Or.inr ⟨h.1, h.2, row, hrow, hres⟩
    · obtain ⟨rfl, rfl⟩ := pure_eq_ok_iff.mp h
      refine Or.inl ⟨rfl, rfl, fun row' hrow' ↦ ?_⟩
      rwa [Option.some.inj (hrow'.symm.trans hrow)]

theorem approval?_setApproval (id : JsString) (status : ApprovalStatus) (resolvedAt : ℤ)
    (S : Store) (k : JsString) :
    (setApproval id status resolvedAt S).approval? k = (S.approval? k).map fun row ↦
      if row.id = id then row.resolve status resolvedAt else row := by
  refine (Table.lookup_update (f := ApprovalRow.resolve status resolvedAt) (fun _ ↦ rfl) k
    S.approvals).trans ?_
  simp only [decide_eq_true_eq]
  rfl

/-- A resolution with its event changes nothing, or resolves the record and appends the event. -/
theorem resolveApprovalAndAppendEvent_eq_ok {resolvedAt createdAt : ℤ} {id : JsString}
    {status : ApprovalResolution} {digest : JsString} {payload : EventPayload} {S S' : Store}
    {result : Option ApprovalRow}
    (h : (resolveApprovalAndAppendEvent resolvedAt createdAt id status digest payload).run S
      = (.ok result, S')) :
    (S' = S ∧ result = S.approval? id ∧
        ∀ row, S.approval? id = some row → ¬S.Resolvable row status digest resolvedAt) ∨
      ∃ row run, S.approval? id = some row ∧ S.Resolvable row status digest resolvedAt ∧
        result = some (row.resolve status resolvedAt) ∧
        (setApproval id status resolvedAt S).Appendable
          { runId := row.runId, type := .approvalResolved, payload } run ∧
        S' = (setApproval id status resolvedAt S).recorded createdAt
          { runId := row.runId, type := .approvalResolved, payload } run := by
  rw [resolveApprovalAndAppendEvent, transaction_eq_ok_iff, bind_eq_ok_iff] at h
  obtain ⟨changed, S₁, hresolve, h⟩ := h
  rw [run_get_bind] at h
  rcases resolveApprovalWithinTransaction_eq_ok hresolve with
    ⟨rfl, rfl, hno⟩ | ⟨rfl, rfl, row, hrow, hres⟩
  · refine Or.inl ?_
    split at h
    · rename_i record hrecord
      simp only [Bool.false_eq_true, if_false] at h
      obtain ⟨rfl, rfl⟩ := pure_eq_ok_iff.mp h
      exact ⟨rfl, hrecord.symm, hno⟩
    · rename_i hnone
      obtain ⟨rfl, rfl⟩ := pure_eq_ok_iff.mp h
      exact ⟨rfl, hnone.symm, hno⟩
  · refine Or.inr ?_
    have hid : row.id = id := Table.key_of_lookup hrow
    have hafter : (setApproval id status resolvedAt S).approval? id
        = some (row.resolve status resolvedAt) := by
      rw [approval?_setApproval, hrow, Option.map_some, if_pos hid]
    rw [hafter] at h
    simp only [if_true] at h
    rw [bind_eq_ok_iff] at h
    obtain ⟨_, S₂, happend, hpure⟩ := h
    obtain ⟨run, happendable, -, rfl⟩ := appendEventWithinTransaction_eq_ok_iff.mp happend
    obtain ⟨rfl, rfl⟩ := pure_eq_ok_iff.mp hpure
    exact ⟨row, run, hrow, hres, rfl, happendable, rfl⟩

/-! ## Attempts -/

theorem createRunAttempt_eq_ok {startedAt : ℤ} {runId id : JsString} {S S' : Store}
    {attempt : AttemptRow}
    (h : (createRunAttempt startedAt runId id).run S = (.ok attempt, S')) :
    attempt.id = id ∧ attempt.runId = runId ∧ attempt.status = .running ∧
      (∀ a ∈ S.attempts, a.id ≠ id) ∧
      (S.run? runId).isSome = true ∧ S' = { S with attempts := S.attempts ++ [attempt] } := by
  rw [createRunAttempt, run_get_bind] at h
  dsimp only at h
  rw [require_bind_eq_ok_iff, require_bind_eq_ok_iff, require_bind_eq_ok_iff, run_modify_bind,
    pure_eq_ok_iff] at h
  obtain ⟨hid, -, hrun, rfl, rfl⟩ := h
  exact ⟨rfl, rfl, rfl, hid, hrun, rfl⟩

theorem createRunAttempt_atomic (startedAt : ℤ) (runId id : JsString) :
    Atomic (createRunAttempt startedAt runId id) :=
  ReadOnly.get.bind_atomic fun _ ↦ require_bind_atomic fun _ ↦ require_bind_atomic fun _ ↦
    require_bind_atomic fun _ ↦ ((Returns.modify _).bind fun _ ↦ Returns.pure _).atomic

theorem require_throws {p : JsError → Prop} {c : Prop} [Decidable c] {e : JsError} (h : p e) :
    Throws p (require c e) := .ite (Returns.pure _).throws (.throw h)

theorem createRunAttempt_throws (startedAt : ℤ) (runId id : JsString) :
    Throws (fun e ↦ e.kind = .error) (createRunAttempt startedAt runId id) :=
  .gets fun _ ↦ .bind (require_throws rfl) fun _ ↦ .bind (require_throws rfl) fun _ ↦
    .bind (require_throws rfl) fun _ ↦
      ((Returns.modify _).bind fun _ ↦ Returns.pure _).throws

theorem completeRunAttempt_eq_ok {now : ℤ} {id : JsString} {status : RunStatus.Terminal}
    {S S' : Store} {attempt : AttemptRow}
    (h : (completeRunAttempt now id status).run S = (.ok attempt, S')) :
    S' = { S with
      attempts := Table.update (fun a ↦ a.id = id ∧ a.status = .running)
        (fun a ↦ { a with status := status, endedAt := some now }) S.attempts } := by
  rw [completeRunAttempt, run_modify_bind, run_get_bind] at h
  split at h
  · exact (pure_eq_ok_iff.mp h).2
  · exact absurd h not_throw_eq_ok

/-- Completing an attempt that does not exist has updated no row when it throws. -/
theorem completeRunAttempt_atomic (now : ℤ) (id : JsString) (status : RunStatus.Terminal) :
    Atomic (completeRunAttempt now id status) := by
  intro S e S' h
  rw [completeRunAttempt, run_modify_bind, run_get_bind] at h
  split at h
  · exact absurd h not_pure_eq_error
  · rename_i hnone
    have hkeep : ∀ a ∈ S.attempts, a.id ≠ id := by
      refine fun a ha hid ↦ Table.lookup_eq_none_iff.mp hnone _ (Table.mem_update.mpr ⟨a, ha, rfl⟩) ?_
      split_ifs <;> exact hid
    rw [run_throw, Prod.mk.injEq] at h
    rw [← h.2, Table.update_eq_self fun a ha ↦ by simp [hkeep a ha]]

end Store

/-! ## All operations -/

/-- The operations on agents, workspaces and provider connections. -/
def StoreOp.IsConfiguration : StoreOp → Prop
  | createAgentProfile .. | deleteAgentProfile .. | createWorkspace .. | updateWorkspaceState ..
  | createProviderConnection .. | updateProviderConnection .. | deleteProviderConnection .. => True
  | _ => False

/-- What each operation does to the store when it does something. -/
inductive StoreOp.Change (S : Store) : StoreOp → Store → Prop
  | created {now fresh id request row S'} (h : Store.Created now id request row S S') :
      Change S (.createOrGetRun now fresh id request) S'
  | appended {createdAt params row} (h : S.Appendable params row) :
      Change S (.appendEvent createdAt params) (S.recorded createdAt params row)
  | message {createdAt run message} {params : Store.AppendSessionMessage}
      (hid : message.runId = some params.runId) (hrun : S.run? params.runId = some run)
      (hactive : run.status.isTerminalRunStatus = false) :
      Change S (.appendSessionMessage createdAt params)
        { S with messages := S.messages ++ [message] }
  | usage {updatedAt runId delta run} (hrun : S.run? runId = some run)
      (hactive : run.status.isTerminalRunStatus = false) :
      Change S (.recordUsage updatedAt runId delta)
        (Store.updateRun runId (Store.withUsage updatedAt delta) S)
  | acquired {now workspaceId runId ttlMs w S'}
      (h : Store.Acquired now workspaceId runId ttlMs w S S') :
      Change S (.acquireWorkspaceLease now workspaceId runId ttlMs) S'
  | renewed {now lease ttlMs row} (hrow : S.leaseRow? lease = some row)
      (hheld : row.HeldBy lease) (hlive : row.Live now) :
      Change S (.renewWorkspaceLease now lease ttlMs)
        (Store.updateLease row.workspaceInternalId
          (fun r ↦ { r with expiresAt := some (now + ttlMs), updatedAt := now }) S)
  | released {now lease row} (hrow : S.leaseRow? lease = some row) (hheld : row.HeldBy lease) :
      Change S (.releaseWorkspaceLease now lease)
        (Store.updateLease row.workspaceInternalId
          (fun r ↦ { r with ownerRunId := none, expiresAt := none, updatedAt := now }) S)
  | approvalCreated {record} (hfresh : ∀ a ∈ S.approvals, a.id ≠ record.id)
      (hrun : (S.run? record.runId).isSome = true) :
      Change S (.createApproval record) { S with approvals := S.approvals ++ [record] }
  | approvalResolved {resolvedAt id row digest} {status : ApprovalResolution}
      (hrow : S.approval? id = some row) (hres : S.Resolvable row status digest resolvedAt) :
      Change S (.resolveApproval resolvedAt id status digest)
        (Store.setApproval id status resolvedAt S)
  | approvalRecorded {resolvedAt createdAt id row run digest payload}
      {status : ApprovalResolution} (hrow : S.approval? id = some row)
      (hres : S.Resolvable row status digest resolvedAt)
      (happend : (Store.setApproval id status resolvedAt S).Appendable
        { runId := row.runId, type := .approvalResolved, payload } run) :
      Change S (.resolveApprovalAndAppendEvent resolvedAt createdAt id status digest payload)
        ((Store.setApproval id status resolvedAt S).recorded createdAt
          { runId := row.runId, type := .approvalResolved, payload } run)
  | attemptCreated {startedAt runId id attempt} (hid : attempt.id = id)
      (hattempt : attempt.runId = runId) (hstatus : attempt.status = .running)
      (hfresh : ∀ a ∈ S.attempts, a.id ≠ id) (hrun : (S.run? runId).isSome = true) :
      Change S (.createRunAttempt startedAt runId id)
        { S with attempts := S.attempts ++ [attempt] }
  | attemptCompleted {now id} {status : RunStatus.Terminal} :
      Change S (.completeRunAttempt now id status)
        { S with
          attempts := Table.update (fun a ↦ a.id = id ∧ a.status = .running)
            (fun a ↦ { a with status := status, endedAt := some now }) S.attempts }
  | attemptsCompleted {now runId} {status : RunStatus.Terminal} :
      Change S (.completeRunningAttempts now runId status) (Store.endAttempts now runId status S)
  | configured {op agents workspaces connections} (h : op.IsConfiguration) :
      Change S op { S with agents, workspaces, connections }

open Store in
/-- No operation throws halfway. -/
theorem StoreOp.call_atomic (P : Platform) (op : StoreOp) : Atomic (op.call P) := by
  have hdone : ∀ {α : Type} {m : StoreM α}, Atomic m → Atomic (do let _ ← m) :=
    fun hm ↦ hm.bind_returns fun _ ↦ Returns.pure _
  have hread : ∀ {α : Type} {m : StoreM α}, Atomic m → ∀ {β : Type} (g : α → Store → β),
      Atomic (do let a ← m; let S ← get; pure (g a S)) :=
    fun hm _ g ↦ hm.bind_returns fun _ s ↦ ⟨_, s, rfl⟩
  cases op with
  | createOrGetRun => exact hdone (Atomic.transaction _)
  | appendEvent => exact hdone (Atomic.transaction _)
  | appendSessionMessage => exact hdone (Atomic.transaction _)
  | recordUsage => exact hdone (Atomic.transaction _)
  | acquireWorkspaceLease => exact hdone (Atomic.transaction _)
  | renewWorkspaceLease now lease ttlMs =>
    refine hdone (ReadOnly.get.bind_atomic fun S ↦ ?_)
    cases S.leaseRow? lease with
    | none => exact (Returns.pure _).atomic
    | some row =>
      dsimp only
      split_ifs
      · exact ((Returns.modify _).bind fun _ ↦ Returns.pure _).atomic
      · exact (Returns.pure _).atomic
  | releaseWorkspaceLease now lease =>
    refine hdone (ReadOnly.get.bind_atomic fun S ↦ ?_)
    cases S.leaseRow? lease with
    | none => exact (Returns.pure _).atomic
    | some row =>
      dsimp only
      split_ifs
      · exact ((Returns.modify _).bind fun _ ↦ Returns.pure _).atomic
      · exact (Returns.pure _).atomic
  | createApproval =>
    exact hdone (ReadOnly.get.bind_atomic fun S ↦ require_bind_atomic fun _ ↦
      require_bind_atomic fun _ ↦ ((Returns.modify _).bind fun _ ↦ Returns.pure _).atomic)
  | resolveApproval => exact hdone (Atomic.transaction _)
  | resolveApprovalAndAppendEvent => exact hdone (Atomic.transaction _)
  | createRunAttempt startedAt runId id => exact hdone (createRunAttempt_atomic startedAt runId id)
  | completeRunAttempt now id status => exact hdone (completeRunAttempt_atomic now id status)
  | completeRunningAttempts =>
    exact hdone (ReadOnly.get.bind_atomic fun S ↦
      ((Returns.modify _).bind fun _ ↦ Returns.pure _).atomic)
  | createAgentProfile internalId record =>
    exact hdone (hread (insertAgent_atomic _) fun _ S ↦ S.getAgentProfile record.id record.owner)
  | deleteAgentProfile id owner =>
    refine hdone (ReadOnly.get.bind_atomic fun S ↦ ?_)
    cases S.agent? owner id with
    | none => exact (Returns.pure _).atomic
    | some agent =>
      dsimp only
      split_ifs
      · exact (Returns.pure _).atomic
      · exact ((Returns.modify _).bind fun _ ↦ Returns.pure _).atomic
  | createWorkspace => exact insertWorkspace_atomic _
  | updateWorkspaceState updatedAt id owner expected state =>
    refine hdone (ReadOnly.get.bind_atomic fun S ↦ ?_)
    cases S.workspace? owner id with
    | none => exact (Returns.pure _).atomic
    | some workspace =>
      dsimp only
      split_ifs
      · exact ((Returns.modify _).bind fun _ ↦ Returns.pure _).atomic
      · exact (Returns.pure _).atomic
  | createProviderConnection =>
    exact ReadOnly.get.bind_atomic fun S ↦ require_bind_atomic fun _ ↦
      require_bind_atomic fun _ ↦ require_bind_atomic fun _ ↦ (Returns.modify _).atomic
  | updateProviderConnection => exact (Returns.modify _).atomic
  | deleteProviderConnection => exact (Returns.modify _).atomic

/-- A call whose result is forgotten. -/
theorem discard_eq_ok {α : Type} {m : StoreM α} {S S' : Store} {u : PUnit}
    (h : (do let _ ← m).run S = (.ok u, S')) : ∃ a, m.run S = (.ok a, S') := by
  obtain ⟨a, _, hrun, hpure⟩ := bind_eq_ok_iff.mp h
  obtain ⟨-, rfl⟩ := pure_eq_ok_iff.mp hpure
  exact ⟨a, hrun⟩

open Store in
/-- An operation that returns has changed nothing or made its change. -/
theorem StoreOp.call_eq_ok {P : Platform} {op : StoreOp} {S S' : Store} {u : PUnit}
    (h : (op.call P).run S = (.ok u, S')) : S' = S ∨ op.Change S S' := by
  cases op with
  | createOrGetRun now fresh id request =>
    obtain ⟨⟨run, created⟩, hrun⟩ := discard_eq_ok h
    rcases createOrGetRun_eq_ok hrun with ⟨-, rfl⟩ | ⟨-, row, -, hcreated⟩
    · exact Or.inl rfl
    · exact Or.inr (.created hcreated)
  | appendEvent createdAt params =>
    obtain ⟨_, hrun⟩ := discard_eq_ok h
    obtain ⟨row, happend, -, rfl⟩ := appendEvent_eq_ok_iff.mp hrun
    exact Or.inr (.appended happend)
  | appendSessionMessage createdAt params =>
    obtain ⟨_, hrun⟩ := discard_eq_ok h
    obtain ⟨hid, ⟨run, hrow, hactive⟩, rfl⟩ := appendSessionMessage_eq_ok hrun
    exact Or.inr (.message hid hrow hactive)
  | recordUsage updatedAt runId delta =>
    obtain ⟨_, hrun⟩ := discard_eq_ok h
    obtain ⟨⟨run, hrow, hactive⟩, rfl⟩ := recordUsage_eq_ok hrun
    exact Or.inr (.usage hrow hactive)
  | acquireWorkspaceLease now workspaceId runId ttlMs =>
    obtain ⟨_, hrun⟩ := discard_eq_ok h
    rcases acquireWorkspaceLease_eq_ok hrun with ⟨-, rfl⟩ | ⟨w, hacquired, -⟩
    · exact Or.inl rfl
    · exact Or.inr (.acquired hacquired)
  | renewWorkspaceLease now lease ttlMs =>
    obtain ⟨_, hrun⟩ := discard_eq_ok h
    rcases renewWorkspaceLease_eq_ok hrun with ⟨-, rfl⟩ | ⟨row, hrow, hheld, hlive, -, rfl⟩
    · exact Or.inl rfl
    · exact Or.inr (.renewed hrow hheld hlive)
  | releaseWorkspaceLease now lease =>
    obtain ⟨_, hrun⟩ := discard_eq_ok h
    rcases releaseWorkspaceLease_eq_ok hrun with ⟨-, rfl⟩ | ⟨row, hrow, hheld, -, rfl⟩
    · exact Or.inl rfl
    · exact Or.inr (.released hrow hheld)
  | createApproval record =>
    obtain ⟨_, hrun⟩ := discard_eq_ok h
    obtain ⟨-, hfresh, hrow, rfl⟩ := createApproval_eq_ok hrun
    exact Or.inr (.approvalCreated hfresh hrow)
  | resolveApproval resolvedAt id status digest =>
    obtain ⟨_, hrun⟩ := discard_eq_ok h
    rw [Store.resolveApproval, transaction_eq_ok_iff, bind_eq_ok_iff] at hrun
    obtain ⟨changed, S₁, hresolve, hget⟩ := hrun
    rw [run_get_bind, pure_eq_ok_iff] at hget
    obtain ⟨-, rfl⟩ := hget
    rcases resolveApprovalWithinTransaction_eq_ok hresolve with
      ⟨-, rfl, -⟩ | ⟨-, rfl, row, hrow, hres⟩
    · exact Or.inl rfl
    · exact Or.inr (.approvalResolved hrow hres)
  | resolveApprovalAndAppendEvent resolvedAt createdAt id status digest payload =>
    obtain ⟨_, hrun⟩ := discard_eq_ok h
    rcases resolveApprovalAndAppendEvent_eq_ok hrun with
      ⟨rfl, -⟩ | ⟨row, run, hrow, hres, -, happend, rfl⟩
    · exact Or.inl rfl
    · exact Or.inr (.approvalRecorded hrow hres happend)
  | createRunAttempt startedAt runId id =>
    obtain ⟨_, hrun⟩ := discard_eq_ok h
    obtain ⟨hid, hattempt, hstatus, hfresh, hrow, rfl⟩ := createRunAttempt_eq_ok hrun
    exact Or.inr (.attemptCreated hid hattempt hstatus hfresh hrow)
  | completeRunAttempt now id status =>
    obtain ⟨_, hrun⟩ := discard_eq_ok h
    obtain rfl := completeRunAttempt_eq_ok hrun
    exact Or.inr .attemptCompleted
  | completeRunningAttempts now runId status =>
    obtain ⟨_, hrun⟩ := discard_eq_ok h
    rw [Store.completeRunningAttempts, run_get_bind, run_modify_bind, pure_eq_ok_iff] at hrun
    obtain ⟨-, rfl⟩ := hrun
    exact Or.inr .attemptsCompleted
  | createAgentProfile internalId record =>
    obtain ⟨_, hrun⟩ := discard_eq_ok h
    obtain ⟨_, _, hinsert, hget⟩ := bind_eq_ok_iff.mp hrun
    rw [run_get_bind, pure_eq_ok_iff] at hget
    obtain rfl := hget.2.trans (insertAgent_eq_ok hinsert)
    exact Or.inr (.configured trivial)
  | deleteAgentProfile id owner =>
    obtain ⟨_, hrun⟩ := discard_eq_ok h
    rw [Store.deleteAgentProfile, run_get_bind] at hrun
    split at hrun
    · exact Or.inl (pure_eq_ok_iff.mp hrun).2
    · split_ifs at hrun
      · exact Or.inl (pure_eq_ok_iff.mp hrun).2
      · rw [run_modify_bind, pure_eq_ok_iff] at hrun
        obtain ⟨-, rfl⟩ := hrun
        exact Or.inr (.configured trivial)
  | createWorkspace internalId record =>
    obtain rfl := insertWorkspace_eq_ok h
    exact Or.inr (.configured trivial)
  | updateWorkspaceState updatedAt id owner expected state =>
    obtain ⟨_, hrun⟩ := discard_eq_ok h
    rw [Store.updateWorkspaceState, run_get_bind] at hrun
    split at hrun
    · exact Or.inl (pure_eq_ok_iff.mp hrun).2
    · split_ifs at hrun
      · rw [run_modify_bind, pure_eq_ok_iff] at hrun
        obtain ⟨-, rfl⟩ := hrun
        exact Or.inr (.configured trivial)
      · exact Or.inl (pure_eq_ok_iff.mp hrun).2
  | createProviderConnection internalId record =>
    simp only [StoreOp.call, Store.createProviderConnection, run_get_bind, require_bind_eq_ok_iff,
      modify_eq_ok_iff] at h
    obtain ⟨-, -, -, rfl⟩ := h
    exact Or.inr (.configured trivial)
  | updateProviderConnection updatedAt id owner status lastErrorCode =>
    obtain rfl := modify_eq_ok_iff.mp h
    exact Or.inr (.configured trivial)
  | deleteProviderConnection id owner =>
    obtain rfl := modify_eq_ok_iff.mp h
    exact Or.inr (.configured trivial)

/-- **Every call leaves the store as it was or makes the change of its operation.** -/
theorem StoreOp.cases (P : Platform) (op : StoreOp) (S : Store) :
    op.apply P S = S ∨ op.Change S (op.apply P S) := by
  rcases hrun : (op.call P).run S with ⟨e | u, S'⟩
  · rw [StoreOp.apply, hrun]
    exact Or.inl (op.call_atomic P S e S' hrun)
  · rw [StoreOp.apply, hrun]
    exact StoreOp.call_eq_ok hrun

end LiteHarness
