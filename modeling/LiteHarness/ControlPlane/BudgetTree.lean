import LiteHarness.ControlPlane.StatusPath

/-!
# Budgets in the tree of runs

What a call of `createChildRun` does to the store: nothing when it is rejected or replayed, and
otherwise one new run under the parent and one event in the parent's log. The budget a grant leaves
the parent follows from the arithmetic of `withinBudget_grant_iff`.
-/

namespace LiteHarness

open Foundation Foundation.Eff

namespace Store

/-- The limits of the children of a run, added up from the table. -/
theorem allocated_listChildRuns (d : BudgetDimension) (S : Store) (runId : JsString) :
    allocated d (S.listChildRuns runId) = ((S.runs.filter fun row ↦ row.parentRunId = some runId).map
      fun row ↦ d.limit row.budget).sum := by
  rw [allocated, listChildRuns, List.map_map]
  refine List.Perm.sum_eq (((List.perm_insertionSort _ _).map _).trans (List.Perm.of_eq ?_))
  rfl

/-- Events leave the tree and its budgets alone. -/
theorem allocated_recorded (d : BudgetDimension) (S : Store) (createdAt : ℤ)
    (params : AppendRunEvent) (row : RunRow) (runId : JsString) :
    allocated d ((S.recorded createdAt params row).listChildRuns runId)
      = allocated d (S.listChildRuns runId) := by
  rw [allocated_listChildRuns, allocated_listChildRuns]
  exact congrArg List.sum
    (Table.map_filter_update (f := appended createdAt params) (fun _ ↦ rfl) (fun _ ↦ rfl) S.runs)

/-- A creation adds the new run to the children of its parent. -/
theorem allocated_created (d : BudgetDimension) {S S' : Store} {now : ℤ} {id : JsString}
    {request : InternalStartRunRequest} {row : RunRow} (h : Created now id request row S S')
    {runId : JsString} (hparent : row.parentRunId = some runId) :
    allocated d (S'.listChildRuns runId)
      = allocated d (S.listChildRuns runId) + d.limit row.budget := by
  rw [allocated_listChildRuns, allocated_listChildRuns, h.runs, List.filter_append,
    List.map_append, List.sum_append]
  simp [hparent]

/-! ## The budget a creation merges -/

/-- The default budget of the agent a request names; an agent that is created with the run has the
program's. -/
def agentBudget (S : Store) (request : InternalStartRunRequest) : RunBudgetOverrides :=
  (S.agent? request.principal request.agent).elim DEFAULT_RUN_BUDGET.toOverrides
    AgentRow.defaultBudget

/-- The budget a creation stores: the request's, over the agent's, over the program's. -/
def draftBudget (S : Store) (request : InternalStartRunRequest) : RunBudget :=
  normalizeBudget ((S.agentBudget request).spread (request.budget.getD {}))

theorem ensureAgent_defaultBudget {now : ℤ} {fresh : FreshInternalIds}
    {request : InternalStartRunRequest} {S S' : Store} {agent : AgentRow}
    (h : (ensureAgent now fresh request).run S = (.ok agent, S')) :
    agent.defaultBudget = S.agentBudget request := by
  rw [agentBudget]
  rw [ensureAgent, run_get_bind] at h
  cases hfound : S.agent? request.principal request.agent with
  | some found =>
    rw [hfound] at h
    obtain ⟨rfl, -⟩ := pure_eq_ok_iff.mp h
    rfl
  | none =>
    rw [hfound] at h
    obtain ⟨-, h⟩ := require_bind_eq_ok_iff.mp h
    obtain ⟨_, _, -, h⟩ := bind_eq_ok_iff.mp h
    obtain ⟨rfl, -⟩ := pure_eq_ok_iff.mp h
    rfl

theorem createRun_draft {now : ℤ} {fresh : FreshInternalIds} {id fingerprint : JsString}
    {request : InternalStartRunRequest} {S S' : Store} {row : RunRow}
    (h : (createRun now fresh id fingerprint request).run S = (.ok row, S')) :
    row.budget = S.draftBudget request := by
  rw [createRun, bind_eq_ok_iff] at h
  obtain ⟨_, S₁, hconnection, h⟩ := h
  obtain rfl := requireReadyConnection_eq_ok hconnection
  rw [bind_eq_ok_iff] at h
  obtain ⟨_, S₂, hparent, h⟩ := h
  obtain ⟨rfl, -⟩ := requireParent_eq_ok hparent
  obtain ⟨agent, S₃, hagent, h⟩ := bind_eq_ok_iff.mp h
  -- the rest adds the agent's row to the others and returns
  obtain ⟨workspace, S₄, -, h⟩ := bind_eq_ok_iff.mp h
  obtain ⟨session, S₅, -, h⟩ := bind_eq_ok_iff.mp h
  obtain ⟨_, S₆, -, h⟩ := bind_eq_ok_iff.mp h
  obtain ⟨_, S₇, -, h⟩ := bind_eq_ok_iff.mp h
  obtain ⟨_, S₈, -, h⟩ := bind_eq_ok_iff.mp h
  rw [run_get_bind] at h
  obtain ⟨_, S₉, -, h⟩ := bind_eq_ok_iff.mp h
  obtain ⟨rfl, -⟩ := pure_eq_ok_iff.mp h
  rw [draftBudget, ← ensureAgent_defaultBudget hagent]
  rfl

theorem createOrGetRun_draft {P : Platform} {now : ℤ} {fresh : FreshInternalIds} {id : JsString}
    {request : InternalStartRunRequest} {S S' : Store} {run : RunRecord}
    (h : (createOrGetRun P now fresh id request).run S = (.ok (run, true), S')) :
    S.existingRun request.principal
        (scopedIdempotencyKey request.principal.userId request.idempotencyKey) = none ∧
      run.budget = S.draftBudget request := by
  rw [createOrGetRun, transaction_eq_ok_iff] at h
  dsimp only at h
  rw [run_get_bind] at h
  split at h
  · rw [require_bind_eq_ok_iff, pure_eq_ok_iff] at h
    exact absurd (Prod.mk.inj h.2.1).2.symm Bool.false_ne_true
  · rename_i hnone
    rw [bind_eq_ok_iff] at h
    obtain ⟨row, _, hrow, hpure⟩ := h
    obtain ⟨rfl, -⟩ := Prod.mk.inj (pure_eq_ok_iff.mp hpure).1
    exact ⟨hnone, createRun_draft hrow⟩

end Store

namespace Service

variable {H : Host} {O : Options}

/-- What a creation does to the store: nothing, or the creation of the run it answers. -/
theorem createRun_cases (request : InternalStartRunRequest) (s : Service) :
    match (createRun H request).run s with
    | (.error _, s') => s'.store = s.store
    | (.ok response, s') =>
      if response.idempotentReplay then s'.store = s.store
      else ∃ now row, Store.Created now response.runId request row s.store s'.store ∧
        s.store.existingRun request.principal
            (scopedIdempotencyKey request.principal.userId request.idempotencyKey) = none ∧
          row.budget = s.store.draftBudget request := by
  rw [createRun, run_get_bind, run_ite]
  split_ifs with haccepting
  · rfl
  · -- the ids and the reading leave the store alone
    simp only [createId, now, run_bind, run_get, andThen_ok, run_modify, run_pure]
    generalize hfresh : ({ s with readings := _, draws := _ } : Service) = s₁
    have hstore : s₁.store = s.store := by rw [← hfresh]
    rcases hrun : (onStore (Store.createOrGetRun H.toPlatform _ _ _ request)).run s₁ with
      ⟨e | ⟨run, created⟩, s₂⟩
    · rw [andThen_error, onStore_error (Atomic.transaction _) hrun]
      exact hstore
    · obtain ⟨S, hcall, rfl⟩ := onStore_eq_ok_iff.mp hrun
      rw [hstore] at hcall
      rcases Store.createOrGetRun_eq_ok hcall with ⟨rfl, rfl⟩ | ⟨rfl, row, rfl, hcreated⟩
      · exact rfl
      · have hrow : ∃ now row', Store.Created now row.id request row' s.store S ∧
            s.store.existingRun request.principal
                (scopedIdempotencyKey request.principal.userId request.idempotencyKey) = none ∧
              row'.budget = s.store.draftBudget request :=
          ⟨_, row, hcreated.id_eq.symm ▸ hcreated, Store.createOrGetRun_draft hcall⟩
        exact hrow

/-- The event a granted child leaves in the log of its parent. -/
def subagentStarted (parent : RunRecord) (request : ChildRunRequest) (start : InternalStartRunRequest)
    (childRunId : JsString) : AppendRunEvent where
  runId := parent.id
  type := .subagentStarted
  payload := .subagentStarted childRunId request.agent start.workspace (parent.depth + 1)

/-- The key under which a child is created. -/
def childIdempotencyKey (parent : RunRecord) (request : ChildRunRequest) : JsString :=
  js "subagent:" ++ parent.id ++ colon :: request.idempotencyKey

/-- A grant: the parent and the budget that were checked, and the two changes of the store. -/
structure Grant (H : Host) (O : Options) (request : ChildRunRequest) (childRunId : JsString)
    (S S' : Store) (row : RunRow) (budget : RunBudget) : Prop where
  parent : S.run? request.parentRunId = some row
  active : row.status.isTerminalRunStatus = false
  depth : row.depth < O.maxSubagentDepth
  bounded : boundedChildBudget (request.budget.getD {}) (toRunRecord row)
    (remainingChildBudget (toRunRecord row) (S.listChildRuns row.id)) = .ok budget
  created : ∃ now createdAt child S₁,
    let start := childRunRequest H (toRunRecord row) request
      (childIdempotencyKey (toRunRecord row) request) budget
    Store.Created now childRunId start child S S₁ ∧
      S' = S₁.recorded createdAt (subagentStarted (toRunRecord row) request start childRunId) row

/-- **A child is granted in one piece**: a request that is rejected or replayed leaves the store as
it was. -/
theorem createChildRun_cases (request : ChildRunRequest) {s : Service} (h : s.store.Logged) :
    match (createChildRun H O request).run s with
    | (.error _, s') => s'.store = s.store
    | (.ok response, s') =>
      if response.idempotentReplay then s'.store = s.store
      else ∃ row budget, Grant H O request response.runId s.store s'.store row budget := by
  rw [createChildRun, getRun_bind_run, Store.getRun]
  cases hrow : s.store.run? request.parentRunId with
  | none => exact rfl
  | some row =>
    obtain ⟨hmem, hid⟩ := Store.run?_mem hrow
    dsimp only [Option.map_some]
    split_ifs with hactive hdepth
    · exact rfl
    · exact rfl
    rw [run_get_bind]
    cases s.store.getAgentProfile request.agent (toRunRecord row).owner with
    | none => exact rfl
    | some childProfile =>
      dsimp only
      rw [run_bind, run_fromExcept]
      rcases requireSubagentAuthority (s.store.getAgentProfile (toRunRecord row).agentId
        (toRunRecord row).owner) childProfile with e | _
      · exact rfl
      rw [andThen_ok]
      generalize List.find? _ (s.store.listChildRuns (toRunRecord row).id) = replayed
      rcases replayed with _ | replay
      rotate_left
      · dsimp only
        rw [run_ite]
        split_ifs
        · exact rfl
        · exact rfl
      · rw [run_bind, run_fromExcept]
        rcases hbudget : boundedChildBudget (request.budget.getD {}) (toRunRecord row)
          (remainingChildBudget (toRunRecord row) (s.store.listChildRuns (toRunRecord row).id))
          with e | budget
        · exact rfl
        rw [andThen_ok, run_bind]
        have hcreate := createRun_cases (H := H) (childRunRequest H (toRunRecord row) request
          (childIdempotencyKey (toRunRecord row) request) budget) s
        rcases hrun : (createRun H (childRunRequest H (toRunRecord row) request
          (childIdempotencyKey (toRunRecord row) request) budget)).run s with ⟨e | response, s₁⟩
        · rw [hrun] at hcreate
          rw [childIdempotencyKey] at hrun
          rw [hrun]
          exact hcreate
        · rw [hrun] at hcreate
          rw [childIdempotencyKey] at hrun
          rw [hrun, andThen_ok]
          rw [run_ite]
          split_ifs with hreplay
          · simp only [hreplay, if_true] at hcreate ⊢
            simp only [run_pure, hreplay, if_true]
            exact hcreate
          · simp only [hreplay] at hcreate
            obtain ⟨now, child, hcreated, -⟩ := hcreate
            -- the parent is still there and not terminal, so its log takes the event
            have hkept : s₁.store.run? (toRunRecord row).id = some row := by
              rw [hcreated.run?_eq, if_neg, toRunRecord_id, hid, hrow]
              exact fun heq ↦ hcreated.fresh row hmem heq.symm
            have happend : s₁.store.Appendable (subagentStarted (toRunRecord row) request
                (childRunRequest H (toRunRecord row) request
                  (childIdempotencyKey (toRunRecord row) request) budget) response.runId) row :=
              (h.created hcreated).appendable hkept (Bool.eq_false_iff.mpr hactive)
                (by simp [subagentStarted])
            have hrun' := run_bind_of_ok (f := fun _ ↦ pure response)
              (appendEvent_run (H := H) happend)
            rw [subagentStarted, childIdempotencyKey] at hrun'
            rw [hrun', run_pure]
            simp only [hreplay]
            refine ⟨row, budget, hrow, Bool.eq_false_iff.mpr hactive, not_le.mp hdepth, hbudget,
              now, _, child, s₁.store, hcreated, rfl⟩

theorem withUsage_empty_usage (updatedAt : ℤ) (row : RunRow) :
    (Store.withUsage updatedAt {} row).usage = row.usage := by
  simp [Store.withUsage, RunRow.usage]

/-- The store after a grant: the parent as it was, and the child below it with the budget that was
checked. -/
theorem Grant.spec {request : ChildRunRequest} {childRunId : JsString} {S S' : Store}
    {row : RunRow} {budget : RunBudget} (h : Grant H O request childRunId S S' row budget)
    (hlogged : S.Logged) (hrooted : S.Rooted) :
    S'.Logged ∧ ∃ parent child : RunRow, S'.run? row.id = some parent ∧
      parent.budget = row.budget ∧ parent.usage = row.usage ∧ S'.run? childRunId = some child ∧
      truthy child.parentRunId = some row.id ∧ child.budget = budget ∧
      child.depth = row.depth + 1 ∧ ∀ d, allocated d (S'.listChildRuns row.id)
        = allocated d (S.listChildRuns row.id) + d.limit budget := by
  obtain ⟨now, createdAt, child, S₁, hcreated, rfl⟩ := h.created
  obtain ⟨hmem, hid⟩ := Store.run?_mem h.parent
  have hne : childRunId ≠ row.id := fun heq ↦ hcreated.fresh row hmem heq.symm
  have hparent : S₁.run? row.id = some row := by
    rw [hcreated.run?_eq, if_neg hne, hid, h.parent]
  have hchild : S₁.run? childRunId = some child := by
    rw [hcreated.run?_eq, if_pos rfl]
  have hlogged₁ := hlogged.created hcreated
  have hparentId : child.parentRunId = some row.id := by
    obtain ⟨_, _, _, _, rfl⟩ := hcreated.row_eq
    rfl
  have hbudget : child.budget = budget := by
    obtain ⟨_, _, _, _, rfl⟩ := hcreated.row_eq
    rfl
  have hdepth : child.depth = row.depth + 1 := by
    obtain ⟨_, _, _, _, rfl⟩ := hcreated.row_eq
    rfl
  generalize hparams : subagentStarted _ _ _ _ = params
  obtain ⟨hrunId, htype, husage, hcoherent⟩ : params.runId = row.id ∧
      params.type ≠ .subagentCompleted ∧ params.usage = none ∧ params.Coherent := by
    subst hparams
    exact ⟨rfl, by simp [subagentStarted], rfl, rfl, rfl⟩
  refine ⟨?_, Store.appended createdAt params row, child, ?_, rfl, ?_, ?_, ?_, hbudget, hdepth,
    fun d ↦ ?_⟩
  · exact hlogged₁.recorded (hlogged₁.appendable (hrunId ▸ hparent) h.active htype) hcoherent
  · rw [Store.run?_recorded, hparent, Option.map_some, if_pos hrunId.symm]
  · change (Store.withUsage createdAt (params.usage.getD {}) row).usage = row.usage
    rw [husage]
    exact withUsage_empty_usage createdAt row
  · rw [Store.run?_recorded, hchild, Option.map_some, if_neg]
    exact fun heq ↦ hne (hcreated.id_eq.symm.trans (heq.trans hrunId))
  · rw [hparentId, truthy_of_ne_nil]
    exact hid ▸ (hrooted _ row h.parent).1
  · rw [Store.allocated_recorded, Store.allocated_created d hcreated hparentId, hbudget]

/-- A history in which the run `run_0` uses one of its 32 tool calls. -/
def oneToolCall : List Input :=
  let r := js "run_0"
  [.createRun rootRequest, .immediate r, .predecessorsSettled r, .resume r,
    .workspacePrepared r (.ok ⟨false, false⟩), .agentPrepared r (.ok ⟨[], []⟩),
    .modelEvent r (.usage (.number (.finite 1)) (.number (.finite 1)) (.number (.finite 0))),
    .modelEvent r (.toolCall ⟨js "call", js "read_file", []⟩),
    .modelEvent r (.completed .toolCalls), .modelDone r]

/-- A request for all 32 tool calls of `run_0`. -/
def allToolCalls : ChildRunRequest where
  parentRunId := js "run_0"
  agent := js "agent"
  input := js "input"
  idempotencyKey := js "child"
  budget := some { maxToolCalls := some 32 }

end Service

end LiteHarness
