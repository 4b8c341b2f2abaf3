import LiteHarness.ControlPlane.Effects

/-!
# The effects of every stretch

One lemma for each program of the service: under which licence it runs. The licences are as small
as the programs allow. In particular an agent loop resolves approvals before it requests one and
never after, and nothing but a continuation at `tools.execute` hands a call to the tools.
-/

namespace LiteHarness

open Foundation Foundation.Eff

/-- The agent loop is about to hand a call to the tools. -/
def AgentPoint.IsAuthorized : AgentPoint → Prop
  | .authorized .. => True
  | _ => False

/-- The agent loop of the execution is about to hand a call to the tools. -/
def Point.IsAuthorized : Point → Prop
  | .agent point _ => point.IsAuthorized
  | _ => False

theorem Point.IsAuthorized.eq {point : Point} (h : point.IsAuthorized) :
    ∃ call rest approval a, point = .agent (.authorized call rest approval) a := by
  cases point with
  | agent p a =>
    cases p with
    | authorized call rest approval => exact ⟨call, rest, approval, a, rfl⟩
    | _ => exact h.elim
  | _ => exact h.elim

namespace Service

variable {H : Host} {O : Options} {L : Licence}

/-! ## Transitions -/

theorem transitionIfActive_performs {runId : JsString} {status : RunStatus}
    {type : RunEventType} (h : L.Sets runId status) (htype : type.changesStatus = true) :
    Performs H L (transitionIfActive H runId status type) := by
  refine (getRun_performs runId).bind fun run ↦ ?_
  cases run with
  | none => exact .pure _
  | some run => exact .ite (.pure _) ((transition_performs h htype).bind fun _ ↦ .pure _)

theorem timeoutQueuedRun_performs {runId : JsString} (timeoutMs : ℚ)
    (h : L.Sets runId .timedOut) : Performs H L (timeoutQueuedRun H runId timeoutMs) := by
  refine (getRun_performs runId).bind fun run ↦ ?_
  cases run with
  | none => exact .pure _
  | some run => exact .ite (transition_performs h rfl) (.pure _)

/-! ## Approvals -/

theorem approvalRouteGeneration_performs (run : RunRecord) :
    Performs H L (approvalRouteGeneration run) :=
  .gets fun _ ↦ .ite (.throw _) (.pure _)

theorem approvalBindingIsCurrent_performs (record : ApprovalRow) (call : Option ToolCall) :
    Performs H L (approvalBindingIsCurrent H record call) := by
  refine (getRun_performs _).bind fun run ↦ ?_
  cases run with
  | none => exact .pure _
  | some run =>
    refine .gets fun s ↦ ?_
    cases s.store.getAgentProfile run.agentId run.owner with
    | none => exact .pure _
    | some profile =>
      refine (approvalRouteGeneration_performs run).bind fun route ↦ .ite (.pure _) ?_
      cases call with
      | none => exact (Performs.pure _).bind fun _ ↦ (Performs.fromExcept _).bind fun _ ↦ .pure _
      | some call =>
        exact (Performs.fromExcept _).bind fun _ ↦ (Performs.fromExcept _).bind fun _ ↦ .pure _

theorem assertApprovalExecutable_performs (approvalId : JsString) (run : RunRecord)
    (call : ToolCall) : Performs H L (assertApprovalExecutable H approvalId run call) := by
  refine .gets fun s ↦ ?_
  dsimp only
  cases s.store.approval? approvalId with
  | none => exact .throw _
  | some approval =>
    refine .ite (.throw _) (now_performs.bind fun t ↦ .ite (.throw _) (.ite (.throw _) ?_))
    exact (approvalBindingIsCurrent_performs _ _).bind fun _ ↦ .ite (.pure _) (.throw _)

theorem resolveWithEvent_performs (approvalId : JsString) (status : ApprovalResolution)
    (executionDigest : JsString) (h : L.resolves) (ha : status.1 = .approved → L.approves) :
    Performs H L (resolveWithEvent H approvalId status executionDigest) :=
  now_performs.bind fun resolvedAt ↦ now_performs.bind fun createdAt ↦
    onStore_performs (c := .resolveApprovalAndAppendEvent resolvedAt createdAt approvalId status
      executionDigest (.approvalResolved approvalId status executionDigest)) rfl fun _ ↦
        ⟨h, ha, rfl⟩

theorem settle_performs (approvalId : JsString) (value : Bool) :
    Performs H L (settle approvalId value) := by
  refine .gets fun s ↦ ?_
  cases s.approvalWaiters.find? fun w ↦ w.approvalId = approvalId with
  | none => exact .pure _
  | some waiter =>
    refine (Performs.modify fun s ↦ ?_).bind fun _ ↦ .modify fun s ↦ ?_
    · exact .memory s.accepting s.steering _ s.routeGeneration s.readings s.draws
    · exact .settle waiter.runId approvalId value

theorem refuse_performs (status : ApprovalResolution) (waiter : ApprovalWaiter)
    (h : L.resolves) (hstatus : status.1 ≠ .approved) : Performs H L (refuse H status waiter) :=
  (resolveWithEvent_performs _ _ _ h fun ha ↦ absurd ha hstatus).bind fun _ ↦ settle_performs _ _

theorem abort_effects {runId : JsString} {reason : JsError} {s : Service}
    (hrun : runId ∈ s.active ∨ L.controls runId) (h : L.resolves) :
    Effects H L s ((abort H runId reason).run s).2 := by
  rw [abort, run_get_bind]
  cases (s.execution? runId).bind Execution.abortReason with
  | some _ => exact .refl
  | none =>
    refine Evolves.bind_at (fun _ _ _ ↦ .trans) (.single (.abort hrun)) fun _ ↦ ?_
    exact Performs.forEach fun w ↦ (refuse_performs _ w h (by decide)).tryCatch fun _ ↦ .pure _

theorem resolveApproval_performs (approvalId : JsString) (approved : Bool) (h : L.resolves)
    (ha : L.approves) : Performs H L (resolveApproval H approvalId approved) := by
  refine .gets fun s ↦ ?_
  cases s.store.approval? approvalId with
  | none => exact .pure _
  | some existing =>
    refine .ite (.pure _) ((approvalBindingIsCurrent_performs _ _).bind fun _ ↦
      now_performs.bind fun t ↦ ?_)
    refine (resolveWithEvent_performs _ _ _ h fun _ ↦ ha).bind fun first ↦ ?_
    refine .ite ((resolveWithEvent_performs _ _ _ h fun _ ↦ ha).bind fun _ ↦ ?_)
      ((Performs.pure _).bind fun _ ↦ ?_)
    · exact (settle_performs _ _).bind fun _ ↦ .pure _
    · exact (settle_performs _ _).bind fun _ ↦ .pure _

theorem digest_bind_performs {α : Type} {x : Except CanonicalJsonError JsString}
    {f : JsString → ServiceM α} (hf : ∀ d, x = .ok d → Performs H L (f d)) :
    Performs H L (digest x >>= f) := by
  refine Performs.fromExcept_bind fun d hd ↦ hf d ?_
  cases x with
  | error e => exact absurd hd (by simp [Except.mapError])
  | ok d' => exact congrArg _ (Except.ok.inj hd)

theorem createApproval_performs {record : ApprovalRow} (h : L.files record.runId)
    (hstatus : record.status = .pending)
    (hdigest : H.approvalExecutionDigest (record.binding H.toPlatform) = .ok record.executionDigest) :
    Performs H L (onStore (Store.createApproval record)) :=
  onStore_performs (c := .createApproval record) rfl fun _ ↦ ⟨h, hstatus, hdigest⟩

/-- The record is filed with the digest of its own binding. -/
theorem approveToolIfRequired_performs {run : RunRecord} (call : ToolCall)
    (policyGeneration : ℤ) (h : L.files run.id) :
    Performs H L (approveToolIfRequired H O run call policyGeneration) := by
  refine .ite (.pure _) ((throwIfAborted_performs _).bind fun _ ↦ ?_)
  refine (createId_performs _).bind fun id ↦ now_performs.bind fun createdAt ↦
    now_performs.bind fun t ↦ ?_
  dsimp only
  refine (approvalRouteGeneration_performs run).bind fun route ↦ ?_
  refine digest_bind_performs fun argumentsDigest _ ↦
    digest_bind_performs fun executionDigest hdigest ↦ ?_
  refine Performs.bind (createApproval_performs h rfl ?_) fun _ ↦ ?_
  · exact hdigest
  refine (appendEvent_performs ⟨rfl, rfl⟩ (by simp) rfl).bind fun _ ↦
    (Performs.modify fun s ↦ ?_).bind fun _ ↦ .pure _
  exact .memory s.accepting s.steering _ s.routeGeneration s.readings s.draws

theorem authorizeTool_performs {run : RunRecord} (call : ToolCall) (h : L.files run.id) :
    Performs H L (authorizeTool H O run call) := by
  refine .gets fun s ↦ ?_
  dsimp only
  cases s.store.getAgentProfile run.agentId run.owner with
  | none => exact .throw _
  | some profile =>
    exact .ite (.throw _) (.ite (.throw _) (approveToolIfRequired_performs _ _ h))

/-! ## Runs -/

/-- A run that is scheduled is the one just created. -/
theorem createRun_performs {request : InternalStartRunRequest} (h : L.creates request) :
    Performs H L (createRun H request) := by
  refine .gets fun s ↦ .ite (.throw _) (createId_bind_performs fun u ↦
    now_performs.bind fun t ↦ (createId_performs _).bind fun agent ↦
    (createId_performs _).bind fun workspace ↦ (createId_performs _).bind fun session ↦ ?_)
  intro s
  have hcreate : Effects H L s _ := onStore_effects (m := Store.createOrGetRun H.toPlatform t
    ⟨agent, workspace, session⟩ (js "run" ++ js "_" ++ u) request)
    (c := .createOrGetRun t ⟨agent, workspace, session⟩ (js "run" ++ js "_" ++ u) request) rfl
    ⟨h, u, rfl⟩
  rw [run_bind]
  rcases hrun : (onStore (Store.createOrGetRun H.toPlatform t ⟨agent, workspace, session⟩
    (js "run" ++ js "_" ++ u) request)).run s with ⟨e | ⟨run, created⟩, s'⟩
  · rw [hrun] at hcreate
    exact hcreate
  · rw [hrun] at hcreate
    rw [andThen_ok]
    refine hcreate.trans ?_
    cases created with
    | false => exact .refl
    | true =>
      obtain ⟨S, hcall, rfl⟩ := onStore_eq_ok_iff.mp hrun
      rcases Store.createOrGetRun_eq_ok hcall with ⟨hfalse, -⟩ | ⟨-, row, rfl, hcreated⟩
      · exact absurd hfalse (by simp)
      refine .single (.schedule fun run hmem ↦ (List.mem_append.mp hmem).imp id fun hlast ↦ ?_)
      obtain rfl := List.mem_singleton.mp hlast
      refine ⟨row, ?_, rfl⟩
      rw [toRunRecord_id, hcreated.id_eq, hcreated.run?_eq, if_pos rfl]

theorem createChildRun_performs {request : ChildRunRequest}
    (h : ∀ start : InternalStartRunRequest, (∃ d ∈ start.depth, d ≤ O.maxSubagentDepth) →
      L.creates start) : Performs H L (createChildRun H O request) := by
  refine (getRun_performs _).bind fun parent ↦ ?_
  cases parent with
  | none => exact .throw _
  | some parent =>
    refine .ite (.throw _) ?_
    by_cases hdepth : O.maxSubagentDepth ≤ parent.depth
    · rw [if_pos hdepth]
      exact .throw _
    rw [if_neg hdepth]
    refine .gets fun s ↦ ?_
    cases s.store.getAgentProfile request.agent parent.owner with
    | none => exact .throw _
    | some childProfile =>
      refine (Performs.fromExcept _).bind fun _ ↦ ?_
      dsimp only
      split
      · exact .ite (.throw _) (.pure _)
      · refine (Performs.fromExcept _).bind fun budget ↦
          (createRun_performs (h _ ⟨parent.depth + 1, rfl, by omega⟩)).bind fun result ↦
            .ite (.pure _) ?_
        exact (appendEvent_performs ⟨rfl, rfl⟩ (by simp) rfl).bind fun _ ↦ .pure _

theorem steerRun_performs (runId instruction : JsString) :
    Performs H L (steerRun H runId instruction) := by
  refine (getRun_performs _).bind fun run ↦ ?_
  have hend : Performs H L (do
      let _ ← appendEvent H { runId, type := .runSteered, payload := .steered instruction }
      getRun runId) :=
    (appendEvent_performs ⟨rfl, rfl⟩ (by simp) rfl).bind fun _ ↦ getRun_performs _
  cases run with
  | none => exact .throw _
  | some run =>
    refine .ite (.throw _) ((Performs.modify fun s ↦ ?_).bind fun _ ↦ ?_)
    · exact .memory s.accepting _ s.approvalWaiters s.routeGeneration s.readings s.draws
    · cases run.sessionId with
      | none => exact hend
      | some sessionId =>
        refine (createId_performs _).bind fun id ↦ now_performs.bind fun t ↦ ?_
        exact (onStore_performs (c := .appendSessionMessage t _) rfl fun _ ↦ trivial).bind
          fun _ ↦ hend

/-- The licence of a cancellation: it ends runs that are not active. -/
def cancelling (active : List JsString) : Licence where
  ends r := r ∉ active
  resolves := True

/-- A cancellation leaves every execution in its place. -/
theorem Effects.active_eq {s s' : Service} (h : Effects H L s s') (hL : ∀ r, ¬L.controls r) :
    s'.active = s.active := by
  induction h with
  | refl => rfl
  | tail _ heffect ih =>
    cases heffect with
    | activity hcontrols => exact absurd hcontrols (hL _)
    | _ => exact ih

/-- A cancellation, by the runs that are active when it starts. -/
def Cancels {α : Type} (H : Host) (m : ServiceM α) : Prop :=
  Evolves (fun s s' ↦ Effects H (cancelling s.active) s s') m

theorem Cancels.refl (s : Service) : Effects H (cancelling s.active) s s := .refl

theorem Cancels.trans (s t w : Service) (h : Effects H (cancelling s.active) s t)
    (h' : Effects H (cancelling t.active) t w) : Effects H (cancelling s.active) s w := by
  rw [h.active_eq fun _ ↦ id] at h'
  exact Relation.ReflTransGen.trans h h'

theorem Cancels.bind {α β : Type} {m : ServiceM α} {f : α → ServiceM β} (hm : Cancels H m)
    (hf : ∀ a, Cancels H (f a)) : Cancels H (m >>= f) :=
  Evolves.bind Cancels.trans hm hf

theorem Cancels.forEach {β : Type} {f : β → ServiceM PUnit} {bs : List β}
    (hf : ∀ b, Cancels H (f b)) : Cancels H (forEach f bs) :=
  Evolves.forEach Cancels.refl Cancels.trans fun b _ ↦ hf b

theorem cancelRunWithin_cancels (depth : ℕ) (runId : JsString) :
    Cancels H (cancelRunWithin H depth runId) := by
  induction depth generalizing runId with
  | zero => exact Cancels.refl
  | succ depth ih =>
    refine Cancels.bind (fun s ↦ getRun_performs runId s) fun run ↦ ?_
    cases run with
    | none => exact Cancels.refl
    | some run =>
      refine Evolves.ite Cancels.refl (Evolves.gets fun s ↦ Cancels.bind (Cancels.forEach ih)
        fun _ s ↦ ?_)
      rw [run_get_bind, run_ite]
      split_ifs with hactive
      · exact abort_effects (Or.inl hactive) trivial
      · exact transition_performs (Or.inr ⟨hactive, rfl⟩) rfl s

theorem cancelRun_cancels (runId : JsString) : Cancels H (cancelRun H runId) :=
  Evolves.gets fun _ ↦ Cancels.bind (cancelRunWithin_cancels _ _) fun _ s ↦ getRun_performs runId s

theorem shutdown_cancels : Cancels H (shutdown H) := by
  refine Evolves.gets fun s ↦ Evolves.ite Cancels.refl (Cancels.bind (fun s ↦ ?_) fun _ ↦
    Cancels.bind (Cancels.forEach fun r ↦ Cancels.bind (cancelRun_cancels r) fun _ ↦ Cancels.refl)
      fun _ ↦ Evolves.gets fun s s' ↦ ?_)
  · exact .single (.memory false s.steering s.approvalWaiters s.routeGeneration s.readings s.draws)
  · exact Performs.forEach (fun w ↦ settle_performs _ _) s'

/-! ## The agent loop -/

theorem enforceBudget_performs (runId : JsString) (h : L.resolves) :
    Performs H L (enforceBudget H runId) := by
  refine (getRun_performs _).bind fun run ↦ ?_
  cases run with
  | none => exact .pure _
  | some run =>
    dsimp only
    split
    · intro s
      rw [run_get_bind, run_ite]
      split_ifs with hactive
      · exact abort_effects (Or.inl hactive) h
      · exact .refl
    · exact .pure _

/-- The events of the agent loop announce no status and resolve no approval. -/
def agentEvent (type : RunEventType) : Bool :=
  !type.changesStatus && type ≠ .approvalResolved

/-- What the service adds for an event is what the event reports. -/
theorem usageOf_coherent (type : RunEventType) (payload : EventPayload) :
    (usageOf type payload).getD {} = eventUsage type payload := by
  cases type with
  | usageUpdated => cases payload <;> rfl
  | _ => rfl

theorem appendAgentEvent_performs {run : RunRecord} {type : RunEventType} {payload : EventPayload}
    (h : L.resolves) (htype : agentEvent type = true) :
    Performs H L (appendAgentEvent H run type payload) := by
  obtain ⟨hstatus, htype⟩ : type.changesStatus = false ∧ type ≠ .approvalResolved := by
    simpa [agentEvent] using htype
  refine (getRun_performs _).bind fun current ↦ ?_
  cases current with
  | none => exact .pure _
  | some current =>
    refine .ite (.pure _) (Performs.bind ?_ fun appended ↦ ?_)
    · refine .tryCatch ?_ fun error ↦ (getRun_performs _).bind fun latest ↦
        .ite (.pure _) (.throw _)
      refine (appendEvent_performs ⟨?_, usageOf_coherent _ _⟩ htype rfl).bind fun _ ↦ .pure _
      rw [hstatus]
      rfl
    · have hmessage (t : ℤ) (params : Store.AppendSessionMessage) :
          Performs H L (onStore (Store.appendSessionMessage t params)) :=
        onStore_performs (c := .appendSessionMessage t params) rfl fun _ ↦ trivial
      refine .ite (.ite ((enforceBudget_performs _ h).bind fun _ ↦ ?_) ?_) (.pure _)
      all_goals
        split
        · exact (createId_performs _).bind fun id ↦ now_performs.bind fun t ↦
            (hmessage t _).bind fun _ ↦ .pure _
        · exact .pure _

theorem takeSteering_performs (runId : JsString) : Performs H L (takeSteering runId) :=
  .gets fun _ ↦ (Performs.modify fun s ↦
    .memory s.accepting _ s.approvalWaiters s.routeGeneration s.readings s.draws).bind fun _ ↦ .pure _

theorem beforeToolCall_performs {e : Execution} (call : ToolCall) (h : L.files e.run.id) :
    Performs H L (beforeToolCall H O e call) := by
  unfold beforeToolCall
  cases e.lease with
  | none => exact .throw _
  | some lease =>
    exact now_performs.bind fun t ↦ .gets fun s ↦ .ite (authorizeTool_performs call h) (.throw _)

theorem beginTurn_performs (e : Execution) (a : AgentState) :
    Performs H L (beginTurn H O e a) := by
  refine .ite ((throwIfAborted_performs _).bind fun _ ↦ (takeSteering_performs _).bind fun _ ↦ ?_)
    (.throw _)
  exact (Performs.fromExcept _).bind fun _ ↦ (throwIfAborted_performs _).bind fun _ ↦ .pure _

theorem endTurn_performs (e : Execution) (a : AgentState) : Performs H L (endTurn H O e a) :=
  .ite (.pure _) (.ite (.throw _) (beginTurn_performs e _))

/-- The next call is announced first, and then its approval is requested. -/
theorem nextToolCall_performs {e : Execution} (a : AgentState) (calls : List ToolCall)
    (hfiles : L.files e.run.id) (h : L.resolves) : Performs H L (nextToolCall H O e a calls) := by
  cases calls with
  | nil => exact endTurn_performs e a
  | cons call rest =>
    refine (Performs.fromExcept _).bind fun _ ↦ (appendAgentEvent_performs h rfl).bind fun _ ↦ ?_
    refine (beforeToolCall_performs call hfiles).bind fun approvalId ↦ ?_
    cases approvalId with
    | none => exact .pure _
    | some approvalId => exact .pure _

theorem agentPrepared_performs (e : Execution) (a : AgentState) (preparation : AgentPreparation) :
    Performs H L (agentPrepared H O e a preparation) := by
  unfold agentPrepared
  have hevent : ∀ attempt, Performs H L (appendEvent H
      { runId := e.runId, type := .runSnapshotFrozen
        payload := .snapshotFrozen attempt preparation.snapshotDigest }) :=
    fun attempt ↦ appendEvent_performs ⟨rfl, rfl⟩ (by simp) rfl
  cases e.attempt with
  | none => exact beginTurn_performs e _
  | some attempt =>
    exact .ite ((hevent attempt).bind fun _ ↦ beginTurn_performs e _) (beginTurn_performs e _)

theorem modelEvent_performs (e : Execution) (a : AgentState) (event : ModelEvent)
    (h : L.resolves) : Performs H L (modelEvent H e a event) := by
  have hend : ∀ a, Performs H L (do throwIfAborted e.runId; pure (Point.agent .streaming a)) :=
    fun a ↦ (throwIfAborted_performs _).bind fun _ ↦ .pure _
  unfold modelEvent
  split
  · exact (appendAgentEvent_performs h rfl).bind fun _ ↦ hend _
  · exact hend _
  · exact (Performs.throw _).bind fun _ ↦ hend _
  · exact (appendAgentEvent_performs h rfl).bind fun _ ↦ hend _
  · exact hend _

theorem modelDone_performs {e : Execution} (a : AgentState) (hfiles : L.files e.run.id)
    (h : L.resolves) : Performs H L (modelDone H O e a) :=
  .ite (.throw _) (.ite (.throw _) ((appendAgentEvent_performs h rfl).bind fun _ ↦
    nextToolCall_performs _ _ hfiles h))

theorem approvalSettled_performs (a : AgentState) (call : ToolCall) (rest : List ToolCall)
    (approvalId : JsString) (approved : Bool) :
    Performs H L (approvalSettled a call rest approvalId approved) :=
  .ite (.pure _) (.throw _)

theorem executeTool_performs (e : Execution) (a : AgentState) (call : ToolCall)
    (rest : List ToolCall) (approval : Option JsString) (h : L.executes) :
    Performs H L (executeTool H e a call rest approval) := by
  unfold executeTool
  have hend := (Performs.modify (H := H) (L := L) fun s ↦ .executed ⟨e.runId, call, approval⟩ h).bind
    fun _ ↦ Performs.pure (Point.agent (.executing call rest) a)
  cases approval with
  | none => exact .ite hend (.throw _)
  | some approvalId =>
    exact (assertApprovalExecutable_performs _ _ _).bind fun _ ↦ .ite hend (.throw _)

theorem toolReturned_performs {e : Execution} (a : AgentState) (call : ToolCall)
    (rest : List ToolCall) (result : ToolResult) (hfiles : L.files e.run.id) (h : L.resolves) :
    Performs H L (toolReturned H O e a call rest result) := by
  refine (Performs.fromExcept _).bind fun artifact ↦ (appendAgentEvent_performs h rfl).bind fun _ ↦ ?_
  cases artifact with
  | none => exact nextToolCall_performs _ _ hfiles h
  | some x =>
    exact (appendAgentEvent_performs h rfl).bind fun _ ↦ nextToolCall_performs _ _ hfiles h

/-! ## Queue and execution -/

theorem enqueue_performs {run : RunRecord} (h : L.controls run.id) (hqueue : L.enqueues) :
    Performs H L (enqueue H run) := by
  refine (transitionIfActive_performs (Or.inl h) rfl).bind fun active ↦ .ite ?_ (.pure _)
  intro s
  dsimp only
  rw [run_get_bind, run_bind, now_run, andThen_ok]
  refine .head (now_effect s) ?_
  rw [run_ite]
  split_ifs
  · exact timeoutQueuedRun_performs _ (Or.inl h) _
  · exact .single (.enqueue h hqueue)

theorem drain_performs {e : Execution} (h : L.controls e.runId) (hdrain : L.drains) :
    Performs H L (drain e) :=
  updateExecution_bind_performs h (fun _ ↦ .modify fun _ ↦ .drain h hdrain) fun _ ↦ ⟨rfl, rfl, rfl⟩

theorem checkpointFailed_performs {runId : JsString} (error : JsError) (h : L.controls runId) :
    Performs H L (checkpointFailed H runId error) := by
  refine (getRun_performs _).bind fun run ↦ Performs.bind (appendEvent_performs ⟨rfl, rfl⟩ ?_ rfl)
    fun _ ↦ updateExecution_performs h fun _ ↦ ⟨rfl, rfl, rfl⟩
  simp

theorem releaseLease_performs {runId : JsString} (h : L.controls runId) :
    Performs H L (releaseLease H runId) := by
  have hend : Performs H L (do
      modify fun s ↦
        { s with
          active := s.active.filter fun r ↦ r ≠ runId
          steering := s.steering.filter fun entry ↦ entry.1 ≠ runId }
      setPoint runId .releasing) := by
    refine Performs.bind (fun s ↦ ?_) fun _ ↦ setPoint_performs h _
    have hleft : Effect H L s { s with active := s.active.filter fun r ↦ r ≠ runId } :=
      .activity h fun r hr ↦ by simp [hr]
    exact .head hleft (.single (.memory s.accepting _ s.approvalWaiters s.routeGeneration
      s.readings s.draws))
  refine updateExecution_bind_performs h (fun _ ↦ .gets fun s ↦ ?_) fun _ ↦ ⟨rfl, rfl, rfl⟩
  cases (s.execution? runId).bind Execution.lease with
  | none => exact hend
  | some lease =>
    refine now_performs.bind fun t ↦
      (onStore_performs (c := .releaseWorkspaceLease t lease) rfl fun _ ↦ trivial).bind
        fun released ↦ .ite ((getRun_performs _).bind fun latest ↦ ?_)
          (updateExecution_bind_performs h (fun _ ↦ hend) fun _ ↦ ⟨rfl, rfl, rfl⟩)
    cases latest with
    | none => exact hend
    | some latest => exact (appendEvent_performs ⟨rfl, rfl⟩ (by simp) rfl).bind fun _ ↦ hend

theorem finallyBlock_performs {runId : JsString} (h : L.controls runId) :
    Performs H L (finallyBlock H O runId) := by
  refine updateExecution_bind_performs h (fun _ ↦ .gets fun s ↦ ?_) fun _ ↦ ⟨rfl, rfl, rfl⟩
  split
  · refine .ite (Performs.bind ?_ fun checkpointing ↦ .ite (setPoint_performs h _)
      (releaseLease_performs h)) (releaseLease_performs h)
    refine .tryCatch ((getRun_performs _).bind fun run ↦ ?_) fun error ↦
      (checkpointFailed_performs _ h).bind fun _ ↦ .pure _
    cases run with
    | none => exact .pure _
    | some run =>
      exact now_performs.bind fun t ↦ .gets fun s ↦ .ite (.pure _) (.throw _)
  · exact releaseLease_performs h

theorem tryBlock_performs {runId : JsString} {body : ServiceM (Option Point)}
    (h : L.controls runId) (hbody : Performs H L body) :
    Performs H L (tryBlock H O runId body) := by
  refine (hbody.tryCatch fun error ↦ ?_).bind fun next ↦ ?_
  · exact updateExecution_bind_performs h (fun _ ↦ .pure _) fun _ ↦ ⟨rfl, rfl, rfl⟩
  · cases next with
    | none => exact finallyBlock_performs h
    | some point => exact setPoint_performs h _

theorem settling_performs {runId : JsString} {m : ServiceM PUnit} (h : L.controls runId)
    (hm : Performs H L m) : Performs H L (settling runId m) :=
  hm.tryCatch fun _ ↦ setPoint_performs h _

theorem execution_performs {runId : JsString} {body : ServiceM (Option Point)}
    (h : L.controls runId) (hbody : Performs H L body) :
    Performs H L (execution H O runId body) := settling_performs h (tryBlock_performs h hbody)

theorem waitForWorkspaceLease_performs (run : RunRecord) (deadline : ℤ) :
    Performs H L (waitForWorkspaceLease H O run deadline) := by
  refine now_performs.bind fun t ↦ .ite (.throw _) ((throwIfAborted_performs _).bind fun _ ↦
    now_performs.bind fun t ↦ (onStore_performs (c := .acquireWorkspaceLease t run.workspaceId
      run.id O.workspaceLeaseTtlMs) rfl fun _ ↦ trivial).bind fun lease ↦ ?_)
  cases lease with
  | none => exact .pure _
  | some lease => exact .pure _

theorem executeStart_performs {runId : JsString} (h : L.controls runId) (hfiles : L.files runId) :
    Performs H L (executeStart H O runId) := by
  intro s
  rw [executeStart, getRun_bind_run]
  cases hrun : s.store.getRun runId with
  | none => exact .refl
  | some run =>
    have hid : run.id = runId := by
      obtain ⟨row, hrow, rfl⟩ := Option.map_eq_some_iff.mp hrun
      exact (Store.run?_mem hrow).2
    dsimp only
    refine (?_ : Performs H L _) s
    refine updateExecution_bind_performs h (fun _ ↦ now_performs.bind fun t ↦ ?_)
      fun _ ↦ ⟨rfl, rfl, rfl⟩
    refine .ite ((timeoutQueuedRun_performs _ (Or.inl (hid ▸ h))).bind fun _ ↦ .pure _) ?_
    refine (createId_performs _).bind fun attempt ↦ now_performs.bind fun t ↦
      (onStore_performs (c := .createRunAttempt t runId attempt) rfl fun _ ↦ hfiles).bind
      fun _ ↦ updateExecution_bind_performs h (fun _ ↦ ?_) fun _ ↦ ⟨rfl, rfl, rfl⟩
    refine (transitionIfActive_performs (Or.inl h) rfl).bind fun active ↦ .ite ?_ (.pure _)
    refine updateExecution_bind_performs h (fun _ ↦ ?_) fun _ ↦ ⟨rfl, rfl, rfl⟩
    exact now_performs.bind fun t ↦ (waitForWorkspaceLease_performs _ _).bind fun _ ↦ .pure _

theorem startExecution_performs {e : Execution} (h : L.controls e.runId)
    (hfiles : L.files e.runId) : Performs H L (startExecution H O e) := by
  refine updateExecution_bind_performs h (fun _ ↦ (getRun_performs _).bind fun current ↦ ?_)
    fun _ ↦ ⟨rfl, rfl, rfl⟩
  cases current with
  | none => exact setPoint_performs h _
  | some current =>
    refine .ite (setPoint_performs h _) (Performs.bind (.modify fun s ↦ ?_) fun _ ↦
      execution_performs h (executeStart_performs h hfiles))
    exact .activity h fun r hr ↦ by simp [hr]

theorem startAgent_performs {e : Execution} (h : L.controls e.runId) :
    Performs H L (startAgent H e) := by
  refine (transitionIfActive_performs (Or.inl h) rfl).bind fun active ↦ .ite (.gets fun s ↦ ?_) (.pure _)
  dsimp only
  cases s.store.getAgentProfile e.run.agentId e.run.owner with
  | none => exact .throw _
  | some profile => exact .pure _

theorem leaseGranted_performs {e : Execution} (lease : WorkspaceLease) (h : L.controls e.runId) :
    Performs H L (leaseGranted H O e lease) := by
  refine updateExecution_bind_performs h (fun _ ↦ ?_) fun _ ↦ ⟨rfl, rfl, rfl⟩
  refine Performs.bind (appendEvent_performs ⟨rfl, rfl⟩ (by simp) rfl) fun _ ↦ ?_
  refine updateExecution_bind_performs h (fun _ ↦ ?_) fun _ ↦ ⟨rfl, rfl, rfl⟩
  exact .ite (.pure _) (startAgent_performs h)

theorem workspacePrepared_performs {e : Execution} (prepared : PrepareResult)
    (h : L.controls e.runId) : Performs H L (workspacePrepared H e prepared) := by
  refine updateExecution_bind_performs h (fun _ ↦ .ite ?_ (startAgent_performs h))
    fun _ ↦ ⟨rfl, rfl, rfl⟩
  exact Performs.bind (appendEvent_performs ⟨rfl, rfl⟩ (by simp) rfl) fun _ ↦ startAgent_performs h

theorem agentReturned_performs {runId : JsString} (h : L.controls runId) :
    Performs H L (agentReturned H O runId) := by
  have hend : Performs H L (do
      updateExecution runId fun e ↦ { e with terminal := some ⟨.succeeded, .runSucceeded, {}, rfl, rfl⟩ }
      pure (none : Option Point)) :=
    updateExecution_bind_performs h (fun _ ↦ .pure _) fun _ ↦ ⟨rfl, rfl, rfl⟩
  exact .ite ((transition_performs (Or.inl h) rfl).bind fun _ ↦ hend) hend

theorem agentStretch_performs {runId : JsString} {m : ServiceM Point} (h : L.controls runId)
    (hm : Performs H L m) : Performs H L (agentStretch runId m) :=
  (hm.tryCatch fun _ ↦ .pure _).bind fun _ ↦ setPoint_performs h _

theorem renewLease_performs {e : Execution} (h : L.controls e.runId) (hr : L.resolves) :
    Performs H L (renewLease H O e) := by
  unfold renewLease
  cases e.lease with
  | none => exact .pure _
  | some lease =>
    refine now_performs.bind fun t ↦ (onStore_performs (c := .renewWorkspaceLease t lease
      O.workspaceLeaseTtlMs) rfl fun _ ↦ trivial).bind fun renewed ↦ ?_
    cases renewed with
    | some renewed => exact updateExecution_performs h fun _ ↦ ⟨rfl, rfl, rfl⟩
    | none =>
      exact updateExecution_bind_performs h (fun _ _ ↦ abort_effects (Or.inr h) hr)
        fun _ ↦ ⟨rfl, rfl, rfl⟩

theorem checkpointed_performs {e : Execution} (outcome : Except JsString CheckpointResult)
    (h : L.controls e.runId) : Performs H L (checkpointed H e outcome) := by
  refine settling_performs h ?_
  cases outcome with
  | error message =>
    exact (checkpointFailed_performs _ h).bind fun _ ↦ releaseLease_performs h
  | ok result =>
    refine Performs.bind (.tryCatch ?_ fun error ↦ checkpointFailed_performs error h) fun _ ↦
      releaseLease_performs h
    exact (appendEvent_performs ⟨rfl, rfl⟩ (by simp) rfl).bind fun _ ↦ .pure _

theorem released_performs {e : Execution} (outcome : ReleaseOutcome) (h : L.controls e.runId) :
    Performs H L (released H e outcome) := by
  refine settling_performs h ((getRun_performs _).bind fun latest ↦ ?_)
  have hend := setPoint_performs (H := H) h .settled
  cases latest with
  | none => exact hend
  | some latest =>
    refine .ite hend ?_
    split
    · rename_i terminal _
      exact (transition_performs (Or.inl h) terminal.ends.2).bind fun _ ↦ hend
    · exact .ite ((transition_performs (Or.inl h) rfl).bind fun _ ↦ hend) hend

/-! ## Inputs -/

/-- The stretch an execution runs when its agent loop is woken. -/
theorem wakeAgent_performs {e : Execution} (a : AgentState) (point : AgentPoint) (input : Input)
    (h : L.controls e.runId) (hfiles : L.files e.run.id) (hr : L.resolves)
    (hx : point.IsAuthorized → L.executes) :
    Performs H L (wakeAgent H O e a point input) := by
  unfold wakeAgent
  split
  · exact agentStretch_performs h (agentPrepared_performs _ _ _)
  · exact setPoint_performs h _
  · exact agentStretch_performs h (modelEvent_performs _ _ _ hr)
  · exact agentStretch_performs h (modelDone_performs _ hfiles hr)
  · exact setPoint_performs h _
  · exact agentStretch_performs h (approvalSettled_performs _ _ _ _ _)
  · exact agentStretch_performs h (executeTool_performs _ _ _ _ _ (hx trivial))
  · exact agentStretch_performs h (toolReturned_performs _ _ _ _ hfiles hr)
  · exact setPoint_performs h _
  · exact .pure _

/-- The stretch of an execution that is woken only touches its own run. -/
theorem wake_performs {e : Execution} (point : Point) (input : Input)
    (h : L.controls e.runId) (hfiles : L.files e.runId) (hfiles' : L.files e.run.id)
    (hr : L.resolves) (hx : point.IsAuthorized → L.executes) (hd : point = .settled → L.drains) :
    Performs H L (wake H O e point input) := by
  have hthrow : ∀ error : JsError, Performs H L (execution H O e.runId (throw error)) :=
    fun error ↦ execution_performs h (.throw error)
  unfold wake
  split
  · exact .gets fun s ↦ .ite (startExecution_performs h hfiles) (.pure _)
  · exact .ite (.pure _) (drain_performs h (hd rfl))
  · split
    · exact .pure _
    · exact hthrow _
    · exact execution_performs h ((waitForWorkspaceLease_performs _ _).bind fun _ ↦ .pure _)
  · exact execution_performs h (leaseGranted_performs _ h)
  · exact execution_performs h (workspacePrepared_performs _ h)
  · exact hthrow _
  · exact wakeAgent_performs _ _ _ h hfiles' hr hx
  · exact hthrow _
  · exact execution_performs h (agentReturned_performs h)
  · exact checkpointed_performs _ h
  · exact released_performs _ h
  · exact .pure _

end Service

end LiteHarness
