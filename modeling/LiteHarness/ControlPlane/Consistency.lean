import LiteHarness.ControlPlane.Lifecycle

/-!
# Every reachable state is consistent

A step wakes at most one execution. Its own run is followed through the stretch; every other run is
left alone by what the stretch may do.
-/

namespace LiteHarness

open Foundation Foundation.Eff

namespace Service

variable {H : Host} {O : Options}

/-! ## An execution is woken -/

theorem Execution.Staged.started {e : Execution} {status : RunStatus} {active : Prop}
    (h : e.Staged O status active) (hpoint : e.point ≠ .queued) : e.Started :=
  ⟨h.run, Bool.eq_false_iff.mpr fun hq ↦ hpoint (h.queueTimeout hq)⟩

/-- The stretch an execution runs when its agent loop is woken. -/
theorem wakeAgent_sees (e : Execution) (a : AgentState) (point : AgentPoint) (input : Input)
    (hpoint : e.point = .agent point a) :
    Triple (Sees e.runId fun e' status active ↦ e' = e ∧ e'.Staged O status active)
      (wakeAgent H O e a point input) fun _ ↦ Sees e.runId (Execution.Waits O) := by
  have hrunning : ∀ e' status active, e' = e ∧ e'.Staged O status active →
      e'.Running status active ∧ e'.run = e.run := by
    rintro e' status active ⟨rfl, hstaged⟩
    have hstarted := Execution.Staged.started hstaged (by simp [hpoint])
    have hplace := hstaged.place
    unfold Execution.Place at hplace
    rw [hpoint] at hplace
    exact ⟨⟨hstarted, hplace.1, hplace.2.1, hplace.2.2.1⟩, rfl⟩
  have hstretch : ∀ {m : ServiceM Point}, Performs H (agentLicence e) m →
      Yields (AgentNext O e.run) m →
      Triple (Sees e.runId fun e' status active ↦ e' = e ∧ e'.Staged O status active)
        (agentStretch e.runId m) fun _ ↦ Sees e.runId (Execution.Waits O) :=
    fun hm hy ↦ (agentStretch_sees hm hy).weaken
      (fun s hs ↦ hs.imp fun _ _ _ _ h ↦ hrunning _ _ _ h) fun _ _ h ↦ h.2
  have hrejected : ∀ error : JsError,
      Triple (Sees e.runId fun e' status active ↦ e' = e ∧ e'.Staged O status active)
        (setPoint e.runId (.rejected error)) fun _ ↦ Sees e.runId (Execution.Waits O) := by
    refine fun error ↦ (setPoint_parked fun e' status active _ h ↦ ?_).weaken (fun _ h ↦ h)
      fun _ _ h ↦ h.2
    obtain ⟨⟨hstarted, hactive, rfl, hterminal⟩, -⟩ := hrunning _ _ _ h
    exact ⟨⟨hstarted.1, fun hq ↦ absurd (hq.symm.trans hstarted.2) (by simp), by decide, hactive,
      rfl, hterminal⟩, nofun, nofun⟩
  unfold wakeAgent
  split
  · exact hstretch (agentPrepared_performs _ _ _) (agentPrepared_yields _ _ _)
  · exact hrejected _
  · exact hstretch (modelEvent_performs _ _ _ trivial) (modelEvent_yields _ _ _)
  · exact hstretch (modelDone_performs _ rfl trivial) (modelDone_yields _ _)
  · exact hrejected _
  · exact hstretch (approvalSettled_performs _ _ _ _ _) (approvalSettled_yields _ _ _ _ _ _)
  · exact hstretch (executeTool_performs _ _ _ _ _ trivial) (executeTool_yields _ _ _ _ _)
  · exact hstretch (toolReturned_performs _ _ _ _ rfl trivial) (toolReturned_yields _ _ _ _ _)
  · exact hrejected _
  · refine .pure fun s hs ↦ hs.imp fun _ _ _ _ h ↦ ⟨h.2, fun hsettled ↦ ?_, fun hqueued ↦ ?_⟩
    · exact absurd (hpoint.symm.trans (h.1 ▸ hsettled)) (by simp)
    · exact absurd (hpoint.symm.trans (h.1 ▸ hqueued)) (by simp)

/-- **A woken execution reaches a stage again**, and its promise settles only when the run has
ended, unless the end is missed. It does not return to the queue. -/
theorem wake_sees (e : Execution) (status₀ : RunStatus) (input : Input) :
    Triple (Sees e.runId fun e' status active ↦ e' = e ∧ status = status₀ ∧
        e'.Staged O status active)
      (wake H O e e.point input) fun _ ↦ Sees e.runId fun e' status active ↦
        e'.Staged O status active ∧ (e'.point = .settled →
          status.isTerminalRunStatus = true ∨ e.point = .settled ∨ e.MissesBy status₀ input) ∧
        (e'.point = .queued → e.point = .queued) := by
  let P := fun (e' : Execution) (status : RunStatus) (active : Prop) ↦
    e' = e ∧ status = status₀ ∧ e'.Staged O status active
  let Q := fun (e' : Execution) (status : RunStatus) (active : Prop) ↦
    e'.Staged O status active ∧ (e'.point = .settled →
      status.isTerminalRunStatus = true ∨ e.point = .settled ∨ e.MissesBy status₀ input) ∧
    (e'.point = .queued → e.point = .queued)
  have hidle : Triple (Sees e.runId P) (pure ⟨⟩ : ServiceM PUnit) fun _ ↦ Sees e.runId Q := by
    refine .pure fun s hs ↦ hs.imp fun _ _ _ _ h ↦ ⟨h.2.2, fun hsettled ↦ ?_, fun hq ↦ h.1 ▸ hq⟩
    exact Or.inr (Or.inl (h.1 ▸ hsettled))
  have hwaits : ∀ {s : Service}, Sees e.runId (Execution.Waits O) s → Sees e.runId Q s :=
    fun hs ↦ hs.imp fun _ _ _ _ h ↦
      ⟨h.staged, fun hsettled ↦ Or.inl (h.ended hsettled), fun hq ↦ absurd hq h.left⟩
  have hparked : ∀ {m : ServiceM PUnit} {P' : Execution → RunStatus → Prop → Prop},
      Triple (Sees e.runId P') m (Parked O e.runId) →
      (∀ e' status active, P e' status active → P' e' status active) →
      Triple (Sees e.runId P) m fun _ ↦ Sees e.runId Q :=
    fun hm hPP' ↦ hm.weaken (fun s hs ↦ hs.imp fun _ _ _ _ h ↦ hPP' _ _ _ h)
      fun _ _ h ↦ hwaits h.2
  have hpreparing : ∀ e' status active, P e' status active →
      (e.point = .preparing ∨ (∃ lease, e.point = .leaseAcquired lease) ∨
        ∃ deadline, e.point = .waitingLease deadline) →
      e'.Preparing status active ∧ e'.workspacePrepared = false := by
    rintro e' status active ⟨rfl, -, hstaged⟩ hpoint
    have hplace := hstaged.place
    unfold Execution.Place at hplace
    rcases hpoint with hpoint | ⟨_, hpoint⟩ | ⟨_, hpoint⟩ <;>
      · have hstarted := Execution.Staged.started hstaged (by simp [hpoint])
        rw [hpoint] at hplace
        exact ⟨⟨hstarted, hplace.1, hplace.2.1, hplace.2.2.1⟩, hplace.2.2.2⟩
  have hrunning : ∀ e' status active, P e' status active →
      ((∃ error, e.point = .rejected error) ∨ e.point = .returned) → e'.Running status active := by
    rintro e' status active ⟨rfl, -, hstaged⟩ hpoint
    have hplace := hstaged.place
    unfold Execution.Place at hplace
    rcases hpoint with ⟨_, hpoint⟩ | hpoint <;>
      · have hstarted := Execution.Staged.started hstaged (by simp [hpoint])
        rw [hpoint] at hplace
        exact ⟨hstarted, hplace.1, hplace.2.1, hplace.2.2⟩
  unfold wake
  split
  · rename_i hpoint
    refine .gets fun s hs ↦ .ite (fun _ ↦ ?_) fun _ ↦ ?_
    · rintro _ rfl
      exact hparked (startExecution_sees e rfl) (fun e' status active h ↦ ⟨h.2.2, h.1 ▸ hpoint⟩) _ hs
    · rintro _ rfl
      exact hidle _ hs
  · rename_i hpoint
    refine .ite (fun _ ↦ hidle) fun _ ↦ ?_
    refine updateExecution_bind (Q := Q) (fun _ ↦ rfl) (fun e' status active _ h ↦ ?_) fun s hs ↦ ?_
    · obtain ⟨rfl, -, hstaged⟩ := h
      exact ⟨⟨hstaged.run, hstaged.queueTimeout, hstaged.accepted, hstaged.place⟩,
        fun _ ↦ Or.inr (Or.inl hpoint), id⟩
    · exact ⟨hs.logged, hs.calm, hs.sees⟩
  · rename_i deadline _ aborted hpoint
    split
    · exact hidle
    · rename_i reason hreason
      refine hparked (execution_sees (.throw fun s hs ↦ hs)) ?_
      intro e' status active h
      obtain ⟨⟨hstarted, hactive, hstatus, -⟩, hprepared⟩ :=
        hpreparing e' status active h (Or.inr (Or.inr ⟨_, hpoint⟩))
      refine Execution.finishing_of_early hstarted hactive (Or.inr hstatus) hprepared fun hkind ↦ ?_
      exact ⟨reason, h.1 ▸ hreason, hkind⟩
    · intro s hs
      obtain ⟨-, -, e', row, -, -, rfl, -, hstaged⟩ := id hs
      exact hparked (execution_sees (waiting_sees e'.run hstaged.run deadline)) (fun _ _ _ h ↦
        hpreparing _ _ _ h (Or.inr (Or.inr ⟨_, hpoint⟩))) s hs
  · rename_i lease _ hpoint
    exact hparked (execution_sees (leaseGranted_sees e rfl lease)) fun e' status active h ↦
      hpreparing e' status active h (Or.inr (Or.inl ⟨_, hpoint⟩))
  · rename_i prepared hpoint
    exact hparked (execution_sees (workspacePrepared_sees e rfl prepared)) fun e' status active h ↦
      (hpreparing e' status active h (Or.inl hpoint)).1
  · rename_i message hpoint
    refine hparked (execution_sees (.throw fun s hs ↦ hs)) ?_
    intro e' status active h
    obtain ⟨⟨hstarted, hactive, hstatus, -⟩, hprepared⟩ :=
      hpreparing e' status active h (Or.inl hpoint)
    exact Execution.finishing_of_early hstarted hactive (Or.inr hstatus) hprepared
      fun hkind ↦ absurd hkind (by simp [JsError.new])
  · rename_i point a hpoint
    exact (wakeAgent_sees e a point _ hpoint).weaken
      (fun s hs ↦ hs.imp fun _ _ _ _ h ↦ ⟨h.1, h.2.2⟩) fun _ _ h ↦ hwaits h
  · rename_i error _ hpoint
    exact hparked (execution_sees (.throw fun s hs ↦ hs)) fun e' status active h ↦
      (hrunning e' status active h (Or.inl ⟨_, hpoint⟩)).finishing error
  · rename_i hpoint
    exact hparked (execution_sees agentReturned_sees) fun e' status active h ↦
      hrunning e' status active h (Or.inr hpoint)
  · rename_i outcome hpoint
    refine hparked (checkpointed_sees e rfl outcome) ?_
    rintro e' status active ⟨rfl, -, hstaged⟩
    have hstarted := Execution.Staged.started hstaged (by simp [hpoint])
    have hplace := hstaged.place
    unfold Execution.Place at hplace
    rw [hpoint] at hplace
    exact ⟨⟨hstarted, hplace.1, hplace.2.1, hplace.2.2.2⟩, hplace.2.2.1⟩
  · rename_i outcome hpoint
    refine (released_sees (O := O) e rfl outcome status₀).weaken (fun s hs ↦ hs.imp ?_) fun _ s hs ↦
      hs.imp ?_
    · rintro e' status active - ⟨rfl, rfl, hstaged⟩
      exact ⟨rfl, rfl, hstaged, hpoint⟩
    · rintro e' status active - ⟨hstaged, hsettled, hiff⟩
      refine ⟨hstaged, fun _ ↦ ?_, fun hq ↦ absurd (hsettled.symm.trans hq) (by simp)⟩
      by_cases ht : status₀.isTerminalRunStatus = true
      · exact Or.inl (hiff.mpr (Or.inl ht))
      by_cases hmisses : e.Misses status₀ outcome
      · exact Or.inr (Or.inr ⟨hpoint, _, outcome, rfl, hmisses⟩)
      · exact Or.inl (hiff.mpr (Or.inr hmisses))
  · exact hidle

/-! ## Timers -/

/-- A tick of the renewal interval, while it is running. -/
theorem renewLease_sees (e : Execution) :
    Triple (Sees e.runId fun e' status active ↦ e'.Staged O status active ∧ ¬e'.Silent)
      (renewLease H O e) fun _ ↦ Sees e.runId (Execution.Waits O) := by
  let P := fun (e' : Execution) (status : RunStatus) (active : Prop) ↦
    e'.Staged O status active ∧ ¬e'.Silent
  have hassign : ∀ e₁ e₂ : Execution, ∀ status active, e₂ = { e₁ with lease := e₂.lease
                                                                      leaseLost := e₂.leaseLost } →
      P e₁ status active → P e₂ status active := by
    rintro e₁ e₂ status active heq ⟨⟨hrun, hqueue, haccepted, hplace⟩, hsilent⟩
    have hrunning : ¬e₂.Silent := by
      rw [Execution.Silent, heq]
      exact hsilent
    have hpoint : e₂.point = e₁.point := by rw [heq]
    refine ⟨⟨?_, ?_, haccepted, ?_⟩, hrunning⟩
    · rw [heq]
      exact hrun
    · rw [heq]
      exact hqueue
    · -- only a queued execution is asked about its lease, and there no timer is running
      unfold Execution.Place at hplace ⊢
      rw [hpoint]
      split at hplace
      case h_1 => exact absurd hplace.2.2.2 hsilent
      all_goals
        rw [heq]
        exact hplace
  have hwaits : ∀ e' status active, P e' status active → e'.Waits O status active :=
    fun e' status active h ↦ h.1.waits (h.1.active_of_not_silent h.2)
  unfold renewLease
  cases e.lease with
  | none => exact .pure fun s hs ↦ hs.imp fun _ _ _ _ h ↦ hwaits _ _ _ h
  | some lease =>
    refine now_bind fun t ↦ onStore_bind (H := H)
      (c := .renewWorkspaceLease t lease O.workspaceLeaseTtlMs) (p := fun _ ↦ False) rfl
      (fun _ ↦ trivial) ?_ (fun renewed ↦ ?_) fun _ h ↦ h.elim
    · refine Throws.gets fun S ↦ Returns.throws ?_
      cases S.leaseRow? lease with
      | none => exact Returns.pure _
      | some row =>
        dsimp only
        split_ifs
        · exact (Returns.modify _).bind fun _ ↦ Returns.pure _
        · exact Returns.pure _
    cases renewed with
    | some renewed =>
      have hrenewed := updateExecution_sees (r := e.runId) (P := P) (Q := P)
        (f := fun e ↦ { e with lease := some renewed }) (fun _ ↦ rfl)
        fun e₁ _ _ _ h ↦ hassign e₁ _ _ _ rfl h
      exact hrenewed.weaken (fun _ h ↦ h) fun _ _ h ↦ h.2.imp fun _ _ _ _ h ↦ hwaits _ _ _ h
    | none =>
      refine updateExecution_bind (Q := P) (fun _ ↦ rfl) (fun e₁ _ _ _ h ↦ hassign e₁ _ _ _ rfl h)
        fun s hs ↦ ?_
      have hactive : e.runId ∈ s.active := by
        obtain ⟨-, -, e₁, row, -, -, hstaged, hsilent⟩ := hs
        exact hstaged.active_of_not_silent hsilent
      let Q := fun (e' : Execution) (status : RunStatus) (active : Prop) ↦
        e'.Staged O status active ∧ active
      have hsees : Sees e.runId Q s := hs.imp fun _ _ _ _ h ↦
        ⟨h.1, h.1.active_of_not_silent h.2⟩
      refine (hsees.nudged (L := { resolves := True }) (abort_effects (H := H) (Or.inl hactive)
        trivial) id id ?_ ?_).imp fun _ _ _ _ h ↦ h.1.waits h.2
      · rintro e' status active ⟨hstaged, hactive⟩
        exact Bool.eq_false_iff.mpr fun ht ↦ hstaged.not_active_of_terminal ht hactive
      · exact fun _ _ _ _ h hn ↦ ⟨h.1.nudged hn, h.2⟩

/-! ## Steps -/

/-- A stretch of an execution that leaves its own run at a stage keeps the state consistent. -/
theorem Consistent.of_own {s s' : Service} (h : s.Consistent O) {e : Execution}
    (he : s.execution? e.runId = some e)
    (heffects : Effects H (executionLicence e) s s')
    (hown : Sees e.runId (Execution.Staged O) s') : s'.Consistent O := by
  obtain ⟨row, hrow, hstaged⟩ := h.staged e.runId e he
  obtain ⟨hlogged, hcalm, e₁, row₁, he₁, hrow₁, hstaged₁⟩ := hown
  refine ⟨?_, fun r ↦ ?_, fun r hr ↦ ?_, fun r ↦ ?_⟩
  · rw [heffects.runIds_eq id]
    exact h.nodup
  · by_cases hr : r = e.runId
    · subst hr
      intro e' he'
      obtain rfl := Option.some.inj (he₁.symm.trans he')
      exact ⟨row₁, hrow₁, hstaged₁⟩
    · exact (h.staged r).effects heffects hr fun hends ↦ hends.elim
  · by_cases hown : r = e.runId
    · exact ⟨e₁, hown ▸ he₁⟩
    · have hframe := heffects.undisturbed (r := r) hown
      obtain ⟨e₀, he₀⟩ := h.active r (hframe.active.mp hr)
      obtain ⟨e', he', -⟩ := hframe.execution e₀ he₀
      exact ⟨e', he'⟩
  · by_cases hr : r = e.runId
    · exact hr ▸ hcalm
    · refine heffects.evolves.calm (fun hfiles ↦ ?_) (h.calm r)
      exact hfiles.elim hr fun hid ↦ hr (hid.trans hstaged.run)

/-- The own run of an execution before it is woken. -/
theorem Consistent.sees {s : Service} (h : s.Consistent O) (hlogged : s.store.Logged)
    {r : JsString} {e : Execution} (he : s.execution? r = some e) {row : RunRow}
    (hrow : s.store.run? r = some row) :
    Sees r (fun e' status active ↦ e' = e ∧ status = row.status ∧ e'.Staged O status active) s := by
  obtain ⟨row', hrow', hstaged⟩ := h.staged r e he
  obtain rfl := Option.some.inj (hrow.symm.trans hrow')
  exact ⟨hlogged, h.calm r, e, row, he, hrow, rfl, rfl, hstaged⟩

/-- The execution a run enters the queue with. -/
def queuedExecution (run : RunRecord) (tails : List (JsString × JsString)) : Execution where
  runId := run.id
  run
  keys := queueKeys run
  predecessors := (queueKeys run).filterMap fun key ↦
    (tails.find? fun tail ↦ tail.1 = key).map Prod.snd

/-- The tails once a run has entered the queue. -/
def queuedTails (run : RunRecord) (tails : List (JsString × JsString)) :
    List (JsString × JsString) :=
  (queueKeys run).foldl
    (fun tails key ↦ Table.upsert Prod.fst (key, run.id) (fun tail ↦ (tail.1, run.id)) tails) tails

/-- What the callback of a creation does to the executions: nothing, or the run enters the queue,
and then it had only been accepted. -/
theorem enqueue_cases {s : Service} (hlogged : s.store.Logged) (run : RunRecord) :
    let s' := ((enqueue H run).run s).2
    s' = s ∨ s'.active = s.active ∧
      (∃ row, s.store.run? run.id = some row ∧ row.status = .accepted) ∧
      ((s'.executions = s.executions ∧ s'.queueTails = s.queueTails) ∨
        s'.executions = s.executions ++ [queuedExecution run s.queueTails] ∧
          s'.queueTails = queuedTails run s.queueTails ∧
          ∃ row, s'.store.run? run.id = some row ∧ row.status = .queued) := by
  intro s'
  have hs' : s' = ((enqueue H run).run s).2 := rfl
  cases hrow : s.store.run? run.id with
  | none =>
    rw [enqueue, run_bind, transitionIfActive, getRun_bind_run, Store.getRun, hrow] at hs'
    exact Or.inl hs'
  | some row =>
    by_cases ht : row.status.isTerminalRunStatus = true
    · rw [enqueue, run_bind_of_ok (transitionIfActive_ended hrow ht)] at hs'
      exact Or.inl hs'
    by_cases haccepted : row.status = .accepted
    rotate_left
    · -- the table leads to `QUEUED` from `ACCEPTED` only
      have hrejected : ¬RunStatus.Allowed row.status .queued := by
        generalize row.status = status at haccepted
        cases status <;> first | exact absurd rfl haccepted | decide
      obtain ⟨error, hrun⟩ := transitionIfActive_rejected (H := H) .runQueued hrow
        (Bool.eq_false_iff.mpr ht) hrejected
      rw [enqueue, run_bind, hrun] at hs'
      exact Or.inl hs'
    have hallowed : RunStatus.Allowed row.status .queued := haccepted ▸ by decide
    have hmade : (transitionIfActive H run.id .queued .runQueued).run s = _ :=
      transitionIfActive_run hlogged hrow rfl hallowed rfl
    rw [enqueue, run_bind_of_ok hmade] at hs'
    refine Or.inr ?_
    generalize hs₁ : recorded H s (transitionEvent run.id .queued .runQueued {}) row = s₁ at hs'
    have hqueued : ∃ row, s₁.store.run? run.id = some row ∧ row.status = .queued :=
      hs₁ ▸ ⟨_, recorded_run? _ hrow, transitioned_status _ _⟩
    have hstill : Still s s₁ := hs₁ ▸ ⟨rfl, rfl, rfl⟩
    rw [if_pos rfl, run_get_bind, run_bind, now_run, andThen_ok, run_ite] at hs'
    split_ifs at hs' with hdeadline
    · have htimeout := hs' ▸ timeoutQueuedRun_still (H := H) run.id run.budget.totalTimeoutMs
        { s₁ with readings := s₁.readings + 1 }
      exact ⟨htimeout.active.trans hstill.active, ⟨row, rfl, haccepted⟩,
        Or.inl ⟨htimeout.executions.trans hstill.executions,
          htimeout.queueTails.trans hstill.queueTails⟩⟩
    · have hactive : s'.active = s₁.active := (congrArg active hs').trans rfl
      have hexecutions : s'.executions = s₁.executions ++ [queuedExecution run s₁.queueTails] :=
        congrArg executions hs'
      have htails : s'.queueTails = queuedTails run s₁.queueTails := congrArg queueTails hs'
      have hstore : s'.store = s₁.store := (congrArg store hs').trans rfl
      rw [hactive, hexecutions, htails, hstore, hstill.active, hstill.executions, hstill.queueTails]
      exact ⟨rfl, ⟨row, rfl, haccepted⟩, Or.inr ⟨rfl, rfl, hqueued⟩⟩

/-- What the callback of a creation adds to the executions is a run in the queue. -/
theorem immediate_execution? {s : Service} (hlogged : s.store.Logged) {runId r : JsString}
    {e : Execution} (he : (step H O s (.immediate runId)).execution? r = some e) :
    (∃ run tails, e = queuedExecution run tails) ∨ s.execution? r = some e := by
  rw [step, handle, run_get_bind] at he
  cases hfound : s.scheduled.find? fun run ↦ run.id = runId with
  | none =>
    rw [hfound] at he
    exact Or.inr he
  | some run =>
    rw [hfound] at he
    dsimp only at he
    rw [run_modify_bind, run_ite] at he
    split_ifs at he
    · rcases enqueue_cases (H := H) 
          (s := { s with scheduled := s.scheduled.filter fun run ↦ run.id ≠ runId }) hlogged run with
        heq | ⟨-, -, ⟨hexecutions, -⟩ | ⟨hexecutions, -⟩⟩
      · rw [heq] at he
        exact Or.inr he
      · rw [execution?, hexecutions] at he
        exact Or.inr he
      · rw [execution?, hexecutions, Table.lookup_append, Table.lookup_singleton] at he
        rcases Option.or_eq_some_iff.mp he with hold | ⟨-, hnew⟩
        · exact Or.inr hold
        · split_ifs at hnew
          exact Or.inl ⟨run, s.queueTails, (Option.some.inj hnew).symm⟩
    · exact Or.inr he

/-- The promise of a run enters the queue. -/
theorem enqueue_consistent {s : Service} (h : s.Consistent O) (hlogged : s.store.Logged)
    (run : RunRecord) : ((enqueue H run).run s).2.Consistent O := by
  let L : Licence := { controls := fun r ↦ r = run.id, enqueues := True }
  have heffects : Effects H L s ((enqueue H run).run s).2 := enqueue_performs rfl trivial s
  have hcalm := fun r ↦ heffects.evolves.calm (r := r) id (h.calm r)
  have hother : ∀ r, r ≠ run.id → ((enqueue H run).run s).2.StagedRun O r := fun r hr ↦
    (h.staged r).effects heffects hr fun hends ↦ hends.elim
  rcases enqueue_cases (H := H) hlogged run with heq | ⟨hactive, ⟨row, hrow, haccepted⟩, hcases⟩
  · rw [heq]
    exact h
  · -- a run that was only accepted has no execution yet
    have hnone : s.execution? run.id = none := by
      cases he : s.execution? run.id with
      | none => rfl
      | some e =>
        obtain ⟨row', hrow', hstaged⟩ := h.staged run.id e he
        obtain rfl := Option.some.inj (hrow.symm.trans hrow')
        exact absurd haccepted hstaged.accepted
    have hidle : run.id ∉ s.active := fun hmem ↦ by
      obtain ⟨e, he⟩ := h.active _ hmem
      exact absurd (hnone.symm.trans he) (by simp)
    generalize ((enqueue H run).run s).2 = s' at *
    rcases hcases with ⟨hexecutions, -⟩ | ⟨hexecutions, -, row', hrow', hqueued⟩
    · have hlookup : ∀ r, s'.execution? r = s.execution? r := fun r ↦ by
        rw [execution?, hexecutions, execution?]
      refine ⟨hexecutions ▸ h.nodup, fun r ↦ ?_, fun r hr ↦ ?_, hcalm⟩
      · by_cases hr : r = run.id
        · intro e he
          rw [hlookup, hr, hnone] at he
          exact absurd he (by simp)
        · exact hother r hr
      · rw [hlookup]
        exact h.active r (hactive ▸ hr)
    · have hlookup : ∀ r, s'.execution? r = (s.execution? r).or
          (if run.id = r then some (queuedExecution run s.queueTails) else none) := fun r ↦ by
        rw [execution?, hexecutions, Table.lookup_append, Table.lookup_singleton]
        rfl
      refine ⟨?_, fun r ↦ ?_, fun r hr ↦ ?_, hcalm⟩
      · rw [hexecutions, List.map_append, List.nodup_append]
        refine ⟨h.nodup, List.nodup_singleton _, ?_⟩
        rintro k hk _ hk' rfl
        obtain ⟨e, he, rfl⟩ := List.mem_map.mp hk
        exact Table.lookup_eq_none_iff.mp hnone e he (List.mem_singleton.mp hk')
      · by_cases hr : r = run.id
        · subst hr
          intro e he
          rw [hlookup, hnone, if_pos rfl, Option.none_or] at he
          obtain rfl := Option.some.inj he
          refine ⟨row', hrow', rfl, fun _ ↦ rfl, ?_, ?_⟩
          · rw [hqueued]
            decide
          · rw [hactive]
            exact ⟨hidle, Or.inl hqueued, ⟨rfl, rfl, rfl⟩, rfl, rfl⟩
        · exact hother r hr
      · obtain ⟨e, he⟩ := h.active r (hactive ▸ hr)
        exact ⟨e, by rw [hlookup, he, Option.some_or]⟩

/-- **Every step keeps the state consistent.** -/
theorem step_consistent {s : Service} (h : s.Consistent O) (hlogged : s.store.Logged)
    (input : Input) : (step H O s input).Consistent O := by
  by_cases hrestart : input = .restart
  · subst hrestart
    rw [step_restart]
    have hfresh : (restarted s).Consistent O :=
      ⟨List.nodup_nil, fun _ _ he ↦ absurd he (by simp [execution?, restarted, Table.lookup]),
        fun _ hr ↦ absurd hr List.not_mem_nil, h.calm⟩
    exact hfresh.effects (reconcileInterruptedRuns_effects hlogged) (fun _ ↦ id)
      (fun _ _ ↦ List.not_mem_nil) (fun _ ↦ id) id
  cases hexec : input.execution? with
  | none =>
    have heffects := handle_call (H := H) (O := O) hexec hrestart s
    cases input with
    | immediate runId =>
      rw [step, handle, run_get_bind]
      cases s.scheduled.find? fun run ↦ run.id = runId with
      | none => exact h
      | some run =>
        have hfired : Consistent O
            { s with scheduled := s.scheduled.filter fun run ↦ run.id ≠ runId } :=
          ⟨h.nodup, h.staged, h.active, h.calm⟩
        dsimp only
        rw [run_modify_bind, run_ite]
        split_ifs
        · exact enqueue_consistent hfired hlogged run
        · exact hfired
    | cancelRun | shutdown => exact h.effects heffects (fun _ ↦ id) (fun _ h ↦ h) (fun _ ↦ id) id
    | _ => exact h.effects heffects (fun _ ↦ id) (fun _ h ↦ h.elim) (fun _ ↦ id) id
  | some r =>
    cases he : s.execution? r with
    | none =>
      rw [step_idle hexec he]
      exact h
    | some e =>
      obtain rfl := execution?_runId he
      obtain ⟨row, hrow, hstaged⟩ := h.staged _ e he
      have hsees := h.sees hlogged he hrow
      have hwoken := step_woken (H := H) (O := O) hexec he
      have heffects := hwoken.effects
      generalize step H O s input = s' at hwoken heffects
      cases hwoken with
      | idle => exact h
      | queueTimeout ht =>
        -- the queue timer is armed in the queue only, and there the run is not active
        have hidle : e.runId ∉ s.active := by
          have hplace := hstaged.place
          unfold Execution.Place at hplace
          rw [hstaged.queueTimeout ht] at hplace
          exact hplace.1
        refine h.effects (L := { ends := fun r ↦ r = e.runId })
          (timeoutQueuedRun_performs _ (Or.inr ⟨rfl, rfl⟩) s) (fun _ ↦ id) ?_ (fun _ ↦ id) id
        rintro _ rfl
        exact hidle
      | totalTimeout ht =>
        refine h.effects (L := { resolves := True }) (abort_effects (Or.inl ?_) trivial)
          (fun _ ↦ id) (fun _ ↦ False.elim) (fun _ ↦ id) id
        exact hstaged.active_of_not_silent (Execution.not_silent_of_timeout ht)
      | leaseRenewal ht =>
        refine h.of_own he heffects
          ((renewLease_sees e s (hsees.imp ?_)).imp fun _ _ _ _ h ↦ h.staged)
        rintro _ _ _ - ⟨rfl, -, hs⟩
        exact ⟨hs, Execution.not_silent_of_renewal ht⟩
      | wake =>
        exact h.of_own he heffects
          ((wake_sees e row.status input s hsees).imp fun _ _ _ _ h ↦ h.1)

theorem Reachable.consistent {s : Service} (h : Reachable H O s) : s.Consistent O :=
  h.induction (p := fun s ↦ s.Consistent O) .empty fun _ input hs hc ↦
    step_consistent hc hs.logged input

end Service

end LiteHarness
