import LiteHarness.ControlPlane.Stages

/-!
# A stretch and its own run

The rules to follow one run through a stretch of its own execution. `Sees r P` says what the
stretch knows of the run `r`: its execution, its status and its activity satisfy `P`. Statements
about programs are the pre- and postconditions of `Triple` on such assertions.
-/

namespace LiteHarness

open Foundation Foundation.Eff

namespace Service

variable {H : Host} {O : Options}

/-! ## What a stretch knows of its run -/

/-- The run has an execution, and its execution, status and activity satisfy `P`. -/
structure Sees (r : JsString) (P : Execution → RunStatus → Prop → Prop) (s : Service) : Prop where
  logged : s.store.Logged
  calm : s.store.Calm r
  sees : ∃ e row, s.execution? r = some e ∧ s.store.run? r = some row ∧
    P e row.status (r ∈ s.active)

variable {r : JsString} {P Q : Execution → RunStatus → Prop → Prop} {s s' : Service}

theorem Sees.imp (h : Sees r P s)
    (hPQ : ∀ e status active, e.runId = r → P e status active → Q e status active) : Sees r Q s := by
  obtain ⟨hlogged, hcalm, e, row, he, hrow, hP⟩ := h
  exact ⟨hlogged, hcalm, e, row, he, hrow, hPQ _ _ _ (execution?_runId he) hP⟩

/-- An assertion may be refined by what is known of the state. -/
theorem Sees.and (h : Sees r P s) (hQ : ∀ e row, s.execution? r = some e →
    s.store.run? r = some row → P e row.status (r ∈ s.active) → Q e row.status (r ∈ s.active)) :
    Sees r Q s := by
  obtain ⟨hlogged, hcalm, e, row, he, hrow, hP⟩ := h
  exact ⟨hlogged, hcalm, e, row, he, hrow, hQ e row he hrow hP⟩

/-- Executions, activity and the queue are as they were. -/
structure Still (s s' : Service) : Prop where
  executions : s'.executions = s.executions
  active : s'.active = s.active
  queueTails : s'.queueTails = s.queueTails

theorem Still.refl (s : Service) : Still s s := ⟨rfl, rfl, rfl⟩

theorem Still.trans (s t w : Service) (h : Still s t) (h' : Still t w) : Still s w :=
  ⟨h'.executions.trans h.executions, h'.active.trans h.active, h'.queueTails.trans h.queueTails⟩

theorem Still.execution? (h : Still s s') (r : JsString) : s'.execution? r = s.execution? r := by
  rw [Service.execution?, h.executions, Service.execution?]

/-- A change of the store that leaves the run its status. -/
theorem Sees.still {L : Licence} (h : Sees r P s) (hstill : Still s s') (heffects : Effects H L s s')
    (hcontrols : ¬L.controls r) (hends : ¬L.ends r) (hfiles : ¬L.files r) : Sees r P s' := by
  obtain ⟨hlogged, hcalm, e, row, he, hrow, hP⟩ := h
  obtain ⟨row', hrow', -, hstatus⟩ := heffects.status_eq hcontrols hends hrow
  refine ⟨heffects.evolves.logged hlogged, heffects.evolves.calm hfiles hcalm, e, row',
    (hstill.execution? r).trans he, hrow', ?_⟩
  rw [hstatus, hstill.active]
  exact hP

/-- What stretches of others, or of the agent loop, do to the run. -/
theorem Sees.nudged {L : Licence} (h : Sees r P s) (heffects : Effects H L s s')
    (hcontrols : ¬L.controls r) (hends : ¬L.ends r)
    (hactive : ∀ e status active, P e status active → status.isTerminalRunStatus = false)
    (hP : ∀ e e' status active, P e status active → e.Nudged active e' → P e' status active) :
    Sees r P s' := by
  obtain ⟨hlogged, hcalm, e, row, he, hrow, hp⟩ := h
  obtain ⟨row', hrow', -, hstatus⟩ := heffects.status_eq hcontrols hends hrow
  obtain ⟨hsame, hexecution, -⟩ := heffects.undisturbed hcontrols
  obtain ⟨e', he', hnudged⟩ := hexecution e he
  have hp' := hP e e' _ _ hp hnudged
  rw [← hsame, ← hstatus] at hp'
  exact ⟨heffects.evolves.logged hlogged, .of_active hrow' (hactive _ _ _ hp'), e', row', he', hrow',
    hp'⟩

/-! ## Programs that leave executions alone -/

theorem now_still : Evolves Still (now H) := fun _ ↦ ⟨rfl, rfl, rfl⟩

theorem onStore_still {α : Type} (m : StoreM α) : Evolves Still (onStore m) :=
  fun _ ↦ ⟨rfl, rfl, rfl⟩

theorem appendEvent_still (params : AppendRunEvent) : Evolves Still (appendEvent H params) :=
  Evolves.bind Still.trans now_still fun _ ↦ onStore_still _

theorem appendSubagentSummary_still (run : RunRecord) (parentRunId : JsString)
    (status : RunStatus) (payload : TransitionPayload) :
    Evolves Still (appendSubagentSummary H run parentRunId status payload) := by
  refine Evolves.gets fun s ↦ Evolves.tryCatch Still.trans
    (Evolves.bind Still.trans (appendEvent_still _) fun _ ↦ Still.refl) fun error ↦
      Evolves.bind Still.trans Still.refl fun parent ↦ ?_
  cases parent with
  | none => exact Still.refl
  | some parent => exact Evolves.ite Still.refl Still.refl

theorem transition_still (runId : JsString) (status : RunStatus) (type : RunEventType)
    (payload : TransitionPayload) : Evolves Still (transition H runId status type payload) := by
  refine Evolves.bind Still.trans Still.refl fun run ↦ ?_
  cases run with
  | none => exact Still.refl
  | some run =>
    refine Evolves.bind Still.trans Still.refl fun _ ↦
      Evolves.bind Still.trans (appendEvent_still _) fun _ ↦ Evolves.ite ?_ Still.refl
    cases run.parentRunId with
    | none => exact Still.refl
    | some parent => exact appendSubagentSummary_still _ _ _ _

theorem timeoutQueuedRun_still (runId : JsString) (timeoutMs : ℚ) :
    Evolves Still (timeoutQueuedRun H runId timeoutMs) := by
  refine Evolves.bind Still.trans Still.refl fun run ↦ ?_
  cases run with
  | none => exact Still.refl
  | some run => exact Evolves.ite (transition_still _ _ _ _) Still.refl

/-! ## Transitions -/

/-- The event of a transition. -/
def transitionEvent (runId : JsString) (status : RunStatus) (type : RunEventType)
    (payload : TransitionPayload) : AppendRunEvent where
  runId
  type
  payload := .lifecycle status payload
  status := some status
  errorCode := payload.code
  errorMessage := payload.message

/-- The process once an event of a run has been appended. -/
def recorded (H : Host) (s : Service) (params : AppendRunEvent) (row : RunRow) : Service :=
  { s with
    readings := s.readings + 1
    store := s.store.recorded (H.clock s.readings) params row }

section Transitions

variable {status : RunStatus} {type : RunEventType} {payload : TransitionPayload} {row : RunRow}

theorem transitionEvent_coherent (r : JsString) (status : RunStatus)
    (payload : TransitionPayload) (htype : type.changesStatus = true) :
    (transitionEvent r status type payload).Coherent := by
  have hissued : (transitionEvent r status type payload).Issued { controls := fun _ ↦ True } {} :=
    issued_of_status (Or.inl trivial) htype rfl rfl rfl fun row hrow ↦
      absurd hrow (by simp [Store.run?, Table.lookup])
  exact hissued.coherent

/-- The store takes the event of a transition the table allows. -/
theorem transitionEvent_appendable (payload : TransitionPayload) (hlogged : s.store.Logged)
    (hrow : s.store.run? r = some row) (htype : type.changesStatus = true)
    (hallowed : RunStatus.Allowed row.status status) :
    s.store.Appendable (transitionEvent r status type payload) row := by
  refine hlogged.appendable hrow (RunStatus.not_isTerminal_of_allowed hallowed) ?_
  rintro rfl
  exact absurd htype Bool.false_ne_true

theorem recorded_run? (params : AppendRunEvent)
    (hrow : s.store.run? params.runId = some row) :
    (recorded H s params row).store.run? params.runId =
      some (Store.appended (H.clock s.readings) params row) := by
  rw [recorded, Store.run?_recorded, hrow, Option.map_some, if_pos (Store.run?_mem hrow).2]

theorem transitioned_status (t : ℤ) (row : RunRow) :
    (Store.appended t (transitionEvent r status type payload) row).status = status := by
  simp [Store.appended, transitionEvent]

/-- A transition the table allows: its event is appended, then the parent of a run that ends is
told. -/
theorem transition_run (payload : TransitionPayload) (hlogged : s.store.Logged)
    (hrow : s.store.run? r = some row)
    (htype : type.changesStatus = true) (hallowed : RunStatus.Allowed row.status status) :
    (transition H r status type payload).run s =
      (if status.isTerminalRunStatus then
        match truthy row.parentRunId with
        | some parentRunId => appendSubagentSummary H (toRunRecord row) parentRunId status payload
        | none => pure ⟨⟩
      else pure ⟨⟩ : ServiceM PUnit).run
        (recorded H s (transitionEvent r status type payload) row) := by
  have hcheck : RunStatus.assertRunTransition (toRunRecord row).status status = .ok () :=
    RunStatus.assertRunTransition_eq_ok_iff.mpr hallowed
  rw [transition, getRun_bind_run, Store.getRun, hrow]
  simp only [Option.map_some]
  rw [hcheck, run_bind, run_fromExcept, andThen_ok]
  change (appendEvent H (transitionEvent r status type payload) >>= _).run s = _
  rw [run_bind_of_ok (appendEvent_run
    (transitionEvent_appendable payload hlogged hrow htype hallowed))]
  rfl

/-- A transition the table rejects changes nothing. -/
theorem transition_rejected (type : RunEventType) (payload : TransitionPayload)
    (hrow : s.store.run? r = some row) (hrejected : ¬RunStatus.Allowed row.status status) :
    ∃ error, (transition H r status type payload).run s = (.error error, s) := by
  rw [transition, getRun_bind_run, Store.getRun, hrow]
  simp only [Option.map_some]
  rw [run_bind, run_fromExcept]
  cases hcheck : RunStatus.assertRunTransition (toRunRecord row).status status with
  | ok u => exact absurd (RunStatus.assertRunTransition_eq_ok_iff.mp hcheck) hrejected
  | error error => exact ⟨error, rfl⟩

theorem transitionIfActive_ended (hrow : s.store.run? r = some row)
    (ht : row.status.isTerminalRunStatus = true) :
    (transitionIfActive H r status type).run s = (.ok false, s) := by
  rw [transitionIfActive, getRun_bind_run, Store.getRun, hrow]
  simp only [Option.map_some, toRunRecord_status, ht, if_true]
  rfl

theorem transitionIfActive_rejected (type : RunEventType) (hrow : s.store.run? r = some row)
    (hactive : row.status.isTerminalRunStatus = false)
    (hrejected : ¬RunStatus.Allowed row.status status) :
    ∃ error, (transitionIfActive H r status type).run s = (.error error, s) := by
  obtain ⟨error, hrun⟩ := transition_rejected (H := H) type {} hrow hrejected
  refine ⟨error, ?_⟩
  rw [transitionIfActive, getRun_bind_run, Store.getRun, hrow]
  simp only [Option.map_some, toRunRecord_status, hactive, Bool.false_eq_true, if_false]
  rw [run_bind, hrun, andThen_error]

/-- A run that has not ended makes a transition that does not end it. -/
theorem transitionIfActive_run (hlogged : s.store.Logged) (hrow : s.store.run? r = some row)
    (htype : type.changesStatus = true) (hallowed : RunStatus.Allowed row.status status)
    (hactive : status.isTerminalRunStatus = false) :
    (transitionIfActive H r status type).run s =
      (.ok true, recorded H s (transitionEvent r status type {}) row) := by
  have hrun := transition_run (H := H) {} hlogged hrow htype hallowed
  rw [hactive, if_neg Bool.false_ne_true, run_pure] at hrun
  rw [transitionIfActive, getRun_bind_run, Store.getRun, hrow]
  simp only [Option.map_some, toRunRecord_status, RunStatus.not_isTerminal_of_allowed hallowed,
    Bool.false_eq_true, if_false]
  rw [run_bind_of_ok hrun, run_pure]

end Transitions

/-! ## Rules -/

section Rules

variable {α : Type} {q : Except JsError α → Service → Prop}

/-- The summary for the parent is the parent's business. -/
theorem appendSubagentSummary_sees (run : RunRecord) (parentRunId : JsString)
    (status : RunStatus) (payload : TransitionPayload) :
    Triple (Sees r P) (appendSubagentSummary H run parentRunId status payload)
      fun _ ↦ Sees r P := fun s hs ↦
  hs.still (appendSubagentSummary_still _ _ _ _ s)
    (appendSubagentSummary_performs (L := {}) _ _ _ _ s) id id id

theorem now_bind {f : ℤ → ServiceM α} (hf : ∀ t, Triple (Sees r P) (f t) q) :
    Triple (Sees r P) (now H >>= f) q := by
  intro s hs
  have hsees : Sees r P { s with readings := s.readings + 1 } :=
    hs.still (now_still (H := H) s) (now_performs (H := H) (L := {}) s) id id id
  exact hf _ _ hsees

theorem createId_bind {kind : String} {f : JsString → ServiceM α}
    (hf : ∀ u, Triple (Sees r P) (f u) q) : Triple (Sees r P) (createId H kind >>= f) q := by
  intro s hs
  have hsees : Sees r P { s with draws := s.draws + 1 } :=
    hs.still ⟨rfl, rfl, rfl⟩ (createId_performs (H := H) (L := {}) kind s) id id id
  exact hf _ _ hsees

/-- The rest of the program may use the run it reads. -/
theorem getRun_bind {f : Option RunRecord → ServiceM α}
    (hf : ∀ row : RunRow, row.id = r → Triple
      (Sees r fun e status active ↦ P e status active ∧ status = row.status)
      (f (some (toRunRecord row))) q) :
    Triple (Sees r P) (getRun r >>= f) q := by
  rintro s ⟨hlogged, hcalm, e, row, he, hrow, hP⟩
  rw [getRun_bind_run, Store.getRun, hrow]
  exact hf row (Store.run?_mem hrow).2 s ⟨hlogged, hcalm, e, row, he, hrow, hP, rfl⟩

/-- A call of the store whose licence is empty. -/
theorem onStore_bind {β : Type} {m : StoreM β} {c : StoreOp} {f : β → ServiceM α}
    (hop : c.call H.toPlatform = do let _ ← m) (h : ∀ S, c.Issued H.toPlatform {} S)
    {p : JsError → Prop} (hthrows : Throws p m) (hf : ∀ b, Triple (Sees r P) (f b) q)
    (he : ∀ error, p error → ∀ s, Sees r P s → q (.error error) s) :
    Triple (Sees r P) (onStore m >>= f) q := by
  intro s hs
  have hsees := hs.still (onStore_still m s) (onStore_performs hop h s) id id id
  rw [run_bind]
  rcases hrun : (onStore m).run s with ⟨error | b, s'⟩
  · rw [hrun] at hsees
    refine he error ?_ _ hsees
    rw [onStore, run_zoom] at hrun
    refine hthrows s.store error (m.run s.store).2 ?_
    rw [← (Prod.mk.inj hrun).1]
  · rw [hrun] at hsees
    exact hf b s' hsees

theorem updateExecution_run (f : Execution → Execution) (s : Service) :
    (updateExecution r f).run s = (.ok ⟨⟩,
      { s with executions := Table.update (fun e ↦ e.runId = r) f s.executions }) := rfl

/-- An assignment to a local variable. -/
theorem updateExecution_sees {f : Execution → Execution} (hid : ∀ e, (f e).runId = e.runId)
    (hPQ : ∀ e status active, e.runId = r → P e status active → Q (f e) status active) :
    Triple (Sees r P) (updateExecution r f) fun x s ↦ x = .ok ⟨⟩ ∧ Sees r Q s := by
  rintro s ⟨hlogged, hcalm, e, row, he, hrow, hP⟩
  refine ⟨rfl, hlogged, hcalm, f e, row, ?_, hrow, hPQ _ _ _ (execution?_runId he) hP⟩
  refine (execution?_update hid r).trans ?_
  rw [he, Option.map_some, if_pos (execution?_runId he)]

theorem updateExecution_bind {f : Execution → Execution} {g : PUnit → ServiceM α}
    (hid : ∀ e, (f e).runId = e.runId)
    (hPQ : ∀ e status active, e.runId = r → P e status active → Q (f e) status active)
    (hg : Triple (Sees r Q) (g ⟨⟩) q) : Triple (Sees r P) (updateExecution r f >>= g) q := by
  intro s hs
  obtain ⟨-, hsees⟩ := updateExecution_sees hid hPQ s hs
  exact hg _ hsees

/-- An event that changes no status is appended while the run has not ended. -/
theorem appendEvent_bind {params : AppendRunEvent} {f : EventRow → ServiceM α}
    (hrun : params.runId = r) (hstatus : params.status = none) (hc : params.Coherent)
    (htype : params.type ≠ .approvalResolved ∧ params.type ≠ .subagentCompleted)
    (hactive : ∀ e status active, P e status active → status.isTerminalRunStatus = false)
    (hf : ∀ event, Triple (Sees r P) (f event) q) :
    Triple (Sees r P) (appendEvent H params >>= f) q := by
  intro s hs
  have hsees := hs.still (appendEvent_still params s)
    (appendEvent_performs (H := H) (L := {}) hc htype.1 hstatus s) id id id
  obtain ⟨hlogged, -, e, row, -, hrow, hP⟩ := hs
  have happend : s.store.Appendable params row :=
    hlogged.appendable (hrun ▸ hrow) (hactive _ _ _ hP) htype.2
  rw [appendEvent_run happend] at hsees
  rw [run_bind_of_ok (appendEvent_run happend)]
  exact hf _ _ hsees

/-- **A transition the table allows is made.** It may still throw after it was made, when the
parent does not take the summary. -/
theorem transition_sees {status : RunStatus} {type : RunEventType} {payload : TransitionPayload}
    (htype : type.changesStatus = true)
    (hallowed : ∀ e source active, P e source active → RunStatus.Allowed source status) :
    Triple (Sees r P) (transition H r status type payload) fun x s ↦
      (status.isTerminalRunStatus = false → x = .ok ⟨⟩) ∧
        Sees r (fun e target active ↦ target = status ∧ ∃ source, P e source active) s := by
  rintro s ⟨hlogged, hcalm, e, row, he, hrow, hP⟩
  have hrowAllowed := hallowed _ _ _ hP
  have happend := transitionEvent_appendable payload hlogged hrow htype hrowAllowed
  rw [transition_run payload hlogged hrow htype hrowAllowed]
  have hsees : Sees r (fun e target active ↦ target = status ∧ ∃ source, P e source active)
      (recorded H s (transitionEvent r status type payload) row) :=
    ⟨hlogged.recorded happend (transitionEvent_coherent r status payload htype), hcalm.recorded, e,
      _, he, recorded_run? _ hrow, transitioned_status _ _, row.status, hP⟩
  generalize recorded H s (transitionEvent r status type payload) row = s₁ at hsees
  rw [run_ite]
  split_ifs with ht
  · refine ⟨fun hf ↦ absurd (hf.symm.trans ht) Bool.false_ne_true, ?_⟩
    cases truthy row.parentRunId with
    | none => exact hsees
    | some parent => exact appendSubagentSummary_sees _ _ _ _ s₁ hsees
  · exact ⟨fun _ ↦ rfl, hsees⟩

/-- A run that has not ended makes the transition. -/
theorem transitionIfActive_bind {status : RunStatus} {type : RunEventType}
    {f : Bool → ServiceM α} (htype : type.changesStatus = true)
    (hactive : status.isTerminalRunStatus = false)
    (hallowed : ∀ e source active, P e source active → RunStatus.Allowed source status)
    (hf : Triple (Sees r fun e target active ↦ target = status ∧ ∃ source, P e source active)
      (f true) q) : Triple (Sees r P) (transitionIfActive H r status type >>= f) q := by
  rintro s ⟨hlogged, hcalm, e, row, he, hrow, hP⟩
  have hrowAllowed := hallowed _ _ _ hP
  have happend := transitionEvent_appendable {} hlogged hrow htype hrowAllowed
  rw [run_bind_of_ok (transitionIfActive_run hlogged hrow htype hrowAllowed hactive)]
  exact hf _ ⟨hlogged.recorded happend (transitionEvent_coherent r status {} htype),
    hcalm.recorded, e, _, he, recorded_run? _ hrow, transitioned_status _ _, row.status, hP⟩

end Rules

end Service

end LiteHarness
