import LiteHarness.ControlPlane.OwnRun

/-!
# The stretches of an execution

From one stage to the next: what each stretch of `#execute` makes of its own execution and of the
status of its run. The `finally` block never throws, since the run it finds either has ended in the
queue or still takes events.
-/

namespace LiteHarness

open Foundation Foundation.Eff

/-! ## Between the suspensions -/

/-- The execution has left the queue. -/
def Execution.Started (e : Execution) : Prop := e.run.id = e.runId ∧ e.queueTimeout = false

/-- The `try` block before `RUNNING`. -/
structure Execution.Preparing (e : Execution) (status : RunStatus) (active : Prop) : Prop where
  started : e.Started
  active : active
  status : status = .preparing
  terminal : e.terminal = none

/-- The `try` block from `RUNNING` on. -/
structure Execution.Running (e : Execution) (status : RunStatus) (active : Prop) : Prop where
  started : e.Started
  active : active
  status : status = .running
  terminal : e.terminal = none

/-- The `finally` block: the run has ended in the queue, or its end has been chosen. -/
structure Execution.Finishing (e : Execution) (status : RunStatus) (active : Prop) : Prop where
  started : e.Started
  accepted : status ≠ .accepted
  active : active
  decided : status.isTerminalRunStatus = true ∧ e.lease = none ∨
    ∃ terminal, e.terminal = some terminal ∧ e.EndsWith status terminal ∧
      (status.IsEarly → e.workspacePrepared = false ∧ terminal.status ≠ .succeeded)

/-- The `finally` block of a run that had started running. -/
structure Execution.Closing (e : Execution) (status : RunStatus) (active : Prop) : Prop where
  started : e.Started
  active : active
  late : status.IsLate
  decided : ∃ terminal, e.terminal = some terminal ∧ RunStatus.Allowed status terminal.status

/-- The terminal result cannot be reached: before the run has started running the table leads to
no orphan, and a lost lease or a failed release asks for one. -/
def Execution.Misses (e : Execution) (status : RunStatus) (outcome : ReleaseOutcome) : Prop :=
  status.IsEarly ∧ (outcome ≠ .released ∨ e.LostLease)

/-- The input is an end of the release with which the run's end is missed. -/
def Execution.MissesBy (e : Execution) (status : RunStatus) (input : Input) : Prop :=
  e.point = .releasing ∧ ∃ r outcome, input = .released r outcome ∧ e.Misses status outcome

/-- The execution has left the queue for another stage, and its promise has settled only if its run
has ended. -/
structure Execution.Waits (O : Options) (e : Execution) (status : RunStatus) (active : Prop) :
    Prop where
  staged : e.Staged O status active
  ended : e.point = .settled → status.isTerminalRunStatus = true
  left : e.point ≠ .queued

/-- The promise of an active execution has not settled. -/
theorem Execution.Staged.waits {O : Options} {e : Execution} {status : RunStatus} {active : Prop}
    (h : e.Staged O status active) (hactive : active) : e.Waits O status active := by
  refine ⟨h, fun hsettled ↦ ?_, fun hqueued ↦ ?_⟩
  all_goals
    have hplace := h.place
    unfold Execution.Place at hplace
  · rw [hsettled] at hplace
    exact absurd hactive hplace.1
  · rw [hqueued] at hplace
    exact absurd hactive hplace.1

/-- How a stretch of the `try` block ends. -/
def Execution.Outcome (O : Options) (outcome : Except JsError (Option Point)) (e : Execution)
    (status : RunStatus) (active : Prop) : Prop :=
  match outcome with
  | .ok (some point) =>
    ({ e with point } : Execution).Staged O status active ∧ point ≠ .settled ∧ point ≠ .queued
  | .ok none => e.Finishing status active
  | .error error =>
    ({ e with terminal := some (Service.failureOf e.abortReason error) } : Execution).Finishing status active

theorem RunStatus.IsLate.not_accepted {status : RunStatus} (h : status.IsLate) :
    status ≠ .accepted := by
  rcases h with rfl | rfl <;> decide

theorem RunStatus.IsLate.not_early {status : RunStatus} (h : status.IsLate) : ¬status.IsEarly := by
  rcases h with rfl | rfl <;> exact fun h ↦ h.elim (fun h ↦ nomatch h) fun h ↦ nomatch h

theorem RunStatus.IsLate.not_terminal {status : RunStatus} (h : status.IsLate) :
    status.isTerminalRunStatus = false := by
  rcases h with rfl | rfl <;> rfl

theorem RunStatus.IsLate.orphaned {status : RunStatus} (h : status.IsLate) :
    RunStatus.Allowed status .orphaned := by
  rcases h with rfl | rfl <;> decide

theorem RunStatus.IsLate.failed {status : RunStatus} (h : status.IsLate) :
    RunStatus.Allowed status .failed := by
  rcases h with rfl | rfl <;> decide

namespace Execution

variable {O : Options} {e : Execution} {status : RunStatus} {active : Prop}

theorem EndsWith.not_terminal {terminal : TerminalResult} (h : e.EndsWith status terminal) :
    status.isTerminalRunStatus = false := by
  rcases h with ⟨hlate, -⟩ | ⟨rfl | rfl, -⟩
  · exact hlate.not_terminal
  · rfl
  · rfl

theorem Closing.finishing (h : e.Closing status active) : e.Finishing status active := by
  obtain ⟨terminal, hterminal, hallowed⟩ := h.decided
  exact ⟨h.started, h.late.not_accepted, h.active, Or.inr ⟨terminal, hterminal,
    Or.inl ⟨h.late, hallowed⟩, fun hearly ↦ absurd hearly h.late.not_early⟩⟩

/-- A result chosen by the `catch` block never counts as a success. -/
theorem failureOf_status (reason : Option JsError) (error : JsError) :
    (Service.failureOf reason error).status ∈ [RunStatus.cancelled, .timedOut, .failed, .orphaned] := by
  unfold Service.failureOf
  split
  · decide
  · exact List.mem_cons_of_mem _ List.mem_cons_self
  · exact List.mem_cons_of_mem _ (List.mem_cons_of_mem _ List.mem_cons_self)
  · simp [Service.leaseLostResult]
  · split_ifs <;> simp [Service.leaseLostResult]

/-- The `catch` block orphans a run exactly when its lease is lost. -/
theorem failureOf_orphaned_iff {error : JsError}
    (herror : error.kind = .workspaceLeaseLost → e.LostLease) :
    (Service.failureOf e.abortReason error).status = .orphaned ↔ e.LostLease := by
  have hlost : e.LostLease ↔ ∃ message, e.abortReason = some ⟨.workspaceLeaseLost, message⟩ := by
    constructor
    · rintro ⟨⟨kind, message⟩, hreason, rfl⟩
      exact ⟨message, hreason⟩
    · rintro ⟨message, hreason⟩
      exact ⟨_, hreason, rfl⟩
  rw [hlost]
  rw [hlost] at herror
  unfold Service.failureOf
  split
  · rename_i hreason
    simp [hreason]
  · rename_i hreason
    simp [hreason]
  · rename_i hreason
    simp [hreason]
  · rename_i hreason
    simp [hreason, Service.leaseLostResult]
  · rename_i h₁ h₂ h₃ h₄
    split_ifs with hkind
    · exact absurd (herror hkind) (by simpa using h₄)
    · refine ⟨fun h ↦ absurd h (by simp), fun ⟨message, hreason⟩ ↦ ?_⟩
      exact absurd hreason (h₄ message)

theorem failureOf_allowed_running (reason : Option JsError) (error : JsError) :
    RunStatus.Allowed .running (Service.failureOf reason error).status := by
  have h := failureOf_status reason error
  generalize (Service.failureOf reason error).status = status at h
  simp only [List.mem_cons, List.not_mem_nil, or_false] at h
  rcases h with rfl | rfl | rfl | rfl <;> decide

/-- An exception before `RUNNING`. -/
theorem finishing_of_early {error : JsError} (h : e.Started) (hactive : active)
    (hearly : status.IsEarly) (hprepared : e.workspacePrepared = false)
    (herror : error.kind = .workspaceLeaseLost → e.LostLease) :
    ({ e with terminal := some (Service.failureOf e.abortReason error) } : Execution).Finishing
      status active := by
  have horphaned := failureOf_orphaned_iff herror
  have hstatus := failureOf_status e.abortReason error
  have hnotAccepted : status ≠ .accepted := by rcases hearly with rfl | rfl <;> decide
  refine ⟨h, hnotAccepted, hactive, Or.inr ⟨_, rfl, Or.inr ⟨hearly, ?_⟩, fun _ ↦ ⟨hprepared, ?_⟩⟩⟩
  · change e.LostLease ∧ _ ∨ ¬e.LostLease ∧ _
    by_cases hlost : e.LostLease
    · exact Or.inl ⟨hlost, horphaned.mpr hlost⟩
    · refine Or.inr ⟨hlost, ?_⟩
      rw [← horphaned] at hlost
      generalize (Service.failureOf e.abortReason error).status = target at hstatus hlost
      simp only [List.mem_cons, List.not_mem_nil, or_false] at hstatus
      rcases hstatus with rfl | rfl | rfl | rfl
      · rcases hearly with rfl | rfl <;> decide
      · rcases hearly with rfl | rfl <;> decide
      · rcases hearly with rfl | rfl <;> decide
      · exact absurd rfl hlost
  · intro hsucceeded
    rw [hsucceeded] at hstatus
    exact absurd hstatus (by decide)

/-- An exception from `RUNNING` on. -/
theorem Running.finishing (h : e.Running status active) (error : JsError) :
    ({ e with terminal := some (Service.failureOf e.abortReason error) } : Execution).Finishing
      status active := by
  obtain ⟨hstarted, hactive, rfl, -⟩ := h
  exact Closing.finishing ⟨hstarted, hactive, Or.inl rfl, _, rfl, failureOf_allowed_running _ _⟩

end Execution

namespace Service

variable {H : Host} {O : Options} {r : JsString}

/-- The stretch has returned, and the execution is suspended at a stage. -/
def Parked (O : Options) (r : JsString) (outcome : Except JsError PUnit) (s : Service) : Prop :=
  outcome = .ok ⟨⟩ ∧ Sees r (Execution.Waits O) s

theorem setPoint_parked {P : Execution → RunStatus → Prop → Prop} {point : Point}
    (hP : ∀ e status active, e.runId = r → P e status active →
      ({ e with point } : Execution).Waits O status active) :
    Triple (Sees r P) (setPoint r point) (Parked O r) :=
  updateExecution_sees (fun _ ↦ rfl) hP

/-! ## The `finally` block -/

theorem afterCheckpointFailure_allowed {status : RunStatus} (hlate : status.IsLate)
    (error : JsError) (leaseLost : Bool) {terminal : TerminalResult}
    (h : RunStatus.Allowed status terminal.status) :
    RunStatus.Allowed status (afterCheckpointFailure error leaseLost terminal).status := by
  unfold afterCheckpointFailure
  split_ifs
  · exact hlate.orphaned
  · exact hlate.failed
  · exact h

/-- A failed checkpoint is recorded and may change the result. -/
theorem checkpointFailed_sees (error : JsError) :
    Triple (Sees r fun e status active ↦ e.Closing status active ∧ e.timeout = false)
      (checkpointFailed H r error) fun x s ↦ x = .ok ⟨⟩ ∧
        Sees r (fun e status active ↦ e.Closing status active ∧ e.timeout = false) s := by
  refine getRun_bind fun row _ ↦ appendEvent_bind rfl rfl ⟨rfl, rfl⟩ (by simp)
    (fun _ _ _ h ↦ h.1.1.late.not_terminal) fun event ↦ updateExecution_sees (fun _ ↦ rfl) ?_
  rintro e status active - ⟨⟨⟨hstarted, hactive, hlate, terminal, hterminal, hallowed⟩, htimeout⟩, -⟩
  refine ⟨⟨hstarted, hactive, hlate, _, ?_,
    afterCheckpointFailure_allowed hlate error e.leaseLost hallowed⟩, htimeout⟩
  exact congrArg (Option.map _) hterminal

/-- The run leaves the active ones. -/
theorem leaveActive_sees {P : Execution → RunStatus → Prop → Prop}
    (hP : ∀ e status active, P e status active → e.Started ∧ e.Silent ∧ status ≠ .accepted ∧
      e.Decided status) :
    Triple (Sees r P) (do
      modify fun s ↦
        { s with
          active := s.active.filter fun r' ↦ r' ≠ r
          steering := s.steering.filter fun entry ↦ entry.1 ≠ r }
      setPoint r .releasing) (Parked O r) := by
  rintro s ⟨hlogged, hcalm, e, row, he, hrow, hp⟩
  rw [run_modify_bind]
  refine setPoint_parked (P := fun e status active ↦ P e status (r ∈ s.active) ∧ ¬active) ?_ _
    ⟨hlogged, hcalm, e, row, he, hrow, hp, fun h ↦ ?_⟩
  · rintro e status active - ⟨hp, hactive⟩
    obtain ⟨hstarted, hsilent, haccepted, hdecided⟩ := hP _ _ _ hp
    exact ⟨⟨hstarted.1, fun hq ↦ absurd (hq.symm.trans hstarted.2) (by simp), haccepted, hactive,
      hsilent, hdecided⟩, nofun, nofun⟩
  · exact absurd rfl (of_decide_eq_true (List.mem_filter.mp h).2)

/-- **The `finally` block reaches `releaseRun`.** -/
theorem releaseLease_sees :
    Triple (Sees r fun e status active ↦ e.Finishing status active ∧ e.timeout = false)
      (releaseLease H r) (Parked O r) := by
  have hleave : Triple (Sees r fun e status active ↦ e.Finishing status active ∧ e.Silent) _ _ :=
    leaveActive_sees (O := O) (r := r) fun e status active h ↦ by
      obtain ⟨⟨hstarted, haccepted, -, hdecided⟩, hsilent⟩ := h
      refine ⟨hstarted, hsilent, haccepted, hdecided.imp And.left ?_⟩
      exact fun ⟨terminal, hterminal, hends, _⟩ ↦ ⟨terminal, hterminal, hends⟩
  refine updateExecution_bind (Q := fun e status active ↦ e.Finishing status active ∧ e.Silent)
    (fun _ ↦ rfl) (fun e status active _ h ↦ ⟨⟨h.1.started, h.1.accepted, h.1.active, h.1.decided⟩,
      h.2, rfl⟩) ?_
  rintro s hs
  rw [run_get_bind]
  obtain ⟨e₀, he₀⟩ : ∃ e, s.execution? r = some e := by
    obtain ⟨-, -, e, -, he, -⟩ := hs
    exact ⟨e, he⟩
  rw [he₀, Option.bind_some]
  cases hlease : e₀.lease with
  | none => exact hleave s hs
  | some lease =>
    -- a run that holds a lease has not ended
    have hopen : Sees r (fun e status active ↦ (e.Finishing status active ∧ e.Silent) ∧
        status.isTerminalRunStatus = false) s := by
      refine hs.and fun e row he _ h ↦ ⟨h, ?_⟩
      obtain rfl := Option.some.inj (he₀.symm.trans he)
      rcases h.1.decided with ⟨-, hnone⟩ | ⟨terminal, -, hends, -⟩
      · exact absurd (hlease.symm.trans hnone) (by simp)
      · exact hends.not_terminal
    refine (?_ : Triple _ _ (Parked O r)) s hopen
    refine now_bind fun t ↦ onStore_bind (H := H)
      (c := .releaseWorkspaceLease t lease) (p := fun _ ↦ False) rfl (fun _ ↦ trivial) ?_ (fun released ↦ .ite (fun _ ↦ ?_) fun _ ↦ ?_) fun _ h ↦ h.elim
    · refine Throws.gets fun S ↦ Returns.throws ?_
      cases S.leaseRow? lease with
      | none => exact Returns.pure _
      | some row =>
        dsimp only
        split_ifs
        · exact (Returns.modify _).bind fun _ ↦ Returns.pure _
        · exact Returns.pure _
    · refine getRun_bind fun row _ ↦ appendEvent_bind rfl rfl ⟨rfl, rfl⟩ (by simp)
        (fun _ _ _ h ↦ h.1.2) fun event ↦ hleave.weaken (fun s hs ↦ ?_) fun _ _ h ↦ h
      exact hs.imp fun _ _ _ _ h ↦ h.1.1
    · refine updateExecution_bind (fun _ ↦ rfl) (fun e status active _ h ↦ ?_) hleave
      obtain ⟨⟨⟨hstarted, haccepted, hactive, hdecided⟩, hsilent⟩, hopen⟩ := h
      refine ⟨⟨hstarted, haccepted, hactive, Or.inr ?_⟩, hsilent⟩
      obtain ⟨terminal, hterminal, hends, hearly⟩ :=
        hdecided.resolve_left fun h ↦ absurd (hopen.symm.trans h.1) Bool.false_ne_true
      refine ⟨_, congrArg (Option.map _) hterminal, ?_, ?_⟩
      · change Execution.EndsWith e status _
        dsimp only
        split_ifs with hsucceeded
        · refine Or.inl ⟨?_, ?_⟩ <;> rcases hends with ⟨hlate, -⟩ | ⟨hstatus, -⟩
          · exact hlate
          · exact absurd hsucceeded (hearly hstatus).2
          · exact hlate.orphaned
          · exact absurd hsucceeded (hearly hstatus).2
        · exact hends
      · intro hstatus
        refine ⟨(hearly hstatus).1, ?_⟩
        dsimp only
        rw [if_neg (hearly hstatus).2]
        exact (hearly hstatus).2

theorem finallyBlock_sees :
    Triple (Sees r Execution.Finishing) (finallyBlock H O r) (Parked O r) := by
  refine updateExecution_bind
    (Q := fun e status active ↦ e.Finishing status active ∧ e.timeout = false) (fun _ ↦ rfl)
    (fun e status active _ h ↦ ⟨⟨h.started, h.accepted, h.active, h.decided⟩, rfl⟩) ?_
  rintro s hs
  rw [run_get_bind]
  obtain ⟨e₀, he₀⟩ : ∃ e, s.execution? r = some e := by
    obtain ⟨-, -, e, -, he, -⟩ := hs
    exact ⟨e, he⟩
  rw [he₀, Option.bind_some]
  split
  · rename_i lease hlease
    have hprepared : e₀.workspacePrepared = true ∧ e₀.lease = some lease := by
      split_ifs at hlease with hboth
      exact ⟨hboth.1, hlease⟩
    have hclosing : Sees r (fun e status active ↦ e.Closing status active ∧ e.timeout = false)
        s := by
      refine hs.and fun e row he _ h ↦ ?_
      obtain rfl := Option.some.inj (he₀.symm.trans he)
      obtain ⟨⟨hstarted, haccepted, hactive, hdecided⟩, htimeout⟩ := h
      rcases hdecided with ⟨-, hnone⟩ | ⟨terminal, hterminal, hends, hearly⟩
      · exact absurd (hprepared.2.symm.trans hnone) (by simp)
      · rcases hends with ⟨hlate, hallowed⟩ | ⟨hstatus, -⟩
        · exact ⟨⟨hstarted, hactive, hlate, terminal, hterminal, hallowed⟩, htimeout⟩
        · exact absurd (hprepared.1.symm.trans (hearly hstatus).1) (by simp)
    have hrelease := releaseLease_sees (H := H) (O := O) (r := r)
    rw [run_ite]
    split_ifs
    · let P := fun (e : Execution) (status : RunStatus) (active : Prop) ↦
        e.Closing status active ∧ e.timeout = false
      refine Triple.bind (p := Sees r P) (r := fun x s ↦ (∃ b, x = .ok b) ∧ Sees r P s)
        (.tryCatch (r := fun _ ↦ Sees r P) ?_ (fun b s h ↦ ⟨⟨b, rfl⟩, h⟩) fun error s hs ↦ ?_)
        (fun checkpointing ↦ .ite (fun _ ↦ ?_) fun _ ↦ ?_) (fun error s h ↦ ?_) s hclosing
      · -- the lease is validated
        refine getRun_bind fun row _ ↦ now_bind fun t ↦ .gets fun s hs ↦ ?_
        have hsame : ∀ s', s' = s → Sees r P s' := fun s' heq ↦
          heq ▸ hs.imp fun _ _ _ _ h ↦ h.1
        exact .ite (fun _ ↦ .pure hsame) fun _ ↦ .throw hsame
      · obtain ⟨hok, hsees⟩ := checkpointFailed_sees (H := H) error s hs
        rw [run_bind_of_ok (t := ((checkpointFailed H r error).run s).2) (Prod.ext hok rfl)]
        exact ⟨⟨false, rfl⟩, hsees⟩
      · refine (setPoint_parked (P := P) ?_).weaken (fun s h ↦ h.2) fun _ _ h ↦ h
        rintro e status active - ⟨hclosing, htimeout⟩
        exact ⟨⟨hclosing.started.1, fun hq ↦ absurd (hq.symm.trans hclosing.started.2) (by simp),
          hclosing.late.not_accepted, hclosing.active, hclosing.late, htimeout, hclosing.decided⟩,
          nofun, nofun⟩
      · refine hrelease.weaken (fun s h ↦ ?_) fun _ _ h ↦ h
        exact h.2.imp fun _ _ _ _ h ↦ ⟨h.1.finishing, h.2⟩
      · exact absurd h.1 (by simp)
    · exact hrelease s hs
  · exact releaseLease_sees s hs

/-! ## The `try` block -/

/-- **A stretch of the `try` block ends at a stage**, if its body ends as it should. -/
theorem execution_sees {P : Execution → RunStatus → Prop → Prop}
    {body : ServiceM (Option Point)}
    (hbody : Triple (Sees r P) body fun outcome ↦ Sees r (Execution.Outcome O outcome)) :
    Triple (Sees r P) (execution H O r body) (Parked O r) := by
  refine Triple.tryCatch (r := Parked O r) ?_ (fun _ _ h ↦ h) fun error s h ↦
    absurd h.1 (by simp)
  refine Triple.bind (r := fun x s ↦ ∃ next : Option Point, x = .ok next ∧
    Sees r (Execution.Outcome O (.ok next)) s) (.tryCatch hbody (fun next s h ↦ ⟨next, rfl, h⟩)
      fun error ↦ ?_) (fun next ↦ ?_) fun error s ⟨_, h, _⟩ ↦ absurd h (by simp)
  · refine updateExecution_bind (Q := Execution.Finishing) (fun _ ↦ rfl) (fun _ _ _ _ h ↦ h)
      (.pure fun s hs ↦ ⟨none, rfl, hs⟩)
  · cases next with
    | none =>
      refine finallyBlock_sees.weaken ?_ fun _ _ h ↦ h
      rintro s ⟨next, heq, h⟩
      obtain rfl := Except.ok.inj heq
      exact h
    | some point =>
      refine (setPoint_parked (P := fun e status active ↦
        ({ e with point } : Execution).Staged O status active ∧ point ≠ .settled ∧ point ≠ .queued)
          fun _ _ _ _ h ↦ ⟨h.1, fun heq ↦ absurd heq h.2.1, h.2.2⟩).weaken ?_ fun _ _ h ↦ h
      rintro s ⟨next, heq, h⟩
      obtain rfl := Except.ok.inj heq
      exact h

theorem throwIfAborted_sees {P : Execution → RunStatus → Prop → Prop} :
    Triple (Sees r P) (throwIfAborted r) fun x ↦ Sees r fun e status active ↦
      P e status active ∧ ∀ error, x = .error error → e.abortReason = some error := by
  rintro s hs
  rw [throwIfAborted, run_get_bind]
  cases hreason : (s.execution? r).bind Execution.abortReason with
  | none => exact hs.imp fun _ _ _ _ h ↦ ⟨h, fun _ h ↦ absurd h (by simp)⟩
  | some reason =>
    refine hs.and fun e row he _ h ↦ ⟨h, fun error herror ↦ ?_⟩
    rw [he, Option.bind_some] at hreason
    rw [hreason, ← Except.error.inj herror]

/-- The lease is granted, or refused for now; an exception other than an abort is no lost lease. -/
theorem waitForWorkspaceLease_sees {P : Execution → RunStatus → Prop → Prop} (run : RunRecord)
    (hrun : run.id = r) (deadline : ℤ) :
    Triple (Sees r P) (waitForWorkspaceLease H O run deadline) fun x ↦ Sees r
      fun e status active ↦ P e status active ∧ match x with
        | .ok point => (∃ lease, point = .leaseAcquired lease) ∨ ∃ d, point = .waitingLease d
        | .error error => error.kind = .workspaceLeaseLost → e.LostLease := by
  subst hrun
  refine now_bind fun t ↦ .ite (fun _ ↦ .throw fun s hs ↦ ?_) fun _ ↦ ?_
  · exact hs.imp fun _ _ _ _ h ↦ ⟨h, fun hkind ↦ absurd hkind (by simp [JsError.new])⟩
  refine Triple.bind throwIfAborted_sees (fun _ ↦ ?_) fun error s hs ↦ ?_
  · refine now_bind fun t ↦ onStore_bind (H := H)
      (c := .acquireWorkspaceLease t run.workspaceId run.id O.workspaceLeaseTtlMs)
      (p := fun error ↦ error.kind = .error) rfl (fun _ ↦ trivial) ?_ (fun lease ↦ ?_) ?_
    · refine .transaction (.gets fun S ↦ ?_)
      dsimp only
      cases S.run? run.id with
      | none => exact .throw rfl
      | some row =>
        dsimp only
        cases truthy row.workspaceInternalId with
        | none => exact .throw rfl
        | some w =>
          refine Throws.bind (.ite (Returns.pure _).throws (.throw rfl)) fun _ ↦ .ite
            (Returns.pure _).throws (Returns.throws ?_)
          exact (Returns.modify _).bind fun _ ↦ Returns.pure _
    · cases lease with
      | some lease => exact .pure fun s hs ↦ hs.imp fun _ _ _ _ h ↦ ⟨h.1, Or.inl ⟨lease, rfl⟩⟩
      | none => exact .pure fun s hs ↦ hs.imp fun _ _ _ _ h ↦ ⟨h.1, Or.inr ⟨deadline, rfl⟩⟩
    · intro error hkind s hs
      refine hs.imp fun _ _ _ _ h ↦ ⟨h.1, fun hlost ↦ ?_⟩
      exact absurd (hkind.symm.trans hlost) (by decide)
  · exact hs.imp fun e _ _ _ h ↦ ⟨h.1, fun hkind ↦ ⟨error, h.2 error rfl, hkind⟩⟩

/-- A round of waiting for the lease. -/
theorem waiting_sees (run : RunRecord) (hrun : run.id = r) (deadline : ℤ) :
    Triple (Sees r fun e status active ↦ e.Preparing status active ∧ e.workspacePrepared = false)
      (do
        let point ← waitForWorkspaceLease H O run deadline
        pure (some point))
      fun x ↦ Sees r (Execution.Outcome O x) := by
  refine Triple.bind (waitForWorkspaceLease_sees run hrun deadline) (fun point ↦ .pure fun s hs ↦
    hs.imp ?_) fun error s hs ↦ hs.imp ?_
  · rintro e status active - ⟨⟨⟨hstarted, hactive, rfl, hterminal⟩, hprepared⟩, hpoint⟩
    have hunqueued : ¬e.queueTimeout = true := fun hq ↦
      absurd (hq.symm.trans hstarted.2) (by simp)
    rcases hpoint with ⟨lease, rfl⟩ | ⟨d, rfl⟩
    · exact ⟨⟨hstarted.1, fun hq ↦ absurd hq hunqueued, by decide, hactive, rfl, hterminal,
        hprepared⟩, nofun, nofun⟩
    · exact ⟨⟨hstarted.1, fun hq ↦ absurd hq hunqueued, by decide, hactive, rfl, hterminal,
        hprepared⟩, nofun, nofun⟩
  · rintro e status active - ⟨⟨⟨hstarted, hactive, hstatus, -⟩, hprepared⟩, hlost⟩
    exact Execution.finishing_of_early hstarted hactive (Or.inr hstatus) hprepared hlost

theorem startAgent_sees (e₀ : Execution) (hr : e₀.runId = r) :
    Triple (Sees r Execution.Preparing) (startAgent H e₀)
      fun x ↦ Sees r (Execution.Outcome O x) := by
  subst hr
  have hrunning : ∀ e target active, (target = RunStatus.running ∧ ∃ source,
      Execution.Preparing e source active) → Execution.Running e target active := by
    rintro e target active ⟨rfl, source, hstarted, hactive, -, hterminal⟩
    exact ⟨hstarted, hactive, rfl, hterminal⟩
  refine transitionIfActive_bind rfl rfl (fun e source active h ↦ ?_) (.gets fun s hs ↦ ?_)
  · rw [h.status]
    decide
  replace hs := hs.imp fun e target active _ ↦ hrunning e target active
  dsimp only
  cases s.store.getAgentProfile e₀.run.agentId e₀.run.owner with
  | none =>
    rintro _ rfl
    exact hs.imp fun e status active _ h ↦ h.finishing _
  | some profile =>
    rintro _ rfl
    refine hs.imp fun e status active _ h ↦ ?_
    obtain ⟨hstarted, hactive, rfl, hterminal⟩ := h
    exact ⟨⟨hstarted.1, fun hq ↦ absurd (hq.symm.trans hstarted.2) (by simp), by decide, hactive,
      rfl, hterminal, trivial⟩, nofun, nofun⟩

theorem leaseGranted_sees (e₀ : Execution) (hr : e₀.runId = r) (lease : WorkspaceLease) :
    Triple (Sees r fun e status active ↦ e.Preparing status active ∧ e.workspacePrepared = false)
      (leaseGranted H O e₀ lease) fun x ↦ Sees r (Execution.Outcome O x) := by
  have hstart := startAgent_sees (H := H) (O := O) e₀ hr
  subst hr
  let P := fun (e : Execution) (status : RunStatus) (active : Prop) ↦
    e.Preparing status active ∧ e.workspacePrepared = false
  have hassign : ∀ e e' : Execution, ∀ status active, e'.Started = e.Started →
      e'.terminal = e.terminal → e'.workspacePrepared = e.workspacePrepared →
      P e status active → P e' status active := by
    rintro e e' status active hstarted hterminal hprepared ⟨h, hp⟩
    exact ⟨⟨hstarted ▸ h.started, h.active, h.status, hterminal ▸ h.terminal⟩, hprepared ▸ hp⟩
  refine updateExecution_bind (P := P) (Q := P) (fun _ ↦ rfl)
    (fun e _ _ _ ↦ hassign e _ _ _ rfl rfl rfl) ?_
  refine appendEvent_bind rfl rfl ⟨rfl, rfl⟩ (by simp) (fun e status active h ↦ ?_) fun event ↦ ?_
  · rw [h.1.status]
    rfl
  refine updateExecution_bind (Q := P) (fun _ ↦ rfl)
    (fun e _ _ _ ↦ hassign e _ _ _ rfl rfl rfl) ?_
  refine .ite (fun _ ↦ .pure fun s hs ↦ hs.imp fun e status active _ h ↦ ?_) fun _ ↦ ?_
  · obtain ⟨⟨hstarted, hactive, rfl, hterminal⟩, hprepared⟩ := h
    exact ⟨⟨hstarted.1, fun hq ↦ absurd (hq.symm.trans hstarted.2) (by simp), by decide, hactive,
      rfl, hterminal, hprepared⟩, nofun, nofun⟩
  · exact hstart.weaken (fun s hs ↦ hs.imp fun _ _ _ _ h ↦ h.1) fun _ _ h ↦ h

theorem workspacePrepared_sees (e₀ : Execution) (hr : e₀.runId = r) (prepared : PrepareResult) :
    Triple (Sees r Execution.Preparing) (workspacePrepared H e₀ prepared)
      fun x ↦ Sees r (Execution.Outcome O x) := by
  have hstart := startAgent_sees (H := H) (O := O) e₀ hr
  subst hr
  refine updateExecution_bind (Q := Execution.Preparing) (fun _ ↦ rfl)
    (fun e _ _ _ h ↦ ⟨h.started, h.active, h.status, h.terminal⟩) ?_
  refine .ite (fun _ ↦ ?_) fun _ ↦ hstart
  refine appendEvent_bind rfl rfl ⟨rfl, rfl⟩ (by simp) (fun e status active h ↦ ?_) fun _ ↦ hstart
  rw [h.status]
  rfl

/-- The agent has returned: the run will have succeeded, whether it is checkpointed or not. -/
theorem agentReturned_sees :
    Triple (Sees r Execution.Running) (agentReturned H O r)
      fun x ↦ Sees r (Execution.Outcome O x) := by
  have hend : Triple (Sees r fun e status active ↦ status.IsLate ∧ e.Started ∧ active) (do
      updateExecution r fun e ↦
        { e with terminal := some ⟨.succeeded, .runSucceeded, {}, rfl, rfl⟩ }
      pure (none : Option Point)) fun x ↦ Sees r (Execution.Outcome O x) := by
    refine updateExecution_bind (Q := Execution.Finishing) (fun _ ↦ rfl) ?_ (.pure fun _ h ↦ h)
    rintro e status active - ⟨hlate, hstarted, hactive⟩
    refine Execution.Closing.finishing ⟨hstarted, hactive, hlate, _, rfl, ?_⟩
    rcases hlate with rfl | rfl <;> decide
  refine .ite (fun _ ↦ ?_) fun _ ↦ ?_
  · refine Triple.bind (transition_sees rfl fun e source active h ↦ ?_) (fun _ ↦ ?_)
      fun error s h ↦ ?_
    · rw [h.status]
      decide
    · refine hend.weaken (fun s hs ↦ hs.2.imp ?_) fun _ _ h ↦ h
      rintro e status active - ⟨rfl, source, h⟩
      exact ⟨Or.inr rfl, h.started, h.active⟩
    · exact absurd (h.1 rfl) (by simp)
  · refine hend.weaken (fun s hs ↦ hs.imp ?_) fun _ _ h ↦ h
    rintro e status active - ⟨hstarted, hactive, rfl, -⟩
    exact ⟨Or.inl rfl, hstarted, hactive⟩

/-! ## The start of an execution -/

theorem timeoutQueuedRun_sees {P : Execution → RunStatus → Prop → Prop} (timeoutMs : ℚ)
    (hqueued : ∀ e status active, P e status active → status = .queued) :
    Triple (Sees r P) (timeoutQueuedRun H r timeoutMs) fun _ ↦ Sees r fun e target active ↦
      target = .timedOut ∧ ∃ source, P e source active := by
  refine getRun_bind fun row _ s hs ↦ ?_
  have hstatus : row.status = .queued := by
    obtain ⟨-, -, e, row', -, -, hP, hsame⟩ := hs
    exact hsame.symm.trans (hqueued _ _ _ hP)
  dsimp only
  rw [run_ite, toRunRecord_status, if_pos hstatus]
  refine ((transition_sees rfl fun e source active h ↦ ?_) s hs).2.imp ?_
  · rw [hqueued _ _ _ h.1]
    decide
  · rintro e target active - ⟨htarget, source, h, -⟩
    exact ⟨htarget, source, h⟩

/-- An attempt may be filed while the run has not ended; its id may be taken. -/
theorem createRunAttempt_bind {α : Type} {P : Execution → RunStatus → Prop → Prop} {t : ℤ}
    {id : JsString} {f : AttemptRow → ServiceM α} {q : Except JsError α → Service → Prop}
    (hactive : ∀ e status active, P e status active → status.isTerminalRunStatus = false)
    (hf : ∀ attempt, Triple (Sees r P) (f attempt) q)
    (he : ∀ error : JsError, error.kind = .error → ∀ s, Sees r P s → q (.error error) s) :
    Triple (Sees r P) (onStore (Store.createRunAttempt t r id) >>= f) q := by
  rintro s ⟨hlogged, hcalm, e, row, hexec, hrow, hP⟩
  rw [run_bind]
  rcases hrun : (onStore (Store.createRunAttempt t r id)).run s with ⟨error | attempt, s'⟩
  · obtain rfl := onStore_error (Store.createRunAttempt_atomic t r id) hrun
    refine he error ?_ s' ⟨hlogged, hcalm, e, row, hexec, hrow, hP⟩
    rw [onStore, run_zoom] at hrun
    refine Store.createRunAttempt_throws t r id s'.store error _ (Prod.ext ?_ rfl)
    exact (Prod.mk.inj hrun).1
  · obtain ⟨S, hcall, rfl⟩ := onStore_eq_ok_iff.mp hrun
    obtain ⟨-, -, -, -, -, rfl⟩ := Store.createRunAttempt_eq_ok hcall
    refine hf attempt _ ⟨hlogged.congr rfl rfl, ?_, e, row, hexec, hrow, hP⟩
    exact .of_active hrow (hactive _ _ _ hP)

/-- The first stretch: an execution that times out, is suspended for its lease, or fails. -/
theorem executeStart_sees :
    Triple (Sees r fun e status active ↦ e.queueTimeout = false ∧ active ∧ status = .queued ∧
        e.Untouched) (executeStart H O r) fun x ↦ Sees r (Execution.Outcome O x) := by
  refine getRun_bind fun row hrow ↦ ?_
  dsimp only
  let P := fun (e : Execution) (status : RunStatus) (active : Prop) ↦
    e.Started ∧ active ∧ status = .queued ∧ e.Untouched
  refine updateExecution_bind (Q := P) (fun _ ↦ rfl) ?_ (now_bind fun t ↦ .ite (fun _ ↦ ?_)
    fun _ ↦ ?_)
  · rintro e status active hid ⟨⟨hqueue, hactive, hstatus, huntouched⟩, -⟩
    exact ⟨⟨hrow.trans hid.symm, hqueue⟩, hactive, hstatus, huntouched⟩
  · -- the run has timed out in the queue, whatever its parent makes of it
    have htimedOut : ∀ (e : Execution) (target : RunStatus) (active : Prop),
        (target = .timedOut ∧ ∃ source, P e source active) → ∀ terminal,
          ({ e with terminal } : Execution).Finishing target active := by
      rintro e target active ⟨rfl, source, hstarted, hactive, -, huntouched⟩ terminal
      exact ⟨hstarted, by decide, hactive, Or.inl ⟨rfl, huntouched.2.2⟩⟩
    rw [toRunRecord_id, hrow]
    refine Triple.bind (timeoutQueuedRun_sees _ fun _ _ _ h ↦ h.2.2.1)
      (fun _ ↦ .pure fun s hs ↦ hs.imp fun e _ _ _ h ↦ htimedOut _ _ _ h e.terminal)
      fun error s hs ↦ hs.imp fun _ _ _ _ h ↦ htimedOut _ _ _ h _
  · refine createId_bind fun attempt ↦ now_bind fun t ↦ createRunAttempt_bind
      (fun e status active h ↦ ?_) (fun _ ↦ ?_) fun error hkind s hs ↦ ?_
    · rw [h.2.2.1]
      rfl
    · refine updateExecution_bind (Q := P) (fun _ ↦ rfl) (fun _ _ _ _ h ↦ h) ?_
      refine transitionIfActive_bind rfl rfl (fun e source active h ↦ ?_) ?_
      · rw [h.2.2.1]
        decide
      simp only [if_true]
      refine updateExecution_bind (Q := fun e status active ↦ e.Preparing status active ∧
        e.workspacePrepared = false) (fun _ ↦ rfl) ?_ (now_bind fun t ↦ ?_)
      · rintro e target active - ⟨rfl, source, hstarted, hactive, -, huntouched⟩
        exact ⟨⟨hstarted, hactive, rfl, huntouched.1⟩, huntouched.2.1⟩
      · exact waiting_sees _ hrow _
    · refine hs.imp fun e status active _ h ↦ ?_
      obtain ⟨hstarted, hactive, hstatus, huntouched⟩ := h
      refine Execution.finishing_of_early hstarted hactive (Or.inl hstatus) huntouched.2.1 ?_
      exact fun hlost ↦ absurd (hkind.symm.trans hlost) (by decide)

/-- The check in front of an execution, and its first stretch. -/
theorem startExecution_sees (e₀ : Execution) (hr : e₀.runId = r) :
    Triple (Sees r fun e status active ↦ e.Staged O status active ∧ e.point = .queued)
      (startExecution H O e₀) (Parked O r) := by
  subst hr
  let P := fun (e : Execution) (status : RunStatus) (active : Prop) ↦
    e.run.id = e.runId ∧ e.queueTimeout = false ∧ ¬active ∧ e.Untouched ∧ e.Silent ∧
      (status = .queued ∨ status.isTerminalRunStatus = true)
  refine updateExecution_bind (Q := P) (fun _ ↦ rfl) ?_ (getRun_bind fun row _ ↦ ?_)
  · rintro e status active - ⟨⟨hrun, -, -, hplace⟩, hpoint⟩
    unfold Execution.Place at hplace
    rw [hpoint] at hplace
    obtain ⟨hactive, hstatus, huntouched, hsilent⟩ := hplace
    exact ⟨hrun, rfl, hactive, huntouched, hsilent, hstatus⟩
  dsimp only
  refine .ite (fun ht ↦ ?_) fun hopen ↦ ?_
  · refine setPoint_parked ?_
    rintro e status active - ⟨⟨hrun, hqueue, hactive, -, hsilent, -⟩, rfl⟩
    refine ⟨⟨hrun, fun hq ↦ absurd (hq.symm.trans hqueue) (by simp), ?_, hactive, hsilent⟩,
      fun _ ↦ ht, nofun⟩
    intro haccepted
    rw [toRunRecord_status, haccepted] at ht
    exact absurd ht (by decide)
  · rintro s ⟨hlogged, hcalm, e, row', he, hrow', ⟨-, hqueue, -, huntouched, -, hstatus⟩, hsame⟩
    rw [run_modify_bind]
    refine execution_sees executeStart_sees _ ⟨hlogged, hcalm, e, row', he, hrow', hqueue, ?_, ?_,
      huntouched⟩
    · exact List.mem_append_right _ (List.mem_singleton_self _)
    · exact hstatus.resolve_right fun ht ↦ hopen (by rwa [toRunRecord_status, ← hsame])

/-! ## The agent loop -/

/-- Where a stretch of the agent loop can end. -/
def AgentNext (O : Options) (run : RunRecord) (point : Point) : Prop :=
  point = .returned ∨ ∃ p a, point = .agent p a ∧ p.Sound O run

theorem approveToolIfRequired_yields (run : RunRecord) (call : ToolCall) (policyGeneration : ℤ) :
    Yields (fun id ↦ id = none → O.requiresApproval call run = false)
      (approveToolIfRequired H O run call policyGeneration) := by
  refine .ite (fun hfree ↦ .pure fun _ ↦ hfree) fun _ ↦ .bind fun _ ↦ .bind fun id ↦ .bind fun _ ↦
    .bind fun _ ↦ .bind fun _ ↦ .bind fun _ ↦ .bind fun _ ↦ .bind fun _ ↦ .bind fun _ ↦
      .bind fun _ ↦ .pure fun h ↦ absurd h (by simp)

theorem beforeToolCall_yields (e : Execution) (call : ToolCall) :
    Yields (fun id ↦ id = none → O.requiresApproval call e.run = false)
      (beforeToolCall H O e call) := by
  unfold beforeToolCall
  cases e.lease with
  | none => exact .throw
  | some lease =>
    refine .bind fun t ↦ .gets fun s ↦ .ite (fun _ ↦ .gets fun s ↦ ?_) fun _ ↦ .throw
    dsimp only
    cases s.store.getAgentProfile e.run.agentId e.run.owner with
    | none => exact .throw
    | some profile =>
      exact .ite (fun _ ↦ .throw) fun _ ↦ .ite (fun _ ↦ .throw) fun _ ↦
        approveToolIfRequired_yields _ _ _

theorem beginTurn_yields (e : Execution) (a : AgentState) :
    Yields (AgentNext O e.run) (beginTurn H O e a) :=
  .ite (fun _ ↦ .bind fun _ ↦ .bind fun _ ↦ .bind fun _ ↦ .bind fun _ ↦
    .pure (Or.inr ⟨_, _, rfl, trivial⟩)) fun _ ↦ .throw

theorem nextToolCall_yields (e : Execution) (a : AgentState) (calls : List ToolCall) :
    Yields (AgentNext O e.run) (nextToolCall H O e a calls) := by
  cases calls with
  | nil => exact .ite (fun _ ↦ .pure (Or.inl rfl)) fun _ ↦ .ite (fun _ ↦ .throw) fun _ ↦
      beginTurn_yields e _
  | cons call rest =>
    refine .bind fun _ ↦ .bind fun _ ↦ .bind_of (beforeToolCall_yields e call) fun approvalId h ↦ ?_
    cases approvalId with
    | none => exact .pure (Or.inr ⟨_, _, rfl, h rfl⟩)
    | some approvalId => exact .pure (Or.inr ⟨_, _, rfl, trivial⟩)

theorem agentPrepared_yields (e : Execution) (a : AgentState) (preparation : AgentPreparation) :
    Yields (AgentNext O e.run) (agentPrepared H O e a preparation) := by
  unfold agentPrepared
  cases e.attempt with
  | none => exact beginTurn_yields e _
  | some attempt =>
    exact .ite (fun _ ↦ .bind fun _ ↦ beginTurn_yields e _) fun _ ↦ beginTurn_yields e _

theorem modelEvent_yields (e : Execution) (a : AgentState) (event : ModelEvent) :
    Yields (AgentNext O e.run) (modelEvent H e a event) := by
  have hend : ∀ a, Yields (AgentNext O e.run) (do
      throwIfAborted e.runId; pure (Point.agent .streaming a)) :=
    fun a ↦ .bind fun _ ↦ .pure (Or.inr ⟨_, _, rfl, trivial⟩)
  unfold modelEvent
  split
  · exact .bind fun _ ↦ hend _
  · exact hend _
  · exact .bind fun _ ↦ hend _
  · exact .bind fun _ ↦ hend _
  · exact hend _

theorem modelDone_yields (e : Execution) (a : AgentState) :
    Yields (AgentNext O e.run) (modelDone H O e a) :=
  .ite (fun _ ↦ .throw) fun _ ↦ .ite (fun _ ↦ .throw) fun _ ↦ .bind fun _ ↦
    nextToolCall_yields _ _ _

theorem approvalSettled_yields (run : RunRecord) (a : AgentState) (call : ToolCall)
    (rest : List ToolCall) (approvalId : JsString) (approved : Bool) :
    Yields (AgentNext O run) (approvalSettled a call rest approvalId approved) :=
  .ite (fun _ ↦ .pure (Or.inr ⟨_, _, rfl, trivial⟩)) fun _ ↦ .throw

theorem executeTool_yields (e : Execution) (a : AgentState) (call : ToolCall)
    (rest : List ToolCall) (approval : Option JsString) :
    Yields (AgentNext O e.run) (executeTool H e a call rest approval) := by
  unfold executeTool
  cases approval with
  | none => exact .ite (fun _ ↦ .bind fun _ ↦ .pure (Or.inr ⟨_, _, rfl, trivial⟩)) fun _ ↦ .throw
  | some id =>
    exact .bind fun _ ↦ .ite (fun _ ↦ .bind fun _ ↦ .pure (Or.inr ⟨_, _, rfl, trivial⟩)) fun _ ↦
      .throw

theorem toolReturned_yields (e : Execution) (a : AgentState) (call : ToolCall)
    (rest : List ToolCall) (result : ToolResult) :
    Yields (AgentNext O e.run) (toolReturned H O e a call rest result) := by
  refine .bind fun artifact ↦ .bind fun _ ↦ ?_
  cases artifact with
  | none => exact nextToolCall_yields _ _ _
  | some x => exact .bind fun _ ↦ nextToolCall_yields _ _ _

/-- What a stretch of the agent loop may do. -/
def agentLicence (e : Execution) : Licence where
  files r := r = e.run.id
  resolves := True
  executes := True

/-- **A stretch of the agent loop stays in the loop** or ends it. -/
theorem agentStretch_sees {run : RunRecord} {m : ServiceM Point} {e₀ : Execution}
    (hm : Performs H (agentLicence e₀) m) (hy : Yields (AgentNext O run) m) :
    Triple (Sees r fun e status active ↦ e.Running status active ∧ e.run = run)
      (agentStretch r m) (Parked O r) := by
  let P := fun (e : Execution) (status : RunStatus) (active : Prop) ↦
    e.Running status active ∧ e.run = run
  have hrun : Triple (Sees r P) m fun x s ↦ (∀ point, x = .ok point → AgentNext O run point) ∧
      Sees r P s := by
    intro s hs
    refine ⟨fun point h ↦ hy s point _ (Prod.ext h rfl), hs.nudged (hm s) id id ?_ ?_⟩
    · rintro e status active ⟨h, -⟩
      rw [h.status]
      rfl
    · rintro e e' status active ⟨⟨hstarted, hactive, hstatus, hterminal⟩, hrun⟩ hn
      obtain ⟨heq, -, -⟩ := hn
      rw [heq]
      exact ⟨⟨hstarted, hactive, hstatus, hterminal⟩, hrun⟩
  refine Triple.bind (r := fun x s ↦ ∃ point, x = .ok point ∧
      (AgentNext O run point ∨ ∃ error, point = .rejected error) ∧ Sees r P s)
    (.tryCatch hrun (fun point s h ↦ ⟨point, rfl, Or.inl (h.1 point rfl), h.2⟩)
      fun error ↦ .pure fun s h ↦ ⟨_, rfl, Or.inr ⟨error, rfl⟩, h.2⟩)
    (fun point ↦ ?_) fun error s ⟨_, h, _⟩ ↦ absurd h (by simp)
  rintro s ⟨_, heq, hpoint, hs⟩
  obtain rfl := Except.ok.inj heq
  refine setPoint_parked ?_ s hs
  rintro e status active - ⟨⟨hstarted, hactive, rfl, hterminal⟩, rfl⟩
  have hstaged : ({ e with point } : Execution).Place O .running active →
      ({ e with point } : Execution).Staged O .running active :=
    fun hplace ↦ ⟨hstarted.1, fun hq ↦ absurd (hq.symm.trans hstarted.2) (by simp), by decide, hplace⟩
  rcases hpoint with (rfl | ⟨p, a, rfl, hsound⟩) | ⟨error, rfl⟩
  · exact ⟨hstaged ⟨hactive, rfl, hterminal⟩, nofun, nofun⟩
  · exact ⟨hstaged ⟨hactive, rfl, hterminal, hsound⟩, nofun, nofun⟩
  · exact ⟨hstaged ⟨hactive, rfl, hterminal⟩, nofun, nofun⟩

/-! ## The end of an execution -/

/-- The checkpoint has finished, well or badly. -/
theorem checkpointed_sees (e₀ : Execution) (hr : e₀.runId = r)
    (outcome : Except JsString CheckpointResult) :
    Triple (Sees r fun e status active ↦ e.Closing status active ∧ e.timeout = false)
      (checkpointed H e₀ outcome) (Parked O r) := by
  subst hr
  let P := fun (e : Execution) (status : RunStatus) (active : Prop) ↦
    e.Closing status active ∧ e.timeout = false
  have hrelease : Triple (fun s ↦ Sees e₀.runId P s) (releaseLease H e₀.runId)
      (Parked O e₀.runId) :=
    releaseLease_sees.weaken (fun s hs ↦ hs.imp fun _ _ _ _ h ↦ ⟨h.1.finishing, h.2⟩) fun _ _ h ↦ h
  refine Triple.tryCatch (r := Parked O e₀.runId) ?_ (fun _ _ h ↦ h) fun error s h ↦
    absurd h.1 (by simp)
  cases outcome with
  | error message =>
    exact Triple.bind (checkpointFailed_sees _) (fun _ ↦ hrelease.weaken (fun _ h ↦ h.2)
      fun _ _ h ↦ h) fun _ _ h ↦ absurd h.1 (by simp)
  | ok result =>
    refine Triple.bind (r := fun x s ↦ x = .ok ⟨⟩ ∧ Sees e₀.runId P s)
      (.tryCatch (r := fun x s ↦ x = .ok ⟨⟩ ∧ Sees e₀.runId P s) ?_ (fun _ _ h ↦ h)
        fun error s h ↦ absurd h.1 (by simp)) (fun _ ↦ hrelease.weaken (fun _ h ↦ h.2)
          fun _ _ h ↦ h) fun _ _ h ↦ absurd h.1 (by simp)
    refine appendEvent_bind rfl rfl ⟨rfl, rfl⟩ (by simp) (fun e status active h ↦ ?_)
      fun event ↦ .pure fun s hs ↦ ⟨rfl, hs⟩
    exact h.1.late.not_terminal

/-- The result is one the table allows, unless the run is early and the result is an orphan. -/
theorem allowed_afterRelease_iff {e : Execution} {status : RunStatus} {terminal : TerminalResult}
    (h : e.EndsWith status terminal) (outcome : ReleaseOutcome) :
    (∃ result, afterRelease outcome (some terminal) = some result ∧
      RunStatus.Allowed status result.status) ↔ ¬e.Misses status outcome := by
  have hresult : ∃ result, afterRelease outcome (some terminal) = some result ∧
      (outcome = .released → result = terminal) ∧
      (outcome ≠ .released → result.status = .orphaned) := by
    cases outcome with
    | released => exact ⟨_, rfl, fun _ ↦ rfl, fun h ↦ absurd rfl h⟩
    | cleanupDebtRecorded => exact ⟨_, rfl, fun h ↦ absurd h (by decide), fun _ ↦ rfl⟩
    | thrown => exact ⟨_, rfl, fun h ↦ absurd h (by decide), fun _ ↦ rfl⟩
  obtain ⟨result, heq, hreleased, hother⟩ := hresult
  have hsome : (∃ result', afterRelease outcome (some terminal) = some result' ∧
      RunStatus.Allowed status result'.status) ↔ RunStatus.Allowed status result.status := by
    rw [heq]
    exact ⟨fun ⟨_, h, hallowed⟩ ↦ Option.some.inj h ▸ hallowed, fun h ↦ ⟨_, rfl, h⟩⟩
  rw [hsome]
  have horphan : status.IsEarly → ¬RunStatus.Allowed status .orphaned := by
    rintro (rfl | rfl) <;> decide
  by_cases hrel : outcome = .released
  · rw [hreleased hrel]
    rcases h with ⟨hlate, hallowed⟩ | ⟨hearly, ⟨hlost, horphaned⟩ | ⟨hkept, hallowed⟩⟩
    · exact ⟨fun _ hm ↦ hlate.not_early hm.1, fun _ ↦ hallowed⟩
    · rw [horphaned]
      exact ⟨fun hallowed ↦ absurd hallowed (horphan hearly), fun hm ↦
        absurd ⟨hearly, Or.inr hlost⟩ hm⟩
    · exact ⟨fun _ hm ↦ hm.2.elim (fun hne ↦ hne hrel) hkept, fun _ ↦ hallowed⟩
  · rw [hother hrel]
    rcases h with ⟨hlate, -⟩ | ⟨hearly, -⟩
    · exact ⟨fun _ hm ↦ hlate.not_early hm.1, fun _ ↦ hlate.orphaned⟩
    · exact ⟨fun hallowed ↦ absurd hallowed (horphan hearly), fun hm ↦
        absurd ⟨hearly, Or.inl hrel⟩ hm⟩

/-- **The end of an execution.** Its promise settles in any case, and its run has ended exactly
when the terminal result could be reached. -/
theorem released_sees (e₀ : Execution) (hr : e₀.runId = r) (outcome : ReleaseOutcome)
    (status₀ : RunStatus) :
    Triple (Sees r fun e status active ↦ e = e₀ ∧ status = status₀ ∧ e.Staged O status active ∧
        e.point = .releasing) (released H e₀ outcome) fun _ ↦ Sees r fun e status active ↦
      e.Staged O status active ∧ e.point = .settled ∧ (status.isTerminalRunStatus = true ↔
        status₀.isTerminalRunStatus = true ∨ ¬e₀.Misses status₀ outcome) := by
  subst hr
  -- whatever has happened to the status, the promise settles
  let P := fun (e : Execution) (status : RunStatus) (active : Prop) ↦
    e.Started ∧ ¬active ∧ e.Silent ∧ status ≠ .accepted ∧ (status.isTerminalRunStatus = true ↔
      status₀.isTerminalRunStatus = true ∨ ¬e₀.Misses status₀ outcome)
  have hsettle : Triple (Sees e₀.runId P) (setPoint e₀.runId .settled) fun x s ↦ x = .ok ⟨⟩ ∧
      Sees e₀.runId (fun e status active ↦ e.Staged O status active ∧ e.point = .settled ∧
        (status.isTerminalRunStatus = true ↔
          status₀.isTerminalRunStatus = true ∨ ¬e₀.Misses status₀ outcome)) s := by
    refine updateExecution_sees (fun _ ↦ rfl) ?_
    rintro e status active - ⟨hstarted, hactive, hsilent, haccepted, hiff⟩
    refine ⟨⟨hstarted.1, ?_, haccepted, hactive, hsilent⟩, rfl, hiff⟩
    exact fun hq ↦ absurd (hq.symm.trans hstarted.2) (by simp)
  have hafter : ∀ {body m : ServiceM PUnit} {s : Service},
      body.run s = (do m; setPoint e₀.runId .settled).run s → Sees e₀.runId P (m.run s).2 →
      Sees e₀.runId (fun e status active ↦ e.Staged O status active ∧ e.point = .settled ∧
        (status.isTerminalRunStatus = true ↔
          status₀.isTerminalRunStatus = true ∨ ¬e₀.Misses status₀ outcome))
        ((settling e₀.runId body).run s).2 := by
    intro body m s hbody hs
    rw [settling, run_tryCatch, hbody, run_bind]
    rcases hrun : m.run s with ⟨error | u, s'⟩
    · rw [hrun] at hs
      exact (hsettle s' hs).2
    · rw [hrun] at hs
      rw [andThen_ok, show (setPoint e₀.runId .settled).run s' = (.ok ⟨⟩, _) from rfl]
      exact (hsettle s' hs).2
  rintro s ⟨hlogged, hcalm, e, row, he, hrow, rfl, hstatus, hstaged, hpoint⟩
  have hplace := hstaged.place
  unfold Execution.Place at hplace
  rw [hpoint] at hplace
  obtain ⟨hactive, hsilent, hdecided⟩ := hplace
  have hstarted : e.Started := by
    refine ⟨hstaged.run, Bool.eq_false_iff.mpr fun hq ↦ ?_⟩
    exact absurd (hpoint.symm.trans (hstaged.queueTimeout hq)) (by simp)
  by_cases ht : row.status.isTerminalRunStatus = true
  · refine hafter (m := pure ⟨⟩) ?_ ⟨hlogged, hcalm, e, row, he, hrow, hstarted, hactive, hsilent,
      hstaged.accepted, fun _ ↦ Or.inl (hstatus ▸ ht), fun _ ↦ ht⟩
    rw [getRun_bind_run, Store.getRun, hrow]
    simp only [Option.map_some, toRunRecord_status, ht, if_true]
    rfl
  · obtain ⟨terminal, hterminal, hends⟩ := hdecided.resolve_left ht
    have hiff := allowed_afterRelease_iff hends outcome
    rcases hresult : afterRelease outcome (some terminal) with _ | result
    · cases outcome <;> exact absurd hresult (by simp [afterRelease])
    refine hafter (m := transition H e.runId result.status result.type result.payload) ?_ ?_
    · rw [getRun_bind_run, Store.getRun, hrow]
      simp only [Option.map_some, toRunRecord_status, ht, hterminal, hresult]
      rfl
    rw [hresult] at hiff
    by_cases hallowed : RunStatus.Allowed row.status result.status
    · have hmade : Triple (Sees e.runId fun e' status active ↦ e' = e ∧ status = row.status ∧ ¬active)
          (transition H e.runId result.status result.type result.payload) _ :=
        transition_sees result.ends.2 fun e' source active h ↦ h.2.1 ▸ hallowed
      refine (hmade s ⟨hlogged, hcalm, e, row, he, hrow, rfl, rfl, hactive⟩).2.imp ?_
      rintro e' target active - ⟨rfl, source, rfl, -, hactive'⟩
      refine ⟨hstarted, hactive', hsilent, ?_, fun _ ↦ Or.inr ?_, fun _ ↦ result.ends.1⟩
      · intro haccepted
        exact absurd (haccepted ▸ result.ends.1) (by decide)
      · exact hstatus ▸ hiff.mp ⟨result, rfl, hallowed⟩
    · obtain ⟨error, hrejected⟩ :=
        transition_rejected (H := H) result.type result.payload hrow hallowed
      rw [hrejected]
      refine ⟨hlogged, hcalm, e, row, he, hrow, hstarted, hactive, hsilent, hstaged.accepted, ?_⟩
      refine ⟨fun h ↦ absurd h ht, fun h ↦ ?_⟩
      rcases h with h | h
      · exact hstatus ▸ h
      · obtain ⟨_, heq, hallowed'⟩ := hiff.mpr (hstatus ▸ h)
        exact absurd (Option.some.inj heq ▸ hallowed') hallowed

end Service

end LiteHarness
