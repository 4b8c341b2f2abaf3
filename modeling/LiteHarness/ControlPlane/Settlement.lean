import LiteHarness.ControlPlane.Terminal

/-!
# How executions end their runs

A settled execution leaves a run that has ended, with no attempt still running, unless the end of
its release asked the table for an orphan before the run had started running. These releases are
exactly the ones that leave the run stuck.
-/

namespace LiteHarness

open Foundation Foundation.Eff

namespace Service

variable {H : Host} {O : Options}

/-- The run has ended, and none of its attempts is running. -/
def Ended (s : Service) (r : JsString) : Prop :=
  ∃ row, s.store.run? r = some row ∧ row.status.isTerminalRunStatus = true ∧
    ∀ a ∈ s.store.attempts, a.runId = r → a.status ≠ .running

/-- Every execution that has settled has ended its run. -/
def Concluded (s : Service) : Prop :=
  ∀ r e, s.execution? r = some e → e.point = .settled → s.Ended r

/-- The input ends the release of a run that has not started running, and the release has failed
or the lease was lost. -/
def MissesEnd (s : Service) (input : Input) : Prop :=
  ∃ r outcome e row, input = .released r outcome ∧ s.execution? r = some e ∧
    e.point = .releasing ∧ s.store.run? r = some row ∧ e.Misses row.status outcome

theorem Consistent.ended {s : Service} (h : s.Consistent O) {r : JsString} {row : RunRow}
    (hrow : s.store.run? r = some row) (ht : row.status.isTerminalRunStatus = true) :
    s.Ended r := ⟨row, hrow, ht, h.calm r row hrow ht⟩

/-- A stretch that leaves the point of an execution alone leaves it concluded. -/
theorem Concluded.undisturbed {s s' : Service} {L : Licence} {r : JsString}
    (h : s.Concluded) (hconsistent : s'.Consistent O) (heffects : Effects H L s s')
    (hr : ¬L.controls r) {e' : Execution} (he' : s'.execution? r = some e')
    (hsettled : e'.point = .settled) : s'.Ended r := by
  have hframe := heffects.undisturbed hr
  cases he : s.execution? r with
  | none => exact absurd (he'.symm.trans (hframe.idle he)) (by simp)
  | some e =>
    obtain ⟨e₁, he₁, hnudged⟩ := hframe.execution e he
    obtain rfl := Option.some.inj (he'.symm.trans he₁)
    have hpoint : e.point = .settled := by
      rcases hnudged.point with hsame | ⟨_, _, _, _, _, -, hanswered⟩
      · exact hsame.symm.trans hsettled
      · exact absurd (hsettled.symm.trans hanswered) (by simp)
    obtain ⟨row, hrow, ht, -⟩ := h r e he hpoint
    obtain ⟨row', hrow', hkept⟩ := heffects.evolves.keeps hrow
    exact hconsistent.ended hrow' (hkept.terminal ht ▸ ht)

/-- **A step that does not miss an end keeps the executions concluded.** -/
theorem step_concluded {s : Service} (h : Reachable H O s) (hconcluded : s.Concluded)
    {input : Input} (hmet : ¬s.MissesEnd input) : (step H O s input).Concluded := by
  have hconsistent := h.consistent
  have hconsistent' := (h.step input).consistent
  intro r e' he' hsettled
  by_cases hrestart : input = .restart
  · -- the new process has no executions
    subst hrestart
    rw [step_restart] at he'
    have hframe := (reconcileInterruptedRuns_effects (H := H) (s := restarted s) h.logged).undisturbed
      (r := r) id
    exact absurd (he'.symm.trans (hframe.idle rfl)) (by simp)
  cases hexec : input.execution? with
  | none =>
    have heffects := handle_call (H := H) (O := O) hexec hrestart s
    cases input with
    | immediate runId =>
      rcases immediate_execution? h.logged he' with ⟨run, tails, rfl⟩ | he
      · exact absurd hsettled (by simp [queuedExecution])
      · obtain ⟨row, hrow, ht, -⟩ := hconcluded r e' he hsettled
        obtain ⟨row', hrow', hkept⟩ := heffects.evolves.keeps hrow
        exact hconsistent'.ended hrow' (hkept.terminal ht ▸ ht)
    | _ => exact hconcluded.undisturbed hconsistent' heffects id he' hsettled
  | some k =>
    cases he : s.execution? k with
    | none =>
      rw [step_idle hexec he] at he' ⊢
      exact hconcluded r e' he' hsettled
    | some e =>
      obtain rfl := execution?_runId he
      have hwoken := step_woken (H := H) (O := O) hexec he
      by_cases hr : r = e.runId
      · subst hr
        obtain ⟨row, hrow, hstaged⟩ := hconsistent.staged _ e he
        have hsees := hconsistent.sees h.logged he hrow
        generalize step H O s input = s' at *
        cases hwoken with
        | idle => exact hconcluded _ e' he' hsettled
        | queueTimeout =>
          exact hconcluded.undisturbed (L := { ends := fun r ↦ r = e.runId }) hconsistent'
            (timeoutQueuedRun_performs _ (Or.inr ⟨rfl, rfl⟩) s) id he' hsettled
        | totalTimeout ht =>
          exact hconcluded.undisturbed (L := { resolves := True }) hconsistent'
            (abort_effects (Or.inl (hstaged.active_of_not_silent
              (Execution.not_silent_of_timeout ht))) trivial) id he' hsettled
        | leaseRenewal ht =>
          obtain ⟨-, -, e₁, row₁, he₁, hrow₁, hwaits⟩ := renewLease_sees (H := H) (O := O) e s
            (hsees.imp fun _ _ _ _ h ↦ ⟨h.2.2, h.1 ▸ Execution.not_silent_of_renewal ht⟩)
          obtain rfl := Option.some.inj (he'.symm.trans he₁)
          exact hconsistent'.ended hrow₁ (hwaits.ended hsettled)
        | wake =>
          obtain ⟨-, -, e₁, row₁, he₁, hrow₁, -, hends, -⟩ :=
            wake_sees (H := H) (O := O) e row.status input s hsees
          obtain rfl := Option.some.inj (he'.symm.trans he₁)
          refine hconsistent'.ended hrow₁ ?_
          rcases hends hsettled with hended | hwas | ⟨hpoint, r, outcome, rfl, hmisses⟩
          · exact hended
          · -- a settled execution is only drained
            obtain ⟨row₀, hrow₀, ht, -⟩ := hconcluded _ e he hwas
            obtain ⟨row₂, hrow₂, hkept⟩ :=
              (wake_performs e.point input (H := H) (O := O) (L := executionLicence e) rfl
                (Or.inl rfl) (Or.inr rfl) trivial (fun _ ↦ trivial) id s).evolves.keeps hrow₀
            obtain rfl := Option.some.inj (hrow₁.symm.trans hrow₂)
            exact hkept.terminal ht ▸ ht
          · obtain rfl := Option.some.inj hexec
            exact absurd ⟨_, outcome, e, row, rfl, he, hpoint, hrow, hmisses⟩ hmet
      · exact hconcluded.undisturbed hconsistent' hwoken.effects hr he' hsettled

/-- An end that is missed leaves a settled execution whose run has not ended. -/
theorem MissesEnd.not_concluded {s : Service} (h : Reachable H O s) {input : Input}
    (hmisses : s.MissesEnd input) : ¬(step H O s input).Concluded := by
  obtain ⟨r, outcome, e, row, rfl, he, hpoint, hrow, hmisses⟩ := hmisses
  obtain rfl := execution?_runId he
  obtain ⟨row', hrow', hstaged⟩ := h.consistent.staged _ e he
  obtain rfl := Option.some.inj (hrow.symm.trans hrow')
  have hstep : step H O s (.released e.runId outcome) = ((released H e outcome).run s).2 := by
    rw [step, handle, onExecution, run_get_bind, he]
    dsimp only
    rw [hpoint, wake]
  obtain ⟨-, -, e₁, row₁, he₁, hrow₁, -, hsettled, hiff⟩ :=
    released_sees (H := H) (O := O) e rfl outcome row.status s
      ⟨h.logged, h.consistent.calm _, e, row, he, hrow, rfl, rfl, hstaged, hpoint⟩
  rw [hstep]
  intro hconcluded
  obtain ⟨row₂, hrow₂, ht, -⟩ := hconcluded _ e₁ he₁ hsettled
  obtain rfl := Option.some.inj (hrow₁.symm.trans hrow₂)
  rcases hiff.mp ht with hended | hmet
  · rcases hmisses.1 with hstatus | hstatus <;> rw [hstatus] at hended <;>
      exact absurd hended (by decide)
  · exact hmet hmisses

/-- The result the execution has chosen is one the table accepts, unless the end is missed. -/
theorem result_allowed_iff {s : Service} (h : Reachable H O s) {r : JsString} {e : Execution}
    (he : s.execution? r = some e) (hpoint : e.point = .releasing) {row : RunRow}
    (hrow : s.store.run? r = some row) (hopen : row.status.isTerminalRunStatus = false)
    (outcome : ReleaseOutcome) :
    (∃ result, afterRelease outcome e.terminal = some result ∧
      RunStatus.Allowed row.status result.status) ↔ ¬s.MissesEnd (.released r outcome) := by
  obtain ⟨row', hrow', hstaged⟩ := h.consistent.staged r e he
  obtain rfl := Option.some.inj (hrow.symm.trans hrow')
  have hplace := hstaged.place
  unfold Execution.Place at hplace
  rw [hpoint] at hplace
  obtain ⟨terminal, hterminal, hends⟩ := hplace.2.2.resolve_left fun ht ↦
    absurd (hopen.symm.trans ht) Bool.false_ne_true
  rw [hterminal, allowed_afterRelease_iff hends outcome]
  refine not_congr ⟨fun hmisses ↦ ⟨r, outcome, e, row, rfl, he, hpoint, hrow, hmisses⟩, ?_⟩
  rintro ⟨_, _, e', row', heq, he', -, hrow', hmisses⟩
  obtain ⟨rfl, rfl⟩ := Input.released.inj heq
  obtain rfl := Option.some.inj (he.symm.trans he')
  obtain rfl := Option.some.inj (hrow.symm.trans hrow')
  exact hmisses

/-- **A settled execution has ended its run**, unless an end was missed: in a history no input of
which misses an end, every execution that has settled has left a run that has ended, with no
attempt running, and an input that misses an end leaves a settled execution whose run has not. The
result an execution has chosen when its release ends is accepted by the table exactly when the end
is not missed. -/
theorem concluded_of_ends_met :
    (∀ history : List Input, (∀ before input later, history = before ++ input :: later →
        ¬(after H O {} before).MissesEnd input) → (after H O {} history).Concluded) ∧
    (∀ (history : List Input) (input : Input), (after H O {} history).MissesEnd input →
        ¬(after H O {} (history ++ [input])).Concluded) ∧
    ∀ (history : List Input) (r : JsString) (e : Execution) (row : RunRow),
      (after H O {} history).execution? r = some e → e.point = .releasing →
      (after H O {} history).store.run? r = some row → row.status.isTerminalRunStatus = false →
      ∀ outcome, (∃ result, afterRelease outcome e.terminal = some result ∧
        RunStatus.Allowed row.status result.status) ↔
          ¬(after H O {} history).MissesEnd (.released r outcome) := by
  refine ⟨fun history hmet ↦ ?_, fun history input hmisses ↦ ?_,
    fun history r e row he hpoint hrow hopen ↦
      result_allowed_iff ⟨history, rfl⟩ he hpoint hrow hopen⟩
  · induction history using List.reverseRecOn with
    | nil => exact fun _ _ he ↦ absurd he (by simp [after, execution?, Table.lookup])
    | append_singleton history input ih =>
      rw [after_append]
      refine step_concluded ⟨history, rfl⟩ (ih fun before input' later heq ↦ ?_)
        (hmet history input [] rfl)
      exact hmet before input' (later ++ [input]) (by rw [heq]; simp)
  · rw [after_append]
    exact hmisses.not_concluded ⟨history, rfl⟩

/-- A run whose workspace cannot be prepared, and whose cleanup then fails. -/
def failedCleanup : List Input :=
  let r := js "run_0"
  [.createRun rootRequest, .immediate r, .predecessorsSettled r, .resume r,
    .workspacePrepared r (.error (js "no space left")), .released r .cleanupDebtRecorded]

/-- The execution has settled, and its run is still being prepared. -/
theorem not_concluded_failedCleanup :
    ¬∀ (H : Host) (O : Options) (history : List Input), (after H O {} history).Concluded := by
  intro h
  have hsettled : ((after referenceHost referenceOptions {} failedCleanup).execution?
      (js "run_0")).any (fun e ↦ e.point.isSettled) = true := by
    decide +kernel
  have hopen : ((after referenceHost referenceOptions {} failedCleanup).store.run?
      (js "run_0")).all (fun row ↦ row.status = .preparing) = true := by
    decide +kernel
  obtain ⟨e, he, hpoint⟩ := (Option.any_eq_true _ _).mp hsettled
  obtain ⟨row, hrow, ht, -⟩ := h _ _ failedCleanup _ e he (Point.isSettled_iff.mp hpoint)
  have hstatus := of_decide_eq_true ((Option.all_eq_true _ _).mp hopen row hrow)
  rw [hstatus] at ht
  exact absurd ht (by decide)

end Service

end LiteHarness
