import LiteHarness.ControlPlane.Consistency

/-!
# A run that has ended stays as it ended

An execution whose run has ended is queued, being released or settled, and from there it files
nothing for its run. So no stretch does, and what remains possible is sealed by the store.
-/

namespace LiteHarness

open Foundation Foundation.Eff

namespace Store

/-- Calls that file nothing for a run that has ended leave it sealed. -/
theorem Evolves.sealed {P : Platform} {L : Licence} {S S' : Store} (h : Evolves P L S S')
    {r : JsString} (hr : ¬L.files r) (hlogged : S.Logged) (hfiled : S.Filed P) (hcalm : S.Calm r)
    {row : RunRow} (hrow : S.run? r = some row) (ht : row.status.isTerminalRunStatus = true) :
    Sealed r S S' := by
  induction h with
  | refl => exact .refl r S
  | @tail S₁ S₂ hfirst hstep ih =>
    obtain ⟨op, hissued, rfl⟩ := hstep
    obtain ⟨row₁, hrow₁, -, hstatus, -⟩ := ih.row row hrow
    refine ih.trans ?_ (.single ⟨op, hissued, rfl⟩)
    have hS₁ : Evolves P L S S₁ := hfirst
    exact Sealed.issued (hS₁.logged hlogged) (hS₁.filed hfiled) (hS₁.calm hr hcalm) hrow₁
      (hstatus ▸ ht) hr hissued

/-- Usage that is recorded beside the log is refused once the run has ended. -/
theorem Sealed.recordUsage {P : Platform} {S : Store} {r : JsString} {row : RunRow}
    (hrow : S.run? r = some row) (ht : row.status.isTerminalRunStatus = true) (updatedAt : ℤ)
    (runId : JsString) (delta : RunUsageDelta) :
    Sealed r S ((StoreOp.recordUsage updatedAt runId delta).apply P S) := by
  rcases (StoreOp.recordUsage updatedAt runId delta).cases P S with heq | hchange
  · rw [heq]
    exact .refl r S
  · generalize (StoreOp.recordUsage updatedAt runId delta).apply P S = S' at hchange
    cases hchange with
    | usage hrun hactive =>
      have hne : runId ≠ r := by
        rintro rfl
        obtain rfl := Option.some.inj (hrow.symm.trans hrun)
        exact absurd (hactive.symm.trans ht) Bool.false_ne_true
      refine ⟨fun row' hrow' ↦ ⟨row', ?_, rfl, rfl, rfl, rfl, rfl⟩, rfl, rfl, rfl, [],
        (List.append_nil _).symm, fun _ h ↦ absurd h List.not_mem_nil⟩
      refine (Table.lookup_update (f := withUsage updatedAt delta) (fun _ ↦ rfl) r S.runs).trans ?_
      change (S.run? r).map _ = _
      rw [hrow', Option.map_some, if_neg]
      simpa [(run?_mem hrow').2] using hne.symm
    | configured h => exact absurd h id

end Store

namespace Service

variable {H : Host} {O : Options}

theorem Reachable.filed {s : Service} (h : Reachable H O s) : s.store.Filed H.toPlatform := by
  refine h.induction (p := fun s ↦ s.store.Filed H.toPlatform) (.empty _) fun s input hs hfiled ↦ ?_
  obtain ⟨L, hevolves⟩ := step_evolves O hs.logged input
  exact hevolves.filed hfiled

/-- The queue finds that the run has ended, and settles its promise. -/
theorem startExecution_ended {e : Execution} {s : Service} {row : RunRow}
    (hrow : s.store.run? e.runId = some row) (ht : row.status.isTerminalRunStatus = true) :
    ((startExecution H O e).run s).2.store = s.store := by
  rw [startExecution, run_bind, updateExecution_run, andThen_ok, getRun_bind_run, Store.getRun]
  generalize hs₁ : ({ s with executions := _ } : Service) = s₁
  have hstore : s₁.store = s.store := by rw [← hs₁]
  rw [← hstore] at hrow ⊢
  rw [hrow]
  simp only [Option.map_some, toRunRecord_status, ht, if_true]
  rfl

/-- The execution of a run that has ended does nothing but leave. -/
theorem step_own_ended {s s' : Service} {input : Input} {e : Execution}
    (h : Woken H O s e input s') {row : RunRow} (hrow : s.store.run? e.runId = some row)
    (ht : row.status.isTerminalRunStatus = true)
    (hstaged : e.Staged O row.status (e.runId ∈ s.active)) :
    s'.store = s.store ∨ ∃ L : Licence, ¬L.files e.runId ∧ Effects H L s s' := by
  have hplain : ∀ {m : ServiceM PUnit}, Performs H { controls := fun r ↦ r = e.runId
                                                     resolves := True } m →
      (m.run s).2.store = s.store ∨ ∃ L : Licence, ¬L.files e.runId ∧ Effects H L s (m.run s).2 :=
    fun hm ↦ Or.inr ⟨_, id, hm s⟩
  cases h with
  | idle => exact Or.inl rfl
  | queueTimeout => exact hplain (timeoutQueuedRun_performs _ (Or.inl rfl))
  | totalTimeout => exact hplain fun s ↦ abort_effects (Or.inr rfl) trivial
  | leaseRenewal hrenewal =>
    have hactive := hstaged.active_of_not_silent (Execution.not_silent_of_renewal hrenewal)
    exact absurd hactive (hstaged.not_active_of_terminal ht)
  | wake =>
    have hpoint := hstaged.point_of_ended ht
    unfold wake
    split
    case h_1 =>
      rw [run_get_bind, run_ite]
      split_ifs
      · exact Or.inl (startExecution_ended hrow ht)
      · exact Or.inl rfl
    case h_2 =>
      exact Or.inr ⟨{ controls := fun r ↦ r = e.runId, drains := True }, id,
        Performs.ite (.pure _) (drain_performs rfl trivial) s⟩
    case h_11 => exact hplain (released_performs _ rfl)
    case h_12 => exact Or.inl rfl
    all_goals simp_all

/-- **A step leaves a run that has ended sealed.** -/
theorem step_sealed {s : Service} (h : Reachable H O s) {r : JsString} {row : RunRow}
    (hrow : s.store.run? r = some row) (ht : row.status.isTerminalRunStatus = true)
    (input : Input) : Store.Sealed r s.store (step H O s input).store := by
  have hconsistent := h.consistent
  have hsealed : ∀ {L : Licence}, ¬L.files r → Effects H L s (step H O s input) →
      Store.Sealed r s.store (step H O s input).store :=
    fun hr heffects ↦ heffects.evolves.sealed hr h.logged h.filed (hconsistent.calm r) hrow ht
  by_cases hrestart : input = .restart
  · subst hrestart
    rw [step_restart]
    exact (reconcileInterruptedRuns_effects (s := restarted s) h.logged).evolves.sealed id h.logged
      h.filed (hconsistent.calm r) hrow ht
  cases hexec : input.execution? with
  | none =>
    refine hsealed ?_ (handle_call (H := H) (O := O) hexec hrestart s)
    cases input <;> exact id
  | some k =>
    cases he : s.execution? k with
    | none =>
      rw [step_idle hexec he]
      exact .refl r _
    | some e =>
      obtain rfl := execution?_runId he
      obtain ⟨row', hrow', hstaged⟩ := hconsistent.staged _ e he
      by_cases hk : e.runId = r
      · subst hk
        obtain rfl := Option.some.inj (hrow.symm.trans hrow')
        rcases step_own_ended (step_woken (H := H) hexec he) hrow ht hstaged with
          hsame | ⟨L, hr, heffects⟩
        · rw [hsame]
          exact .refl _ _
        · exact hsealed hr heffects
      · refine hsealed ?_ (handle_execution (H := H) (O := O) hexec he)
        rintro (hid | hid)
        · exact hk hid.symm
        · exact hk (hid.trans hstaged.run).symm

/-- What a history leaves of a run that has ended. -/
theorem after_sealed {s : Service} (h : Reachable H O s) {r : JsString} {row : RunRow}
    (hrow : s.store.run? r = some row) (ht : row.status.isTerminalRunStatus = true)
    (later : List Input) : Store.Sealed r s.store (after H O s later).store := by
  induction later using List.reverseRecOn with
  | nil => exact .refl r _
  | append_singleton later input ih =>
    obtain ⟨row₁, hrow₁, -, hstatus, -⟩ := ih.row row hrow
    have hreachable : Reachable H O (after H O s later) := h.after later
    rw [after_append]
    obtain ⟨L, hevolves⟩ := step_evolves O hreachable.logged input
    exact ih.trans (step_sealed hreachable hrow₁ (hstatus ▸ ht) input) hevolves

/-- **A run that has ended is immutable.** From the moment a run has ended, whatever the service
does, the run's status, error and usage, its approvals, attempts and messages stay as they are, and
its log takes nothing but the summaries of direct children that have ended with the status they
name. Usage recorded beside the log is refused as well, and every call of the store that is
rejected leaves the whole store as it was. -/
theorem endedRun_immutable (history later : List Input) {r : JsString} {row : RunRow}
    (hrow : (after H O {} history).store.run? r = some row)
    (ht : row.status.isTerminalRunStatus = true) :
    Store.Sealed r (after H O {} history).store (after H O {} (history ++ later)).store ∧
      (∀ updatedAt runId delta, Store.Sealed r (after H O {} (history ++ later)).store
        ((StoreOp.recordUsage updatedAt runId delta).apply H.toPlatform
          (after H O {} (history ++ later)).store)) ∧
      ∀ (op : StoreOp) (error : JsError) (S : Store),
        (op.call H.toPlatform).run (after H O {} (history ++ later)).store = (.error error, S) →
          S = (after H O {} (history ++ later)).store := by
  have hsealed := after_sealed (H := H) (O := O) ⟨history, rfl⟩ hrow ht later
  rw [← after_concat] at hsealed
  obtain ⟨row', hrow', -, hstatus, -⟩ := hsealed.row row hrow
  exact ⟨hsealed, Store.Sealed.recordUsage hrow' (hstatus ▸ ht),
    fun op ↦ op.call_atomic H.toPlatform _⟩

/-- A run that is cancelled, steered in vain, and found by a restart. -/
theorem endedRun_immutable_cancelled :
    ∃ row, (after referenceHost referenceOptions {} [.createRun rootRequest,
        .cancelRun (js "run_0")]).store.run? (js "run_0") = some row ∧
      row.status.isTerminalRunStatus = true ∧
      Store.Sealed (js "run_0")
        (after referenceHost referenceOptions {} [.createRun rootRequest,
          .cancelRun (js "run_0")]).store
        (after referenceHost referenceOptions {} ([.createRun rootRequest,
          .cancelRun (js "run_0")] ++ [.steerRun (js "run_0") (js "go on"), .restart])).store := by
  have hended : ((after referenceHost referenceOptions {} [.createRun rootRequest,
      .cancelRun (js "run_0")]).store.run? (js "run_0")).any
        (fun row ↦ row.status.isTerminalRunStatus) = true := by
    decide +kernel
  obtain ⟨row, hrow, ht⟩ := (Option.any_eq_true _ _).mp hended
  exact ⟨row, hrow, ht, (endedRun_immutable _ _ hrow ht).1⟩

end Service

end LiteHarness
