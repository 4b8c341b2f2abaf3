import LiteHarness.ControlPlane.Consistency

/-!
# What a restart leaves

A new process finds the runs the old one was at, and ends each of them as orphaned: one event is
appended to its log, nothing else happens to the logs (`restart_orphans`), and none of its attempts
is left running (`restart_endsAttempts`). This is not one transaction. A process that dies while it
does so leaves the rest to the next, which makes of every run what the first would have made of it
(`restart_resumes`), and once a restart is through, every run has ended and restarting again does
nothing (`restart_idempotent`).
-/

namespace LiteHarness

open Foundation Foundation.Eff

namespace Service

variable {H : Host} {O : Options} {s : Service} {r : JsString}

/-- The event with which a restart ends a run. -/
def restartEvent (run : RunRecord) : AppendRunEvent where
  runId := run.id
  type := .runOrphaned
  status := some .orphaned
  errorCode := some (js "manager_restarted")
  errorMessage := some restartMessage
  payload := .lifecycle .orphaned { retryable := true, previousStatus := run.status }

/-- What a restart has made of a run: a run that has ended is as it was, and one that has not is
orphaned, by one more event in its log. -/
def Orphaned (S S' : Store) (r : JsString) (row : RunRow) : Prop :=
  if row.status.isTerminalRunStatus then S'.run? r = some row ∧ S'.eventsOf r = S.eventsOf r
  else ∃ t, S'.run? r = some (Store.appended t (restartEvent (toRunRecord row)) row) ∧
    S'.eventsOf r = S.eventsOf r ++ [Store.eventOf t (restartEvent (toRunRecord row)) row]

/-- An attempt that is running after the attempts of a run have ended was running before, and is one
of another run. -/
theorem running_endAttempts {S : Store} {t : ℤ} {status : RunStatus} (hstatus : status ≠ .running)
    {a : AttemptRow} (ha : a ∈ (Store.endAttempts t r status S).attempts)
    (hrunning : a.status = .running) : a ∈ S.attempts ∧ a.runId ≠ r := by
  rcases Store.mem_endAttempts ha with ⟨hmem, hidle⟩ | ⟨hended, -⟩
  · exact ⟨hmem, fun hid ↦ hidle hid hrunning⟩
  · exact absurd (hended.symm.trans hrunning) hstatus

/-- Ending one run. -/
theorem reconcileRun_run (hlogged : s.store.Logged) {row : RunRow}
    (hrow : s.store.run? r = some row) (hactive : row.status.isTerminalRunStatus = false) :
    ∃ t s', (reconcileRun H (toRunRecord row)).run s = (.ok ⟨⟩, s') ∧ s'.store.Logged ∧
      (restarted s = s → restarted s' = s') ∧
      (∀ a ∈ s'.store.attempts, a.status = .running → a ∈ s.store.attempts ∧ a.runId ≠ r) ∧ ∀ k,
        s'.store.run? k = (s.store.run? k).map (fun other ↦
          if other.id = r then Store.appended t (restartEvent (toRunRecord row)) other else other) ∧
        s'.store.eventsOf k = if r = k then
          s.store.eventsOf k ++ [Store.eventOf t (restartEvent (toRunRecord row)) row]
          else s.store.eventsOf k := by
  have hid : row.id = r := (Store.run?_mem hrow).2
  let s₁ : Service :=
    { s with
      readings := s.readings + 1
      store := Store.endAttempts (H.clock s.readings) row.id .orphaned s.store }
  have hlogged₁ : s₁.store.Logged := hlogged.congr rfl rfl
  have hrow₁ : s₁.store.run? (restartEvent (toRunRecord row)).runId = some row := by
    change s.store.run? row.id = some row
    rwa [hid]
  have happend := hlogged₁.appendable hrow₁ hactive (fun h ↦ RunEventType.noConfusion h)
  have hrun : (reconcileRun H (toRunRecord row)).run s = (.ok ⟨⟩,
      { s₁ with
        readings := s₁.readings + 1
        store := s₁.store.recorded (H.clock s₁.readings)
          (restartEvent (toRunRecord row)) row }) := by
    obtain ⟨n, hattempts⟩ := completeRunningAttempts_run (H.clock s.readings)
      (toRunRecord row).id ⟨.orphaned, rfl⟩ { s with readings := s.readings + 1 }
    rw [reconcileRun, run_bind, now_run, andThen_ok, run_bind_of_ok hattempts]
    exact run_bind_of_ok (appendEvent_run (H := H) happend)
  refine ⟨H.clock s₁.readings, _, hrun, ?_, fun hfresh ↦ ?_, fun a ha hrunning ↦ ?_,
    fun k ↦ ⟨?_, ?_⟩⟩
  · have hcoherent : (restartEvent (toRunRecord row)).Coherent := ⟨rfl, rfl⟩
    exact hlogged₁.recorded happend hcoherent
  · -- nothing but the clock and the database has moved
    exact congrArg (fun t : Service ↦ { t with
      readings := s₁.readings + 1
      store := s₁.store.recorded (H.clock s₁.readings)
        (restartEvent (toRunRecord row)) row }) hfresh
  · -- the attempts have ended before the event is appended, which would end them too
    obtain ⟨hattempt, -⟩ := running_endAttempts (by decide) ha hrunning
    exact hid ▸ running_endAttempts (by decide) hattempt hrunning
  · rw [Store.run?_recorded]
    change (s.store.run? k).map _ = _
    rw [show (restartEvent (toRunRecord row)).runId = r from hid]
  · rw [Store.eventsOf_recorded]
    rw [show (restartEvent (toRunRecord row)).runId = r from hid]
    rfl

/-- What ending these runs makes of a service: it stays as a new process has it, the runs are
orphaned, and the others are as they were. -/
structure Reconciled (rows : List RunRow) (s s' : Service) : Prop where
  logged : s'.store.Logged
  fresh : restarted s = s → restarted s' = s'
  idle : ∀ a ∈ s'.store.attempts, a.status = .running →
    a ∈ s.store.attempts ∧ ∀ row ∈ rows, a.runId ≠ row.id
  unknown : ∀ k, s.store.run? k = none → s'.store.run? k = none
  ended : ∀ row ∈ rows, ∃ t,
    s'.store.run? row.id = some (Store.appended t (restartEvent (toRunRecord row)) row) ∧
    s'.store.eventsOf row.id =
      s.store.eventsOf row.id ++ [Store.eventOf t (restartEvent (toRunRecord row)) row]
  kept : ∀ k row, s.store.run? k = some row → row ∉ rows →
    s'.store.run? k = some row ∧ s'.store.eventsOf k = s.store.eventsOf k

/-- Ending distinct runs one after the other. -/
theorem reconcileRuns_run {rows : List RunRow} (hlogged : s.store.Logged)
    (hnodup : (rows.map RunRow.id).Nodup)
    (hrows : ∀ row ∈ rows,
      s.store.run? row.id = some row ∧ row.status.isTerminalRunStatus = false) :
    Reconciled rows s ((forEach (reconcileRun H) (rows.map toRunRecord)).run s).2 := by
  induction rows generalizing s with
  | nil =>
    exact ⟨hlogged, id, fun _ ha _ ↦ ⟨ha, fun _ h ↦ absurd h List.not_mem_nil⟩, fun _ ↦ id,
      fun _ h ↦ absurd h List.not_mem_nil, fun _ _ hrow _ ↦ ⟨hrow, rfl⟩⟩
  | cons first rows ih =>
    rw [List.map_cons, List.nodup_cons] at hnodup
    obtain ⟨hfirst, hactive⟩ := hrows first List.mem_cons_self
    obtain ⟨t, s', hrun, hlogged', hfresh, hidle, hstore⟩ :=
      reconcileRun_run (H := H) hlogged hfirst hactive
    have hother : ∀ k, k ≠ first.id →
        s'.store.run? k = s.store.run? k ∧ s'.store.eventsOf k = s.store.eventsOf k := by
      intro k hk
      refine ⟨?_, (hstore k).2.trans (if_neg hk.symm)⟩
      rw [(hstore k).1]
      cases hrow : s.store.run? k with
      | none => rfl
      | some row =>
        rw [Option.map_some, if_neg fun hid ↦ hk ((Store.run?_mem hrow).2.symm.trans hid)]
    have hnext :
        Reconciled rows s' ((forEach (reconcileRun H) (rows.map toRunRecord)).run s').2 := by
      refine ih hlogged' hnodup.2 fun row hmem ↦ ?_
      obtain ⟨hrow, hactive'⟩ := hrows row (List.mem_cons_of_mem _ hmem)
      have hne : row.id ≠ first.id := fun hid ↦ hnodup.1 (hid ▸ List.mem_map_of_mem hmem)
      exact ⟨(hother _ hne).1.trans hrow, hactive'⟩
    -- the run itself, which is not among the rest
    have hgone : Store.appended t (restartEvent (toRunRecord first)) first ∉ rows := fun hmem ↦
      hnodup.1 (List.mem_map.mpr ⟨_, hmem, rfl⟩)
    have hown : s'.store.run? first.id =
        some (Store.appended t (restartEvent (toRunRecord first)) first) := by
      rw [(hstore first.id).1, hfirst, Option.map_some, if_pos rfl]
    obtain ⟨hrow', hevents'⟩ := hnext.kept first.id _ hown hgone
    rw [List.map_cons, forEach_cons, run_bind_of_ok hrun]
    refine ⟨hnext.logged, fun h ↦ hnext.fresh (hfresh h), fun a ha hrunning ↦ ?_, fun k hk ↦ ?_,
      fun row hmem ↦ ?_, fun k row hrow hmem ↦ ?_⟩
    · obtain ⟨ha', hothers⟩ := hnext.idle a ha hrunning
      obtain ⟨ha'', hne⟩ := hidle a ha' hrunning
      exact ⟨ha'', List.forall_mem_cons.mpr ⟨hne, hothers⟩⟩
    · have hne : k ≠ first.id := by
        rintro rfl
        exact absurd (hfirst.symm.trans hk) (Option.some_ne_none _)
      exact hnext.unknown k ((hother k hne).1.trans hk)
    · rcases List.mem_cons.mp hmem with rfl | hmem
      · exact ⟨t, hrow', hevents'.trans ((hstore row.id).2.trans (if_pos rfl))⟩
      · have hne : row.id ≠ first.id := fun hid ↦ hnodup.1 (hid ▸ List.mem_map_of_mem hmem)
        obtain ⟨t', hended, hevents⟩ := hnext.ended row hmem
        exact ⟨t', hended, by rw [hevents, (hother _ hne).2]⟩
    · rw [List.mem_cons, not_or] at hmem
      have hne : k ≠ first.id := by
        rintro rfl
        exact hmem.1 (Option.some.inj (hrow.symm.trans hfirst))
      obtain ⟨hkept, hevents⟩ := hnext.kept k row ((hother k hne).1.trans hrow) hmem.2
      exact ⟨hkept, hevents.trans (hother k hne).2⟩

/-- The runs a new process finds that have not ended. -/
def interrupted (S : Store) : List RunRow :=
  (S.runs.filter fun row ↦ !row.status.isTerminalRunStatus).insertionSort
    fun a b ↦ a.createdAt ≤ b.createdAt

theorem mem_interrupted {S : Store} {row : RunRow} :
    row ∈ interrupted S ↔ row ∈ S.runs ∧ row.status.isTerminalRunStatus = false := by
  rw [interrupted, List.mem_insertionSort, List.mem_filter, Bool.not_eq_true']

theorem notMem_interrupted {S : Store} {row : RunRow} (h : row.status.isTerminalRunStatus = true) :
    row ∉ interrupted S := fun hmem ↦
  Bool.false_ne_true ((mem_interrupted.mp hmem).2.symm.trans h)

/-- Ending some of the runs a new process finds. -/
theorem reconciled_of_sublist (hlogged : s.store.Logged) {rows : List RunRow}
    (hrows : rows.Sublist (interrupted s.store)) :
    Reconciled rows (restarted s)
      ((forEach (reconcileRun H) (rows.map toRunRecord)).run (restarted s)).2 := by
  have hperm := List.perm_insertionSort (fun a b : RunRow ↦ a.createdAt ≤ b.createdAt)
    (s.store.runs.filter fun row ↦ !row.status.isTerminalRunStatus)
  have hnodup : ((interrupted s.store).map RunRow.id).Nodup :=
    (hperm.map _).nodup_iff.mpr (hlogged.ids.sublist (List.filter_sublist.map RunRow.id))
  have hfresh : (restarted s).store.Logged := hlogged
  refine reconcileRuns_run hfresh (hnodup.sublist (hrows.map _)) fun row hmem ↦ ?_
  obtain ⟨hrow, hactive⟩ := mem_interrupted.mp (hrows.subset hmem)
  exact ⟨Store.run?_of_mem hlogged.ids hrow, hactive⟩

/-- Ending all of them. -/
theorem reconciled_restart (hlogged : s.store.Logged) :
    Reconciled (interrupted s.store) (restarted s) (step H O s .restart) := by
  have hstep : step H O s .restart = ((forEach (reconcileRun H)
      ((interrupted s.store).map toRunRecord)).run (restarted s)).2 := by
    rw [step_restart, reconcileInterruptedRuns, run_get_bind, run_bind]
    rcases hcall : (forEach (reconcileRun H) ((restarted s).store.listNonTerminalRuns)).run
      (restarted s) with ⟨e | u, s'⟩
    · exact (congrArg Prod.snd hcall).symm
    · exact (congrArg Prod.snd hcall).symm
  rw [hstep]
  exact reconciled_of_sublist hlogged (List.Sublist.refl _)

/-- **A restart ends every run that has not ended**, as orphaned and by a single event that says
what the run was doing, and leaves the runs that have ended alone. -/
theorem restart_orphans (h : Reachable H O s) {row : RunRow} (hrow : s.store.run? r = some row) :
    Orphaned s.store (step H O s .restart).store r row := by
  obtain ⟨hmem, rfl⟩ := Store.run?_mem hrow
  have hreconciled := reconciled_restart (H := H) (O := O) h.logged
  unfold Orphaned
  split_ifs with ht
  · exact hreconciled.kept _ row hrow (notMem_interrupted ht)
  · exact hreconciled.ended row (mem_interrupted.mpr ⟨hmem, Bool.eq_false_iff.mpr ht⟩)

theorem restart_orphans_rootRequest :
    ∃ row, (after referenceHost referenceOptions {} [.createRun rootRequest]).store.run?
        (js "run_0") = some row ∧ row.status.isTerminalRunStatus = false ∧
      Orphaned (after referenceHost referenceOptions {} [.createRun rootRequest]).store
        (step referenceHost referenceOptions
          (after referenceHost referenceOptions {} [.createRun rootRequest]) .restart).store
        (js "run_0") row := by
  have hfound : ((after referenceHost referenceOptions {} [.createRun rootRequest]).store.run?
      (js "run_0")).any (fun row ↦ !row.status.isTerminalRunStatus) = true := by
    decide +kernel
  obtain ⟨row, hrow, hactive⟩ := (Option.any_eq_true _ _).mp hfound
  exact ⟨row, hrow, by simpa using hactive, restart_orphans ⟨_, rfl⟩ hrow⟩

/-- **The runs that a restart ends have no attempt left running.** -/
theorem restart_endsAttempts (h : Reachable H O s) {row : RunRow}
    (hrow : s.store.run? r = some row) (hactive : row.status.isTerminalRunStatus = false) :
    ∀ a ∈ (step H O s .restart).store.attempts, a.runId = r → a.status ≠ .running := by
  obtain ⟨hmem, rfl⟩ := Store.run?_mem hrow
  intro a ha hid hrunning
  exact ((reconciled_restart h.logged).idle a ha hrunning).2 row
    (mem_interrupted.mpr ⟨hmem, hactive⟩) hid

/-- A history in which `run_0` has begun its first attempt. -/
def begunAttempt : List Input :=
  let r := js "run_0"
  [.createRun rootRequest, .immediate r, .predecessorsSettled r]

theorem restart_endsAttempts_begunAttempt :
    ∃ row, (after referenceHost referenceOptions {} begunAttempt).store.run? (js "run_0")
        = some row ∧
      ((after referenceHost referenceOptions {} begunAttempt).store.attempts.any
        fun a ↦ a.status = .running) = true ∧
      ∀ a ∈ (step referenceHost referenceOptions
        (after referenceHost referenceOptions {} begunAttempt) .restart).store.attempts,
        a.runId = js "run_0" → a.status ≠ .running := by
  have hfound : ((after referenceHost referenceOptions {} begunAttempt).store.run?
      (js "run_0")).any (fun row ↦ !row.status.isTerminalRunStatus) = true := by
    decide +kernel
  obtain ⟨row, hrow, hactive⟩ := (Option.any_eq_true _ _).mp hfound
  exact ⟨row, hrow, by decide +kernel, restart_endsAttempts ⟨_, rfl⟩ hrow (by simpa using hactive)⟩

/-! ## A process that dies while it restarts -/

/-- What is left when the process dies at the `n`-th of the runs it has found. It ends the attempts
of a run before it appends the event, so nothing is said about attempts. -/
def diedRestarting (H : Host) (n : ℕ) (attempts : List AttemptRow) (s : Service) : Service :=
  let died := ((forEach (reconcileRun H) (s.store.listNonTerminalRuns.take n)).run (restarted s)).2
  { died with store := { died.store with attempts } }

/-- **A restart takes up where another one has died**: each run that had not ended is orphaned by a
single event all the same, and the runs that had ended are left alone. -/
theorem restart_resumes (h : Reachable H O s) (n : ℕ) (attempts : List AttemptRow) {row : RunRow}
    (hrow : s.store.run? r = some row) :
    Orphaned s.store (step H O (diedRestarting H n attempts s) .restart).store r row := by
  obtain ⟨hmem, rfl⟩ := Store.run?_mem hrow
  have hfirst : Reconciled ((interrupted s.store).take n) (restarted s)
      ((forEach (reconcileRun H) (s.store.listNonTerminalRuns.take n)).run (restarted s)).2 := by
    have htaken := reconciled_of_sublist (H := H) h.logged
      (List.take_sublist n (interrupted s.store))
    rw [List.map_take] at htaken
    exact htaken
  have hlogged : (diedRestarting H n attempts s).store.Logged := hfirst.logged.congr rfl rfl
  have hsecond := reconciled_restart (H := H) (O := O) hlogged
  unfold Orphaned
  split_ifs with ht
  · obtain ⟨hkept, hevents⟩ := hfirst.kept _ row hrow fun hlisted ↦
      notMem_interrupted ht (List.mem_of_mem_take hlisted)
    obtain ⟨hkept', hevents'⟩ := hsecond.kept _ row hkept (notMem_interrupted ht)
    exact ⟨hkept', hevents'.trans hevents⟩
  · by_cases hlisted : row ∈ (interrupted s.store).take n
    · -- the first process has ended it, and the second one finds it ended
      obtain ⟨t, hended, hevents⟩ := hfirst.ended row hlisted
      obtain ⟨hkept, hevents'⟩ := hsecond.kept _ _ hended (notMem_interrupted rfl)
      exact ⟨t, hkept, hevents'.trans hevents⟩
    · -- the first process has not come to it, and the second one does
      obtain ⟨hkept, hevents⟩ := hfirst.kept _ row hrow hlisted
      obtain ⟨t, hended, hevents'⟩ := hsecond.ended row
        (mem_interrupted.mpr ⟨(Store.run?_mem hkept).1, Bool.eq_false_iff.mpr ht⟩)
      exact ⟨t, hended, hevents'.trans (congrArg (· ++ _) hevents)⟩

theorem restart_resumes_rootRequest :
    ∃ row, (after referenceHost referenceOptions {} [.createRun rootRequest]).store.run?
        (js "run_0") = some row ∧
      Orphaned (after referenceHost referenceOptions {} [.createRun rootRequest]).store
        (step referenceHost referenceOptions (diedRestarting referenceHost 1 []
          (after referenceHost referenceOptions {} [.createRun rootRequest])) .restart).store
        (js "run_0") row := by
  have hfound : ((after referenceHost referenceOptions {} [.createRun rootRequest]).store.run?
      (js "run_0")).isSome = true := by
    decide +kernel
  obtain ⟨row, hrow⟩ := Option.isSome_iff_exists.mp hfound
  exact ⟨row, hrow, restart_resumes ⟨_, rfl⟩ 1 [] hrow⟩

/-! ## A second restart -/

/-- After a restart every run has ended. -/
theorem Reachable.ended_restart (h : Reachable H O s) {row : RunRow}
    (hrow : row ∈ (Service.step H O s .restart).store.runs) :
    row.status.isTerminalRunStatus = true := by
  have hreconciled := reconciled_restart (H := H) (O := O) h.logged
  have hlookup := Store.run?_of_mem hreconciled.logged.ids hrow
  cases hold : s.store.run? row.id with
  | none => exact absurd (hlookup.symm.trans (hreconciled.unknown _ hold)) (Option.some_ne_none _)
  | some old =>
    by_cases hlisted : old ∈ interrupted s.store
    · obtain ⟨t, hended, -⟩ := hreconciled.ended old hlisted
      rw [(Store.run?_mem hold).2] at hended
      rw [Option.some.inj (hlookup.symm.trans hended)]
      rfl
    · obtain rfl := Option.some.inj (hlookup.symm.trans (hreconciled.kept _ old hold hlisted).1)
      by_contra hactive
      exact hlisted (mem_interrupted.mpr
        ⟨(Store.run?_mem hold).1, Bool.eq_false_iff.mpr hactive⟩)

/-- **Restarting is idempotent**: a process that finds what another one left after its restart
changes nothing, neither in the database nor in itself. -/
theorem restart_idempotent (h : Reachable H O s) :
    step H O (step H O s .restart) .restart = step H O s .restart := by
  have hfresh : restarted (step H O s .restart) = step H O s .restart :=
    (reconciled_restart h.logged).fresh rfl
  have hnone : (step H O s .restart).store.listNonTerminalRuns = [] := by
    rw [Store.listNonTerminalRuns, List.filter_eq_nil_iff.mpr fun row hrow ↦ ?_]
    · rfl
    · rw [h.ended_restart hrow]
      exact Bool.false_ne_true
  rw [step_restart (step H O s .restart), hfresh, reconcileInterruptedRuns, run_get_bind, hnone]
  rfl

theorem restart_idempotent_rootRequest :
    (after referenceHost referenceOptions {}
        [.createRun rootRequest]).store.listNonTerminalRuns.length = 1 ∧
    step referenceHost referenceOptions (step referenceHost referenceOptions
        (after referenceHost referenceOptions {} [.createRun rootRequest]) .restart) .restart =
      step referenceHost referenceOptions
        (after referenceHost referenceOptions {} [.createRun rootRequest]) .restart :=
  ⟨by decide +kernel, restart_idempotent ⟨_, rfl⟩⟩

end Service

end LiteHarness
