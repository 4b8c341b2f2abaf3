import LiteHarness.ControlPlane.Stretches
import Mathlib.Data.List.Induction

/-!
# Steps of the service and the states it reaches

What the effects of one stretch leave of a run the stretch does not control, the licence of each
input, and the two store invariants every reachable state has: each row is the fold of its log, and
the runs form a tree.
-/

namespace LiteHarness

open Foundation Foundation.Eff

/-- The point is the same, or the promise of an approval it waits for has been settled. -/
def Point.Answered (point point' : Point) : Prop :=
  point' = point ∨ ∃ call rest id a value,
    point = .agent (.awaitingApproval call rest id none) a ∧
      point' = .agent (.awaitingApproval call rest id (some value)) a

theorem Point.Answered.trans {p q r : Point} (h : p.Answered q) (h' : q.Answered r) :
    p.Answered r := by
  rcases h with rfl | ⟨call, rest, id, a, value, rfl, rfl⟩
  · exact h'
  · rcases h' with rfl | ⟨_, _, _, _, _, heq, -⟩
    · exact Or.inr ⟨call, rest, id, a, value, rfl, rfl⟩
    · exact absurd heq (by simp)

/-- What other stretches do to an execution: its controller may be aborted while it is active, and
an approval it waits for may be settled. -/
structure Execution.Nudged (active : Prop) (e e' : Execution) : Prop where
  eq : e' = { e with abortReason := e'.abortReason, point := e'.point }
  point : e.point.Answered e'.point
  reason : ¬active → e'.abortReason = e.abortReason

namespace Execution.Nudged

variable {p : Prop} {e e' e'' : Execution}

theorem refl : Nudged p e e := ⟨rfl, Or.inl rfl, fun _ ↦ rfl⟩

theorem trans (h : Nudged p e e') (h' : Nudged p e' e'') : Nudged p e e'' := by
  refine ⟨?_, h.point.trans h'.point, fun ha ↦ (h'.reason ha).trans (h.reason ha)⟩
  have hfirst := h.eq
  have hsecond := h'.eq
  rw [hfirst] at hsecond
  exact hsecond

theorem runId (h : Nudged p e e') : e'.runId = e.runId := by rw [h.eq]

theorem settle (approvalId : JsString) (value : Bool) :
    Nudged p e (e.settle approvalId value) := by
  unfold Execution.settle
  split
  · rename_i call rest id a hpoint
    split_ifs
    · exact ⟨rfl, Or.inr ⟨call, rest, id, a, value, hpoint, rfl⟩, fun _ ↦ rfl⟩
    · exact refl
  · exact refl

end Execution.Nudged

theorem Execution.settle_runId (approvalId : JsString) (value : Bool) (e : Execution) :
    (e.settle approvalId value).runId = e.runId :=
  (Execution.Nudged.settle (p := True) approvalId value).runId

/-- The run whose execution an input wakes. -/
def Input.execution? : Input → Option JsString
  | .queueTimeout r | .predecessorsSettled r | .drain r | .totalTimeout r | .leaseRenewal r
  | .leaseDelay r _ | .resume r | .workspacePrepared r _ | .agentPrepared r _ | .modelEvent r _
  | .modelDone r | .modelFailed r _ | .toolReturned r _ | .checkpointed r _ | .released r _ => some r
  | _ => none

namespace Service

/-! ## Frame -/

/-- The run is seen by `s'` as it was by `s`, up to what other stretches do to an execution. -/
structure Undisturbed (r : JsString) (s s' : Service) : Prop where
  active : r ∈ s'.active ↔ r ∈ s.active
  execution : ∀ e, s.execution? r = some e →
    ∃ e', s'.execution? r = some e' ∧ e.Nudged (r ∈ s.active) e'
  idle : s.execution? r = none → s'.execution? r = none

namespace Undisturbed

variable {r : JsString} {s s' s'' : Service}

/-- Only executions and activity matter. -/
theorem congr (hactive : s'.active = s.active) (hexecutions : s'.executions = s.executions) :
    Undisturbed r s s' := by
  have hlookup : s'.execution? r = s.execution? r := by rw [execution?, hexecutions, execution?]
  refine ⟨by rw [hactive], fun e h ↦ ⟨e, hlookup.trans h, .refl⟩, hlookup.trans⟩

theorem refl : Undisturbed r s s := .congr rfl rfl

theorem trans (h : Undisturbed r s s') (h' : Undisturbed r s' s'') : Undisturbed r s s'' := by
  refine ⟨h'.active.trans h.active, fun e he ↦ ?_, fun hn ↦ h'.idle (h.idle hn)⟩
  obtain ⟨e', he', hnudged⟩ := h.execution e he
  obtain ⟨e'', he'', hnudged'⟩ := h'.execution e' he'
  rw [h.active] at hnudged'
  exact ⟨e'', he'', hnudged.trans hnudged'⟩

end Undisturbed

/-- A query on executions after an assignment. -/
theorem execution?_update {s : Service} {i : JsString} {f : Execution → Execution}
    (hf : ∀ e, (f e).runId = e.runId) (r : JsString) :
    Table.lookup Execution.runId r (Table.update (fun e ↦ e.runId = i) f s.executions)
      = (s.execution? r).map fun e ↦ if e.runId = i then f e else e := by
  refine (Table.lookup_update (f := f) hf r s.executions).trans ?_
  simp only [decide_eq_true_eq]
  rfl

theorem execution?_runId {s : Service} {r : JsString} {e : Execution}
    (h : s.execution? r = some e) : e.runId = r := Table.key_of_lookup h

/-- An assignment leaves a run undisturbed when it only nudges that run's execution. -/
theorem Undisturbed.update {r runId : JsString} {s : Service} {f : Execution → Execution}
    (hid : ∀ e, (f e).runId = e.runId)
    (hf : ∀ e, s.execution? r = some e → r = runId → e.Nudged (r ∈ s.active) (f e)) :
    Undisturbed r s
      { s with executions := Table.update (fun e ↦ e.runId = runId) f s.executions } := by
  refine ⟨Iff.rfl, fun e he ↦ ?_, fun hn ↦ ?_⟩
  · refine ⟨_, (execution?_update hid r).trans (by rw [he, Option.map_some]), ?_⟩
    rw [execution?_runId he]
    split_ifs with hr
    · exact hf e he hr
    · exact .refl
  · exact (execution?_update hid r).trans (by rw [hn, Option.map_none])

/-- **Frame.** A stretch leaves the runs it does not control undisturbed. -/
theorem Effect.undisturbed {H : Host} {L : Licence} {s s' : Service} (h : Effect H L s s')
    {r : JsString} (hr : ¬L.controls r) : Undisturbed r s s' := by
  cases h with
  | memory => exact .congr rfl rfl
  | store => exact .congr rfl rfl
  | @abort runId reason hrun =>
    refine .update (fun _ ↦ rfl) fun e he hid ↦ ⟨rfl, Or.inl rfl, fun hinactive ↦ ?_⟩
    subst hid
    exact (hrun.elim hinactive hr).elim
  | settle runId approvalId value =>
    exact .update (Execution.settle_runId _ _) fun _ _ _ ↦ .settle _ _
  | @execution runId f hcontrols hf =>
    exact .update (fun e ↦ (hf e).1) fun _ _ hid ↦ absurd (hid ▸ hcontrols) hr
  | @activity runId active hcontrols hother =>
    refine ⟨hother r ?_, fun e h ↦ ⟨e, h, .refl⟩, id⟩
    rintro rfl
    exact hr hcontrols
  | schedule => exact .congr rfl rfl
  | @enqueue run hcontrols =>
    have hne : run.id ≠ r := fun hid ↦ hr (hid ▸ hcontrols)
    have hlookup : ∀ e : Execution, e.runId = run.id →
        Table.lookup Execution.runId r (s.executions ++ [e]) = s.execution? r := by
      intro e he
      rw [Table.lookup_append, Table.lookup_singleton, he, if_neg hne, Option.or_none]
      rfl
    exact ⟨Iff.rfl, fun e h ↦ ⟨e, (hlookup _ rfl).trans h, .refl⟩, (hlookup _ rfl).trans⟩
  | drain => exact .congr rfl rfl
  | executed => exact .congr rfl rfl

theorem Execution.settle_place (approvalId : JsString) (value : Bool) (e : Execution) :
    (e.settle approvalId value).runId = e.runId ∧ (e.settle approvalId value).keys = e.keys ∧
      (e.settle approvalId value).predecessors = e.predecessors := by
  unfold Execution.settle
  split
  · split_ifs <;> exact ⟨rfl, rfl, rfl⟩
  · exact ⟨rfl, rfl, rfl⟩

/-- Only an entry into the queue adds an execution, and executions keep their place in the queue. -/
theorem Effects.places_eq {H : Host} {L : Licence} {s s' : Service} (h : Effects H L s s')
    (hL : ¬L.enqueues) {γ : Type} {g : Execution → γ}
    (hg : ∀ e e' : Execution, e'.runId = e.runId ∧ e'.keys = e.keys ∧
      e'.predecessors = e.predecessors → g e' = g e) :
    s'.executions.map g = s.executions.map g := by
  induction h with
  | refl => rfl
  | tail _ heffect ih =>
    rw [← ih]
    cases heffect with
    | @abort runId reason _ =>
      exact Table.map_update (f := fun e : Execution ↦ { e with abortReason := some reason })
        (fun e ↦ hg e _ ⟨rfl, rfl, rfl⟩) _
    | settle runId approvalId value =>
      exact Table.map_update (f := Execution.settle approvalId value)
        (fun e ↦ hg e _ (Execution.settle_place approvalId value e)) _
    | execution _ hf => exact Table.map_update (fun e ↦ hg e _ (hf e)) _
    | enqueue _ hqueue => exact absurd hqueue hL
    | _ => rfl

theorem Effects.runIds_eq {H : Host} {L : Licence} {s s' : Service} (h : Effects H L s s')
    (hL : ¬L.enqueues) :
    s'.executions.map Execution.runId = s.executions.map Execution.runId :=
  h.places_eq hL fun _ _ hplace ↦ hplace.1

theorem Effects.undisturbed {H : Host} {L : Licence} {s s' : Service} (h : Effects H L s s')
    {r : JsString} (hr : ¬L.controls r) : Undisturbed r s s' := by
  induction h with
  | refl => exact .refl
  | tail _ heffect ih => exact ih.trans (heffect.undisturbed hr)

/-- What a stretch does to the store is a sequence of issued calls. -/
theorem Effects.evolves {H : Host} {L : Licence} {s s' : Service} (h : Effects H L s s') :
    Store.Evolves H.toPlatform L s.store s'.store := by
  induction h with
  | refl => exact .refl
  | tail _ heffect ih =>
    cases heffect with
    | store hissued => exact ih.tail ⟨_, hissued, rfl⟩
    | _ => exact ih

/-- A run a stretch does not control keeps its status or is ended. -/
theorem Effects.status_eq_or {H : Host} {L : Licence} {s s' : Service} (h : Effects H L s s')
    {r : JsString} (hr : ¬L.controls r) {row : RunRow} (hrow : s.store.run? r = some row) :
    ∃ row', s'.store.run? r = some row' ∧ row'.identity = row.identity ∧
      (row'.status = row.status ∨ L.ends r ∧ row'.status.isTerminalRunStatus = true) := by
  obtain ⟨row', hrow', hkept⟩ := h.evolves.keeps hrow
  have hid := (Store.run?_mem hrow).2
  exact ⟨row', hrow', hkept.identity, hid ▸ hkept.status (hid ▸ hr)⟩

/-- A run a stretch neither controls nor ends keeps its status. -/
theorem Effects.status_eq {H : Host} {L : Licence} {s s' : Service} (h : Effects H L s s')
    {r : JsString} (hr : ¬L.controls r) (hends : ¬L.ends r) {row : RunRow}
    (hrow : s.store.run? r = some row) :
    ∃ row', s'.store.run? r = some row' ∧ row'.identity = row.identity ∧
      row'.status = row.status := by
  obtain ⟨row', hrow', hid, hstatus⟩ := h.status_eq_or hr hrow
  exact ⟨row', hrow', hid, hstatus.resolve_right fun h ↦ hends h.1⟩

/-! ## Restart -/

variable {H : Host} {O : Options}

/-- The licence of a restart: it ends the runs it finds. -/
def reconciling (runs : List JsString) : Licence where
  ends r := r ∈ runs

theorem completeRunningAttempts_run (t : ℤ) (runId : JsString) (status : RunStatus.Terminal)
    (s : Service) : ∃ n, (onStore (Store.completeRunningAttempts t runId status)).run s
      = (.ok n, { s with store := Store.endAttempts t runId status s.store }) := ⟨_, rfl⟩

/-- Ending a run that still has the status the restart found. -/
theorem reconcileRun_effects {L : Licence} {run : RunRecord} {s : Service}
    (h : L.Sets run.id .orphaned)
    (hstatus : ∀ row, s.store.run? run.id = some row → row.status = run.status) :
    Effects H L s ((reconcileRun H run).run s).2 := by
  obtain ⟨n, hattempts⟩ := completeRunningAttempts_run (H.clock s.readings) run.id
    ⟨.orphaned, rfl⟩ { s with readings := s.readings + 1 }
  have hend : Effects H L { s with readings := s.readings + 1 } _ :=
    onStore_effects (m := Store.completeRunningAttempts (H.clock s.readings) run.id
      ⟨.orphaned, rfl⟩) (c := .completeRunningAttempts (H.clock s.readings) run.id
      ⟨.orphaned, rfl⟩) rfl h
  rw [hattempts] at hend
  rw [reconcileRun, run_bind, now_run, andThen_ok, run_bind_of_ok hattempts]
  refine .head (now_effect s) (hend.trans (Evolves.bind_at (fun _ _ _ ↦ .trans)
    (appendEvent_effects ?_) fun _ ↦ Performs.pure _))
  refine issued_of_status h rfl rfl rfl rfl fun row hrow ↦ Or.inr ⟨rfl, rfl, ?_⟩
  rw [hstatus row hrow]

/-- Ending distinct runs one after the other: each still has the status the restart found. -/
theorem reconcileRuns_effects {ids : List JsString} {runs : List RunRecord}
    (hids : ∀ run ∈ runs, run.id ∈ ids) (hnodup : (runs.map RunRecord.id).Nodup) {s : Service}
    (hstatus : ∀ run ∈ runs, ∃ row, s.store.run? run.id = some row ∧ row.status = run.status) :
    Effects H (reconciling ids) s ((forEach (reconcileRun H) runs).run s).2 := by
  induction runs generalizing s with
  | nil => exact .refl
  | cons run runs ih =>
    rw [List.map_cons, List.nodup_cons] at hnodup
    have hfound : ∀ row, s.store.run? run.id = some row → row.status = run.status := by
      obtain ⟨row, hrow, hsame⟩ := hstatus run List.mem_cons_self
      intro row' hrow'
      obtain rfl := Option.some.inj (hrow.symm.trans hrow')
      exact hsame
    have hfirst := reconcileRun_effects (L := reconciling ids) (H := H)
      (Or.inr ⟨hids run List.mem_cons_self, rfl⟩) hfound
    have hframe := reconcileRun_effects (L := reconciling [run.id]) (H := H)
      (Or.inr ⟨List.mem_singleton_self _, rfl⟩) hfound
    rw [forEach_cons, run_bind]
    rcases hrun : (reconcileRun H run).run s with ⟨e | u, s'⟩
    · rw [hrun] at hfirst
      exact hfirst
    · rw [hrun] at hfirst hframe
      refine hfirst.trans (ih (fun other hother ↦ hids other (List.mem_cons_of_mem _ hother))
        hnodup.2 fun other hother ↦ ?_)
      obtain ⟨row, hrow, hsame⟩ := hstatus other (List.mem_cons_of_mem _ hother)
      have hne : other.id ≠ run.id := fun hid ↦
        hnodup.1 (hid ▸ List.mem_map_of_mem hother)
      obtain ⟨row', hrow', -, hstatus'⟩ :=
        hframe.status_eq id (fun h ↦ hne (List.mem_singleton.mp h)) hrow
      exact ⟨row', hrow', hstatus'.trans hsame⟩

/-- The runs a restart finds are distinct rows of the table. -/
theorem listNonTerminalRuns_spec {S : Store} (h : S.Logged) :
    (S.listNonTerminalRuns.map RunRecord.id).Nodup ∧
      ∀ run ∈ S.listNonTerminalRuns, ∃ row, S.run? run.id = some row ∧ row.status = run.status := by
  rw [Store.listNonTerminalRuns]
  constructor
  · rw [List.map_map]
    have hperm := List.perm_insertionSort (fun a b : RunRow ↦ a.createdAt ≤ b.createdAt)
      (S.runs.filter fun row ↦ !row.status.isTerminalRunStatus)
    refine (hperm.map _).nodup_iff.mpr ?_
    exact h.ids.sublist (List.filter_sublist.map RunRow.id)
  · intro run hrun
    obtain ⟨row, hrow, rfl⟩ := List.mem_map.mp hrun
    have hmem := (List.mem_filter.mp ((List.mem_insertionSort _).mp hrow)).1
    exact ⟨row, Store.run?_of_mem h.ids hmem, rfl⟩

theorem reconcileInterruptedRuns_effects {s : Service} (h : s.store.Logged) :
    Effects H (reconciling (s.store.listNonTerminalRuns.map RunRecord.id)) s
      ((reconcileInterruptedRuns H).run s).2 := by
  obtain ⟨hnodup, hstatus⟩ := listNonTerminalRuns_spec h
  rw [reconcileInterruptedRuns, run_get_bind]
  exact Evolves.bind_at (fun _ _ _ ↦ .trans) 
    (reconcileRuns_effects (fun _ ↦ List.mem_map_of_mem) hnodup hstatus)
    fun _ ↦ Performs.pure _

/-- The process right after it was replaced. -/
def restarted (s : Service) : Service :=
  { store := s.store, readings := s.readings, draws := s.draws
    executed := s.executed, routeGeneration := s.routeGeneration }

/-! ## The licence of an input -/

/-- What a call of the service may do. -/
def callLicence (O : Options) (s : Service) : Input → Licence
  | .createRun request => { creates := fun start ↦ start = request }
  | .createChildRun _ => { creates := fun start ↦ ∃ d ∈ start.depth, d ≤ O.maxSubagentDepth }
  | .cancelRun _ | .shutdown => cancelling s.active
  | .resolveApproval .. => { resolves := True, approves := True }
  | .approvalTimeout _ => { resolves := True }
  | .immediate runId => { controls := fun r ↦ r = runId, enqueues := True }
  | _ => {}

/-- What an execution that is woken may do. -/
def executionLicence (e : Execution) : Licence where
  files r := r = e.runId ∨ r = e.run.id
  controls r := r = e.runId
  resolves := True
  drains := e.point = .settled
  executes := True

/-- A call of the service makes the effects of its licence. -/
theorem handle_call {input : Input} (h : input.execution? = none) (hrestart : input ≠ .restart)
    (s : Service) : Effects H (callLicence O s input) s ((handle H O input).run s).2 := by
  revert s
  cases input with
  | createRun request => exact (createRun_performs rfl).bind fun _ ↦ .pure _
  | createChildRun request => exact (createChildRun_performs fun _ h ↦ h).bind fun _ ↦ .pure _
  | steerRun runId instruction => exact (steerRun_performs _ _).bind fun _ ↦ .pure _
  | cancelRun runId =>
    exact Cancels.bind (cancelRun_cancels runId) fun _ ↦ Cancels.refl
  | resolveApproval id approved =>
    exact (resolveApproval_performs _ _ trivial trivial).bind fun _ ↦ .pure _
  | shutdown => exact shutdown_cancels
  | createAgentProfile record =>
    exact (createId_performs _).bind fun id ↦ (onStore_performs
      (c := .createAgentProfile id record) rfl fun _ ↦ trivial).bind fun _ ↦ .pure _
  | deleteAgentProfile id owner =>
    exact (onStore_performs (c := .deleteAgentProfile id owner) rfl fun _ ↦ trivial).bind
      fun _ ↦ .pure _
  | createWorkspace record =>
    exact (createId_performs _).bind fun id ↦ onStore_call_performs
      (c := .createWorkspace id record) fun _ ↦ trivial
  | createProviderConnection record =>
    exact (createId_performs _).bind fun id ↦ onStore_call_performs
      (c := .createProviderConnection id record) fun _ ↦ trivial
  | updateProviderConnection id owner status code =>
    exact now_performs.bind fun t ↦ onStore_call_performs
      (c := .updateProviderConnection t id owner status code) fun _ ↦ trivial
  | deleteProviderConnection id owner =>
    exact onStore_call_performs (c := .deleteProviderConnection id owner) fun _ ↦ trivial
  | reconfigure routeGeneration =>
    exact Performs.modify fun s ↦
      .memory s.accepting s.steering s.approvalWaiters routeGeneration s.readings s.draws
  | immediate runId =>
    refine Performs.gets fun s ↦ ?_
    cases hfound : s.scheduled.find? fun run ↦ run.id = runId with
    | none => exact .pure _
    | some run =>
      have hid : run.id = runId := by simpa using List.find?_some hfound
      refine Performs.bind (.modify fun s ↦ .schedule fun run hrun ↦ ?_) fun _ ↦
        .ite (enqueue_performs hid trivial) (.pure _)
      exact Or.inl (List.mem_filter.mp hrun).1
  | approvalTimeout approvalId =>
    refine Performs.gets fun s ↦ ?_
    cases s.approvalWaiters.find? fun w ↦ w.approvalId = approvalId with
    | none => exact .pure _
    | some waiter => exact refuse_performs _ _ trivial (by decide)
  | restart => exact absurd rfl hrestart
  | _ => exact absurd h (by simp [Input.execution?])

/-- What an input does to the execution it concerns: a timer fires while it is armed, or the
promise the execution waits for has settled. -/
inductive Woken (H : Host) (O : Options) (s : Service) (e : Execution) (input : Input) :
    Service → Prop
  | idle : Woken H O s e input s
  | queueTimeout (h : e.queueTimeout = true) :
      Woken H O s e input ((timeoutQueuedRun H e.runId e.run.budget.totalTimeoutMs).run s).2
  | totalTimeout (h : e.timeout = true) :
      Woken H O s e input ((abort H e.runId
        (runTimeoutError H.toNumberLiterals e.run.budget.totalTimeoutMs)).run s).2
  | leaseRenewal (h : e.renewal = true) : Woken H O s e input ((renewLease H O e).run s).2
  | wake : Woken H O s e input ((wake H O e e.point input).run s).2

theorem step_woken {input : Input} {e : Execution} (h : input.execution? = some e.runId)
    {s : Service} (he : s.execution? e.runId = some e) : Woken H O s e input (step H O s input) := by
  have hon : ∀ f : Execution → ServiceM PUnit,
      (onExecution e.runId f).run s = (f e).run s := by
    intro f
    rw [onExecution, run_get_bind, he]
  cases input with
  | queueTimeout r =>
    obtain rfl := Option.some.inj h
    rw [step, handle, hon, run_ite]
    split_ifs with ht
    · exact .queueTimeout ht
    · exact .idle
  | totalTimeout r =>
    obtain rfl := Option.some.inj h
    rw [step, handle, hon, run_ite]
    split_ifs with ht
    · exact .totalTimeout ht
    · exact .idle
  | leaseRenewal r =>
    obtain rfl := Option.some.inj h
    rw [step, handle, hon, run_ite]
    split_ifs with ht
    · exact .leaseRenewal ht.1
    · exact .idle
  | predecessorsSettled | drain | leaseDelay | resume | workspacePrepared | agentPrepared
  | modelEvent | modelDone | modelFailed | toolReturned | checkpointed | released =>
    obtain rfl := Option.some.inj h
    rw [step, handle, hon]
    exact .wake
  | _ => exact absurd h (by simp [Input.execution?])

/-- An execution that is woken makes the effects of its licence. -/
theorem Woken.effects {s s' : Service} {e : Execution} {input : Input}
    (h : Woken H O s e input s') : Effects H (executionLicence e) s s' := by
  cases h with
  | idle => exact .refl
  | queueTimeout => exact timeoutQueuedRun_performs _ (Or.inl rfl) s
  | totalTimeout => exact abort_effects (Or.inr rfl) trivial
  | leaseRenewal => exact renewLease_performs rfl trivial s
  | wake =>
    exact wake_performs e.point input rfl (Or.inl rfl) (Or.inr rfl) trivial (fun _ ↦ trivial) id s

theorem handle_execution {input : Input} {r : JsString} (h : input.execution? = some r)
    {s : Service} {e : Execution} (he : s.execution? r = some e) :
    Effects H (executionLicence e) s (step H O s input) := by
  obtain rfl := execution?_runId he
  exact (step_woken h he).effects

theorem step_restart (s : Service) :
    step H O s .restart = ((reconcileInterruptedRuns H).run (restarted s)).2 := by
  rw [step, handle, run_modify_bind, run_bind]
  change (andThen ((reconcileInterruptedRuns H).run (restarted s)) _).2 = _
  rcases (reconcileInterruptedRuns H).run (restarted s) with ⟨e | n, s'⟩ <;> rfl

/-- An input for an execution that does not exist wakes nothing. -/
theorem step_idle {input : Input} {r : JsString} (h : input.execution? = some r) {s : Service}
    (he : s.execution? r = none) : step H O s input = s := by
  have hon : ∀ f, ((onExecution r f).run s).2 = s := by
    intro f
    rw [onExecution, run_get_bind, he]
    rfl
  cases input with
  | queueTimeout | totalTimeout | leaseRenewal | predecessorsSettled | drain | leaseDelay | resume
  | workspacePrepared | agentPrepared | modelEvent | modelDone | modelFailed | toolReturned
  | checkpointed | released =>
    obtain rfl := Option.some.inj h
    exact hon _
  | _ => exact absurd h (by simp [Input.execution?])

/-- **Every step issues calls of the store and nothing else happens to it.** -/
theorem step_evolves (O : Options) {s : Service} (h : s.store.Logged) (input : Input) :
    ∃ L, Store.Evolves H.toPlatform L s.store (step H O s input).store := by
  by_cases hrestart : input = .restart
  · subst hrestart
    rw [step_restart]
    exact ⟨_, (reconcileInterruptedRuns_effects (s := restarted s) h).evolves⟩
  · cases hexec : input.execution? with
    | none => exact ⟨_, (handle_call (H := H) (O := O) hexec hrestart s).evolves⟩
    | some r =>
      cases he : s.execution? r with
      | none =>
        rw [step_idle hexec he]
        exact ⟨{}, .refl⟩
      | some e => exact ⟨_, (handle_execution (H := H) (O := O) hexec he).evolves⟩

/-! ## Reachable states -/

theorem after_append (s : Service) (history : List Input) (input : Input) :
    after H O s (history ++ [input]) = step H O (after H O s history) input := by
  rw [after, List.foldl_append]
  rfl

/-- Induction along a history. -/
theorem Reachable.induction {p : Service → Prop} (hinit : p {})
    (hstep : ∀ s input, Reachable H O s → p s → p (step H O s input)) {s : Service}
    (h : Reachable H O s) : p s := by
  obtain ⟨history, rfl⟩ := h
  induction history using List.reverseRecOn with
  | nil => exact hinit
  | append_singleton history input ih =>
    rw [after_append]
    exact hstep _ _ ⟨history, rfl⟩ ih

theorem Reachable.step {s : Service} (h : Reachable H O s) (input : Input) :
    Reachable H O (Service.step H O s input) := by
  obtain ⟨history, rfl⟩ := h
  exact ⟨history ++ [input], after_append _ _ _⟩

theorem after_concat (s : Service) (history later : List Input) :
    after H O s (history ++ later) = after H O (after H O s history) later :=
  List.foldl_append ..

theorem Reachable.after {s : Service} (h : Reachable H O s) (later : List Input) :
    Reachable H O (Service.after H O s later) := by
  obtain ⟨history, rfl⟩ := h
  exact ⟨history ++ later, after_concat _ _ _⟩

theorem step_logged {s : Service} (h : s.store.Logged) (input : Input) :
    (step H O s input).store.Logged := by
  obtain ⟨L, hevolves⟩ := step_evolves O h input
  exact hevolves.logged h

/-- No step removes a run or changes what it is. -/
theorem step_keeps {s : Service} (h : s.store.Logged) (input : Input) {r : JsString} {row : RunRow}
    (hrow : s.store.run? r = some row) :
    ∃ row', (step H O s input).store.run? r = some row' ∧ row'.identity = row.identity := by
  obtain ⟨L, hevolves⟩ := step_evolves O h input
  obtain ⟨row', hrow', hkept⟩ := hevolves.keeps hrow
  exact ⟨row', hrow', hkept.identity⟩

theorem after_keeps {s : Service} (h : s.store.Logged) (history : List Input) {r : JsString}
    {row : RunRow} (hrow : s.store.run? r = some row) :
    ∃ row', (after H O s history).store.run? r = some row' ∧ row'.identity = row.identity := by
  induction history generalizing s row with
  | nil => exact ⟨row, hrow, rfl⟩
  | cons input history ih =>
    obtain ⟨row₁, hrow₁, hid₁⟩ := step_keeps (H := H) (O := O) h input hrow
    obtain ⟨row₂, hrow₂, hid₂⟩ := ih (step_logged h input) hrow₁
    exact ⟨row₂, hrow₂, hid₂.trans hid₁⟩

theorem Reachable.logged {s : Service} (h : Reachable H O s) : s.store.Logged :=
  h.induction (p := fun s ↦ s.store.Logged) .empty fun _ input _ hs ↦ step_logged hs input

theorem Reachable.rooted {s : Service} (h : Reachable H O s) : s.store.Rooted := by
  refine h.induction (p := fun s ↦ s.store.Rooted) .empty fun s input hs hrooted ↦ ?_
  obtain ⟨L, hevolves⟩ := step_evolves O hs.logged input
  exact hevolves.rooted hrooted

end Service

end LiteHarness
