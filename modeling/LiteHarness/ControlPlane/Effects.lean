import LiteHarness.ControlPlane.Machine
import LiteHarness.Storage.Issued

/-!
# What a stretch of the service can do

`Effect` lists the single changes the service makes to its state, each with the circumstances in
which it makes them. A `Licence` bounds the changes of one stretch: the runs it may create, file
for and control, and whether it resolves approvals or hands calls to the tools. Every program of
the service is shown once to make only such changes, and what is invariant under `Effect` is
invariant under the service.
-/

namespace LiteHarness

open Foundation Foundation.Eff

namespace Service

/-! ## Effects -/

/-- A single change of the service's state under a licence. -/
inductive Effect (H : Host) (L : Licence) (s : Service) : Service → Prop
  | memory (accepting steering approvalWaiters routeGeneration readings draws) :
      Effect H L s
        { s with accepting, steering, approvalWaiters, routeGeneration, readings, draws }
  | store {op : StoreOp} (h : op.Issued H.toPlatform L s.store) :
      Effect H L s { s with store := op.apply H.toPlatform s.store }
  /-- The controller of an execution is aborted. -/
  | abort {runId : JsString} {reason : JsError} (h : runId ∈ s.active ∨ L.controls runId) :
      Effect H L s
        { s with
          executions := Table.update (fun e ↦ e.runId = runId)
            (fun e ↦ { e with abortReason := some reason }) s.executions }
  /-- The promise of an approval is settled. -/
  | settle (runId approvalId : JsString) (value : Bool) :
      Effect H L s
        { s with
          executions := Table.update (fun e ↦ e.runId = runId)
            (Execution.settle approvalId value) s.executions }
  /-- Local variables of an execution are assigned; its place in the queue stays. -/
  | execution {runId : JsString} {f : Execution → Execution} (h : L.controls runId)
      (hf : ∀ e, (f e).runId = e.runId ∧ (f e).keys = e.keys ∧
        (f e).predecessors = e.predecessors) :
      Effect H L s
        { s with executions := Table.update (fun e ↦ e.runId = runId) f s.executions }
  | activity {runId : JsString} {active : List JsString} (h : L.controls runId)
      (hother : ∀ r, r ≠ runId → (r ∈ active ↔ r ∈ s.active)) : Effect H L s { s with active }
  | schedule {scheduled : List RunRecord}
      (h : ∀ run ∈ scheduled, run ∈ s.scheduled ∨
        ∃ row, s.store.run? run.id = some row ∧ run = toRunRecord row) :
      Effect H L s { s with scheduled }
  | enqueue {run : RunRecord} (h : L.controls run.id) (hqueue : L.enqueues) :
      Effect H L s
        { s with
          executions := s.executions ++
            [{ runId := run.id, run, keys := queueKeys run
               predecessors := (queueKeys run).filterMap fun key ↦
                (s.queueTails.find? fun tail ↦ tail.1 = key).map Prod.snd }]
          queueTails := (queueKeys run).foldl
            (fun tails key ↦ Table.upsert Prod.fst (key, run.id) (fun tail ↦ (tail.1, run.id)) tails)
            s.queueTails }
  /-- The settled promise of an execution leaves the queue. -/
  | drain {e : Execution} (h : L.controls e.runId) (hdrain : L.drains) :
      Effect H L s
        { s with
          queueTails := s.queueTails.filter fun tail ↦ ¬(tail.1 ∈ e.keys ∧ tail.2 = e.runId) }
  | executed (x : ToolExecution) (h : L.executes) :
      Effect H L s { s with executed := s.executed ++ [x] }

/-- Any number of effects. -/
abbrev Effects (H : Host) (L : Licence) : Service → Service → Prop :=
  Relation.ReflTransGen (Effect H L)

/-- Wherever the program stops, it has made effects of the licence only. -/
def Performs {α : Type} (H : Host) (L : Licence) (m : ServiceM α) : Prop :=
  Evolves (Effects H L) m

/-- What every effect preserves, every stretch preserves. -/
theorem Effects.preserves {H : Host} {L : Licence} {p : Service → Prop}
    (hp : ∀ s s', Effect H L s s' → p s → p s') {s s' : Service} (h : Effects H L s s')
    (hs : p s) : p s' := by
  induction h with
  | refl => exact hs
  | tail _ heffect ih => exact hp _ _ heffect ih

section Rules

variable {H : Host} {L : Licence} {α β : Type}

theorem Performs.refl (s : Service) : Effects H L s s := .refl

theorem Performs.pure (a : α) : Performs H L (pure a) := Evolves.pure Performs.refl a

theorem Performs.throw (e : JsError) : Performs H L (throw e : ServiceM α) :=
  Evolves.throw Performs.refl e

theorem Performs.fromExcept (x : Except JsError α) : Performs H L (fromExcept x) :=
  Evolves.fromExcept Performs.refl x

/-- The rest of the program may use what the computation yielded. -/
theorem Performs.fromExcept_bind {x : Except JsError α} {f : α → ServiceM β}
    (hf : ∀ a, x = .ok a → Performs H L (f a)) : Performs H L (Eff.fromExcept x >>= f) := by
  intro s
  rw [run_bind, run_fromExcept]
  cases x with
  | error e => exact .refl
  | ok a => exact hf a rfl s

theorem Performs.gets {f : Service → ServiceM α} (hf : ∀ t, Performs H L (f t)) :
    Performs H L (get >>= f) := Evolves.gets hf

theorem Performs.ite {c : Prop} [Decidable c] {m m' : ServiceM α} (hm : Performs H L m)
    (hm' : Performs H L m') : Performs H L (if c then m else m') := Evolves.ite hm hm'

theorem Performs.bind {m : ServiceM α} {f : α → ServiceM β} (hm : Performs H L m)
    (hf : ∀ a, Performs H L (f a)) : Performs H L (m >>= f) :=
  Evolves.bind (fun _ _ _ ↦ .trans) hm hf

theorem Performs.tryCatch {m : ServiceM α} {handler : JsError → ServiceM α}
    (hm : Performs H L m) (hh : ∀ e, Performs H L (handler e)) :
    Performs H L (tryCatch m handler) :=
  Evolves.tryCatch (fun _ _ _ ↦ .trans) hm hh

theorem Performs.forEach {f : β → ServiceM PUnit} {bs : List β}
    (hf : ∀ b, Performs H L (f b)) : Performs H L (forEach f bs) :=
  Evolves.forEach Performs.refl (fun _ _ _ ↦ .trans) fun b _ ↦ hf b

theorem Performs.modify {f : Service → Service} (hf : ∀ s, Effect H L s (f s)) :
    Performs H L (modify f) := fun s ↦ .single (hf s)

end Rules

/-! ## Primitives -/

section Primitives

variable {H : Host} {L : Licence}

theorem now_performs : Performs H L (now H) :=
  Performs.gets fun _ ↦ (Performs.modify fun s ↦
    .memory s.accepting s.steering s.approvalWaiters s.routeGeneration (s.readings + 1) s.draws).bind
      fun _ ↦ .pure _

theorem createId_performs (kind : String) : Performs H L (createId H kind) :=
  Performs.gets fun _ ↦ (Performs.modify fun s ↦
    .memory s.accepting s.steering s.approvalWaiters s.routeGeneration s.readings (s.draws + 1)).bind
      fun _ ↦ .pure _

/-- The rest of the program may use the form of the id. -/
theorem createId_bind_performs {α : Type} {kind : String} {f : JsString → ServiceM α}
    (hf : ∀ u, Performs H L (f (js kind ++ js "_" ++ u))) :
    Performs H L (createId H kind >>= f) := by
  intro s
  rw [run_bind]
  exact .head (.memory s.accepting s.steering s.approvalWaiters s.routeGeneration s.readings
    (s.draws + 1)) (hf (H.uuid s.draws) _)

theorem getRun_performs (runId : JsString) : Performs H L (getRun runId) :=
  Performs.gets fun _ ↦ .pure _

theorem getRun_bind_run {α : Type} (runId : JsString) (f : Option RunRecord → ServiceM α)
    (s : Service) : (getRun runId >>= f).run s = (f (s.store.getRun runId)).run s := rfl

/-- What a call of the store leaves. -/
theorem onStore_run {α : Type} {m : StoreM α} {op : StoreOp}
    (hop : op.call H.toPlatform = do let _ ← m) (s : Service) :
    ((onStore m).run s).2 = { s with store := op.apply H.toPlatform s.store } := by
  have happly : op.apply H.toPlatform s.store = (m.run s.store).2 := by
    rw [StoreOp.apply, hop, run_bind]
    rcases m.run s.store with ⟨e | a, S⟩ <;> rfl
  rw [onStore, run_zoom, happly]

theorem onStore_eq_ok_iff {α : Type} {m : StoreM α} {s s' : Service} {a : α} :
    (onStore m).run s = (.ok a, s') ↔
      ∃ S, m.run s.store = (.ok a, S) ∧ s' = { s with store := S } := by
  rw [onStore, run_zoom]
  rcases m.run s.store with ⟨r, S⟩
  constructor
  · intro h
    obtain ⟨rfl, rfl⟩ := Prod.mk.inj h
    exact ⟨S, rfl, rfl⟩
  · rintro ⟨S', hm, rfl⟩
    obtain ⟨rfl, rfl⟩ := Prod.mk.inj hm
    rfl

/-- An atomic call of the store that throws leaves the process as it was. -/
theorem onStore_error {α : Type} {m : StoreM α} (hm : Atomic m) {s s' : Service} {e : JsError}
    (h : (onStore m).run s = (.error e, s')) : s' = s := by
  rw [onStore, run_zoom] at h
  rcases hrun : m.run s.store with ⟨r, S⟩
  rw [hrun] at h
  obtain ⟨rfl, rfl⟩ := Prod.mk.inj h
  rw [hm _ _ _ hrun]

/-- A call of the store at a state in which it is issued. -/
theorem onStore_effects {α : Type} {m : StoreM α} {c : StoreOp}
    (hop : c.call H.toPlatform = do let _ ← m) {s : Service}
    (h : c.Issued H.toPlatform L s.store) : Effects H L s ((onStore m).run s).2 := by
  rw [onStore_run hop]
  exact .single (.store h)

theorem onStore_performs {α : Type} {m : StoreM α} {c : StoreOp}
    (hop : c.call H.toPlatform = do let _ ← m)
    (h : ∀ S, c.Issued H.toPlatform L S) : Performs H L (onStore m) :=
  fun _ ↦ onStore_effects hop (h _)

/-- A call whose result nobody asks for. -/
theorem onStore_call_performs {c : StoreOp} (h : ∀ S, c.Issued H.toPlatform L S) :
    Performs H L (onStore (c.call H.toPlatform)) := fun _ ↦ .single (.store (h _))

theorem updateExecution_performs {runId : JsString} {f : Execution → Execution}
    (h : L.controls runId)
    (hf : ∀ e, (f e).runId = e.runId ∧ (f e).keys = e.keys ∧ (f e).predecessors = e.predecessors) :
    Performs H L (updateExecution runId f) :=
  Performs.modify fun _ ↦ .execution h hf

theorem updateExecution_bind_performs {α : Type} {runId : JsString} {f : Execution → Execution}
    {g : PUnit → ServiceM α} (h : L.controls runId) (hg : ∀ u, Performs H L (g u))
    (hf : ∀ e, (f e).runId = e.runId ∧ (f e).keys = e.keys ∧ (f e).predecessors = e.predecessors) :
    Performs H L (updateExecution runId f >>= g) :=
  (updateExecution_performs h hf).bind hg

theorem setPoint_performs {runId : JsString} (h : L.controls runId) (point : Point) :
    Performs H L (setPoint runId point) :=
  updateExecution_performs h fun _ ↦ ⟨rfl, rfl, rfl⟩

theorem throwIfAborted_performs (runId : JsString) : Performs H L (throwIfAborted runId) := by
  refine Performs.gets fun s ↦ ?_
  cases (s.execution? runId).bind Execution.abortReason with
  | none => exact .pure _
  | some reason => exact .throw _

/-! ## Events and transitions -/

theorem now_run (s : Service) :
    (now H).run s = (.ok (H.clock s.readings), { s with readings := s.readings + 1 }) := rfl

theorem now_effect (s : Service) : Effect H L s { s with readings := s.readings + 1 } :=
  .memory s.accepting s.steering s.approvalWaiters s.routeGeneration (s.readings + 1) s.draws

/-- An append that meets the guards of the store returns. -/
theorem appendEvent_run {params : AppendRunEvent} {s : Service} {row : RunRow}
    (h : s.store.Appendable params row) :
    (appendEvent H params).run s = (.ok (Store.eventOf (H.clock s.readings) params row),
      { s with
        readings := s.readings + 1
        store := s.store.recorded (H.clock s.readings) params row }) := by
  rw [appendEvent, run_bind, now_run, andThen_ok]
  exact onStore_eq_ok_iff.mpr ⟨_, Store.appendEvent_eq_ok_iff.mpr ⟨row, h, rfl, rfl⟩, rfl⟩

theorem appendEvent_effects {params : AppendRunEvent} {s : Service}
    (h : params.Issued L s.store) : Effects H L s ((appendEvent H params).run s).2 := by
  rw [appendEvent, run_bind, now_run, andThen_ok]
  exact .head (now_effect s)
    (onStore_effects (c := .appendEvent (H.clock s.readings) params) rfl h)

/-- Appending an event without a status. -/
theorem appendEvent_performs {params : AppendRunEvent} (hc : params.Coherent)
    (htype : params.type ≠ .approvalResolved) (hstatus : params.status = none) :
    Performs H L (appendEvent H params) := by
  refine fun s ↦ appendEvent_effects ⟨hc, htype, ?_, ?_⟩
  · rw [hstatus]
    exact fun _ h ↦ absurd h (Option.not_mem_none _)
  · rw [hstatus]
    exact fun _ _ _ h ↦ absurd h (Option.not_mem_none _)

theorem appendSubagentSummary_performs (run : RunRecord) (parentRunId : JsString)
    (status : RunStatus) (payload : TransitionPayload) :
    Performs H L (appendSubagentSummary H run parentRunId status payload) := by
  refine Performs.gets fun s ↦ .tryCatch ?_ fun error ↦ (getRun_performs _).bind fun parent ↦ ?_
  · refine (appendEvent_performs ⟨rfl, rfl⟩ ?_ rfl).bind fun _ ↦ .pure _
    exact fun h ↦ absurd h (by simp)
  · cases parent with
    | none => exact .throw _
    | some parent => exact .ite (.pure _) (.throw _)

/-- A status change, where the table allows it or a restart makes it. -/
theorem issued_of_status {params : AppendRunEvent} {status : RunStatus} {S : Store}
    {details : TransitionPayload} (h : L.Sets params.runId status)
    (htype : params.type.changesStatus = true) (hstatus : params.status = some status)
    (hpayload : params.payload = .lifecycle status details) (husage : params.usage = none)
    (hrow : ∀ row, S.run? params.runId = some row →
      RunStatus.Allowed row.status status ∨ params.IsRestart row.status) :
    params.Issued L S := by
  have hquiet : eventUsage params.type params.payload = {} ∧ params.type ≠ .approvalResolved := by
    generalize params.type = type at htype
    cases type <;> first | exact absurd htype Bool.false_ne_true | exact ⟨rfl, nofun⟩
  refine ⟨⟨?_, ?_⟩, hquiet.2, fun _ hmem ↦ ?_, ?_⟩
  · rw [htype, if_pos rfl, hstatus, hpayload]
    rfl
  · rw [husage, hquiet.1]
    rfl
  · rwa [← Option.some.inj (hstatus.symm.trans hmem)]
  · rintro row hfound _ hmem
    obtain rfl := Option.some.inj (hstatus.symm.trans hmem)
    exact hrow row hfound

/-- An exception of the table ends a transition before anything has changed. -/
theorem transition_performs {runId : JsString} {status : RunStatus} {type : RunEventType}
    {payload : TransitionPayload} (h : L.Sets runId status) (htype : type.changesStatus = true) :
    Performs H L (transition H runId status type payload) := by
  intro s
  rw [transition, getRun_bind_run, Store.getRun]
  cases hrow : s.store.run? runId with
  | none => exact .refl
  | some row =>
    by_cases hallowed : RunStatus.Allowed row.status status
    · have hcheck : RunStatus.assertRunTransition (toRunRecord row).status status = .ok () :=
        RunStatus.assertRunTransition_eq_ok_iff.mpr hallowed
      simp only [Option.map_some]
      rw [hcheck, run_bind, run_fromExcept, andThen_ok]
      -- the append finds the row the table was asked about
      refine Evolves.bind_at (fun _ _ _ ↦ .trans) (appendEvent_effects ?_) fun _ ↦ ?_
      · refine issued_of_status h htype rfl rfl rfl fun r hr ↦ Or.inl ?_
        obtain rfl := Option.some.inj (hrow.symm.trans hr)
        exact hallowed
      · refine Performs.ite ?_ (.pure _)
        cases (toRunRecord row).parentRunId with
        | none => exact .pure _
        | some parent => exact appendSubagentSummary_performs _ _ _ _
    · have hcheck := fun hok ↦ hallowed (RunStatus.assertRunTransition_eq_ok_iff.mp hok)
      simp only [Option.map_some]
      rw [run_bind, run_fromExcept]
      cases hcase : RunStatus.assertRunTransition (toRunRecord row).status status with
      | ok u => exact absurd hcase hcheck
      | error e => exact .refl

end Primitives

end Service

end LiteHarness
