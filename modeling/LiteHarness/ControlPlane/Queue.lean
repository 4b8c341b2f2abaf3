import LiteHarness.ControlPlane.Consistency
import LiteHarness.Foundation.KeyedQueue

/-!
# The queue of runs

A run queues on the key of its workspace and on the key of its session. The promises of the service
are a `KeyedQueue`: every step of the service but a restart is a move of the queue, so exclusion,
order and progress are those of the queue.
-/

namespace LiteHarness

open Foundation Foundation.Eff

/-- What the point of an execution is to the queue. -/
def Point.jobPhase : Point → JobPhase
  | .queued => .waiting
  | .settled => .settled
  | _ => .running

/-- The place of an execution in the queue. -/
def Execution.ticket (e : Execution) : Ticket JsString JsString := ⟨e.runId, e.keys, e.predecessors⟩

theorem Point.jobPhase_eq_waiting {point : Point} : point.jobPhase = .waiting ↔ point = .queued := by
  cases point <;> simp [jobPhase]

theorem Point.jobPhase_eq_settled {point : Point} :
    point.jobPhase = .settled ↔ point = .settled := by
  cases point <;> simp [jobPhase]

theorem Point.jobPhase_eq_running {point : Point} :
    point.jobPhase = .running ↔ point ≠ .queued ∧ point ≠ .settled := by
  cases point <;> simp [jobPhase]

/-- What other stretches do to an execution leaves its phase alone. -/
theorem Execution.Nudged.jobPhase_eq {active : Prop} {e e' : Execution}
    (h : e.Nudged active e') :
    e'.point.jobPhase = e.point.jobPhase := by
  rcases h.point with hsame | ⟨_, _, _, _, _, hpoint, hpoint'⟩
  · rw [hsame]
  · rw [hpoint, hpoint']
    rfl

/-! ## Keys -/

/-- The runs are of one owner and use the same workspace or the same session. -/
def RunRecord.Conflicts (a b : RunRecord) : Prop :=
  a.owner = b.owner ∧ (a.workspaceId = b.workspaceId ∨ ∃ x ∈ a.sessionId, x ∈ b.sessionId)

theorem ownerQueuePrefix_append_inj {a b : ResourceOwner} {v w : JsString}
    (h : ownerQueuePrefix a ++ v = ownerQueuePrefix b ++ w) : a = b ∧ v = w := by
  simp only [ownerQueuePrefix, List.append_assoc, List.cons_append] at h
  obtain ⟨happ, h⟩ := sized_append_inj h
  obtain ⟨htenant, h⟩ := sized_append_inj (List.cons.inj h).2
  obtain ⟨huser, h⟩ := sized_append_inj (List.cons.inj h).2
  refine ⟨?_, h⟩
  cases a
  cases b
  obtain rfl : _ = _ := happ
  obtain rfl : _ = _ := htenant
  obtain rfl : _ = _ := huser
  rfl

theorem workspaceQueueKey_inj {a b : ResourceOwner} {v w : JsString}
    (h : workspaceQueueKey a v = workspaceQueueKey b w) : a = b ∧ v = w := by
  simp only [workspaceQueueKey, List.append_assoc] at h
  obtain ⟨howner, h⟩ := ownerQueuePrefix_append_inj h
  exact ⟨howner, List.append_cancel_left h⟩

theorem sessionQueueKey_inj {a b : ResourceOwner} {v w : JsString}
    (h : sessionQueueKey a v = sessionQueueKey b w) : a = b ∧ v = w := by
  simp only [sessionQueueKey, List.append_assoc] at h
  obtain ⟨howner, h⟩ := ownerQueuePrefix_append_inj h
  exact ⟨howner, List.append_cancel_left h⟩

/-- No workspace has the key of a session. -/
theorem workspaceQueueKey_ne_sessionQueueKey (a b : ResourceOwner) (v w : JsString) :
    workspaceQueueKey a v ≠ sessionQueueKey b w := by
  intro h
  simp only [workspaceQueueKey, sessionQueueKey, List.append_assoc] at h
  have htail := (ownerQueuePrefix_append_inj h).2
  rw [show js ":workspace:" = 58 :: 119 :: js "orkspace:" by decide,
    show js ":session:" = 58 :: 115 :: js "ession:" by decide] at htail
  exact absurd (List.cons.inj (List.cons.inj htail).2).1 (by decide)

theorem mem_queueKeys {run : RunRecord} {k : JsString} : k ∈ queueKeys run ↔
    k = workspaceQueueKey run.owner run.workspaceId ∨
      ∃ x ∈ run.sessionId, k = sessionQueueKey run.owner x := by
  rw [queueKeys, List.mem_insertionSort, List.mem_cons, Option.mem_toList, Option.map_eq_some_iff]
  simp only [@eq_comm _ _ k, Option.mem_def]

/-- **Runs queue on a common key exactly when they conflict**, whatever their ids contain. -/
theorem shares_queueKeys_iff (a b : RunRecord) :
    (∃ k, k ∈ queueKeys a ∧ k ∈ queueKeys b) ↔ a.Conflicts b := by
  simp only [mem_queueKeys]
  constructor
  · rintro ⟨_, rfl | ⟨x, hx, rfl⟩, h | ⟨y, hy, h⟩⟩
    · obtain ⟨howner, hid⟩ := workspaceQueueKey_inj h
      exact ⟨howner, Or.inl hid⟩
    · exact absurd h (workspaceQueueKey_ne_sessionQueueKey _ _ _ _)
    · exact absurd h.symm (workspaceQueueKey_ne_sessionQueueKey _ _ _ _)
    · obtain ⟨howner, rfl⟩ := sessionQueueKey_inj h
      exact ⟨howner, Or.inr ⟨x, hx, hy⟩⟩
  · rintro ⟨howner, hid | ⟨x, hx, hy⟩⟩
    · exact ⟨_, Or.inl rfl, Or.inl (by rw [howner, hid])⟩
    · exact ⟨_, Or.inr ⟨x, hx, rfl⟩, Or.inr ⟨x, hy, by rw [howner]⟩⟩

namespace Service

variable {H : Host} {O : Options}

/-! ## The queue of a state -/

/-- The promises of the service as a queue. -/
def queue (s : Service) : KeyedQueue JsString JsString where
  tickets := s.executions.map Execution.ticket
  phase r := (s.execution? r).elim .waiting fun e ↦ e.point.jobPhase
  tail k := (Table.lookup Prod.fst k s.queueTails).map Prod.snd

theorem queue_phase {s : Service} {r : JsString} {e : Execution} (he : s.execution? r = some e) :
    s.queue.phase r = e.point.jobPhase := by
  change (s.execution? r).elim _ _ = _
  rw [he, Option.elim_some]

theorem queue_phase_settled {s : Service} {r : JsString} :
    s.queue.phase r = .settled ↔ ∃ e, s.execution? r = some e ∧ e.point = .settled := by
  change (s.execution? r).elim _ _ = _ ↔ _
  cases s.execution? r with
  | none => simp
  | some e =>
    simp only [Option.elim_some, Point.jobPhase_eq_settled, Option.some.injEq, exists_eq_left']

/-- Every ticket belongs to an execution. -/
theorem mem_queue_tickets {s : Service} (hnodup : (s.executions.map Execution.runId).Nodup)
    {t : Ticket JsString JsString} : t ∈ s.queue.tickets ↔
      ∃ e, s.execution? t.id = some e ∧ t = e.ticket := by
  rw [queue, List.mem_map]
  constructor
  · rintro ⟨e, he, rfl⟩
    exact ⟨e, Table.lookup_of_mem hnodup he, rfl⟩
  · rintro ⟨e, he, rfl⟩
    exact ⟨e, Table.mem_of_lookup he, rfl⟩

/-! ## Tails -/

theorem Effects.queueTails_eq {L : Licence} {s s' : Service} (h : Effects H L s s')
    (hqueue : ¬L.enqueues) (hdrain : ¬L.drains) : s'.queueTails = s.queueTails := by
  induction h with
  | refl => rfl
  | tail _ heffect ih =>
    cases heffect with
    | enqueue _ hq => exact absurd hq hqueue
    | drain _ hd => exact absurd hd hdrain
    | _ => exact ih

/-- The tails have unique keys once a run has become one. -/
theorem nodup_queuedTails (run : RunRecord) {tails : List (JsString × JsString)}
    (h : (tails.map Prod.fst).Nodup) : ((queuedTails run tails).map Prod.fst).Nodup := by
  rw [queuedTails]
  generalize queueKeys run = keys
  induction keys generalizing tails with
  | nil => exact h
  | cons k keys ih => exact ih (Table.nodup_upsert (f := fun tail ↦ (tail.1, run.id)) (fun _ ↦ rfl) h)

/-- A run that enters the queue is the tail of its keys. -/
theorem lookup_queuedTails (run : RunRecord) (tails : List (JsString × JsString)) (k : JsString) :
    (Table.lookup Prod.fst k (queuedTails run tails)).map Prod.snd =
      if k ∈ queueKeys run then some run.id else (Table.lookup Prod.fst k tails).map Prod.snd := by
  rw [queuedTails]
  generalize queueKeys run = keys
  induction keys generalizing tails with
  | nil => rw [if_neg List.not_mem_nil, List.foldl_nil]
  | cons k' keys ih =>
    rw [List.foldl_cons, ih, Table.lookup_upsert (f := fun tail ↦ (tail.1, run.id)) (fun _ ↦ rfl)]
    by_cases hk : k ∈ keys
    · rw [if_pos hk, if_pos (List.mem_cons_of_mem _ hk)]
    rw [if_neg hk]
    by_cases hk' : k' = k
    · rw [if_pos hk', if_pos (hk' ▸ List.mem_cons_self)]
      cases Table.lookup Prod.fst k tails <;> rfl
    · rw [if_neg hk', if_neg fun hmem ↦ (List.mem_cons.mp hmem).elim (fun h ↦ hk' h.symm) hk]

theorem Effects.nodup_tails {L : Licence} {s s' : Service} (h : Effects H L s s')
    (hs : (s.queueTails.map Prod.fst).Nodup) : (s'.queueTails.map Prod.fst).Nodup := by
  refine h.preserves (p := fun s ↦ (s.queueTails.map Prod.fst).Nodup) (fun s s' heffect hs ↦ ?_) hs
  cases heffect with
  | @enqueue run => exact nodup_queuedTails run hs
  | drain => exact hs.sublist (List.filter_sublist.map Prod.fst)
  | _ => exact hs

theorem Reachable.nodup_tails {s : Service} (h : Reachable H O s) :
    (s.queueTails.map Prod.fst).Nodup := by
  refine h.induction (p := fun s ↦ (s.queueTails.map Prod.fst).Nodup) List.nodup_nil
    fun s input hs hnodup ↦ ?_
  by_cases hrestart : input = .restart
  · subst hrestart
    rw [step_restart]
    exact (reconcileInterruptedRuns_effects (s := restarted s) hs.logged).nodup_tails List.nodup_nil
  cases hexec : input.execution? with
  | none => exact (handle_call (H := H) (O := O) hexec hrestart s).nodup_tails hnodup
  | some r =>
    cases he : s.execution? r with
    | none => rwa [step_idle hexec he]
    | some e => exact (handle_execution (H := H) (O := O) hexec he).nodup_tails hnodup

/-! ## Moves -/

/-- A stretch that neither enqueues nor drains is a move of the queue, if the executions it controls
make one. -/
theorem Consistent.work {s s' : Service} (h : s.Consistent O) {L : Licence}
    (heffects : Effects H L s s') (hqueue : ¬L.enqueues) (hdrain : ¬L.drains)
    (hown : ∀ r e, L.controls r → s.execution? r = some e → ∃ e', s'.execution? r = some e' ∧
      (e'.point.jobPhase = e.point.jobPhase ∨
        e.point.jobPhase = .running ∧ e'.point.jobPhase ≠ .waiting ∨
        e.point.jobPhase = .waiting ∧ ∀ p ∈ e.predecessors, s.queue.phase p = .settled)) :
    KeyedQueue.Step s.queue s'.queue := by
  refine .work (heffects.places_eq hqueue fun e e' ⟨hid, hkeys, hpredecessors⟩ ↦ ?_) ?_ ?_
  · rw [Execution.ticket, hid, hkeys, hpredecessors, Execution.ticket]
  · funext k
    change (Table.lookup Prod.fst k s'.queueTails).map Prod.snd = _
    rw [heffects.queueTails_eq hqueue hdrain]
    rfl
  · intro t ht
    obtain ⟨e, he, rfl⟩ := (mem_queue_tickets h.nodup).mp ht
    by_cases hr : L.controls e.ticket.id
    · obtain ⟨e', he', hphase⟩ := hown _ e hr he
      rw [queue_phase he, queue_phase he']
      exact hphase
    · obtain ⟨e', he', hnudged⟩ := (heffects.undisturbed hr).execution e he
      rw [queue_phase he, queue_phase he']
      exact Or.inl hnudged.jobPhase_eq

/-- A step that leaves executions and tails alone. -/
theorem moves_of_eq {s s' : Service} (hexecutions : s'.executions = s.executions)
    (htails : s'.queueTails = s.queueTails) : KeyedQueue.Step s.queue s'.queue := by
  have hlookup : ∀ r, s'.execution? r = s.execution? r := fun r ↦ by
    rw [execution?, hexecutions, execution?]
  refine .work ?_ ?_ fun t _ ↦ Or.inl ?_
  · rw [queue, hexecutions, queue]
  · rw [queue, htails, queue]
  · change (s'.execution? t.id).elim _ _ = _
    rw [hlookup]
    rfl

/-- A run that enters the queue. -/
theorem enqueue_moves {s : Service} (h : s.Consistent O) (hlogged : s.store.Logged)
    (run : RunRecord) : KeyedQueue.Step s.queue ((enqueue H run).run s).2.queue := by
  rcases enqueue_cases (H := H) hlogged run with heq | ⟨-, ⟨row, hrow, haccepted⟩, hcases⟩
  · rw [heq]
    exact moves_of_eq rfl rfl
  rcases hcases with ⟨hexecutions, htails⟩ | ⟨hexecutions, htails, -⟩
  · exact moves_of_eq hexecutions htails
  -- a run that was only accepted has no execution yet
  have hnone : s.execution? run.id = none := by
    cases he : s.execution? run.id with
    | none => rfl
    | some e =>
      obtain ⟨row', hrow', hstaged⟩ := h.staged run.id e he
      obtain rfl := Option.some.inj (hrow.symm.trans hrow')
      exact absurd haccepted hstaged.accepted
  generalize ((enqueue H run).run s).2 = s' at *
  have hlookup : ∀ r, s'.execution? r = (s.execution? r).or
      (if run.id = r then some (queuedExecution run s.queueTails) else none) := fun r ↦ by
    rw [execution?, hexecutions, Table.lookup_append, Table.lookup_singleton]
    rfl
  have htickets : s'.queue.tickets = s.queue.tickets ++
      [⟨run.id, queueKeys run, (queueKeys run).filterMap s.queue.tail⟩] := by
    rw [queue, hexecutions, List.map_append]
    rfl
  refine .enqueue (fun t ht hid ↦ ?_) htickets (fun k ↦ ?_) (fun t ht ↦ ?_) ?_
  · obtain ⟨e, he, -⟩ := (mem_queue_tickets h.nodup).mp ht
    rw [hid, hnone] at he
    exact absurd he (by simp)
  · change (Table.lookup Prod.fst k s'.queueTails).map Prod.snd = _ ∧ _ ∨
      (Table.lookup Prod.fst k s'.queueTails).map Prod.snd = _ ∧ _
    rw [htails, lookup_queuedTails]
    split_ifs with hk
    · exact Or.inl ⟨rfl, hk⟩
    · exact Or.inr ⟨rfl, hk⟩
  · obtain ⟨e, he, -⟩ := (mem_queue_tickets h.nodup).mp ht
    rw [queue_phase he, queue_phase (s := s') (e := e)]
    rw [hlookup, he, Option.some_or]
  · refine (queue_phase (e := queuedExecution run s.queueTails) ?_).trans rfl
    rw [hlookup, hnone, if_pos rfl, Option.none_or]

/-- The settled promise of an execution leaves the queue. -/
theorem drain_moves {s : Service} (h : s.Consistent O)
    (htails : (s.queueTails.map Prod.fst).Nodup) {e : Execution} (he : s.execution? e.runId = some e)
    (hsettled : e.point = .settled) : KeyedQueue.Step s.queue ((drain e).run s).2.queue := by
  have hlookup : ∀ r, ((drain e).run s).2.execution? r = (s.execution? r).map fun e' ↦
      if e'.runId = e.runId then { e' with drained := true } else e' := fun r ↦
    (execution?_update (s := s) (i := e.runId) (f := fun e ↦ { e with drained := true })
      (fun _ ↦ rfl) r)
  refine .drain (t := e.ticket) ((mem_queue_tickets h.nodup).mpr ⟨e, he, rfl⟩) ?_ ?_ (fun k ↦ ?_)
    fun t ht ↦ ?_
  · exact (queue_phase he).trans (Point.jobPhase_eq_settled.mpr hsettled)
  · exact Table.map_update (g := Execution.ticket) (f := fun e ↦ { e with drained := true })
      (fun _ ↦ rfl) s.executions
  · change (Table.lookup Prod.fst k (s.queueTails.filter _)).map Prod.snd = _ ∨
      (Table.lookup Prod.fst k (s.queueTails.filter _)).map Prod.snd = _ ∧ _
    rw [Table.lookup_filter htails]
    change _ = (Table.lookup Prod.fst k s.queueTails).map Prod.snd ∨ _ ∧
      (Table.lookup Prod.fst k s.queueTails).map Prod.snd = _
    cases Table.lookup Prod.fst k s.queueTails with
    | none => exact Or.inl rfl
    | some tail =>
      rw [Option.filter_some]
      split_ifs with hkept
      · exact Or.inl rfl
      · refine Or.inr ⟨rfl, ?_⟩
        simp only [decide_eq_true_eq, not_not] at hkept
        rw [Option.map_some, hkept.2]
        rfl
  · obtain ⟨e', he', -⟩ := (mem_queue_tickets h.nodup).mp ht
    rw [queue_phase he']
    refine (queue_phase (e := if e'.runId = e.runId then { e' with drained := true } else e') ?_).trans ?_
    · rw [hlookup, he', Option.map_some]
    · split_ifs <;> rfl

/-- An execution that is woken in the queue stays there, or its predecessors have settled. -/
theorem wake_queued {s : Service} {e : Execution} (input : Input) (hpoint : e.point = .queued) :
    ((wake H O e e.point input).run s).2 = s ∨
      ∀ p ∈ e.predecessors, s.queue.phase p = .settled := by
  rw [hpoint]
  unfold wake
  split
  case h_1 =>
    rw [run_get_bind, run_ite]
    split_ifs with hsettled
    · refine Or.inr fun p hp ↦ ?_
      obtain ⟨e', he', hpoint'⟩ := hsettled p hp
      rw [queue_phase he', Point.isSettled_iff.mp hpoint']
      rfl
    · exact Or.inl rfl
  case h_12 => exact Or.inl rfl
  all_goals simp_all

/-- **Every step but a restart is a move of the queue.** -/
theorem step_moves {s : Service} (h : Reachable H O s) {input : Input}
    (hrestart : input ≠ .restart) : KeyedQueue.Step s.queue (step H O s input).queue := by
  have hconsistent := h.consistent
  cases hexec : input.execution? with
  | none =>
    have heffects := handle_call (H := H) (O := O) hexec hrestart s
    cases input with
    | immediate runId =>
      rw [step, handle, run_get_bind]
      cases s.scheduled.find? fun run ↦ run.id = runId with
      | none => exact moves_of_eq rfl rfl
      | some run =>
        dsimp only
        rw [run_modify_bind, run_ite]
        split_ifs
        · have hfired : Consistent O
              { s with scheduled := s.scheduled.filter fun run ↦ run.id ≠ runId } :=
            ⟨hconsistent.nodup, hconsistent.staged, hconsistent.active, hconsistent.calm⟩
          exact enqueue_moves hfired h.logged run
        · exact moves_of_eq rfl rfl
    | _ => exact hconsistent.work heffects id id fun _ _ hr ↦ hr.elim
  | some r =>
    cases he : s.execution? r with
    | none =>
      rw [step_idle hexec he]
      exact moves_of_eq rfl rfl
    | some e =>
      obtain rfl := execution?_runId he
      obtain ⟨row, hrow, hstaged⟩ := hconsistent.staged _ e he
      have hsees := hconsistent.sees h.logged he hrow
      have hwoken := step_woken (H := H) (O := O) hexec he
      have heffects := hwoken.effects
      generalize step H O s input = s' at hwoken heffects
      cases hwoken with
      | idle => exact moves_of_eq rfl rfl
      | queueTimeout =>
        have hstill := timeoutQueuedRun_still (H := H) e.runId e.run.budget.totalTimeoutMs s
        exact moves_of_eq hstill.executions hstill.queueTails
      | totalTimeout ht =>
        have hactive := hstaged.active_of_not_silent (Execution.not_silent_of_timeout ht)
        exact hconsistent.work (L := { resolves := True }) (abort_effects (Or.inl hactive) trivial)
          id id fun _ _ hr ↦ hr.elim
      | leaseRenewal hrenewal =>
        -- the timer only fires while the execution runs
        have hactive := hstaged.active_of_not_silent (Execution.not_silent_of_renewal hrenewal)
        have hwaits := hstaged.waits hactive
        have hopen : e.point ≠ .settled := fun hsettled ↦
          hstaged.not_active_of_terminal (hwaits.ended hsettled) hactive
        refine hconsistent.work heffects id hopen ?_
        rintro _ e₀ rfl he₀
        obtain rfl := Option.some.inj (he.symm.trans he₀)
        obtain ⟨-, -, e', row', he', -, hwaits'⟩ := renewLease_sees (H := H) (O := O) e s
          (hsees.imp fun _ _ _ _ h ↦ ⟨h.2.2, h.1 ▸ Execution.not_silent_of_renewal hrenewal⟩)
        refine ⟨e', he', Or.inr (Or.inl ⟨?_, ?_⟩)⟩
        · exact Point.jobPhase_eq_running.mpr ⟨hwaits.left, hopen⟩
        · exact fun hwaiting ↦ hwaits'.left (Point.jobPhase_eq_waiting.mp hwaiting)
      | wake =>
        by_cases hsettled : e.point = .settled
        · -- a settled promise only leaves the queue
          rw [hsettled]
          unfold wake
          split
          case h_2 =>
            rw [run_ite]
            split_ifs
            · exact moves_of_eq rfl rfl
            · exact drain_moves hconsistent h.nodup_tails he hsettled
          case h_12 => exact moves_of_eq rfl rfl
          all_goals simp_all
        obtain ⟨-, -, e', row', he', -, -, -, hleft⟩ :=
          wake_sees (H := H) (O := O) e row.status input s hsees
        by_cases hqueued : e.point = .queued
        · rcases wake_queued (H := H) (O := O) (s := s) input hqueued with heq | hall
          · rw [heq]
            exact moves_of_eq rfl rfl
          · refine hconsistent.work heffects id hsettled ?_
            rintro _ e₀ rfl he₀
            obtain rfl := Option.some.inj (he.symm.trans he₀)
            exact ⟨e', he', Or.inr (Or.inr ⟨Point.jobPhase_eq_waiting.mpr hqueued, hall⟩)⟩
        · refine hconsistent.work heffects id hsettled ?_
          rintro _ e₀ rfl he₀
          obtain rfl := Option.some.inj (he.symm.trans he₀)
          refine ⟨e', he', Or.inr (Or.inl ⟨Point.jobPhase_eq_running.mpr ⟨hqueued, hsettled⟩, ?_⟩)⟩
          exact fun hwaiting ↦ hqueued (hleft (Point.jobPhase_eq_waiting.mp hwaiting))

/-- **The queue of a reachable state is ordered.** -/
theorem Reachable.ordered {s : Service} (h : Reachable H O s) : s.queue.Ordered := by
  have hempty : ∀ {s : Service}, s.executions = [] → s.queueTails = [] → s.queue.IsEmpty := by
    refine fun hexecutions htails ↦ ⟨?_, fun k ↦ ?_⟩
    · rw [queue, hexecutions]
      rfl
    · rw [queue, htails]
      rfl
  refine h.induction (p := fun s ↦ s.queue.Ordered) (hempty rfl rfl).ordered
    fun s input hs hordered ↦ ?_
  by_cases hrestart : input = .restart
  · subst hrestart
    have heffects := reconcileInterruptedRuns_effects (H := H) (s := restarted s) hs.logged
    rw [step_restart]
    refine (hempty ?_ (heffects.queueTails_eq id id)).ordered
    exact List.map_eq_nil_iff.mp (heffects.runIds_eq id)
  · exact hordered.step (step_moves hs hrestart)

/-! ## The keys of a run -/

/-- The keys of a run only depend on columns that never change. -/
theorem queueKeys_congr {row row' : RunRow} (h : row'.identity = row.identity) :
    queueKeys (toRunRecord row') = queueKeys (toRunRecord row) := by
  have howner : row'.owner = row.owner := congrArg RunIdentity.owner h
  have hworkspace : row'.workspaceId = row.workspaceId := congrArg RunIdentity.workspaceId h
  have hsession : row'.sessionId = row.sessionId := congrArg RunIdentity.sessionId h
  simp only [queueKeys, toRunRecord, howner, hworkspace, hsession]

/-- The run exists, and these are its keys. -/
def HasKeys (s : Service) (r : JsString) (keys : List JsString) : Prop :=
  ∃ row, s.store.run? r = some row ∧ keys = queueKeys (toRunRecord row)

theorem HasKeys.evolves {P : Platform} {L : Licence} {s s' : Service} {r : JsString}
    {keys : List JsString} (h : s.HasKeys r keys) (hevolves : Store.Evolves P L s.store s'.store) :
    s'.HasKeys r keys := by
  obtain ⟨row, hrow, rfl⟩ := h
  obtain ⟨row', hrow', hkept⟩ := hevolves.keeps hrow
  exact ⟨row', hrow', (queueKeys_congr hkept.identity).symm⟩

/-- Scheduled runs carry their own keys. -/
theorem Effects.scheduled_keys {L : Licence} {s s' : Service} (h : Effects H L s s')
    (hs : ∀ run ∈ s.scheduled, s.HasKeys run.id (queueKeys run)) :
    ∀ run ∈ s'.scheduled, s'.HasKeys run.id (queueKeys run) := by
  refine h.preserves (p := fun s ↦ ∀ run ∈ s.scheduled, s.HasKeys run.id (queueKeys run))
    (fun s s' heffect hs run hrun ↦ ?_) hs
  cases heffect with
  | @store op hissued =>
    have hevolves : Store.Evolves H.toPlatform L s.store (op.apply H.toPlatform s.store) :=
      Relation.ReflTransGen.single ⟨op, hissued, rfl⟩
    exact HasKeys.evolves (hs run hrun) hevolves
  | schedule hscheduled =>
    rcases hscheduled run hrun with hmem | ⟨row, hrow, heq⟩
    · exact hs run hmem
    · exact ⟨row, hrow, by rw [heq]⟩
  | _ => exact hs run hrun

/-- Every run queues on its own keys. -/
structure Keyed (s : Service) : Prop where
  scheduled : ∀ run ∈ s.scheduled, s.HasKeys run.id (queueKeys run)
  tickets : ∀ t ∈ s.queue.tickets, s.HasKeys t.id t.keys

theorem Keyed.effects {L : Licence} {s s' : Service} (h : s.Keyed) (heffects : Effects H L s s')
    (hqueue : ¬L.enqueues) : s'.Keyed := by
  refine ⟨heffects.scheduled_keys h.scheduled, fun t ht ↦ ?_⟩
  have htickets : s'.queue.tickets = s.queue.tickets :=
    heffects.places_eq hqueue fun e e' ⟨hid, hkeys, hpredecessors⟩ ↦ by
      rw [Execution.ticket, hid, hkeys, hpredecessors, Execution.ticket]
  exact (h.tickets t (htickets ▸ ht)).evolves heffects.evolves

theorem Reachable.keyed {s : Service} (h : Reachable H O s) : s.Keyed := by
  refine h.induction (p := Keyed) ⟨fun _ hrun ↦ absurd hrun List.not_mem_nil,
    fun _ ht ↦ absurd ht List.not_mem_nil⟩ fun s input hs hkeyed ↦ ?_
  by_cases hrestart : input = .restart
  · subst hrestart
    rw [step_restart]
    refine Keyed.effects (s := restarted s) ⟨fun _ hrun ↦ absurd hrun List.not_mem_nil,
      fun _ ht ↦ absurd ht List.not_mem_nil⟩
      (reconcileInterruptedRuns_effects (H := H) (s := restarted s) hs.logged) id
  cases hexec : input.execution? with
  | none =>
    have heffects := handle_call (H := H) (O := O) hexec hrestart s
    cases input with
    | immediate runId =>
      refine ⟨heffects.scheduled_keys hkeyed.scheduled, fun t ht ↦ ?_⟩
      rw [handle, run_get_bind] at heffects
      rw [Service.step, handle, run_get_bind] at ht ⊢
      cases hfound : s.scheduled.find? fun run ↦ run.id = runId with
      | none =>
        rw [hfound] at ht
        exact hkeyed.tickets t ht
      | some run =>
        rw [hfound] at ht heffects
        dsimp only at ht heffects ⊢
        rw [run_modify_bind, run_ite] at ht heffects ⊢
        split_ifs at ht heffects ⊢
        · have hkeys := hkeyed.scheduled run (List.mem_of_find?_eq_some hfound)
          rcases enqueue_cases (H := H)
              (s := { s with scheduled := s.scheduled.filter fun run ↦ run.id ≠ runId }) hs.logged
              run with heq | ⟨-, -, ⟨hexecutions, -⟩ | ⟨hexecutions, -⟩⟩
          · rw [heq] at ht ⊢
            exact hkeyed.tickets t ht
          · rw [queue, hexecutions] at ht
            exact (hkeyed.tickets t ht).evolves heffects.evolves
          · rw [queue, hexecutions, List.map_append] at ht
            rcases List.mem_append.mp ht with ht | ht
            · exact (hkeyed.tickets t ht).evolves heffects.evolves
            · obtain rfl := List.mem_singleton.mp ht
              exact hkeys.evolves heffects.evolves
        · exact hkeyed.tickets t ht
    | _ => exact hkeyed.effects heffects id
  | some r =>
    cases he : s.execution? r with
    | none => rwa [step_idle hexec he]
    | some e => exact hkeyed.effects (handle_execution (H := H) (O := O) hexec he) id

/-! ## Exclusion, order and progress -/

/-- The two runs are of one owner and use the same workspace or the same session. -/
def Conflict (s : Service) (r r' : JsString) : Prop :=
  ∃ row row', s.store.run? r = some row ∧ s.store.run? r' = some row' ∧
    (toRunRecord row).Conflicts (toRunRecord row')

/-- The execution of the run has started and not settled. -/
def Executing (s : Service) (r : JsString) : Prop :=
  ∃ e, s.execution? r = some e ∧ e.point ≠ .queued ∧ e.point ≠ .settled

/-- The first run entered the queue before the second one: executions are kept in the order of
their entry. -/
def EnqueuedBefore (s : Service) (r r' : JsString) : Prop :=
  List.Sublist [r, r'] (s.executions.map Execution.runId)

/-- The first run waits for the promise of the second one. -/
def WaitsFor (s : Service) (r p : JsString) : Prop :=
  ∃ e, s.execution? r = some e ∧ p ∈ e.predecessors

/-- The tickets of the runs that conflict share a key. -/
theorem Reachable.conflict_iff {s : Service} (h : Reachable H O s)
    {t t' : Ticket JsString JsString} (ht : t ∈ s.queue.tickets) (ht' : t' ∈ s.queue.tickets) :
    s.Conflict t.id t'.id ↔ KeyedQueue.Shares t t' := by
  obtain ⟨row, hrow, hkeys⟩ := h.keyed.tickets t ht
  obtain ⟨row', hrow', hkeys'⟩ := h.keyed.tickets t' ht'
  rw [KeyedQueue.Shares, hkeys, hkeys', shares_queueKeys_iff]
  constructor
  · rintro ⟨row₁, row₂, h₁, h₂, hconflicts⟩
    obtain rfl := Option.some.inj (hrow.symm.trans h₁)
    obtain rfl := Option.some.inj (hrow'.symm.trans h₂)
    exact hconflicts
  · exact fun hconflicts ↦ ⟨row, row', hrow, hrow', hconflicts⟩

theorem Reachable.mem_tickets {s : Service} (h : Reachable H O s) {r : JsString} {e : Execution}
    (he : s.execution? r = some e) : e.ticket ∈ s.queue.tickets ∧ e.ticket.id = r := by
  obtain rfl := execution?_runId he
  exact ⟨(mem_queue_tickets h.consistent.nodup).mpr ⟨e, he, rfl⟩, rfl⟩

/-- **Runs that conflict are executed one at a time, in the order of their entry.** -/
theorem Reachable.settled_of_enqueuedBefore {s : Service} (h : Reachable H O s) {r r' : JsString}
    (hbefore : s.EnqueuedBefore r r') (hconflict : s.Conflict r r') {e' : Execution}
    (he' : s.execution? r' = some e') (hleft : e'.point ≠ .queued) :
    ∃ e, s.execution? r = some e ∧ e.point = .settled := by
  have hmap : s.executions.map Execution.runId = s.queue.tickets.map Ticket.id := by
    rw [queue, List.map_map]
    rfl
  rw [EnqueuedBefore, hmap] at hbefore
  obtain ⟨l, hl, heq⟩ := List.sublist_map_iff.mp hbefore
  obtain ⟨t, l', rfl, rfl, heq'⟩ := List.map_eq_cons_iff.mp heq.symm
  obtain ⟨t', l'', rfl, rfl, hnil⟩ := List.map_eq_cons_iff.mp heq'
  obtain rfl := List.map_eq_nil_iff.mp hnil
  have ht : s.queue.Before t t' := hl
  obtain ⟨k, hk, hk'⟩ := (h.conflict_iff ht.mem_left ht.mem_right).mp hconflict
  obtain ⟨e, he, rfl⟩ := (mem_queue_tickets h.consistent.nodup).mp ht.mem_left
  refine ⟨e, he, Point.jobPhase_eq_settled.mp ?_⟩
  rw [← queue_phase he]
  refine h.ordered.settled_of_before ht hk hk' ?_
  rw [queue_phase he']
  exact fun hwaiting ↦ hleft (Point.jobPhase_eq_waiting.mp hwaiting)

/-- The promises of runs that do not conflict do not wait for one another. -/
theorem Reachable.conflict_of_waitsFor {s : Service} (h : Reachable H O s) {r p : JsString}
    (hwaits : s.WaitsFor r p) : s.Conflict r p := by
  obtain ⟨e, he, hp⟩ := hwaits
  obtain ⟨ht, hid⟩ := h.mem_tickets he
  obtain ⟨a, ha, b, hb, rfl, rfl, hshares⟩ := h.ordered.shares_of_waitsFor ⟨_, ht, hid, hp⟩
  exact (h.conflict_iff ha hb).mpr hshares

theorem Reachable.waitsFor_acyclic {s : Service} (h : Reachable H O s) (r : JsString) :
    ¬Relation.TransGen s.WaitsFor r r := by
  have hmono : s.WaitsFor ≤ s.queue.WaitsFor := by
    rintro a b ⟨e, he, hp⟩
    obtain ⟨ht, hid⟩ := h.mem_tickets he
    exact ⟨_, ht, hid, hp⟩
  exact fun hr ↦ h.ordered.acyclic r (Relation.TransGen.mono hmono r r hr)

/-- A step at which a run leaves the queue: its execution goes on, or its run has ended. -/
theorem step_left {s : Service} (h : Reachable H O s) {input : Input} (hrestart : input ≠ .restart)
    {r : JsString} {e e' : Execution} (he : s.execution? r = some e) (hqueued : e.point = .queued)
    (he' : (step H O s input).execution? r = some e') (hsettled : e'.point = .settled) :
    ∃ row, (step H O s input).store.run? r = some row ∧ row.status.isTerminalRunStatus = true := by
  have hframe : ∀ {L : Licence}, ¬L.controls r → Effects H L s (step H O s input) → False := by
    intro L hr heffects
    obtain ⟨e₁, he₁, hnudged⟩ := (heffects.undisturbed hr).execution e he
    obtain rfl := Option.some.inj (he'.symm.trans he₁)
    have hphase := hnudged.jobPhase_eq
    rw [hsettled, hqueued] at hphase
    exact absurd hphase (by simp [Point.jobPhase])
  cases hexec : input.execution? with
  | none =>
    have heffects := handle_call (H := H) (O := O) hexec hrestart s
    cases input with
    | immediate runId =>
      rcases immediate_execution? h.logged he' with ⟨run, tails, rfl⟩ | hold
      · exact absurd hsettled (by simp [queuedExecution])
      · obtain rfl := Option.some.inj (he.symm.trans hold)
        exact absurd (hqueued.symm.trans hsettled) (by simp)
    | _ => exact (hframe id heffects).elim
  | some k =>
    cases hk : s.execution? k with
    | none =>
      rw [step_idle hexec hk, he] at he'
      obtain rfl := Option.some.inj he'
      exact absurd (hqueued.symm.trans hsettled) (by simp)
    | some e₀ =>
      by_cases hr : r = k
      · subst hr
        obtain rfl := Option.some.inj (he.symm.trans hk)
        obtain rfl := execution?_runId he
        obtain ⟨row, hrow, hstaged⟩ := h.consistent.staged _ e he
        have hsees := h.consistent.sees h.logged he hrow
        have hwoken := step_woken (H := H) (O := O) hexec he
        have hsilent : e.Silent := by
          have hplace := hstaged.place
          unfold Execution.Place at hplace
          rw [hqueued] at hplace
          exact hplace.2.2.2
        generalize step H O s input = s' at *
        cases hwoken with
        | idle =>
          obtain rfl := Option.some.inj (he.symm.trans he')
          exact absurd (hqueued.symm.trans hsettled) (by simp)
        | queueTimeout =>
          refine (hframe (L := { ends := fun r ↦ r = e.runId }) id ?_).elim
          exact timeoutQueuedRun_performs _ (Or.inr ⟨rfl, rfl⟩) s
        | totalTimeout ht => exact absurd hsilent (Execution.not_silent_of_timeout ht)
        | leaseRenewal ht => exact absurd hsilent (Execution.not_silent_of_renewal ht)
        | wake =>
          obtain ⟨-, -, e₁, row₁, he₁, hrow₁, -, hends, -⟩ :=
            wake_sees (H := H) (O := O) e row.status input s hsees
          obtain rfl := Option.some.inj (he'.symm.trans he₁)
          rcases hends hsettled with ht | hwas | ⟨hreleasing, -⟩
          · exact ⟨row₁, hrow₁, ht⟩
          · exact absurd (hqueued.symm.trans hwas) (by simp)
          · exact absurd (hqueued.symm.trans hreleasing) (by simp)
      · obtain rfl := execution?_runId hk
        exact (hframe (fun hcontrols ↦ hr hcontrols) (handle_execution (H := H) (O := O) hexec hk)).elim

/-- The process after the first inputs of an infinite history. -/
def afterFirst (H : Host) (O : Options) (inputs : ℕ → Input) (n : ℕ) : Service :=
  after H O {} ((List.range n).map inputs)

theorem afterFirst_succ (inputs : ℕ → Input) (n : ℕ) :
    afterFirst H O inputs (n + 1) = step H O (afterFirst H O inputs n) (inputs n) := by
  rw [afterFirst, List.range_succ, List.map_append]
  exact after_append _ _ _

/-- What the event loop and the collaborators owe the queue: an execution that has started settles,
and the continuation of a run whose predecessors have settled runs, unless the process is
restarted. -/
structure Fair (H : Host) (O : Options) (inputs : ℕ → Input) : Prop where
  settles : ∀ n r e, (afterFirst H O inputs n).execution? r = some e → e.point ≠ .queued →
    ∃ m ≥ n, inputs m = .restart ∨
      ∃ e', (afterFirst H O inputs m).execution? r = some e' ∧ e'.point = .settled
  continues : ∀ n r e, (afterFirst H O inputs n).execution? r = some e → e.point = .queued →
    (∀ p ∈ e.predecessors, ∃ e', (afterFirst H O inputs n).execution? p = some e' ∧
      e'.point = .settled) → ∃ m ≥ n, inputs m = .restart ∨ inputs m = .predecessorsSettled r

/-- A sequence that starts with a property and loses it loses it at some step. -/
theorem exists_last {p : ℕ → Prop} {n m : ℕ} (hnm : n ≤ m) (hn : p n) (hm : ¬p m) :
    ∃ k ≥ n, k < m ∧ p k ∧ ¬p (k + 1) := by
  induction hnm with
  | refl => exact absurd hn hm
  | @step m hnm ih =>
    by_cases hp : p m
    · exact ⟨m, hnm, Nat.lt_succ_self m, hp, hm⟩
    · obtain ⟨k, hk, hkm, hkp⟩ := ih hp
      exact ⟨k, hk, hkm.trans (Nat.lt_succ_self m), hkp⟩

/-- The continuation of a run whose predecessors have settled takes it out of the queue. -/
theorem step_predecessorsSettled {s : Service} (h : Reachable H O s) {e : Execution}
    (he : s.execution? e.runId = some e) (hqueued : e.point = .queued)
    (hall : ∀ p ∈ e.predecessors, s.queue.phase p = .settled) :
    (step H O s (.predecessorsSettled e.runId)).queue.phase e.runId ≠ .waiting := by
  have hguard : ∀ p ∈ e.predecessors, ∃ e' ∈ s.execution? p, e'.point.isSettled = true := by
    intro p hp
    obtain ⟨e', he', hsettled⟩ := queue_phase_settled.mp (hall p hp)
    exact ⟨e', he', Point.isSettled_iff.mpr hsettled⟩
  obtain ⟨row, hrow, hstaged⟩ := h.consistent.staged _ e he
  obtain ⟨-, -, -, e', row', he', -, hwaits⟩ := startExecution_sees (H := H) (O := O) e rfl s
    ((h.consistent.sees h.logged he hrow).imp fun _ _ _ _ h ↦ ⟨h.2.2, h.1 ▸ hqueued⟩)
  have hstep : step H O s (.predecessorsSettled e.runId) = ((startExecution H O e).run s).2 := by
    rw [step, handle, onExecution, run_get_bind, he]
    dsimp only
    rw [hqueued]
    change ((if _ then _ else _ : ServiceM PUnit).run s).2 = _
    rw [if_pos hguard]
  rw [hstep, queue_phase he']
  exact fun hwaiting ↦ hwaits.left (Point.jobPhase_eq_waiting.mp hwaiting)

/-- **Progress.** In a fair history every queued run leaves the queue: it is executed, or it is
found ended, unless the process is restarted before. -/
theorem queued_leaves {inputs : ℕ → Input} (hfair : Fair H O inputs) {n : ℕ} {r : JsString}
    {e : Execution} (he : (afterFirst H O inputs n).execution? r = some e)
    (hqueued : e.point = .queued) : ∃ m ≥ n, inputs m = .restart ∨
      ∃ e', (afterFirst H O inputs (m + 1)).execution? r = some e' ∧ e'.point ≠ .queued ∧
        (e'.point = .settled → ∃ row, (afterFirst H O inputs (m + 1)).store.run? r = some row ∧
          row.status.isTerminalRunStatus = true) := by
  by_cases hrestart : ∃ m ≥ n, inputs m = .restart
  · obtain ⟨m, hm, hinput⟩ := hrestart
    exact ⟨m, hm, Or.inl hinput⟩
  have hno : ∀ m ≥ n, inputs m ≠ .restart := fun m hm hinput ↦ hrestart ⟨m, hm, hinput⟩
  have hreachable : ∀ m, Reachable H O (afterFirst H O inputs m) := fun m ↦ ⟨_, rfl⟩
  let run := fun k ↦ (afterFirst H O inputs (n + k)).queue
  have hmoves : ∀ k, KeyedQueue.Step (run k) (run (k + 1)) := fun k ↦ by
    change KeyedQueue.Step _ (afterFirst H O inputs (n + k + 1)).queue
    rw [afterFirst_succ]
    exact step_moves (hreachable _) (hno _ (Nat.le_add_right n k))
  have hordered : (run 0).Ordered := (hreachable n).ordered
  have hexecution : ∀ m, ∀ t ∈ (afterFirst H O inputs m).queue.tickets,
      ∃ e, (afterFirst H O inputs m).execution? t.id = some e ∧ t = e.ticket :=
    fun m t ht ↦ (mem_queue_tickets (hreachable m).consistent.nodup).mp ht
  have hsettles : ∀ k, ∀ t ∈ (run k).tickets, (run k).phase t.id ≠ .waiting →
      ∃ m ≥ k, (run m).phase t.id = .settled := by
    intro k t ht hleft
    obtain ⟨e, he, rfl⟩ := hexecution _ t ht
    have hpoint : e.point ≠ .queued := fun hq ↦
      hleft ((queue_phase he).trans (Point.jobPhase_eq_waiting.mpr hq))
    obtain ⟨m, hm, hinput | ⟨e', he', hsettled⟩⟩ := hfair.settles _ _ e he hpoint
    · exact absurd hinput (hno m (by omega))
    · obtain ⟨d, rfl⟩ := Nat.exists_eq_add_of_le (show n ≤ m by omega)
      exact ⟨d, by omega, (queue_phase he').trans (Point.jobPhase_eq_settled.mpr hsettled)⟩
  have hleaves : ∀ k, ∀ t ∈ (run k).tickets, (∀ p ∈ t.predecessors, (run k).phase p = .settled) →
      ∃ m ≥ k, (run m).phase t.id ≠ .waiting := by
    intro k t ht hall
    obtain ⟨e, he, rfl⟩ := hexecution _ t ht
    by_cases hpoint : e.point = .queued
    rotate_left
    · refine ⟨k, le_rfl, fun hwaiting ↦ hpoint (Point.jobPhase_eq_waiting.mp ?_)⟩
      exact (queue_phase he).symm.trans hwaiting
    obtain ⟨m, hm, hinput | hinput⟩ := hfair.continues _ _ e he hpoint fun p hp ↦
      queue_phase_settled.mp (hall p hp)
    · exact absurd hinput (hno m (by omega))
    obtain ⟨d, rfl⟩ := Nat.exists_eq_add_of_le (show n ≤ m by omega)
    have hkd : k ≤ d := by omega
    obtain ⟨e₁, he₁, heq⟩ := hexecution _ _ (KeyedQueue.mem_of_le hmoves hkd ht)
    by_cases hpoint₁ : e₁.point = .queued
    rotate_left
    · refine ⟨d, hkd, fun hwaiting ↦ hpoint₁ (Point.jobPhase_eq_waiting.mp ?_)⟩
      exact (queue_phase he₁).symm.trans hwaiting
    have hall₁ := KeyedQueue.predecessors_of_le hordered hmoves hkd ht hall
    have hid : e.runId = e₁.runId := congrArg Ticket.id heq
    have hpredecessors : e.predecessors = e₁.predecessors := congrArg Ticket.predecessors heq
    refine ⟨d + 1, by omega, ?_⟩
    change (afterFirst H O inputs (n + d + 1)).queue.phase e.runId ≠ .waiting
    rw [afterFirst_succ, hinput, Execution.ticket, hid]
    exact step_predecessorsSettled (hreachable _) (hid ▸ he₁) hpoint₁ (hpredecessors ▸ hall₁)
  obtain ⟨ht, rfl⟩ := (hreachable n).mem_tickets he
  obtain ⟨m, -, hsettled⟩ := KeyedQueue.progress hordered hmoves hsettles hleaves 0 _ ht
  obtain ⟨k, -, -, hwaiting, hleft⟩ := exists_last (p := fun k ↦
      (run k).phase e.ticket.id = .waiting) (Nat.zero_le m)
    ((queue_phase he).trans (Point.jobPhase_eq_waiting.mpr hqueued))
    (fun hwaiting ↦ absurd (hsettled.symm.trans hwaiting) (by simp))
  obtain ⟨e₁, he₁, -⟩ := hexecution (n + k) _ (KeyedQueue.mem_of_le hmoves (Nat.zero_le k) ht)
  obtain ⟨e₂, he₂, -⟩ :=
    hexecution (n + (k + 1)) _ (KeyedQueue.mem_of_le hmoves (Nat.zero_le (k + 1)) ht)
  have hqueued₁ := Point.jobPhase_eq_waiting.mp ((queue_phase he₁).symm.trans hwaiting)
  refine ⟨n + k, Nat.le_add_right n k, Or.inr ⟨e₂, he₂, fun hq ↦ hleft ?_, fun hdone ↦ ?_⟩⟩
  · exact (queue_phase he₂).trans (Point.jobPhase_eq_waiting.mpr hq)
  · rw [← Nat.add_assoc, afterFirst_succ] at he₂
    rw [afterFirst_succ]
    exact step_left (hreachable _) (hno _ (Nat.le_add_right n k)) he₁ hqueued₁ he₂ hdone

end Service

end LiteHarness
