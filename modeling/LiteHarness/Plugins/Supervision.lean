import LiteHarness.Plugins.LazySupervisor

/-!
# One worker at a time

An invocation is counted from when it is accepted until its worker call is over, and `#stopWorker` goes
on only where none is counted. So a worker that is being started, or that an invocation is on its way
to, is not the one that a stop picks; and an invocation that awaits its own stop is not counted, so that
no stop waits for it.
-/

namespace LiteHarness.Plugins

namespace Supervisor

variable {o : SupervisorOptions} {W W' : Supervisor} {rest rest' : List ℕ} {n m w : ℕ}

/-! ## Stages -/

/-- The invocation awaits a stop that is under way. -/
def AwaitsOwnStop (W : Supervisor) (n : ℕ) : Prop :=
  W.stopPromise.isSome ∧ ∃ call ∈ W.stops, call.caller = .invocation n

/-- What is true of an invocation at a stage, where `rest` are those that wait for a stop. -/
def StageOk (W : Supervisor) (rest : List ℕ) (n : ℕ) : InvocationStage → Prop
  | .idle | .settled | .failed _ => n ∉ W.accepted ∧ n ∉ rest
  | .waiting => n ∉ W.accepted ∧ n ∈ rest
  | .starting w => n ∈ W.accepted ∧ n ∉ rest ∧ W.startingWorker = some w
  | .refused | .running _ => n ∈ W.accepted ∧ n ∉ rest
  | .dispatching w => n ∈ W.accepted ∧ n ∉ rest ∧ W.worker = some w
  | .failing => n ∉ W.accepted ∧ n ∉ rest ∧ W.AwaitsOwnStop n

/-- What a step leaves to an invocation. -/
structure Spares (W W' : Supervisor) (rest rest' : List ℕ) (n : ℕ) : Prop where
  accepted : n ∈ W.accepted ↔ n ∈ W'.accepted
  rest : n ∈ rest ↔ n ∈ rest'
  start : ∀ w, W.startingWorker = some w → W'.startingWorker = some w
  worker : ∀ w, W.worker = some w → W'.worker = some w
  stop : W.AwaitsOwnStop n → W'.AwaitsOwnStop n

theorem StageOk.spared {stage : InvocationStage} (h : W.StageOk rest n stage)
    (hspares : Spares W W' rest rest' n) : W'.StageOk rest' n stage := by
  obtain ⟨haccepted, hrest, hstart, hworker, hstop⟩ := hspares
  cases stage with
  | idle => exact ⟨fun h' ↦ h.1 (haccepted.mpr h'), fun h' ↦ h.2 (hrest.mpr h')⟩
  | waiting => exact ⟨fun h' ↦ h.1 (haccepted.mpr h'), hrest.mp h.2⟩
  | starting w =>
    exact ⟨haccepted.mp h.1, fun h' ↦ h.2.1 (hrest.mpr h'), hstart w h.2.2⟩
  | refused => exact ⟨haccepted.mp h.1, fun h' ↦ h.2 (hrest.mpr h')⟩
  | dispatching w =>
    exact ⟨haccepted.mp h.1, fun h' ↦ h.2.1 (hrest.mpr h'), hworker w h.2.2⟩
  | running w => exact ⟨haccepted.mp h.1, fun h' ↦ h.2 (hrest.mpr h')⟩
  | failing =>
    exact ⟨fun h' ↦ h.1 (haccepted.mpr h'), fun h' ↦ h.2.1 (hrest.mpr h'), hstop h.2.2⟩
  | failed s => exact ⟨fun h' ↦ h.1 (haccepted.mpr h'), fun h' ↦ h.2 (hrest.mpr h')⟩
  | settled => exact ⟨fun h' ↦ h.1 (haccepted.mpr h'), fun h' ↦ h.2 (hrest.mpr h')⟩

theorem StageOk.mem_iff {stage : InvocationStage} (h : W.StageOk rest n stage) :
    n ∈ W.accepted ↔ stage.Counted := by
  cases stage with
  | starting w | dispatching w => exact iff_of_true h.1 trivial
  | refused | running w => exact iff_of_true h.1 trivial
  | idle | waiting | failed s | settled => exact iff_of_false h.1 id
  | failing => exact iff_of_false h.1 id

theorem StageOk.mem_rest_iff {stage : InvocationStage} (h : W.StageOk rest n stage) :
    n ∈ rest ↔ stage = .waiting := by
  cases stage with
  | waiting => exact iff_of_true h.2 rfl
  | starting w | dispatching w | failing => exact iff_of_false h.2.1 nofun
  | refused | running w | idle | failed s | settled => exact iff_of_false h.2 nofun

/-! ## Workers -/

/-- The workers that are held on to. -/
def held (W : Supervisor) : List ℕ :=
  W.worker.toList ++ W.cleanupWorker.toList ++ W.startingWorker.toList

/-- What is always true of the workers. -/
structure WorkersOk (W : Supervisor) : Prop where
  live : W.live = W.held
  single : W.held.length ≤ 1
  fresh : ∀ w, W.worker = some w ∨ W.startPromise = some ⟨w, .starting⟩ → w ∉ W.stopCalls
  made : ∀ w, w ∈ W.held ∨ w ∈ W.stopCalls → w < W.made

/-- Where there is a worker, there is no other one. -/
theorem WorkersOk.alone (h : W.WorkersOk) (hw : W.worker = some w) :
    W.cleanupWorker = none ∧ W.startingWorker = none := by
  have hsingle := h.single
  rw [held, hw] at hsingle
  rcases hc : W.cleanupWorker with _ | c <;> rcases hs : W.startingWorker with _ | s <;>
    simp [hc, hs] at hsingle ⊢

theorem WorkersOk.alone_cleanup (h : W.WorkersOk) (hw : W.cleanupWorker = some w) :
    W.worker = none ∧ W.startingWorker = none := by
  have hsingle := h.single
  rw [held, hw] at hsingle
  rcases hc : W.worker with _ | c <;> rcases hs : W.startingWorker with _ | s <;>
    simp [hc, hs] at hsingle ⊢

theorem WorkersOk.alone_starting (h : W.WorkersOk) (hw : W.startingWorker = some w) :
    W.worker = none ∧ W.cleanupWorker = none := by
  have hsingle := h.single
  rw [held, hw] at hsingle
  rcases hc : W.worker with _ | c <;> rcases hs : W.cleanupWorker with _ | s <;>
    simp [hc, hs] at hsingle ⊢

/-- How the stop goes on. -/
def StopOk (W : Supervisor) : Prop :=
  match W.stopPromise with
  | none => True
  | some .draining => W.accepted ≠ []
  | some .drained => W.accepted = []
  | some (.stopping w) => W.accepted = [] ∧ W.cleanupWorker = some w

/-- **What is true between two steps**, where `rest` are the invocations that wait for a stop. -/
structure Inv (W : Supervisor) (rest : List ℕ) : Prop where
  stages : ∀ n, W.StageOk rest n (W.invocations n)
  nodup : W.accepted.Nodup
  nodupRest : rest.Nodup
  /-- A start is awaited by an invocation that is counted. -/
  awaited : ∀ w, W.startingWorker = some w → ∃ n, W.invocations n = .starting w
  workers : W.WorkersOk
  stop : W.StopOk
  dispatched : ∀ dispatch ∈ W.dispatches, dispatch.2 = false
  resolved : ∀ r ∈ W.resolved, r.counted = [] ∧ r.live = []

/-- Timers, the backoff and what is caught do not matter. -/
theorem Inv.aside (h : W.Inv rest) (timer : Option SupervisorTimer) (failures retryAt : ℕ)
    (failed catching : List ℕ) :
    Inv { W with
      idleTimer := timer
      failures := failures
      retryAt := retryAt
      failedWorkers := failed
      catching := catching } rest :=
  ⟨h.stages, h.nodup, h.nodupRest, h.awaited, ⟨h.workers.live, h.workers.single, h.workers.fresh,
    h.workers.made⟩, h.stop, h.dispatched, h.resolved⟩

theorem Inv.mem_iff (h : W.Inv rest) (n : ℕ) : n ∈ W.accepted ↔ (W.invocations n).Counted :=
  (h.stages n).mem_iff

theorem Inv.mem_rest_iff (h : W.Inv rest) (n : ℕ) : n ∈ rest ↔ W.invocations n = .waiting :=
  (h.stages n).mem_rest_iff

/-- Where no invocation is counted, no worker is being started. -/
theorem Inv.startingWorker_eq_none (h : W.Inv rest) (haccepted : W.accepted = []) :
    W.startingWorker = none := by
  rcases hw : W.startingWorker with _ | w
  · rfl
  · obtain ⟨n, hn⟩ := h.awaited w hw
    have hmem : n ∈ W.accepted := (h.mem_iff n).mpr (by rw [hn]; trivial)
    rw [haccepted] at hmem
    exact absurd hmem List.not_mem_nil

theorem goTo_self (n : ℕ) (stage : InvocationStage) : (W.goTo n stage).invocations n = stage := by
  show Function.update W.invocations n stage n = stage
  rw [Function.update_self]

theorem goTo_of_ne (stage : InvocationStage) (hne : m ≠ n) :
    (W.goTo n stage).invocations m = W.invocations m := by
  show Function.update W.invocations n stage m = W.invocations m
  rw [Function.update_of_ne hne]

/-- **One invocation goes on**, and the others are spared. -/
theorem Inv.act {stage : InvocationStage} (h : W.Inv rest) (n : ℕ)
    (hinvocations : W'.invocations = Function.update W.invocations n stage)
    (hothers : ∀ m, m ≠ n → Spares W W' rest rest' m) (hown : W'.StageOk rest' n stage)
    (hnodup : W'.accepted.Nodup) (hrest : rest'.Nodup)
    (hawaited : ∀ w, W'.startingWorker = some w →
      stage = .starting w ∨ W.startingWorker = some w ∧ W.invocations n ≠ .starting w)
    (hworkers : W'.WorkersOk) (hstop : W'.StopOk)
    (hdispatched : ∀ dispatch ∈ W'.dispatches, dispatch.2 = false)
    (hresolved : W'.resolved = W.resolved) : W'.Inv rest' where
  stages m := by
    rw [hinvocations]
    by_cases hm : m = n
    · subst hm
      rw [Function.update_self]
      exact hown
    · rw [Function.update_of_ne hm]
      exact (h.stages m).spared (hothers m hm)
  nodup := hnodup
  nodupRest := hrest
  awaited w hw := by
    rcases hawaited w hw with rfl | ⟨hbefore, hne⟩
    · exact ⟨n, by rw [hinvocations, Function.update_self]⟩
    · obtain ⟨m, hm⟩ := h.awaited w hbefore
      refine ⟨m, ?_⟩
      rw [hinvocations, Function.update_of_ne]
      · exact hm
      · rintro rfl
        exact hne hm
  workers := hworkers
  stop := hstop
  dispatched := hdispatched
  resolved := by rw [hresolved]; exact h.resolved

/-- The stage of an invocation changes, and nothing else. -/
theorem Inv.restage (h : W.Inv rest) (stage : InvocationStage) (hown : W.StageOk rest n stage)
    (hne : ∀ w, W.invocations n ≠ .starting w) : (W.goTo n stage).Inv rest :=
  h.act n rfl (fun _ _ ↦ ⟨Iff.rfl, Iff.rfl, fun _ ↦ id, fun _ ↦ id, id⟩) hown h.nodup h.nodupRest
    (fun w hw ↦ Or.inr ⟨hw, hne w⟩) ⟨h.workers.live, h.workers.single, h.workers.fresh,
      h.workers.made⟩ h.stop h.dispatched rfl

/-! ## `invoke` -/

theorem mem_cons_iff_of_ne {l : List ℕ} (hne : m ≠ n) : m ∈ l ↔ m ∈ n :: l := by
  rw [List.mem_cons, or_iff_right hne]

/-- An invocation that has waited throws. -/
theorem Inv.turnAway (h : W.Inv (n :: rest)) : (W.goTo n .settled).Inv rest := by
  obtain ⟨hnotMem, hrest⟩ := List.nodup_cons.mp h.nodupRest
  have hwaiting : W.invocations n = .waiting := (h.mem_rest_iff n).mp List.mem_cons_self
  have hnot : n ∉ W.accepted := by
    rw [h.mem_iff, hwaiting]
    exact id
  refine h.act n rfl (fun m hm ↦ ?_) ⟨hnot, hnotMem⟩ h.nodup hrest
    (fun w hw ↦ Or.inr ⟨hw, ?_⟩) ⟨h.workers.live, h.workers.single, h.workers.fresh,
      h.workers.made⟩ h.stop h.dispatched rfl
  · exact ⟨Iff.rfl, (mem_cons_iff_of_ne hm).symm, fun _ ↦ id, fun _ ↦ id, id⟩
  · rw [hwaiting]
    nofun

/-- **An invocation is accepted** while no stop is under way. What it does to the workers is given. -/
theorem Inv.accept {stage : InvocationStage} (h : W.Inv (n :: rest)) (hstop : W.stopPromise = none)
    (hinvocations : W'.invocations = Function.update W.invocations n stage)
    (haccepted : W'.accepted = n :: W.accepted) (hstop' : W'.stopPromise = none)
    (hown : W'.StageOk rest n stage)
    (hstart : ∀ w, W.startingWorker = some w → W'.startingWorker = some w)
    (hworker : W'.worker = W.worker)
    (hawaited : ∀ w, W'.startingWorker = some w →
      stage = .starting w ∨ W.startingWorker = some w)
    (hworkers : W'.WorkersOk) (hdispatches : W'.dispatches = W.dispatches)
    (hresolved : W'.resolved = W.resolved) : W'.Inv rest := by
  obtain ⟨hnotMem, hrest⟩ := List.nodup_cons.mp h.nodupRest
  have hwaiting : W.invocations n = .waiting := (h.mem_rest_iff n).mp List.mem_cons_self
  have hnot : n ∉ W.accepted := by
    rw [h.mem_iff, hwaiting]
    exact id
  refine h.act n hinvocations (fun m hm ↦ ⟨?_, (mem_cons_iff_of_ne hm).symm, hstart, ?_, ?_⟩) hown
    ?_ hrest (fun w hw ↦ (hawaited w hw).imp_right fun hw' ↦ ⟨hw', ?_⟩) hworkers ?_ ?_ hresolved
  · rw [haccepted]
    exact mem_cons_iff_of_ne hm
  · rw [hworker]
    exact fun _ ↦ id
  · intro hawaits
    have hsome := hawaits.1
    rw [hstop] at hsome
    exact absurd hsome Bool.false_ne_true
  · rw [haccepted]
    exact List.nodup_cons.mpr ⟨hnot, h.nodup⟩
  · rw [hwaiting]
    nofun
  · rw [StopOk, hstop']
    trivial
  · rw [hdispatches]
    exact h.dispatched

theorem startingWorker_eq_some_iff :
    W.startingWorker = some w ↔
      W.startPromise = some ⟨w, .starting⟩ ∨ W.startPromise = some ⟨w, .stopping⟩ := by
  rw [startingWorker]
  rcases W.startPromise with _ | ⟨v, phase⟩
  · simp
  · cases phase <;> simp

theorem startingWorker_of_failed (h : W.startPromise = some ⟨w, .failed⟩) :
    W.startingWorker = none := by
  rw [startingWorker, h]
  rfl

/-- The worker the factory has made is being started. -/
def started (W : Supervisor) : Supervisor :=
  { W with
    startPromise := some ⟨W.made, .starting⟩
    made := W.made + 1
    live := W.made :: W.live }

/-- The factory has made a worker, where there was none. -/
theorem WorkersOk.start (h : W.WorkersOk) (hworker : W.worker = none)
    (hcleanup : W.cleanupWorker = none) (hstart : W.startingWorker = none) :
    W.started.WorkersOk := by
  have hheld : W.held = [] := by rw [held, hworker, hcleanup, hstart]; rfl
  have hheld' : W.started.held = [W.made] := by
    show W.worker.toList ++ W.cleanupWorker.toList ++ [W.made] = [W.made]
    rw [hworker, hcleanup]
    rfl
  refine ⟨?_, ?_, ?_, ?_⟩
  · show W.made :: W.live = _
    rw [hheld', h.live, hheld]
  · rw [hheld']
    exact Nat.le_refl _
  · rintro w (hw | hw) hmem
    · exact absurd (hw.symm.trans hworker) (Option.some_ne_none w)
    · -- A new worker has a number that no stop has seen.
      obtain rfl : W.made = w := congrArg StartPromise.worker (Option.some.inj hw)
      exact Nat.lt_irrefl _ (h.made _ (Or.inr hmem))
  · rintro w (hw | hw)
    · rw [hheld', List.mem_singleton] at hw
      rw [hw]
      exact Nat.lt_succ_self _
    · exact Nat.lt_succ_of_lt (h.made w (Or.inr hw))

theorem ensureWorker_cases (W : Supervisor) (n : ℕ) (arrival : Arrival) :
    (∃ w, W.worker = some w ∧ W.ensureWorker n arrival = W.goTo n (.dispatching w)) ∨
    W.ensureWorker n arrival = W.goTo n .refused ∨
    (∃ w, W.startingWorker = some w ∧ W.ensureWorker n arrival = W.goTo n (.starting w)) ∨
    (W.worker = none ∧ W.cleanupWorker = none ∧ W.startingWorker = none ∧
      W.ensureWorker n arrival = W.started.goTo n (.starting W.made)) := by
  rcases hworker : W.worker with _ | w
  · by_cases hcleanup : W.cleanupWorker.isSome
    · exact Or.inr (Or.inl (by simp only [ensureWorker, hworker, if_pos hcleanup]))
    · rcases hstart : W.startPromise with _ | ⟨w, phase⟩
      · by_cases hmakes : arrival.makes
        · refine Or.inr (Or.inr (Or.inr ⟨rfl, Option.not_isSome_iff_eq_none.mp hcleanup, ?_, ?_⟩))
          · rw [startingWorker, hstart]
            rfl
          · simp only [ensureWorker, started, hworker, if_neg hcleanup, hstart, if_pos hmakes]
        · refine Or.inr (Or.inl ?_)
          simp only [ensureWorker, hworker, if_neg hcleanup, hstart, if_neg hmakes]
      · cases phase with
        | failed =>
          exact Or.inr (Or.inl (by simp only [ensureWorker, hworker, if_neg hcleanup, hstart]))
        | starting =>
          refine Or.inr (Or.inr (Or.inl ⟨w, startingWorker_eq_some_iff.mpr (Or.inl hstart), ?_⟩))
          simp only [ensureWorker, hworker, if_neg hcleanup, hstart]
        | stopping =>
          refine Or.inr (Or.inr (Or.inl ⟨w, startingWorker_eq_some_iff.mpr (Or.inr hstart), ?_⟩))
          simp only [ensureWorker, hworker, if_neg hcleanup, hstart]
  · exact Or.inl ⟨w, rfl, by simp only [ensureWorker, hworker]⟩

/-- The invocation is counted. -/
def counting (W : Supervisor) (n : ℕ) : Supervisor :=
  { W with accepted := n :: W.accepted, admitted := n :: W.admitted, idleTimer := none }

theorem Inv.ensureWorker (h : W.Inv (n :: rest)) (hstop : W.stopPromise = none)
    (arrival : Arrival) :
    ((W.counting n).ensureWorker n arrival).Inv rest ∧
      ((W.counting n).ensureWorker n arrival).stopPromise = none := by
  have hnotMem : n ∉ rest := (List.nodup_cons.mp h.nodupRest).1
  obtain ⟨hlive, hsingle, hfresh, hmade⟩ := h.workers
  rcases ensureWorker_cases (W.counting n) n arrival with
    ⟨w, hworker, heq⟩ | heq | ⟨w, hw, heq⟩ | ⟨hworker, hcleanup, hnone, heq⟩ <;> rw [heq]
  · exact ⟨h.accept hstop rfl rfl hstop
      ⟨List.mem_cons_self, hnotMem, hworker⟩ (fun _ ↦ id) rfl (fun _ ↦ Or.inr)
      ⟨hlive, hsingle, hfresh, hmade⟩ rfl rfl, hstop⟩
  · exact ⟨h.accept hstop rfl rfl hstop ⟨List.mem_cons_self, hnotMem⟩
      (fun _ ↦ id) rfl (fun _ ↦ Or.inr) ⟨hlive, hsingle, hfresh, hmade⟩ rfl rfl, hstop⟩
  · exact ⟨h.accept hstop rfl rfl hstop
      ⟨List.mem_cons_self, hnotMem, hw⟩ (fun _ ↦ id) rfl (fun _ ↦ Or.inr)
      ⟨hlive, hsingle, hfresh, hmade⟩ rfl rfl, hstop⟩
  · refine ⟨h.accept hstop rfl rfl hstop
      ⟨List.mem_cons_self, hnotMem, rfl⟩ (fun w hw ↦ ?_) rfl (fun w hw ↦ ?_) ?_ rfl rfl, hstop⟩
    · exact absurd (hw.symm.trans hnone) (Option.some_ne_none w)
    · exact Or.inl (congrArg InvocationStage.starting (Option.some.inj hw))
    · obtain ⟨hlive', hsingle', hfresh', hmade'⟩ := h.workers.start hworker hcleanup hnone
      exact ⟨hlive', hsingle', hfresh', hmade'⟩

/-- **An invocation that finds no stop under way** is accepted or turned away. -/
theorem Inv.arrive (h : W.Inv (n :: rest)) (hstop : W.stopPromise = none) (arrival : Arrival) :
    (W.arrive n arrival).Inv rest ∧ (W.arrive n arrival).stopPromise = none := by
  rw [Supervisor.arrive]
  by_cases hcleanup : W.cleanupWorker.isSome
  · rw [if_pos hcleanup]
    exact ⟨h.turnAway, hstop⟩
  · rw [if_neg hcleanup]
    by_cases hbackoff : arrival.now < W.retryAt
    · rw [if_pos hbackoff]
      exact ⟨h.turnAway, hstop⟩
    · rw [if_neg hbackoff]
      exact h.ensureWorker hstop arrival

/-- Those that have waited are resumed one after the other. -/
theorem Inv.arriveAll (arrivals : ℕ → Arrival) (h : W.Inv rest) (hstop : W.stopPromise = none) :
    (rest.foldl (fun W' n ↦ W'.arrive n (arrivals n)) W).Inv [] := by
  induction rest generalizing W with
  | nil => exact h
  | cons n rest ih =>
    obtain ⟨harrived, hstop'⟩ := h.arrive hstop (arrivals n)
    exact ih harrived hstop'

/-! ## `stop` -/

theorem AwaitsOwnStop.stop (h : W.AwaitsOwnStop n) (caller : StopCaller) :
    (W.stop caller).AwaitsOwnStop n := by
  obtain ⟨hsome, call, hmem, hcaller⟩ := h
  obtain ⟨phase, hphase⟩ := Option.isSome_iff_exists.mp hsome
  simp only [Supervisor.stop, hphase, AwaitsOwnStop]
  exact ⟨rfl, call, List.mem_append_left _ hmem, hcaller⟩

/-- Who calls `stop()` awaits it. -/
theorem awaitsOwnStop_stop (W : Supervisor) (n : ℕ) :
    (W.stop (.invocation n)).AwaitsOwnStop n := by
  rcases hphase : W.stopPromise with _ | phase
  · simp only [Supervisor.stop, hphase, AwaitsOwnStop]
    exact ⟨rfl, _, List.mem_singleton_self _, rfl⟩
  · simp only [Supervisor.stop, hphase, AwaitsOwnStop]
    exact ⟨rfl, _, List.mem_append_right _ (List.mem_singleton_self _), rfl⟩

/-- What `stop()` leaves as it is. -/
theorem stop_eq (W : Supervisor) (caller : StopCaller) :
    ∃ timer phase calls, W.stop caller =
      { W with idleTimer := timer, stopPromise := phase, stops := calls } := by
  rcases hphase : W.stopPromise with _ | phase
  · exact ⟨_, _, _, by simp only [Supervisor.stop, hphase]; rfl⟩
  · exact ⟨W.idleTimer, some phase, _, by simp only [Supervisor.stop, hphase]; rfl⟩

theorem StopOk.stop (h : W.StopOk) (caller : StopCaller) : (W.stop caller).StopOk := by
  rcases hphase : W.stopPromise with _ | phase
  · simp only [Supervisor.stop, hphase, StopOk]
    by_cases haccepted : W.acceptedInvocations = 0
    · rw [if_pos haccepted]
      exact List.length_eq_zero_iff.mp haccepted
    · rw [if_neg haccepted]
      exact fun hnil ↦ haccepted (List.length_eq_zero_iff.mpr hnil)
  · have hsame : (W.stop caller).StopOk = W.StopOk := by
      simp only [Supervisor.stop, hphase, StopOk]
    rw [hsame]
    exact h

/-- **A call of `stop()`.** -/
theorem Inv.stopCalled (h : W.Inv rest) (caller : StopCaller) : (W.stop caller).Inv rest := by
  have hawaits := fun n (hn : W.AwaitsOwnStop n) ↦ hn.stop caller
  have hstop := h.stop.stop caller
  obtain ⟨timer, phase, calls, heq⟩ := stop_eq W caller
  rw [heq] at hstop hawaits ⊢
  exact {
    stages := fun n ↦ (h.stages n).spared ⟨Iff.rfl, Iff.rfl, fun _ ↦ id, fun _ ↦ id, hawaits n⟩
    nodup := h.nodup
    nodupRest := h.nodupRest
    awaited := h.awaited
    workers := ⟨h.workers.live, h.workers.single, h.workers.fresh, h.workers.made⟩
    stop := hstop
    dispatched := h.dispatched
    resolved := h.resolved }

/-! ## The end of the worker's call -/

theorem StopOk.release (h : W.StopOk) (hmem : n ∈ W.accepted) :
    (W.releaseInvocation n).StopOk := by
  have hne : W.accepted ≠ [] := List.ne_nil_of_mem hmem
  simp only [releaseInvocation, StopOk] at h ⊢
  by_cases hdrained : W.accepted.erase n = [] ∧ W.stopPromise = some .draining
  · rw [if_pos hdrained]
    exact hdrained.1
  · rw [if_neg hdrained]
    rcases hphase : W.stopPromise with _ | _ | _ | w
    · trivial
    · exact fun hnil ↦ hdrained ⟨hnil, hphase⟩
    · rw [hphase] at h
      exact absurd h hne
    · rw [hphase] at h
      exact absurd h.1 hne

/-- **An invocation is no longer counted**, whose start is over. -/
theorem Inv.release (h : W.Inv rest) (hcounted : (W.invocations n).Counted)
    (hstart : ∀ w, W.invocations n ≠ .starting w) :
    ((W.releaseInvocation n).goTo n .settled).Inv rest := by
  have hmem : n ∈ W.accepted := (h.mem_iff n).mpr hcounted
  have hrest : n ∉ rest := by
    rw [h.mem_rest_iff]
    intro hwaiting
    rw [hwaiting] at hcounted
    exact hcounted
  refine h.act n rfl (fun m hm ↦ ⟨?_, Iff.rfl, fun _ ↦ id, fun _ ↦ id, ?_⟩)
    ⟨?_, hrest⟩ (h.nodup.erase n) h.nodupRest (fun w hw ↦ Or.inr ⟨hw, hstart w⟩)
    ⟨h.workers.live, h.workers.single, h.workers.fresh, h.workers.made⟩ (h.stop.release hmem)
    h.dispatched rfl
  · exact (List.mem_erase_of_ne hm).symm
  · rintro ⟨hsome, hcall⟩
    refine ⟨?_, hcall⟩
    show (ite _ _ _ : Option StopPhase).isSome = true
    split
    · rfl
    · exact hsome
  · exact fun hmem' ↦ (List.Nodup.mem_erase_iff h.nodup).mp hmem' |>.1 rfl

theorem stop_goTo (W : Supervisor) (n : ℕ) (stage : InvocationStage) (caller : StopCaller) :
    (W.goTo n stage).stop caller = (W.stop caller).goTo n stage := by
  rcases hphase : W.stopPromise with _ | phase
  · simp only [Supervisor.stop, goTo, hphase]
    rfl
  · simp only [Supervisor.stop, goTo, hphase]

theorem goTo_goTo (W : Supervisor) (n : ℕ) (stage stage' : InvocationStage) :
    (W.goTo n stage).goTo n stage' = W.goTo n stage' := by
  simp only [goTo, Function.update_idem]

theorem armIdleTimer_eq (o : SupervisorOptions) (W : Supervisor) :
    ∃ timer, W.armIdleTimer o = { W with idleTimer := timer } := by
  rw [armIdleTimer]
  split
  · exact ⟨W.idleTimer, rfl⟩
  · split
    · exact ⟨W.idleTimer, rfl⟩
    · exact ⟨_, rfl⟩

theorem armCleanupRetry_eq (W : Supervisor) (w : ℕ) :
    ∃ timer, W.armCleanupRetry w = { W with idleTimer := timer } := by
  rw [armCleanupRetry]
  split
  · exact ⟨W.idleTimer, rfl⟩
  · exact ⟨_, rfl⟩

theorem succeed_eq (o : SupervisorOptions) (W : Supervisor) (n w : ℕ) :
    ∃ failures retryAt timer, W.succeed o n w =
      ({ W with
        failures := failures
        retryAt := retryAt
        idleTimer := timer }.releaseInvocation n).goTo n .settled := by
  have hreset : ∃ failures retryAt,
      (if w ∈ W.failedWorkers then W else { W with failures := 0, retryAt := 0 }) =
        { W with failures := failures, retryAt := retryAt } := by
    split
    · exact ⟨W.failures, W.retryAt, rfl⟩
    · exact ⟨0, 0, rfl⟩
  obtain ⟨failures, retryAt, hreset⟩ := hreset
  refine ⟨failures, retryAt, ?_⟩
  simp only [succeed, hreset]
  split
  · obtain ⟨timer, harm⟩ :=
      armIdleTimer_eq o ({ W with failures := failures, retryAt := retryAt }.releaseInvocation n)
    exact ⟨timer, by rw [harm]; rfl⟩
  · exact ⟨W.idleTimer, rfl⟩

theorem Inv.succeed (h : W.Inv rest) (hrunning : W.invocations n = .running w) :
    (W.succeed o n w).Inv rest := by
  obtain ⟨failures, retryAt, timer, heq⟩ := succeed_eq o W n w
  rw [heq]
  have hcounted : (W.invocations n).Counted := by
    rw [hrunning]
    trivial
  exact (h.aside timer failures retryAt W.failedWorkers W.catching).release hcounted fun _ ↦
    hrunning.trans_ne nofun

theorem stop_invocations (W : Supervisor) (caller : StopCaller) :
    (W.stop caller).invocations = W.invocations := by
  obtain ⟨timer, phase, calls, heq⟩ := stop_eq W caller
  rw [heq]

/-- An invocation that is no longer counted calls `stop()`. -/
theorem Inv.stopOwn (h : (W.goTo n .settled).Inv rest) :
    ((W.goTo n .failing).stop (.invocation n)).Inv rest := by
  have hstopped := h.stopCalled (.invocation n)
  have hstage : ((W.goTo n .settled).stop (.invocation n)).invocations n = .settled := by
    rw [stop_invocations, goTo_self]
  have hsettled := hstopped.stages n
  rw [hstage] at hsettled
  have hfailing := hstopped.restage .failing
    ⟨hsettled.1, hsettled.2, awaitsOwnStop_stop _ n⟩ fun w ↦ hstage.trans_ne nofun
  rw [stop_goTo, goTo_goTo] at hfailing
  rw [stop_goTo]
  exact hfailing

theorem Inv.fail (h : W.Inv rest) (now : ℕ) (worker : Option ℕ)
    (hcounted : (W.invocations n).Counted) (hstart : ∀ w, W.invocations n ≠ .starting w) :
    (W.fail o n now worker).Inv rest := by
  have hnoted := h.aside W.idleTimer (W.failures + 1)
    (now + min (2 ^ W.failures * max 1 o.crashBackoffBaseMs)
      (max (max 1 o.crashBackoffBaseMs) o.crashBackoffMaxMs))
    (worker.toList ++ W.failedWorkers) W.catching
  exact (hnoted.release hcounted hstart).stopOwn

/-! ## The start of a worker -/

theorem StopOk.of_counted (h : W.StopOk) (hmem : n ∈ W.accepted)
    (haccepted : W'.accepted = W.accepted) (hstop : W'.stopPromise = W.stopPromise) :
    W'.StopOk := by
  have hne : W.accepted ≠ [] := List.ne_nil_of_mem hmem
  rw [StopOk] at h ⊢
  rw [hstop, haccepted]
  rcases hphase : W.stopPromise with _ | _ | _ | w <;> rw [hphase] at h
  · trivial
  · exact hne
  · exact absurd h hne
  · exact absurd h.1 hne

/-- **A start is over**, and those that await it go on. What it does to the workers is given. -/
theorem Inv.startOver {stage : InvocationStage} (h : W.Inv rest) (hstart : W.startingWorker = some w)
    (hinvocations : ∀ n, W'.invocations n =
      if W.invocations n = .starting w then stage else W.invocations n)
    (hstage : stage = .refused ∨ stage = .dispatching w ∧ W'.worker = some w)
    (haccepted : W'.accepted = W.accepted) (hphase : W'.stopPromise = W.stopPromise)
    (hstops : W'.stops = W.stops) (hover : W'.startingWorker = none) (hworkers : W'.WorkersOk)
    (hdispatches : W'.dispatches = W.dispatches) (hresolved : W'.resolved = W.resolved) :
    W'.Inv rest where
  stages n := by
    rw [hinvocations]
    by_cases hn : W.invocations n = .starting w
    · have hok := h.stages n
      rw [hn] at hok
      rw [if_pos hn]
      rcases hstage with rfl | ⟨rfl, hworker⟩
      · exact ⟨haccepted ▸ hok.1, hok.2.1⟩
      · exact ⟨haccepted ▸ hok.1, hok.2.1, hworker⟩
    · rw [if_neg hn]
      have hok := h.stages n
      cases hcase : W.invocations n with
      | starting v =>
        rw [hcase] at hok hn
        obtain rfl := Option.some.inj (hstart.symm.trans hok.2.2)
        exact absurd rfl hn
      | dispatching v =>
        -- While a worker is being started, there is none to go to.
        rw [hcase] at hok
        exact absurd (hok.2.2.symm.trans (h.workers.alone_starting hstart).1)
          (Option.some_ne_none v)
      | failing =>
        rw [hcase] at hok
        refine ⟨haccepted ▸ hok.1, hok.2.1, ?_⟩
        rw [AwaitsOwnStop, hphase, hstops]
        exact hok.2.2
      | idle | waiting | refused | running v | failed b | settled =>
        rw [hcase] at hok
        exact ⟨haccepted ▸ hok.1, hok.2⟩
  nodup := by rw [haccepted]; exact h.nodup
  nodupRest := h.nodupRest
  awaited v hv := absurd (hv.symm.trans hover) (Option.some_ne_none v)
  workers := hworkers
  stop := by
    obtain ⟨n, hn⟩ := h.awaited w hstart
    exact h.stop.of_counted ((h.mem_iff n).mpr (by rw [hn]; trivial)) haccepted hphase
  dispatched := by rw [hdispatches]; exact h.dispatched
  resolved := by rw [hresolved]; exact h.resolved

/-- The workers, while one is being started. -/
theorem WorkersOk.held_starting (h : W.WorkersOk) (hw : W.startingWorker = some w) :
    W.held = [w] := by
  obtain ⟨hworker, hcleanup⟩ := h.alone_starting hw
  rw [held, hworker, hcleanup, hw]
  rfl

theorem WorkersOk.lt_made (h : W.WorkersOk) (hw : W.startingWorker = some w) : w < W.made :=
  h.made w (Or.inl (by rw [h.held_starting hw]; exact List.mem_singleton_self w))

/-- One worker is held on to. -/
theorem WorkersOk.one (hlive : W.live = [w]) (hheld : W.held = [w])
    (hfresh : ∀ v, W.worker = some v ∨ W.startPromise = some ⟨v, .starting⟩ → v ∉ W.stopCalls)
    (hmade : w < W.made) (hstopCalls : ∀ v ∈ W.stopCalls, v < W.made) : W.WorkersOk where
  live := hlive.trans hheld.symm
  single := by rw [hheld]; exact Nat.le_refl _
  fresh := hfresh
  made v hv := by
    rcases hv with hv | hv
    · rw [hheld, List.mem_singleton] at hv
      rw [hv]
      exact hmade
    · exact hstopCalls v hv

/-- No worker is held on to. -/
theorem WorkersOk.nobody (hlive : W.live = []) (hheld : W.held = [])
    (hstart : ∀ v, W.startPromise ≠ some ⟨v, .starting⟩)
    (hstopCalls : ∀ v ∈ W.stopCalls, v < W.made) : W.WorkersOk where
  live := hlive.trans hheld.symm
  single := by rw [hheld]; exact Nat.zero_le _
  fresh v hv := by
    have hworker : W.worker = none := by
      rw [held, List.append_assoc] at hheld
      exact Option.toList_eq_nil_iff.mp (List.append_eq_nil_iff.mp hheld).1
    rcases hv with hv | hv
    · exact absurd (hv.symm.trans hworker) (Option.some_ne_none v)
    · exact absurd hv (hstart v)
  made v hv := by
    rcases hv with hv | hv
    · rw [hheld] at hv
      exact absurd hv List.not_mem_nil
    · exact hstopCalls v hv

/-- `worker.start()` has settled. -/
theorem Inv.startSettles (h : W.Inv rest) (started : Bool) : (W.startSettles started).Inv rest := by
  rw [Supervisor.startSettles]
  split
  · rename_i w hstart
    have hw := startingWorker_eq_some_iff.mpr (Or.inl hstart)
    have hlive := h.workers.live.trans (h.workers.held_starting hw)
    have hmade := h.workers.lt_made hw
    have hstopCalls := fun v (hv : v ∈ W.stopCalls) ↦ h.workers.made v (Or.inr hv)
    have hcleanup := (h.workers.alone_starting hw).2
    split
    · refine h.startOver hw (fun _ ↦ rfl) (Or.inr ⟨rfl, rfl⟩) rfl rfl rfl rfl
        (.one hlive ?_ ?_ hmade hstopCalls) rfl rfl
      · show [w] ++ W.cleanupWorker.toList ++ [] = [w]
        rw [hcleanup]
        rfl
      · rintro v (hv | hv)
        · obtain rfl : w = v := Option.some.inj hv
          exact h.workers.fresh w (Or.inr hstart)
        · exact absurd hv.symm (Option.some_ne_none _)
    · -- The start is not over: the worker is to be stopped first.
      have hstarting : startingWorker { W with
          startPromise := some ⟨w, .stopping⟩, stopCalls := w :: W.stopCalls } =
          W.startingWorker := hw.symm
      refine ⟨fun n ↦ (h.stages n).spared ⟨Iff.rfl, Iff.rfl, ?_, fun _ ↦ id, id⟩, h.nodup,
        h.nodupRest, ?_, .one hlive ?_ ?_ hmade ?_, h.stop, h.dispatched, h.resolved⟩
      · rw [hstarting]
        exact fun _ ↦ id
      · rw [hstarting]
        exact h.awaited
      · show W.worker.toList ++ W.cleanupWorker.toList ++ [w] = [w]
        rw [hcleanup, (h.workers.alone_starting hw).1]
        rfl
      · rintro v (hv | hv)
        · exact absurd (hv.symm.trans (h.workers.alone_starting hw).1) (Option.some_ne_none v)
        · exact absurd (congrArg StartPromise.phase (Option.some.inj hv)) nofun
      · rintro v hv
        rcases List.mem_cons.mp hv with rfl | hv
        · exact hmade
        · exact hstopCalls v hv
  · exact h

/-- `worker.stop()` has settled, after a start that failed. -/
theorem Inv.startStopSettles (h : W.Inv rest) (stopped : Bool) :
    (W.startStopSettles stopped).Inv rest := by
  rw [Supervisor.startStopSettles]
  split
  · rename_i w hstart
    have hw := startingWorker_eq_some_iff.mpr (Or.inr hstart)
    have hlive := h.workers.live.trans (h.workers.held_starting hw)
    have hstopCalls := fun v (hv : v ∈ W.stopCalls) ↦ h.workers.made v (Or.inr hv)
    obtain ⟨hworker, hcleanup⟩ := h.workers.alone_starting hw
    split
    · refine h.startOver hw (fun _ ↦ rfl) (Or.inl rfl) rfl rfl rfl rfl
        (.nobody ?_ ?_ ?_ hstopCalls) rfl rfl
      · show W.live.erase w = []
        rw [hlive, List.erase_cons_head]
      · show W.worker.toList ++ W.cleanupWorker.toList ++ [] = []
        rw [hworker, hcleanup]
        rfl
      · exact fun v hv ↦ absurd (congrArg StartPromise.phase (Option.some.inj hv)) nofun
    · refine h.startOver hw (fun _ ↦ rfl) (Or.inl rfl) rfl rfl rfl rfl
        (.one hlive ?_ ?_ (h.workers.lt_made hw) hstopCalls) rfl rfl
      · show W.worker.toList ++ [w] ++ [] = [w]
        rw [hworker]
        rfl
      · rintro v (hv | hv)
        · exact absurd (hv.symm.trans hworker) (Option.some_ne_none v)
        · exact absurd (congrArg StartPromise.phase (Option.some.inj hv)) nofun
  · exact h

theorem Inv.clearStart (h : W.Inv rest) (hstart : W.startPromise = some ⟨w, .failed⟩) :
    Inv { W with startPromise := none } rest := by
  have hnone := startingWorker_of_failed hstart
  have hsame : startingWorker { W with startPromise := none } = W.startingWorker := hnone.symm
  have hheld : held { W with startPromise := none } = W.held := by
    rw [held, hsame]
    rfl
  refine ⟨fun n ↦ (h.stages n).spared ⟨Iff.rfl, Iff.rfl, ?_, fun _ ↦ id, id⟩, h.nodup,
    h.nodupRest, ?_, ⟨h.workers.live.trans hheld.symm, ?_, ?_, ?_⟩, h.stop, h.dispatched,
    h.resolved⟩
  · rw [hsame]
    exact fun _ ↦ id
  · rw [hsame]
    exact h.awaited
  · rw [hheld]
    exact h.workers.single
  · exact fun v hv ↦ h.workers.fresh v (hv.imp_right fun hv' ↦
      absurd hv'.symm (Option.some_ne_none _))
  · rw [hheld]
    exact h.workers.made

/-- **An invocation is dispatched** to a worker that was not told to stop. -/
theorem Inv.dispatch (h : W.Inv rest) (hn : W.invocations n = .dispatching w) :
    Inv ({ W with dispatches := (w, decide (w ∈ W.stopCalls)) :: W.dispatches }.goTo n
      (.running w)) rest := by
  have hok := h.stages n
  rw [hn] at hok
  obtain ⟨hmem, hnot, hworker⟩ := hok
  refine h.act n rfl (fun _ _ ↦ ⟨Iff.rfl, Iff.rfl, fun _ ↦ id, fun _ ↦ id, id⟩) ⟨hmem, hnot⟩
    h.nodup h.nodupRest (fun v hv ↦ Or.inr ⟨hv, hn.trans_ne nofun⟩) ⟨h.workers.live,
      h.workers.single, h.workers.fresh, h.workers.made⟩ h.stop ?_ rfl
  rintro dispatch hdispatch
  rcases List.mem_cons.mp hdispatch with rfl | hdispatch
  · exact decide_eq_false (h.workers.fresh w (Or.inl hworker))
  · exact h.dispatched dispatch hdispatch

/-! ## The worker's stop -/

/-- Where no invocation is counted, the workers may change. -/
theorem StageOk.uncounted {stage : InvocationStage} (h : W.StageOk rest n stage)
    (hnone : W.accepted = []) (haccepted : W'.accepted = [])
    (hstop : W.AwaitsOwnStop n → W'.AwaitsOwnStop n) : W'.StageOk rest n stage := by
  have hmem : n ∉ W.accepted := by rw [hnone]; exact List.not_mem_nil
  have hmem' : n ∉ W'.accepted := by rw [haccepted]; exact List.not_mem_nil
  cases stage with
  | idle | waiting | failed b | settled => exact ⟨hmem', h.2⟩
  | failing => exact ⟨hmem', h.2.1, hstop h.2.2⟩
  | starting v | dispatching v => exact absurd h.1 hmem
  | refused | running v => exact absurd h.1 hmem

/-- **The stop picks the worker**, which nobody is on the way to. -/
theorem Inv.picked (h : W.Inv rest) (hdrained : W.stopPromise = some .drained)
    (hpick : W.worker.or W.cleanupWorker = some w) :
    Inv { W with
      worker := none
      cleanupWorker := some w
      stopPromise := some (.stopping w)
      stopCalls := w :: W.stopCalls } rest := by
  have haccepted : W.accepted = [] := by
    have hstop := h.stop
    rw [StopOk, hdrained] at hstop
    exact hstop
  have hstart := h.startingWorker_eq_none haccepted
  have hheld : W.held = [w] := by
    rcases hworker : W.worker with _ | v
    · rw [hworker, Option.none_or] at hpick
      rw [held, hworker, hpick, hstart]
      rfl
    · rw [hworker, Option.some_or] at hpick
      rw [held, hworker, (h.workers.alone hworker).1, hstart, ← Option.some.inj hpick]
      rfl
  have hmade : w < W.made :=
    h.workers.made w (Or.inl (by rw [hheld]; exact List.mem_singleton_self w))
  refine ⟨fun n ↦ (h.stages n).uncounted haccepted haccepted ?_, h.nodup, h.nodupRest, ?_,
    .one (h.workers.live.trans hheld) ?_ ?_ hmade ?_, ⟨haccepted, rfl⟩, h.dispatched, h.resolved⟩
  · exact fun hawaits ↦ ⟨rfl, hawaits.2⟩
  · exact fun v hv ↦ absurd (hv.symm.trans hstart) (Option.some_ne_none v)
  · show [] ++ [w] ++ W.startingWorker.toList = [w]
    rw [hstart]
    rfl
  · rintro v (hv | hv)
    · exact absurd hv.symm (Option.some_ne_none v)
    · have hsome := startingWorker_eq_some_iff.mpr (Or.inl hv)
      exact absurd (hsome.symm.trans hstart) (Option.some_ne_none v)
  · intro v hv
    rcases List.mem_cons.mp hv with rfl | hv
    · exact hmade
    · exact h.workers.made v (Or.inr hv)

/-- The stop is over: who has awaited it goes on. -/
theorem StageOk.afterStop {stage : InvocationStage} (h : W.StageOk W.waiting n stage)
    (hnone : W.accepted = []) (haccepted : W'.accepted = []) (stopped : Bool)
    (hrest : rest = if stopped then W.waiting else []) :
    W'.StageOk rest n (W.afterStop stopped n stage) := by
  have hmem : n ∉ W.accepted := by rw [hnone]; exact List.not_mem_nil
  have hmem' : n ∉ W'.accepted := by rw [haccepted]; exact List.not_mem_nil
  have hsub : n ∉ W.waiting → n ∉ rest := by
    rw [hrest]
    cases stopped
    · exact fun _ ↦ List.not_mem_nil
    · exact id
  cases stage with
  | idle | failed b | settled => exact ⟨hmem', hsub h.2⟩
  | failing => exact ⟨hmem', hsub h.2.1⟩
  | waiting =>
    simp only [Supervisor.afterStop]
    cases stopped with
    | false =>
      rw [if_neg fun hfalse ↦ Bool.false_ne_true hfalse.1]
      exact ⟨hmem', by rw [hrest]; exact List.not_mem_nil⟩
    | true =>
      rw [if_pos ⟨rfl, h.2⟩]
      exact ⟨hmem', by rw [hrest]; exact h.2⟩
  | starting v | dispatching v => exact absurd h.1 hmem
  | refused | running v => exact absurd h.1 hmem

theorem ensureWorker_waiting (W : Supervisor) (n : ℕ) (arrival : Arrival) :
    (W.ensureWorker n arrival).waiting = W.waiting := by
  rcases ensureWorker_cases W n arrival with ⟨w, -, heq⟩ | heq | ⟨w, -, heq⟩ | ⟨-, -, -, heq⟩ <;>
    rw [heq] <;> rfl

theorem arrive_waiting (W : Supervisor) (n : ℕ) (arrival : Arrival) :
    (W.arrive n arrival).waiting = W.waiting := by
  rw [arrive]
  split
  · rfl
  · split
    · rfl
    · rw [ensureWorker_waiting]

theorem arriveAll_waiting (arrivals : ℕ → Arrival) (rest : List ℕ) (W : Supervisor) :
    (rest.foldl (fun W' n ↦ W'.arrive n (arrivals n)) W).waiting = W.waiting := by
  induction rest generalizing W with
  | nil => rfl
  | cons n rest ih => rw [List.foldl_cons, ih, arrive_waiting]

/-- **The invariant**: those that await `#stopPromise` wait for a stop. -/
structure Ok (W : Supervisor) : Prop where
  inv : W.Inv W.waiting
  waiting : W.stopPromise = none → W.waiting = []

/-- What is recorded, where nothing is counted and no worker is left. -/
theorem resolution_ok (haccepted : W.accepted = []) (hlive : W.live = []) (call : StopCall) :
    (W.resolution call).counted = [] ∧ (W.resolution call).live = [] := by
  refine ⟨?_, hlive⟩
  show call.before.filter (· ∈ W.accepted) = []
  rw [haccepted]
  exact List.filter_eq_nil_iff.mpr fun n _ hn ↦
    absurd (of_decide_eq_true hn) List.not_mem_nil

/-- **`#stopPromise` is fulfilled**, and no worker is left. -/
theorem Inv.stopSucceeds (h : W.Inv W.waiting) (hdrained : W.stopPromise = some .drained)
    (hheld : W.held = []) (arrivals : ℕ → Arrival) : (W.stopSucceeds arrivals).Ok := by
  have haccepted : W.accepted = [] := by
    have hstop := h.stop
    rw [StopOk, hdrained] at hstop
    exact hstop
  have hstart := h.startingWorker_eq_none haccepted
  have hcleared : Inv ({ W with
      stopPromise := none
      stops := []
      waiting := []
      resolved := W.resolved ++ W.stops.map W.resolution }.move (W.afterStop true)) W.waiting := by
    refine ⟨fun n ↦ (h.stages n).afterStop haccepted (by exact haccepted) true (if_pos rfl).symm,
      h.nodup, h.nodupRest, ?_, ⟨h.workers.live, h.workers.single, h.workers.fresh, h.workers.made⟩, trivial,
      h.dispatched, ?_⟩
    · exact fun v hv ↦ absurd (hv.symm.trans hstart) (Option.some_ne_none v)
    · intro r hr
      rcases List.mem_append.mp hr with hr | hr
      · exact h.resolved r hr
      · obtain ⟨call, -, rfl⟩ := List.mem_map.mp hr
        exact resolution_ok haccepted (h.workers.live.trans hheld) call
  have hwaiting : (W.stopSucceeds arrivals).waiting = [] := arriveAll_waiting arrivals W.waiting _
  refine ⟨?_, fun _ ↦ hwaiting⟩
  rw [hwaiting]
  exact hcleared.arriveAll arrivals rfl

/-- **`#stopPromise` is rejected.** -/
theorem Inv.stopFails (h : W.Inv W.waiting) (haccepted : W.accepted = []) : W.stopFails.Ok := by
  have hstart := h.startingWorker_eq_none haccepted
  have hcleared : Inv ({ W with
      stopPromise := none
      stops := []
      waiting := []
      catching := W.catching ++ W.timerStops }.move (W.afterStop false)) [] := by
    refine ⟨fun n ↦ (h.stages n).afterStop haccepted (by exact haccepted) false
      (if_neg Bool.false_ne_true).symm, h.nodup, List.nodup_nil, ?_, ⟨h.workers.live, h.workers.single, h.workers.fresh, h.workers.made⟩, trivial,
      h.dispatched, h.resolved⟩
    exact fun v hv ↦ absurd (hv.symm.trans hstart) (Option.some_ne_none v)
  simp only [Supervisor.stopFails]
  split
  · exact ⟨hcleared, fun _ ↦ rfl⟩
  · rename_i w _
    obtain ⟨timer, heq⟩ := armCleanupRetry_eq _ w
    rw [heq]
    exact ⟨hcleared.aside timer _ _ _ _, fun _ ↦ rfl⟩

/-! ## Steps -/

/-- A step that leaves those that wait, and no stop to wait for less. -/
theorem Ok.keep (h : W.Ok) (hinv : W'.Inv W.waiting) (hwaiting : W'.waiting = W.waiting)
    (hstop : W'.stopPromise = none → W.stopPromise = none) : W'.Ok where
  inv := by rw [hwaiting]; exact hinv
  waiting hnone := by rw [hwaiting]; exact h.waiting (hstop hnone)

theorem stop_waiting (W : Supervisor) (caller : StopCaller) :
    (W.stop caller).waiting = W.waiting := by
  obtain ⟨timer, phase, calls, heq⟩ := stop_eq W caller
  rw [heq]

theorem stop_ne_none (W : Supervisor) (caller : StopCaller) : (W.stop caller).stopPromise ≠ none := by
  rcases hphase : W.stopPromise with _ | phase
  · simp only [stop, hphase]
    nofun
  · simp only [stop, hphase]
    nofun

theorem Ok.stop (h : W.Ok) (caller : StopCaller) : (W.stop caller).Ok :=
  h.keep (h.inv.stopCalled caller) (stop_waiting W caller) fun hnone ↦
    absurd hnone (stop_ne_none W caller)

theorem Ok.aside (h : W.Ok) (timer : Option SupervisorTimer) (catching : List ℕ) :
    Ok { W with idleTimer := timer, catching := catching } :=
  h.keep (h.inv.aside timer W.failures W.retryAt W.failedWorkers catching) rfl id

theorem Ok.armCleanupRetry (h : W.Ok) (w : ℕ) : (W.armCleanupRetry w).Ok := by
  obtain ⟨timer, heq⟩ := armCleanupRetry_eq W w
  rw [heq]
  exact h.aside timer W.catching

theorem releaseInvocation_eq_none (hnone : (W.releaseInvocation n).stopPromise = none) :
    W.stopPromise = none := by
  rw [releaseInvocation] at hnone
  by_cases hdrained : W.accepted.erase n = [] ∧ W.stopPromise = some .draining
  · rw [if_pos hdrained] at hnone
    exact absurd hnone (Option.some_ne_none _)
  · rw [if_neg hdrained] at hnone
    exact hnone

theorem Ok.succeed (h : W.Ok) (hrunning : W.invocations n = .running w) :
    (W.succeed o n w).Ok := by
  have hinv := h.inv.succeed (o := o) hrunning
  obtain ⟨failures, retryAt, timer, heq⟩ := succeed_eq o W n w
  rw [heq] at hinv ⊢
  exact h.keep hinv rfl fun hnone ↦ releaseInvocation_eq_none hnone

theorem Ok.fail (h : W.Ok) (now : ℕ) (worker : Option ℕ) (hcounted : (W.invocations n).Counted)
    (hstart : ∀ w, W.invocations n ≠ .starting w) : (W.fail o n now worker).Ok :=
  h.keep (h.inv.fail now worker hcounted hstart) (stop_waiting _ _) fun hnone ↦
    absurd hnone (stop_ne_none _ _)

theorem Ok.invoke (h : W.Ok) (hidle : W.invocations n = .idle) (arrival : Arrival) :
    (W.invoke n arrival).Ok := by
  have hok := h.inv.stages n
  rw [hidle] at hok
  have hjoined : Inv (W.goTo n .waiting) (W.waiting ++ [n]) := by
    refine h.inv.act n rfl (fun m hm ↦ ⟨Iff.rfl, ?_, fun _ ↦ id, fun _ ↦ id, id⟩) ⟨hok.1, ?_⟩
      h.inv.nodup ?_ (fun w hw ↦ Or.inr ⟨hw, hidle.trans_ne nofun⟩) ⟨h.inv.workers.live,
        h.inv.workers.single, h.inv.workers.fresh, h.inv.workers.made⟩ h.inv.stop
      h.inv.dispatched rfl
    · rw [List.mem_append, List.mem_singleton, or_iff_left hm]
    · exact List.mem_append_right _ (List.mem_singleton_self n)
    · refine List.nodup_append.mpr ⟨h.inv.nodupRest, List.nodup_singleton n, ?_⟩
      rintro m hm _ hn rfl
      obtain rfl := List.mem_singleton.mp hn
      exact hok.2 hm
  rw [Supervisor.invoke]
  by_cases hstop : W.stopPromise.isSome
  · rw [if_pos hstop]
    refine ⟨⟨hjoined.stages, hjoined.nodup, hjoined.nodupRest, hjoined.awaited,
      ⟨hjoined.workers.live, hjoined.workers.single, hjoined.workers.fresh, hjoined.workers.made⟩,
      hjoined.stop, hjoined.dispatched, hjoined.resolved⟩, fun hnone ↦ ?_⟩
    have hnone' : W.stopPromise = none := hnone
    rw [hnone'] at hstop
    exact absurd hstop Bool.false_ne_true
  · rw [if_neg hstop]
    have hnone : W.stopPromise = none := Option.not_isSome_iff_eq_none.mp hstop
    have hempty := h.waiting hnone
    rw [hempty, List.nil_append] at hjoined
    have hwaiting : ((W.goTo n .waiting).arrive n arrival).waiting = [] :=
      (arrive_waiting _ n arrival).trans hempty
    refine ⟨?_, fun _ ↦ hwaiting⟩
    rw [hwaiting]
    exact (hjoined.arrive hnone arrival).1

theorem Ok.giveUp (h : W.Ok) {stopped : Bool} (hn : W.invocations n = .failed stopped) :
    (W.giveUp n stopped).Ok := by
  have harmed : ∃ timer, W.giveUp n stopped = { W with idleTimer := timer }.goTo n .settled := by
    simp only [Supervisor.giveUp]
    split
    · exact ⟨W.idleTimer, rfl⟩
    · split
      · exact ⟨W.idleTimer, rfl⟩
      · rename_i w _
        obtain ⟨timer, heq⟩ := armCleanupRetry_eq W w
        exact ⟨timer, by rw [heq]⟩
  obtain ⟨timer, heq⟩ := harmed
  have hok := h.inv.stages n
  rw [hn] at hok
  rw [heq]
  exact h.keep ((h.aside timer W.catching).inv.restage .settled hok fun w ↦ hn.trans_ne nofun)
    rfl id

theorem Ok.pick (h : W.Ok) (arrivals : ℕ → Arrival) : (W.pick arrivals).Ok := by
  rw [Supervisor.pick]
  split
  · rename_i hdrained
    have haccepted : W.accepted = [] := by
      have hstop := h.inv.stop
      rw [StopOk, hdrained] at hstop
      exact hstop
    split
    · rename_i hnone
      rw [Option.or_eq_none_iff] at hnone
      refine h.inv.stopSucceeds hdrained ?_ arrivals
      rw [held, hnone.1, hnone.2, h.inv.startingWorker_eq_none haccepted]
      rfl
    · rename_i w hpick
      exact h.keep (h.inv.picked hdrained hpick) rfl nofun
  · exact h

/-- The worker that was picked has stopped. -/
theorem Inv.stopped (h : W.Inv rest) (hstopping : W.stopPromise = some (.stopping w)) :
    Inv { W with
      live := W.live.erase w
      cleanupWorker := none
      stopPromise := some .drained } rest ∧
    held { W with
      live := W.live.erase w
      cleanupWorker := none
      stopPromise := some .drained } = [] := by
  obtain ⟨haccepted, hcleanup⟩ : W.accepted = [] ∧ W.cleanupWorker = some w := by
    have hstop := h.stop
    rw [StopOk, hstopping] at hstop
    exact hstop
  obtain ⟨hworker, hstart⟩ := h.workers.alone_cleanup hcleanup
  have hheld : W.held = [w] := by
    rw [held, hworker, hcleanup, hstart]
    rfl
  have hheld' : held { W with
      live := W.live.erase w
      cleanupWorker := none
      stopPromise := some .drained } = [] := by
    show W.worker.toList ++ [] ++ W.startingWorker.toList = []
    rw [hworker, hstart]
    rfl
  refine ⟨⟨fun n ↦ (h.stages n).uncounted haccepted haccepted fun hawaits ↦ ⟨rfl, hawaits.2⟩,
    h.nodup, h.nodupRest, h.awaited, .nobody ?_ hheld' ?_ fun v hv ↦ h.workers.made v (Or.inr hv),
    haccepted, h.dispatched, h.resolved⟩, hheld'⟩
  · show W.live.erase w = []
    rw [h.workers.live, hheld, List.erase_cons_head]
  · intro v hv
    have hsome := startingWorker_eq_some_iff.mpr (Or.inl hv)
    exact absurd (hsome.symm.trans hstart) (Option.some_ne_none v)

theorem Ok.stopSettles (h : W.Ok) (stopped : Bool) (arrivals : ℕ → Arrival) :
    (W.stopSettles stopped arrivals).Ok := by
  rw [Supervisor.stopSettles]
  split
  · rename_i w hstopping
    obtain ⟨haccepted, hcleanup⟩ : W.accepted = [] ∧ W.cleanupWorker = some w := by
      have hstop := h.inv.stop
      rw [StopOk, hstopping] at hstop
      exact hstop
    split
    · obtain ⟨hinv, hheld⟩ := h.inv.stopped hstopping
      exact hinv.stopSucceeds rfl hheld arrivals
    · exact h.inv.stopFails haccepted
  · exact h

theorem Ok.timerFires (h : W.Ok) : W.timerFires.Ok := by
  rw [Supervisor.timerFires]
  split
  · exact h
  · split
    · exact h.aside none W.catching
    · exact (h.aside none W.catching).stop _
  · split
    · exact h.aside none W.catching
    · exact (h.aside none W.catching).stop _

theorem Ok.timerCatches (h : W.Ok) : W.timerCatches.Ok := by
  rw [Supervisor.timerCatches]
  split
  · exact h
  · rename_i w rest _
    exact (h.aside W.idleTimer rest).armCleanupRetry w

theorem startSettles_waiting (W : Supervisor) (started : Bool) :
    (W.startSettles started).waiting = W.waiting ∧
      (W.startSettles started).stopPromise = W.stopPromise := by
  rw [startSettles]
  split
  · split <;> exact ⟨rfl, rfl⟩
  · exact ⟨rfl, rfl⟩

theorem startStopSettles_waiting (W : Supervisor) (stopped : Bool) :
    (W.startStopSettles stopped).waiting = W.waiting ∧
      (W.startStopSettles stopped).stopPromise = W.stopPromise := by
  rw [startStopSettles]
  split
  · split <;> exact ⟨rfl, rfl⟩
  · exact ⟨rfl, rfl⟩

/-- **One step.** -/
theorem Ok.step (h : W.Ok) (action : SupervisorAction) : (W.step o action).Ok := by
  cases action with
  | invoke n arrival =>
    show Ok (if W.invocations n = .idle then W.invoke n arrival else W)
    split
    · rename_i hidle
      exact h.invoke hidle arrival
    · exact h
  | stop => exact h.stop .outside
  | startSettles started =>
    obtain ⟨hwaiting, hstop⟩ := startSettles_waiting W started
    exact h.keep (h.inv.startSettles started) hwaiting fun hnone ↦ hstop.symm.trans hnone
  | startStopSettles stopped =>
    obtain ⟨hwaiting, hstop⟩ := startStopSettles_waiting W stopped
    exact h.keep (h.inv.startStopSettles stopped) hwaiting fun hnone ↦ hstop.symm.trans hnone
  | clearStart =>
    simp only [Supervisor.step]
    split
    · rename_i w hstart
      exact h.keep (h.inv.clearStart hstart) rfl id
    · exact h
  | dispatch n =>
    simp only [Supervisor.step]
    split
    · rename_i w hn
      exact h.keep (h.inv.dispatch hn) rfl id
    · exact h
  | callReturns n =>
    simp only [Supervisor.step]
    split
    · rename_i w hn
      exact h.succeed hn
    · exact h
  | callFails n now =>
    simp only [Supervisor.step]
    split
    · rename_i w hn
      exact h.fail now _ (by rw [hn]; trivial) fun _ ↦ hn.trans_ne nofun
    · rename_i hn
      exact h.fail now _ (by rw [hn]; trivial) fun _ ↦ hn.trans_ne nofun
    · exact h
  | pick arrivals => exact h.pick arrivals
  | stopSettles stopped arrivals => exact h.stopSettles stopped arrivals
  | giveUp n =>
    simp only [Supervisor.step]
    split
    · rename_i stopped hn
      exact h.giveUp hn
    · exact h
  | timerFires => exact h.timerFires
  | timerCatches => exact h.timerCatches

theorem ok_init : Ok {} where
  inv := {
    stages := fun _ ↦ ⟨List.not_mem_nil, List.not_mem_nil⟩
    nodup := List.nodup_nil
    nodupRest := List.nodup_nil
    awaited := fun w hw ↦ absurd hw.symm (Option.some_ne_none w)
    workers := .nobody rfl rfl nofun nofun
    stop := trivial
    dispatched := nofun
    resolved := nofun }
  waiting _ := rfl

/-- **Every run.** -/
theorem ok_run (o : SupervisorOptions) (actions : List SupervisorAction) :
    (run o {} actions).Ok := by
  suffices h : ∀ W : Supervisor, W.Ok → (run o W actions).Ok from h {} ok_init
  intro W hW
  induction actions generalizing W with
  | nil => exact hW
  | cons action actions ih => exact ih _ (hW.step action)

/-! ## What becomes of an invocation -/

theorem arrive_of_ne (hne : m ≠ n) (arrival : Arrival) :
    (W.arrive n arrival).invocations m = W.invocations m := by
  rw [arrive]
  split
  · exact goTo_of_ne .settled hne
  · split
    · exact goTo_of_ne .settled hne
    · rcases ensureWorker_cases (W.counting n) n arrival with
        ⟨w, -, heq⟩ | heq | ⟨w, -, heq⟩ | ⟨-, -, -, heq⟩
      all_goals
        refine (congrArg (Supervisor.invocations · m) heq).trans ?_
        exact goTo_of_ne _ hne

theorem arriveAll_of_notMem (arrivals : ℕ → Arrival) (hnot : m ∉ rest) (W : Supervisor) :
    (rest.foldl (fun W' n ↦ W'.arrive n (arrivals n)) W).invocations m = W.invocations m := by
  induction rest generalizing W with
  | nil => rfl
  | cons n rest ih =>
    obtain ⟨hne, hnot⟩ := List.ne_and_not_mem_of_not_mem_cons hnot
    rw [List.foldl_cons, ih hnot, arrive_of_ne hne]

/-- An invocation that awaits its own stop goes on when the stop succeeds. -/
theorem stopSucceeds_of_failing (hn : W.invocations n = .failing) (hnot : n ∉ W.waiting)
    (arrivals : ℕ → Arrival) : (W.stopSucceeds arrivals).invocations n = .failed true := by
  refine (arriveAll_of_notMem arrivals hnot _).trans ?_
  show W.afterStop true n (W.invocations n) = .failed true
  rw [hn]
  rfl

/-- An invocation that awaits its own stop goes on when the stop fails. -/
theorem stopFails_of_failing (hn : W.invocations n = .failing) :
    W.stopFails.invocations n = .failed false := by
  have hcleared : W.afterStop false n (W.invocations n) = .failed false := by
    rw [hn]
    rfl
  simp only [Supervisor.stopFails]
  split
  · exact hcleared
  · rename_i w _
    obtain ⟨timer, heq⟩ := armCleanupRetry_eq _ w
    rw [heq]
    exact hcleared

/-- An invocation that fails is no longer counted, and awaits its own stop. -/
theorem step_callFails (hn : W.invocations n = .refused ∨ ∃ w, W.invocations n = .running w)
    (now : ℕ) : (W.step o (.callFails n now)).invocations n = .failing := by
  have hfail : ∃ worker, W.step o (.callFails n now) = W.fail o n now worker := by
    rcases hn with hn | ⟨w, hn⟩
    · exact ⟨none, by simp only [step, hn]⟩
    · exact ⟨some w, by simp only [step, hn]⟩
  obtain ⟨worker, hfail⟩ := hfail
  rw [hfail, fail, stop_invocations, goTo_self]

/-- **The invariant says what the supervisor is for.** -/
theorem Ok.supervises (h : W.Ok) : W.Supervises o where
  single := by
    rw [h.inv.workers.live]
    exact h.inv.workers.single
  dispatched := h.inv.dispatched
  resolved := h.inv.resolved
  counted n hmem := by
    have hok := h.inv.stages n
    have hcounted := (h.inv.mem_iff n).mp hmem
    rcases hstage : W.invocations n with _ | _ | v | _ | v | v | _ | b | _ <;>
      rw [hstage] at hok hcounted
    · exact hcounted.elim
    · exact hcounted.elim
    · exact hok.2.2
    · trivial
    · trivial
    · trivial
    · exact hcounted.elim
    · exact hcounted.elim
    · exact hcounted.elim
  draining hphase := by
    have hstop := h.inv.stop
    rw [StopOk, hphase] at hstop
    exact hstop
  returns n w hn := by
    obtain ⟨failures, retryAt, timer, heq⟩ := succeed_eq o W n w
    have hstep : W.step o (.callReturns n) = W.succeed o n w := by
      simp only [Supervisor.step, hn]
    rw [hstep, heq, goTo_self]
  fails n now hn := by
    have hstage := step_callFails (o := o) hn now
    refine ⟨?_, hstage⟩
    rw [(h.step (.callFails n now)).inv.mem_iff, hstage]
    exact id
  stops n hn := by
    have hok := h.inv.stages n
    rw [hn] at hok
    exact hok.2.2
  stopped n w stopped arrivals hn hphase := by
    have hnot : n ∉ W.waiting := by
      rw [h.inv.mem_rest_iff, hn]
      nofun
    simp only [Supervisor.step, Supervisor.stopSettles, hphase]
    cases stopped with
    | true =>
      rw [if_pos rfl]
      exact stopSucceeds_of_failing (by exact hn) (by exact hnot) arrivals
    | false => exact stopFails_of_failing hn
  spared n arrivals hn hphase hworker hcleanup := by
    have hnot : n ∉ W.waiting := by
      rw [h.inv.mem_rest_iff, hn]
      nofun
    simp only [Supervisor.step, Supervisor.pick, hphase, if_true, hworker, hcleanup, Option.or_none]
    exact stopSucceeds_of_failing hn hnot arrivals
  givesUp n stopped hn := by
    simp only [Supervisor.step, hn, Supervisor.giveUp]
    exact goTo_self n .settled

/-- **The supervisor does what it is for, in every run.** -/
theorem supervises_run (o : SupervisorOptions) (actions : List SupervisorAction) :
    (run o {} actions).Supervises o :=
  (ok_run o actions).supervises

/-- While an invocation runs, `stop()` is called. The call of the worker fails, and the stop resolves
before the invocation has thrown. -/
theorem stop_resolves_unsettled :
    ¬∀ (o : SupervisorOptions) (actions : List SupervisorAction),
      ∀ resolution ∈ (run o {} actions).resolved, resolution.unsettled = [] := by
  intro h
  have hbad := h {} [.invoke 0 ⟨0, true⟩, .startSettles true, .dispatch 0, .stop, .callFails 0 0,
    .pick fun _ ↦ ⟨0, true⟩, .stopSettles true fun _ ↦ ⟨0, true⟩] ⟨[], [0], []⟩ (by decide +kernel)
  exact absurd hbad (List.cons_ne_nil 0 [])

end Supervisor

end LiteHarness.Plugins
