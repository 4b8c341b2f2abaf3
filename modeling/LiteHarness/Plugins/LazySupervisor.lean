import Mathlib.Algebra.Group.Nat.Defs
import Mathlib.Data.List.Nodup
import Mathlib.Logic.Function.Basic

/-!
# The supervisor of a plugin worker

`LazyPluginSupervisor` starts a worker for the first invocation, shares it between invocations, and
stops it when it was idle for a while, when an invocation has failed, or when it is told to. A stop
waits until no invocation is counted any more. While it is under way new invocations wait for it, and
where the worker cannot be stopped no other one is started.

Everything runs on one event loop, so that the code between two `await`s is one step. The promises of
the worker may settle in any order and a timer may fire at any time. What waits for `#stopPromise` is
resumed in the order in which it began to wait, before anything else runs.
-/

namespace LiteHarness.Plugins

/-- The options that decide something. How long a timer waits is not observed. -/
structure SupervisorOptions where
  idleTtlMs : ℕ := 60000
  crashBackoffBaseMs : ℕ := 250
  crashBackoffMaxMs : ℕ := 30000

/-- How far the start of a worker is. -/
inductive StartPhase where
  | starting
  /-- `start()` has rejected, and the worker is being stopped. -/
  | stopping
  /-- The start was rejected, and `#startPromise` is not cleared yet. -/
  | failed
  deriving DecidableEq

/-- `#startPromise`. -/
structure StartPromise where
  worker : ℕ
  phase : StartPhase
  deriving DecidableEq

/-- `#stopPromise`: how far `#stopWorker` is. -/
inductive StopPhase where
  /-- It waits until no invocation is counted. -/
  | draining
  | drained
  | stopping (worker : ℕ)
  deriving DecidableEq

/-- `#idleTimer`, which both timers share. -/
inductive SupervisorTimer where
  | idle (worker : ℕ)
  | cleanup (worker : ℕ)
  deriving DecidableEq

/-- How far an invocation is. -/
inductive InvocationStage where
  | idle
  /-- It awaits `#stopPromise`, and is not counted. -/
  | waiting
  /-- It awaits the start of a worker. -/
  | starting (worker : ℕ)
  /-- `#ensureWorker` has thrown. -/
  | refused
  /-- `#ensureWorker` has returned the worker. -/
  | dispatching (worker : ℕ)
  | running (worker : ℕ)
  /-- It has failed, is no longer counted, and awaits its own `stop()`. -/
  | failing
  /-- Its own `stop()` is over. -/
  | failed (stopped : Bool)
  | settled
  deriving DecidableEq

/-- The invocation is counted in `#acceptedInvocations`. -/
def InvocationStage.Counted : InvocationStage → Prop
  | .starting _ | .refused | .dispatching _ | .running _ => True
  | _ => False

instance : DecidablePred InvocationStage.Counted
  | .starting _ | .refused | .dispatching _ | .running _ => isTrue trivial
  | .idle | .waiting | .failing | .failed _ | .settled => isFalse id

/-- Who has called `stop()`. -/
inductive StopCaller where
  | outside
  | invocation (n : ℕ)
  | timer (worker : ℕ)
  deriving DecidableEq

/-- A call of `stop()` that is under way. -/
structure StopCall where
  caller : StopCaller
  /-- The invocations accepted before, which the code does not record. -/
  before : List ℕ
  deriving DecidableEq

/-- What was the case when a call of `stop()` resolved. -/
structure Resolution where
  /-- Those accepted before the call that were still counted. -/
  counted : List ℕ
  /-- Those accepted before the call that had not settled. -/
  unsettled : List ℕ
  /-- The workers that were started and not successfully stopped. -/
  live : List ℕ
  deriving DecidableEq

/-- What an invocation meets when it comes to start a worker. -/
structure Arrival where
  /-- `Date.now()`. -/
  now : ℕ
  /-- `factory()` does not throw. -/
  makes : Bool := true

/-- The supervisor with what waits for it. -/
structure Supervisor where
  worker : Option ℕ := none
  cleanupWorker : Option ℕ := none
  startPromise : Option StartPromise := none
  /-- It is set together with `#stopRequested`. -/
  stopPromise : Option StopPhase := none
  idleTimer : Option SupervisorTimer := none
  /-- The invocations that `#acceptedInvocations` counts. -/
  accepted : List ℕ := []
  starts : ℕ := 0
  failures : ℕ := 0
  retryAt : ℕ := 0
  failedWorkers : List ℕ := []
  /-- The invocations that await `#stopPromise`. -/
  waiting : List ℕ := []
  stops : List StopCall := []
  /-- The timers' stops that have failed, whose `catch` has not run. -/
  catching : List ℕ := []
  invocations : ℕ → InvocationStage := fun _ ↦ .idle
  /-- The number of workers the factory has made, which names the next one. -/
  made : ℕ := 0
  /-- Recorded for the statements only: every invocation ever accepted. -/
  admitted : List ℕ := []
  /-- Recorded for the statements only: the workers whose `start()` was called and whose `stop()` has
  not succeeded. -/
  live : List ℕ := []
  /-- Recorded for the statements only: the workers whose `stop()` was called. -/
  stopCalls : List ℕ := []
  /-- Recorded for the statements only: the workers that invocations were dispatched to, each with
  whether its `stop()` had been called. -/
  dispatches : List (ℕ × Bool) := []
  /-- Recorded for the statements only. -/
  resolved : List Resolution := []

namespace Supervisor

variable (o : SupervisorOptions) (W : Supervisor)

def acceptedInvocations : ℕ := W.accepted.length

/-- The invocation is now here. -/
def goTo (n : ℕ) (stage : InvocationStage) : Supervisor :=
  { W with invocations := Function.update W.invocations n stage }

/-- Every invocation at one stage goes on to another. -/
def move (f : ℕ → InvocationStage → InvocationStage) : Supervisor :=
  { W with invocations := fun n ↦ f n (W.invocations n) }

/-! ## Timers -/

/-- `#armIdleTimer`. -/
def armIdleTimer : Supervisor :=
  match W.worker with
  | none => W
  | some worker =>
    if o.idleTtlMs = 0 ∨ W.acceptedInvocations > 0 ∨ W.stopPromise.isSome then W
    else { W with idleTimer := some (.idle worker) }

/-- `#armCleanupRetry`. -/
def armCleanupRetry (worker : ℕ) : Supervisor :=
  if W.cleanupWorker ≠ some worker ∨ W.stopPromise.isSome then W
  else { W with idleTimer := some (.cleanup worker) }

/-! ## `stop` -/

/-- `stop`, and `#stopWorker` to its first `await`. -/
def stop (caller : StopCaller) : Supervisor :=
  match W.stopPromise with
  | some _ => { W with stops := W.stops ++ [⟨caller, W.admitted⟩] }
  | none =>
    { W with
      idleTimer := none
      stopPromise := some (if W.acceptedInvocations = 0 then .drained else .draining)
      stops := [⟨caller, W.admitted⟩] }

/-- `#releaseInvocation`. -/
def releaseInvocation (n : ℕ) : Supervisor :=
  let accepted := W.accepted.erase n
  { W with
    accepted := accepted
    stopPromise :=
      if accepted = [] ∧ W.stopPromise = some .draining then some .drained else W.stopPromise }

/-! ## `invoke` -/

/-- `#ensureWorker`, to its first `await`. -/
def ensureWorker (n : ℕ) (arrival : Arrival) : Supervisor :=
  match W.worker with
  | some worker => W.goTo n (.dispatching worker)
  | none =>
    if W.cleanupWorker.isSome then W.goTo n .refused
    else
      match W.startPromise with
      | some ⟨_, .failed⟩ => W.goTo n .refused
      | some ⟨worker, _⟩ => W.goTo n (.starting worker)
      | none =>
        if arrival.makes then
          { W with
            startPromise := some ⟨W.made, .starting⟩
            made := W.made + 1
            live := W.made :: W.live }.goTo n (.starting W.made)
        else W.goTo n .refused

/-- `invoke`, from where no stop is under way. -/
def arrive (n : ℕ) (arrival : Arrival) : Supervisor :=
  if W.cleanupWorker.isSome then W.goTo n .settled
  else if arrival.now < W.retryAt then W.goTo n .settled
  else
    { W with
      accepted := n :: W.accepted
      admitted := n :: W.admitted
      idleTimer := none }.ensureWorker n arrival

/-- `invoke`. -/
def invoke (n : ℕ) (arrival : Arrival) : Supervisor :=
  if W.stopPromise.isSome then { W.goTo n .waiting with waiting := W.waiting ++ [n] }
  else (W.goTo n .waiting).arrive n arrival

/-- `worker.invoke` has returned. -/
def succeed (n worker : ℕ) : Supervisor :=
  let reset : Supervisor :=
    if worker ∈ W.failedWorkers then W else { W with failures := 0, retryAt := 0 }
  let released := reset.releaseInvocation n
  (if released.worker = some worker ∧ released.acceptedInvocations = 0 then released.armIdleTimer o
    else released).goTo n .settled

/-- The worker could not be had, or `worker.invoke` has failed or timed out. -/
def fail (n now : ℕ) (worker : Option ℕ) : Supervisor :=
  let base := max 1 o.crashBackoffBaseMs
  let maximum := max base o.crashBackoffMaxMs
  let noted : Supervisor := { W with
    failedWorkers := worker.toList ++ W.failedWorkers
    failures := W.failures + 1
    retryAt := now + min (2 ^ W.failures * base) maximum }
  ((noted.releaseInvocation n).goTo n .failing).stop (.invocation n)

/-- The invocation throws, after its own `stop()`. -/
def giveUp (n : ℕ) (stopped : Bool) : Supervisor :=
  let armed : Supervisor := if stopped then W else
    match W.cleanupWorker with
    | none => W
    | some worker => W.armCleanupRetry worker
  armed.goTo n .settled

/-! ## What the promises of the worker do -/

/-- `#startPromise` has rejected. -/
def startFails (worker : ℕ) : Supervisor :=
  { W with startPromise := some ⟨worker, .failed⟩ }.move fun _ stage ↦
    if stage = InvocationStage.starting worker then .refused else stage

/-- `worker.start()` has settled. -/
def startSettles (started : Bool) : Supervisor :=
  match W.startPromise with
  | some ⟨worker, .starting⟩ =>
    if started then
      { W with worker := some worker, starts := W.starts + 1, startPromise := none }.move
        fun _ stage ↦ if stage = InvocationStage.starting worker then .dispatching worker else stage
    else { W with
      startPromise := some ⟨worker, .stopping⟩, stopCalls := worker :: W.stopCalls }
  | _ => W

/-- `worker.stop()` has settled, after a start that failed. -/
def startStopSettles (stopped : Bool) : Supervisor :=
  match W.startPromise with
  | some ⟨worker, .stopping⟩ =>
    if stopped then { W with live := W.live.erase worker }.startFails worker
    else { W with cleanupWorker := some worker }.startFails worker
  | _ => W

/-- What is recorded when a call of `stop()` resolves. -/
def resolution (call : StopCall) : Resolution where
  counted := call.before.filter (· ∈ W.accepted)
  unsettled := call.before.filter fun n ↦ W.invocations n ≠ .settled
  live := W.live

/-- The invocations that await their own `stop()` go on, and those that await `#stopPromise` do, or
throw. -/
def afterStop (stopped : Bool) (n : ℕ) : InvocationStage → InvocationStage
  | .failing => .failed stopped
  | .waiting => if stopped ∧ n ∈ W.waiting then .waiting else .settled
  | stage => stage

/-- `#stopPromise` is fulfilled. -/
def stopSucceeds (arrivals : ℕ → Arrival) : Supervisor :=
  let cleared : Supervisor := { W with
    stopPromise := none
    stops := []
    waiting := []
    resolved := W.resolved ++ W.stops.map W.resolution }.move (W.afterStop true)
  W.waiting.foldl (fun W' n ↦ W'.arrive n (arrivals n)) cleared

/-- The timers among the callers. -/
def timerStops : List ℕ :=
  W.stops.filterMap fun call ↦
    match call.caller with
    | .timer worker => some worker
    | _ => none

/-- `#stopPromise` is rejected. -/
def stopFails : Supervisor :=
  let cleared : Supervisor := { W with
    stopPromise := none
    stops := []
    waiting := []
    catching := W.catching ++ W.timerStops }.move (W.afterStop false)
  match W.cleanupWorker with
  | none => cleared
  | some worker => cleared.armCleanupRetry worker

/-- `#stopWorker`, after the invocations have drained. -/
def pick (arrivals : ℕ → Arrival) : Supervisor :=
  if W.stopPromise = some .drained then
    match W.worker.or W.cleanupWorker with
    | none => W.stopSucceeds arrivals
    | some worker => { W with
        worker := none
        cleanupWorker := some worker
        stopPromise := some (.stopping worker)
        stopCalls := worker :: W.stopCalls }
  else W

/-- `worker.stop()` has settled, in `#stopWorker`. -/
def stopSettles (stopped : Bool) (arrivals : ℕ → Arrival) : Supervisor :=
  match W.stopPromise with
  | some (.stopping worker) =>
    if stopped then
      { W with
        live := W.live.erase worker
        cleanupWorker := if W.cleanupWorker = some worker then none else W.cleanupWorker
        }.stopSucceeds arrivals
    else W.stopFails
  | _ => W

/-- The timer that is set fires. -/
def timerFires : Supervisor :=
  match W.idleTimer with
  | none => W
  | some (.idle worker) =>
    if W.worker ≠ some worker ∨ W.acceptedInvocations > 0 ∨ W.stopPromise.isSome then
      { W with idleTimer := none }
    else { W with idleTimer := none }.stop (.timer worker)
  | some (.cleanup worker) =>
    if W.cleanupWorker ≠ some worker ∨ W.stopPromise.isSome then { W with idleTimer := none }
    else { W with idleTimer := none }.stop (.timer worker)

/-- The first of the timers' stops that have failed is caught. -/
def timerCatches : Supervisor :=
  match W.catching with
  | [] => W
  | worker :: rest => { W with catching := rest }.armCleanupRetry worker

end Supervisor

/-- What happens. -/
inductive SupervisorAction where
  /-- `invoke` is called, under a number that no invocation had. -/
  | invoke (n : ℕ) (arrival : Arrival)
  | stop
  | startSettles (started : Bool)
  | startStopSettles (stopped : Bool)
  /-- `#startPromise` is cleared, after it was rejected. -/
  | clearStart
  /-- The worker is handed the invocation. -/
  | dispatch (n : ℕ)
  | callReturns (n : ℕ)
  /-- The call of the worker has rejected or timed out, or there is no worker to call. -/
  | callFails (n now : ℕ)
  | pick (arrivals : ℕ → Arrival)
  | stopSettles (stopped : Bool) (arrivals : ℕ → Arrival)
  /-- An invocation that has failed throws. -/
  | giveUp (n : ℕ)
  | timerFires
  | timerCatches

namespace Supervisor

/-- One step. -/
def step (o : SupervisorOptions) (W : Supervisor) : SupervisorAction → Supervisor
  | .invoke n arrival => if W.invocations n = .idle then W.invoke n arrival else W
  | .stop => W.stop .outside
  | .startSettles started => W.startSettles started
  | .startStopSettles stopped => W.startStopSettles stopped
  | .clearStart =>
    match W.startPromise with
    | some ⟨_, .failed⟩ => { W with startPromise := none }
    | _ => W
  | .dispatch n =>
    match W.invocations n with
    | .dispatching worker =>
      { W with dispatches := (worker, worker ∈ W.stopCalls) :: W.dispatches }.goTo n
        (.running worker)
    | _ => W
  | .callReturns n =>
    match W.invocations n with
    | .running worker => W.succeed o n worker
    | _ => W
  | .callFails n now =>
    match W.invocations n with
    | .running worker => W.fail o n now (some worker)
    | .refused => W.fail o n now none
    | _ => W
  | .pick arrivals => W.pick arrivals
  | .stopSettles stopped arrivals => W.stopSettles stopped arrivals
  | .giveUp n =>
    match W.invocations n with
    | .failed stopped => W.giveUp n stopped
    | _ => W
  | .timerFires => W.timerFires
  | .timerCatches => W.timerCatches

/-- A run. -/
def run (o : SupervisorOptions) (W : Supervisor) (actions : List SupervisorAction) : Supervisor :=
  actions.foldl (step o) W

/-! ## What is claimed of a run -/

variable (W : Supervisor)

/-- The worker that is being started, or being stopped because its start has failed. -/
def startingWorker : Option ℕ :=
  W.startPromise.bind fun p ↦ if p.phase = .failed then none else some p.worker

/-- An invocation that is counted waits for a promise of the worker only. -/
def OnItsWay : InvocationStage → Prop
  | .starting worker => W.startingWorker = some worker
  | .refused | .dispatching _ | .running _ => True
  | _ => False

/-- **What the supervisor is for.** -/
structure Supervises (o : SupervisorOptions) (W : Supervisor) : Prop where
  /-- One worker at most was started and not successfully stopped. -/
  single : W.live.length ≤ 1
  /-- No invocation was dispatched to a worker that was told to stop. -/
  dispatched : ∀ dispatch ∈ W.dispatches, dispatch.2 = false
  /-- When a call of `stop()` resolved, no invocation accepted before it was counted, and no worker was
  left. -/
  resolved : ∀ resolution ∈ W.resolved, resolution.counted = [] ∧ resolution.live = []
  /-- An invocation that is counted does not wait for a stop. -/
  counted : ∀ n ∈ W.accepted, W.OnItsWay (W.invocations n)
  /-- A stop that waits for the invocations waits for one that is counted. -/
  draining : W.stopPromise = some .draining → W.accepted ≠ []
  /-- Where the call of the worker returns, the invocation settles. -/
  returns : ∀ n worker, W.invocations n = .running worker →
    (W.step o (.callReturns n)).invocations n = .settled
  /-- Where it rejects or times out, or there was no worker, the invocation is no longer counted, and
  awaits its own stop. -/
  fails : ∀ n now, (W.invocations n = .refused ∨ ∃ worker, W.invocations n = .running worker) →
    n ∉ (W.step o (.callFails n now)).accepted ∧
      (W.step o (.callFails n now)).invocations n = .failing
  /-- That stop is under way. -/
  stops : ∀ n, W.invocations n = .failing →
    W.stopPromise.isSome ∧ ∃ call ∈ W.stops, call.caller = .invocation n
  /-- It is over as soon as the worker has stopped, or could not be stopped. -/
  stopped : ∀ n worker stopped arrivals, W.invocations n = .failing →
    W.stopPromise = some (.stopping worker) →
      (W.step o (.stopSettles stopped arrivals)).invocations n = .failed stopped
  /-- It is over at once, where there is no worker to stop. -/
  spared : ∀ n arrivals, W.invocations n = .failing → W.stopPromise = some .drained →
    W.worker = none → W.cleanupWorker = none →
      (W.step o (.pick arrivals)).invocations n = .failed true
  /-- And then the invocation settles. -/
  givesUp : ∀ n stopped, W.invocations n = .failed stopped →
    (W.step o (.giveUp n)).invocations n = .settled

end Supervisor

end LiteHarness.Plugins
