import LiteHarness.Automation.Triggers
import LiteHarness.Foundation.Faults
import LiteHarness.Storage.RunKeys

/-!
# Schedulers

Any number of managers share a store of triggers. The timer of a manager starts no tick of its
`SchedulerEngine` while one is running. A tick claims what is due and goes through it: it starts the
run of a trigger and completes the trigger, or records the failure of either. The statements of a
tick are steps of their own, any of which may fail or be the last one of its process.

A manager starts a run through `createOrGetRun`, under a key made from the identifier of the trigger
and the time it was claimed at. What the run is for is the occurrence, the time at which the trigger
was first scheduled; the machine notes occurrences where the program does not.
-/

namespace LiteHarness.Automation

open Foundation

/-! ## State -/

/-- A claimed trigger, and the occurrence that was pending. -/
structure Claimed where
  trigger : IntervalTrigger
  occurrence : ℤ

/-- The trigger and the time it was first scheduled at. -/
def Claimed.key (c : Claimed) : JsString × ℤ := (c.trigger.id, c.occurrence)

/-- How far a tick is with the first of its triggers. -/
inductive TickStage where
  /-- `createRun` is called next. -/
  | creating
  /-- The query of `complete` is next. -/
  | completeQuery
  /-- The transaction of `complete` is next. -/
  | completing (row : TriggerRow) (next : ℤ)
  /-- The query of `fail` is next. -/
  | failQuery (errorCode : JsString)
  /-- The first update of `fail` is next. -/
  | failing (scheduledAt : ℤ) (errorCode : JsString)
  /-- The second update of `fail` is next. -/
  | recording (scheduledAt : ℤ) (errorCode : JsString)

/-- A tick of a manager. -/
structure Tick where
  owner : JsString
  now : ℤ
  due : List Claimed
  stage : TickStage := .creating
  completed : ℕ := 0

/-- A run that was started, for which occurrence and under which time. -/
structure StartedRun where
  triggerId : JsString
  occurrence : ℤ
  scheduledAt : ℤ
  principal : ResourceOwner
  runId : JsString

/-- The trigger and the time it was first scheduled at. -/
def StartedRun.key (s : StartedRun) : JsString × ℤ := (s.triggerId, s.occurrence)

/-- The managers, what they share, and what is noted of their runs. -/
structure Schedulers where
  tables : TriggerTables := {}
  runs : Store := {}
  ticks : List Tick := []
  /-- The occurrence of a trigger that is pending. -/
  occurrence : JsString → ℤ := fun _ ↦ 0
  started : List StartedRun := []
  /-- The occurrences for which `complete` returned `true`. -/
  completed : List (JsString × ℤ) := []
  /-- The readings of the clock at which triggers were claimed. -/
  readings : List ℤ := []

/-! ## Steps -/

/-- The lease of a tick. -/
def leaseMs : ℤ := 30000

/-- The wait before a failed trigger is tried again. -/
def retryMs : ℤ := 30000

/-- The request `configureAutomation` makes of a trigger. -/
def runRequest (trigger : IntervalTrigger) : InternalStartRunRequest where
  agent := trigger.payload.agent
  workspace := trigger.payload.workspace
  session := some (trigger.payload.session.getD (js "schedule_" ++ trigger.payload.id))
  input := trigger.payload.input
  idempotencyKey := js "schedule:" ++ trigger.id ++ 58 :: intLiteral trigger.nextFireAt
  principal := trigger.payload.principal

/-- What a step meets: the outcome of its statement, the clock, the identifiers that are drawn,
whether `createRun` throws behind its commit, and the name of what is thrown. -/
structure Circumstances where
  outcome : Outcome := .succeeds
  now : ℤ := 0
  fresh : Store.FreshInternalIds := ⟨[], [], []⟩
  runId : JsString := []
  lost : Bool := false
  errorName : JsString := js "Error"

namespace Schedulers

variable (P : Platform) (H : ScheduleHost) (W : Schedulers)

/-- The tick of a manager. -/
def tick? (owner : JsString) : Option Tick := Table.lookup Tick.owner owner W.ticks

/-- The tick goes on. -/
def goOn (t : Tick) : Schedulers :=
  { W with ticks := Table.update (fun t' ↦ t'.owner = t.owner) (fun _ ↦ t) W.ticks }

/-- The tick is over, or its process is gone. -/
def stop (owner : JsString) : Schedulers :=
  { W with ticks := W.ticks.filter fun t ↦ t.owner ≠ owner }

/-- The tick goes on with the next trigger. -/
def nextTrigger (t : Tick) : Schedulers :=
  match t.due.tail with
  | [] => W.stop t.owner
  | due => W.goOn { t with due := due, stage := .creating }

/-- A trigger is configured. -/
def ensure (trigger : IntervalTrigger) : Schedulers :=
  match validateTrigger H trigger with
  | .error _ => W
  | .ok () =>
    if (W.tables.row? trigger.id).isSome then W
    else
      { W with
        tables := W.tables.ensure trigger
        occurrence := Function.update W.occurrence trigger.id trigger.nextFireAt }

/-- The tick of a manager starts with its claims. -/
def startTick (owner : JsString) (now : ℤ) : Schedulers :=
  let (tables, due) := W.tables.claimDue now owner leaseMs
  let claimed := due.map fun trigger ↦ (⟨trigger, W.occurrence trigger.id⟩ : Claimed)
  { W with
    tables := tables
    readings := W.readings ++ [now]
    ticks := W.ticks ++ if claimed = [] then [] else [{ owner := owner, now := now, due := claimed }] }

/-- The run of the first trigger is started. -/
def createRun (t : Tick) (c : Claimed) (e : Circumstances) : Schedulers :=
  match (Store.createOrGetRun P e.now e.fresh e.runId (runRequest c.trigger)).run W.runs with
  | (.error _, _) => W.goOn { t with stage := .failQuery e.errorName }
  | (.ok (run, created), runs) =>
    let run : StartedRun :=
      ⟨c.trigger.id, c.occurrence, c.trigger.nextFireAt, c.trigger.payload.principal, run.id⟩
    { W with
      runs := runs, started := if created then W.started ++ [run] else W.started }.goOn
      { t with stage := if e.lost then .failQuery e.errorName else .completeQuery }

/-- The transaction of `complete`. -/
def complete (t : Tick) (c : Claimed) (row : TriggerRow) (next : ℤ) : Schedulers :=
  match W.tables.completeUpdate row next t.owner t.now with
  | (_, false) => W.nextTrigger t
  | (tables, true) =>
    { W with
      tables := tables
      occurrence := Function.update W.occurrence row.id next
      completed := W.completed ++ [c.key] }.nextTrigger { t with completed := t.completed + 1 }

/-- The first update of `fail`. -/
def fail (t : Tick) (c : Claimed) (scheduledAt : ℤ) (errorCode : JsString) : Schedulers :=
  match W.tables.failUpdate c.trigger.id t.owner (t.now + retryMs) errorCode with
  | (_, false) => W.nextTrigger t
  | (tables, true) =>
    { W with tables := tables }.goOn { t with stage := .recording scheduledAt errorCode }

/-- The statement a tick is at is carried out. -/
def perform (t : Tick) (c : Claimed) (e : Circumstances) : Schedulers :=
  match t.stage with
  | .creating => W.createRun P t c e
  | .completeQuery =>
    match W.tables.completeQuery H c.trigger.id t.owner t.now with
    | .error _ => W.goOn { t with stage := .failQuery e.errorName }
    | .ok none => W.nextTrigger t
    | .ok (some (row, next)) => W.goOn { t with stage := .completing row next }
  | .completing row next => W.complete t c row next
  | .failQuery errorCode =>
    match W.tables.failQuery c.trigger.id t.owner with
    | none => W.nextTrigger t
    | some scheduledAt => W.goOn { t with stage := .failing scheduledAt errorCode }
  | .failing scheduledAt errorCode => W.fail t c scheduledAt errorCode
  | .recording scheduledAt errorCode =>
    { W with
      tables := W.tables.failRecord (c.trigger.id, scheduledAt) t.owner e.now errorCode }.nextTrigger t

/-- The statement a tick is at fails: in the `try` block the failure is recorded, and in the `catch`
block the tick throws. -/
def throws (t : Tick) (e : Circumstances) : Schedulers :=
  match t.stage with
  | .creating | .completeQuery | .completing _ _ => W.goOn { t with stage := .failQuery e.errorName }
  | .failQuery _ | .failing _ _ | .recording _ _ => W.stop t.owner

/-- The next statement of a tick. -/
def advance (t : Tick) (c : Claimed) (e : Circumstances) : Schedulers :=
  match e.outcome with
  | .succeeds => W.perform P H t c e
  | .fails => W.throws t e
  | .dies => W.stop t.owner

end Schedulers

/-- What happens. -/
inductive SchedulerAction where
  | ensure (trigger : IntervalTrigger)
  | tick (owner : JsString) (now : ℤ) (outcome : Outcome)
  | next (owner : JsString) (e : Circumstances)
  /-- Another operation on the store of runs. -/
  | other (op : StoreOp)

namespace Schedulers

variable (P : Platform) (H : ScheduleHost)

/-- One step of the managers. -/
def step (W : Schedulers) : SchedulerAction → Schedulers
  | .ensure trigger => W.ensure H trigger
  | .tick owner now outcome =>
    match W.tick? owner, outcome with
    | none, .succeeds => W.startTick owner now
    | _, _ => W
  | .next owner e =>
    match W.tick? owner with
    | none => W
    | some t =>
      match t.due with
      | [] => W
      | c :: _ => W.advance P H t c e
  | .other op => { W with runs := op.apply P W.runs }

/-- A run of the managers. -/
def run (W : Schedulers) (actions : List SchedulerAction) : Schedulers := actions.foldl (step P H) W

/-! ## What is claimed of a run -/

variable (W : Schedulers)

/-- What a tick still holds by its own account. -/
def held (t : Tick) : List Claimed :=
  match t.stage with
  | .recording _ _ => t.due.tail
  | _ => t.due

/-- Two claims on one trigger are not both unexpired once no clock was later. -/
def ClaimedByOne : Prop :=
  ∀ t ∈ W.ticks, ∀ t' ∈ W.ticks, t.owner ≠ t'.owner → ∀ c ∈ held t, ∀ c' ∈ held t',
    c.trigger.id = c'.trigger.id → ∀ now, (∀ r ∈ W.readings, r ≤ now) →
      ¬((∃ e ∈ c.trigger.leaseExpiresAt, now < e) ∧ ∃ e ∈ c'.trigger.leaseExpiresAt, now < e)

/-- A tick that lost the lease of its trigger, and did not give it back itself, changes nothing of
the triggers. -/
def Fenced : Prop :=
  ∀ t ∈ W.ticks, ∀ c ∈ t.due.head?, c ∈ held t →
    (∀ row, W.tables.row? c.trigger.id = some row → row.leaseOwner ≠ some t.owner) →
      ∀ e, (W.advance P H t c e).tables = W.tables ∧ (W.advance P H t c e).completed = W.completed

/-- **What the schedulers are for**: one run for an occurrence, one claim at a time, nothing from an
owner that was taken over, and a record for what was completed. -/
structure FiresOnce : Prop where
  once : (W.started.map StartedRun.key).Nodup
  claimed : W.ClaimedByOne
  fenced : W.Fenced P H
  recorded : ∀ key ∈ W.completed, ∃ f, W.tables.firing? key = some f ∧ f.status = .completed

/-! ## The condition -/

/-- What a tick may still start the run of. -/
def startable (t : Tick) : List Claimed :=
  match t.stage with
  | .creating => t.due
  | _ => t.due.tail

/-- The lease of the first trigger is still the tick's. -/
def Holds (t : Tick) (c : Claimed) : Prop :=
  ∃ row ∈ W.tables.row? c.trigger.id, row.leaseOwner = some t.owner

/-- A trigger is completed at the time it was first scheduled at, by the owner of the record of that
time. -/
def Matches (t : Tick) (c : Claimed) : Prop :=
  c.trigger.nextFireAt = c.occurrence ∧ ∃ f ∈ W.tables.firing? c.key, f.owner = t.owner

/-- The run of the occurrence was not started, and nobody may still start it. -/
def Unstarted (c : Claimed) : Prop :=
  (∀ s ∈ W.started, s.key ≠ c.key) ∧ ∀ t ∈ W.ticks, ∀ c' ∈ startable t, c'.key ≠ c.key

/-- The condition on a statement of a tick. -/
def OrderlyAt (t : Tick) (c : Claimed) : Prop :=
  match t.stage with
  | .completing _ _ => W.Holds t c → W.Matches t c
  | .failing _ _ => W.Holds t c → W.Unstarted c
  | _ => True

/-- **The condition on a step**: a trigger is not completed at another time than it was first
scheduled at, or under the record of another owner, and a failure moves no occurrence whose run was
started or may still be. -/
def Orderly : SchedulerAction → Prop
  | .next owner e =>
    e.outcome = .succeeds → ∀ t ∈ W.tick? owner, ∀ c ∈ t.due.head?, W.OrderlyAt t c
  | _ => True

end Schedulers

end LiteHarness.Automation
