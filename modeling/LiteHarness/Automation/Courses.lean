import LiteHarness.Automation.Scheduler
import LiteHarness.Foundation.Grids

/-!
# The course of a trigger

A trigger starts at the time it is configured with. When an occurrence is completed, the next time
is computed from the one before, which was delayed already, and a failure puts the trigger off to
its own time; the first time is kept nowhere. So the times of a trigger follow the grid of the first
time, or of the last failure, and fall behind it delay by delay (`Engines.Timely.onGrid`).

Here the calls of the store are one step each. What is noted of a run is the course of a trigger,
all times it had, and its completions.
-/

namespace LiteHarness.Automation

open Foundation

variable (H : ScheduleHost)

/-! ## The calls of the store -/

namespace TriggerTables

variable (T : TriggerTables)

/-- `complete`: whether it changed a row. -/
def complete (id owner : JsString) (firedAt : ℤ) : Except ScheduleError (TriggerTables × Bool) :=
  (T.completeQuery H id owner firedAt).map fun
    | none => (T, false)
    | some (row, next) => T.completeUpdate row next owner firedAt

/-- `fail`: whether it changed a row. -/
def fail (id owner : JsString) (retryAt now : ℤ) (errorCode : JsString) : TriggerTables × Bool :=
  match T.failQuery id owner with
  | none => (T, false)
  | some scheduledAt =>
    match T.failUpdate id owner retryAt errorCode with
    | (tables, false) => (tables, false)
    | (tables, true) => (tables.failRecord (id, scheduledAt) owner now errorCode, true)

/-- The time of a trigger. -/
def timeOf (id : JsString) : ℤ := ((T.row? id).map (·.nextFireAt)).getD 0

end TriggerTables

/-! ## Engines -/

/-- A `tick` that awaits the run of the first of its triggers. -/
structure EngineTick where
  owner : JsString
  now : ℤ
  due : List IntervalTrigger
  completed : ℕ := 0

/-- The times of a trigger: those since the last failure, from the time it was put off to, and the
stretches before. -/
structure Course where
  past : List (List ℤ) := []
  stretch : List ℤ := []

namespace Course

variable (c : Course)

/-- All stretches, the first one first. -/
def stretches : List (List ℤ) := c.past ++ [c.stretch]

/-- All times, the first one first. -/
def times : List ℤ := c.stretches.flatten

/-- An occurrence was completed. -/
def next (time : ℤ) : Course := { c with stretch := c.stretch ++ [time] }

/-- The trigger was put off. -/
def retry (time : ℤ) : Course := ⟨c.stretches, [time]⟩

end Course

/-- An occurrence that was completed: the time it was scheduled at, the time of the tick, and the
time of the next one. -/
structure Completion where
  id : JsString
  scheduledAt : ℤ
  firedAt : ℤ
  next : ℤ

/-- The engines that share a store, and what is noted of their runs. -/
structure Engines where
  tables : TriggerTables := {}
  ticks : List EngineTick := []
  course : JsString → Course := fun _ ↦ {}
  completions : List Completion := []

/-- What happens. -/
inductive EngineAction where
  | ensure (trigger : IntervalTrigger)
  /-- The timer of an engine starts a tick. -/
  | tick (owner : JsString) (now : ℤ)
  /-- The run of the first trigger of a tick is created. -/
  | created (owner : JsString) (now : ℤ) (errorName : JsString)
  /-- Creating the run, or completing the trigger, throws. -/
  | throws (owner : JsString) (now : ℤ) (errorName : JsString)
  /-- The tick ends early: `fail` throws, or the process is gone. -/
  | ends (owner : JsString)

namespace Engines

variable (W : Engines)

/-- A trigger is configured. -/
def ensure (trigger : IntervalTrigger) : Engines :=
  match validateTrigger H trigger with
  | .error _ => W
  | .ok () =>
    if (W.tables.row? trigger.id).isSome then W
    else
      { W with
        tables := W.tables.ensure trigger
        course := Function.update W.course trigger.id ⟨[], [trigger.nextFireAt]⟩ }

/-- The tick of an owner. -/
def tick? (owner : JsString) : Option EngineTick := Table.lookup EngineTick.owner owner W.ticks

/-- A tick starts with its claims. -/
def startTick (owner : JsString) (now : ℤ) : Engines :=
  let (tables, due) := W.tables.claimDue now owner leaseMs
  { W with
    tables := tables
    ticks := W.ticks ++ if due = [] then [] else [{ owner := owner, now := now, due := due }] }

/-- A tick is over. -/
def stop (owner : JsString) : Engines := { W with ticks := W.ticks.filter fun t ↦ t.owner ≠ owner }

/-- A tick goes on with the next of its triggers. -/
def nextTrigger (t : EngineTick) (due : List IntervalTrigger) : Engines :=
  if due = [] then W.stop t.owner
  else
    { W with
      ticks := Table.update (fun t' ↦ t'.owner = t.owner) (fun _ ↦ { t with due := due }) W.ticks }

/-- The `catch` block. -/
def fail (t : EngineTick) (trigger : IntervalTrigger) (due : List IntervalTrigger) (now : ℤ)
    (errorName : JsString) : Engines :=
  match W.tables.fail trigger.id t.owner (t.now + retryMs) now errorName with
  | (tables, false) => { W with tables := tables }.nextTrigger t due
  | (tables, true) =>
    { W with
      tables := tables
      course := Function.update W.course trigger.id
        ((W.course trigger.id).retry (t.now + retryMs)) }.nextTrigger t due

/-- The rest of the `try` block. -/
def complete (t : EngineTick) (trigger : IntervalTrigger) (due : List IntervalTrigger) (now : ℤ)
    (errorName : JsString) : Engines :=
  match W.tables.complete H trigger.id t.owner t.now with
  | .error _ => W.fail t trigger due now errorName
  | .ok (tables, false) => { W with tables := tables }.nextTrigger t due
  | .ok (tables, true) =>
    let completion : Completion :=
      ⟨trigger.id, W.tables.timeOf trigger.id, t.now, tables.timeOf trigger.id⟩
    { W with
      tables := tables
      course := Function.update W.course trigger.id
        ((W.course trigger.id).next completion.next)
      completions := W.completions ++ [completion] }.nextTrigger { t with completed := t.completed + 1 } due

/-- A step of the tick of an owner, with the first of its triggers. -/
def forFirst (owner : JsString)
    (f : EngineTick → IntervalTrigger → List IntervalTrigger → Engines) : Engines :=
  match W.tick? owner with
  | none => W
  | some t =>
    match t.due with
    | [] => W
    | trigger :: due => f t trigger due

/-- One step of the engines. -/
def step : EngineAction → Engines
  | .ensure trigger => W.ensure H trigger
  | .tick owner now => if (W.tick? owner).isSome then W else W.startTick owner now
  | .created owner now errorName => W.forFirst owner fun t trigger due ↦
    W.complete H t trigger due now errorName
  | .throws owner now errorName => W.forFirst owner fun t trigger due ↦
    W.fail t trigger due now errorName
  | .ends owner => W.stop owner

/-- A run of the engines. -/
def run (actions : List EngineAction) : Engines := actions.foldl (step H) W

/-! ## What is claimed of a run -/

/-- **The course of a trigger**, by its row. -/
structure Timely (row : TriggerRow) : Prop where
  /-- The time of the row is the last one. -/
  pending : (W.course row.id).stretch.getLast? = some row.nextFireAt
  /-- Each time is later than those before. -/
  increasing : (W.course row.id).times.Pairwise (· < ·)
  /-- The trigger is claimed at its times. -/
  claimed : ∀ f ∈ W.tables.firings, f.triggerId = row.id → f.scheduledAt ∈ (W.course row.id).times
  /-- A stretch follows the grid of its first time. -/
  onGrid : ∀ s ∈ (W.course row.id).stretches, ∃ c ∈ s.head?, OnGrid c row.intervalMs row.jitterMs s
  /-- What was missed at a completion is skipped. -/
  skipped : row.missedRunPolicy = .skip → ∀ c ∈ W.completions, c.id = row.id →
    c.firedAt < c.next ∧ c.next ∈ (W.course row.id).times ∧
      ∀ time ∈ (W.course row.id).times, time ≤ c.scheduledAt ∨ c.next ≤ time
  /-- Nothing is skipped. -/
  caughtUp : row.missedRunPolicy = .catchUp → ∀ s ∈ (W.course row.id).stretches,
    ∃ c ∈ s.head?, Consecutive c row.intervalMs s

end Engines

/-- A trigger that recurs after its interval. -/
def TriggerDefinition.Interval (d : TriggerDefinition) : Prop :=
  d.oneShot = false ∧ (truthy d.timeZone = none ∨ truthy d.localTime = none)

end LiteHarness.Automation
