import LiteHarness.Foundation.Progress
import LiteHarness.Foundation.Table
import LiteHarness.Platform.JsString
import Mathlib.Data.Rat.Defs

/-!
# The queue of snapshot jobs

`SnapshotCompactorQueue` runs at most `maxConcurrent` snapshot jobs at a time, one for each
workspace. Requests for a workspace that is waiting, or whose job is in the map of active ones, are
answered together.

A job goes through three steps that are tasks of their own: its promise settles, the callback of
`then` answers the requests, and the callback of `finally` takes it out of the map and goes on with
the queue. Any calls may come between them.
-/

namespace LiteHarness.Workspace

open Foundation

variable {J ρ : Type}

/-! ## The queue -/

/-- The options of the queue. Their range is checked where they are read. -/
structure CompactorOptions where
  maxConcurrent : ℕ := 1
  maxLoadPerCpu : ℚ := 4
  minFreeBytes : ℕ := 1024 * 1024 * 1024
  positive : 0 < maxConcurrent := by decide

/-- What `#run` sees of the host; asking for the disk may fail. -/
structure CompactorHost where
  freeBytes : Except JsString ℕ
  loadavg : ℚ
  availableParallelism : ℕ

/-- `SnapshotQueueEntry`, with the key it is filed under. The waiters are the numbers of the
requests. -/
structure SnapshotQueueEntry (J : Type) where
  workspaceId : JsString
  snapshot : J
  waiters : List ℕ

/-- How far a job is. -/
inductive JobStage where
  | running
  | finished
  | settled
  deriving DecidableEq

/-- How far a job is, with its result and the time at which it finished. -/
inductive JobProgress (ρ : Type) where
  | running
  | finished (result : Except JsString ρ) (finishedAt : ℕ)
  | settled

/-- The stage of a job. -/
def JobProgress.stage : JobProgress ρ → JobStage
  | running => .running
  | finished _ _ => .finished
  | settled => .settled

/-- An entry of the map of active jobs, with the time at which its job was started. -/
structure ActiveEntry (J ρ : Type) where
  workspaceId : JsString
  snapshot : J
  waiters : List ℕ
  startedAt : ℕ
  progress : JobProgress ρ

/-- A call of `enqueue`: its workspace, its time, and what it found in the map of active jobs. -/
structure SnapshotRequest where
  workspaceId : JsString
  time : ℕ
  found : Option JobStage
  deriving DecidableEq

/-- The job a request is answered with. -/
structure SnapshotJob where
  workspaceId : JsString
  startedAt : ℕ
  finishedAt : ℕ
  deriving DecidableEq

/-- How the promise of a request is settled. -/
inductive SnapshotAnswer (ρ : Type) where
  | resolved (record : ρ) (job : SnapshotJob)
  | rejected (error : JsString)

/-- The queue; the requests and their answers are those of its whole history. -/
structure SnapshotCompactorQueue (J ρ : Type) where
  pending : List (SnapshotQueueEntry J) := []
  active : List (ActiveEntry J ρ) := []
  running : ℕ := 0
  closed : Bool := false
  clock : ℕ := 0
  requests : List SnapshotRequest := []
  answers : List (ℕ × SnapshotAnswer ρ) := []

/-- What happens to the queue. -/
inductive CompactorInput (J ρ : Type) where
  | enqueue (workspaceId : JsString) (snapshot : J) (host : JsString → CompactorHost)
  | close
  /-- The promise of the job of the workspace settles. -/
  | finish (workspaceId : JsString) (result : Except JsString ρ)
  /-- The callback of `then`. -/
  | settle (workspaceId : JsString)
  /-- The callback of `finally`. -/
  | remove (workspaceId : JsString) (host : JsString → CompactorHost)

namespace SnapshotCompactorQueue

variable (O : CompactorOptions) (host : JsString → CompactorHost) (s : SnapshotCompactorQueue J ρ)

/-- The checks of `#run`, which reject a job before it is begun. -/
def deferral (h : CompactorHost) : Option JsString :=
  match h.freeBytes with
  | .error error => some error
  | .ok free =>
    if free < O.minFreeBytes then some (js "Snapshot deferred because disk space is low")
    else if O.maxLoadPerCpu < h.loadavg / max 1 h.availableParallelism then
      some (js "Snapshot deferred because host load is high")
    else none

/-- The entry of a job that is started. -/
def started (e : SnapshotQueueEntry J) : ActiveEntry J ρ where
  workspaceId := e.workspaceId
  snapshot := e.snapshot
  waiters := e.waiters
  startedAt := s.clock
  progress :=
    match deferral O (host e.workspaceId) with
    | none => .running
    | some error => .finished (.error error) s.clock

/-- One round of the loop of `#drain`. -/
def start (e : SnapshotQueueEntry J) (rest : List (SnapshotQueueEntry J)) :
    SnapshotCompactorQueue J ρ :=
  { s with
    pending := rest
    running := s.running + 1
    active := Table.upsert ActiveEntry.workspaceId (s.started O host e)
      (fun _ ↦ s.started O host e) s.active }

/-- The loop of `#drain`, over what is pending. -/
def drainPending : List (SnapshotQueueEntry J) → SnapshotCompactorQueue J ρ →
    SnapshotCompactorQueue J ρ
  | [], s => s
  | e :: rest, s =>
    if s.running < O.maxConcurrent then drainPending rest (s.start O host e rest) else s

/-- `#drain`. -/
def drain : SnapshotCompactorQueue J ρ :=
  if s.closed then s else drainPending O host s.pending s

/-- The message of `enqueue` and `close`. -/
def closedError : JsString := js "Snapshot compaction queue is closed"

/-- The active entry of a workspace. -/
def find (workspaceId : JsString) : Option (ActiveEntry J ρ) :=
  Table.lookup ActiveEntry.workspaceId workspaceId s.active

/-- A request that is made now. -/
def request (workspaceId : JsString) : SnapshotRequest :=
  ⟨workspaceId, s.clock, (s.find workspaceId).map fun e ↦ e.progress.stage⟩

/-- Another waiter in the active entry of a workspace. -/
def join (n : ℕ) (workspaceId : JsString) : SnapshotCompactorQueue J ρ :=
  { s with
    active := Table.update (fun e ↦ e.workspaceId = workspaceId)
      (fun e ↦ { e with waiters := e.waiters ++ [n] }) s.active }

/-- Another waiter in the pending entry of a workspace, which may be new. -/
def await (n : ℕ) (workspaceId : JsString) (snapshot : J) : SnapshotCompactorQueue J ρ :=
  { s with
    pending := Table.upsert SnapshotQueueEntry.workspaceId ⟨workspaceId, snapshot, [n]⟩
      (fun e ↦ { e with waiters := e.waiters ++ [n] }) s.pending }

/-- `enqueue`. -/
def enqueue (workspaceId : JsString) (snapshot : J) : SnapshotCompactorQueue J ρ :=
  let n := s.requests.length
  let s' := { s with requests := s.requests ++ [s.request workspaceId] }
  if s.closed then { s' with answers := s.answers ++ [(n, .rejected closedError)] }
  else
    match s.find workspaceId with
    | some _ => (s'.join n workspaceId).drain O host
    | none => (s'.await n workspaceId snapshot).drain O host

/-- `close`. -/
def close : SnapshotCompactorQueue J ρ :=
  if s.closed then s
  else
    { s with
      closed := true
      answers := s.answers ++
        (s.pending.flatMap SnapshotQueueEntry.waiters).map fun n ↦ (n, .rejected closedError)
      pending := [] }

/-- The active entry of a workspace goes on. -/
def setProgress (workspaceId : JsString) (progress : JobProgress ρ) : SnapshotCompactorQueue J ρ :=
  { s with
    active := Table.update (fun e ↦ e.workspaceId = workspaceId)
      (fun e ↦ { e with progress := progress }) s.active }

/-- The promise of a job settles. -/
def finish (workspaceId : JsString) (result : Except JsString ρ) : SnapshotCompactorQueue J ρ :=
  match s.find workspaceId with
  | none => s
  | some e =>
    match e.progress with
    | .running => s.setProgress workspaceId (.finished result s.clock)
    | _ => s

/-- The answer the waiters of a job get. -/
def answer (e : ActiveEntry J ρ) (result : Except JsString ρ) (finishedAt : ℕ) : SnapshotAnswer ρ :=
  match result with
  | .ok record => .resolved record ⟨e.workspaceId, e.startedAt, finishedAt⟩
  | .error error => .rejected error

/-- The callback of `then`. -/
def settle (workspaceId : JsString) : SnapshotCompactorQueue J ρ :=
  match s.find workspaceId with
  | none => s
  | some e =>
    match e.progress with
    | .finished result finishedAt =>
      { s.setProgress workspaceId .settled with
        answers := s.answers ++ e.waiters.map fun n ↦ (n, answer e result finishedAt) }
    | _ => s

/-- The callback of `finally`. -/
def remove (workspaceId : JsString) : SnapshotCompactorQueue J ρ :=
  match s.find workspaceId with
  | none => s
  | some e =>
    match e.progress with
    | .settled =>
      { s with
        active := s.active.filter fun e ↦ e.workspaceId ≠ workspaceId
        running := s.running - 1 }.drain O host
    | _ => s

/-- One input, without the clock. -/
def handle : CompactorInput J ρ → SnapshotCompactorQueue J ρ
  | .enqueue workspaceId snapshot host => s.enqueue O host workspaceId snapshot
  | .close => s.close
  | .finish workspaceId result => s.finish workspaceId result
  | .settle workspaceId => s.settle workspaceId
  | .remove workspaceId host => s.remove O host workspaceId

/-- One input. -/
def step (i : CompactorInput J ρ) : SnapshotCompactorQueue J ρ :=
  { s.handle O i with clock := s.clock + 1 }

/-- The queue after a history. -/
def after (history : List (CompactorInput J ρ)) : SnapshotCompactorQueue J ρ :=
  history.foldl (step O) {}

end SnapshotCompactorQueue

end LiteHarness.Workspace
