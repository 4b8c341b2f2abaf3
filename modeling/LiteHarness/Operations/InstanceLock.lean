import LiteHarness.Foundation.Faults
import LiteHarness.Platform.JsValue

/-!
# The lock of the manager

`ManagerInstanceLock` is a directory with a file `owner.json` in it. Who makes the directory writes
the file in a second step; who finds the directory reads the file, and removes both when the owner
is dead, or when there has been no owner for thirty seconds. Every call on the file system is a step
of its own, and the processes take their steps in any order.

The removal is by name: it takes what is in the directory by then, whatever had been read.
-/

namespace LiteHarness.Operations

open Foundation

/-! ## The directory -/

/-- `owner.json`. -/
structure OwnerFile where
  /-- Which file it is. -/
  id : ℕ
  /-- The process it names, as soon as it is written. -/
  owner : Option ℕ := none
  deriving DecidableEq

/-- The lock directory. -/
structure LockDirectory where
  /-- Which directory it is. -/
  inode : ℕ
  /-- When a file was last made or removed in it. -/
  mtime : ℕ
  file : Option OwnerFile := none
  /-- Its file was removed, and no other was made: it is being removed. -/
  doomed : Bool := false
  deriving DecidableEq

/-- The owner that is recorded in the directory. -/
def LockDirectory.owner (d : LockDirectory) : Option ℕ := d.file.bind (·.owner)

/-- What the processes share of the disk, and the clock. -/
structure LockDisk where
  lock : Option LockDirectory := none
  now : ℕ := 0
  /-- The next directory or file is another one than all before. -/
  next : ℕ := 0

/-- How long a process may take to write its record. -/
def graceMs : ℕ := 30000

namespace LockDisk

variable (D : LockDisk)

/-- The directory was changed at least the grace period ago. -/
def Stale (d : LockDirectory) : Prop := d.mtime + graceMs ≤ D.now

instance (d : LockDirectory) : Decidable (D.Stale d) :=
  inferInstanceAs (Decidable (d.mtime + graceMs ≤ D.now))

/-- `mkdir`, where there is no directory. -/
def mkdir : LockDisk := { D with lock := some { inode := D.next, mtime := D.now }, next := D.next + 1 }

/-- `open` with the flag `wx`, where there is no file. -/
def openFile (d : LockDirectory) : LockDisk :=
  { D with
    lock := some { d with mtime := D.now, file := some { id := D.next }, doomed := false }
    next := D.next + 1 }

/-- `handle.writeFile`: it writes into the file that was opened, wherever that is. -/
def writeFile (file pid : ℕ) : LockDisk :=
  { D with
    lock := D.lock.map fun d ↦
      if d.file.any (·.id = file) then { d with file := some ⟨file, some pid⟩ } else d }

/-- `rm` removes the file. -/
def unlink : LockDisk :=
  { D with
    lock := D.lock.map fun d ↦
      if d.file.isSome then { d with mtime := D.now, file := none, doomed := true } else d }

/-- `rm` removes the directory. -/
def rmdir : LockDisk := { D with lock := none }

end LockDisk

/-! ## Processes -/

/-- What a process does next. -/
inductive LockStage where
  /-- Nothing: no call is going on, and no `acquire` returned. -/
  | idle
  /-- `acquire` returned, and no `release` was begun. -/
  | holding
  /-- `mkdir`. -/
  | creating (attempt : ℕ)
  /-- `open`. -/
  | opening (attempt : ℕ)
  /-- `writeFile`, into the file that was opened. -/
  | writing (file opened : ℕ)
  /-- `sync` and `close`. -/
  | syncing
  /-- `lstat` of the endpoint. -/
  | preparing
  /-- The probe of the endpoint that is there. -/
  | probing
  /-- `unlink` of the endpoint that did not answer. -/
  | unlinking
  /-- `#readExistingOwner`, after `mkdir` found a directory. -/
  | reading (attempt : ℕ)
  /-- The probe of the endpoint, and of the process that was read. -/
  | judging (attempt : ℕ) (existing : Option ℕ)
  /-- `lstat` of the directory. -/
  | checking (attempt : ℕ) (existing : Option ℕ)
  /-- `rm`, which removes the file first: of `acquire` in its attempt, or of `release`. -/
  | removing (attempt : Option ℕ)
  /-- `rm` goes on with the directory. -/
  | removingDirectory (attempt : Option ℕ)
  /-- `#readExistingOwner` in `release`. -/
  | releasing
  /-- `unlink` of the endpoint in `release`. -/
  | releasingEndpoint
  deriving DecidableEq

/-- A process with its `ManagerInstanceLock`. -/
structure LockProcess where
  socketPath : JsString := []
  started : Bool := false
  alive : Bool := false
  stage : LockStage := .idle
  acquired : Bool := false
  endpointOwned : Bool := false
  /-- It answers at its endpoint. -/
  listening : Bool := false
  /-- The directory as `#readExistingOwner` found it last. -/
  seen : Option LockDirectory := none

/-- The processes, the disk, and what is noted of removals. -/
structure Contenders where
  disk : LockDisk := {}
  /-- The endpoints that exist, and which process made them. -/
  endpoints : JsString → Option ℕ := fun _ ↦ none
  processes : ℕ → LockProcess := fun _ ↦ {}
  /-- Who removed a record or a directory without being its owner, while the owner that is recorded
  lives, or before the grace period was over. -/
  wrongful : List ℕ := []
  /-- Who removed the endpoint of another process that answers there. -/
  damaged : List ℕ := []

/-! ## Steps -/

namespace Contenders

variable (W : Contenders)

/-- The process lives. -/
def Alive (pid : ℕ) : Prop := (W.processes pid).alive = true

/-- The process answers at the endpoint. -/
def Answers (pid : ℕ) (path : JsString) : Prop :=
  W.endpoints path = some pid ∧ W.Alive pid ∧ (W.processes pid).listening = true

instance (pid : ℕ) : Decidable (W.Alive pid) :=
  inferInstanceAs (Decidable ((W.processes pid).alive = true))

instance (pid : ℕ) (path : JsString) : Decidable (W.Answers pid path) :=
  inferInstanceAs (Decidable (_ ∧ _ ∧ _))

/-- `probeManagerEndpoint`. -/
def probe (path : JsString) : Bool := (W.endpoints path).any fun pid ↦ W.Answers pid path

/-- The process goes on. -/
def goOn (pid : ℕ) (m : LockProcess) : Contenders :=
  { W with processes := Function.update W.processes pid m }

/-- The process goes on at a stage. -/
def goTo (pid : ℕ) (stage : LockStage) : Contenders :=
  W.goOn pid { W.processes pid with stage := stage }

/-- Nothing is held any more. -/
def give (pid : ℕ) : Contenders :=
  W.goOn pid { W.processes pid with stage := .idle, acquired := false, endpointOwned := false }

/-- The removal of the record in the directory is in order. -/
def MayUnlink (pid : ℕ) (d : LockDirectory) : Prop :=
  match d.owner with
  | some owner => owner = pid ∨ ¬W.Alive owner
  | none => W.disk.Stale d

/-- The removal of the directory is in order. -/
def MayRemove (d : LockDirectory) : Prop := d.doomed = true ∨ W.disk.Stale d

instance (pid : ℕ) (d : LockDirectory) : Decidable (W.MayUnlink pid d) :=
  match h : d.owner with
  | some owner => decidable_of_iff (owner = pid ∨ ¬W.Alive owner) (by rw [MayUnlink, h])
  | none => decidable_of_iff (W.disk.Stale d) (by rw [MayUnlink, h])

instance (d : LockDirectory) : Decidable (W.MayRemove d) :=
  inferInstanceAs (Decidable (d.doomed = true ∨ W.disk.Stale d))

/-- `rm` removes the file, if there is one. -/
def removeFile (pid : ℕ) : Contenders :=
  { W with
    disk := W.disk.unlink
    wrongful :=
      if ∀ d ∈ W.disk.lock, d.file.isSome → W.MayUnlink pid d then W.wrongful
      else W.wrongful ++ [pid] }

/-- `rm` removes the directory. -/
def removeDirectory (pid : ℕ) : Contenders :=
  { W with
    disk := W.disk.rmdir
    wrongful :=
      if ∀ d ∈ W.disk.lock, W.MayRemove d then W.wrongful else W.wrongful ++ [pid] }

/-- `unlink` of the endpoint of the process. -/
def removeEndpoint (pid : ℕ) : Contenders :=
  let path := (W.processes pid).socketPath
  { W with
    endpoints := Function.update W.endpoints path none
    damaged :=
      if ∀ other ∈ W.endpoints path, other ≠ pid → ¬W.Answers other path then W.damaged
      else W.damaged ++ [pid] }

/-- `rm` is done. -/
def removed (pid : ℕ) (attempt : Option ℕ) : Contenders :=
  match attempt with
  | some attempt => if attempt + 1 < 4 then W.goTo pid (.creating (attempt + 1)) else W.goTo pid .idle
  | none => W.give pid

/-- The next call of a process succeeds, or finds that it cannot. -/
def perform (win32 : Bool) (pid : ℕ) : Contenders :=
  let m := W.processes pid
  match m.stage with
  | .idle | .holding => W
  | .creating attempt =>
    match W.disk.lock with
    | none => { W with disk := W.disk.mkdir }.goTo pid (.opening attempt)
    | some _ => W.goTo pid (.reading attempt)
  | .opening attempt =>
    match W.disk.lock with
    | none => W.goTo pid .idle
    | some d =>
      if d.file.isSome then W.goTo pid (.reading attempt)
      else
        { W with disk := W.disk.openFile d }.goTo pid (.writing W.disk.next W.disk.now)
  | .writing file _ => { W with disk := W.disk.writeFile file pid }.goTo pid .syncing
  | .syncing =>
    W.goOn pid { m with acquired := true, stage := if win32 then .holding else .preparing }
  | .preparing =>
    match W.endpoints m.socketPath with
    | none => W.goTo pid .holding
    | some _ => W.goTo pid .probing
  | .probing => W.goTo pid (if W.probe m.socketPath then .releasing else .unlinking)
  | .unlinking =>
    match W.endpoints m.socketPath with
    | none => W.goTo pid .releasing
    | some _ => (W.removeEndpoint pid).goTo pid .holding
  | .reading attempt =>
    W.goOn pid { m with
      seen := W.disk.lock, stage := .judging attempt (W.disk.lock.bind LockDirectory.owner) }
  | .judging attempt existing =>
    if W.probe m.socketPath || existing.any fun owner ↦ W.Alive owner then W.goTo pid .idle
    else W.goTo pid (.checking attempt existing)
  | .checking attempt existing =>
    match W.disk.lock with
    | none => W.goTo pid .idle
    | some d =>
      if existing.isNone ∧ ¬W.disk.Stale d then W.goTo pid .idle
      else W.goTo pid (.removing (some attempt))
  | .removing attempt => (W.removeFile pid).goTo pid (.removingDirectory attempt)
  | .removingDirectory attempt =>
    match W.disk.lock with
    | none => W.removed pid attempt
    | some d =>
      if d.file.isSome then W.goTo pid (.removing attempt)
      else (W.removeDirectory pid).removed pid attempt
  | .releasing =>
    if W.disk.lock.bind LockDirectory.owner = some pid then
      W.goOn pid { m with
        seen := W.disk.lock
        stage := if !win32 && m.endpointOwned then .releasingEndpoint else .removing none }
    else W.give pid
  | .releasingEndpoint => (W.removeEndpoint pid).goTo pid (.removing none)

/-- The next call of a process throws. -/
def throws (pid : ℕ) : Contenders :=
  match (W.processes pid).stage with
  | .holding => W
  | .preparing | .probing | .unlinking => W.goTo pid .releasing
  | _ => W.goTo pid .idle

/-- The process is gone. -/
def die (pid : ℕ) : Contenders := W.goOn pid { W.processes pid with alive := false }

end Contenders

/-- What happens. -/
inductive LockAction where
  | elapse (ms : ℕ)
  /-- A process starts, under a number that no process had. -/
  | start (pid : ℕ) (socketPath : JsString)
  | acquire (pid : ℕ)
  | release (pid : ℕ)
  | next (pid : ℕ) (outcome : Outcome)
  /-- The server of the manager listens, which an endpoint that exists prevents. The endpoint of a dead
  process goes with it on Windows. -/
  | listen (pid : ℕ)
  | secureEndpoint (pid : ℕ)
  /-- The server is closed. -/
  | close (pid : ℕ)

namespace Contenders

/-- One step of the processes. -/
def step (win32 : Bool) (W : Contenders) : LockAction → Contenders
  | .elapse ms => { W with disk := { W.disk with now := W.disk.now + ms } }
  | .start pid socketPath =>
    if (W.processes pid).started then W
    else W.goOn pid { socketPath := socketPath, started := true, alive := true }
  | .acquire pid =>
    let m := W.processes pid
    if m.alive ∧ m.stage = .idle ∧ ¬m.acquired then W.goTo pid (.creating 0) else W
  | .release pid =>
    let m := W.processes pid
    if m.alive ∧ (m.stage = .idle ∨ m.stage = .holding) ∧ m.acquired then W.goTo pid .releasing
    else W
  | .next pid outcome =>
    if W.Alive pid then
      match outcome with
      | .succeeds => W.perform win32 pid
      | .fails => W.throws pid
      | .dies => W.die pid
    else W
  | .listen pid =>
    let m := W.processes pid
    if m.alive ∧ m.stage = .holding ∧
        (∀ other ∈ W.endpoints m.socketPath, win32 ∧ ¬W.Answers other m.socketPath) then
      { W with endpoints := Function.update W.endpoints m.socketPath (some pid) }.goOn pid
        { m with listening := true }
    else W
  | .secureEndpoint pid =>
    let m := W.processes pid
    if m.alive ∧ m.stage = .holding then W.goOn pid { m with endpointOwned := true } else W
  | .close pid =>
    let m := W.processes pid
    let endpoints := if W.endpoints m.socketPath = some pid then
      Function.update W.endpoints m.socketPath none else W.endpoints
    { W with endpoints := endpoints }.goOn pid { m with listening := false }

/-- A run of the processes. -/
def run (win32 : Bool) (W : Contenders) (actions : List LockAction) : Contenders :=
  actions.foldl (step win32) W

end Contenders

/-! ## What is claimed of a run -/

/-- After the grace period a process starts and acquires the lock, while no other one does anything.
-/
def aloneFor (pid : ℕ) (socketPath : JsString) (calls : ℕ) : List LockAction :=
  [.elapse graceMs, .start pid socketPath, .acquire pid] ++
    List.replicate calls (.next pid .succeeds)

/-- **What the lock is for.** -/
structure Contenders.Excludes (win32 : Bool) (W : Contenders) : Prop where
  /-- One living process at most holds the lock. -/
  exclusive : ∀ pid pid', W.Alive pid → W.Alive pid' → (W.processes pid).stage = .holding →
    (W.processes pid').stage = .holding → pid = pid'
  /-- Every removal was in order. -/
  removed : W.wrongful = []
  /-- No process removed an endpoint where another one answers. -/
  intact : W.damaged = []
  /-- When the recorded owner is dead, and the endpoint does not answer, the next process gets the lock,
  if it is left alone. -/
  recovers : ∀ pid socketPath, (W.processes pid).started = false →
    (∀ owner ∈ W.disk.lock.bind LockDirectory.owner, ¬W.Alive owner) → W.probe socketPath = false →
      ∃ calls, ((W.run win32 (aloneFor pid socketPath calls)).processes pid).stage = .holding

/-! ## The condition -/

namespace Contenders

variable (W : Contenders)

/-- What the removal meets is what `#readExistingOwner` found: the directory is the same one, and no
file was made or written in it since. -/
def AsSeen (m : LockProcess) : Prop :=
  ∀ d ∈ W.disk.lock, ∃ s ∈ m.seen, d.inode = s.inode ∧ (d.file.isSome → d.file = s.file)

/-- **The condition on a step**: a removal meets what was read, and a process writes its record
within the grace period. -/
def Orderly : LockAction → Prop
  | .next pid .succeeds =>
    W.Alive pid →
      match (W.processes pid).stage with
      | .writing _ opened => W.disk.now < opened + graceMs
      | .removing _ | .removingDirectory _ => W.AsSeen (W.processes pid)
      | _ => True
  | _ => True

end Contenders

end LiteHarness.Operations
