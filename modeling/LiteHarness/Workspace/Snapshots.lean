import LiteHarness.Foundation.Files
import LiteHarness.Foundation.Suspension
import LiteHarness.Workspace.SnapshotFormat

/-!
# The snapshots of a workspace

`LocalWorkspaceSnapshotStore` keeps up to three generations of a workspace's archive. `create`
writes a staging file, reads it back, rotates the generations and renames the staging file into
place; `restore` takes the first generation it can read.

Every operation of a `create` may fail, and the process may die before it. A staging file has a name
of its own, so that one that is left behind is never looked at again.
-/

namespace LiteHarness.Workspace

open Foundation Foundation.Eff

/-- The files of a workspace. -/
inductive SnapshotFile where
  | current
  | previous
  | previousBackup
  | staging
  deriving DecidableEq

/-- The operations of a `create`, in the order in which they stand there. -/
inductive CreatePoint where
  | getKey
  | mkdir
  | openStaging
  | writeStaging
  | removePartial
  | afterStagedWrite
  | verify
  | afterStagedVerify
  | readCurrent
  | removeCurrent
  | removeBackup
  | movePrevious
  | moveCurrent
  | moveBack
  | afterRotation
  | promote
  | afterPromotion
  | dropBackup
  | removeStaging
  deriving DecidableEq

/-- A call of `create`: its archive, what it draws, and what becomes of its operations. -/
structure CreateCall where
  archive : Bytes
  nonce : Bytes
  createdAt : JsString
  faults : CreatePoint → Outcome := fun _ ↦ .succeeds
  /-- How much of the staging file is written when writing fails or the process dies. -/
  written : ℕ := 0

/-- `SnapshotRecord`. -/
structure SnapshotRecord where
  workspaceId : JsString
  sha256 : JsString
  plaintextBytes : ℕ
  createdAt : JsString

/-- The generations of a workspace. -/
abbrev Snapshots := Files SnapshotFile Bytes

/-- A program on the generations. -/
abbrev SnapshotProgram := Files.Program SnapshotFile Bytes JsString

variable (C : NodeCrypto) (O : SnapshotOptions) (workspaceId : JsString)

/-- The header of a new snapshot. -/
def newHeader (call : CreateCall) : SnapshotHeader where
  workspaceId := workspaceId
  createdAt := call.createdAt
  plaintextBytes := call.archive.length
  sha256 := C.sha256 call.archive
  nonce := C.toBase64 call.nonce
  keyVersion := O.keys.metadata.isSome
  keyScope := O.keys.metadata

/-- The staging file of a call. -/
def stagedFile (call : CreateCall) : Bytes :=
  encodeSnapshot C (O.keys.getKey workspaceId) call.nonce (newHeader C O workspaceId call)
    call.archive

/-- What `#read` throws for a file it can open; its checks have messages of their own. -/
def contentError : FileError JsString := .thrown (js "Snapshot content verification failed")

/-- What `#verifySnapshotBeforeRotation` throws. -/
def stagedError : FileError JsString :=
  .thrown (js "Staged snapshot verification failed before rotation")

/-- What `create` throws for an archive over the limit. -/
def limitError : FileError JsString :=
  .thrown (js "Workspace snapshot exceeds the archive limit")

/-- `#read`. -/
def readArchive (outcome : Outcome) (name : SnapshotFile) : SnapshotProgram Bytes := do
  let file ← Files.read outcome name
  match readSnapshot C O workspaceId file with
  | some archive => pure archive
  | none => throw (.threw contentError)

/-- `createStreamingSnapshotPipeline`. -/
def writeStaging (call : CreateCall) : SnapshotProgram Unit := do
  let file := stagedFile C O workspaceId call
  Files.write (call.faults .openStaging) .staging (file.take call.written)
  rescue (Files.write (call.faults .writeStaging) .staging file) fun error ↦ do
    Files.remove (call.faults .removePartial) .staging
    throw (.threw error)

/-- `#verifySnapshotBeforeRotation`. -/
def verifySnapshotBeforeRotation (call : CreateCall) : SnapshotProgram Unit := do
  let archive ← readArchive C O workspaceId (call.faults .verify) .staging
  if C.sha256 archive ≠ C.sha256 call.archive then
    throw (.threw stagedError)

/-- The `try` of `#rotateVerifiedSnapshots`: whether the current generation is valid. A generation
that cannot be read is removed. -/
def currentIsValid (faults : CreatePoint → Outcome) : SnapshotProgram Bool :=
  rescue (do let _ ← readArchive C O workspaceId (faults .readCurrent) .current; pure true)
    fun error ↦ do
      (match error with
        | .missing => pure ()
        | _ => Files.remove (faults .removeCurrent) .current)
      pure false

/-- The rest of `#rotateVerifiedSnapshots`. -/
def rotate (faults : CreatePoint → Outcome) : SnapshotProgram Unit := do
  Files.remove (faults .removeBackup) .previousBackup
  let previousMoved ← rescue
    (do Files.rename (faults .movePrevious) .previous .previousBackup; pure true) fun error ↦
      match error with
      | .missing => pure false
      | error => throw (.threw error)
  rescue (Files.rename (faults .moveCurrent) .current .previous) fun error ↦ do
    (if previousMoved then
        rescue (Files.rename (faults .moveBack) .previousBackup .previous) fun _ ↦ pure ()
      else pure ())
    throw (.threw error)

/-- `#rotateVerifiedSnapshots`. -/
def rotateVerifiedSnapshots (faults : CreatePoint → Outcome) : SnapshotProgram Unit := do
  if ← currentIsValid C O workspaceId faults then rotate faults

/-- `create`. -/
def create (call : CreateCall) : SnapshotProgram SnapshotRecord := do
  (if O.maxArchiveBytes < call.archive.length then throw (.threw limitError) else pure ())
  Files.pass (call.faults .getKey)
  Files.pass (call.faults .mkdir)
  ensuring (do
      writeStaging C O workspaceId call
      Files.pass (call.faults .afterStagedWrite)
      verifySnapshotBeforeRotation C O workspaceId call
      Files.pass (call.faults .afterStagedVerify)
      rotateVerifiedSnapshots C O workspaceId call.faults
      Files.pass (call.faults .afterRotation)
      Files.rename (call.faults .promote) .staging .current
      Files.pass (call.faults .afterPromotion)
      Files.remove (call.faults .dropBackup) .previousBackup)
    (Files.remove (call.faults .removeStaging) .staging)
  pure ⟨workspaceId, C.sha256 call.archive, call.archive.length, call.createdAt⟩

/-! ## Restoring -/

/-- The archive of a generation, where there is one that can be read. -/
def archiveOf (d : Snapshots) (name : SnapshotFile) : Option Bytes :=
  (d name).bind (readSnapshot C O workspaceId)

/-- `restore`: the archive, and whether it is not the current one. -/
def restore (d : Snapshots) : Option (Bytes × Bool) :=
  match archiveOf C O workspaceId d .current with
  | some archive => some (archive, false)
  | none =>
    match archiveOf C O workspaceId d .previous with
    | some archive => some (archive, true)
    | none => (archiveOf C O workspaceId d .previousBackup).map fun archive ↦ (archive, true)

/-- `hasCandidates`. -/
def hasCandidates (d : Snapshots) : Bool :=
  (d .current).isSome || (d .previous).isSome || (d .previousBackup).isSome

end LiteHarness.Workspace
