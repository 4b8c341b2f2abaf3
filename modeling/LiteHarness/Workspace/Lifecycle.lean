import LiteHarness.Workspace.Snapshots

/-!
# The lifecycle of a managed workspace

`ManagedWorkspaceLifecycle` decides what a run finds in its workspace. `prepare` brings the volume
back where it is missing or cold, and marks the workspace as in use; `checkpoint` stores a snapshot
of the volume. The state of the workspace is a row of the database, which is changed by
compare-and-set.

A call is a program whose operations may fail, be the one at which the caller's signal aborts, or be
the one before which the Manager dies. A command that is given to the daemon may take effect and
still not be answered, and a replacement that is broken off leaves whatever it has copied so far.
-/

namespace LiteHarness.Workspace

open Foundation Foundation.Eff

/-! ## A workspace -/

/-- `WorkspaceRecord["state"]`. -/
inductive WorkspaceState where
  | warm
  | cold
  | restoring
  | inUse
  | snapshotting
  | corrupt
  | error
  deriving DecidableEq

/-- The state as the database has it. -/
def WorkspaceState.name : WorkspaceState → JsString
  | warm => js "WARM"
  | cold => js "COLD"
  | restoring => js "RESTORING"
  | inUse => js "IN_USE"
  | snapshotting => js "SNAPSHOTTING"
  | corrupt => js "CORRUPT"
  | error => js "ERROR"

/-- `WorkspaceRecord["mode"]`. -/
inductive WorkspaceMode where
  | managed
  | registeredBind
  deriving DecidableEq

/-- What a volume may hold, and `tar`. -/
structure Tar (τ : Type) where
  /-- A volume that has just been made. -/
  empty : τ
  pack : τ → Bytes
  unpack : Bytes → Option τ

/-- One return of `restore`: the generations, what became of reading them, and the archive. -/
structure Recovery where
  files : Snapshots
  faults : SnapshotFile → Outcome
  archive : Bytes

/-- A workspace: the row, the volume and the snapshots. -/
structure ManagedWorkspace (τ : Type) where
  mode : WorkspaceMode := .managed
  state : WorkspaceState := .warm
  volume : Option τ := none
  snapshots : Snapshots := fun _ ↦ none
  /-- Whether the signal of the call has aborted. -/
  aborted : Bool := false
  /-- What has been restored; nothing reads it. -/
  recovered : List Recovery := []
  /-- What has been exported for a snapshot; nothing reads it. -/
  captured : List Bytes := []
  /-- The changes of the state, before and after; nothing reads them. -/
  changes : List (WorkspaceState × WorkspaceState) := []

/-- What a run finds: a missing volume is made, empty, when it is first mounted. -/
def ManagedWorkspace.contents {τ : Type} (T : Tar τ) (s : ManagedWorkspace τ) : τ :=
  s.volume.getD T.empty

/-- The operations of the calls, in the order in which they stand there. -/
inductive LifecyclePoint where
  | start
  | load
  | inspectError
  | inspectWarm
  | update (expected state : WorkspaceState)
  | restore
  | readSnapshot (name : SnapshotFile)
  | validate
  | createVolume
  | volumeLabels
  | initializeVolume
  | createStaging
  | createBackup
  | extract
  | copy
  | clear
  | fill
  | rollbackClear
  | rollbackFill
  | verifyRollback
  | removeStaging
  | fallBack
  | queue
  | exportVolume
  | removeVolume
  deriving DecidableEq

/-- A call of `prepare` or `checkpoint`, and what becomes of its operations. -/
structure LifecycleCall (τ : Type) where
  faults : LifecyclePoint → Outcome := fun _ ↦ .succeeds
  /-- What becomes of the answer to a command that has taken effect. -/
  answers : LifecyclePoint → Outcome := fun _ ↦ .succeeds
  /-- Whether the signal aborts during the operation. -/
  aborts : LifecyclePoint → Bool := fun _ ↦ false
  /-- What a replacement that is broken off leaves. -/
  torn : LifecyclePoint → τ
  makeCold : Bool := false
  /-- The call of `create`, but for its archive. -/
  snapshot : CreateCall

/-- A program on a workspace. -/
abbrev LifecycleProgram (τ α : Type) := Eff (ManagedWorkspace τ) (Halt (FileError JsString)) α

/-- `{ restored, recoveredFromPrevious }`. -/
structure Prepared where
  restored : Bool
  recoveredFromPrevious : Bool
  deriving DecidableEq

/-- `WorkspaceCheckpointResult`. -/
structure WorkspaceCheckpointResult where
  state : WorkspaceState
  snapshot : Option SnapshotRecord
  skipped : Bool

variable (C : NodeCrypto) (O : SnapshotOptions) {τ : Type} (T : Tar τ)
  (workspaceId identity : JsString) (call : LifecycleCall τ)

/-! ## Reading the snapshots -/

/-- What `restore` throws. -/
def noSnapshotError : FileError JsString := .thrown (js "No valid snapshot is available for " ++ identity)

/-- `restore`, where reading a generation may fail. -/
def restoreWith (faults : SnapshotFile → Outcome) : SnapshotProgram (Bytes × Bool) :=
  rescue (do pure (← readArchive C O identity (faults .current) .current, false)) fun _ ↦
    rescue (do pure (← readArchive C O identity (faults .previous) .previous, true)) fun _ ↦
      rescue (do pure (← readArchive C O identity (faults .previousBackup) .previousBackup, true))
        fun _ ↦ throw (.threw (noSnapshotError identity))

/-! ## The signal and the daemon -/

/-- `signal?.throwIfAborted()`. -/
def throwIfAborted : LifecycleProgram τ Unit := do
  let s ← Eff.get
  (if s.aborted then throw (.threw .failed) else pure ())

/-- The signal may abort during the operation. -/
def noteAbort (p : LifecyclePoint) : LifecycleProgram τ Unit :=
  modify fun s ↦ { s with aborted := s.aborted || call.aborts p }

/-- The daemon does what it is told to do. -/
def carry (p : LifecyclePoint) (effect : Option τ → Option τ) : LifecycleProgram τ Unit :=
  attempt (call.faults p) .failed fun s ↦ .ok ((), { s with volume := effect s.volume })

/-- The answer of the daemon. -/
def answer (p : LifecyclePoint) : LifecycleProgram τ Unit :=
  attempt (call.answers p) .failed fun s ↦ .ok ((), s)

/-- A command that takes the signal of the caller. -/
def command (p : LifecyclePoint) (effect : Option τ → Option τ) : LifecycleProgram τ Unit := do
  throwIfAborted
  noteAbort call p
  carry call p effect
  throwIfAborted
  answer call p

/-! ## The runtime

The staging and the backup volume have names of their own, so that one that is left behind is never
looked at again; what they hold is a value of the program. -/

/-- `workspaceExists`. -/
def workspaceExists (p : LifecyclePoint) : LifecycleProgram τ Bool := do
  throwIfAborted
  noteAbort call p
  let found ← attempt (call.faults p) .failed fun s ↦ .ok (s.volume.isSome, s)
  throwIfAborted
  pure found

/-- `#ensureVolume`. -/
def ensureVolume : LifecycleProgram τ Unit := do
  command call .createVolume fun volume ↦ some (volume.getD T.empty)
  command call .volumeLabels id
  command call .initializeVolume id

/-- `#replaceVolumeContents` on the target, with the signal of the caller. -/
def replaceVolumeContents (tree : τ) : LifecycleProgram τ Unit := do
  throwIfAborted
  noteAbort call .fill
  carry call .clear fun _ ↦ some (call.torn .clear)
  carry call .fill fun _ ↦ some tree
  throwIfAborted
  answer call .fill

/-- `#replaceVolumeContents` and `#verifyVolumeContents` without a signal. -/
def rollBack (tree : τ) : LifecycleProgram τ Unit := do
  carry call .rollbackClear fun _ ↦ some (call.torn .rollbackClear)
  carry call .rollbackFill fun _ ↦ some tree
  answer call .rollbackFill
  answer call .verifyRollback

/-- What `importWorkspace` throws when its rollback fails, too. -/
def rollbackError : FileError JsString :=
  .thrown (js "Workspace restore failed and rollback could not be verified")

/-- What `importWorkspace` throws when `tar` cannot read the archive. -/
def stagingError : FileError JsString := .thrown (js "Could not stage workspace restore")

/-- `tar -x` in the staging volume. -/
def extractArchive (archive : Bytes) : LifecycleProgram τ τ := do
  command call .extract id
  match T.unpack archive with
  | some tree => pure tree
  | none => throw (.threw stagingError)

/-- `#copyVolume` from the target to the backup volume. -/
def copyVolume : LifecycleProgram τ τ := do
  command call .copy id
  let s ← Eff.get
  pure (s.contents T)

/-- `importWorkspace`. -/
def importWorkspace (archive : Bytes) : LifecycleProgram τ Unit := do
  attempt (call.faults .validate) .failed fun s ↦ .ok ((), s)
  ensureVolume T call
  ensuring (do
      command call .createStaging id
      command call .createBackup id
      let tree ← extractArchive T call archive
      let saved ← copyVolume T call
      rescue (replaceVolumeContents call tree) fun error ↦ do
        rescue (rollBack call saved) fun _ ↦ throw (.threw rollbackError)
        throw (.threw error))
    -- errors of the removals are dropped, and the volumes are not looked at again
    (rescue (attempt (call.faults .removeStaging) .failed fun s ↦ .ok ((), s)) fun _ ↦ pure ())

/-- `exportWorkspace`. -/
def exportWorkspace : LifecycleProgram τ Bytes := do
  ensureVolume T call
  command call .exportVolume id
  let s ← Eff.get
  pure (T.pack (s.contents T))

/-- `removeWorkspace`: a command that fails is no error. -/
def removeWorkspace : LifecycleProgram τ Bool := do
  let removed ← rescue (do carry call .removeVolume fun _ ↦ none; pure true) fun _ ↦ pure false
  answer call .removeVolume
  pure removed

/-! ## `ManagedWorkspaceLifecycle` -/

/-- `#workspace`. -/
def loadWorkspace : LifecycleProgram τ (ManagedWorkspace τ) :=
  attempt (call.faults .load) .failed fun s ↦ .ok (s, s)

/-- What `#transition` throws. -/
def transitionError (expected state : WorkspaceState) : FileError JsString :=
  .thrown (js "Workspace state changed while transitioning " ++ expected.name ++ js " to " ++
    state.name)

/-- `updateWorkspaceState` and `#transition`. -/
def transition (p : LifecyclePoint) (expected state : WorkspaceState) : LifecycleProgram τ Unit :=
  attempt (call.faults p) .failed fun s ↦
    if s.state = expected then
      .ok ((), { s with state := state, changes := s.changes ++ [(s.state, state)] })
    else .error (transitionError expected state)

/-- The restore of `prepare`, up to the record of what it has returned. -/
def recover : LifecycleProgram τ (Bytes × Bool) := do
  noteAbort call .restore
  let faults := fun name ↦ call.faults (.readSnapshot name)
  let found ← zoom ManagedWorkspace.snapshots (fun files s ↦ { s with snapshots := files })
    (restoreWith C O identity faults)
  modify fun s ↦ { s with recovered := s.recovered ++ [⟨s.snapshots, faults, found.1⟩] }
  throwIfAborted
  pure found

/-- The state a restore that is aborted goes back to. -/
def restoreFallbackState (state : WorkspaceState) : WorkspaceState :=
  if state = .cold then .cold else .warm

/-- The `catch` of the restore. -/
def abandonRestore (fallback : WorkspaceState) (error : FileError JsString) :
    LifecycleProgram τ Prepared := do
  let s ← Eff.get
  (if s.aborted then transition call .fallBack .restoring fallback
    else if hasCandidates s.snapshots then transition call .fallBack .restoring .corrupt
    else transition call .fallBack .restoring .error)
  throw (.threw error)

/-- The restore of `prepare`; it ends in `WARM`. -/
def restoreWorkspace (state : WorkspaceState) : LifecycleProgram τ Prepared := do
  (if state ≠ .restoring then transition call (.update state .restoring) state .restoring
    else pure ())
  rescue (do
      let found ← recover C O identity call
      importWorkspace T call found.1
      transition call (.update .restoring .warm) .restoring .warm
      pure ⟨true, found.2⟩)
    (abandonRestore call (restoreFallbackState state))

/-- What `prepare` throws for a workspace that has nothing to go on with. -/
def recoveryError : FileError JsString := .thrown (js "Workspace requires recovery: " ++ workspaceId)

/-- What `prepare` throws for a workspace whose snapshots cannot be read. -/
def corruptError : FileError JsString :=
  .thrown (js "Workspace snapshot is corrupt: " ++ workspaceId)

/-- What `prepare` does in `ERROR`, and the state it leaves. -/
def leaveError : LifecycleProgram τ WorkspaceState := do
  let found ← workspaceExists call .inspectError
  if found then do
    transition call (.update .error .warm) .error .warm
    pure .warm
  else do
    let s ← Eff.get
    if hasCandidates s.snapshots then do
      transition call (.update .error .restoring) .error .restoring
      pure .restoring
    else throw (.threw (recoveryError workspaceId))

/-- What `prepare` does in `IN_USE` and `SNAPSHOTTING`, and the state it leaves. -/
def leaveUse (state : WorkspaceState) : LifecycleProgram τ WorkspaceState :=
  if state = .inUse ∨ state = .snapshotting then do
    transition call (.update state .warm) state .warm
    pure .warm
  else pure state

/-- Whether the volume of a warm workspace is missing. -/
def missingWarmVolume (state : WorkspaceState) : LifecycleProgram τ Bool :=
  if state = .warm then do
    let found ← workspaceExists call .inspectWarm
    pure !found
  else pure false

/-- The end of `prepare`. -/
def enterUse (state : WorkspaceState) (missing : Bool) : LifecycleProgram τ Prepared := do
  let s ← Eff.get
  if state = .cold ∨ state = .restoring ∨ (missing && hasCandidates s.snapshots) then do
    let prepared ← restoreWorkspace C O T identity call state
    transition call (.update .warm .inUse) .warm .inUse
    pure prepared
  else do
    transition call (.update state .inUse) state .inUse
    pure ⟨false, false⟩

/-- `prepare`. -/
def prepare : LifecycleProgram τ Prepared := do
  noteAbort call .start
  throwIfAborted
  let workspace ← loadWorkspace call
  if workspace.mode = .registeredBind then pure ⟨false, false⟩
  else do
    (if workspace.state = .corrupt then throw (.threw (corruptError workspaceId)) else pure ())
    let state ← (if workspace.state = .error then leaveError workspaceId call
      else pure workspace.state)
    let state ← leaveUse call state
    let missing ← missingWarmVolume call state
    enterUse C O T identity call state missing

/-- The `snapshotJob` of `checkpoint`. The queue may refuse to start it. -/
def snapshotJob : LifecycleProgram τ SnapshotRecord := do
  attempt (call.faults .queue) .failed fun s ↦ .ok ((), s)
  let archive ← exportWorkspace T call
  modify fun s ↦ { s with captured := s.captured ++ [archive] }
  zoom ManagedWorkspace.snapshots (fun files s ↦ { s with snapshots := files })
    (create C O identity { call.snapshot with archive := archive })

/-- The `try` of `checkpoint`. -/
def storeSnapshot : LifecycleProgram τ WorkspaceCheckpointResult := do
  let record ← snapshotJob C O T identity call
  if call.makeCold then do
    let _ ← removeWorkspace call
    transition call (.update .snapshotting .cold) .snapshotting .cold
    pure ⟨.cold, some record, false⟩
  else do
    transition call (.update .snapshotting .warm) .snapshotting .warm
    pure ⟨.warm, some record, false⟩

/-- `checkpoint`. -/
def checkpoint : LifecycleProgram τ WorkspaceCheckpointResult := do
  noteAbort call .start
  throwIfAborted
  let workspace ← loadWorkspace call
  if workspace.mode = .registeredBind then pure ⟨.warm, none, true⟩
  else do
    transition call (.update .inUse .snapshotting) .inUse .snapshotting
    rescue (storeSnapshot C O T identity call) fun error ↦ do
      transition call .fallBack .snapshotting .error
      throw (.threw error)

end LiteHarness.Workspace
