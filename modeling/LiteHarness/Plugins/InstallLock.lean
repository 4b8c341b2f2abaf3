import LiteHarness.Domain.Status
import LiteHarness.Foundation.Faults
import LiteHarness.Foundation.OrderedMap
import LiteHarness.Storage.Rows

/-!
# The lockfile of the installed plugins

`PluginInstallLock` keeps what is installed in one file: the packages by `id@version`, what is
active of an identifier, and the cleanups that are still owed. Each operation reads the file, works
on what it has read, and puts a new file in place of the old one. What is read and what is written
goes through `validatePluginLock`.
-/

namespace LiteHarness.Plugins

open Foundation Foundation.Eff

/-! ## What the file holds -/

inductive PluginTrustClass where
  | dataOnly | official | isolated | openclawCompat
  deriving DecidableEq

structure PluginPermissions where
  tools : List JsString := []
  secrets : List JsString := []
  events : List JsString := []
  files : List JsString := []
  networkOrigins : List JsString := []
  deriving DecidableEq

inductive InstallState where
  | staging | activationPending | verified
  deriving DecidableEq

structure PluginLockEntry where
  id : JsString
  version : JsString
  source : JsString
  digest : JsString
  installedAt : JsString
  trust : PluginTrustClass
  grantedPermissions : PluginPermissions
  enabled : Bool
  installState : Option InstallState := none
  verifiedAt : Option JsString := none
  stateDigest : Option JsString := none
  rollbackPossible : Option Bool := none
  deriving DecidableEq

structure PluginActivationRecord where
  activeVersion : Option JsString := none
  previousVersion : Option JsString := none
  resumeVersion : Option JsString := none
  generation : ℤ
  deriving DecidableEq

structure PluginCleanupDebt where
  id : JsString
  version : JsString
  attempts : ℤ
  createdAt : JsString
  updatedAt : JsString
  lastError : JsString
  deriving DecidableEq

/-- What `read` returns. -/
structure PluginLockfile where
  plugins : OrderedMap JsString PluginLockEntry := .empty
  activations : OrderedMap JsString PluginActivationRecord := .empty
  cleanupDebts : OrderedMap JsString PluginCleanupDebt := .empty

/-- The file: there is none, or it is no lockfile, or it is one, which may be of a time without
activations or debts. -/
inductive LockText where
  | missing
  | unreadable
  | holds (plugins : OrderedMap JsString PluginLockEntry)
      (activations : Option (OrderedMap JsString PluginActivationRecord))
      (cleanupDebts : Option (OrderedMap JsString PluginCleanupDebt))

/-- The text of a lockfile. -/
def PluginLockfile.text (lock : PluginLockfile) : LockText :=
  .holds lock.plugins (some lock.activations) (some lock.cleanupDebts)

/-- An optional text as a condition takes it: the empty one is none. -/
def truthy (text : Option JsString) : Option JsString := text.filter (· ≠ [])

/-! ## Validation -/

def isDigit (u : UInt16) : Bool := 48 ≤ u && u ≤ 57

def isLowercase (u : UInt16) : Bool := 97 ≤ u && u ≤ 122

/-- `[0-9A-Za-z]`. -/
def isAlphanumeric (u : UInt16) : Bool := isDigit u || isLowercase u || 65 ≤ u && u ≤ 90

/-- `[a-z0-9._-]`. -/
def isIdUnit (u : UInt16) : Bool := isLowercase u || isDigit u || u = 46 || u = 95 || u = 45

/-- `/^[a-z0-9][a-z0-9._-]{1,127}$/`. -/
def isPluginId : JsString → Bool
  | [] => false
  | u :: rest =>
    (isLowercase u || isDigit u) && (1 ≤ rest.length && rest.length ≤ 127) && rest.all isIdUnit

/-- `(?:0|[1-9]\d*)`. -/
def isNumeral : JsString → Bool
  | [] => false
  | u :: rest => u = 48 && rest = [] || 49 ≤ u && u ≤ 57 && rest.all isDigit

/-- `[0-9A-Za-z]+(?:[.-][0-9A-Za-z]+)*`, where a unit of a word has been read or not. -/
def isWords (read : Bool) : JsString → Bool
  | [] => read
  | u :: rest =>
    if isAlphanumeric u then isWords true rest else read && (u = 46 || u = 45) && isWords false rest

/-- `(?:-[0-9A-Za-z]+(?:[.-][0-9A-Za-z]+)*)?(?:\+[0-9A-Za-z]+(?:[.-][0-9A-Za-z]+)*)?`. -/
def isVersionSuffix : JsString → Bool
  | [] => true
  | u :: rest =>
    if u = 43 then isWords false rest
    else
      u = 45 && isWords false (rest.takeWhile (· ≠ 43)) &&
        match rest.dropWhile (· ≠ 43) with
        | [] => true
        | _ :: build => isWords false build

/-- `isSafePluginVersion`: three numerals and the suffix. -/
def isSafePluginVersion (version : JsString) : Bool :=
  let inCore := fun u ↦ isDigit u || u = 46
  (match (version.takeWhile inCore).splitOn 46 with
    | [major, minor, patch] => isNumeral major && isNumeral minor && isNumeral patch
    | _ => false) && isVersionSuffix (version.dropWhile inCore)

/-- `/^[a-f0-9]{64}$/`. -/
def isHexDigest (digest : JsString) : Bool :=
  digest.length = 64 && digest.all fun u ↦ isDigit u || 97 ≤ u && u ≤ 102

/-- `Number.isSafeInteger(value)`, for an integer. -/
def isSafeInteger (value : ℤ) : Bool := |value| ≤ maxSafeInteger

def validatePackageCoordinates (id version : JsString) : Except JsError Unit :=
  if !isPluginId id then .error (.new (js "Plugin id is invalid"))
  else if !isSafePluginVersion version then .error (.new (js "Plugin version is invalid"))
  else .ok ()

/-- The key of a package: `${id}@${version}`. -/
def packageKey (id version : JsString) : JsString := id ++ 64 :: version

/-- A package whose verification is not over: `["staging", "activation-pending"].includes(…)`. -/
def incomplete (entry : PluginLockEntry) : Bool :=
  entry.installState = some .staging || entry.installState = some .activationPending

def checkEntry (key : JsString) (entry : PluginLockEntry) : Except JsError Unit := do
  validatePackageCoordinates entry.id entry.version
  if key ≠ packageKey entry.id entry.version then
    throw (.new (js "Plugin lockfile key does not match entry: " ++ key))
  if !isHexDigest entry.digest then
    throw (.new (js "Plugin lockfile digest is invalid: " ++ key))
  if entry.stateDigest.any fun digest ↦ !isHexDigest digest then
    throw (.new (js "Plugin state digest is invalid: " ++ key))

/-- A pointer to a package, which must be there, and complete if that is asked. -/
def checkPointer (plugins : OrderedMap JsString PluginLockEntry) (id : JsString) (name : String)
    (complete : Bool) (version : Option JsString) : Except JsError Unit :=
  match truthy version with
  | none => .ok ()
  | some version =>
    match plugins.get? (packageKey id version) with
    | none =>
      .error (.new (js "Plugin " ++ js name ++ js " points to a missing package: " ++
        packageKey id version))
    | some entry =>
      if complete && incomplete entry then
        .error (.new (js "Plugin " ++ js name ++ js " points to an incomplete package: " ++
          packageKey id version))
      else .ok ()

def checkActivation (plugins : OrderedMap JsString PluginLockEntry) (id : JsString)
    (activation : PluginActivationRecord) : Except JsError Unit := do
  if !isSafeInteger activation.generation || activation.generation < 0 then
    throw (.new (js "Plugin activation generation is invalid: " ++ id))
  checkPointer plugins id "activation" true activation.activeVersion
  checkPointer plugins id "rollback" false activation.previousVersion
  checkPointer plugins id "resume" true activation.resumeVersion
  if (truthy activation.activeVersion).isSome && (truthy activation.resumeVersion).isSome then
    throw (.new (js "Plugin activation cannot be active and resumable simultaneously: " ++ id))

def checkEnablement (activations : OrderedMap JsString PluginActivationRecord)
    (entry : PluginLockEntry) : Except JsError Unit :=
  if entry.enabled ≠ decide ((activations.get? entry.id).bind (·.activeVersion) =
      some entry.version) then
    .error (.new (js "Plugin enablement disagrees with its activation record: " ++
      packageKey entry.id entry.version))
  else .ok ()

def checkDebt (plugins : OrderedMap JsString PluginLockEntry) (key : JsString)
    (debt : PluginCleanupDebt) : Except JsError Unit := do
  validatePackageCoordinates debt.id debt.version
  if key ≠ packageKey debt.id debt.version ∨ plugins.get? key = none then
    throw (.new (js "Plugin cleanup debt is invalid: " ++ key))
  if !isSafeInteger debt.attempts || debt.attempts < 1 || 512 < debt.lastError.length then
    throw (.new (js "Plugin cleanup debt is invalid: " ++ key))

/-- `validatePluginLock`. The entries of a map are taken in its order. -/
def validatePluginLock (lock : PluginLockfile) : Except JsError Unit := do
  let _ ← lock.plugins.entries.mapM fun (key, entry) ↦ checkEntry key entry
  let _ ← lock.activations.entries.mapM fun (id, activation) ↦
    checkActivation lock.plugins id activation
  let _ ← lock.plugins.entries.mapM fun (_, entry) ↦ checkEnablement lock.activations entry
  let _ ← lock.cleanupDebts.entries.mapM fun (key, debt) ↦ checkDebt lock.plugins key debt
  pure ()

/-- `deriveLegacyActivations`: what is enabled is active. -/
def deriveLegacyActivations (plugins : OrderedMap JsString PluginLockEntry) :
    Except JsError (OrderedMap JsString PluginActivationRecord) :=
  plugins.entries.foldlM (fun activations (_, entry) ↦
    if !entry.enabled then .ok activations
    else if (activations.get? entry.id).isSome then
      .error (.new (js "Plugin lockfile has multiple enabled generations: " ++ entry.id))
    else .ok (activations.set entry.id { activeVersion := entry.version, generation := 1 })) .empty

/-- `value.activations ?? deriveLegacyActivations(value.plugins)`. -/
def activationsOr (plugins : OrderedMap JsString PluginLockEntry) :
    Option (OrderedMap JsString PluginActivationRecord) →
      Except JsError (OrderedMap JsString PluginActivationRecord)
  | some activations => .ok activations
  | none => deriveLegacyActivations plugins

/-- What is read from a file. -/
def readText : LockText → Except JsError PluginLockfile
  | .missing => .ok {}
  | .unreadable => .error (.new (js "Plugin lockfile is invalid"))
  | .holds plugins activations cleanupDebts => do
    let activations ← activationsOr plugins activations
    validatePluginLock ⟨plugins, activations, cleanupDebts.getD .empty⟩
    pure ⟨plugins, activations, cleanupDebts.getD .empty⟩

/-! ## The operations, on what was read -/

/-- What is inspected of a package, with its `pluginPackageDigest`. -/
structure InspectedPlugin where
  root : JsString
  id : JsString
  version : JsString
  trust : PluginTrustClass
  permissions : PluginPermissions
  digest : Except JsError JsString

/-- What an operator grants. -/
structure PluginGrant where
  tools : Option (List JsString) := none
  secrets : Option (List JsString) := none
  events : Option (List JsString) := none
  files : Option (List JsString) := none
  networkOrigins : Option (List JsString) := none

/-- `intersect`. -/
def intersect (declared : List JsString) : Option (List JsString) → List JsString
  | none => []
  | some granted => granted.eraseDups.filter (· ∈ declared)

def grantPluginPermissions (declared : PluginPermissions) (grant : PluginGrant) :
    PluginPermissions where
  tools := intersect declared.tools grant.tools
  secrets := intersect declared.secrets grant.secrets
  events := intersect declared.events grant.events
  files := intersect declared.files grant.files
  networkOrigins := intersect declared.networkOrigins grant.networkOrigins

/-- What `recordVerification` is given. -/
structure Verification where
  verifiedAt : JsString
  stateDigest : Option JsString := none
  rollbackPossible : Option Bool := none
  activationPending : Bool := false

/-- What an operation returns. -/
inductive LockAnswer where
  | entry (entry : PluginLockEntry)
  | switched (entry : PluginLockEntry) (activation : PluginActivationRecord)
  | debt (debt : PluginCleanupDebt)
  | removed (done : Bool)
  | cleared (count : ℕ)

/-- What an operation makes of what it has read: the lock it writes, if it writes one, and what it
returns. -/
abbrev LockChange := Except JsError (Option PluginLockfile × LockAnswer)

namespace PluginLockfile

variable (lock : PluginLockfile)

/-- What `install` does with what it has read. -/
def install (inspected : InspectedPlugin) (grant : PluginGrant) (now : JsString) : LockChange :=
  let key := packageKey inspected.id inspected.version
  if (lock.plugins.get? key).isSome then
    .error (.new (js "Plugin is already installed: " ++ key))
  else do
    let digest ← inspected.digest
    let entry : PluginLockEntry :=
      { id := inspected.id
        version := inspected.version
        source := inspected.root
        digest := digest
        installedAt := now
        trust := inspected.trust
        grantedPermissions := grantPluginPermissions inspected.permissions grant
        enabled := false
        installState := some .staging }
    .ok (some { lock with plugins := lock.plugins.set key entry }, .entry entry)

/-- The packages, with those of an identifier changed. -/
def changeAll (id : JsString) (change : PluginLockEntry → PluginLockEntry) :
    OrderedMap JsString PluginLockEntry :=
  lock.plugins.mapValues fun candidate ↦ if candidate.id = id then change candidate else candidate

/-- The record `activate` makes of the one there is. -/
def activationOf (current : Option PluginActivationRecord) (version : JsString) :
    PluginActivationRecord where
  activeVersion := some version
  previousVersion :=
    match truthy (current.bind (·.activeVersion)) with
    | some active =>
      if active ≠ version then some active
      else (truthy (current.bind (·.previousVersion))).filter (· ≠ version)
    | none => (truthy (current.bind (·.previousVersion))).filter (· ≠ version)
  generation := (current.elim 0 (·.generation)) + 1

/-- What `activate` does. -/
def activate (id version : JsString) : LockChange := do
  validatePackageCoordinates id version
  match lock.plugins.get? (packageKey id version) with
  | none => .error (.new (js "Plugin is not installed: " ++ packageKey id version))
  | some existing =>
    if existing.installState = some .staging then
      .error (.new (js "Plugin verification is incomplete: " ++ packageKey id version))
    else if (lock.cleanupDebts.get? (packageKey id version)).isSome then
      .error (.new (js "Plugin cleanup is still pending: " ++ packageKey id version))
    else
      let plugins := lock.changeAll id fun candidate ↦
        { candidate with
          enabled := candidate.version = version
          installState := if candidate.version = version then some .verified
            else candidate.installState }
      let activation := activationOf (lock.activations.get? id) version
      .ok (some { lock with
          plugins := plugins
          activations := lock.activations.set id activation },
        .switched ((plugins.get? (packageKey id version)).getD existing) activation)

/-- What `disable` does. -/
def disable (id : JsString) : LockChange :=
  match lock.activations.get? id with
  | none => .error (.new (js "Plugin is not enabled: " ++ id))
  | some current =>
    match truthy current.activeVersion with
    | none => .error (.new (js "Plugin is not enabled: " ++ id))
    | some active =>
      match lock.plugins.get? (packageKey id active) with
      | none =>
        .error (.new (js "Plugin activation points to a missing package: " ++ packageKey id active))
      | some entry =>
        let plugins := lock.changeAll id fun candidate ↦ { candidate with enabled := false }
        let activation : PluginActivationRecord :=
          { previousVersion := (truthy current.previousVersion).filter (· ≠ active)
            resumeVersion := some active
            generation := current.generation + 1 }
        .ok (some { lock with
            plugins := plugins
            activations := lock.activations.set id activation },
          .switched { entry with enabled := false } activation)

/-- What `rollback` does. -/
def rollback (id : JsString) : LockChange :=
  match lock.activations.get? id with
  | none => .error (.new (js "Plugin has no rollback generation: " ++ id))
  | some current =>
    match truthy current.previousVersion with
    | none => .error (.new (js "Plugin has no rollback generation: " ++ id))
    | some previous =>
      match lock.plugins.get? (packageKey id previous) with
      | none => .error (.new (js "Plugin rollback package is missing: " ++ packageKey id previous))
      | some entry =>
        if entry.installState = some .staging then
          .error (.new (js "Plugin verification is incomplete: " ++ packageKey id previous))
        else if (lock.cleanupDebts.get? (packageKey id previous)).isSome then
          .error (.new (js "Plugin cleanup is still pending: " ++ packageKey id previous))
        else
          let plugins := lock.changeAll id fun candidate ↦
            { candidate with enabled := candidate.version = entry.version }
          let activation : PluginActivationRecord :=
            { activeVersion := some entry.version
              previousVersion := truthy (current.activeVersion <|> current.resumeVersion)
              generation := current.generation + 1 }
          .ok (some { lock with
              plugins := plugins
              activations := lock.activations.set id activation },
            .switched { entry with enabled := true } activation)

/-- What `setEnabled` does. `activate` and `disable` read the file once more. -/
def setEnabled (id version : JsString) (enabled : Bool) : LockChange := do
  validatePackageCoordinates id version
  match lock.plugins.get? (packageKey id version) with
  | none => .error (.new (js "Plugin is not installed: " ++ packageKey id version))
  | some existing =>
    if incomplete existing then
      .error (.new (js "Plugin verification is incomplete: " ++ packageKey id version))
    else if enabled then lock.activate id version
    else if (lock.activations.get? id).bind (·.activeVersion) = some version then lock.disable id
    else
      let entry := { existing with enabled := false }
      .ok (some { lock with plugins := lock.plugins.set (packageKey id version) entry },
        .entry entry)

/-- What `recordVerification` does. -/
def recordVerification (id version : JsString) (verification : Verification) : LockChange := do
  validatePackageCoordinates id version
  match lock.plugins.get? (packageKey id version) with
  | none => .error (.new (js "Plugin is not installed: " ++ packageKey id version))
  | some existing =>
    let updated :=
      { existing with
        verifiedAt := some verification.verifiedAt
        stateDigest := verification.stateDigest <|> existing.stateDigest
        rollbackPossible := verification.rollbackPossible <|> existing.rollbackPossible
        installState :=
          some (if verification.activationPending then .activationPending else .verified) }
    .ok (some { lock with plugins := lock.plugins.set (packageKey id version) updated },
      .entry updated)

/-- `lastError.replace(/[\r\n\0]/g, " ").slice(0, 512) || "plugin cleanup failed"`. -/
def debtError (lastError : JsString) : JsString :=
  let line := (lastError.map fun u ↦ if u = 13 ∨ u = 10 ∨ u = 0 then 32 else u).take 512
  if line = [] then js "plugin cleanup failed" else line

/-- What `recordCleanupDebt` does. -/
def recordCleanupDebt (id version : JsString) (attempts : ℤ) (lastError now : JsString) :
    LockChange := do
  validatePackageCoordinates id version
  if !isSafeInteger attempts || attempts < 1 then
    .error (.new (js "Plugin cleanup attempts must be a positive integer"))
  else
    let key := packageKey id version
    if (lock.plugins.get? key).isNone then
      .error (.new (js "Plugin cleanup debt points to a missing package: " ++ key))
    else
      let previous := lock.cleanupDebts.get? key
      let debt : PluginCleanupDebt :=
        { id := id
          version := version
          attempts := previous.elim 0 (·.attempts) + attempts
          createdAt := previous.elim now (·.createdAt)
          updatedAt := now
          lastError := debtError lastError }
      .ok (some { lock with cleanupDebts := lock.cleanupDebts.set key debt }, .debt debt)

/-- What `clearCleanupDebt` does. -/
def clearCleanupDebt (id version : JsString) : LockChange := do
  validatePackageCoordinates id version
  if (lock.cleanupDebts.get? (packageKey id version)).isNone then .ok (none, .removed false)
  else
    .ok (some { lock with cleanupDebts := lock.cleanupDebts.erase (packageKey id version) },
      .removed true)

/-- What `clearAllCleanupDebts` does. -/
def clearAllCleanupDebts : LockChange :=
  if lock.cleanupDebts.size = 0 then .ok (none, .cleared 0)
  else .ok (some { lock with cleanupDebts := .empty }, .cleared lock.cleanupDebts.size)

/-- The record `uninstall` leaves: the pointers to the version are taken out. -/
def withoutVersion (activation : PluginActivationRecord) (version : JsString) :
    PluginActivationRecord where
  activeVersion := truthy activation.activeVersion
  previousVersion := (truthy activation.previousVersion).filter (· ≠ version)
  resumeVersion := (truthy activation.resumeVersion).filter (· ≠ version)
  generation := activation.generation

/-- What `uninstall` does. -/
def uninstall (id version : JsString) : LockChange := do
  validatePackageCoordinates id version
  let key := packageKey id version
  if (lock.plugins.get? key).isNone then .ok (none, .removed false)
  else if (lock.activations.get? id).bind (·.activeVersion) = some version then
    .error (.new (js "Cannot uninstall active plugin generation: " ++ key))
  else if (lock.cleanupDebts.get? key).isSome then
    .error (.new (js "Cannot uninstall plugin generation with pending cleanup debt: " ++ key))
  else
    match lock.activations.get? id with
    | some activation =>
      .ok (some { lock with
          plugins := lock.plugins.erase key
          activations := lock.activations.set id (withoutVersion activation version) },
        .removed true)
    | none =>
      -- every object has a `constructor`, whose generation is `undefined`
      if id = js "constructor" then
        .error (.new (js "Plugin activation generation is invalid: " ++ id))
      else .ok (some { lock with plugins := lock.plugins.erase key }, .removed true)

end PluginLockfile

/-! ## The operations -/

/-- What becomes of the file operations of an operation. -/
structure LockFaults where
  readFile : Outcome := .succeeds
  writeTemporary : Outcome := .succeeds
  rename : Outcome := .succeeds

/-- A program on the file. The temporary files have names of their own and are never read. -/
abbrev LockProgram (α : Type) := Eff LockText (Halt JsError) α

/-- What is thrown when a file operation fails. -/
def fileError : JsError := .new (js "EIO")

def throwing {α : Type} : Except JsError α → Except (Halt JsError) α :=
  Except.mapError Halt.threw

/-- `read`. -/
def read (s : LockFaults) : LockProgram PluginLockfile := do
  let text ← attempt s.readFile fileError fun text ↦ .ok (text, text)
  fromExcept (throwing (readText text))

/-- `#write`. -/
def write (s : LockFaults) (lock : PluginLockfile) : LockProgram PUnit := do
  let _ ← fromExcept (throwing (validatePluginLock lock))
  attempt s.writeTemporary fileError fun text ↦ .ok (⟨⟩, text)
  attempt s.rename fileError fun _ ↦ .ok (⟨⟩, lock.text)

/-- An operation: read, change, write. Where the source checks an argument before it reads, nothing
but the error depends on the order. -/
def transact (s : LockFaults) (change : PluginLockfile → LockChange) : LockProgram LockAnswer := do
  let lock ← read s
  let (written, answer) ← fromExcept (throwing (change lock))
  match written with
  | none => pure answer
  | some lock => do
    write s lock
    pure answer

/-- A call of an operation. -/
inductive LockOperation where
  | install (inspected : InspectedPlugin) (grant : PluginGrant) (now : JsString)
  | setEnabled (id version : JsString) (enabled : Bool)
  | activate (id version : JsString)
  | disable (id : JsString)
  | rollback (id : JsString)
  | recordVerification (id version : JsString) (verification : Verification)
  | recordCleanupDebt (id version : JsString) (attempts : ℤ) (lastError now : JsString)
  | clearCleanupDebt (id version : JsString)
  | clearAllCleanupDebts
  | uninstall (id version : JsString)

/-- What an operation makes of what it has read. -/
def LockOperation.change (lock : PluginLockfile) : LockOperation → LockChange
  | .install inspected grant now => lock.install inspected grant now
  | .setEnabled id version enabled => lock.setEnabled id version enabled
  | .activate id version => lock.activate id version
  | .disable id => lock.disable id
  | .rollback id => lock.rollback id
  | .recordVerification id version verification => lock.recordVerification id version verification
  | .recordCleanupDebt id version attempts lastError now =>
    lock.recordCleanupDebt id version attempts lastError now
  | .clearCleanupDebt id version => lock.clearCleanupDebt id version
  | .clearAllCleanupDebts => lock.clearAllCleanupDebts
  | .uninstall id version => lock.uninstall id version

/-- A call, and what becomes of its file operations. -/
structure LockCall where
  operation : LockOperation
  faults : LockFaults := {}

/-- The program of a call. -/
def LockCall.program (c : LockCall) : LockProgram LockAnswer :=
  transact c.faults fun lock ↦ c.operation.change lock

namespace LockText

/-- One call. -/
def step (file : LockText) (c : LockCall) : LockText := (c.program.run file).2

/-- A run. -/
def run (file : LockText) (calls : List LockCall) : LockText := calls.foldl step file

end LockText

end LiteHarness.Plugins
