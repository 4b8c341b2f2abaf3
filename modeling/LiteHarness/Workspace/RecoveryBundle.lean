import LiteHarness.Foundation.Checks
import LiteHarness.Foundation.FileTree
import LiteHarness.Platform.Paths
import LiteHarness.Storage.Rows
import LiteHarness.Workspace.SnapshotFormat

/-!
# Recovery bundles

A recovery bundle is one encrypted file that holds the files of an installation with their paths.
`createRecoveryBundle` checks the paths, sorts the entries and encrypts them; `restoreRecoveryBundle`
opens a bundle, writes its files below a staging directory, and renames that directory to the target.
-/

namespace LiteHarness.Workspace

open Foundation Foundation.Eff

/-! ## The host -/

/-- What the program takes from the host besides `NodeCrypto`. -/
structure RecoveryHost extends NodeCrypto where
  /-- `left.localeCompare(right) <= 0`. -/
  localeLe : JsString → JsString → Bool
  /-- `Buffer.from(value, "base64")` of a value that is not a string, where it does not throw. -/
  bufferFrom : JsValue → Option Bytes

/-- The names of the file system. -/
structure PathNames (ν : Type) where
  /-- The name of a file with a given component of a path, where the file system can have one. -/
  name : JsString → Option ν
  /-- The place a path stands for. -/
  resolve : JsString → List ν
  /-- `dirname(path)`. -/
  dirname : JsString → JsString

/-! ## Entries -/

/-- `RecoveryBundleEntry`. -/
structure RecoveryBundleEntry where
  path : JsString
  data : Bytes

/-- `MAX_RECOVERY_ENTRIES`. -/
def maxRecoveryEntries : ℕ := 10000

/-- `MAX_RECOVERY_BYTES`. -/
def maxRecoveryBytes : ℕ := 512 * 1024 * 1024

/-- `RECOVERY_MAGIC`. -/
def recoveryMagic : Bytes := ascii "LHR1" ++ [10]

/-- `validateRecoveryKey`. -/
def validateRecoveryKey (key : Bytes) : Except JsString Unit :=
  if key.length = 32 then .ok () else .error (js "Recovery key must be exactly 32 bytes")

/-- `validateRecoveryEntryPath`. -/
def validateRecoveryEntryPath (value : JsString) : Except JsString JsString :=
  if value = [] ∨ value = js "." then .error (js "Recovery bundle entry path is required")
  else if !isWorkspacePath value then .error (js "Unsafe workspace path: " ++ value)
  else if js ".lite-harness/" <+: value then .error (js "Recovery bundle entry path is reserved")
  else .ok (slashes value)

/-! ## Creating -/

/-- What `createRecoveryBundle` draws. -/
structure RecoveryDraw where
  /-- The text of the time and the random bytes the id is made from. -/
  seed : Bytes
  createdAt : JsString
  nonce : Bytes

/-- The header of a bundle; `schemaVersion` and `algorithm` are fixed. -/
structure RecoveryHeader where
  bundleId : JsString
  createdAt : JsString
  manifestSha256 : JsString
  nonce : JsString
  deriving DecidableEq

/-- The record that is written. -/
def RecoveryHeader.fields (h : RecoveryHeader) : List (JsString × JsValue) :=
  [(js "schemaVersion", .number (.finite 1)), (js "bundleId", .string h.bundleId),
    (js "createdAt", .string h.createdAt), (js "manifestSha256", .string h.manifestSha256),
    (js "nonce", .string h.nonce), (js "algorithm", .string (js "aes-256-gcm+gzip"))]

variable (H : RecoveryHost)

/-- An entry of the manifest, as it is written. -/
def manifestEntryFields (e : RecoveryBundleEntry) : JsValue :=
  .object [(js "path", .string e.path), (js "bytes", .number (.finite (e.data.length : ℚ))),
    (js "sha256", .string (H.sha256 e.data))]

/-- An entry of the payload, as it is written. -/
def payloadEntryFields (e : RecoveryBundleEntry) : JsValue :=
  .object [(js "path", .string e.path), (js "data", .string (H.toBase64 e.data))]

/-- The manifest of the entries, as it is written. -/
def manifestFields (bundleId createdAt : JsString) (entries : List RecoveryBundleEntry) :
    List (JsString × JsValue) :=
  [(js "schemaVersion", .number (.finite 1)), (js "bundleId", .string bundleId),
    (js "createdAt", .string createdAt),
    (js "entries", .array (entries.map (manifestEntryFields H)))]

/-- The payload, as it is written. -/
def payloadFields (bundleId createdAt : JsString) (entries : List RecoveryBundleEntry) :
    List (JsString × JsValue) :=
  [(js "manifest", .object (manifestFields H bundleId createdAt entries)),
    (js "entries", .array (entries.map (payloadEntryFields H)))]

/-- `recoveryAssociatedData`. -/
def recoveryAssociatedData (h : RecoveryHeader) : Bytes := recoveryMagic ++ H.stringify h.fields

/-- The entries with their paths validated, in their order. -/
def normalizeEntries (entries : List RecoveryBundleEntry) :
    Except JsString (List RecoveryBundleEntry) := do
  let normalized ← entries.mapM fun e ↦ do
    let path ← validateRecoveryEntryPath e.path
    .ok ⟨path, e.data⟩
  .ok (normalized.mergeSort fun left right ↦ H.localeLe left.path right.path)

/-- The id of a bundle. -/
def bundleIdOf (draw : RecoveryDraw) : JsString := (H.sha256 draw.seed).take 32

/-- The header of a bundle. -/
def headerOf (draw : RecoveryDraw) (normalized : List RecoveryBundleEntry) : RecoveryHeader where
  bundleId := bundleIdOf H draw
  createdAt := draw.createdAt
  manifestSha256 :=
    H.sha256 (H.stringify (manifestFields H (bundleIdOf H draw) draw.createdAt normalized))
  nonce := H.toBase64 draw.nonce

/-- The compressed payload of a bundle. -/
def sealedPayload (draw : RecoveryDraw) (normalized : List RecoveryBundleEntry) : Bytes :=
  H.gzip (H.stringify (payloadFields H (bundleIdOf H draw) draw.createdAt normalized))

/-- The ciphertext and the tag of a bundle. -/
def sealBundle (draw : RecoveryDraw) (normalized : List RecoveryBundleEntry) (key : Bytes) :
    Bytes × Bytes :=
  H.encrypt key draw.nonce (recoveryAssociatedData H (headerOf H draw normalized))
    (sealedPayload H draw normalized)

/-- The file of a bundle. -/
def encodeBundle (draw : RecoveryDraw) (normalized : List RecoveryBundleEntry) (key : Bytes) :
    Bytes :=
  recoveryMagic ++ (H.stringify (headerOf H draw normalized).fields ++ 10 ::
    ((sealBundle H draw normalized key).1 ++ (sealBundle H draw normalized key).2))

/-- `createRecoveryBundle`. -/
def createRecoveryBundle (draw : RecoveryDraw) (entries : List RecoveryBundleEntry) (key : Bytes) :
    Except JsString Bytes := do
  validateRecoveryKey key
  (if entries = [] ∨ maxRecoveryEntries < entries.length then
    .error (js "Recovery bundle entry count is invalid") else .ok ())
  let normalized ← normalizeEntries H entries
  (if ¬(normalized.map RecoveryBundleEntry.path).Nodup then
    .error (js "Recovery bundle contains duplicate paths") else .ok ())
  (if maxRecoveryBytes < (normalized.map fun e ↦ e.data.length).sum then
    .error (js "Recovery bundle exceeds the archive limit") else .ok ())
  .ok (encodeBundle H draw normalized key)

/-! ## Opening -/

/-- The items of an array. -/
def arrayItems : JsValue → Option (List JsValue)
  | .array items => some items
  | _ => none

/-- An entry of a manifest that has been read. -/
structure RecoveryManifestEntry where
  path : JsString
  bytes : ℕ
  sha256 : JsString

/-- A manifest that has been read. -/
structure RecoveryManifest where
  bundleId : JsString
  entries : List RecoveryManifestEntry

/-- The header in `parseRecoveryBundle`. -/
def readRecoveryHeader (raw : JsValue) : Option RecoveryHeader := do
  let bundleId ← (raw.get "bundleId").asString
  let createdAt ← (raw.get "createdAt").asString
  let manifestSha256 ← (raw.get "manifestSha256").asString
  let nonce ← (raw.get "nonce").asString
  if (raw.get "schemaVersion").asCount = some 1 ∧
      (raw.get "algorithm").asString = some (js "aes-256-gcm+gzip") then
    some ⟨bundleId, createdAt, manifestSha256, nonce⟩
  else none

/-- `parseRecoveryBundle`: the header, the ciphertext and the tag. -/
def parseRecoveryBundle (bundle : Bytes) : Except JsString (RecoveryHeader × Bytes × Bytes) :=
  if bundle.take recoveryMagic.length ≠ recoveryMagic then
    .error (js "Recovery bundle magic is invalid")
  else
    match cutLine (bundle.drop recoveryMagic.length) with
    | none => .error (js "Recovery bundle header is missing")
    | some (line, rest) =>
      match H.parse line with
      | none => .error (js "SyntaxError")
      | some raw =>
        match readRecoveryHeader raw with
        | none => .error (js "Recovery bundle header is invalid")
        | some h =>
          if (H.fromBase64 h.nonce).length ≠ 12 then .error (js "Recovery bundle nonce is invalid")
          else if rest.length ≤ snapshotTagBytes then
            .error (js "Recovery bundle payload is missing")
          else
            .ok (h, rest.take (rest.length - snapshotTagBytes),
              rest.drop (rest.length - snapshotTagBytes))

/-- An entry in `validateRecoveryPayload`. A digest that is not a string is refused here; the code
refuses it when it compares it. -/
def readManifestEntry (value : JsValue) : Except JsString RecoveryManifestEntry :=
  match (value.get "path").asString with
  | none => .error (js "TypeError")
  | some path => do
    let _ ← validateRecoveryEntryPath path
    match (value.get "bytes").asCount, (value.get "sha256").asString with
    | some bytes, some sha256 =>
      if isDigest sha256 then .ok ⟨path, bytes, sha256⟩
      else .error (js "Recovery bundle manifest entry is invalid")
    | _, _ => .error (js "Recovery bundle manifest entry is invalid")

/-- `validateRecoveryPayload`: the manifest, and the entries of the payload. -/
def validateRecoveryPayload (payload : JsValue) (h : RecoveryHeader) :
    Except JsString (RecoveryManifest × List JsValue) :=
  match payload.get "manifest", arrayItems ((payload.get "manifest").get "entries") with
  | .object fields, some items => do
    (if ((JsValue.object fields).get "schemaVersion").asCount = some 1 ∧
        ((JsValue.object fields).get "bundleId").asString = some h.bundleId ∧
        H.sha256 (H.stringify fields) = h.manifestSha256 then .ok ()
      else .error (js "Recovery bundle manifest is invalid"))
    (if items = [] ∨ maxRecoveryEntries < items.length then
      .error (js "Recovery bundle entry count is invalid") else .ok ())
    let entries ← items.mapM readManifestEntry
    (if maxRecoveryBytes < (entries.map RecoveryManifestEntry.bytes).sum then
      .error (js "Recovery bundle exceeds the archive limit") else .ok ())
    (if ¬(entries.map RecoveryManifestEntry.path).Nodup then
      .error (js "Recovery bundle contains duplicate paths") else .ok ())
    match arrayItems (payload.get "entries") with
    | some sources =>
      if sources.length = entries.length then .ok (⟨h.bundleId, entries⟩, sources)
      else .error (js "Recovery bundle payload entries are invalid")
    | none => .error (js "Recovery bundle payload entries are invalid")
  | _, _ => .error (js "Recovery bundle manifest is invalid")

/-- The part of `restoreRecoveryBundle` before anything is written. -/
def openRecoveryBundle (bundle key : Bytes) : Except JsString (RecoveryManifest × List JsValue) := do
  let (h, ciphertext, tag) ← parseRecoveryBundle H bundle
  match H.decrypt key (H.fromBase64 h.nonce) (recoveryAssociatedData H h) ciphertext tag with
  | none => .error (js "Recovery bundle authentication failed")
  | some compressed =>
    match (H.gunzip compressed).bind H.parse with
    | none => .error (js "Recovery bundle authentication failed")
    | some payload => validateRecoveryPayload H payload h

/-- The path and the data of an entry of the payload. -/
def readSource (value : JsValue) : Except JsString (JsString × JsValue) :=
  match value.get "path" with
  | .string path => do
    let path ← validateRecoveryEntryPath path
    match value.get "data" with
    | .undefined => .ok (path, .string [])
    | .null => .ok (path, .string [])
    | data => .ok (path, data)
  | _ => .error (js "TypeError")

/-- `Buffer.from(value, "base64")`. -/
def decodeData : JsValue → Except JsString Bytes
  | .string text => .ok (H.fromBase64 text)
  | value =>
    match H.bufferFrom value with
    | some data => .ok data
    | none => .error (js "TypeError")

/-- The data of an entry of the manifest, checked against it. -/
def entryData (sources : List (JsString × JsValue)) (e : RecoveryManifestEntry) :
    Except JsString Bytes :=
  match sources.reverse.find? fun source ↦ source.1 = e.path with
  | none => .error (js "Recovery bundle entry is missing: " ++ e.path)
  | some source => do
    let data ← decodeData H source.2
    if data.length = e.bytes ∧ H.sha256 data = e.sha256 then .ok data
    else .error (js "Recovery bundle entry integrity failed: " ++ e.path)

/-! ## Restoring -/

/-- The operations of a restore. -/
inductive RestoreOperation (ν : Type) where
  | makeStaging
  | makeDirectory (path : JsString) (directory : List ν)
  | openFile (path : JsString)
  | writeFile (path : JsString)
  | makeParent (directory : List ν)
  | rename
  | removeStaging

/-- A call of `restoreRecoveryBundle`, the name `mkdtemp` chooses, and what becomes of its
operations. -/
structure RestoreCall (ν : Type) where
  bundle : Bytes
  key : Bytes
  targetRoot : JsString
  temporary : ν
  fault : RestoreOperation ν → Outcome

/-- `RecoveryBundleRestoreResult`. -/
structure RecoveryBundleRestoreResult where
  manifest : RecoveryManifest
  restoredPaths : List JsString

variable {ν : Type} [DecidableEq ν] (N : PathNames ν) (call : RestoreCall ν)

/-- The place of the target. -/
def RestoreCall.target : List ν := N.resolve call.targetRoot

/-- The place of the directory the target is in. -/
def RestoreCall.parent : List ν := N.resolve (N.dirname call.targetRoot)

/-- The place of the staging directory. -/
def RestoreCall.staging : List ν := call.parent N ++ [call.temporary]

/-- The place of an entry below the directory it is joined to. -/
def PathNames.below (path : JsString) : Option (List ν) :=
  ((path.splitOnP fun u ↦ u = 47).filter fun part ↦ part ≠ js ".").mapM N.name

/-- A program on the files of an installation. -/
abbrev RestoreProgram (ν α : Type) := FileTree.Program ν Bytes JsString α

/-- Throw what a check throws. -/
def checked {α : Type} (x : Except JsString α) : RestoreProgram ν α :=
  match x with
  | .ok a => pure a
  | .error message => throw (.threw (.thrown message))

/-- One round of the loop over the manifest. -/
def restoreEntry (sources : List (JsString × JsValue)) (e : RecoveryManifestEntry) :
    RestoreProgram ν PUnit := do
  let data ← checked (entryData H sources e)
  match N.below e.path with
  | none => throw (.threw .failed)
  | some rel => do
    let destination := call.staging N ++ rel
    FileTree.ensureDirectories (fun directory ↦ call.fault (.makeDirectory e.path directory))
      destination.dropLast
    FileTree.writeFile (call.fault (.openFile e.path)) destination []
    FileTree.writeFile (call.fault (.writeFile e.path)) destination data

/-- The body of the `try`. -/
def fillStaging (manifest : RecoveryManifest) (values : List JsValue) :
    RestoreProgram ν RecoveryBundleRestoreResult := do
  let sources ← checked (values.mapM readSource)
  forEach (restoreEntry H N call sources) manifest.entries
  FileTree.ensureDirectories (fun directory ↦ call.fault (.makeParent directory)) (call.parent N)
  FileTree.renameDirectory (call.fault .rename) (call.staging N) (call.target N)
  pure ⟨manifest, manifest.entries.map RecoveryManifestEntry.path⟩

/-- `restoreRecoveryBundle`. -/
def restoreRecoveryBundle : RestoreProgram ν RecoveryBundleRestoreResult := do
  checked (validateRecoveryKey call.key)
  (if call.targetRoot.all isStrWhiteSpace then
    throw (.threw (.thrown (js "Recovery target is required"))) else pure ⟨⟩)
  let t ← get
  (if !t.isFree (call.target N) then
    throw (.threw (.thrown (js "Recovery target must be a clean, non-existent installation")))
    else pure ⟨⟩)
  let (manifest, values) ← checked (openRecoveryBundle H call.bundle call.key)
  FileTree.makeDirectory (call.fault .makeStaging) (call.staging N)
  rescue (fillStaging H N call manifest values) fun e ↦ do
    FileTree.removeTree (call.fault .removeStaging) (call.staging N)
    throw (.threw e)

end LiteHarness.Workspace
