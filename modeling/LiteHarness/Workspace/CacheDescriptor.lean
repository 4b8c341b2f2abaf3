import LiteHarness.Foundation.Checks
import LiteHarness.Platform.Runtime
import LiteHarness.Storage.EventText
import LiteHarness.Workspace.SnapshotFormat

/-!
# Cache descriptors

A cache entry is found by a digest of everything its contents depend on: what it was made from, what
it was made with, and whom it belongs to. `cacheKey` writes these as JSON, with the names of the
version maps in the order of the host's collation.
-/

namespace LiteHarness.Workspace

open Foundation

/-! ## The host -/

/-- `CacheClass`. -/
inductive CacheClass where
  | globalImmutable
  | tenantPrivate
  | workspacePrivate
  deriving DecidableEq

/-- The class as it is written. -/
def CacheClass.name : CacheClass → JsString
  | globalImmutable => js "global-immutable"
  | tenantPrivate => js "tenant-private"
  | workspacePrivate => js "workspace-private"

/-- The pattern of the name of a version: 1 to 128 letters, digits and signs. -/
def isVersionName (name : JsString) : Bool :=
  1 ≤ name.length && name.length ≤ 128 &&
    name.all fun u ↦ (48 ≤ u.toNat && u.toNat ≤ 57) || (65 ≤ u.toNat && u.toNat ≤ 90) ||
      (97 ≤ u.toNat && u.toNat ≤ 122) || u ∈ js "._@/-"

/-- `left.localeCompare(right) <= 0`, which tells the names of versions apart. -/
structure Collation where
  le : JsString → JsString → Bool
  total : ∀ a b, le a b || le b a
  trans : ∀ a b c, le a b → le b c → le a c
  antisymm : ∀ a b, isVersionName a = true → isVersionName b = true → le a b → le b a → a = b

/-! ## Descriptors -/

/-- A record of strings, as its own entries. -/
structure VersionMap where
  entries : List (JsString × JsString)
  /-- The keys of an object do not repeat. -/
  nodup : (entries.map Prod.fst).Nodup

/-- `CacheDescriptor`. -/
structure CacheDescriptor where
  «class» : CacheClass
  kind : JsString
  logicalKey : JsString
  sourceDigest : JsString
  imageDigest : JsString
  lockDigest : JsString
  toolVersions : VersionMap
  frameworkVersions : VersionMap
  runtimeVersion : JsString
  operatingSystem : JsString
  architecture : JsString
  configDigest : JsString
  policyVersion : JsNumber
  tenantId : Option JsString
  workspaceId : Option JsString

/-- `CachePublisher`. -/
structure CachePublisher where
  id : JsString
  trusted : Bool
  provenance : JsString
  tenantId : Option JsString
  workspaceId : Option JsString

/-- The scope an entry is attached under. -/
structure CacheScope where
  tenantId : Option JsString
  workspaceId : Option JsString

/-! ## Checks -/

/-- `boundedCacheIdentity`. -/
def boundedCacheIdentity (value label : JsString) : Except JsString JsString :=
  if value = [] ∨ 512 < value.length ∨ ∃ u ∈ value, u = 0 ∨ u = 13 ∨ u = 10 then
    .error (label ++ js " is invalid")
  else .ok value

/-- A check that throws a message. -/
def refuseWhen (c : Prop) [Decidable c] (message : JsString) : Except JsString Unit :=
  if c then .error message else .ok ()

/-- The pattern of a logical key: 1 to 256 letters, digits and signs, without `..`. -/
def isLogicalKey (key : JsString) : Bool :=
  1 ≤ key.length && key.length ≤ 256 &&
    (key.all fun u ↦ (48 ≤ u.toNat && u.toNat ≤ 57) || (65 ≤ u.toNat && u.toNat ≤ 90) ||
      (97 ≤ u.toNat && u.toNat ≤ 122) || u ∈ js "._/-") &&
    !key.tails.any fun rest ↦ (js "..").isPrefixOf rest

/-- `/(?:@sha256:|^sha256:)[a-f0-9]{64}$/`. -/
def isImageDigest (digest : JsString) : Bool :=
  let name := digest.take (digest.length - 64)
  isDigest (digest.drop (digest.length - 64)) &&
    (name = js "sha256:" || (js "@sha256:").isSuffixOf name)

/-- `normalized[name] = version` on an ordinary object that has no key `name`: the setter of
`__proto__` ignores a string. -/
def setVersion (name version : JsString) (normalized : List (JsString × JsString)) :
    List (JsString × JsString) :=
  if name = js "__proto__" then normalized else normalized ++ [(name, version)]

/-- The array index a key is. -/
def arrayIndex? (key : JsString) : Option ℕ :=
  if key ≠ [] ∧ (key.all fun u ↦ 48 ≤ u.toNat && u.toNat ≤ 57) ∧ (key.head? = some 48 → key.length = 1)
  then
    let value := key.foldl (fun n u ↦ 10 * n + (u.toNat - 48)) 0
    if value < 4294967295 then some value else none
  else none

/-- Array indices come first, in their order. -/
def indexLe (f g : JsString × JsString) : Bool :=
  match arrayIndex? f.1, arrayIndex? g.1 with
  | some m, some n => m ≤ n
  | none, some _ => false
  | _, none => true

/-- The order in which the keys of an object are listed. -/
def ownOrder (fields : List (JsString × JsString)) : List (JsString × JsString) :=
  fields.mergeSort indexLe

variable (L : Collation)

/-- The loop of `normalizeCacheVersionMap`. -/
def normalizeVersions (normalized : List (JsString × JsString)) :
    List (JsString × JsString) → Except JsString (List (JsString × JsString))
  | [] => .ok normalized
  | (name, version) :: rest => do
    refuseWhen (isVersionName name = false) (js "Cache version name is invalid")
    let version ← boundedCacheIdentity version (js "cache version for " ++ name)
    normalizeVersions (setVersion name version normalized) rest

/-- `normalizeCacheVersionMap`: the fields of the object it returns, in the order they are listed. -/
def normalizeCacheVersionMap (value : VersionMap) : Except JsString (List (JsString × JsString)) := do
  refuseWhen (64 < value.entries.length) (js "Cache version metadata is too large")
  let normalized ← normalizeVersions []
    (value.entries.mergeSort fun left right ↦ L.le left.1 right.1)
  .ok (ownOrder normalized)

/-- `validateCacheDescriptor`. -/
def validateCacheDescriptor (d : CacheDescriptor) : Except JsString Unit := do
  let _ ← boundedCacheIdentity d.kind (js "cache kind")
  refuseWhen (isLogicalKey d.logicalKey = false) (js "Cache logical key is invalid")
  refuseWhen (isImageDigest d.imageDigest = false) (js "Cache image digest must be immutable")
  refuseWhen (isDigest d.sourceDigest = false) (js "Cache source digest is invalid")
  refuseWhen (isDigest d.lockDigest = false) (js "Cache lock digest is invalid")
  refuseWhen (isDigest d.configDigest = false) (js "Cache configuration digest is invalid")
  let _ ← normalizeCacheVersionMap L d.toolVersions
  let _ ← normalizeCacheVersionMap L d.frameworkVersions
  let _ ← boundedCacheIdentity d.runtimeVersion (js "cache runtime version")
  let _ ← boundedCacheIdentity d.operatingSystem (js "cache operating system")
  let _ ← boundedCacheIdentity d.architecture (js "cache architecture")
  refuseWhen (((JsValue.number d.policyVersion).asCount.all fun n ↦ n < 1) = true)
    (js "Cache policy version is invalid")
  refuseWhen (d.class ≠ .globalImmutable ∧ truthy d.tenantId = none)
    (js "Private cache requires a tenant")
  refuseWhen (d.class = .workspacePrivate ∧ truthy d.workspaceId = none)
    (js "Workspace cache requires a workspace")

/-- `validateCachePublisher`. -/
def validateCachePublisher (d : CacheDescriptor) (publisher : CachePublisher) :
    Except JsString Unit := do
  let _ ← boundedCacheIdentity publisher.id (js "cache publisher id")
  let _ ← boundedCacheIdentity publisher.provenance (js "cache provenance")
  refuseWhen (d.class = .globalImmutable ∧ publisher.trusted = false)
    (js "Global cache publication requires a trusted publisher")
  refuseWhen (d.class ≠ .globalImmutable ∧ publisher.tenantId ≠ d.tenantId)
    (js "Cache publisher tenant does not match the cache scope")
  refuseWhen (d.class = .workspacePrivate ∧ publisher.workspaceId ≠ d.workspaceId)
    (js "Cache publisher workspace does not match the cache scope")

/-- `assertCacheScope`. -/
def assertCacheScope (d : CacheDescriptor) (scope : CacheScope) : Except JsString Unit := do
  refuseWhen (d.class ≠ .globalImmutable ∧ d.tenantId ≠ scope.tenantId)
    (js "Private cache tenant scope mismatch")
  refuseWhen (d.class = .workspacePrivate ∧ d.workspaceId ≠ scope.workspaceId)
    (js "Private cache workspace scope mismatch")

/-! ## Keys -/

/-- A normalized version map as a value. -/
def versionsValue (fields : List (JsString × JsString)) : JsValue :=
  .object (fields.map fun f ↦ (f.1, .string f.2))

/-- The record `cacheKey` writes. -/
def keyFields (d : CacheDescriptor) (tools frameworks : List (JsString × JsString)) :
    List (JsString × JsValue) :=
  [(js "class", .string d.class.name), (js "kind", .string d.kind),
    (js "logicalKey", .string d.logicalKey), (js "sourceDigest", .string d.sourceDigest),
    (js "lockDigest", .string d.lockDigest), (js "toolVersions", versionsValue tools),
    (js "frameworkVersions", versionsValue frameworks),
    (js "runtimeVersion", .string d.runtimeVersion), (js "imageDigest", .string d.imageDigest),
    (js "operatingSystem", .string d.operatingSystem), (js "architecture", .string d.architecture),
    (js "configDigest", .string d.configDigest), (js "policyVersion", .number d.policyVersion),
    (js "tenantId", if d.class = .globalImmutable then .null else given d.tenantId),
    (js "workspaceId", if d.class = .workspacePrivate then given d.workspaceId else .null)]

/-- `cacheKey`. -/
def cacheKey (P : Platform) (d : CacheDescriptor) : Except JsString JsString := do
  let tools ← normalizeCacheVersionMap L d.toolVersions
  let frameworks ← normalizeCacheVersionMap L d.frameworkVersions
  .ok (P.sha256 (P.stringify (keyFields d tools frameworks)))

end LiteHarness.Workspace
