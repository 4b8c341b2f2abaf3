import LiteHarness.Foundation.Selection
import LiteHarness.Platform.NumberText
import LiteHarness.Skills.Frontmatter
import LiteHarness.Storage.EventText

/-!
# Skill sources and manifests

A skill source is a directory with a kind and a precedence. Its skills are the files `SKILL.md` down
to some depth, symbolic links left out, and each is read into a manifest. The files stay as they are
while a catalog is made, so what the program does to notice a change of theirs never finds one; an
error is the text of its message.
-/

namespace LiteHarness.Skills

open Foundation

/-- What the catalog takes from its platform: numerals, digests in hexadecimal, and the order of
texts of a locale. -/
structure SkillHost extends NumberLiterals where
  /-- `createHash("sha256").update(bytes).digest("hex")`. -/
  sha256 : Bytes → JsString
  /-- `createHash("sha256").update(text).digest("hex")`. -/
  sha256Text : JsString → JsString
  /-- `left.localeCompare(right) <= 0`. -/
  localeLe : JsString → JsString → Bool
  localeLe_total : ∀ a b, localeLe a b || localeLe b a
  localeLe_trans : ∀ a b c, localeLe a b → localeLe b c → localeLe a c

/-! ## Sources -/

/-- `SkillSourceKind`. -/
inductive SkillSourceKind where
  | runPinned
  | workspace
  | app
  | user
  | installedPack
  | builtin
  | openclawImport
  deriving DecidableEq

namespace SkillSourceKind

def text : SkillSourceKind → JsString
  | runPinned => js "run-pinned"
  | workspace => js "workspace"
  | app => js "app"
  | user => js "user"
  | installedPack => js "installed-pack"
  | builtin => js "builtin"
  | openclawImport => js "openclaw-import"

/-- `sourceRank`. -/
def sourceRank : SkillSourceKind → ℕ
  | runPinned => 5
  | workspace => 4
  | app => 3
  | user => 3
  | installedPack => 2
  | openclawImport => 2
  | builtin => 1

end SkillSourceKind

/-- A file, with the number of its links and `(mode & 0o222) !== 0`. -/
structure SkillFile where
  bytes : Bytes
  links : ℕ := 1
  writable : Bool := true
  deriving DecidableEq

inductive FileNode where
  | symbolicLink
  | directory
  | file (file : SkillFile)
  | other
  deriving DecidableEq

structure DirectoryEntry where
  name : JsString
  node : FileNode
  deriving DecidableEq

/-- What `readdirSync` gives for the directories under a root, by the names of the path to them. -/
abbrev SkillFiles := JsString → List JsString → Option (List DirectoryEntry)

/-- `SkillSource`, with the real path of its root. -/
structure SkillSource where
  root : JsString
  precedence : ℤ
  source : SkillSourceKind
  sourceVersion : Option JsString := none
  visibilityScope : Option JsString := none
  deriving DecidableEq

/-- The limits of a catalog, with their defaults. -/
structure SkillLimits where
  maxBytes : ℕ := 256 * 1024
  maxPromptCharacters : ℕ := 200000
  maxDepth : ℕ := 4
  maxCandidates : ℕ := 256
  maxFrontmatterBytes : ℕ := 32 * 1024
  protocolVersion : JsString := js "1"

/-- `validateLimits`. That a limit is an integer is in its type. -/
def validateLimits (limits : SkillLimits) : Except JsString Unit :=
  match [(js "maxBytes", limits.maxBytes), (js "maxPromptCharacters", limits.maxPromptCharacters),
      (js "maxDepth", limits.maxDepth), (js "maxCandidates", limits.maxCandidates),
      (js "maxFrontmatterBytes", limits.maxFrontmatterBytes)].find?
      fun entry ↦ entry.2 < 1 ∨ 10000000 < entry.2 with
  | some entry => .error (js "Skill catalog " ++ entry.1 ++ js " limit is invalid")
  | none => .ok ()

/-! ## Discovery -/

/-- `relative(root, candidate)`, for what the names lead to from the root. -/
def relativeTo (names : List JsString) : JsString := (js "/").intercalate names

/-- The path that the names lead to. -/
def SkillSource.path (source : SkillSource) (names : List JsString) : JsString :=
  source.root ++ names.flatMap (js "/" ++ ·)

/-- `isWithin(root, candidate)`. -/
def isWithin (names : List JsString) : Bool :=
  relativeTo names = [] ||
    !(js "..").isPrefixOf (relativeTo names) && !(js "/").isPrefixOf (relativeTo names)

/-- A skill file that was found. -/
structure SkillCandidate where
  names : List JsString
  file : SkillFile
  source : SkillSource
  deriving DecidableEq

variable (H : SkillHost) (limits : SkillLimits) (files : SkillFiles)

/-- The entries of a directory in the order in which they are visited. -/
def inOrder (entries : List DirectoryEntry) : List DirectoryEntry :=
  entries.insertionSort fun left right ↦ H.localeLe left.name right.name = true

/-- `visit`, with what is left of the depth and the results so far. -/
def visit (source : SkillSource) :
    ℕ → List JsString → List SkillCandidate → Except JsString (List SkillCandidate)
  | 0, _, results => .ok results
  | depth + 1, directory, results =>
    match files source.root directory with
    | none => .error (js "ENOENT: no such file or directory, scandir")
    | some entries =>
      (inOrder H entries).foldlM
        (fun results entry ↦
          let candidate := directory ++ [entry.name]
          if entry.node = .symbolicLink then .ok results
          else if isWithin candidate = false then
            .error (js "Skill discovery escaped its configured root")
          else
            match entry.node with
            | .directory => visit source depth candidate results
            | .file file =>
              if entry.name = js "SKILL.md" then
                if limits.maxCandidates < results.length + 1 then
                  .error (js "Skill source exceeds " ++ decimal limits.maxCandidates ++
                    js " candidates: " ++ source.root)
                else .ok (results ++ [⟨candidate, file, source⟩])
              else .ok results
            | _ => .ok results)
        results

/-- `discoverSource`. -/
def discoverSource (source : SkillSource) : Except JsString (List SkillCandidate) :=
  visit H limits files source (limits.maxDepth + 1) [] []

/-! ## Metadata -/

/-- `text.toLowerCase()`, as far as it makes letters from `a` to `z`. -/
def toLowerCase (text : JsString) : JsString :=
  text.map fun u ↦
    if 65 ≤ u.toNat ∧ u.toNat ≤ 90 then u + 32 else if u.toNat = 0x212A then 107 else u

/-- `/^[a-z][a-z0-9_]{0,63}$/`. -/
def isMetadataKey (key : JsString) : Bool :=
  match key with
  | [] => false
  | first :: rest =>
    97 ≤ first.toNat && first.toNat ≤ 122 && rest.length ≤ 63 &&
      rest.all fun u ↦ 97 ≤ u.toNat && u.toNat ≤ 122 || 48 ≤ u.toNat && u.toNat ≤ 57 || u.toNat = 95

/-- The metadata of a skill, by their keys. -/
abbrev SkillMetadata := List (JsString × JsString)

/-- `metadata[key]`. -/
def SkillMetadata.get (metadata : SkillMetadata) (key : String) : Option JsString :=
  (metadata.find? fun field ↦ field.1 = js key).map Prod.snd

/-- One line of `parseFrontmatter`. -/
def parseLine (path : JsString) (metadata : SkillMetadata) (line : JsString) :
    Except JsString SkillMetadata :=
  if trim line = [] ∨ (line.dropWhile isStrWhiteSpace).head? = some 35 then .ok metadata
  else
    let separator := line.idxOf colon
    if separator = line.length ∨ separator < 1 then
      .error (js "Skill frontmatter line is malformed: " ++ path)
    else
      let key := toLowerCase (trim (line.take separator))
      if isMetadataKey key = false ∨ ∃ field ∈ metadata, field.1 = key then
        .error (js "Skill frontmatter key is invalid or duplicated: " ++ path)
      else .ok (metadata ++ [(key, trim (line.drop (separator + 1)))])

/-- `parseFrontmatter`. -/
def parseFrontmatter (path value : JsString) : Except JsString SkillMetadata := do
  let metadata ← (splitLines value).foldlM (parseLine path) []
  if (metadata.get "name").getD [] = [] ∨ (metadata.get "description").getD [] = [] then
    throw (js "Skill name and description are required: " ++ path)
  return metadata

/-- `/[\0\r\n]/`. -/
def hasBreak (text : JsString) : Bool := text.any fun u ↦ u = 0 ∨ u = 13 ∨ u = 10

/-- `bounded`. -/
def bounded (value : Option JsString) (label : JsString) (maximum : ℕ) (path : JsString) :
    Except JsString JsString :=
  if value.getD [] = [] ∨ maximum < (value.getD []).length ∨ hasBreak (value.getD []) then
    .error (label ++ js " is invalid: " ++ path)
  else .ok (value.getD [])

/-- `[...new Set(items)]`. -/
def distinct (items : List JsString) : List JsString := firstPerKey id items

/-- `frozenCsv`. -/
def frozenCsv (value : Option JsString) : Except JsString (List JsString) :=
  let items := (((value.getD []).splitOn comma).map trim).filter (· ≠ [])
  if 64 < items.length ∨ ∃ item ∈ items, 128 < item.length ∨ hasBreak item then
    .error (js "Skill manifest list is invalid")
  else .ok (distinct items)

theorem mem_distinct {items : List JsString} {item : JsString} :
    item ∈ distinct items ↔ item ∈ items := by
  rw [distinct, firstPerKey_eq]
  refine ⟨fun h ↦ (firstNotTaken_sublist _ _).subset h, fun h ↦ ?_⟩
  obtain ⟨_, hmem, rfl⟩ := exists_mem_firstNotTaken id (fun _ ↦ False) h id
  exact hmem

/-! ## Manifests -/

/-- `SkillCatalogEntry`. -/
structure SkillCatalogEntry where
  name : JsString
  description : JsString
  contentDigest : JsString
  source : SkillSourceKind
  sourceVersion : JsString
  visibilityScope : JsString
  precedence : ℤ
  relativePath : JsString
  requestedTools : List JsString
  requiredCapabilities : List JsString
  compatibleProtocol : JsString
  contentProvenance : JsString
  executableProvenance : JsString
  permissionRequests : List JsString
  deriving DecidableEq

/-- `ScannedSkill`. -/
structure ScannedSkill extends SkillCatalogEntry where
  sourceBytes : Bytes
  deriving DecidableEq

/-- `left || right`, for texts. -/
def orElse (left right : Option JsString) : Option JsString :=
  if left.getD [] = [] then right else left

/-- The manifest that the metadata of a file give. -/
def manifestOf (source : SkillSource) (names : List JsString) (digest : JsString)
    (metadata : SkillMetadata) : Except JsString SkillCatalogEntry := do
  let path := source.path names
  let name ← bounded (metadata.get "name") (js "skill name") 128 path
  let description ← bounded (metadata.get "description") (js "skill description") 1024 path
  let sourceVersion ← bounded
    (orElse (metadata.get "source_version") (orElse source.sourceVersion (some (js "unversioned"))))
    (js "skill source version") 128 path
  let visibilityScope ← bounded
    (orElse source.visibilityScope (orElse (metadata.get "visibility") (some (js "private"))))
    (js "skill visibility") 128 path
  let requestedTools ← frozenCsv (metadata.get "tools")
  let requiredCapabilities ← frozenCsv (metadata.get "capabilities")
  let compatibleProtocol ← bounded
    (orElse (metadata.get "protocol") (some limits.protocolVersion)) (js "skill protocol") 64 path
  let contentProvenance ← bounded
    (orElse (metadata.get "content_provenance") (some source.source.text))
    (js "skill content provenance") 256 path
  let executableProvenance ← bounded
    (orElse (metadata.get "executable_provenance") (some (js "none")))
    (js "skill executable provenance") 256 path
  let permissionRequests ← frozenCsv (metadata.get "permissions")
  return {
    name
    description
    contentDigest := digest
    source := source.source
    sourceVersion
    visibilityScope
    precedence := source.precedence
    relativePath := (relativeTo names).map fun u ↦ if u = 92 then 47 else u
    requestedTools
    requiredCapabilities
    compatibleProtocol
    contentProvenance
    executableProvenance
    permissionRequests
  }

/-- `readStableRegularFile`, of a file that stays as it is: its bytes and their digest. -/
def readStableRegularFile (node : FileNode) (label path : JsString) :
    Except JsString (Bytes × JsString) :=
  match node with
  | .file file =>
    if file.links ≠ 1 then
      .error (label ++ js " is not a stable single-link regular file: " ++ path)
    else if limits.maxBytes < file.bytes.length then
      .error (label ++ js " exceeds " ++ decimal limits.maxBytes ++ js " bytes: " ++ path)
    else .ok (file.bytes, H.sha256 file.bytes)
  | _ => .error (label ++ js " is not a stable single-link regular file: " ++ path)

/-- `scanManifest`. -/
def scanManifest (candidate : SkillCandidate) : Except JsString ScannedSkill := do
  let path := candidate.source.path candidate.names
  if isWithin candidate.names = false then
    throw (js "Skill source resolved outside its configured root")
  let read ← readStableRegularFile H limits (.file candidate.file) (js "Skill") path
  let header := bufferText (read.1.take limits.maxFrontmatterBytes)
  match frontmatter header with
  | none =>
    throw (js "Skill frontmatter is missing, malformed, or exceeds " ++
      decimal limits.maxFrontmatterBytes ++ js " bytes: " ++ path)
  | some found => do
    let metadata ← parseFrontmatter path found.1
    let entry ← manifestOf limits candidate.source candidate.names read.2 metadata
    return { entry with sourceBytes := read.1 }

/-- `parseBody`. -/
def parseBody (text path : JsString) : Except JsString JsString :=
  match frontmatter text with
  | none => .error (js "Immutable skill snapshot is malformed: " ++ path)
  | some found => .ok found.2

end LiteHarness.Skills
