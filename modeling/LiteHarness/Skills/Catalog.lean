import LiteHarness.Foundation.Table
import LiteHarness.Skills.Discovery

/-!
# The skill catalog

A catalog takes one manifest for each skill name, of those of the highest rank and precedence, and
keeps the files of these by generation and digest. It lists what is eligible, and a skill is viewed
by reading the file that was kept for it.
-/

namespace LiteHarness.Skills

open Foundation

/-! ## Selection -/

section

variable (H : SkillHost)

/-- The order in which manifests are tried: `sourceRank` and `precedence` downwards, then paths. -/
def ComesBefore (left right : ScannedSkill) : Prop :=
  right.source.sourceRank < left.source.sourceRank ∨
    right.source.sourceRank = left.source.sourceRank ∧
      (right.precedence < left.precedence ∨ right.precedence = left.precedence ∧
        H.localeLe left.relativePath right.relativePath = true)

instance : DecidableRel (ComesBefore H) := fun _ _ ↦ inferInstanceAs (Decidable (_ ∨ _))

instance : Std.Total (ComesBefore H) where
  total left right := by
    have htotal := Bool.or_eq_true_iff.mp (H.localeLe_total left.relativePath right.relativePath)
    rw [ComesBefore, ComesBefore]
    rcases lt_trichotomy left.source.sourceRank right.source.sourceRank with hr | hr | hr
    · exact Or.inr (Or.inl hr)
    · rcases lt_trichotomy left.precedence right.precedence with hp | hp | hp
      · exact Or.inr (Or.inr ⟨hr, Or.inl hp⟩)
      · exact htotal.imp (fun h ↦ Or.inr ⟨hr.symm, Or.inr ⟨hp.symm, h⟩⟩)
          fun h ↦ Or.inr ⟨hr, Or.inr ⟨hp, h⟩⟩
      · exact Or.inl (Or.inr ⟨hr.symm, Or.inl hp⟩)
    · exact Or.inl (Or.inl hr)

instance : IsTrans ScannedSkill (ComesBefore H) where
  trans a b c hab hbc := by
    rw [ComesBefore] at *
    rcases hab with hr | ⟨hr, hab⟩
    · exact Or.inl (by omega)
    rcases hbc with hr' | ⟨hr', hbc⟩
    · exact Or.inl (by omega)
    refine Or.inr ⟨hr'.trans hr, ?_⟩
    rcases hab with hp | ⟨hp, hab⟩
    · exact Or.inl (by omega)
    rcases hbc with hp' | ⟨hp', hbc⟩
    · exact Or.inl (by omega)
    · exact Or.inr ⟨hp'.trans hp, H.localeLe_trans _ _ _ hab hbc⟩

/-- The order of the names. -/
def NameLe (left right : JsString) : Prop := H.localeLe left right = true

instance : DecidableRel (NameLe H) := fun _ _ ↦ inferInstanceAs (Decidable (_ = true))

instance : Std.Total (NameLe H) where
  total left right := Bool.or_eq_true_iff.mp (H.localeLe_total left right)

instance : IsTrans JsString (NameLe H) where
  trans := H.localeLe_trans

/-- `selectedValues`. -/
def selectedValues (manifests : List ScannedSkill) : List ScannedSkill :=
  select (fun manifest : ScannedSkill ↦ manifest.name) (ComesBefore H) (NameLe H) manifests

/-- What two different manifests with one name can have in common for the order not to tell them
apart. -/
def Tied (left right : ScannedSkill) : Prop :=
  right.source.sourceRank = left.source.sourceRank ∧ right.precedence = left.precedence ∧
    (NameLe H left.relativePath right.relativePath ∧
      NameLe H right.relativePath left.relativePath) ∧
    NameLe H left.name right.name ∧ NameLe H right.name left.name

end

/-! ## The catalog -/

/-- `catalogIdentity`, as JSON. -/
def SkillCatalogEntry.json (entry : SkillCatalogEntry) : JsValue :=
  .object [
    (js "name", .string entry.name),
    (js "description", .string entry.description),
    (js "contentDigest", .string entry.contentDigest),
    (js "source", .string entry.source.text),
    (js "sourceVersion", .string entry.sourceVersion),
    (js "visibilityScope", .string entry.visibilityScope),
    (js "precedence", .number (.finite entry.precedence)),
    (js "relativePath", .string entry.relativePath),
    (js "requestedTools", .array (entry.requestedTools.map .string)),
    (js "requiredCapabilities", .array (entry.requiredCapabilities.map .string)),
    (js "compatibleProtocol", .string entry.compatibleProtocol),
    (js "contentProvenance", .string entry.contentProvenance),
    (js "executableProvenance", .string entry.executableProvenance),
    (js "permissionRequests", .array (entry.permissionRequests.map .string))]

/-- What is at the places of snapshots, by generation and digest. -/
abbrev SnapshotDirectory := JsString → JsString → Option FileNode

/-- `ImmutableSkillCatalog`. -/
structure ImmutableSkillCatalog where
  generation : JsString
  entries : List SkillCatalogEntry
  maxPromptCharacters : ℕ
  deriving DecidableEq

variable (H : SkillHost) (limits : SkillLimits) (files : SkillFiles) (snapshotRoot : JsString)

/-- The generation of selected entries. -/
def generationOf (entries : List SkillCatalogEntry) : JsString :=
  H.sha256Text ((H.stringify? (.array (entries.map SkillCatalogEntry.json))).getD [])

/-- `(lstatSync(path).mode & 0o222) !== 0`, of a file. -/
def FileNode.isWritable : FileNode → Bool
  | .file f => f.writable
  | _ => false

/-- The file of a manifest in the directory of a generation, which is written where there is none.
What the program removes before it throws is not followed. -/
def keepSnapshot (generation : JsString) (disk : SnapshotDirectory) (manifest : ScannedSkill) :
    Except JsString SnapshotDirectory := do
  let digest := manifest.contentDigest
  let snapshotPath := snapshotRoot ++ js "/" ++ generation ++ js "/" ++ digest ++ js ".md"
  let created := (disk generation digest).isNone
  let node := (disk generation digest).getD (.file ⟨manifest.sourceBytes, 1, false⟩)
  let read ← readStableRegularFile H limits node (js "Immutable skill snapshot") snapshotPath
  if read.2 ≠ digest then
    throw (js "Skill changed while immutable snapshot was created: " ++ manifest.relativePath)
  if created = false ∧ node.isWritable = true then
    throw (js "Immutable skill snapshot is writable: " ++ manifest.relativePath)
  return Function.update disk generation (Function.update (disk generation) digest (some node))

/-- The catalog of selected manifests. -/
def catalogOf (selected : List ScannedSkill) : ImmutableSkillCatalog where
  generation := generationOf H (selected.map ScannedSkill.toSkillCatalogEntry)
  entries := selected.map ScannedSkill.toSkillCatalogEntry
  maxPromptCharacters := limits.maxPromptCharacters

/-- `new ImmutableSkillCatalog(sources, options)`. -/
def create (sources : List SkillSource) (disk : SnapshotDirectory) :
    Except JsString (SnapshotDirectory × ImmutableSkillCatalog) := do
  validateLimits limits
  let found ← sources.mapM (discoverSource H limits files)
  let candidates := found.flatten
  if limits.maxCandidates < candidates.length then
    throw (js "Skill catalog exceeds " ++ decimal limits.maxCandidates ++ js " candidates")
  let manifests ← candidates.mapM (scanManifest H limits)
  let selected := selectedValues H manifests
  let catalog := catalogOf H limits selected
  let disk ← selected.foldlM (keepSnapshot H limits snapshotRoot catalog.generation) disk
  return (disk, catalog)

/-! ## Eligibility -/

/-- `SkillEligibility`. A set is the list of its members. -/
structure SkillEligibility where
  allowedTools : Option (List JsString) := none
  capabilities : Option (List JsString) := none
  protocolVersion : Option JsString := none
  visibilityScopes : Option (List JsString) := none
  deriving DecidableEq

/-- `eligible`. -/
def eligible (entry : SkillCatalogEntry) (eligibility : SkillEligibility) : Bool :=
  (eligibility.visibilityScopes.all fun scopes ↦
    entry.visibilityScope = js "public" || scopes.contains entry.visibilityScope) &&
  (eligibility.protocolVersion.all fun version ↦
    version = [] || entry.compatibleProtocol = version) &&
  (eligibility.allowedTools.all fun tools ↦ entry.requestedTools.all tools.contains) &&
  eligibility.capabilities.all fun capabilities ↦
    entry.requiredCapabilities.all capabilities.contains

/-- `ImmutableSkillSnapshot`. -/
structure ImmutableSkillSnapshot extends SkillCatalogEntry where
  body : JsString
  generation : JsString
  deriving DecidableEq

/-- What `snapshotForRun` returns. -/
structure RunSkills where
  runId : JsString
  generation : JsString
  skills : List (JsString × JsString)
  deriving DecidableEq

/-- `[A-Za-z0-9_-]`. -/
def isIdUnit (u : UInt16) : Bool :=
  48 ≤ u.toNat && u.toNat ≤ 57 || 65 ≤ u.toNat && u.toNat ≤ 90 || 97 ≤ u.toNat && u.toNat ≤ 122 ||
    u.toNat = 95 || u.toNat = 45

/-- The two patterns of `snapshotForRun`. -/
def isRunId (runId : JsString) : Bool :=
  (js "run_").isPrefixOf runId && 1 ≤ (runId.drop 4).length && (runId.drop 4).length ≤ 128 &&
      (runId.drop 4).all isIdUnit ||
    1 ≤ runId.length && runId.length ≤ 256 &&
      runId.all fun u ↦ isIdUnit u || u.toNat = 46 || u.toNat = 58

namespace ImmutableSkillCatalog

variable (catalog : ImmutableSkillCatalog) (eligibility : SkillEligibility)

def list : List SkillCatalogEntry := catalog.entries.filter (eligible · eligibility)

def view (disk : SnapshotDirectory) (name : JsString) :
    Except JsString (Option ImmutableSkillSnapshot) :=
  match Table.lookup SkillCatalogEntry.name name catalog.entries with
  | none => .ok none
  | some entry =>
    if eligible entry eligibility = false then .ok none
    else
      match disk catalog.generation entry.contentDigest with
      | some (.file file) =>
        if H.sha256 file.bytes ≠ entry.contentDigest then
          .error (js "Immutable skill snapshot failed digest verification: " ++ name)
        else do
          let body ← parseBody (bufferText file.bytes) entry.relativePath
          if catalog.maxPromptCharacters < body.length then
            throw (js "Skill prompt exceeds " ++ decimal catalog.maxPromptCharacters ++
              js " characters: " ++ name)
          return some { entry with body, generation := catalog.generation }
      | _ => .error (js "ENOENT: no such file or directory, open")

def snapshotForRun (runId : JsString) : Except JsString RunSkills :=
  if isRunId runId = false then .error (js "Run id is invalid for a skill snapshot")
  else
    .ok ⟨runId, catalog.generation,
      (catalog.list eligibility).map fun entry ↦ (entry.name, entry.contentDigest)⟩

end ImmutableSkillCatalog

end LiteHarness.Skills
