import LiteHarness.Platform.Runtime
import LiteHarness.Skills.CatalogProperties
import LiteHarness.Skills.RunSnapshots

/-!
# Catalogs and the runs that use them

What is promised of a catalog from its sources to the runs under it. Two things are not: a skill
that is listed cannot be viewed where its body is longer than a prompt may be, and of two sources
that the order does not tell apart it is the first one that counts.
-/

namespace LiteHarness.Skills

open Foundation

/-- What a catalog that is made promises: one entry for each name, of the highest rank and
precedence; the same catalog and snapshots from any listing of the same sources and directories, as
long as the order tells different manifests of one name apart; views of what is listed, from these
snapshots at any later time; and one snapshot for each run that uses it. -/
structure Promises (H : SkillHost) (limits : SkillLimits) (files : SkillFiles)
    (snapshotRoot : JsString) (sources : List SkillSource) (disk disk' : SnapshotDirectory)
    (catalog : ImmutableSkillCatalog) (manifests : List ScannedSkill) : Prop where
  scanned : Scanned H limits files sources manifests
  catalogued : Catalogued catalog manifests
  ordered : (∀ a ∈ manifests, ∀ b ∈ manifests, Tied H a b → a = b) →
    ∀ files' sources', SkillFiles.Reordered files files' → sources.Perm sources' →
      create H limits files' snapshotRoot sources' disk = .ok (disk', catalog)
  views : ∀ later, (∀ generation digest node,
      disk' generation digest = some node → later generation digest = some node) →
    Distinguishes H manifests later → ViewsTruly H limits catalog manifests later
  runs : ∀ (M : SkillManager), M.host = H → M.catalog = catalog →
    ∀ (ι : Type) (runs : ι → SkillRun), Function.Injective (fun i ↦ (runs i).id) →
      ∀ (i : ι) (rows : List SnapshotRow), recorded (runs i).id rows = none →
        M.KeepsSnapshot runs rows i

/-- **A catalog keeps what it promises.** -/
theorem promises_of_create {H : SkillHost} {limits : SkillLimits} {files : SkillFiles}
    {snapshotRoot : JsString} {sources : List SkillSource} {disk disk' : SnapshotDirectory}
    {catalog : ImmutableSkillCatalog}
    (h : create H limits files snapshotRoot sources disk = .ok (disk', catalog)) :
    ∃ manifests, Promises H limits files snapshotRoot sources disk disk' catalog manifests := by
  obtain ⟨hlimits, manifests, hscan, hcatalog, hkept⟩ := create_eq_ok_iff.mp h
  refine ⟨manifests, hscan, hcatalog ▸ catalogued_selectedValues, ?_, ?_, ?_⟩
  · intro hties files' sources' hfiles hsources
    rw [hcatalog] at hkept ⊢
    exact create_of_reordered hscan hties hfiles hsources hlimits hkept
  · intro later hlater hdigests
    refine viewsTruly_of_kept hscan hcatalog (fun manifest hmem ↦ ?_) hdigests
    obtain ⟨file, hfile, hdigest⟩ := (foldlM_keepSnapshot hkept).kept manifest hmem
    exact ⟨file, hlater _ _ _ hfile, hdigest⟩
  · intro M _ _ ι runs hids i rows hrows
    exact SkillManager.keepsSnapshot_of_unrecorded hids hrows

/-! ## Two sources -/

/-- A skill file. -/
def skillText (name description body : String) : Bytes :=
  ascii ("---\nname: " ++ name ++ "\ndescription: " ++ description ++ "\n---\n" ++ body)

/-- The digests of three skill files and of the three catalogs below, which differ in length. -/
def skillHost : SkillHost where
  toNumberLiterals := referencePlatform.toNumberLiterals
  sha256 bytes :=
    if bytes = skillText "notes" "short" "ab" then
      js "7a82158cce3e87bbb02596c6531fc81a5285830cc4722de2aa3fbd3152792346"
    else if bytes = skillText "notes" "longer" "cd" then
      js "31ba8dae7bf9cf73d10619ed102c5fb7f3cd026a4dd83a55d0374226dada4036"
    else js "9ee4b0848dea0a19313d5a1537b3a91ae8274b856679e6c61b4dbee6ce037d07"
  sha256Text text :=
    if text.length = 388 then
      js "6d875da52bb44f612ce19f21d4420fc63d599057a60cb9b5f7def9283d035338"
    else if text.length = 391 then
      js "d0f2c7132b74d4144333d40630c4e92e51056d2558249e4c8573199816af5391"
    else js "63468e60e4be32c8917d3d51be2f0454d0ef7b6bb1909c3539dfb7c0e429ff30"
  localeLe a b := keyLe a b
  localeLe_total := keyLe_total
  localeLe_trans := keyLe_trans

/-- One skill file in each of three roots, two of them of one name. -/
def skillFiles : SkillFiles := fun root _ ↦
  let bytes :=
    if root = js "/app" then skillText "notes" "short" "ab"
    else if root = js "/user" then skillText "notes" "longer" "cd"
    else skillText "review" "careful" "ef"
  some [⟨js "SKILL.md", .file { bytes }⟩]

def appSource : SkillSource := { root := js "/app", precedence := 0, source := .app }

def userSource : SkillSource := { root := js "/user", precedence := 0, source := .user }

def otherSource : SkillSource := { root := js "/other", precedence := 0, source := .user }

theorem exists_ok {ε α : Type} {x : Except ε α} {p : α → Bool}
    (h : (x.map p).toOption = some true) : ∃ a, x = .ok a ∧ p a = true := by
  rcases x with e | a
  · exact absurd h nofun
  · exact ⟨a, rfl, Option.some.inj h⟩

/-- A catalog of two skills. -/
theorem promises_two : ∃ result manifests,
    create skillHost {} skillFiles (js "/snapshots") [appSource, otherSource] (fun _ _ ↦ none) =
      .ok result ∧
    Promises skillHost {} skillFiles (js "/snapshots") [appSource, otherSource] (fun _ _ ↦ none)
      result.1 result.2 manifests ∧ result.2.entries.length = 2 := by
  obtain ⟨result, hok, hlength⟩ := exists_ok (x := create skillHost {} skillFiles (js "/snapshots")
    [appSource, otherSource] (fun _ _ ↦ none)) (p := fun result ↦ result.2.entries.length = 2)
    (by decide +kernel)
  obtain ⟨manifests, hpromises⟩ := promises_of_create hok
  exact ⟨result, manifests, hok, hpromises, of_decide_eq_true hlength⟩

/-- A listed skill that cannot be viewed, and two sources whose order decides what is listed. -/
theorem not_promised :
    (∃ result : SnapshotDirectory × ImmutableSkillCatalog,
      create skillHost { maxPromptCharacters := 1 } skillFiles (js "/snapshots") [appSource]
        (fun _ _ ↦ none) = .ok result ∧
      js "notes" ∈ (result.2.list {}).map SkillCatalogEntry.name ∧
      ∀ skill, result.2.view skillHost {} result.1 (js "notes") ≠ .ok (some skill)) ∧
    ∃ result result' : SnapshotDirectory × ImmutableSkillCatalog,
      create skillHost {} skillFiles (js "/snapshots") [appSource, userSource] (fun _ _ ↦ none) =
        .ok result ∧
      create skillHost {} skillFiles (js "/snapshots") [userSource, appSource] (fun _ _ ↦ none) =
        .ok result' ∧
      result.2.entries ≠ result'.2.entries ∧ result.2.generation ≠ result'.2.generation := by
  constructor
  · obtain ⟨result, hok, hviewed⟩ := exists_ok (x := create skillHost { maxPromptCharacters := 1 }
      skillFiles (js "/snapshots") [appSource] (fun _ _ ↦ none))
      (p := fun result ↦ js "notes" ∈ (result.2.list {}).map SkillCatalogEntry.name ∧
        (result.2.view skillHost {} result.1 (js "notes")).toOption = none) (by decide +kernel)
    obtain ⟨hlisted, hnone⟩ := of_decide_eq_true hviewed
    refine ⟨result, hok, hlisted, fun skill hview ↦ ?_⟩
    rw [hview] at hnone
    exact absurd hnone nofun
  · obtain ⟨result, hok, hfirst⟩ := exists_ok (x := create skillHost {} skillFiles
      (js "/snapshots") [appSource, userSource] (fun _ _ ↦ none))
      (p := fun result ↦ result.2.entries.map SkillCatalogEntry.description = [js "short"] ∧
        result.2.generation.take 1 = js "6") (by decide +kernel)
    obtain ⟨result', hok', hsecond⟩ := exists_ok (x := create skillHost {} skillFiles
      (js "/snapshots") [userSource, appSource] (fun _ _ ↦ none))
      (p := fun result ↦ result.2.entries.map SkillCatalogEntry.description = [js "longer"] ∧
        result.2.generation.take 1 = js "d") (by decide +kernel)
    obtain ⟨hentries, hgeneration⟩ := of_decide_eq_true hfirst
    obtain ⟨hentries', hgeneration'⟩ := of_decide_eq_true hsecond
    refine ⟨result, result', hok, hok', fun heq ↦ ?_, fun heq ↦ ?_⟩
    · rw [heq, hentries'] at hentries
      exact absurd hentries (by decide)
    · rw [heq, hgeneration'] at hgeneration
      exact absurd hgeneration (by decide)

end LiteHarness.Skills
