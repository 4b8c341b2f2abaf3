import LiteHarness.Skills.Catalog

/-!
# What a catalog is of its sources

A catalog that is made has one entry for each name, of the highest rank and precedence there is, and
a view of a skill gives what follows its frontmatter in the file the entry was read from. Manifests
of one name that the order does not tell apart are the only ones between which it matters how
sources and directories are listed (`create_of_reordered`).
-/

namespace LiteHarness.Skills

open Foundation

variable {H : SkillHost} {limits : SkillLimits} {files : SkillFiles} {snapshotRoot : JsString}
  {sources : List SkillSource} {manifests : List ScannedSkill}

/-! ## Manifests -/

/-- The manifests of the files that are found in the sources. -/
def Scanned (H : SkillHost) (limits : SkillLimits) (files : SkillFiles) (sources : List SkillSource)
    (manifests : List ScannedSkill) : Prop :=
  ∃ found, sources.mapM (discoverSource H limits files) = .ok found ∧
    found.flatten.length ≤ limits.maxCandidates ∧
    found.flatten.mapM (scanManifest H limits) = .ok manifests

theorem Scanned.reordered {files' : SkillFiles} {sources' : List SkillSource}
    (h : Scanned H limits files sources manifests) (hfiles : files.Reordered files')
    (hsources : sources.Perm sources') :
    ∃ manifests', Scanned H limits files' sources' manifests' ∧ manifests.Perm manifests' := by
  obtain ⟨found, hfound, hlength, hscan⟩ := h
  obtain ⟨found', hfound', hperm⟩ := exists_discover_of_reordered hfiles hsources hfound
  obtain ⟨manifests', hscan', hperm'⟩ := exists_mapM_of_perm hperm hscan
  exact ⟨manifests', ⟨found', hfound', hperm.length_eq ▸ hlength, hscan'⟩, hperm'⟩

theorem contentDigest_of_manifestOf {source : SkillSource} {names : List JsString}
    {digest : JsString} {fields : SkillMetadata} {entry : SkillCatalogEntry}
    (h : manifestOf limits source names digest fields = .ok entry) :
    entry.contentDigest = digest := by
  simp only [manifestOf, except_bind_eq_ok_iff] at h
  obtain ⟨_, -, _, -, _, -, _, -, _, -, _, -, _, -, _, -, _, -, _, -, h⟩ := h
  rw [← Except.ok.inj h]

/-- A manifest is what the metadata of a file give, and its body is what follows them. -/
structure ReadFrom (H : SkillHost) (limits : SkillLimits) (manifest : ScannedSkill)
    (body : JsString) : Prop where
  digest : manifest.contentDigest = H.sha256 manifest.sourceBytes
  parts : ∃ metadata source names fields,
    frontmatter (bufferText manifest.sourceBytes) = some (metadata, body) ∧
      parseFrontmatter (SkillSource.path source names) metadata = .ok fields ∧
      manifestOf limits source names manifest.contentDigest fields =
        .ok manifest.toSkillCatalogEntry

theorem readFrom_of_scanManifest {candidate : SkillCandidate} {manifest : ScannedSkill}
    (h : scanManifest H limits candidate = .ok manifest) :
    manifest.sourceBytes.length ≤ limits.maxBytes ∧ ∃ body, ReadFrom H limits manifest body := by
  simp only [scanManifest, check_then_eq_ok_iff, except_bind_eq_ok_iff] at h
  obtain ⟨-, read, hread, h⟩ := h
  rw [readStableRegularFile] at hread
  split_ifs at hread with hlinks hbytes
  obtain rfl := Except.ok.inj hread
  split at h
  · exact absurd h nofun
  case h_2 found hfound =>
    simp only [except_bind_eq_ok_iff] at h
    obtain ⟨fields, hfields, entry, hentry, h⟩ := h
    obtain rfl := Except.ok.inj h
    have hdigest := contentDigest_of_manifestOf hentry
    obtain ⟨metadata, rest⟩ := found
    obtain ⟨body, hbody⟩ := frontmatter_of_header hfound
    refine ⟨not_lt.mp hbytes, body, hdigest, metadata, _, _, fields, hbody, hfields, ?_⟩
    exact hdigest ▸ hentry

theorem Scanned.readFrom (h : Scanned H limits files sources manifests) :
    ∀ manifest ∈ manifests, manifest.sourceBytes.length ≤ limits.maxBytes ∧
      ∃ body, ReadFrom H limits manifest body := by
  obtain ⟨found, -, -, hscan⟩ := h
  intro manifest hmem
  obtain ⟨candidate, -, hok⟩ := exists_of_mem_mapM hscan manifest hmem
  exact readFrom_of_scanManifest hok

/-! ## Snapshots of files -/

section

variable {disk disk' : SnapshotDirectory} {generation : JsString} {manifest : ScannedSkill}

/-- A file is kept for the manifest, and what was kept stays. -/
structure Keeps (H : SkillHost) (generation : JsString) (disk disk' : SnapshotDirectory)
    (kept : List ScannedSkill) : Prop where
  kept : ∀ manifest ∈ kept, ∃ file, disk' generation manifest.contentDigest = some (.file file) ∧
    H.sha256 file.bytes = manifest.contentDigest
  stays : ∀ g d node, disk g d = some node → disk' g d = some node

theorem keepSnapshot_keeps
    (h : keepSnapshot H limits snapshotRoot generation disk manifest = .ok disk') :
    Keeps H generation disk disk' [manifest] := by
  simp only [keepSnapshot, except_bind_eq_ok_iff, check_then_eq_ok_iff] at h
  obtain ⟨read, hread, hdigest, -, h⟩ := h
  obtain rfl := Except.ok.inj h
  generalize hnode : (disk generation manifest.contentDigest).getD
    (.file ⟨manifest.sourceBytes, 1, false⟩) = node at *
  rcases node with _ | _ | file | _
  · exact absurd hread nofun
  · exact absurd hread nofun
  · rw [readStableRegularFile] at hread
    split_ifs at hread
    obtain rfl := Except.ok.inj hread
    refine ⟨fun m hm ↦ ?_, fun g d node hsome ↦ ?_⟩
    · rw [List.mem_singleton.mp hm]
      exact ⟨file, by simp, not_not.mp hdigest⟩
    · by_cases hg : g = generation
      · subst hg
        rw [Function.update_self]
        by_cases hd : d = manifest.contentDigest
        · subst hd
          rw [Function.update_self, ← hnode, hsome, Option.getD_some]
        · rwa [Function.update_of_ne hd]
      · rwa [Function.update_of_ne hg]
  · exact absurd hread nofun

theorem foldlM_keepSnapshot {kept : List ScannedSkill}
    (h : kept.foldlM (keepSnapshot H limits snapshotRoot generation) disk = .ok disk') :
    Keeps H generation disk disk' kept := by
  induction kept generalizing disk with
  | nil =>
    obtain rfl := Except.ok.inj h
    exact ⟨nofun, fun _ _ _ ↦ id⟩
  | cons manifest kept ih =>
    rw [List.foldlM_cons, except_bind_eq_ok_iff] at h
    obtain ⟨mid, hmid, h⟩ := h
    have hfirst := keepSnapshot_keeps hmid
    have hrest := ih h
    refine ⟨List.forall_mem_cons.mpr ⟨?_, hrest.kept⟩, fun g d node hsome ↦ ?_⟩
    · obtain ⟨file, hfile, hdigest⟩ := hfirst.kept manifest List.mem_cons_self
      exact ⟨file, hrest.stays _ _ _ hfile, hdigest⟩
    · exact hrest.stays g d node (hfirst.stays g d node hsome)

end

/-! ## The catalog -/

variable {disk disk' : SnapshotDirectory} {catalog : ImmutableSkillCatalog}

theorem create_eq_ok_iff :
    create H limits files snapshotRoot sources disk = .ok (disk', catalog) ↔
      validateLimits limits = .ok () ∧ ∃ manifests, Scanned H limits files sources manifests ∧
        catalog = catalogOf H limits (selectedValues H manifests) ∧
        (selectedValues H manifests).foldlM
          (keepSnapshot H limits snapshotRoot catalog.generation) disk = .ok disk' := by
  simp only [create, except_bind_eq_ok_iff, check_then_eq_ok_iff, not_lt]
  constructor
  · rintro ⟨_, hlimits, found, hfound, hlength, manifests, hscan, kept, hkept, h⟩
    obtain ⟨rfl, rfl⟩ := Prod.mk.inj (Except.ok.inj h)
    exact ⟨hlimits, manifests, ⟨found, hfound, hlength, hscan⟩, rfl, hkept⟩
  · rintro ⟨hlimits, manifests, ⟨found, hfound, hlength, hscan⟩, rfl, hkept⟩
    exact ⟨(), hlimits, found, hfound, hlength, manifests, hscan, disk', hkept, rfl⟩

/-- **One entry for each name**, of the highest rank and precedence. -/
structure Catalogued (catalog : ImmutableSkillCatalog) (manifests : List ScannedSkill) : Prop where
  nodup : (catalog.entries.map SkillCatalogEntry.name).Nodup
  covers : ∀ manifest ∈ manifests, ∃ entry ∈ catalog.entries, entry.name = manifest.name
  taken : ∀ entry ∈ catalog.entries, ∃ manifest ∈ manifests,
    entry = manifest.toSkillCatalogEntry ∧
      ∀ other ∈ manifests, other.name = entry.name →
        other.source.sourceRank < entry.source.sourceRank ∨
          other.source.sourceRank = entry.source.sourceRank ∧ other.precedence ≤ entry.precedence

theorem catalogued_selectedValues :
    Catalogued (catalogOf H limits (selectedValues H manifests)) manifests := by
  refine ⟨?_, fun manifest hmem ↦ ?_, fun entry hmem ↦ ?_⟩
  · rw [catalogOf, List.map_map]
    exact nodup_map_select _ _ _ manifests
  · obtain ⟨chosen, hchosen, hname⟩ := exists_mem_select
      (fun manifest : ScannedSkill ↦ manifest.name) (ComesBefore H) (NameLe H) hmem
    exact ⟨chosen.toSkillCatalogEntry, List.mem_map_of_mem hchosen, hname⟩
  · obtain ⟨chosen, hchosen, rfl⟩ := List.mem_map.mp hmem
    refine ⟨chosen, mem_of_mem_select hchosen, rfl, fun other hother hname ↦ ?_⟩
    have hbefore : ComesBefore H chosen other := before_of_mem_select hchosen hother hname
    refine hbefore.imp_right fun h ↦ ⟨h.1, ?_⟩
    rcases h.2 with h | ⟨h, -⟩
    · exact h.le
    · exact h.le

/-- **Listing sources and directories in another order** gives the same catalog and snapshots. -/
theorem create_of_reordered {files' : SkillFiles} {sources' : List SkillSource}
    (hscan : Scanned H limits files sources manifests)
    (hties : ∀ a ∈ manifests, ∀ b ∈ manifests, Tied H a b → a = b)
    (hfiles : files.Reordered files') (hsources : sources.Perm sources')
    (hlimits : validateLimits limits = .ok ())
    (hkept : (selectedValues H manifests).foldlM (keepSnapshot H limits snapshotRoot
      (catalogOf H limits (selectedValues H manifests)).generation) disk = .ok disk') :
    create H limits files' snapshotRoot sources' disk =
      .ok (disk', catalogOf H limits (selectedValues H manifests)) := by
  obtain ⟨manifests', hscan', hperm⟩ := hscan.reordered hfiles hsources
  have hsame : selectedValues H manifests = selectedValues H manifests' := by
    refine select_eq_of_perm hperm fun a ha b hb hab hba hle hge ↦ hties a ha b hb ?_
    have hrank : b.source.sourceRank = a.source.sourceRank := by
      rcases hab with h | ⟨h, -⟩
      · rcases hba with h' | ⟨h', -⟩ <;> omega
      · exact h
    have hab' := hab.resolve_left (by omega)
    have hba' := hba.resolve_left (by omega)
    have hprecedence : b.precedence = a.precedence := by
      rcases hab'.2 with h | ⟨h, -⟩
      · rcases hba'.2 with h' | ⟨h', -⟩ <;> omega
      · exact h
    exact ⟨hrank, hprecedence, ⟨(hab'.2.resolve_left (by omega)).2,
      (hba'.2.resolve_left (by omega)).2⟩, hle, hge⟩
  refine create_eq_ok_iff.mpr ⟨hlimits, manifests', hscan', by rw [hsame], ?_⟩
  rw [hsame] at hkept ⊢
  exact hkept

/-! ## Views -/

/-- **What a view gives**: nothing for what is not listed, and for what is listed what follows the
metadata of its file, unless that is longer than a prompt may be. -/
structure ViewsTruly (H : SkillHost) (limits : SkillLimits) (catalog : ImmutableSkillCatalog)
    (manifests : List ScannedSkill) (disk : SnapshotDirectory) : Prop where
  absent : ∀ eligibility name,
    name ∉ (catalog.list eligibility).map SkillCatalogEntry.name →
      catalog.view H eligibility disk name = .ok none
  listed : ∀ eligibility, ∀ entry ∈ catalog.list eligibility, ∃ manifest ∈ manifests,
    entry = manifest.toSkillCatalogEntry ∧ ∃ body, ReadFrom H limits manifest body ∧
      catalog.view H eligibility disk entry.name =
        if limits.maxPromptCharacters < body.length then
          .error (js "Skill prompt exceeds " ++ decimal limits.maxPromptCharacters ++
            js " characters: " ++ entry.name)
        else .ok (some { entry with body, generation := catalog.generation })

/-- Of the files that are kept and those that were scanned, different ones have different digests.
-/
def Distinguishes (H : SkillHost) (manifests : List ScannedSkill) (disk : SnapshotDirectory) :
    Prop :=
  ∀ generation digest file, disk generation digest = some (.file file) →
    ∀ manifest ∈ manifests, H.sha256 file.bytes = H.sha256 manifest.sourceBytes →
      file.bytes = manifest.sourceBytes

/-- The snapshots of a catalog are where it keeps them. -/
theorem viewsTruly_of_kept (hscan : Scanned H limits files sources manifests)
    (hcatalog : catalog = catalogOf H limits (selectedValues H manifests))
    (hkept : ∀ manifest ∈ selectedValues H manifests, ∃ file,
      disk catalog.generation manifest.contentDigest = some (.file file) ∧
        H.sha256 file.bytes = manifest.contentDigest)
    (hdigests : Distinguishes H manifests disk) : ViewsTruly H limits catalog manifests disk := by
  have hcatalogued : Catalogued catalog manifests := hcatalog ▸ catalogued_selectedValues
  constructor
  · intro eligibility name hname
    rw [ImmutableSkillCatalog.view]
    rcases hlookup : Table.lookup SkillCatalogEntry.name name catalog.entries with _ | entry
    · rfl
    dsimp only
    refine if_pos (Bool.eq_false_of_not_eq_true fun heligible ↦ hname ?_)
    refine List.mem_map.mpr ⟨entry, ?_, Table.key_of_lookup hlookup⟩
    exact List.mem_filter.mpr ⟨Table.mem_of_lookup hlookup, heligible⟩
  · intro eligibility entry hentry
    obtain ⟨hmem, heligible⟩ := List.mem_filter.mp hentry
    obtain ⟨manifest, hselected, heq⟩ : ∃ manifest ∈ selectedValues H manifests,
        manifest.toSkillCatalogEntry = entry := by
      rw [hcatalog] at hmem
      exact List.mem_map.mp hmem
    have hmanifest : manifest ∈ manifests := mem_of_mem_select hselected
    obtain ⟨-, body, hread⟩ := hscan.readFrom manifest hmanifest
    refine ⟨manifest, hmanifest, heq.symm, body, hread, ?_⟩
    obtain ⟨file, hfile, hdigest⟩ := hkept manifest hselected
    have hbytes : file.bytes = manifest.sourceBytes :=
      hdigests _ _ file hfile manifest hmanifest (hdigest.trans hread.digest)
    obtain ⟨metadata, _, _, _, hfrontmatter, -⟩ := hread.parts
    have hsame : entry.contentDigest = manifest.contentDigest := heq ▸ rfl
    rw [ImmutableSkillCatalog.view, Table.lookup_of_mem hcatalogued.nodup hmem]
    dsimp only
    rw [if_neg (by rw [heligible]; decide), hsame, hfile]
    dsimp only
    rw [if_neg (not_not.mpr hdigest), parseBody, hbytes, hfrontmatter]
    have hlimit : catalog.maxPromptCharacters = limits.maxPromptCharacters := hcatalog ▸ rfl
    rw [hlimit]
    by_cases hlong : limits.maxPromptCharacters < body.length
    · rw [if_pos hlong]
      exact if_pos hlong
    · rw [if_neg hlong]
      exact if_neg hlong

end LiteHarness.Skills
