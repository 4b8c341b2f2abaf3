import LiteHarness.Storage.JsonReading
import LiteHarness.Workspace.CacheDescriptor

/-!
# What a cache key tells apart

Two accepted descriptors have one key exactly when they agree in everything the key is made from, the
version maps as maps (`cacheKey_eq_iff`). A version whose name is `__proto__` is lost when its map is
rebuilt, so that such versions are not told apart (`keyed_iff`, `not_keyed_proto`).
-/

namespace LiteHarness.Workspace

open Foundation

/-! ## The property -/

/-- The entries of two maps are the same. -/
def SameMap (m m' : VersionMap) : Prop := m.entries.Perm m'.entries

/-- The entries that an ordinary object keeps. -/
def ordinary (m : VersionMap) : List (JsString × JsString) :=
  m.entries.filter fun f ↦ f.1 ≠ js "__proto__"

/-- The entry that it does not keep. -/
def protoEntries (m : VersionMap) : List (JsString × JsString) :=
  m.entries.filter fun f ↦ f.1 = js "__proto__"

/-- Two descriptors agree in all they are compared by, their version maps by `same`. -/
structure Agree (same : VersionMap → VersionMap → Prop) (d d' : CacheDescriptor) : Prop where
  classes : d.class = d'.class
  kind : d.kind = d'.kind
  logicalKey : d.logicalKey = d'.logicalKey
  sourceDigest : d.sourceDigest = d'.sourceDigest
  imageDigest : d.imageDigest = d'.imageDigest
  lockDigest : d.lockDigest = d'.lockDigest
  tools : same d.toolVersions d'.toolVersions
  frameworks : same d.frameworkVersions d'.frameworkVersions
  runtime : d.runtimeVersion = d'.runtimeVersion
  operatingSystem : d.operatingSystem = d'.operatingSystem
  architecture : d.architecture = d'.architecture
  configDigest : d.configDigest = d'.configDigest
  policy : d.policyVersion = d'.policyVersion
  tenant : d.class ≠ .globalImmutable → d.tenantId = d'.tenantId
  workspace : d.class = .workspacePrivate → d.workspaceId = d'.workspaceId

variable (L : Collation) (P : Platform)

/-- **What a key is for.** -/
structure Keyed (d d' : CacheDescriptor) : Prop where
  /-- One key is one descriptor, whatever the order of the names. -/
  exact : cacheKey L P d = cacheKey L P d' ↔ Agree SameMap d d'
  /-- What is published under a scope is attached under that scope. -/
  owned : cacheKey L P d = cacheKey L P d' → ∀ publisher scope,
    validateCachePublisher d publisher = .ok () → assertCacheScope d' scope = .ok () →
    (d.class ≠ .globalImmutable → publisher.tenantId = scope.tenantId) ∧
      (d.class = .workspacePrivate → publisher.workspaceId = scope.workspaceId)

/-- The maps of two descriptors have the same versions of `__proto__`. -/
def SameProto (d d' : CacheDescriptor) : Prop :=
  (protoEntries d.toolVersions).Perm (protoEntries d'.toolVersions) ∧
    (protoEntries d.frameworkVersions).Perm (protoEntries d'.frameworkVersions)

/-- Two maps have the same entries besides `__proto__`. -/
def SameOrdinary (m m' : VersionMap) : Prop := (ordinary m).Perm (ordinary m')

/-! ## Version maps -/

variable {L P} {m m' : VersionMap} {d d' : CacheDescriptor}

/-- A map is its ordinary entries and its entry of `__proto__`. -/
theorem sameMap_iff :
    SameMap m m' ↔ SameOrdinary m m' ∧ (protoEntries m).Perm (protoEntries m') := by
  have hsplit : ∀ m : VersionMap, (protoEntries m ++ ordinary m).Perm m.entries := fun m ↦ by
    refine (List.Perm.append_left _ (List.Perm.of_eq ?_)).trans
      (List.filter_append_perm (fun f : JsString × JsString ↦ decide (f.1 = js "__proto__"))
        m.entries)
    refine List.filter_congr fun f _ ↦ ?_
    rw [decide_not]
  constructor
  · exact fun h ↦ ⟨h.filter _, h.filter _⟩
  · exact fun h ↦ (hsplit m).symm.trans ((h.2.append h.1).trans (hsplit m'))

theorem boundedCacheIdentity_eq_ok {value label out : JsString}
    (h : boundedCacheIdentity value label = .ok out) : out = value := by
  rw [boundedCacheIdentity] at h
  split_ifs at h
  exact (Except.ok.inj h).symm

/-- The loop keeps every ordinary entry. -/
theorem normalizeVersions_eq_ok {normalized fields out : List (JsString × JsString)}
    (h : normalizeVersions normalized fields = .ok out) :
    out = normalized ++ fields.filter (fun f ↦ f.1 ≠ js "__proto__") ∧
      ∀ f ∈ fields, isVersionName f.1 = true := by
  induction fields generalizing normalized with
  | nil => exact ⟨by rw [← Except.ok.inj h, List.filter_nil, List.append_nil], by simp⟩
  | cons f fields ih =>
    obtain ⟨name, version⟩ := f
    obtain ⟨_, hname, hrest⟩ := except_bind_eq_ok_iff.mp h
    obtain ⟨version', hversion, hloop⟩ := except_bind_eq_ok_iff.mp hrest
    obtain rfl := boundedCacheIdentity_eq_ok hversion
    obtain ⟨rfl, hnames⟩ := ih hloop
    have hname' : isVersionName name = true := by simpa using check_eq_ok_iff.mp hname
    refine ⟨?_, fun f hf ↦ (List.mem_cons.mp hf).elim (fun heq ↦ heq ▸ hname') (hnames f)⟩
    rw [setVersion]
    by_cases hproto : name = js "__proto__"
    · rw [if_pos hproto, List.filter_cons_of_neg (by simpa using hproto)]
    · rw [if_neg hproto, List.filter_cons_of_pos (by simpa using hproto), List.append_assoc]
      rfl

/-- The order of two entries by their names. -/
def entryLe (L : Collation) (f g : JsString × JsString) : Bool := L.le f.1 g.1

theorem normalizeCacheVersionMap_eq_ok {out : List (JsString × JsString)}
    (h : normalizeCacheVersionMap L m = .ok out) :
    out = ownOrder ((m.entries.mergeSort (entryLe L)).filter fun f ↦ f.1 ≠ js "__proto__") ∧
      ∀ f ∈ m.entries, isVersionName f.1 = true := by
  obtain ⟨_, -, h⟩ := except_bind_eq_ok_iff.mp h
  obtain ⟨normalized, hnormalized, h⟩ := except_bind_eq_ok_iff.mp h
  obtain ⟨hfields, hnames⟩ := normalizeVersions_eq_ok hnormalized
  refine ⟨?_, fun f hf ↦ hnames f ((List.mergeSort_perm _ _).mem_iff.mpr hf)⟩
  rw [← Except.ok.inj h, hfields, List.nil_append]
  rfl

/-- The sorted ordinary entries do not depend on the order of the given ones. -/
theorem sorted_eq_of_perm (hnames : ∀ f ∈ m.entries, isVersionName f.1 = true)
    (h : SameOrdinary m m') :
    (m.entries.mergeSort (entryLe L)).filter (fun f ↦ f.1 ≠ js "__proto__") =
      (m'.entries.mergeSort (entryLe L)).filter fun f ↦ f.1 ≠ js "__proto__" := by
  have hsorted : ∀ m : VersionMap, ((m.entries.mergeSort (entryLe L)).filter
      fun f ↦ f.1 ≠ js "__proto__").Pairwise fun f g ↦ entryLe L f g = true := fun m ↦ by
    have hall : (m.entries.mergeSort (entryLe L)).Pairwise fun f g ↦ entryLe L f g = true :=
      List.pairwise_mergeSort (fun a b c ↦ L.trans a.1 b.1 c.1) (fun a b ↦ L.total a.1 b.1) _
    exact hall.filter _
  have hperm : ∀ m : VersionMap, ((m.entries.mergeSort (entryLe L)).filter
      fun f ↦ f.1 ≠ js "__proto__").Perm (ordinary m) := fun m ↦
    (List.mergeSort_perm _ _).filter _
  have hall := (hperm m).trans (h.trans (hperm m').symm)
  refine List.Perm.eq_of_pairwise (fun f g hf hg hfg hgf ↦ ?_) (hsorted m) (hsorted m') hall
  have hf' := (List.mem_filter.mp ((hperm m).mem_iff.mp hf)).1
  have hg' := (List.mem_filter.mp ((hperm m).mem_iff.mp (hall.mem_iff.mpr hg))).1
  exact List.inj_on_of_nodup_map m.nodup hf' hg'
    (L.antisymm _ _ (hnames f hf') (hnames g hg') hfg hgf)

/-- Two maps are rebuilt in the same way exactly when they have the same ordinary entries. -/
theorem normalized_eq_iff {out out' : List (JsString × JsString)}
    (h : normalizeCacheVersionMap L m = .ok out) (h' : normalizeCacheVersionMap L m' = .ok out') :
    out = out' ↔ SameOrdinary m m' := by
  obtain ⟨rfl, hnames⟩ := normalizeCacheVersionMap_eq_ok h
  obtain ⟨rfl, -⟩ := normalizeCacheVersionMap_eq_ok h'
  have hperm : ∀ m : VersionMap, (ownOrder ((m.entries.mergeSort (entryLe L)).filter
      fun f ↦ f.1 ≠ js "__proto__")).Perm (ordinary m) := fun m ↦
    (List.mergeSort_perm _ _).trans ((List.mergeSort_perm _ _).filter _)
  constructor
  · intro heq
    exact (hperm m).symm.trans (heq ▸ hperm m')
  · intro hsame
    rw [sorted_eq_of_perm hnames hsame]

/-! ## Accepted descriptors -/

/-- What a key is made from, once a descriptor is accepted. -/
structure Accepted (L : Collation) (d : CacheDescriptor) (tools frameworks : List (JsString × JsString)) :
    Prop where
  tools : normalizeCacheVersionMap L d.toolVersions = .ok tools
  frameworks : normalizeCacheVersionMap L d.frameworkVersions = .ok frameworks
  policy : ∃ q, d.policyVersion = .finite q
  tenant : d.class ≠ .globalImmutable → ∃ t, d.tenantId = some t
  workspace : d.class = .workspacePrivate → ∃ w, d.workspaceId = some w

theorem some_of_truthy_ne_none {s : Option JsString} (h : truthy s ≠ none) : ∃ t, s = some t := by
  rcases s with _ | t
  · exact absurd rfl h
  · exact ⟨t, rfl⟩

/-- A positive safe integer is a finite number other than `-0`. -/
theorem finite_of_policy {n : JsNumber} (h : ((JsValue.number n).asCount.all fun k ↦ k < 1) ≠ true) :
    ∃ q, n = .finite q := by
  rcases n with q | _ | _
  · exact ⟨q, rfl⟩
  · exact absurd (by decide +kernel) h
  · exact absurd rfl h

theorem accepted_of_validate (h : validateCacheDescriptor L d = .ok ()) :
    ∃ tools frameworks, Accepted L d tools frameworks := by
  obtain ⟨_, -, h₁⟩ := except_bind_eq_ok_iff.mp h
  obtain ⟨_, -, h₂⟩ := except_bind_eq_ok_iff.mp h₁
  obtain ⟨_, -, h₃⟩ := except_bind_eq_ok_iff.mp h₂
  obtain ⟨_, -, h₄⟩ := except_bind_eq_ok_iff.mp h₃
  obtain ⟨_, -, h₅⟩ := except_bind_eq_ok_iff.mp h₄
  obtain ⟨_, -, h₆⟩ := except_bind_eq_ok_iff.mp h₅
  obtain ⟨tools, htools, h₇⟩ := except_bind_eq_ok_iff.mp h₆
  obtain ⟨frameworks, hframeworks, h₈⟩ := except_bind_eq_ok_iff.mp h₇
  obtain ⟨_, -, h₉⟩ := except_bind_eq_ok_iff.mp h₈
  obtain ⟨_, -, h₁₀⟩ := except_bind_eq_ok_iff.mp h₉
  obtain ⟨_, -, h₁₁⟩ := except_bind_eq_ok_iff.mp h₁₀
  obtain ⟨_, hpolicy, h₁₂⟩ := except_bind_eq_ok_iff.mp h₁₁
  obtain ⟨_, htenant, hworkspace⟩ := except_bind_eq_ok_iff.mp h₁₂
  refine ⟨tools, frameworks, htools, hframeworks, ?_, fun hclass ↦ ?_, fun hclass ↦ ?_⟩
  · exact finite_of_policy (check_eq_ok_iff.mp hpolicy)
  · exact some_of_truthy_ne_none fun hnone ↦ check_eq_ok_iff.mp htenant ⟨hclass, hnone⟩
  · exact some_of_truthy_ne_none fun hnone ↦ check_eq_ok_iff.mp hworkspace ⟨hclass, hnone⟩

namespace Accepted

variable {tools tools' frameworks frameworks' : List (JsString × JsString)}

theorem cacheKey_eq (h : Accepted L d tools frameworks) :
    cacheKey L P d = .ok (P.sha256 (P.stringify (keyFields d tools frameworks))) := by
  rw [cacheKey, h.tools, h.frameworks]
  rfl

theorem plain_versionsValue (fields : List (JsString × JsString)) :
    (versionsValue fields).IsPlain := by
  refine JsValue.fieldsArePlain_iff.mpr fun f hf ↦ ?_
  obtain ⟨g, -, rfl⟩ := List.mem_map.mp hf
  exact trivial

/-- Nothing is dropped from the record of an accepted descriptor. -/
theorem plain (h : Accepted L d tools frameworks) :
    ∀ f ∈ keyFields d tools frameworks, f.2.IsPlain := by
  have htenant : (if d.class = .globalImmutable then JsValue.null else given d.tenantId).IsPlain := by
    split_ifs with hclass
    · trivial
    · obtain ⟨t, ht⟩ := h.tenant hclass
      rw [ht]
      trivial
  have hworkspace :
      (if d.class = .workspacePrivate then given d.workspaceId else JsValue.null).IsPlain := by
    split_ifs with hclass
    · obtain ⟨w, hw⟩ := h.workspace hclass
      rw [hw]
      trivial
    · trivial
  intro f hf
  simp only [keyFields, List.mem_cons, List.not_mem_nil, or_false] at hf
  rcases hf with rfl | rfl | rfl | rfl | rfl | rfl | rfl | rfl | rfl | rfl | rfl | rfl | rfl | rfl |
    rfl
  all_goals first | trivial | exact plain_versionsValue _ | exact h.policy

theorem versionsValue_inj : versionsValue tools = versionsValue tools' ↔ tools = tools' := by
  refine ⟨fun h ↦ ?_, congrArg _⟩
  refine List.map_injective_iff.mpr (fun f g hfg ↦ ?_) (JsValue.object.inj h)
  exact Prod.ext (Prod.mk.inj hfg).1 (JsValue.string.inj (Prod.mk.inj hfg).2)

theorem className_inj {c c' : CacheClass} : c.name = c'.name ↔ c = c' := by
  refine ⟨fun h ↦ ?_, congrArg _⟩
  rcases c <;> rcases c' <;> first | rfl | exact absurd h (by decide)

theorem given_inj {s s' : Option JsString} : given s = given s' ↔ s = s' := by
  refine ⟨fun h ↦ ?_, congrArg _⟩
  rcases s with _ | s <;> rcases s' with _ | s'
  · rfl
  · exact absurd h nofun
  · exact absurd h nofun
  · exact congrArg some (JsValue.string.inj h)

/-- The records of two accepted descriptors are the same when the descriptors agree. -/
theorem keyFields_eq_iff (h : Accepted L d tools frameworks)
    (h' : Accepted L d' tools' frameworks') :
    keyFields d tools frameworks = keyFields d' tools' frameworks' ↔ Agree SameOrdinary d d' := by
  have htools := normalized_eq_iff h.tools h'.tools
  have hframeworks := normalized_eq_iff h.frameworks h'.frameworks
  constructor
  · intro heq
    simp only [keyFields, List.cons.injEq, Prod.mk.injEq, true_and, and_true, JsValue.string.injEq,
      versionsValue_inj, className_inj, JsValue.number.injEq] at heq
    obtain ⟨hclass, hkind, hkey, hsource, hlock, htool, hframework, hruntime, himage, hsystem,
      harch, hconfig, hpolicy, htenant, hworkspace⟩ := heq
    refine ⟨hclass, hkind, hkey, hsource, himage, hlock, htools.mp htool, hframeworks.mp hframework,
      hruntime, hsystem, harch, hconfig, hpolicy, fun hne ↦ ?_, fun hprivate ↦ ?_⟩
    · rw [if_neg hne, if_neg (hclass ▸ hne)] at htenant
      exact given_inj.mp htenant
    · rw [if_pos hprivate, if_pos (hclass ▸ hprivate)] at hworkspace
      exact given_inj.mp hworkspace
  · intro hagree
    have htenant : (if d.class = .globalImmutable then JsValue.null else given d.tenantId) =
        if d'.class = .globalImmutable then JsValue.null else given d'.tenantId := by
      rw [← hagree.classes]
      split_ifs with hclass
      · rfl
      · rw [hagree.tenant hclass]
    have hworkspace : (if d.class = .workspacePrivate then given d.workspaceId else JsValue.null) =
        if d'.class = .workspacePrivate then given d'.workspaceId else JsValue.null := by
      rw [← hagree.classes]
      split_ifs with hclass
      · rw [hagree.workspace hclass]
      · rfl
    rw [keyFields, keyFields, htenant, hworkspace, hagree.classes, hagree.kind, hagree.logicalKey,
      hagree.sourceDigest, hagree.imageDigest, hagree.lockDigest, htools.mpr hagree.tools,
      hframeworks.mpr hagree.frameworks, hagree.runtime, hagree.operatingSystem,
      hagree.architecture, hagree.configDigest, hagree.policy]

end Accepted

/-- **Keys tell accepted descriptors apart**, except for what their maps say about `__proto__`. -/
theorem cacheKey_eq_iff (hd : validateCacheDescriptor L d = .ok ())
    (hd' : validateCacheDescriptor L d' = .ok ()) :
    cacheKey L P d = cacheKey L P d' ↔ Agree SameOrdinary d d' := by
  obtain ⟨tools, frameworks, h⟩ := accepted_of_validate hd
  obtain ⟨tools', frameworks', h'⟩ := accepted_of_validate hd'
  rw [h.cacheKey_eq, h'.cacheKey_eq, ← h.keyFields_eq_iff h']
  constructor
  · intro heq
    exact P.stringify_inj h.plain h'.plain (P.sha256_injective (Except.ok.inj heq))
  · exact fun heq ↦ by rw [heq]

/-- Agreement up to `__proto__` is agreement where the versions of `__proto__` are the same. -/
theorem agree_sameMap_iff : Agree SameMap d d' ↔ Agree SameOrdinary d d' ∧ SameProto d d' := by
  constructor
  · intro h
    obtain ⟨htools, htools'⟩ := sameMap_iff.mp h.tools
    obtain ⟨hframeworks, hframeworks'⟩ := sameMap_iff.mp h.frameworks
    exact ⟨{ h with tools := htools, frameworks := hframeworks }, htools', hframeworks'⟩
  · rintro ⟨h, htools, hframeworks⟩
    exact { h with
      tools := sameMap_iff.mpr ⟨h.tools, htools⟩
      frameworks := sameMap_iff.mpr ⟨h.frameworks, hframeworks⟩ }

theorem tenantId_eq_of_published {publisher : CachePublisher}
    (h : validateCachePublisher d publisher = .ok ()) :
    (d.class ≠ .globalImmutable → publisher.tenantId = d.tenantId) ∧
      (d.class = .workspacePrivate → publisher.workspaceId = d.workspaceId) := by
  obtain ⟨_, -, h₁⟩ := except_bind_eq_ok_iff.mp h
  obtain ⟨_, -, h₂⟩ := except_bind_eq_ok_iff.mp h₁
  obtain ⟨_, -, h₃⟩ := except_bind_eq_ok_iff.mp h₂
  obtain ⟨_, htenant, hworkspace⟩ := except_bind_eq_ok_iff.mp h₃
  refine ⟨fun hclass ↦ ?_, fun hclass ↦ ?_⟩
  · exact not_not.mp fun hne ↦ check_eq_ok_iff.mp htenant ⟨hclass, hne⟩
  · exact not_not.mp fun hne ↦ check_eq_ok_iff.mp hworkspace ⟨hclass, hne⟩

theorem tenantId_eq_of_attached {scope : CacheScope} (h : assertCacheScope d scope = .ok ()) :
    (d.class ≠ .globalImmutable → d.tenantId = scope.tenantId) ∧
      (d.class = .workspacePrivate → d.workspaceId = scope.workspaceId) := by
  obtain ⟨_, htenant, hworkspace⟩ := except_bind_eq_ok_iff.mp h
  refine ⟨fun hclass ↦ ?_, fun hclass ↦ ?_⟩
  · exact not_not.mp fun hne ↦ check_eq_ok_iff.mp htenant ⟨hclass, hne⟩
  · exact not_not.mp fun hne ↦ check_eq_ok_iff.mp hworkspace ⟨hclass, hne⟩

/-- What has the key of an accepted descriptor is of its scope. -/
theorem owned_of_cacheKey_eq (hagree : Agree SameOrdinary d d') {publisher : CachePublisher}
    {scope : CacheScope} (hpublished : validateCachePublisher d publisher = .ok ())
    (hattached : assertCacheScope d' scope = .ok ()) :
    (d.class ≠ .globalImmutable → publisher.tenantId = scope.tenantId) ∧
      (d.class = .workspacePrivate → publisher.workspaceId = scope.workspaceId) := by
  obtain ⟨htenant, hworkspace⟩ := tenantId_eq_of_published hpublished
  obtain ⟨htenant', hworkspace'⟩ := tenantId_eq_of_attached hattached
  refine ⟨fun hclass ↦ ?_, fun hclass ↦ ?_⟩
  · rw [htenant hclass, hagree.tenant hclass, htenant' (hagree.classes ▸ hclass)]
  · rw [hworkspace hclass, hagree.workspace hclass, hworkspace' (hagree.classes ▸ hclass)]

/-- **The key of a descriptor is its own** exactly when the maps say the same of `__proto__`, or the
descriptors differ besides. -/
theorem keyed_iff (hd : validateCacheDescriptor L d = .ok ())
    (hd' : validateCacheDescriptor L d' = .ok ()) :
    Keyed L P d d' ↔ SameProto d d' ∨ ¬Agree SameOrdinary d d' := by
  have hkey : cacheKey L P d = cacheKey L P d' ↔ Agree SameOrdinary d d' := cacheKey_eq_iff hd hd'
  constructor
  · intro h
    by_cases hagree : Agree SameOrdinary d d'
    · exact Or.inl (agree_sameMap_iff.mp (h.exact.mp (hkey.mpr hagree))).2
    · exact Or.inr hagree
  · intro h
    refine ⟨hkey.trans ?_, fun heq _ _ ↦ owned_of_cacheKey_eq (hkey.mp heq)⟩
    rw [agree_sameMap_iff]
    refine ⟨fun hagree ↦ ⟨hagree, ?_⟩, And.left⟩
    exact h.resolve_right (not_not.mpr hagree)

/-! ## A lost version -/

/-- The comparison of code units. -/
def unitCollation : Collation where
  le a b := keyLe a b
  total := keyLe_total
  trans := keyLe_trans
  antisymm _ _ _ _ hab hba := keyLe_antisymm (of_decide_eq_true hab) (of_decide_eq_true hba)

/-- A digest of zeros. -/
def zeros : JsString := List.replicate 64 48

/-- A global descriptor with one version of the tools. -/
def globalDescriptor (tools : VersionMap) : CacheDescriptor where
  «class» := .globalImmutable
  kind := js "npm"
  logicalKey := js "node_modules"
  sourceDigest := zeros
  imageDigest := js "sha256:" ++ zeros
  lockDigest := zeros
  toolVersions := tools
  frameworkVersions := ⟨[], List.nodup_nil⟩
  runtimeVersion := js "22"
  operatingSystem := js "linux"
  architecture := js "x64"
  configDigest := zeros
  policyVersion := .finite 1
  tenantId := none
  workspaceId := none

/-- One version, of the given name. -/
def oneVersion (name : JsString) : VersionMap := ⟨[(name, js "1")], List.nodup_singleton _⟩

theorem keyed_iff_node :
    Keyed unitCollation referencePlatform (globalDescriptor (oneVersion (js "node")))
        (globalDescriptor ⟨[], List.nodup_nil⟩) ↔
      SameProto (globalDescriptor (oneVersion (js "node"))) (globalDescriptor ⟨[], List.nodup_nil⟩) ∨
        ¬Agree SameOrdinary (globalDescriptor (oneVersion (js "node")))
          (globalDescriptor ⟨[], List.nodup_nil⟩) :=
  keyed_iff (by decide +kernel) (by decide +kernel)

/-- A version of `__proto__` is accepted, and its descriptor has the key of the one without it. -/
theorem not_keyed_proto :
    validateCacheDescriptor unitCollation (globalDescriptor (oneVersion (js "__proto__"))) = .ok () ∧
      validateCacheDescriptor unitCollation (globalDescriptor ⟨[], List.nodup_nil⟩) = .ok () ∧
      ¬Keyed unitCollation referencePlatform (globalDescriptor (oneVersion (js "__proto__")))
        (globalDescriptor ⟨[], List.nodup_nil⟩) := by
  refine ⟨by decide +kernel, by decide +kernel, fun h ↦ ?_⟩
  have hkey : cacheKey unitCollation referencePlatform (globalDescriptor (oneVersion (js "__proto__"))) =
      cacheKey unitCollation referencePlatform (globalDescriptor ⟨[], List.nodup_nil⟩) := by
    decide +kernel
  exact absurd (h.exact.mp hkey).tools.length_eq (by decide)

end LiteHarness.Workspace
