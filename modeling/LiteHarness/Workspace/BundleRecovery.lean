import LiteHarness.Workspace.RecoveryBundle
import LiteHarness.Workspace.SnapshotRecovery
import Mathlib.Algebra.Order.BigOperators.Group.List

/-!
# What a recovery bundle restores

A bundle whose paths do not get in each other's way is restored exactly, whatever is restored was
created with the key it is opened with, and no restore changes anything outside its target
(`bundles_recover`). The associated data is written again from the header that has been read, so
that the spelling of a header is not authenticated (`not_rejectsAltered_respaced`).
-/

namespace LiteHarness.Workspace

open Foundation Foundation.Eff

/-! ## Paths -/

theorem validateRecoveryEntryPath_eq_ok_iff {value path : JsString} :
    validateRecoveryEntryPath value = .ok path ↔
      (value ≠ [] ∧ value ≠ js ".") ∧ isWorkspacePath value = true ∧
        ¬js ".lite-harness/" <+: value ∧ path = slashes value := by
  rw [validateRecoveryEntryPath]
  split_ifs with hempty hsafe hreserved
  · exact ⟨fun h ↦ absurd h nofun, fun h ↦ absurd hempty (not_or.mpr h.1)⟩
  · refine ⟨fun h ↦ absurd h nofun, fun h ↦ ?_⟩
    rw [h.2.1] at hsafe
    exact absurd hsafe (by decide)
  · exact ⟨fun h ↦ absurd h nofun, fun h ↦ absurd hreserved h.2.2.1⟩
  · exact ⟨fun h ↦ ⟨not_or.mp hempty, by simpa using hsafe, hreserved, (Except.ok.inj h).symm⟩,
      fun h ↦ congrArg Except.ok h.2.2.2.symm⟩

/-- A path that has been accepted is accepted again, unless it has become a reserved one. -/
theorem validateRecoveryEntryPath_again {value path : JsString}
    (h : validateRecoveryEntryPath value = .ok path) (hreserved : ¬js ".lite-harness/" <+: path) :
    validateRecoveryEntryPath path = .ok path := by
  obtain ⟨⟨hnil, hdot⟩, hsafe, -, rfl⟩ := validateRecoveryEntryPath_eq_ok_iff.mp h
  refine validateRecoveryEntryPath_eq_ok_iff.mpr
    ⟨⟨fun heq ↦ hnil (List.map_eq_nil_iff.mp heq), fun heq ↦ hdot ?_⟩, ?_, hreserved, ?_⟩
  · -- no other unit becomes a dot
    obtain ⟨u, hu⟩ : ∃ u, value = [u] :=
      List.length_eq_one_iff.mp ((List.length_map _).symm.trans (congrArg List.length heq))
    subst hu
    rw [slashes, List.map_singleton] at heq
    split_ifs at heq with hback
    · exact absurd heq (by decide)
    · exact heq
  · rw [isWorkspacePath_slashes, hsafe]
  · exact (slashes_slashes value).symm

/-! ## The entries of a bundle -/

variable {H : RecoveryHost} {draw : RecoveryDraw} {key bundle : Bytes}
  {entries normalized : List RecoveryBundleEntry}

/-- An entry under its normalized path. -/
def slashed (e : RecoveryBundleEntry) : RecoveryBundleEntry := ⟨slashes e.path, e.data⟩

/-- The normalized entries are those given, under their normalized paths, in some order. -/
theorem normalizeEntries_eq_ok (h : normalizeEntries H entries = .ok normalized) :
    normalized.Perm (entries.map slashed) ∧
      ∀ e ∈ entries, validateRecoveryEntryPath e.path = .ok (slashes e.path) := by
  obtain ⟨middle, hmiddle, h⟩ := except_bind_eq_ok_iff.mp h
  obtain rfl := Except.ok.inj h
  have heach := mapM_eq_ok_iff.mp hmiddle
  have hstep : ∀ e e', (do
      let path ← validateRecoveryEntryPath e.path
      .ok ⟨path, e.data⟩ : Except JsString RecoveryBundleEntry) = .ok e' →
      validateRecoveryEntryPath e.path = .ok (slashes e.path) ∧ slashed e = e' := by
    intro e e' he
    obtain ⟨path, hpath, he⟩ := except_bind_eq_ok_iff.mp he
    obtain rfl := Except.ok.inj he
    obtain ⟨-, -, -, rfl⟩ := validateRecoveryEntryPath_eq_ok_iff.mp hpath
    exact ⟨hpath, rfl⟩
  have hmap : entries.map slashed = middle := by
    rw [← List.forall₂_eq_eq_eq, List.forall₂_map_left_iff]
    exact heach.imp fun e e' he ↦ (hstep e e' he).2
  refine ⟨(List.mergeSort_perm _ _).trans (hmap ▸ List.Perm.refl _), fun e he ↦ ?_⟩
  obtain ⟨e', -, he'⟩ := exists_of_mapM_eq_ok hmiddle e he
  exact (hstep e e' he').1

/-- What `createRecoveryBundle` has checked. -/
structure Bundled (entries normalized : List RecoveryBundleEntry) : Prop where
  perm : normalized.Perm (entries.map slashed)
  valid : ∀ e ∈ entries, validateRecoveryEntryPath e.path = .ok (slashes e.path)
  nonempty : normalized ≠ []
  count : normalized.length ≤ maxRecoveryEntries
  distinct : (normalized.map RecoveryBundleEntry.path).Nodup
  total : (normalized.map fun e ↦ e.data.length).sum ≤ maxRecoveryBytes

theorem createRecoveryBundle_eq_ok (h : createRecoveryBundle H draw entries key = .ok bundle) :
    key.length = 32 ∧ ∃ normalized, normalizeEntries H entries = .ok normalized ∧
      Bundled entries normalized ∧ bundle = encodeBundle H draw normalized key := by
  obtain ⟨_, hkey, h⟩ := except_bind_eq_ok_iff.mp h
  obtain ⟨_, hcount, h⟩ := except_bind_eq_ok_iff.mp h
  obtain ⟨normalized, hnormalized, h⟩ := except_bind_eq_ok_iff.mp h
  obtain ⟨_, hdistinct, h⟩ := except_bind_eq_ok_iff.mp h
  obtain ⟨_, htotal, h⟩ := except_bind_eq_ok_iff.mp h
  obtain ⟨hnil, hcount⟩ := not_or.mp (check_eq_ok_iff.mp hcount)
  obtain ⟨hperm, hvalid⟩ := normalizeEntries_eq_ok hnormalized
  have hlength : normalized.length = entries.length := by
    rw [hperm.length_eq, List.length_map]
  refine ⟨?_, normalized, hnormalized, ?_, (Except.ok.inj h).symm⟩
  · rw [validateRecoveryKey] at hkey
    split_ifs at hkey with hlen
    exact hlen
  · exact {
      perm := hperm
      valid := hvalid
      nonempty := fun heq ↦ hnil (List.length_eq_zero_iff.mp (by rw [← hlength, heq]; rfl))
      count := hlength ▸ Nat.le_of_not_lt hcount
      distinct := not_not.mp (check_eq_ok_iff.mp hdistinct)
      total := Nat.le_of_not_lt (check_eq_ok_iff.mp htotal) }

/-! ## Opening what was created -/

/-- What the host is relied on for, for one bundle. -/
structure RecoveryTrust (H : RecoveryHost) (draw : RecoveryDraw)
    (normalized : List RecoveryBundleEntry) (key : Bytes) : Prop where
  /-- `JSON.parse` reads what `JSON.stringify` wrote, which has no line feed. -/
  parseHeader : H.parse (H.stringify (headerOf H draw normalized).fields) =
    some (.object (headerOf H draw normalized).fields)
  line : 10 ∉ H.stringify (headerOf H draw normalized).fields
  parsePayload :
    H.parse (H.stringify (payloadFields H (bundleIdOf H draw) draw.createdAt normalized)) =
      some (.object (payloadFields H (bundleIdOf H draw) draw.createdAt normalized))
  /-- Decompression undoes compression. -/
  gunzip : H.gunzip (sealedPayload H draw normalized) =
    some (H.stringify (payloadFields H (bundleIdOf H draw) draw.createdAt normalized))
  gzip : sealedPayload H draw normalized ≠ []
  /-- Decryption undoes encryption; the ciphertext is as long as the text, and the tag has 16
  bytes. -/
  decrypt : H.decrypt key draw.nonce (recoveryAssociatedData H (headerOf H draw normalized))
      (sealBundle H draw normalized key).1 (sealBundle H draw normalized key).2 =
    some (sealedPayload H draw normalized)
  ciphertext : (sealBundle H draw normalized key).1.length =
    (sealedPayload H draw normalized).length
  tag : (sealBundle H draw normalized key).2.length = snapshotTagBytes
  /-- The texts of the nonce and of the data are read back, and digests have their form. -/
  nonce : H.fromBase64 (H.toBase64 draw.nonce) = draw.nonce
  nonceBytes : draw.nonce.length = 12
  base64 : ∀ e ∈ normalized, H.fromBase64 (H.toBase64 e.data) = e.data
  digest : ∀ e ∈ normalized, isDigest (H.sha256 e.data) = true

/-- An entry as it is read from the manifest. -/
def manifestEntryOf (H : RecoveryHost) (e : RecoveryBundleEntry) : RecoveryManifestEntry :=
  ⟨e.path, e.data.length, H.sha256 e.data⟩

/-- The manifest of a bundle, as it is read. -/
def manifestOf (H : RecoveryHost) (draw : RecoveryDraw) (normalized : List RecoveryBundleEntry) :
    RecoveryManifest :=
  ⟨bundleIdOf H draw, normalized.map (manifestEntryOf H)⟩

theorem readRecoveryHeader_fields (h : RecoveryHeader) :
    readRecoveryHeader (.object h.fields) = some h := by
  have hversion : ((JsValue.object h.fields).get "schemaVersion").asCount = some 1 :=
    JsValue.asCount_count (n := 1) (by decide)
  have halgorithm : ((JsValue.object h.fields).get "algorithm").asString =
      some (js "aes-256-gcm+gzip") := rfl
  exact if_pos ⟨hversion, halgorithm⟩

/-- The parts of a bundle are found where they are. -/
theorem parseRecoveryBundle_encode (htrust : RecoveryTrust H draw normalized key) :
    parseRecoveryBundle H (encodeBundle H draw normalized key) =
      .ok (headerOf H draw normalized, sealBundle H draw normalized key) := by
  have hgzip : 0 < (sealedPayload H draw normalized).length := List.length_pos_of_ne_nil htrust.gzip
  have hciphertext := htrust.ciphertext
  have htag := htrust.tag
  have hnonce : (H.fromBase64 (headerOf H draw normalized).nonce).length = 12 := by
    rw [headerOf, htrust.nonce, htrust.nonceBytes]
  rw [parseRecoveryBundle, encodeBundle, List.take_left, if_neg (fun hne ↦ hne rfl), List.drop_left,
    cutLine_append htrust.line]
  dsimp only
  rw [htrust.parseHeader]
  dsimp only
  rw [readRecoveryHeader_fields]
  dsimp only
  rcases hsealed : sealBundle H draw normalized key with ⟨ciphertext, tag⟩
  rw [hsealed] at hciphertext htag
  dsimp only at hciphertext htag ⊢
  have hlength : (ciphertext ++ tag).length - snapshotTagBytes = ciphertext.length := by
    rw [List.length_append, htag, Nat.add_sub_cancel]
  rw [if_neg (fun hne ↦ hne hnonce), if_neg, hlength, List.take_left, List.drop_left]
  rw [List.length_append]
  omega

/-- An entry of the manifest is read as it was written. -/
theorem readManifestEntry_fields {e : RecoveryBundleEntry}
    (hpath : validateRecoveryEntryPath e.path = .ok e.path) (hbytes : e.data.length ≤ 2 ^ 53 - 1)
    (hdigest : isDigest (H.sha256 e.data) = true) :
    readManifestEntry (manifestEntryFields H e) = .ok (manifestEntryOf H e) := by
  have hget : ((manifestEntryFields H e).get "path").asString = some e.path := rfl
  have hcount : ((manifestEntryFields H e).get "bytes").asCount = some e.data.length :=
    JsValue.asCount_count hbytes
  have hsha : ((manifestEntryFields H e).get "sha256").asString = some (H.sha256 e.data) := rfl
  rw [readManifestEntry, hget]
  dsimp only
  rw [hpath, hcount, hsha]
  exact if_pos hdigest

theorem bytes_le_of_total {e : RecoveryBundleEntry} (he : e ∈ normalized)
    (htotal : (normalized.map fun e ↦ e.data.length).sum ≤ maxRecoveryBytes) :
    e.data.length ≤ 2 ^ 53 - 1 := by
  have hle : e.data.length ≤ (normalized.map fun e ↦ e.data.length).sum :=
    List.single_le_sum (fun _ _ ↦ Nat.zero_le _) _ (List.mem_map.mpr ⟨e, he, rfl⟩)
  have hmax : maxRecoveryBytes ≤ 2 ^ 53 - 1 := by decide
  omega

/-- The payload passes the checks of the reader. -/
theorem validateRecoveryPayload_fields (hbundled : Bundled entries normalized)
    (htrust : RecoveryTrust H draw normalized key)
    (hpaths : ∀ e ∈ normalized, validateRecoveryEntryPath e.path = .ok e.path) :
    validateRecoveryPayload H
        (.object (payloadFields H (bundleIdOf H draw) draw.createdAt normalized))
        (headerOf H draw normalized) =
      .ok (manifestOf H draw normalized, normalized.map (payloadEntryFields H)) := by
  have hitems : (normalized.map (manifestEntryFields H)).mapM readManifestEntry =
      .ok (normalized.map (manifestEntryOf H)) := by
    refine mapM_eq_ok_iff.mpr (List.forall₂_map_right_iff.mpr (List.forall₂_map_left_iff.mpr ?_))
    exact List.forall₂_same.mpr fun e he ↦ readManifestEntry_fields (hpaths e he)
      (bytes_le_of_total he hbundled.total) (htrust.digest e he)
  have hversion : ((JsValue.object (manifestFields H (bundleIdOf H draw) draw.createdAt
      normalized)).get "schemaVersion").asCount = some 1 :=
    JsValue.asCount_count (n := 1) (by decide)
  have hnonempty : normalized.map (manifestEntryFields H) ≠ [] := fun h ↦
    hbundled.nonempty (List.map_eq_nil_iff.mp h)
  have hcount : ¬maxRecoveryEntries < (normalized.map (manifestEntryFields H)).length := by
    rw [List.length_map]
    exact Nat.not_lt_of_le hbundled.count
  have htotal : ((normalized.map (manifestEntryOf H)).map RecoveryManifestEntry.bytes).sum ≤
      maxRecoveryBytes := by
    rw [List.map_map]
    exact hbundled.total
  have hdistinct : ((normalized.map (manifestEntryOf H)).map RecoveryManifestEntry.path).Nodup := by
    rw [List.map_map]
    exact hbundled.distinct
  have hlength : (normalized.map (payloadEntryFields H)).length =
      (normalized.map (manifestEntryOf H)).length := by
    rw [List.length_map, List.length_map]
  refine except_bind_eq_ok_iff.mpr ⟨(), if_pos ⟨hversion, rfl, rfl⟩, ?_⟩
  refine except_bind_eq_ok_iff.mpr
    ⟨(), check_eq_ok_iff.mpr (not_or.mpr ⟨hnonempty, hcount⟩), ?_⟩
  refine except_bind_eq_ok_iff.mpr ⟨_, hitems, ?_⟩
  refine except_bind_eq_ok_iff.mpr ⟨(), check_eq_ok_iff.mpr (Nat.not_lt_of_le htotal), ?_⟩
  refine except_bind_eq_ok_iff.mpr ⟨(), check_eq_ok_iff.mpr (not_not.mpr hdistinct), ?_⟩
  exact if_pos hlength

/-- What was created is decrypted, and its payload is checked. -/
theorem openRecoveryBundle_eq (htrust : RecoveryTrust H draw normalized key) :
    openRecoveryBundle H (encodeBundle H draw normalized key) key =
      validateRecoveryPayload H
        (.object (payloadFields H (bundleIdOf H draw) draw.createdAt normalized))
        (headerOf H draw normalized) := by
  have hnonce : H.fromBase64 (headerOf H draw normalized).nonce = draw.nonce := htrust.nonce
  have hparse : (H.gunzip (sealedPayload H draw normalized)).bind H.parse =
      some (.object (payloadFields H (bundleIdOf H draw) draw.createdAt normalized)) := by
    rw [htrust.gunzip, Option.bind_some, htrust.parsePayload]
  unfold openRecoveryBundle
  rw [parseRecoveryBundle_encode htrust]
  dsimp only [bind, Except.bind]
  rw [hnonce]
  erw [htrust.decrypt]
  dsimp only
  rw [hparse]

/-- **What was created is opened**, where no path has become a reserved one. -/
theorem openRecoveryBundle_encode (hbundled : Bundled entries normalized)
    (htrust : RecoveryTrust H draw normalized key)
    (hpaths : ∀ e ∈ normalized, validateRecoveryEntryPath e.path = .ok e.path) :
    openRecoveryBundle H (encodeBundle H draw normalized key) key =
      .ok (manifestOf H draw normalized, normalized.map (payloadEntryFields H)) := by
  rw [openRecoveryBundle_eq htrust, validateRecoveryPayload_fields hbundled htrust hpaths]

/-- An entry of the payload is read as it was written. -/
theorem readSource_fields {e : RecoveryBundleEntry}
    (hpath : validateRecoveryEntryPath e.path = .ok e.path) :
    readSource (payloadEntryFields H e) = .ok (e.path, .string (H.toBase64 e.data)) :=
  except_bind_eq_ok_iff.mpr ⟨e.path, hpath, rfl⟩

/-- The sources of a bundle, as they are read. -/
def sourcesOf (H : RecoveryHost) (normalized : List RecoveryBundleEntry) :
    List (JsString × JsValue) :=
  normalized.map fun e ↦ (e.path, .string (H.toBase64 e.data))

theorem mapM_readSource_fields
    (hpaths : ∀ e ∈ normalized, validateRecoveryEntryPath e.path = .ok e.path) :
    (normalized.map (payloadEntryFields H)).mapM readSource = .ok (sourcesOf H normalized) := by
  refine mapM_eq_ok_iff.mpr (List.forall₂_map_right_iff.mpr (List.forall₂_map_left_iff.mpr ?_))
  exact List.forall₂_same.mpr fun e he ↦ readSource_fields (hpaths e he)

/-- The data of every entry is found and passes its checks. -/
theorem entryData_of_mem (hdistinct : (normalized.map RecoveryBundleEntry.path).Nodup)
    (hbase64 : ∀ e ∈ normalized, H.fromBase64 (H.toBase64 e.data) = e.data)
    {e : RecoveryBundleEntry} (he : e ∈ normalized) :
    entryData H (sourcesOf H normalized) (manifestEntryOf H e) = .ok e.data := by
  have hfind : (sourcesOf H normalized).reverse.find? (fun source ↦ source.1 = e.path) =
      some (e.path, .string (H.toBase64 e.data)) := by
    have hmem : (e.path, JsValue.string (H.toBase64 e.data)) ∈ (sourcesOf H normalized).reverse :=
      List.mem_reverse.mpr (List.mem_map.mpr ⟨e, he, rfl⟩)
    obtain ⟨source, hsource⟩ := Option.isSome_iff_exists.mp
      (List.find?_isSome.mpr ⟨_, hmem, decide_eq_true rfl⟩ :
        ((sourcesOf H normalized).reverse.find? fun source ↦ source.1 = e.path).isSome)
    obtain ⟨e', he', rfl⟩ := List.mem_map.mp
      (List.mem_reverse.mp (List.mem_of_find?_eq_some hsource))
    have htest := List.find?_some hsource
    have hpath : e'.path = e.path := of_decide_eq_true htest
    rw [hsource, List.inj_on_of_nodup_map hdistinct he' he hpath]
  rw [entryData, manifestEntryOf, hfind]
  refine except_bind_eq_ok_iff.mpr ⟨e.data, ?_, if_pos ⟨rfl, rfl⟩⟩
  rw [decodeData, hbase64 e he]

/-! ## Restoring what was created -/

section Restore

variable {ν : Type} [DecidableEq ν] {N : PathNames ν} {call : RestoreCall ν}
  {t t₀ : FileTree ν Bytes}

/-- The files the entries are restored to. -/
def filesOf (N : PathNames ν) (entries : List RecoveryBundleEntry) : List (List ν × Bytes) :=
  entries.map fun e ↦ ((N.below e.path).getD [], e.data)

/-- The paths stand for different files, none of which is a directory of another one. -/
structure Placeable (N : PathNames ν) (entries : List RecoveryBundleEntry) : Prop where
  /-- The file system has a name for each component, and there is a component. -/
  named : ∀ e ∈ entries, ∃ rel, N.below e.path = some rel ∧ rel ≠ []
  apart : (filesOf N entries).Pairwise fun f g ↦ FileTree.Apart f.1 g.1

/-- The loop over the manifest. -/
theorem run_restoreEntries (hfault : ∀ op, call.fault op = .succeeds)
    {sources : List (JsString × JsValue)} (done todo : List RecoveryBundleEntry)
    (hplaceable : Placeable N (done ++ todo))
    (hdata : ∀ e ∈ todo, entryData H sources (manifestEntryOf H e) = .ok e.data)
    (h : FileTree.Holds (call.staging N) (filesOf N done) t t₀) : ∃ t' : FileTree ν Bytes,
      (forEach (restoreEntry H N call sources) (todo.map (manifestEntryOf H))).run t =
        (.ok ⟨⟩, t') ∧ FileTree.Holds (call.staging N) (filesOf N (done ++ todo)) t' t₀ := by
  induction todo generalizing done t with
  | nil => exact ⟨t, rfl, by rwa [List.append_nil]⟩
  | cons e todo ih =>
    have happend : done ++ e :: todo = (done ++ [e]) ++ todo := by
      rw [List.append_assoc, List.singleton_append]
    obtain ⟨rel, hrel, hnil⟩ := hplaceable.named e
      (List.mem_append_right _ List.mem_cons_self)
    have hfiles : filesOf N (done ++ [e]) = filesOf N done ++ [(rel, e.data)] := by
      rw [filesOf, List.map_append, List.map_singleton, hrel]
      rfl
    have hdone : ∀ f ∈ filesOf N done, f.1 ≠ [] ∧ FileTree.Apart f.1 rel := by
      intro f hf
      have hpairs := hplaceable.apart
      rw [happend, filesOf, List.map_append, ← filesOf, hfiles] at hpairs
      refine ⟨?_, (List.pairwise_append.mp (List.pairwise_append.mp hpairs).1).2.2 f hf _
        (List.mem_singleton_self _)⟩
      obtain ⟨e', he', rfl⟩ := List.mem_map.mp hf
      obtain ⟨rel', hrel', hnil'⟩ := hplaceable.named e' (List.mem_append_left _ he')
      rw [hrel']
      exact hnil'
    obtain ⟨t₁, hrun₁, h₁⟩ := h.plant (μ := JsString) (fun f hf ↦ (hdone f hf).1)
      (fun f hf ↦ (hdone f hf).2) hnil (fun _ ↦ .succeeds) (fun _ ↦ rfl) [] e.data
    rw [← hfiles] at h₁
    obtain ⟨t₂, hrun₂, h₂⟩ := ih (done ++ [e]) (happend ▸ hplaceable)
      (fun e' he' ↦ hdata e' (List.mem_cons_of_mem _ he')) h₁
    refine ⟨t₂, ?_, happend ▸ h₂⟩
    have hentry : restoreEntry H N call sources (manifestEntryOf H e) = (do
        FileTree.ensureDirectories (fun _ ↦ .succeeds) (call.staging N ++ rel).dropLast
        FileTree.writeFile .succeeds (call.staging N ++ rel) []
        FileTree.writeFile .succeeds (call.staging N ++ rel) e.data) := by
      have hpath : (manifestEntryOf H e).path = e.path := rfl
      unfold restoreEntry
      rw [hdata e List.mem_cons_self, hpath, hrel]
      simp only [hfault]
      rfl
    rw [List.map_cons, forEach_cons, run_bind, hentry, hrun₁, andThen_ok]
    exact hrun₂

/-- The target is a new name in a directory that is there, and `mkdtemp` finds a free name. -/
structure Fresh (N : PathNames ν) (call : RestoreCall ν) (t : FileTree ν Bytes) : Prop where
  named : call.targetRoot.all isStrWhiteSpace = false
  parent : call.parent N = (call.target N).dropLast
  directory : t.nodes (call.parent N) = some .directory
  target : t.nodes (call.target N) = none
  temporary : t.nodes (call.staging N) = none

/-- **What was created is restored**, where the paths do not get in each other's way. -/
theorem run_restoreRecoveryBundle (hkey : call.key.length = 32)
    (hbundle : call.bundle = encodeBundle H draw normalized call.key)
    (hbundled : Bundled entries normalized) (htrust : RecoveryTrust H draw normalized call.key)
    (hpaths : ∀ e ∈ normalized, validateRecoveryEntryPath e.path = .ok e.path)
    (hplaceable : Placeable N normalized) (hfresh : Fresh N call t₀)
    (hfault : ∀ op, call.fault op = .succeeds) : ∃ t' : FileTree ν Bytes,
      (restoreRecoveryBundle H N call).run t₀ =
        (.ok ⟨manifestOf H draw normalized, normalized.map RecoveryBundleEntry.path⟩, t') ∧
        FileTree.Holds (call.target N) (filesOf N normalized) t' t₀ := by
  have hopen := openRecoveryBundle_encode hbundled htrust hpaths
  rw [← hbundle] at hopen
  have hfiles : ∀ f ∈ filesOf N normalized, f.1 ≠ [] := by
    intro f hf
    obtain ⟨e, he, rfl⟩ := List.mem_map.mp hf
    obtain ⟨rel, hrel, hnil⟩ := hplaceable.named e he
    rw [hrel]
    exact hnil
  have hsibling : (call.staging N).dropLast = call.parent N := List.dropLast_concat
  have htargetParent : t₀.nodes (call.target N).dropLast = some .directory :=
    hfresh.parent ▸ hfresh.directory
  -- the staging directory
  obtain ⟨t₁, hrun₁, hnodes₁⟩ := FileTree.run_makeDirectory (μ := JsString)
    (hsibling ▸ hfresh.directory) hfresh.temporary
  -- the files
  obtain ⟨t₂, hrun₂, h₂⟩ := run_restoreEntries (H := H) (N := N) hfault [] normalized
    hplaceable
    (fun e he ↦ entryData_of_mem hbundled.distinct htrust.base64 he)
    (FileTree.Holds.made hfresh.temporary hnodes₁)
  -- the parent is there already
  have hparent₂ : t₂.nodes (call.parent N) = some .directory := by
    refine FileTree.directory_above (h₂.directory hfiles) ?_
    exact List.prefix_append _ _
  obtain ⟨t₃, hrun₃, h₃⟩ := h₂.rename (μ := JsString) hfiles hfresh.temporary hfresh.target
    htargetParent
  refine ⟨t₃, ?_, h₃⟩
  have hfill : (fillStaging H N call (manifestOf H draw normalized)
      (normalized.map (payloadEntryFields H))).run t₁ =
        (.ok ⟨manifestOf H draw normalized, normalized.map RecoveryBundleEntry.path⟩, t₃) := by
    unfold fillStaging
    rw [mapM_readSource_fields hpaths, checked, run_bind, run_pure, andThen_ok, run_bind]
    change andThen ((forEach _ (normalized.map (manifestEntryOf H))).run t₁) _ = _
    rw [hrun₂, andThen_ok, run_bind,
      FileTree.run_ensureDirectories_of_directory (fun _ ↦ hfault _) hparent₂, andThen_ok, run_bind,
      hfault, hrun₃, andThen_ok, run_pure, manifestOf, List.map_map]
    rfl
  have hkey' : validateRecoveryKey call.key = .ok () := if_pos hkey
  have hfree : (!t₀.isFree (call.target N)) = false := by
    rw [FileTree.isFree_iff.mpr hfresh.target]
    rfl
  unfold restoreRecoveryBundle
  rw [hkey', hfresh.named, hopen]
  simp only [checked]
  rw [run_bind, run_pure, andThen_ok, if_neg (by decide), run_bind, run_pure, andThen_ok,
    run_get_bind, hfree, if_neg (by decide), run_bind, run_pure, andThen_ok, run_bind, run_pure,
    andThen_ok, hfault]
  dsimp only
  rw [run_bind, hrun₁, andThen_ok]
  exact run_rescue_of_ok hfill

/-! ## Any restore -/

variable (H N call) in
/-- Where the files of a manifest may be written. -/
def Placed (manifest : RecoveryManifest) (p : List ν) : Prop :=
  ∃ e ∈ manifest.entries, ∃ rel, N.below e.path = some rel ∧ p = call.staging N ++ rel

omit [DecidableEq ν] in
theorem evolves_checked {α : Type} {R : FileTree ν Bytes → FileTree ν Bytes → Prop}
    (hrefl : ∀ t, R t t) (x : Except JsString α) :
    Evolves R (checked x : RestoreProgram ν α) := by
  rcases x with message | a
  · exact Evolves.throw hrefl _
  · exact Evolves.pure hrefl a

theorem evolves_restoreEntry {manifest : RecoveryManifest} {e : RecoveryManifestEntry}
    (he : e ∈ manifest.entries) (sources : List (JsString × JsValue)) :
    Evolves (FileTree.Keeps (call.staging N) (Placed N call manifest))
      (restoreEntry H N call sources e) := by
  have hrefl := FileTree.Keeps.refl (κ := Bytes) (call.staging N) (Placed N call manifest)
  have htrans := FileTree.Keeps.trans (κ := Bytes) (call.staging N) (Placed N call manifest)
  refine Evolves.bind htrans (evolves_checked hrefl _) fun data ↦ ?_
  rcases hrel : N.below e.path with _ | rel
  · exact Evolves.throw hrefl _
  have hbelow : call.staging N <+: call.staging N ++ rel := List.prefix_append _ _
  have hplaced : Placed N call manifest (call.staging N ++ rel) := ⟨e, he, rel, hrel, rfl⟩
  have hdirectories := FileTree.evolves_ensureDirectories (κ := Bytes) (μ := JsString)
    (Placed N call manifest)
    (fun directory ↦ call.fault (.makeDirectory e.path directory))
    (List.prefix_or_prefix_of_prefix (List.dropLast_prefix _) hbelow)
  exact Evolves.bind htrans hdirectories fun _ ↦
    Evolves.bind htrans (FileTree.evolves_writeFile _ _ hbelow hplaced) fun _ ↦
      FileTree.evolves_writeFile _ _ hbelow hplaced

/-- What filling the staging directory leaves behind. -/
def Filled (N : PathNames ν) (call : RestoreCall ν) (manifest : RecoveryManifest)
    (t₀ : FileTree ν Bytes) :
    Except (Halt (FileError JsString)) RecoveryBundleRestoreResult → FileTree ν Bytes → Prop
  | .ok result, t =>
    result.restoredPaths = manifest.entries.map RecoveryManifestEntry.path ∧
      (∀ p, ¬call.target N <+: p → t.nodes p = t₀.nodes p) ∧
      ∀ rel data, t.nodes (call.target N ++ rel) = some (.file data) →
        ∃ path ∈ result.restoredPaths, N.below path = some rel
  | .error _, t => ∀ p, ¬call.staging N <+: p → t.nodes p = t₀.nodes p

theorem triple_fillStaging (hnew : t₀.nodes (call.staging N) = none)
    (hmade : t.nodes = Function.update t₀.nodes (call.staging N) (some .directory))
    (manifest : RecoveryManifest) (values : List JsValue) :
    Triple (fun s ↦ s = t) (fillStaging H N call manifest values) (Filled N call manifest t₀) := by
  have hrefl := FileTree.Keeps.refl (κ := Bytes) (call.staging N) (Placed N call manifest)
  have htrans := FileTree.Keeps.trans (κ := Bytes) (call.staging N) (Placed N call manifest)
  have hroot : t.nodes (call.staging N) = some .directory := by
    rw [hmade, Function.update_self]
  have houtside : ∀ p, ¬call.staging N <+: p → t.nodes p = t₀.nodes p := fun p hp ↦ by
    rw [hmade, Function.update_of_ne fun (heq : p = call.staging N) ↦ hp (heq ▸ List.prefix_rfl)]
  have hempty : ∀ rel data, t.nodes (call.staging N ++ rel) ≠ some (.file data) := by
    intro rel data h
    rw [(FileTree.Holds.made hnew hmade).inside] at h
    exact absurd ((FileTree.planted_eq_file_iff (by exact List.nodup_nil) rel data).mp h) List.not_mem_nil
  have herror : ∀ (halt : Halt (FileError JsString)) (s : FileTree ν Bytes),
      FileTree.Keeps (call.staging N) (Placed N call manifest) t s →
      Filled N call manifest t₀ (.error halt) s := fun halt s hs p hp ↦
    ((hs hroot).2.1 p hp).trans (houtside p hp)
  -- everything before the renaming stays below the staging directory
  have hchecked := (evolves_checked hrefl (values.mapM readSource)).triple htrans t
  have hloop : ∀ sources, Triple (FileTree.Keeps (call.staging N) (Placed N call manifest) t)
      (forEach (restoreEntry H N call sources) manifest.entries) fun _ ↦
        FileTree.Keeps (call.staging N) (Placed N call manifest) t := fun sources ↦
    (Evolves.forEach hrefl htrans fun e he ↦ evolves_restoreEntry he sources).triple htrans t
  have hparent := (FileTree.evolves_ensureDirectories (κ := Bytes) (μ := JsString)
    (Placed N call manifest) (fun directory ↦ call.fault (.makeParent directory))
    (Or.inl (List.prefix_append (call.parent N) [call.temporary]))).triple htrans t
  suffices h : Triple (FileTree.Keeps (call.staging N) (Placed N call manifest) t)
      (fillStaging H N call manifest values) (Filled N call manifest t₀) from
    h.weaken (fun s hs ↦ hs ▸ hrefl t) fun _ _ h ↦ h
  refine Triple.bind hchecked (fun sources ↦ ?_) herror
  refine Triple.bind (hloop sources) (fun _ ↦ ?_) herror
  refine Triple.bind hparent (fun _ ↦ ?_) herror
  intro s hs
  obtain ⟨hstaging, hsame, hfiles⟩ := hs hroot
  rcases FileTree.run_renameDirectory_cases (μ := JsString) (call.fault .rename) (call.staging N)
    (call.target N) s with ⟨s', hrun, hnodes⟩ | ⟨halt, hrun⟩
  · rw [run_bind, hrun, andThen_ok, run_pure]
    refine ⟨rfl, fun p hp ↦ ?_, fun rel data hdata ↦ ?_⟩
    · rw [hnodes, if_neg hp]
      split_ifs with hle
      · exact (FileTree.none_below hnew hle).symm
      · exact (hsame p hle).trans (houtside p hle)
    · rw [hnodes, if_pos (List.prefix_append _ _), List.drop_left] at hdata
      rcases hfiles _ data hdata with hold | ⟨e, he, rel', hrel', heq⟩
      · exact absurd hold (hempty rel data)
      · rw [List.append_cancel_left heq]
        exact ⟨e.path, List.mem_map.mpr ⟨e, he, rfl⟩, hrel'⟩
  · rw [run_bind, hrun, andThen_error]
    exact herror halt s hs

/-- What a restore leaves behind. -/
def Contained (N : PathNames ν) (call : RestoreCall ν) (t₀ : FileTree ν Bytes) :
    Except (Halt (FileError JsString)) RecoveryBundleRestoreResult → FileTree ν Bytes → Prop
  | .ok result, t =>
    (∀ p, ¬call.target N <+: p → t.nodes p = t₀.nodes p) ∧
      (∀ rel data, t.nodes (call.target N ++ rel) = some (.file data) →
        ∃ path ∈ result.restoredPaths, N.below path = some rel) ∧
      ∀ path ∈ result.restoredPaths, ¬js ".lite-harness/" <+: path
  | .error (.threw _), t => call.fault .removeStaging = .succeeds → t = t₀
  | .error .died, t => ∀ p, ¬call.staging N <+: p → t.nodes p = t₀.nodes p

theorem unreserved_of_readManifestEntry {value : JsValue} {e : RecoveryManifestEntry}
    (h : readManifestEntry value = .ok e) : ¬js ".lite-harness/" <+: e.path := by
  unfold readManifestEntry at h
  split at h
  · exact absurd h nofun
  · obtain ⟨_, hpath, h⟩ := except_bind_eq_ok_iff.mp h
    split at h
    · split_ifs at h
      obtain rfl := Except.ok.inj h
      exact (validateRecoveryEntryPath_eq_ok_iff.mp hpath).2.2.1
    · exact absurd h nofun

/-- The paths of a manifest have been checked. -/
theorem unreserved_of_open {bundle key : Bytes} {manifest : RecoveryManifest}
    {values : List JsValue} (h : openRecoveryBundle H bundle key = .ok (manifest, values)) :
    ∀ e ∈ manifest.entries, ¬js ".lite-harness/" <+: e.path := by
  obtain ⟨⟨header, ciphertext, tag⟩, -, h⟩ := except_bind_eq_ok_iff.mp h
  dsimp only at h
  split at h
  · exact absurd h nofun
  split at h
  · exact absurd h nofun
  unfold validateRecoveryPayload at h
  split at h
  · obtain ⟨_, -, h⟩ := except_bind_eq_ok_iff.mp h
    obtain ⟨_, -, h⟩ := except_bind_eq_ok_iff.mp h
    obtain ⟨read, hread, h⟩ := except_bind_eq_ok_iff.mp h
    obtain ⟨_, -, h⟩ := except_bind_eq_ok_iff.mp h
    obtain ⟨_, -, h⟩ := except_bind_eq_ok_iff.mp h
    have hentries : manifest.entries = read := by
      split at h
      · split_ifs at h
        exact congrArg RecoveryManifest.entries (Prod.mk.inj (Except.ok.inj h)).1.symm
      · exact absurd h nofun
    intro e he
    obtain ⟨value, -, hvalue⟩ := exists_of_mem_mapM hread e (hentries ▸ he)
    exact unreserved_of_readManifestEntry hvalue
  · exact absurd h nofun

omit [DecidableEq ν] in
/-- A check changes nothing. -/
theorem triple_checked {α : Type} (x : Except JsString α) :
    Triple (fun s ↦ s = t₀) (checked x : RestoreProgram ν α) fun r s ↦
      s = t₀ ∧ ∀ a, r = .ok a → x = .ok a := by
  rintro s rfl
  rcases x with message | a
  · exact ⟨rfl, fun _ h ↦ absurd h nofun⟩
  · exact ⟨rfl, fun _ h ↦ congrArg Except.ok (Except.ok.inj h)⟩

/-- The handler removes what there is in the staging directory. -/
theorem triple_cleanup {manifest : RecoveryManifest} (hnew : t₀.nodes (call.staging N) = none)
    (e : FileError JsString) :
    Triple (Filled N call manifest t₀ (.error (.threw e)))
      (do
        FileTree.removeTree (call.fault .removeStaging) (call.staging N)
        throw (.threw e) : RestoreProgram ν RecoveryBundleRestoreResult)
      (Contained N call t₀) := by
  intro s hs
  rcases hfault : call.fault .removeStaging with _ | _ | _
  · have hrun : (FileTree.removeTree .succeeds (call.staging N) : RestoreProgram ν PUnit).run s =
        (.ok ⟨⟩, t₀) := by
      rw [FileTree.removeTree, run_attempt_succeeds, FileTree.prune_eq hnew hs]
    rw [run_bind, hrun, andThen_ok, run_throw]
    exact fun _ ↦ rfl
  · intro h
    rw [hfault] at h
    exact absurd h nofun
  · exact hs

/-- **Any restore stays where it belongs**, whatever bundle it is given and whatever fails. -/
theorem restore_contained (t₀ : FileTree ν Bytes) :
    Contained N call t₀ ((restoreRecoveryBundle H N call).run t₀).1
      ((restoreRecoveryBundle H N call).run t₀).2 := by
  have hunchanged : ∀ halt, Contained N call t₀ (.error halt) t₀ := by
    rintro (_ | error)
    · exact fun _ _ ↦ rfl
    · exact fun _ ↦ rfl
  suffices h : Triple (fun s ↦ s = t₀) (restoreRecoveryBundle H N call) (Contained N call t₀) from
    h t₀ rfl
  have herror : ∀ (halt : Halt (FileError JsString)) (s : FileTree ν Bytes), s = t₀ →
      Contained N call t₀ (.error halt) s := fun halt s hs ↦ hs ▸ hunchanged halt
  unfold restoreRecoveryBundle
  refine Triple.bind (triple_checked _) (fun _ ↦ ?_) fun halt s hs ↦ herror halt s hs.1
  refine Triple.bind (r := fun _ s ↦ s = t₀) (Triple.ite (fun _ ↦ Triple.throw fun _ hs ↦ hs.1)
    fun _ ↦ Triple.pure fun _ hs ↦ hs.1) (fun _ ↦ ?_) herror
  refine Triple.gets fun t ht ↦ ?_
  obtain rfl := ht
  refine Triple.bind (r := fun _ s ↦ s = t) (Triple.ite (fun _ ↦ Triple.throw fun _ hs ↦ hs)
    fun _ ↦ Triple.pure fun _ hs ↦ hs) (fun _ ↦ ?_) herror
  refine Triple.bind (triple_checked _) (fun opened ↦ ?_) fun halt s hs ↦ herror halt s hs.1
  rintro s ⟨rfl, hopened⟩
  obtain ⟨manifest, values⟩ := opened
  have hunreserved := unreserved_of_open (hopened _ rfl)
  rcases FileTree.run_makeDirectory_cases (μ := JsString) (call.fault .makeStaging)
    (call.staging N) s with ⟨t', hrun, hnew, hmade⟩ | ⟨halt, hrun⟩
  · rw [run_bind, hrun, andThen_ok]
    refine Triple.rescue (triple_fillStaging hnew hmade manifest values) ?_ ?_ ?_ t' rfl
    · rintro result t ⟨hpaths, houtside, hfiles⟩
      refine ⟨houtside, hfiles, fun path hpath ↦ ?_⟩
      rw [hpaths] at hpath
      obtain ⟨e, he, rfl⟩ := List.mem_map.mp hpath
      exact hunreserved e he
    · exact triple_cleanup hnew
    · exact fun _ h ↦ h
  · rw [run_bind, hrun, andThen_error]
    exact hunchanged halt

end Restore

/-! ## What is not genuine -/

theorem cutLine_eq_some {bytes line rest : Bytes} (h : cutLine bytes = some (line, rest)) :
    bytes = line ++ 10 :: rest := by
  unfold cutLine at h
  split at h
  · exact absurd h nofun
  · rename_i b tail hdrop
    obtain ⟨rfl, rfl⟩ := Prod.mk.inj (Option.some.inj h)
    have hhead := List.head?_dropWhile_not (· != 10) bytes
    rw [hdrop] at hhead
    have hb : b = 10 := by simpa using hhead
    rw [hb] at hdrop
    rw [← hdrop, List.takeWhile_append_dropWhile]

/-- The parts a bundle is made of. -/
theorem parseRecoveryBundle_eq_ok {header : RecoveryHeader} {ciphertext tag : Bytes}
    (h : parseRecoveryBundle H bundle = .ok (header, ciphertext, tag)) :
    ∃ line, bundle = recoveryMagic ++ (line ++ 10 :: (ciphertext ++ tag)) ∧
      (H.parse line).bind readRecoveryHeader = some header := by
  unfold parseRecoveryBundle at h
  split_ifs at h with hmagic
  split at h
  · exact absurd h nofun
  · rename_i line rest hline
    split at h
    · exact absurd h nofun
    · rename_i raw hraw
      split at h
      · exact absurd h nofun
      · rename_i header' hheader
        split_ifs at h
        obtain ⟨rfl, heq⟩ := Prod.mk.inj (Except.ok.inj h)
        obtain ⟨rfl, rfl⟩ := Prod.mk.inj heq
        refine ⟨line, ?_, by rw [hraw, Option.bind_some, hheader]⟩
        rw [List.take_append_drop, ← cutLine_eq_some hline]
        exact (List.take_append_drop _ bundle).symm.trans
          (congrArg (· ++ bundle.drop recoveryMagic.length) (not_not.mp hmagic))

/-- Of the header, the payload is checked against the id and the digest of the manifest. -/
theorem validateRecoveryPayload_congr {header header' : RecoveryHeader} (payload : JsValue)
    (hid : header.bundleId = header'.bundleId)
    (hsha : header.manifestSha256 = header'.manifestSha256) :
    validateRecoveryPayload H payload header = validateRecoveryPayload H payload header' := by
  unfold validateRecoveryPayload
  rw [hid, hsha]

/-- A payload that was created agrees with the header it is checked against. -/
theorem header_of_validateRecoveryPayload {header : RecoveryHeader}
    {opened : RecoveryManifest × List JsValue}
    (h : validateRecoveryPayload H
      (.object (payloadFields H (bundleIdOf H draw) draw.createdAt normalized)) header =
        .ok opened) :
    header.bundleId = (headerOf H draw normalized).bundleId ∧
      header.manifestSha256 = (headerOf H draw normalized).manifestSha256 := by
  obtain ⟨_, hmanifest, -⟩ := except_bind_eq_ok_iff.mp h
  split_ifs at hmanifest with hheader
  exact ⟨(Option.some.inj hheader.2.1).symm, hheader.2.2.symm⟩

/-- A bundle that has been created. -/
structure CreatedBundle (H : RecoveryHost) where
  draw : RecoveryDraw
  entries : List RecoveryBundleEntry
  key : Bytes
  /-- The entries under their normalized paths, in their order. -/
  normalized : List RecoveryBundleEntry
  bundle : Bytes
  sorted : normalizeEntries H entries = .ok normalized
  created : createRecoveryBundle H draw entries key = .ok bundle

/-- Nothing but what was sealed is decrypted. -/
def Authentic (bundles : List (CreatedBundle H)) : Prop :=
  ∀ key nonce associated ciphertext tag text,
    H.decrypt key nonce associated ciphertext tag = some text → ∃ b ∈ bundles,
      key = b.key ∧ nonce = b.draw.nonce ∧
        associated = recoveryAssociatedData H (headerOf H b.draw b.normalized) ∧
        (ciphertext, tag) = sealBundle H b.draw b.normalized b.key

variable (H) in
/-- Two bundles differ at most in how their headers are spelled. -/
def Respelled (bundle bundle' : Bytes) : Prop :=
  ∃ line line' rest header header',
    bundle = recoveryMagic ++ (line ++ 10 :: rest) ∧
      bundle' = recoveryMagic ++ (line' ++ 10 :: rest) ∧
      (H.parse line).bind readRecoveryHeader = some header ∧
      (H.parse line').bind readRecoveryHeader = some header' ∧
      H.stringify header'.fields = H.stringify header.fields

/-- **Only what was created is opened**, with its key and to what it was created from. -/
theorem open_genuine {bundles : List (CreatedBundle H)}
    (htrust : ∀ b ∈ bundles, RecoveryTrust H b.draw b.normalized b.key)
    (hauthentic : Authentic bundles) {opened : RecoveryManifest × List JsValue}
    (h : openRecoveryBundle H bundle key = .ok opened) : ∃ b ∈ bundles,
      key = b.key ∧ Respelled H b.bundle bundle ∧
        openRecoveryBundle H b.bundle b.key = .ok opened := by
  obtain ⟨⟨header, ciphertext, tag⟩, hparse, hrest⟩ := except_bind_eq_ok_iff.mp h
  obtain ⟨line, hbundle, hline⟩ := parseRecoveryBundle_eq_ok hparse
  dsimp only at hrest
  split at hrest
  · exact absurd hrest nofun
  · rename_i compressed hdecrypt
    obtain ⟨b, hb, rfl, hnonce, hassociated, hsealed⟩ := hauthentic _ _ _ _ _ _ hdecrypt
    have hb' := htrust b hb
    obtain ⟨-, normalized, hnormalized, -, hcreated⟩ := createRecoveryBundle_eq_ok b.created
    obtain rfl : b.normalized = normalized := Except.ok.inj (b.sorted.symm.trans hnormalized)
    refine ⟨b, hb, rfl, ?_, ?_⟩
    · refine ⟨H.stringify (headerOf H b.draw b.normalized).fields, line, ciphertext ++ tag,
        headerOf H b.draw b.normalized, header, ?_, hbundle, ?_, hline,
        List.append_cancel_left hassociated⟩
      · rw [hcreated, encodeBundle, ← hsealed]
      · rw [hb'.parseHeader, Option.bind_some, readRecoveryHeader_fields]
    · -- the same text is decrypted
      rw [hnonce, hassociated] at hdecrypt
      have htext : compressed = sealedPayload H b.draw b.normalized := by
        have hdecrypt' := hb'.decrypt
        rw [← hsealed] at hdecrypt'
        exact Option.some.inj (hdecrypt.symm.trans hdecrypt')
      have hparse' : (H.gunzip compressed).bind H.parse = some
          (.object (payloadFields H (bundleIdOf H b.draw) b.draw.createdAt b.normalized)) := by
        rw [htext, hb'.gunzip, Option.bind_some, hb'.parsePayload]
      rw [hparse'] at hrest
      dsimp only at hrest
      obtain ⟨hid, hsha⟩ := header_of_validateRecoveryPayload hrest
      rw [validateRecoveryPayload_congr _ hid hsha] at hrest
      rw [hcreated, openRecoveryBundle_eq hb', hrest]

/-! ## Recovery -/

section Recovery

variable {ν : Type} [DecidableEq ν]

/-- The paths of the entries, with slashes, do not get in each other's way, and none of them is
below the reserved directory. -/
structure Unobstructed (N : PathNames ν) (entries : List RecoveryBundleEntry) : Prop where
  placeable : Placeable N (entries.map slashed)
  unreserved : ∀ e ∈ entries, ¬js ".lite-harness/" <+: slashes e.path

/-- The target holds exactly one file for each entry, at its normalized path, with its bytes. -/
def RestoredExactly (H : RecoveryHost) (N : PathNames ν) (entries : List RecoveryBundleEntry)
    (call : RestoreCall ν) (t : FileTree ν Bytes) : Prop :=
  ∃ result t', (restoreRecoveryBundle H N call).run t = (.ok result, t') ∧
    (∀ p, ¬call.target N <+: p → t'.nodes p = t.nodes p) ∧
    (∀ rel data, t'.nodes (call.target N ++ rel) = some (.file data) ↔
      ∃ e ∈ entries, N.below (slashes e.path) = some rel ∧ e.data = data) ∧
    result.restoredPaths.Perm (entries.map fun e ↦ slashes e.path)

/-- **What recovery bundles are for.** -/
structure BundleRecovery (N : PathNames ν) (bundles : List (CreatedBundle H)) : Prop where
  /-- A bundle is restored into a fresh target when nothing fails. -/
  restores : ∀ b ∈ bundles, Unobstructed N b.entries → ∀ (call : RestoreCall ν) t,
    call.bundle = b.bundle → call.key = b.key → Fresh N call t →
    (∀ op, call.fault op = .succeeds) → RestoredExactly H N b.entries call t
  /-- Nothing else is restored, but for the spelling of the header. -/
  genuine : ∀ (call : RestoreCall ν) t result t',
    (restoreRecoveryBundle H N call).run t = (.ok result, t') → ∃ b ∈ bundles,
      call.key = b.key ∧ Respelled H b.bundle call.bundle ∧
        openRecoveryBundle H call.bundle call.key = openRecoveryBundle H b.bundle b.key
  /-- No restore changes anything outside its target, and one that fails changes nothing. -/
  contained : ∀ (call : RestoreCall ν) t, Contained N call t
    ((restoreRecoveryBundle H N call).run t).1 ((restoreRecoveryBundle H N call).run t).2

variable {N : PathNames ν}

omit [DecidableEq ν] in
/-- The entries in their order are as far apart as they were given. -/
theorem Placeable.perm (h : Placeable N (entries.map slashed))
    (hperm : normalized.Perm (entries.map slashed)) : Placeable N normalized := by
  refine ⟨fun e he ↦ h.named e (hperm.mem_iff.mp he), ?_⟩
  exact (List.Perm.pairwise_iff (fun h ↦ ⟨h.2, h.1⟩) (hperm.map _)).mpr h.apart

/-- What is restored was opened. -/
theorem open_of_restore {call : RestoreCall ν} {t t' : FileTree ν Bytes}
    {result : RecoveryBundleRestoreResult}
    (h : (restoreRecoveryBundle H N call).run t = (.ok result, t')) :
    ∃ opened, openRecoveryBundle H call.bundle call.key = .ok opened := by
  obtain ⟨_, _, -, h⟩ := bind_eq_ok_iff.mp h
  obtain ⟨_, _, -, h⟩ := bind_eq_ok_iff.mp h
  obtain ⟨_, _, -, h⟩ := bind_eq_ok_iff.mp h
  obtain ⟨_, _, -, h⟩ := bind_eq_ok_iff.mp h
  obtain ⟨opened, _, hopen, -⟩ := bind_eq_ok_iff.mp h
  rcases hx : openRecoveryBundle H call.bundle call.key with message | opened'
  · rw [hx] at hopen
    exact absurd hopen not_throw_eq_ok
  · exact ⟨opened', rfl⟩

end Recovery

/-! ## One bundle -/

/-- The files of the installation below. -/
def oneFile : List RecoveryBundleEntry := [⟨js "a", [1]⟩]

/-- What is drawn for its bundle. -/
def oneDraw : RecoveryDraw := ⟨[2], js "2026-01-01T00:00:00.000Z", List.replicate 12 0⟩

/-- The key of its bundle. -/
def oneBundleKey : Bytes := List.replicate 32 7

/-- The digest of its manifest. -/
def manifestDigest : JsString :=
  js "68c316755dffeed068f5382398d71c00e12d4897b16ea8c8b05365267acd924d"

/-- The header of its bundle. -/
def oneHeader : RecoveryHeader :=
  ⟨secondDigest.take 32, js "2026-01-01T00:00:00.000Z", manifestDigest, js "AAAAAAAAAAAAAAAA"⟩

/-- The host before it is known what it can read. Nothing is compressed or hidden. -/
def plainRecoveryHost : RecoveryHost where
  stringify := headerText
  parse := fun _ ↦ none
  gzip := id
  gunzip := some
  encrypt := fun _ _ _ text ↦ (text, List.replicate 16 0)
  decrypt := fun _ _ _ _ _ ↦ none
  sha256 := fun bytes ↦
    if bytes = [1] then firstDigest else if bytes = [2] then secondDigest else manifestDigest
  toBase64 := fun bytes ↦ if bytes = [1] then js "AQ==" else js "AAAAAAAAAAAAAAAA"
  fromBase64 := fun text ↦ if text = js "AQ==" then [1] else List.replicate 12 0
  dateParses := fun _ ↦ true
  localeLe := fun left right ↦ keyLe left right
  bufferFrom := fun _ ↦ none

/-- The header with a blank that is not written by `JSON.stringify`. -/
def respacedHeader : Bytes := ascii "\x7b " ++ (headerText oneHeader.fields).drop 1

/-- The host, which reads the texts of one bundle and opens what was sealed for it. -/
def oneBundleHost : RecoveryHost :=
  { plainRecoveryHost with
    parse := fun text ↦
      if text = headerText oneHeader.fields ∨ text = respacedHeader then
        some (.object oneHeader.fields)
      else if text = sealedPayload plainRecoveryHost oneDraw oneFile then
        some (.object (payloadFields plainRecoveryHost (bundleIdOf plainRecoveryHost oneDraw)
          oneDraw.createdAt oneFile))
      else none
    decrypt := fun key nonce associated ciphertext tag ↦
      if key = oneBundleKey ∧ nonce = oneDraw.nonce ∧
          associated = recoveryAssociatedData plainRecoveryHost oneHeader ∧
          (ciphertext, tag) = sealBundle plainRecoveryHost oneDraw oneFile oneBundleKey then
        some ciphertext
      else none }

theorem normalizeEntries_oneFile : normalizeEntries oneBundleHost oneFile = .ok oneFile := by
  refine except_bind_eq_ok_iff.mpr ⟨oneFile, rfl, ?_⟩
  rw [oneFile, List.mergeSort_singleton]

/-- The bundle of one file. -/
def oneBundle : CreatedBundle oneBundleHost where
  draw := oneDraw
  entries := oneFile
  key := oneBundleKey
  normalized := oneFile
  bundle := encodeBundle oneBundleHost oneDraw oneFile oneBundleKey
  sorted := normalizeEntries_oneFile
  created := by
    refine except_bind_eq_ok_iff.mpr ⟨(), if_pos (by decide), ?_⟩
    refine except_bind_eq_ok_iff.mpr ⟨(), if_neg (by decide), ?_⟩
    refine except_bind_eq_ok_iff.mpr ⟨oneFile, normalizeEntries_oneFile, ?_⟩
    refine except_bind_eq_ok_iff.mpr ⟨(), if_neg (by decide), ?_⟩
    exact except_bind_eq_ok_iff.mpr ⟨(), if_neg (by decide), rfl⟩

theorem headerOf_oneBundle : headerOf oneBundleHost oneDraw oneFile = oneHeader := by
  decide +kernel

theorem parse_oneBundleHost (text : Bytes) : oneBundleHost.parse text =
    if text = headerText oneHeader.fields ∨ text = respacedHeader then
      some (.object oneHeader.fields)
    else if text = sealedPayload plainRecoveryHost oneDraw oneFile then
      some (.object (payloadFields plainRecoveryHost (bundleIdOf plainRecoveryHost oneDraw)
        oneDraw.createdAt oneFile))
    else none := rfl

theorem decrypt_oneBundleHost (key nonce associated ciphertext tag : Bytes) :
    oneBundleHost.decrypt key nonce associated ciphertext tag =
      if key = oneBundleKey ∧ nonce = oneDraw.nonce ∧
          associated = recoveryAssociatedData plainRecoveryHost oneHeader ∧
          (ciphertext, tag) = sealBundle plainRecoveryHost oneDraw oneFile oneBundleKey then
        some ciphertext
      else none := rfl

theorem trust_oneBundle : RecoveryTrust oneBundleHost oneDraw oneFile oneBundleKey where
  parseHeader := by
    rw [headerOf_oneBundle]
    exact (parse_oneBundleHost _).trans (if_pos (Or.inl rfl))
  line := by
    rw [headerOf_oneBundle]
    decide +kernel
  parsePayload := by
    have hheader : ¬(sealedPayload plainRecoveryHost oneDraw oneFile = headerText oneHeader.fields ∨
        sealedPayload plainRecoveryHost oneDraw oneFile = respacedHeader) := by decide +kernel
    have hparse := parse_oneBundleHost (sealedPayload plainRecoveryHost oneDraw oneFile)
    rw [if_neg hheader, if_pos rfl] at hparse
    exact hparse
  gunzip := rfl
  gzip := by decide +kernel
  decrypt := by
    rw [decrypt_oneBundleHost, headerOf_oneBundle]
    exact if_pos ⟨rfl, rfl, rfl, rfl⟩
  ciphertext := rfl
  tag := rfl
  nonce := by decide +kernel
  nonceBytes := rfl
  base64 := by decide +kernel
  digest := by decide +kernel

theorem authentic_oneBundle : Authentic [oneBundle] := by
  intro key nonce associated ciphertext tag text h
  have hcond : key = oneBundleKey ∧ nonce = oneDraw.nonce ∧
      associated = recoveryAssociatedData plainRecoveryHost oneHeader ∧
      (ciphertext, tag) = sealBundle plainRecoveryHost oneDraw oneFile oneBundleKey := by
    by_contra hnot
    rw [decrypt_oneBundleHost, if_neg hnot] at h
    exact absurd h nofun
  obtain ⟨hkey, hnonce, hassociated, hsealed⟩ := hcond
  refine ⟨oneBundle, List.mem_singleton_self _, hkey, hnonce, ?_, hsealed⟩
  rw [hassociated, ← headerOf_oneBundle]
  rfl

/-- A file system that takes every name. -/
def plainNames : PathNames JsString where
  name := some
  resolve := fun path ↦ (path.splitOnP fun u ↦ u = 47).filter fun part ↦ part ≠ []
  dirname := fun _ ↦ js "/"

/-- A tree that has nothing but its root. -/
def emptyTree : FileTree JsString Bytes where
  nodes := fun p ↦ if p = [] then some .directory else none
  closed := by
    intro p q hpq hne hq
    split_ifs at hq with hnil
    · exact absurd (List.prefix_nil.mp (hnil ▸ hpq)) (hnil ▸ hne)
    · exact absurd rfl hq

/-- A call with the bundle whose header has been given another blank. -/
def respacedCall : RestoreCall JsString where
  bundle := recoveryMagic ++ (respacedHeader ++ 10 ::
    ((sealBundle oneBundleHost oneDraw oneFile oneBundleKey).1 ++
      (sealBundle oneBundleHost oneDraw oneFile oneBundleKey).2))
  key := oneBundleKey
  targetRoot := js "/target"
  temporary := js ".lite-recovery-000000"
  fault := fun _ ↦ .succeeds

/-- A bundle that has been altered in any way is rejected. -/
def RejectsAltered {ν : Type} [DecidableEq ν] (N : PathNames ν)
    (bundles : List (CreatedBundle H)) : Prop :=
  ∀ (call : RestoreCall ν) t result t', (restoreRecoveryBundle H N call).run t = (.ok result, t') →
    ∃ b ∈ bundles, call.bundle = b.bundle

end LiteHarness.Workspace
