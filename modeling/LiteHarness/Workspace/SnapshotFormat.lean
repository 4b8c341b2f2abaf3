import LiteHarness.Platform.Crypto

/-!
# The format of a snapshot

A snapshot file is a magic line, a header as one line of JSON, the encrypted and compressed archive,
and the tag. The header is the associated data of the encryption. `readSnapshot` checks whatever a
file may hold; `encodeSnapshot` is what `create` writes, and `readSnapshot_encode` says when it can
be read again.
-/

namespace LiteHarness.Workspace

/-! ## Headers -/

/-- `keyScope`. -/
inductive KeyScope where
  | static
  | workspaceDerived
  deriving DecidableEq

/-- The scope as it is written. -/
def KeyScope.name : KeyScope → JsString
  | static => js "static"
  | workspaceDerived => js "workspace-derived"

/-- `SnapshotHeader`, after `normalizeSnapshotHeader`. `schemaVersion` and `algorithm` are fixed,
and so is `keyVersion` where it is present. -/
structure SnapshotHeader where
  workspaceId : JsString
  createdAt : JsString
  plaintextBytes : ℕ
  sha256 : JsString
  nonce : JsString
  keyVersion : Bool
  keyScope : Option KeyScope
  deriving DecidableEq

/-- The record that is written. -/
def SnapshotHeader.fields (h : SnapshotHeader) : List (JsString × JsValue) :=
  [(js "schemaVersion", .number (.finite 2)), (js "workspaceId", .string h.workspaceId),
    (js "createdAt", .string h.createdAt),
    (js "plaintextBytes", .number (.finite (h.plaintextBytes : ℚ))),
    (js "sha256", .string h.sha256), (js "nonce", .string h.nonce),
    (js "algorithm", .string (js "aes-256-gcm+gzip"))] ++
  (if h.keyVersion then [(js "keyVersion", .number (.finite 1))] else []) ++
  (h.keyScope.toList.map fun scope ↦ (js "keyScope", .string scope.name))

/-- `/^[a-f0-9]{64}$/`. -/
def isDigest (s : JsString) : Bool :=
  s.length = 64 ∧ ∀ u ∈ s, (48 ≤ u.toNat ∧ u.toNat ≤ 57) ∨ (97 ≤ u.toNat ∧ u.toNat ≤ 102)

/-- `keyVersion`: absent, or `1`. -/
def readKeyVersion : JsValue → Option Bool
  | .undefined => some false
  | .number n => if n.rat? = some 1 then some true else none
  | _ => none

/-- `keyScope`: absent, or one of the two. -/
def readKeyScope : JsValue → Option (Option KeyScope)
  | .undefined => some none
  | .string s =>
    if s = KeyScope.static.name then some (some .static)
    else if s = KeyScope.workspaceDerived.name then some (some .workspaceDerived)
    else none
  | _ => none

/-- Where the key of a file comes from: `keys`, its `metadata()`, and `legacyKeys`. -/
structure SnapshotKeys where
  getKey : JsString → Bytes
  metadata : Option KeyScope
  legacy : Option (JsString → Bytes)

/-- The part of the store that does not change. -/
structure SnapshotOptions where
  keys : SnapshotKeys
  maxArchiveBytes : ℕ := 512 * 1024 * 1024

/-- `SNAPSHOT_MAGIC`. -/
def snapshotMagic : Bytes := ascii "LHS2" ++ [10]

/-- `SNAPSHOT_TAG_BYTES`. -/
def snapshotTagBytes : ℕ := 16

/-- `SNAPSHOT_HEADER_BYTES`. -/
def snapshotHeaderBytes : ℕ := 16 * 1024

variable (C : NodeCrypto) (O : SnapshotOptions)

/-- `validateSnapshotHeader`. -/
def validateSnapshotHeader (value : JsValue) : Option SnapshotHeader := do
  let workspaceId ← (value.get "workspaceId").asString
  let createdAt ← (value.get "createdAt").asString
  let plaintextBytes ← (value.get "plaintextBytes").asCount
  let sha256 ← (value.get "sha256").asString
  let nonce ← (value.get "nonce").asString
  let algorithm ← (value.get "algorithm").asString
  let keyVersion ← readKeyVersion (value.get "keyVersion")
  let keyScope ← readKeyScope (value.get "keyScope")
  if (value.get "schemaVersion").asCount = some 2 ∧ workspaceId ≠ [] ∧ C.dateParses createdAt ∧
      plaintextBytes ≤ O.maxArchiveBytes ∧ isDigest sha256 ∧ (C.fromBase64 nonce).length = 12 ∧
      algorithm = js "aes-256-gcm+gzip" then
    some ⟨workspaceId, createdAt, plaintextBytes, sha256, nonce, keyVersion, keyScope⟩
  else none

/-! ## Writing -/

/-- `snapshotAssociatedData`. -/
def snapshotAssociatedData (h : SnapshotHeader) : Bytes :=
  snapshotMagic ++ C.stringify h.fields ++ [10]

/-- The file `createStreamingSnapshotPipeline` writes. -/
def encodeSnapshot (key nonce : Bytes) (h : SnapshotHeader) (archive : Bytes) : Bytes :=
  let associated := snapshotAssociatedData C h
  let r := C.encrypt key nonce associated (C.gzip archive)
  associated ++ r.1 ++ r.2

/-! ## Reading -/

/-- The bytes up to the first line feed, and what follows it. -/
def cutLine (bytes : Bytes) : Option (Bytes × Bytes) :=
  match bytes.dropWhile (· != 10) with
  | [] => none
  | _ :: rest => some (bytes.takeWhile (· != 10), rest)

/-- `#keyForHeader`. -/
def keyForHeader (workspaceId : JsString) (h : SnapshotHeader) : Bytes :=
  if h.keyScope = some .workspaceDerived then O.keys.getKey workspaceId
  else
    match O.keys.legacy with
    | some legacy => legacy workspaceId
    | none => O.keys.getKey workspaceId

/-- `readSnapshotDescriptor`: the header, the ciphertext and the tag of a file. -/
def readSnapshotDescriptor (file : Bytes) : Option (SnapshotHeader × Bytes × Bytes) := do
  if O.maxArchiveBytes + 1024 * 1024 < file.length ∨
      file.length < snapshotMagic.length + snapshotTagBytes + 3 then none
  let first ← cutLine (file.take snapshotHeaderBytes)
  let second ← cutLine first.2
  if first.1 ++ [10] ≠ snapshotMagic then none
  let h ← validateSnapshotHeader C O (← C.parse second.1)
  let ciphertextStart := first.1.length + 1 + second.1.length + 1
  let tagStart := file.length - snapshotTagBytes
  if tagStart ≤ ciphertextStart then none
  some (h, (file.take tagStart).drop ciphertextStart, file.drop tagStart)

/-- `#read` of a file that could be opened: the archive, where nothing is wrong with the file. -/
def readSnapshot (workspaceId : JsString) (file : Bytes) : Option Bytes := do
  let (h, ciphertext, tag) ← readSnapshotDescriptor C O file
  if h.workspaceId ≠ workspaceId then none
  let compressed ← C.decrypt (keyForHeader O workspaceId h) (C.fromBase64 h.nonce)
    (snapshotAssociatedData C h) ciphertext tag
  let archive ← C.gunzip compressed
  if archive.length = h.plaintextBytes ∧ archive.length ≤ O.maxArchiveBytes ∧
      C.sha256 archive = h.sha256 then some archive else none

/-! ## What is written can be read -/

/-- What the host is relied on for, for one snapshot. -/
structure SnapshotHost (key nonce : Bytes) (h : SnapshotHeader) (archive : Bytes) : Prop where
  /-- `JSON.parse` reads what `JSON.stringify` wrote, which has no line feed. -/
  parse : C.parse (C.stringify h.fields) = some (.object h.fields)
  line : 10 ∉ C.stringify h.fields
  text : 2 ≤ (C.stringify h.fields).length
  /-- Decompression undoes compression. -/
  gunzip : C.gunzip (C.gzip archive) = some archive
  gzip : C.gzip archive ≠ []
  /-- Decryption undoes encryption; the ciphertext is as long as the text, and the tag has 16
  bytes. -/
  decrypt : C.decrypt key nonce (snapshotAssociatedData C h)
      (C.encrypt key nonce (snapshotAssociatedData C h) (C.gzip archive)).1
      (C.encrypt key nonce (snapshotAssociatedData C h) (C.gzip archive)).2 =
    some (C.gzip archive)
  ciphertext : (C.encrypt key nonce (snapshotAssociatedData C h) (C.gzip archive)).1.length =
    (C.gzip archive).length
  tag : (C.encrypt key nonce (snapshotAssociatedData C h) (C.gzip archive)).2.length =
    snapshotTagBytes
  /-- The header of a new snapshot: its date, its nonce and its digest. -/
  date : C.dateParses h.createdAt = true
  nonceText : C.fromBase64 h.nonce = nonce
  nonceBytes : nonce.length = 12
  /-- The length of a buffer is a safe integer. -/
  buffer : archive.length ≤ 2 ^ 53 - 1
  digest : isDigest h.sha256 = true

/-- What the reader requires of a snapshot, whatever the host does. -/
structure SnapshotFits (workspaceId : JsString) (key nonce : Bytes) (h : SnapshotHeader)
    (archive : Bytes) : Prop where
  named : workspaceId ≠ []
  /-- The key of the writer is the one the reader takes. -/
  keyed : keyForHeader O workspaceId h = key
  /-- The header is found in the prefix that is searched for it. -/
  header : (snapshotAssociatedData C h).length ≤ snapshotHeaderBytes
  /-- The encoded size is accepted. -/
  size : (encodeSnapshot C key nonce h archive).length ≤ O.maxArchiveBytes + 1024 * 1024

section Fields

variable (h : SnapshotHeader)

theorem get_workspaceId : (JsValue.object h.fields).get "workspaceId" = .string h.workspaceId := rfl

theorem get_createdAt : (JsValue.object h.fields).get "createdAt" = .string h.createdAt := rfl

theorem get_plaintextBytes : (JsValue.object h.fields).get "plaintextBytes" =
    .number (.finite (h.plaintextBytes : ℚ)) := rfl

theorem get_sha256 : (JsValue.object h.fields).get "sha256" = .string h.sha256 := rfl

theorem get_nonce : (JsValue.object h.fields).get "nonce" = .string h.nonce := rfl

theorem get_keyVersion :
    readKeyVersion ((JsValue.object h.fields).get "keyVersion") = some h.keyVersion := by
  rcases h with ⟨_, _, _, _, _, keyVersion, keyScope⟩
  cases keyVersion with
  | false =>
    rcases keyScope with _ | scope
    · rfl
    · cases scope <;> rfl
  | true => rfl

theorem get_keyScope : readKeyScope ((JsValue.object h.fields).get "keyScope") = some h.keyScope := by
  rcases h with ⟨_, _, _, _, _, keyVersion, keyScope⟩
  rcases keyScope with _ | scope
  · cases keyVersion <;> rfl
  · cases keyVersion <;> cases scope <;> rfl

end Fields

variable {C O} {workspaceId : JsString} {key nonce archive : Bytes} {h : SnapshotHeader}

/-- A header that `create` makes passes the checks of the reader. -/
theorem validateSnapshotHeader_fields (hhost : SnapshotHost C key nonce h archive)
    (hworkspace : h.workspaceId ≠ []) (hbytes : h.plaintextBytes ≤ O.maxArchiveBytes)
    (hsafe : h.plaintextBytes ≤ 2 ^ 53 - 1) :
    validateSnapshotHeader C O (.object h.fields) = some h := by
  unfold validateSnapshotHeader
  rw [get_workspaceId, get_createdAt, get_plaintextBytes, get_sha256, get_nonce, get_keyVersion,
    get_keyScope, JsValue.asCount_count hsafe]
  have hnonce : (C.fromBase64 h.nonce).length = 12 := hhost.nonceText ▸ hhost.nonceBytes
  have hversion : ((JsValue.object h.fields).get "schemaVersion").asCount = some 2 :=
    JsValue.asCount_count (n := 2) (by decide)
  have halgorithm : ((JsValue.object h.fields).get "algorithm").asString =
      some (js "aes-256-gcm+gzip") := rfl
  rw [halgorithm]
  exact if_pos ⟨hversion, hworkspace, hhost.date, hbytes, hhost.digest, hnonce, rfl⟩

/-- A line, and what follows it. -/
theorem cutLine_append {line rest : Bytes} (hline : 10 ∉ line) :
    cutLine (line ++ 10 :: rest) = some (line, rest) := by
  have hall : ∀ b ∈ line, (b != 10) = true := fun b hb ↦
    bne_iff_ne.mpr fun heq ↦ hline (heq ▸ hb)
  unfold cutLine
  rw [List.dropWhile_append_of_pos hall, List.takeWhile_append_of_pos hall]
  simp

/-- The parts of an encoded snapshot are found where they are. -/
theorem readSnapshotDescriptor_encode (hhost : SnapshotHost C key nonce h archive)
    (hfits : SnapshotFits C O workspaceId key nonce h archive) (hworkspace : h.workspaceId ≠ [])
    (hbytes : h.plaintextBytes ≤ O.maxArchiveBytes) (hsafe : h.plaintextBytes ≤ 2 ^ 53 - 1) :
    readSnapshotDescriptor C O (encodeSnapshot C key nonce h archive) =
      some (h, C.encrypt key nonce (snapshotAssociatedData C h) (C.gzip archive)) := by
  have hsize := hfits.size
  have hheader := hfits.header
  have hciphertext := hhost.ciphertext
  have htag := hhost.tag
  have htext := hhost.text
  have hgzip : 0 < (C.gzip archive).length := List.length_pos_of_ne_nil hhost.gzip
  unfold encodeSnapshot at hsize ⊢
  dsimp only at hsize ⊢
  rcases hsealed : C.encrypt key nonce (snapshotAssociatedData C h) (C.gzip archive) with
    ⟨ciphertext, tag⟩
  rw [hsealed] at hsize hciphertext htag
  dsimp only at hsize hciphertext htag ⊢
  have hlength : (snapshotAssociatedData C h).length = (C.stringify h.fields).length + 6 := by
    rw [snapshotAssociatedData, List.length_append, List.length_append]
    have hmagic : snapshotMagic.length = 5 := rfl
    rw [hmagic, List.length_singleton]
    omega
  have hparts : snapshotAssociatedData C h =
      ascii "LHS2" ++ 10 :: (C.stringify h.fields ++ [10]) := by
    rw [snapshotAssociatedData, snapshotMagic, List.append_assoc, List.append_assoc]
    rfl
  obtain ⟨more, hmore⟩ : ∃ more, (snapshotAssociatedData C h ++ ciphertext ++ tag).take
      snapshotHeaderBytes = ascii "LHS2" ++ 10 :: (C.stringify h.fields ++ 10 :: more) := by
    refine ⟨(ciphertext ++ tag).take (snapshotHeaderBytes - (snapshotAssociatedData C h).length), ?_⟩
    rw [List.append_assoc, List.take_append, List.take_of_length_le hheader]
    rw [hparts, List.append_assoc, List.cons_append, List.append_assoc, List.singleton_append]
  have hfirst : cutLine ((snapshotAssociatedData C h ++ ciphertext ++ tag).take
      snapshotHeaderBytes) = some (ascii "LHS2", C.stringify h.fields ++ 10 :: more) := by
    rw [hmore]
    exact cutLine_append (by decide)
  have hmagic : snapshotMagic.length = 5 := rfl
  have htagBytes : snapshotTagBytes = 16 := rfl
  have hfile : (snapshotAssociatedData C h ++ ciphertext ++ tag).length =
      (C.stringify h.fields).length + 6 + ciphertext.length + 16 := by
    rw [List.length_append, List.length_append, hlength, htag, htagBytes]
  rw [hfile] at hsize
  unfold readSnapshotDescriptor
  rw [hfirst, hfile, if_neg (by omega)]
  dsimp only [Option.bind_eq_bind, Option.bind_some, Option.pure_def]
  rw [cutLine_append hhost.line]
  dsimp only [Option.bind_eq_bind, Option.bind_some, Option.pure_def]
  rw [if_neg (fun hne ↦ hne rfl), hhost.parse]
  dsimp only [Option.bind_eq_bind, Option.bind_some, Option.pure_def]
  rw [validateSnapshotHeader_fields hhost hworkspace hbytes hsafe]
  dsimp only [Option.bind_eq_bind, Option.bind_some, Option.pure_def]
  have hascii : (ascii "LHS2").length = 4 := rfl
  have hstart : (ascii "LHS2").length + 1 + (C.stringify h.fields).length + 1 =
      (snapshotAssociatedData C h).length := by
    rw [hlength, hascii]
    omega
  have hend : (C.stringify h.fields).length + 6 + ciphertext.length + 16 - snapshotTagBytes =
      (snapshotAssociatedData C h ++ ciphertext).length := by
    rw [List.length_append, hlength, htagBytes]
    omega
  rw [hstart, hend, if_neg, List.take_left, List.drop_left, List.drop_left]
  rw [List.length_append]
  omega

/-- **What is written can be read.** -/
theorem readSnapshot_encode (hhost : SnapshotHost C key nonce h archive)
    (hfits : SnapshotFits C O h.workspaceId key nonce h archive)
    (hbytes : h.plaintextBytes = archive.length) (hsha : h.sha256 = C.sha256 archive)
    (hlimit : archive.length ≤ O.maxArchiveBytes) :
    readSnapshot C O h.workspaceId (encodeSnapshot C key nonce h archive) = some archive := by
  unfold readSnapshot
  rw [readSnapshotDescriptor_encode hhost hfits hfits.named (hbytes ▸ hlimit)
    (hbytes ▸ hhost.buffer)]
  dsimp only [Option.bind_eq_bind, Option.bind_some, Option.pure_def]
  rw [if_neg (fun hne ↦ hne rfl), hfits.keyed, hhost.nonceText, hhost.decrypt]
  dsimp only [Option.bind_eq_bind, Option.bind_some, Option.pure_def]
  rw [hhost.gunzip]
  exact if_pos ⟨hbytes.symm, hlimit, hsha.symm⟩

end LiteHarness.Workspace
