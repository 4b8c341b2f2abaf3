import LiteHarness.Domain.Status
import LiteHarness.Foundation.Files
import LiteHarness.Foundation.Noninterference
import LiteHarness.Platform.Crypto

/-!
# The store of browser profiles

`EncryptedBrowserProfileStore` keeps a profile in a file of its own. The name of the file is the
digest of the parts of its identity, each with its length; the key is made from the same parts in
another way. `save` writes a temporary file, moves the current file out of the way and the temporary
file in its place. Between the two renames there is no current file.
-/

namespace LiteHarness.Browser

open Foundation Foundation.Eff

/-! ## Identities -/

/-- The owner without a run, and the identifier of a profile of theirs. -/
structure BrowserProfile where
  appId : JsString
  tenantId : JsString
  userId : JsString
  profileId : JsString
  deriving DecidableEq

/-- A part with its length. -/
def sizedPart (value : JsString) : JsString := decimal (byteLength value) ++ colon :: value

/-- `browserProfileIdentity`. -/
def browserProfileIdentity (p : BrowserProfile) : JsString :=
  List.intercalate [124] ([p.appId, p.tenantId, p.userId, p.profileId].map sizedPart)

/-- What the store takes from the host besides `NodeCrypto`. -/
structure ProfileHost extends NodeCrypto where
  /-- `Buffer.from(text)`. -/
  utf8 : JsString → Bytes
  /-- `bytes.toString("utf8")`. -/
  fromUtf8 : Bytes → JsString
  /-- `createHmac("sha256", key).update(bytes).digest()`. -/
  hmac : Bytes → Bytes → Bytes

variable (H : ProfileHost)

/-- A text that comes back from its bytes. -/
def ProfileHost.Keeps (text : JsString) : Prop := H.fromUtf8 (H.utf8 text) = text

instance (text : JsString) : Decidable (H.Keeps text) := inferInstanceAs (Decidable (_ = _))

/-- `/^[A-Za-z0-9._-]{1,128}$/`. -/
def isProfileId (text : JsString) : Bool :=
  1 ≤ text.length && text.length ≤ 128 && text.all fun u ↦
    65 ≤ u && u ≤ 90 || 97 ≤ u && u ≤ 122 || 48 ≤ u && u ≤ 57 || u = 46 || u = 95 || u = 45

/-- The name of the file of a profile. -/
def profileDigest (p : BrowserProfile) : JsString := H.sha256 (H.utf8 (browserProfileIdentity p))

/-- `#path`, below the root. -/
def profilePath (p : BrowserProfile) : JsString :=
  (profileDigest H p).take 2 ++ 47 :: (profileDigest H p ++ js ".json")

/-- `#key`. -/
def profileKey (masterKey : Bytes) (p : BrowserProfile) : Bytes :=
  H.hmac masterKey (H.utf8 (p.appId ++ 0 :: (p.tenantId ++ 0 :: (p.userId ++ 0 :: p.profileId))))

/-! ## Files -/

/-- The files of a profile, by its digest. -/
inductive ProfileFile where
  | current (digest : JsString)
  /-- `${path}.${process.pid}.tmp`. -/
  | temporary (digest : JsString) (pid : ℕ)
  /-- `${path}.previous`. -/
  | backup (digest : JsString)
  deriving DecidableEq

/-- The files of the store. -/
abbrev Profiles := Files ProfileFile Bytes

/-- A program of the store. -/
abbrev ProfileProgram (α : Type) := Files.Program ProfileFile Bytes JsError α

/-- What is thrown for data beyond the limit. -/
def limitError : JsError := .new (js "Browser profile exceeds storage limit")

/-- What is thrown for an identifier that is none. -/
def idError : JsError := .new (js "Browser profile id is invalid")

/-- The record of a sealed text. -/
def envelopeFields (nonce : Bytes) (r : Bytes × Bytes) : List (JsString × JsValue) :=
  [(js "version", .number (.finite 1)), (js "nonce", .string (H.toBase64 nonce)),
    (js "tag", .string (H.toBase64 r.2)), (js "ciphertext", .string (H.toBase64 r.1))]

/-- The content of a file. -/
def profileEnvelope (key nonce plaintext : Bytes) : Bytes :=
  H.stringify (envelopeFields H nonce (H.encrypt key nonce [] plaintext))

/-- What a file is read as, where that does not throw. -/
def openEnvelope (key encoded : Bytes) : Except JsError Bytes :=
  match H.parse encoded with
  | none => .error (.new (js "Unexpected token"))
  | some envelope =>
    if (envelope.get "version").asCount ≠ some 1 then
      .error (.new (js "Browser profile version is unsupported"))
    else
      match (envelope.get "nonce").asString, (envelope.get "tag").asString,
        (envelope.get "ciphertext").asString with
      | some nonce, some tag, some ciphertext =>
        match H.decrypt key (H.fromBase64 nonce) [] (H.fromBase64 ciphertext)
          (H.fromBase64 tag) with
        | some plaintext => .ok plaintext
        | none => .error (.new (js "Unsupported state or unable to authenticate data"))
      | _, _, _ => .error (.new (js "The first argument must be of type string"))

variable (masterKey : Bytes) (maxBytes : ℕ)

/-- `load`. -/
def load (files : Profiles) (p : BrowserProfile) : Except JsError (Option JsString) :=
  if !isProfileId p.profileId then .error idError
  else
    match files (.current (profileDigest H p)) with
    | none => .ok none
    | some encoded => do
      let plaintext ← openEnvelope H (profileKey H masterKey p) encoded
      if maxBytes < plaintext.length then .error limitError else .ok (some (H.fromUtf8 plaintext))

/-- What becomes of the operations of a `save`, the process it runs in, what it draws, and how much
of the temporary file is written if writing it fails. -/
structure SaveFaults where
  makeDirectory : Outcome := .succeeds
  openTemporary : Outcome := .succeeds
  writeTemporary : Outcome := .succeeds
  removeOld : Outcome := .succeeds
  keepCurrent : Outcome := .succeeds
  replace : Outcome := .succeeds
  putBack : Outcome := .succeeds
  removeBackup : Outcome := .succeeds
  pid : ℕ := 1
  nonce : Bytes := []
  written : ℕ := 0

/-- A `save` leaves the profile without a current file: its process dies between the renames, or the
second one fails and the file is not put back. -/
def SaveFaults.loses (s : SaveFaults) : Bool :=
  s.makeDirectory = .succeeds && s.openTemporary = .succeeds && s.writeTemporary = .succeeds &&
    s.removeOld = .succeeds && s.keepCurrent = .succeeds &&
      (s.replace = .dies || s.replace = .fails && s.putBack ≠ .succeeds)

/-- The data is within the limit, and the identifier is one. -/
def accepts (p : BrowserProfile) (data : JsString) : Bool :=
  (H.utf8 data).length ≤ maxBytes && isProfileId p.profileId

/-- The first rename of `save`: the current file, if there is one, becomes the backup. -/
def keepCurrent (digest : JsString) (s : SaveFaults) : ProfileProgram PUnit :=
  rescue (Files.rename s.keepCurrent (.current digest) (.backup digest)) fun
    | .missing => pure ⟨⟩
    | error => throw (.threw error)

/-- The second rename of `save`, which puts the temporary file in place, or the backup again. -/
def putInPlace (digest : JsString) (s : SaveFaults) : ProfileProgram PUnit :=
  rescue (Files.rename s.replace (.temporary digest s.pid) (.current digest)) fun error ↦ do
    rescue (Files.rename s.putBack (.backup digest) (.current digest)) fun _ ↦ pure ⟨⟩
    throw (.threw error)

/-- The operations of `save`, for a content. -/
def writeProfile (digest : JsString) (content : Bytes) (s : SaveFaults) : ProfileProgram PUnit := do
  Files.pass s.makeDirectory
  Files.write s.openTemporary (.temporary digest s.pid) (content.take s.written)
  Files.write s.writeTemporary (.temporary digest s.pid) content
  Files.remove s.removeOld (.backup digest)
  keepCurrent digest s
  putInPlace digest s
  Files.remove s.removeBackup (.backup digest)

/-- `save`. -/
def save (p : BrowserProfile) (data : JsString) (s : SaveFaults) : ProfileProgram PUnit :=
  if maxBytes < (H.utf8 data).length then throw (.threw (.thrown limitError))
  else if !isProfileId p.profileId then throw (.threw (.thrown idError))
  else
    writeProfile (profileDigest H p)
      (profileEnvelope H (profileKey H masterKey p) s.nonce (H.utf8 data)) s

/-! ## Runs -/

/-- The files, and what is noted of a run: the data of the last `save` of a profile that was
completed, and of those since then that were interrupted. -/
structure ProfileStore where
  files : Profiles := fun _ ↦ none
  completed : BrowserProfile → Option JsString := fun _ ↦ none
  interrupted : BrowserProfile → List JsString := fun _ ↦ []

/-- A call of `save`. -/
structure SaveCall where
  profile : BrowserProfile
  data : JsString
  faults : SaveFaults := {}

namespace ProfileStore

/-- One call. -/
def step (W : ProfileStore) (c : SaveCall) : ProfileStore :=
  match (save H masterKey maxBytes c.profile c.data c.faults).run W.files with
  | (.ok _, files) =>
    { files := files
      completed := Function.update W.completed c.profile (some c.data)
      interrupted := Function.update W.interrupted c.profile [] }
  | (.error (.threw (.thrown _)), files) => { W with files := files }
  | (.error _, files) =>
    { W with
      files := files
      interrupted := Function.update W.interrupted c.profile (c.data :: W.interrupted c.profile) }

/-- A run. -/
def run (W : ProfileStore) (calls : List SaveCall) : ProfileStore :=
  calls.foldl (step H masterKey maxBytes) W

/-! ## The condition -/

variable (W : ProfileStore)

/-- **The condition on a call**: the identity and the data come back from their bytes, and no
current file is lost. -/
def Orderly (c : SaveCall) : Prop :=
  accepts H maxBytes c.profile c.data = true →
    H.Keeps (browserProfileIdentity c.profile) ∧ H.Keeps c.data ∧
      (c.faults.loses = true → W.files (.current (profileDigest H c.profile)) = none)

instance (c : SaveCall) : Decidable (W.Orderly H maxBytes c) :=
  inferInstanceAs (Decidable (_ → _ ∧ _ ∧ (_ → _ = _)))

/-! ## What is claimed of a run -/

/-- Data that `load` may return. -/
def Current (p : BrowserProfile) (data : JsString) : Prop :=
  W.completed p = some data ∨ data ∈ W.interrupted p

/-- **What the store is for**: a profile is what its last completed `save`, or an interrupted one
since then, made of it; there is one once a `save` was completed; no `save` changes another profile;
and profiles have files of their own. -/
structure Safe : Prop where
  loads : ∀ p, isProfileId p.profileId = true → H.Keeps (browserProfileIdentity p) →
    (load H masterKey maxBytes W.files p = .ok none ∧ W.completed p = none) ∨
      ∃ data, load H masterKey maxBytes W.files p = .ok (some data) ∧ W.Current p data
  others : ∀ c, W.Orderly H maxBytes c → ∀ q, q ≠ c.profile → H.Keeps (browserProfileIdentity q) →
    load H masterKey maxBytes (step H masterKey maxBytes W c).files q =
      load H masterKey maxBytes W.files q
  apart : ∀ p q, H.Keeps (browserProfileIdentity p) → H.Keeps (browserProfileIdentity q) →
    profilePath H p = profilePath H q → p = q

end ProfileStore

end LiteHarness.Browser
