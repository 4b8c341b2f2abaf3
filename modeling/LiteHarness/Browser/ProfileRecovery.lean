import LiteHarness.Browser.Profiles
import LiteHarness.Foundation.SelfDelimiting
import LiteHarness.Foundation.Suspension
import LiteHarness.Platform.Runtime
import LiteHarness.Storage.EventText

/-!
# Profiles are what was saved

A part of an identity can be read off its front, by the number of its bytes
(`sizedPart_append_inj`), so different profiles have different identities, and files of their own.
An interrupted `save` leaves the current file as it was, or as the new one; only between the renames
there is none (`writeProfile_leaves`).
-/

namespace LiteHarness.Browser

open Foundation Foundation.Eff

variable {H : ProfileHost}

/-! ## Identities -/

/-- A text of a given number of bytes is read off in one way only. -/
theorem append_inj_of_byteLength {a b s t : JsString} (hlength : byteLength a = byteLength b)
    (h : a ++ s = b ++ t) : a = b ∧ s = t := by
  rcases List.append_eq_append_iff.mp h with ⟨x, rfl, rfl⟩ | ⟨x, rfl, rfl⟩
  · by_cases hx : x = []
    · rw [hx, List.append_nil]
      exact ⟨rfl, rfl⟩
    · exact absurd hlength (byteLength_lt_append a hx).ne
  · by_cases hx : x = []
    · rw [hx, List.append_nil]
      exact ⟨rfl, rfl⟩
    · exact absurd hlength (byteLength_lt_append b hx).ne'

theorem sizedPart_append_inj {a b s t : JsString} (h : sizedPart a ++ s = sizedPart b ++ t) :
    a = b ∧ s = t := by
  rw [sizedPart, sizedPart, List.append_assoc, List.append_assoc] at h
  obtain ⟨hdecimal, hrest⟩ := append_eq_append_of_free (D := (· = colon)) (s := colon :: (a ++ s))
    (t := colon :: (b ++ t)) (fun _ hu ↦ ne_colon_of_mem_decimal hu)
    (fun _ hu ↦ ne_colon_of_mem_decimal hu) rfl rfl h
  exact append_inj_of_byteLength (decimal_injective hdecimal) (List.cons.inj hrest).2

/-- **Different profiles have different identities.** -/
theorem browserProfileIdentity_injective : Function.Injective browserProfileIdentity := by
  rintro ⟨a, t, u, p⟩ ⟨a', t', u', p'⟩ h
  have hparts : ∀ a t u p : JsString, browserProfileIdentity ⟨a, t, u, p⟩ =
      sizedPart a ++ 124 :: (sizedPart t ++ 124 ::
        (sizedPart u ++ 124 :: (sizedPart p ++ []))) := by
    intro a t u p
    simp [browserProfileIdentity, List.intercalate]
  rw [hparts, hparts] at h
  obtain ⟨happ, htenants⟩ := sizedPart_append_inj h
  obtain ⟨htenant, husers⟩ := sizedPart_append_inj (List.cons.inj htenants).2
  obtain ⟨huser, hprofiles⟩ := sizedPart_append_inj (List.cons.inj husers).2
  obtain ⟨hprofile, -⟩ := sizedPart_append_inj (List.cons.inj hprofiles).2
  rw [happ, htenant, huser, hprofile]

/-- Profiles whose identities come back from their bytes have digests of their own. -/
theorem profileDigest_inj (hsha : Function.Injective H.sha256) {p q : BrowserProfile}
    (hp : H.Keeps (browserProfileIdentity p)) (hq : H.Keeps (browserProfileIdentity q))
    (h : profileDigest H p = profileDigest H q) : p = q := by
  have hbytes := hsha h
  refine browserProfileIdentity_injective ?_
  rw [← show H.fromUtf8 _ = _ from hp, hbytes]
  exact hq

/-- A path tells its digest. -/
theorem profilePath_inj {p q : BrowserProfile} (h : profilePath H p = profilePath H q) :
    profileDigest H p = profileDigest H q := by
  rw [profilePath, profilePath] at h
  generalize profileDigest H p = a at h ⊢
  generalize profileDigest H q = b at h ⊢
  have hlength := congrArg List.length h
  simp only [List.length_append, List.length_cons, List.length_take] at hlength
  have hsame : (a.take 2).length = (b.take 2).length := by
    rw [List.length_take, List.length_take]
    omega
  obtain ⟨-, hrest⟩ := List.append_inj h hsame
  exact (List.append_inj' (List.cons.inj hrest).2 rfl).1

/-! ## One `save` -/

section Leaves

variable {digest : JsString} {content : Bytes} {s : SaveFaults} {lost : Prop} {d d₀ : Profiles}

/-- **What a `save` leaves**: the other profiles as they were, and of this one the new file, or the
one it had, or none. -/
structure Leaves (digest : JsString) (content : Bytes) (lost : Prop) (d₀ : Profiles)
    (r : Except (Halt (FileError JsError)) PUnit × Profiles) : Prop where
  others : ∀ other, other ≠ digest → r.2 (.current other) = d₀ (.current other)
  done : ∀ u, r.1 = .ok u → r.2 (.current digest) = some content
  stopped : ∀ halt, r.1 = .error halt → (∀ message, halt ≠ .threw (.thrown message)) ∧
    (r.2 (.current digest) = d₀ (.current digest) ∨ r.2 (.current digest) = some content ∨
      lost ∧ r.2 (.current digest) = none)

/-- A `save` that stops leaves what it has reached. -/
theorem Leaves.of_stops {r : Except (Halt (FileError JsError)) PUnit × Profiles}
    (hstops : Files.Stops r d)
    (hothers : ∀ other, other ≠ digest → d (.current other) = d₀ (.current other))
    (hown : d (.current digest) = d₀ (.current digest) ∨ d (.current digest) = some content ∨
      lost ∧ d (.current digest) = none) : Leaves digest content lost d₀ r := by
  obtain ⟨halt, rfl, hmessage⟩ := hstops
  refine ⟨hothers, nofun, fun halt' h ↦ ?_⟩
  obtain rfl := Except.error.inj h
  exact ⟨hmessage, hown⟩

/-- A file that becomes the current one of a profile leaves those of the others alone. -/
theorem current_of_moved {name : ProfileFile} {other : JsString} {v : Option Bytes}
    (hname : ∀ x, name ≠ .current x) (hother : other ≠ digest) :
    Function.update (Function.update d name none) (.current digest) v (.current other) =
      d (.current other) := by
  rw [Function.update_of_ne (by simpa using hother), Function.update_of_ne (hname other).symm]

/-- The second rename, where the current file is out of the way, in the backup. -/
theorem leaves_putInPlace (htemporary : d (.temporary digest s.pid) = some content)
    (hcurrent : d (.current digest) = none)
    (hbackup : d (.backup digest) = d₀ (.current digest))
    (hothers : ∀ other, other ≠ digest → d (.current other) = d₀ (.current other)) :
    Leaves digest content (s.replace = .dies ∨ s.replace = .fails ∧ s.putBack ≠ .succeeds) d₀
      ((putInPlace digest s).run d) := by
  rcases hreplace : s.replace with _ | _ | _
  · -- the temporary file is the new one
    have hrun : (putInPlace digest s).run d = (.ok ⟨⟩, Function.update
        (Function.update d (.temporary digest s.pid) none) (.current digest) (some content)) := by
      rw [putInPlace, hreplace]
      exact run_rescue_of_ok (Files.run_rename_of_some _ _ _ _ htemporary)
    rw [hrun]
    refine ⟨fun other hother ↦ ?_, fun _ _ ↦ Function.update_self .., nofun⟩
    rw [← hothers other hother]
    exact current_of_moved nofun hother
  · have hrun : (putInPlace digest s).run d = (do
        rescue (Files.rename s.putBack (.backup digest) (.current digest)) fun _ ↦ pure ⟨⟩
        throw (.threw .failed) : ProfileProgram PUnit).run d := by
      rw [putInPlace, hreplace]
      exact run_rescue_of_threw rfl
    rw [hrun, run_bind]
    rcases hputBack : s.putBack with _ | _ | _
    · rcases hkept : d (.backup digest) with _ | old
      · -- there was no current file
        rw [run_rescue_of_threw (Files.run_rename_of_none _ _ _ hkept), run_pure, andThen_ok]
        refine Leaves.of_stops (Files.stops_of_fails d) hothers (Or.inl ?_)
        rw [hcurrent, ← hbackup, hkept]
      · rw [run_rescue_of_ok (Files.run_rename_of_some _ _ _ _ hkept), andThen_ok]
        refine Leaves.of_stops (Files.stops_of_fails _) (fun other hother ↦ ?_) (Or.inl ?_)
        · rw [← hothers other hother]
          exact current_of_moved nofun hother
        · rw [← hbackup, hkept]
          exact Function.update_self ..
    · exact Leaves.of_stops (Files.stops_of_fails d) hothers
        (Or.inr (Or.inr ⟨Or.inr ⟨rfl, nofun⟩, hcurrent⟩))
    · exact Leaves.of_stops (Files.stops_of_dies d) hothers
        (Or.inr (Or.inr ⟨Or.inr ⟨rfl, nofun⟩, hcurrent⟩))
  · have hrun : (putInPlace digest s).run d = (.error .died, d) := by
      rw [putInPlace, hreplace]
      rfl
    rw [hrun]
    exact Leaves.of_stops (Files.stops_of_dies d) hothers (Or.inr (Or.inr ⟨Or.inl rfl, hcurrent⟩))

/-- The first rename: it stops, or the current file is out of the way. -/
theorem run_keepCurrent (hbackup : d (.backup digest) = none) :
    Files.Stops ((keepCurrent digest s).run d) d ∨ s.keepCurrent = .succeeds ∧
      (keepCurrent digest s).run d = (.ok ⟨⟩, Function.update (Function.update d (.current digest)
        none) (.backup digest) (d (.current digest))) := by
  rcases hkeep : s.keepCurrent with _ | _ | _
  · refine Or.inr ⟨rfl, ?_⟩
    rw [keepCurrent, hkeep]
    rcases hcurrent : d (.current digest) with _ | old
    · rw [run_rescue_of_threw (Files.run_rename_of_none _ _ _ hcurrent), run_pure]
      have hsame : Function.update d (.current digest) none = d :=
        Function.update_eq_self_iff.mpr hcurrent.symm
      rw [hsame, Function.update_eq_self_iff.mpr hbackup.symm]
    · exact run_rescue_of_ok (Files.run_rename_of_some _ _ _ _ hcurrent)
  · left
    rw [keepCurrent, hkeep]
    exact Files.stops_of_fails d
  · left
    rw [keepCurrent, hkeep]
    exact Files.stops_of_dies d

theorem writeProfile_leaves (digest : JsString) (content : Bytes) (s : SaveFaults) (d₀ : Profiles) :
    Leaves digest content (s.loses = true) d₀ ((writeProfile digest content s).run d₀) := by
  -- up to the renames, the current files are those there were
  have hbefore : ∀ {r d}, Files.Stops r d → (∀ x, d (.current x) = d₀ (.current x)) →
      Leaves digest content (s.loses = true) d₀ r :=
    fun hstops hsame ↦ Leaves.of_stops hstops (fun x _ ↦ hsame x) (Or.inl (hsame digest))
  rw [writeProfile]
  rcases (Files.run_pass_cases s.makeDirectory d₀).symm with hstops | ⟨hmade, hrun⟩
  · exact hbefore hstops.bind fun _ ↦ rfl
  rw [run_bind_of_ok hrun]
  rcases (Files.run_write_cases s.openTemporary (.temporary digest s.pid)
    (content.take s.written) d₀).symm with hstops | ⟨hopened, hrun⟩
  · exact hbefore hstops.bind fun _ ↦ rfl
  rw [run_bind_of_ok hrun]
  generalize hd₁ : Function.update d₀ (.temporary digest s.pid) _ = d₁
  have hsame₁ : ∀ x, d₁ (.current x) = d₀ (.current x) := fun x ↦ by
    rw [← hd₁, Function.update_of_ne (by simp)]
  rcases (Files.run_write_cases s.writeTemporary (.temporary digest s.pid) content d₁).symm with
    hstops | ⟨hwritten, hrun⟩
  · exact hbefore hstops.bind hsame₁
  rw [run_bind_of_ok hrun]
  generalize hd₂ : Function.update d₁ (.temporary digest s.pid) _ = d₂
  have hsame₂ : ∀ x, d₂ (.current x) = d₀ (.current x) := fun x ↦ by
    rw [← hd₂, Function.update_of_ne (by simp), hsame₁]
  rcases (Files.run_remove_cases s.removeOld (.backup digest) d₂).symm with
    hstops | ⟨hremoved, hrun⟩
  · exact hbefore hstops.bind hsame₂
  rw [run_bind_of_ok hrun]
  generalize hd₃ : Function.update d₂ (.backup digest) none = d₃
  have hsame₃ : ∀ x, d₃ (.current x) = d₀ (.current x) := fun x ↦ by
    rw [← hd₃, Function.update_of_ne (by simp), hsame₂]
  rcases run_keepCurrent (s := s) (hd₃ ▸ Function.update_self .. : d₃ (.backup digest) = none) with
    hstops | ⟨hkept, hrun⟩
  · exact hbefore hstops.bind hsame₃
  rw [run_bind_of_ok hrun]
  generalize hd₄ : Function.update (Function.update d₃ (.current digest) none) _ _ = d₄
  have htemporary : d₄ (.temporary digest s.pid) = some content := by
    rw [← hd₄, Function.update_of_ne (by simp), Function.update_of_ne (by simp), ← hd₃,
      Function.update_of_ne (by simp), ← hd₂, Function.update_self]
  have hplaced : Leaves digest content
      (s.replace = .dies ∨ s.replace = .fails ∧ s.putBack ≠ .succeeds) d₀
      ((putInPlace digest s).run d₄) := by
    refine leaves_putInPlace htemporary ?_ ?_ fun x hx ↦ ?_
    · rw [← hd₄, Function.update_of_ne (by simp), Function.update_self]
    · rw [← hd₄, Function.update_self, hsame₃]
    · rw [← hd₄, Function.update_of_ne (by simp), Function.update_of_ne (by simpa using hx), hsame₃]
  rw [run_bind]
  rcases hresult : (putInPlace digest s).run d₄ with ⟨halt | u, d₅⟩
  · rw [hresult] at hplaced
    refine ⟨hplaced.others, nofun, fun halt' h ↦ ?_⟩
    obtain ⟨hmessage, hown⟩ := hplaced.stopped halt rfl
    obtain rfl := Except.error.inj h
    refine ⟨hmessage, hown.imp_right (Or.imp_right (And.imp_left fun hlost ↦ ?_))⟩
    rw [SaveFaults.loses]
    simpa [hmade, hopened, hwritten, hremoved, hkept] using hlost
  · rw [hresult] at hplaced
    have hnew := hplaced.done u rfl
    rw [andThen_ok]
    rcases Files.run_remove_cases s.removeBackup (.backup digest) d₅ with ⟨-, hrun⟩ | hstops
    · rw [hrun]
      have hsame : ∀ x, Function.update d₅ (.backup digest) none (.current x) = d₅ (.current x) :=
        fun x ↦ Function.update_of_ne (by simp) ..
      refine ⟨fun x hx ↦ ?_, fun _ _ ↦ ?_, nofun⟩
      · exact (hsame x).trans (hplaced.others x hx)
      · exact (hsame digest).trans hnew
    · exact Leaves.of_stops hstops hplaced.others (Or.inr (Or.inl hnew))

end Leaves

/-! ## Runs -/

variable {masterKey : Bytes} {maxBytes : ℕ}

/-- What the store takes from the host for a text it seals: the record is read back, and decryption
gives the text. -/
structure Seals (H : ProfileHost) (key nonce plaintext : Bytes) : Prop where
  parses : H.parse (profileEnvelope H key nonce plaintext) =
    some (.object (envelopeFields H nonce (H.encrypt key nonce [] plaintext)))
  nonceReturns : H.fromBase64 (H.toBase64 nonce) = nonce
  tagReturns : H.fromBase64 (H.toBase64 (H.encrypt key nonce [] plaintext).2) =
    (H.encrypt key nonce [] plaintext).2
  ciphertextReturns : H.fromBase64 (H.toBase64 (H.encrypt key nonce [] plaintext).1) =
    (H.encrypt key nonce [] plaintext).1
  decrypts : H.decrypt key nonce [] (H.encrypt key nonce [] plaintext).1
    (H.encrypt key nonce [] plaintext).2 = some plaintext

theorem Seals.opens {key nonce plaintext : Bytes} (h : Seals H key nonce plaintext) :
    openEnvelope H key (profileEnvelope H key nonce plaintext) = .ok plaintext := by
  have hversion : ((JsValue.object (envelopeFields H nonce
      (H.encrypt key nonce [] plaintext))).get "version").asCount = some 1 := by
    have hone := JsValue.asCount_count (n := 1) (by norm_num)
    rw [Nat.cast_one] at hone
    exact hone
  have hnonce : ((JsValue.object (envelopeFields H nonce
      (H.encrypt key nonce [] plaintext))).get "nonce").asString = some (H.toBase64 nonce) := rfl
  have htag : ((JsValue.object (envelopeFields H nonce
      (H.encrypt key nonce [] plaintext))).get "tag").asString =
        some (H.toBase64 (H.encrypt key nonce [] plaintext).2) := rfl
  have hciphertext : ((JsValue.object (envelopeFields H nonce
      (H.encrypt key nonce [] plaintext))).get "ciphertext").asString =
        some (H.toBase64 (H.encrypt key nonce [] plaintext).1) := rfl
  simp only [openEnvelope, h.parses, hversion, hnonce, htag, hciphertext, h.nonceReturns,
    h.tagReturns, h.ciphertextReturns, h.decrypts]
  rfl

namespace ProfileStore

variable {W : ProfileStore} {c : SaveCall}

/-- What a file may be, for what is noted of its profile. -/
def KeptAs (H : ProfileHost) (masterKey : Bytes) (maxBytes : ℕ) (p : BrowserProfile)
    (completed : Option JsString) (interrupted : List JsString) : Option Bytes → Prop
  | none => completed = none
  | some content => ∃ data, H.Keeps data ∧ (H.utf8 data).length ≤ maxBytes ∧
      openEnvelope H (profileKey H masterKey p) content = .ok (H.utf8 data) ∧
        (completed = some data ∨ data ∈ interrupted)

/-- The invariant: a current file is that of data that `load` may return, and where there is none no
`save` was completed. -/
def Kept (H : ProfileHost) (masterKey : Bytes) (maxBytes : ℕ) (W : ProfileStore) : Prop :=
  ∀ p, H.Keeps (browserProfileIdentity p) →
    KeptAs H masterKey maxBytes p (W.completed p) (W.interrupted p)
      (W.files (.current (profileDigest H p)))

theorem KeptAs.mono {p : BrowserProfile} {completed : Option JsString} {data : JsString}
    {interrupted : List JsString} {file : Option Bytes}
    (h : KeptAs H masterKey maxBytes p completed interrupted file) :
    KeptAs H masterKey maxBytes p completed (data :: interrupted) file := by
  rcases file with _ | content
  · exact h
  · obtain ⟨old, hkeeps, hlimit, hopens, hcurrent⟩ := h
    exact ⟨old, hkeeps, hlimit, hopens, hcurrent.imp_right (List.mem_cons_of_mem _)⟩

/-- The file a call writes. -/
def content (H : ProfileHost) (masterKey : Bytes) (c : SaveCall) : Bytes :=
  profileEnvelope H (profileKey H masterKey c.profile) c.faults.nonce (H.utf8 c.data)

theorem step_of_not_accepts (h : accepts H maxBytes c.profile c.data = false) :
    step H masterKey maxBytes W c = W := by
  have hsave : ∃ e, (save H masterKey maxBytes c.profile c.data c.faults).run W.files =
      (.error (.threw (.thrown e)), W.files) := by
    rw [save]
    by_cases hlimit : maxBytes < (H.utf8 c.data).length
    · exact ⟨limitError, by rw [if_pos hlimit, run_throw]⟩
    · rw [accepts, decide_eq_true (not_lt.mp hlimit), Bool.true_and] at h
      exact ⟨idError, by rw [if_neg hlimit, h]; rfl⟩
  obtain ⟨e, hrun⟩ := hsave
  rw [step, hrun]

theorem save_of_accepts (h : accepts H maxBytes c.profile c.data = true) :
    save H masterKey maxBytes c.profile c.data c.faults =
      writeProfile (profileDigest H c.profile) (content H masterKey c) c.faults := by
  rw [accepts, Bool.and_eq_true, decide_eq_true_iff] at h
  rw [save, if_neg (not_lt.mpr h.1), h.2]
  rfl

variable (W masterKey) in
/-- **One call** that is accepted: the files of others stay, and the file of the profile is the new
one, or an interrupted call has left it alone or lost it. -/
theorem step_cases (h : accepts H maxBytes c.profile c.data = true) : ∃ files : Profiles,
    (∀ other, other ≠ profileDigest H c.profile →
      files (.current other) = W.files (.current other)) ∧
    (step H masterKey maxBytes W c =
        { files := files
          completed := Function.update W.completed c.profile (some c.data)
          interrupted := Function.update W.interrupted c.profile [] } ∧
        files (.current (profileDigest H c.profile)) = some (content H masterKey c) ∨
      step H masterKey maxBytes W c =
        { W with
          files := files
          interrupted := Function.update W.interrupted c.profile
            (c.data :: W.interrupted c.profile) } ∧
        (files (.current (profileDigest H c.profile)) =
            W.files (.current (profileDigest H c.profile)) ∨
          files (.current (profileDigest H c.profile)) = some (content H masterKey c) ∨
          c.faults.loses = true ∧ files (.current (profileDigest H c.profile)) = none)) := by
  have hleaves := writeProfile_leaves (profileDigest H c.profile) (content H masterKey c) c.faults
    W.files
  rw [← save_of_accepts h] at hleaves
  refine ⟨_, hleaves.others, ?_⟩
  rcases hrun : (save H masterKey maxBytes c.profile c.data c.faults).run W.files with
    ⟨halt | u, files⟩
  · right
    rw [hrun] at hleaves
    obtain ⟨hmessage, hown⟩ := hleaves.stopped halt rfl
    refine ⟨?_, hown⟩
    rw [step, hrun]
    rcases halt with _ | _ | _ | message
    · rfl
    · rfl
    · rfl
    · exact absurd rfl (hmessage message)
  · left
    rw [hrun] at hleaves
    refine ⟨?_, hleaves.done u rfl⟩
    rw [step, hrun]

variable (masterKey) in
theorem step_others (hsha : Function.Injective H.sha256) (ho : W.Orderly H maxBytes c)
    {q : BrowserProfile} (hq : q ≠ c.profile) (hkeeps : H.Keeps (browserProfileIdentity q)) :
    (step H masterKey maxBytes W c).files (.current (profileDigest H q)) =
      W.files (.current (profileDigest H q)) := by
  rcases haccepts : accepts H maxBytes c.profile c.data with _ | _
  · rw [step_of_not_accepts haccepts]
  · have hdigest : profileDigest H q ≠ profileDigest H c.profile :=
      fun h ↦ hq (profileDigest_inj hsha hkeeps (ho haccepts).1 h)
    obtain ⟨files, hothers, ⟨hstep, -⟩ | ⟨hstep, -⟩⟩ :=
      step_cases masterKey W haccepts
    · rw [hstep]
      exact hothers _ hdigest
    · rw [hstep]
      exact hothers _ hdigest

theorem Kept.step (hinv : W.Kept H masterKey maxBytes) (hsha : Function.Injective H.sha256)
    (hseals : accepts H maxBytes c.profile c.data = true →
      Seals H (profileKey H masterKey c.profile) c.faults.nonce (H.utf8 c.data))
    (ho : W.Orderly H maxBytes c) :
    (ProfileStore.step H masterKey maxBytes W c).Kept H masterKey maxBytes := by
  rcases haccepts : accepts H maxBytes c.profile c.data with _ | _
  · rw [step_of_not_accepts haccepts]
    exact hinv
  obtain ⟨hidentity, hdata, hloses⟩ := ho haccepts
  have hlimit : (H.utf8 c.data).length ≤ maxBytes := by
    rw [accepts, Bool.and_eq_true, decide_eq_true_iff] at haccepts
    exact haccepts.1
  intro q hkeeps
  by_cases hq : q = c.profile
  · subst hq
    have hbefore := hinv c.profile hkeeps
    obtain ⟨files, -, ⟨hstep, hnew⟩ | ⟨hstep, hsame | hnew | ⟨hlost, hnone⟩⟩⟩ :=
      step_cases masterKey W haccepts
    · rw [hstep]
      dsimp only
      rw [hnew, Function.update_self]
      exact ⟨c.data, hdata, hlimit, (hseals haccepts).opens, Or.inl rfl⟩
    · rw [hstep]
      dsimp only
      rw [hsame, Function.update_self]
      exact hbefore.mono
    · rw [hstep]
      dsimp only
      rw [hnew, Function.update_self]
      exact ⟨c.data, hdata, hlimit, (hseals haccepts).opens, Or.inr List.mem_cons_self⟩
    · rw [hstep]
      dsimp only
      rw [hnone, Function.update_self]
      rw [hloses hlost] at hbefore
      exact hbefore
  · have hfile := step_others masterKey hsha ho hq hkeeps
    have hbefore := hinv q hkeeps
    rw [← hfile] at hbefore
    obtain ⟨files, -, ⟨hstep, -⟩ | ⟨hstep, -⟩⟩ :=
      step_cases masterKey W haccepts
    · rw [hstep] at hbefore ⊢
      dsimp only at hbefore ⊢
      rwa [Function.update_of_ne hq, Function.update_of_ne hq]
    · rw [hstep] at hbefore ⊢
      dsimp only at hbefore ⊢
      rwa [Function.update_of_ne hq]

theorem load_of_absent {files : Profiles} {p : BrowserProfile}
    (hid : isProfileId p.profileId = true) (h : files (.current (profileDigest H p)) = none) :
    load H masterKey maxBytes files p = .ok none := by
  rw [load, hid, h]
  rfl

theorem load_of_opens {files : Profiles} {p : BrowserProfile} {content : Bytes} {data : JsString}
    (hid : isProfileId p.profileId = true)
    (h : files (.current (profileDigest H p)) = some content) (hkeeps : H.Keeps data)
    (hlimit : (H.utf8 data).length ≤ maxBytes)
    (hopens : openEnvelope H (profileKey H masterKey p) content = .ok (H.utf8 data)) :
    load H masterKey maxBytes files p = .ok (some data) := by
  have hdone : load H masterKey maxBytes files p =
      if maxBytes < (H.utf8 data).length then .error limitError
      else .ok (some (H.fromUtf8 (H.utf8 data))) := by
    rw [load, hid, h]
    dsimp only
    rw [hopens]
    rfl
  rw [hdone, if_neg (not_lt.mpr hlimit), show H.fromUtf8 _ = _ from hkeeps]

theorem load_congr {files files' : Profiles} {p : BrowserProfile}
    (h : files (.current (profileDigest H p)) = files' (.current (profileDigest H p))) :
    load H masterKey maxBytes files p = load H masterKey maxBytes files' p := by
  rw [load, load, h]

theorem Kept.safe (hinv : W.Kept H masterKey maxBytes) (hsha : Function.Injective H.sha256) :
    W.Safe H masterKey maxBytes where
  loads p hid hkeeps := by
    have hfile := hinv p hkeeps
    rcases h : W.files (.current (profileDigest H p)) with _ | content
    · rw [h] at hfile
      exact Or.inl ⟨load_of_absent hid h, hfile⟩
    · rw [h] at hfile
      obtain ⟨data, hdata, hlimit, hopens, hcurrent⟩ := hfile
      exact Or.inr ⟨data, load_of_opens hid h hdata hlimit hopens, hcurrent⟩
  others c ho q hq hkeeps := load_congr (step_others masterKey hsha ho hq hkeeps)
  apart p q hp hq h := profileDigest_inj hsha hp hq (profilePath_inj h)

/-- **Profiles are what was saved**, in every run whose identities and data come back from their
bytes and in which no current file is lost between the renames. -/
theorem safe_of_kept (hsha : Function.Injective H.sha256) {calls : List SaveCall}
    (hseals : ∀ c ∈ calls, accepts H maxBytes c.profile c.data = true →
      Seals H (profileKey H masterKey c.profile) c.faults.nonce (H.utf8 c.data))
    (h : Throughout (ProfileStore.step H masterKey maxBytes) (Orderly H maxBytes) {} calls) :
    (run H masterKey maxBytes {} calls).Safe H masterKey maxBytes := by
  have hrun : ∀ (calls : List SaveCall) (W : ProfileStore), W.Kept H masterKey maxBytes →
      (∀ c ∈ calls, accepts H maxBytes c.profile c.data = true →
        Seals H (profileKey H masterKey c.profile) c.faults.nonce (H.utf8 c.data)) →
      Throughout (ProfileStore.step H masterKey maxBytes) (Orderly H maxBytes) W calls →
      (run H masterKey maxBytes W calls).Kept H masterKey maxBytes := by
    intro calls
    induction calls with
    | nil => exact fun W hinv _ _ ↦ hinv
    | cons c calls ih =>
      intro W hinv hseals ho
      exact ih _ (hinv.step hsha (hseals c List.mem_cons_self) ho.1)
        (fun c' hc' ↦ hseals c' (List.mem_cons_of_mem _ hc')) ho.2
  exact (hrun calls {} (fun _ _ ↦ rfl) hseals h).safe hsha

end ProfileStore

/-! ## Two runs -/

/-- The bytes of a text as two letters each. -/
def letters (bytes : Bytes) : JsString :=
  bytes.flatMap fun b ↦ [65 + (b.toNat / 16).toUInt16, 65 + (b.toNat % 16).toUInt16]

/-- The bytes that were written as letters. -/
def fromLetters : JsString → Bytes
  | high :: low :: rest => ((high.toNat - 65) * 16 + (low.toNat - 65)).toUInt8 :: fromLetters rest
  | _ => []

/-- A host for the texts below, which can read the records it is given here. A lone surrogate
becomes the replacement character, nothing is hidden, and the tag is the key. -/
def plainProfiles (records : List (List (JsString × JsValue))) : ProfileHost where
  stringify fields := (referencePlatform.stringify fields).map UInt16.toUInt8
  parse text := (records.find? fun fields ↦
    (referencePlatform.stringify fields).map UInt16.toUInt8 = text).map JsValue.object
  gzip := id
  gunzip := some
  encrypt key _ _ text := (text, key)
  decrypt key _ _ text tag := if tag = key then some text else none
  sha256 bytes := bytes.map UInt8.toUInt16
  toBase64 := letters
  fromBase64 := fromLetters
  dateParses _ := true
  utf8 text := text.flatMap fun u ↦ if u < 128 then [u.toUInt8] else [239, 191, 189]
  fromUtf8 bytes := bytes.map UInt8.toUInt16
  hmac key bytes := key ++ bytes

variable {records : List (List (JsString × JsValue))}

theorem plainProfiles_sha256_injective : Function.Injective (plainProfiles records).sha256 :=
  List.map_injective_iff.mpr fun a b h ↦ by
    have hback := congrArg UInt16.toUInt8 h
    rwa [UInt8.toUInt8_toUInt16, UInt8.toUInt8_toUInt16] at hback

/-- The records are told apart by their texts, so each is read back. -/
theorem plainProfiles_parse {fields : List (JsString × JsValue)}
    (htexts : (records.map (plainProfiles records).stringify).Nodup) (h : fields ∈ records) :
    (plainProfiles records).parse ((plainProfiles records).stringify fields) =
      some (.object fields) := by
  rcases hfound : records.find? fun other ↦
    (referencePlatform.stringify other).map UInt16.toUInt8 =
      (plainProfiles records).stringify fields with _ | found
  · exact absurd (List.find?_eq_none.mp hfound fields h) (not_not.mpr (decide_eq_true rfl))
  · have htext := List.find?_some hfound
    have hsame := List.inj_on_of_nodup_map htexts (List.mem_of_find?_eq_some hfound) h
      (of_decide_eq_true htext)
    rw [show (plainProfiles records).parse _ = _ from congrArg (Option.map JsValue.object) hfound,
      hsame]
    rfl

/-- A profile of one of the tenants. -/
def profileOf (tenant : String) : BrowserProfile := ⟨js "app", js tenant, js "kim", js "default"⟩

/-- The record that is written for a text, with the master key 7. -/
def recordOf (tenant text : String) : List (JsString × JsValue) :=
  envelopeFields (plainProfiles []) [] ((plainProfiles []).encrypt
    (profileKey (plainProfiles []) [7] (profileOf tenant)) [] []
    ((plainProfiles []).utf8 (js text)))

/-- The host of the runs below. -/
def threeRecords : ProfileHost :=
  plainProfiles [recordOf "a" "1", recordOf "a" "2", recordOf "b" "3"]

/-- The first `save` is completed; the process of the second one dies while it writes, and that of
the third, the first of its profile, before the new file is in place. -/
def diedEarly : List SaveCall :=
  [{ profile := profileOf "a", data := js "1" },
    { profile := profileOf "a", data := js "2"
      faults := { writeTemporary := .dies, written := 9 } },
    { profile := profileOf "b", data := js "3", faults := { replace := .dies } }]

theorem safe_of_kept_diedEarly :
    (ProfileStore.run threeRecords [7] 8 {} diedEarly).Safe threeRecords [7] 8 :=
  ProfileStore.safe_of_kept plainProfiles_sha256_injective
    (by
      have htexts : ([recordOf "a" "1", recordOf "a" "2", recordOf "b" "3"].map
        threeRecords.stringify).Nodup := by decide +kernel
      simp only [diedEarly, List.mem_cons, List.not_mem_nil, or_false, forall_eq_or_imp, forall_eq]
      exact ⟨fun _ ↦ ⟨plainProfiles_parse htexts List.mem_cons_self, by decide +kernel,
          by decide +kernel, by decide +kernel, by decide +kernel⟩,
        fun _ ↦ ⟨plainProfiles_parse htexts (List.mem_cons_of_mem _ List.mem_cons_self),
          by decide +kernel, by decide +kernel, by decide +kernel, by decide +kernel⟩,
        fun _ ↦ ⟨plainProfiles_parse htexts (List.mem_cons_of_mem _ (List.mem_cons_of_mem _
          List.mem_cons_self)), by decide +kernel, by decide +kernel, by decide +kernel,
          by decide +kernel⟩⟩)
    (by decide +kernel)

/-- The process of the second `save` dies between the renames. -/
def diedBetween : List SaveCall :=
  [{ profile := profileOf "a", data := js "1" },
    { profile := profileOf "a", data := js "2", faults := { replace := .dies } }]

/-- A `save` was completed, and there is no profile: the data of both are in files that nothing
reads. -/
theorem not_safe_diedBetween :
    ¬(ProfileStore.run threeRecords [7] 8 {} diedBetween).Safe threeRecords [7] 8 := by
  intro h
  have hfile : (ProfileStore.run threeRecords [7] 8 {} diedBetween).files
      (.current (profileDigest threeRecords (profileOf "a"))) = none := by decide +kernel
  have hcompleted : (ProfileStore.run threeRecords [7] 8 {} diedBetween).completed
      (profileOf "a") = some (js "1") := by decide +kernel
  have hload : load threeRecords [7] 8 (ProfileStore.run threeRecords [7] 8 {} diedBetween).files
      (profileOf "a") = .ok none := ProfileStore.load_of_absent (by decide) hfile
  rcases h.loads (profileOf "a") (by decide) (by decide +kernel) with ⟨-, hnone⟩ | ⟨data, hdata, -⟩
  · rw [hcompleted] at hnone
    exact absurd hnone nofun
  · rw [hload] at hdata
    exact absurd hdata nofun

/-- Two tenants, each a lone surrogate, have one file. -/
example : profilePath threeRecords ⟨js "app", [55296], js "kim", js "default"⟩ =
    profilePath threeRecords ⟨js "app", [55297], js "kim", js "default"⟩ := by decide +kernel

end LiteHarness.Browser
