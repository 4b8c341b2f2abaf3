import LiteHarness.Foundation.Checks
import LiteHarness.Workspace.Archives
import Mathlib.Data.List.Induction

/-!
# The validator sees what a reader sees

Where a numeric field is octal digits followed by NULs and spaces, both readings of it are the same
(`parseTarOctal_eq_ok_iff`), and a path is judged by its bytes as by its text
(`validateArchivePath_eq_ok_iff`). A header is then the same entry to both, and by induction on the
headers the walk is the reading (`loop_eq_ok_iff`).
-/

namespace LiteHarness.Workspace

open Foundation

/-! ## Numbers -/

theorem octalValue_append (digits : Bytes) (b : UInt8) :
    octalValue (digits ++ [b]) = octalValue digits * 8 + (b.toNat - 48) := by
  rw [octalValue, List.foldl_append]
  rfl

theorem octalValue_lt {digits : Bytes} (h : ∀ b ∈ digits, isOctal b = true) :
    octalValue digits < 8 ^ digits.length := by
  induction digits using List.reverseRecOn with
  | nil => decide
  | append_singleton digits b ih =>
    have hbound := ih fun c hc ↦ h c (List.mem_append_left _ hc)
    have hdigit := h b (List.mem_append_right _ List.mem_cons_self)
    rw [isOctal, Bool.and_eq_true, decide_eq_true_iff, decide_eq_true_iff] at hdigit
    have hle : b.toNat ≤ 55 := UInt8.le_iff_toNat_le.mp hdigit.2
    rw [octalValue_append, List.length_append, List.length_singleton, pow_succ]
    omega

/-- The parts of a plain number. -/
theorem exists_of_isPlainNumber {bytes : Bytes} (h : isPlainNumber bytes = true) :
    ∃ digits filler, bytes = digits ++ filler ∧ (∀ b ∈ digits, isOctal b = true) ∧
      ∀ b ∈ filler, b = 0 ∨ b = 32 := by
  refine ⟨bytes.takeWhile isOctal, bytes.dropWhile isOctal, List.takeWhile_append_dropWhile.symm,
    fun b hb ↦ List.mem_takeWhile_imp hb, fun b hb ↦ ?_⟩
  simpa using List.all_eq_true.mp h b hb

theorem ustarNumber_of_plain {digits filler : Bytes} (hdigits : ∀ b ∈ digits, isOctal b = true)
    (hfiller : ∀ b ∈ filler, b = 0 ∨ b = 32) :
    ustarNumber (digits ++ filler) = if digits = [] then none else some (octalValue digits) := by
  have hkept : ∀ b ∈ digits, (b ≠ 0 && b ≠ 32) = true := fun b hb ↦ by
    have hdigit := hdigits b hb
    rw [Bool.and_eq_true, decide_eq_true_iff, decide_eq_true_iff]
    exact ⟨fun h ↦ absurd (h ▸ hdigit) (by decide), fun h ↦ absurd (h ▸ hdigit) (by decide)⟩
  have hcut : (digits ++ filler).takeWhile (fun b ↦ b ≠ 0 && b ≠ 32) = digits := by
    rw [List.takeWhile_append_of_pos hkept]
    rcases filler with _ | ⟨b, filler⟩
    · rw [List.takeWhile_nil, List.append_nil]
    · rw [List.takeWhile_cons_of_neg, List.append_nil]
      rcases hfiller b List.mem_cons_self with rfl | rfl <;> decide
  rw [ustarNumber, hcut]
  by_cases hnone : digits = []
  · rw [if_neg (fun h ↦ h.1 hnone), if_pos hnone]
  · rw [if_pos ⟨hnone, List.all_eq_true.mpr hdigits⟩, if_neg hnone]

theorem trim_append_of_spaces {word spaces : JsString}
    (hword : ∀ u ∈ word, isStrWhiteSpace u = false)
    (hspaces : ∀ u ∈ spaces, isStrWhiteSpace u = true) : trim (word ++ spaces) = word := by
  have hkept : word.dropWhile isStrWhiteSpace = word := by
    rcases word with _ | ⟨u, word⟩
    · rfl
    · exact List.dropWhile_cons_of_neg (by simp [hword u List.mem_cons_self])
  have hreverse : word.reverse.dropWhile isStrWhiteSpace = word.reverse := by
    rcases hrev : word.reverse with _ | ⟨u, rest⟩
    · rfl
    · have hu : u ∈ word := List.mem_reverse.mp (hrev ▸ List.mem_cons_self)
      exact List.dropWhile_cons_of_neg (by simp [hword u hu])
  have hgone : ∀ back : JsString,
      (spaces.reverse ++ back).dropWhile isStrWhiteSpace = back.dropWhile isStrWhiteSpace :=
    fun back ↦ List.dropWhile_append_of_pos fun u hu ↦ hspaces u (List.mem_reverse.mp hu)
  rw [trim]
  by_cases hempty : word = []
  · subst hempty
    have hall : spaces.dropWhile isStrWhiteSpace = [] :=
      List.dropWhile_eq_nil_iff.mpr hspaces
    rw [List.nil_append, hall]
    rfl
  · have hfront : (word ++ spaces).dropWhile isStrWhiteSpace = word ++ spaces := by
      obtain ⟨u, rest, rfl⟩ := List.exists_cons_of_ne_nil hempty
      exact List.dropWhile_cons_of_neg (by simp [hword u List.mem_cons_self])
    rw [hfront, List.reverse_append, hgone, hreverse, List.reverse_reverse]

/-- The units of octal digits. -/
theorem map_ascii_of_octal {digits : Bytes} (h : ∀ b ∈ digits, isOctal b = true) :
    ∀ u ∈ digits.map (fun b ↦ UInt16.ofNat (b.toNat % 128)), 48 ≤ u.toNat ∧ u.toNat ≤ 55 := by
  intro u hu
  obtain ⟨b, hb, rfl⟩ := List.mem_map.mp hu
  have hdigit := h b hb
  rw [isOctal, Bool.and_eq_true, decide_eq_true_iff, decide_eq_true_iff, UInt8.le_iff_toNat_le,
    UInt8.le_iff_toNat_le] at hdigit
  have hlow : 48 ≤ b.toNat := hdigit.1
  have hhigh : b.toNat ≤ 55 := hdigit.2
  rw [UInt16.toNat_ofNat']
  omega

/-- The value of the units is that of the digits. -/
theorem foldl_ascii {digits : Bytes} (h : ∀ b ∈ digits, isOctal b = true) (n : ℕ) :
    (digits.map fun b ↦ UInt16.ofNat (b.toNat % 128)).foldl
        (fun n u ↦ n * 8 + (u.toNat - 48)) n =
      digits.foldl (fun n b ↦ n * 8 + (b.toNat - 48)) n := by
  induction digits generalizing n with
  | nil => rfl
  | cons b digits ih =>
    obtain ⟨hb, hdigits⟩ := List.forall_mem_cons.mp h
    rw [isOctal, Bool.and_eq_true, decide_eq_true_iff, decide_eq_true_iff] at hb
    have hhigh : b.toNat ≤ 55 := UInt8.le_iff_toNat_le.mp hb.2
    have hsame : (UInt16.ofNat (b.toNat % 128)).toNat = b.toNat := by
      rw [UInt16.toNat_ofNat']
      omega
    rw [List.map_cons, List.foldl_cons, List.foldl_cons, hsame, ih hdigits]

/-- **Both readings of a plain number** are the same. -/
theorem parseTarOctal_eq_ok_iff {bytes : Bytes} (hplain : isPlainNumber bytes = true)
    (hlength : bytes.length ≤ 12) {label : String} {n : ℕ} :
    parseTarOctal bytes label = .ok n ↔ ustarNumber bytes = some n := by
  obtain ⟨digits, filler, rfl, hdigits, hfiller⟩ := exists_of_isPlainNumber hplain
  rw [ustarNumber_of_plain hdigits hfiller, parseTarOctal]
  have hunits := map_ascii_of_octal hdigits
  have hvalue : trim (((digits ++ filler).map fun b ↦ UInt16.ofNat (b.toNat % 128)).filter
      (· ≠ 0)) = digits.map fun b ↦ UInt16.ofNat (b.toNat % 128) := by
    rw [List.map_append, List.filter_append, List.filter_eq_self.mpr]
    · refine trim_append_of_spaces (fun u hu ↦ ?_) fun u hu ↦ ?_
      · have hu' := hunits u hu
        simp only [isStrWhiteSpace]
        simp
        omega
      · obtain ⟨hmem, hne⟩ := List.mem_filter.mp hu
        obtain ⟨b, hb, rfl⟩ := List.mem_map.mp hmem
        rcases hfiller b hb with rfl | rfl
        · exact absurd hne (by decide)
        · decide
    · intro u hu
      have hu' := hunits u hu
      refine decide_eq_true fun hzero ↦ ?_
      rw [hzero] at hu'
      exact absurd hu'.1 (by decide)
  dsimp only
  rw [hvalue]
  by_cases hnone : digits = []
  · subst hnone
    exact iff_of_false (by simp) (by simp)
  have hin : ¬(digits.map (fun b ↦ UInt16.ofNat (b.toNat % 128)) = [] ∨
      (digits.map (fun b ↦ UInt16.ofNat (b.toNat % 128))).any (fun u ↦ u < 48 || 55 < u) =
        true) := by
    rw [List.map_eq_nil_iff, not_or, List.any_eq_true]
    refine ⟨hnone, ?_⟩
    rintro ⟨u, hu, hout⟩
    have hu' := hunits u hu
    rw [Bool.or_eq_true, decide_eq_true_iff, decide_eq_true_iff, UInt16.lt_iff_toNat_lt,
      UInt16.lt_iff_toNat_lt] at hout
    have hbounds : (48 : UInt16).toNat = 48 ∧ (55 : UInt16).toNat = 55 := by decide
    omega
  have hsmall : ¬maxSafeInteger < ((octalValue digits : ℕ) : ℤ) := by
    have hlt := octalValue_lt hdigits
    have hle : 8 ^ digits.length ≤ 8 ^ 12 :=
      Nat.pow_le_pow_right (by decide)
        ((List.length_append ▸ hlength).trans' (Nat.le_add_right _ _))
    have hmax : (8 ^ 12 : ℤ) ≤ maxSafeInteger := by decide
    have hcast : ((octalValue digits : ℕ) : ℤ) < 8 ^ 12 := by exact_mod_cast hlt.trans_le hle
    exact not_lt.mpr (hcast.le.trans hmax)
  rw [if_neg hin, foldl_ascii hdigits]
  change (if maxSafeInteger < ((octalValue digits : ℕ) : ℤ) then _ else Except.ok _) = _ ↔ _
  rw [if_neg hsmall, if_neg hnone, Except.ok.injEq, Option.some.injEq]
  exact Iff.rfl

/-! ## Paths -/

theorem rooted_bufferText (path : Bytes) :
    rooted (bufferText path) = bufferText (rootedBytes path) := by
  by_cases hdot : ∃ rest, path = 46 :: 47 :: rest
  · obtain ⟨rest, rfl⟩ := hdot
    rw [bufferText_cons (by decide), bufferText_cons (by decide)]
    rfl
  · have htext : ∀ t, bufferText path ≠ 46 :: 47 :: t := by
      intro t ht
      obtain ⟨tail, rfl, htail⟩ := (bufferText_eq_cons (c := 46) (by decide)).mp ht
      obtain ⟨rest, rfl, -⟩ := (bufferText_eq_cons (c := 47) (by decide)).mp htail
      exact hdot ⟨rest, rfl⟩
    rw [rooted.eq_2 _ htext, rootedBytes.eq_2 _ fun rest h ↦ hdot ⟨rest, h⟩]

theorem normalized_bufferText (path : Bytes) (directory : Bool) :
    normalized (bufferText path) directory = bufferText (corePath path directory) := by
  rw [normalized, corePath, rooted_bufferText]
  generalize rootedBytes path = path
  have hlast := getLast?_bufferText (c := 47) (by decide) path
  by_cases hslash : path.getLast? = some 47
  · have htext : (bufferText path).getLast? = some 47 := hlast.mpr hslash
    rw [htext, hslash]
    rcases directory with _ | _
    · exact rfl
    · obtain ⟨before, rfl⟩ := List.getLast?_eq_some_iff.mp hslash
      change (bufferText (before ++ [47])).dropLast = bufferText ((before ++ [47]).dropLast)
      rw [bufferText_append_cons (by decide), bufferText_nil, List.dropLast_concat,
        List.dropLast_concat]
  · have htext : (bufferText path).getLast? ≠ some 47 := fun h ↦ hslash (hlast.mp h)
    rw [decide_eq_false htext, decide_eq_false hslash, Bool.and_false]
    rfl

theorem exists_of_startsWithDriveLetter {text : JsString}
    (h : startsWithDriveLetter text = true) :
    ∃ u rest, text = u :: 58 :: rest ∧ u.toNat < 0x80 := by
  rw [startsWithDriveLetter.eq_def] at h
  split at h
  · rename_i u rest
    simp only [Bool.or_eq_true, Bool.and_eq_true, decide_eq_true_iff, UInt16.le_iff_toNat_le] at h
    have hbounds : (90 : UInt16).toNat = 90 ∧ (122 : UInt16).toNat = 122 := by decide
    exact ⟨u, rest, rfl, by omega⟩
  · exact absurd h Bool.false_ne_true

theorem exists_of_startsWithDriveByte {path : Bytes} (h : startsWithDriveByte path = true) :
    ∃ b rest, path = b :: 58 :: rest ∧ b.toNat < 0x80 := by
  rw [startsWithDriveByte.eq_def] at h
  split at h
  · rename_i b rest
    simp only [Bool.or_eq_true, Bool.and_eq_true, decide_eq_true_iff, UInt8.le_iff_toNat_le] at h
    have hbounds : (90 : UInt8).toNat = 90 ∧ (122 : UInt8).toNat = 122 := by decide
    exact ⟨b, rest, rfl, by omega⟩
  · exact absurd h Bool.false_ne_true

theorem startsWithDriveLetter_bufferText (path : Bytes) :
    startsWithDriveLetter (bufferText path) = startsWithDriveByte path := by
  by_cases hcolon : ∃ b rest, path = b :: 58 :: rest ∧ b.toNat < 0x80
  · obtain ⟨b, rest, rfl, hb⟩ := hcolon
    have hlt := b.toNat_lt
    rw [bufferText_cons hb, bufferText_cons (by decide)]
    change (65 ≤ byteUnit b && byteUnit b ≤ 90 || 97 ≤ byteUnit b && byteUnit b ≤ 122 : Bool) =
      (65 ≤ b && b ≤ 90 || 97 ≤ b && b ≤ 122 : Bool)
    simp only [UInt16.le_iff_toNat_le, UInt8.le_iff_toNat_le, toNat_byteUnit]
    rfl
  · have hbytes := mt exists_of_startsWithDriveByte hcolon
    have htext : startsWithDriveLetter (bufferText path) ≠ true := by
      intro h
      obtain ⟨u, rest, htext, hu⟩ := exists_of_startsWithDriveLetter h
      obtain ⟨b, hb, rfl⟩ := exists_byteUnit hu
      obtain ⟨tail, rfl, htail⟩ := (bufferText_eq_cons hb).mp htext
      obtain ⟨rest', rfl, -⟩ := (bufferText_eq_cons (c := 58) (by decide)).mp htail
      exact hcolon ⟨b, rest', rfl, hb⟩
    rw [Bool.eq_false_iff.mpr hbytes, Bool.eq_false_iff.mpr htext]

theorem badPart_bufferText (part : Bytes) :
    badPart (bufferText part) = !(part ≠ [] && part ≠ [46, 46] && part ≠ [46]) := by
  have htwo := bufferText_eq_iff [46, 46] part (by decide)
  have hone := bufferText_eq_iff [46] part (by decide)
  rw [badPart]
  simp only [bufferText_eq_nil, show bufferText part = [46, 46] ↔ _ from htwo,
    show bufferText part = [46] ↔ _ from hone]
  by_cases h₁ : part = [] <;> by_cases h₂ : part = [46, 46] <;> by_cases h₃ : part = [46] <;>
    simp [h₁, h₂, h₃]

theorem validateArchivePath_eq_ok_iff {path : Bytes} {directory : Bool} :
    validateArchivePath (bufferText path) directory = .ok () ↔
      isCanonical path directory = true := by
  rw [validateArchivePath, isCanonical, normalized_bufferText]
  generalize corePath path directory = core
  have hdot := bufferText_eq_iff [46] core (by decide)
  have hhead : (bufferText core).head? = some 47 ↔ core.head? = some 47 := by
    rw [List.head?_eq_some_iff, List.head?_eq_some_iff]
    constructor
    · rintro ⟨t, ht⟩
      obtain ⟨rest, rfl, -⟩ := (bufferText_eq_cons (c := 47) (by decide)).mp ht
      exact ⟨rest, rfl⟩
    · rintro ⟨rest, rfl⟩
      exact ⟨bufferText rest, bufferText_cons (by decide) rest⟩
  have hparts : ((bufferText core).splitOn 47).any badPart = !(core.splitOn 47).all
      fun part ↦ part ≠ [] && part ≠ [46, 46] && part ≠ [46] := by
    rw [show (bufferText core).splitOn 47 = _ from splitOn_bufferText (c := 47) (by decide) core,
      List.any_map, List.not_all_eq_any_not]
    exact congrArg (List.any _) (funext badPart_bufferText)
  have hroot : bufferText core = [] ∨ bufferText core = [46] ↔ core = [] ∨ core = [46] :=
    or_congr bufferText_eq_nil hdot
  have hback : 92 ∈ bufferText core ↔ 92 ∈ core := mem_bufferText (c := 92) (by decide) core
  by_cases hcore : core = [] ∨ core = [46]
  · rw [if_pos (hroot.mpr hcore)]
    refine iff_of_true rfl ?_
    rcases hcore with rfl | rfl <;> decide
  rw [if_neg (mt hroot.mp hcore)]
  obtain ⟨hempty, hpoint⟩ := not_or.mp hcore
  rw [decide_eq_false hempty, decide_eq_false hpoint, Bool.false_or, Bool.false_or,
    startsWithDriveLetter_bufferText, hparts]
  split_ifs with hbad
  · refine iff_of_false nofun fun h ↦ ?_
    simp only [Bool.and_eq_true, decide_eq_true_iff, Bool.not_eq_true'] at h
    rcases hbad with hslash | hmem | hdrive | hany
    · exact h.1.1.1 (hhead.mp hslash)
    · exact h.1.1.2 (hback.mp hmem)
    · rw [h.1.2] at hdrive
      exact absurd hdrive Bool.false_ne_true
    · rw [h.2] at hany
      exact absurd hany Bool.false_ne_true
  · refine iff_of_true rfl ?_
    obtain ⟨hslash, hrest⟩ := not_or.mp hbad
    obtain ⟨hmem, hrest⟩ := not_or.mp hrest
    obtain ⟨hdrive, hany⟩ := not_or.mp hrest
    simp only [Bool.and_eq_true, decide_eq_true_iff, Bool.not_eq_true']
    exact ⟨⟨⟨mt hhead.mpr hslash, mt hback.mpr hmem⟩, Bool.eq_false_iff.mpr hdrive⟩,
      by simpa [and_assoc] using hany⟩

/-- What is in front of the core of a path and behind it. -/
theorem corePath_cases (path : Bytes) (directory : Bool) :
    (path = rootedBytes path ∨ path = 46 :: 47 :: rootedBytes path) ∧
      (rootedBytes path = corePath path directory ∨
        rootedBytes path = corePath path directory ++ [47]) := by
  constructor
  · by_cases hdot : ∃ rest, path = 46 :: 47 :: rest
    · obtain ⟨rest, rfl⟩ := hdot
      exact Or.inr rfl
    · exact Or.inl (rootedBytes.eq_2 _ fun rest h ↦ hdot ⟨rest, h⟩).symm
  · rw [corePath]
    split_ifs with hslash
    · right
      rw [Bool.and_eq_true, decide_eq_true_iff] at hslash
      obtain ⟨before, hbefore⟩ := List.getLast?_eq_some_iff.mp hslash.2
      rw [hbefore, List.dropLast_concat]
    · exact Or.inl rfl

/-- **A canonical path stays under the target directory**; the root alone is taken for it. -/
theorem confined_of_isCanonical {path : Bytes} {directory : Bool}
    (h : isCanonical path directory = true) :
    path = [47] ∨ path.head? ≠ some 47 ∧ [46, 46] ∉ path.splitOn 47 := by
  obtain ⟨hfront, hback⟩ := corePath_cases path directory
  rw [isCanonical] at h
  generalize corePath path directory = core at h hback
  simp only [Bool.or_eq_true, Bool.and_eq_true, decide_eq_true_iff] at h
  have hparts : [46, 46] ∉ core.splitOn 47 := by
    rcases h with (rfl | rfl) | ⟨-, hall⟩
    · decide
    · decide
    · intro hmem
      exact absurd (List.all_eq_true.mp hall _ hmem) (by decide)
  have hhead : core.head? ≠ some 47 := by
    rcases h with (rfl | rfl) | ⟨⟨⟨hhead, -⟩, -⟩, -⟩
    · decide
    · decide
    · exact hhead
  have hbackParts : [46, 46] ∉ (rootedBytes path).splitOn 47 := by
    rcases hback with hsame | hslash
    · rw [hsame]
      exact hparts
    · rw [hslash, List.splitOn_append_cons_self, List.mem_append]
      rintro (hmem | hmem)
      · exact hparts hmem
      · exact absurd hmem (by decide)
  rcases hfront with hsame | hdot
  · rw [hsame]
    rcases hback with hcore | hslash
    · exact Or.inr ⟨hcore ▸ hhead, hbackParts⟩
    · by_cases hempty : core = []
      · rw [hslash, hempty]
        exact Or.inl rfl
      · refine Or.inr ⟨?_, hbackParts⟩
        rw [hslash, List.head?_append_of_ne_nil _ hempty]
        exact hhead
  · rw [hdot]
    refine Or.inr ⟨by simp, ?_⟩
    change [46, 46] ∉ ([46] ++ 47 :: rootedBytes path).splitOn 47
    rw [List.splitOn_append_cons_self, List.mem_append]
    rintro (hmem | hmem)
    · exact absurd hmem (by decide)
    · exact hbackParts hmem

/-! ## Headers -/

theorem tarString_eq_nil {bytes : Bytes} : tarString bytes = [] ↔ cString bytes = [] :=
  bufferText_eq_nil

/-- The path the validator sees is the text of the path. -/
theorem path_eq (header : Bytes) :
    (if tarString (field header 345 155) = [] then tarString (field header 0 100)
      else tarString (field header 345 155) ++ 47 :: tarString (field header 0 100)) =
      bufferText (ustarPath header) := by
  rw [ustarPath]
  rcases hstart : cString (field header 345 155) with _ | ⟨b, start⟩
  · rw [if_pos (tarString_eq_nil.mpr hstart)]
    rfl
  · rw [if_neg (fun h ↦ absurd (tarString_eq_nil.mp h) (by rw [hstart]; exact nofun))]
    change _ = bufferText ((b :: start) ++ 47 :: cString (field header 0 100))
    rw [bufferText_append_cons (by decide), ← hstart]
    rfl

theorem length_field (header : Bytes) (start length : ℕ) :
    (field header start length).length ≤ length :=
  List.length_take_le _ _

theorem verifyTarChecksum_eq_ok_iff {header : Bytes}
    (hplain : isPlainNumber (field header 148 8) = true) {u : Unit} :
    verifyTarChecksum header = .ok u ↔
      ustarNumber (field header 148 8) = some (headerSum header) := by
  rw [verifyTarChecksum, except_bind_eq_ok_iff]
  constructor
  · rintro ⟨expected, hexpected, h⟩
    rw [parseTarOctal_eq_ok_iff hplain ((length_field _ _ _).trans (by decide))] at hexpected
    rw [hexpected, not_not.mp (check_then_eq_ok_iff.mp h).1]
  · intro h
    refine ⟨headerSum header, ?_, ?_⟩
    · rwa [parseTarOctal_eq_ok_iff hplain ((length_field _ _ _).trans (by decide))]
    · rw [if_neg (not_not.mpr rfl)]
      rfl

/-- The entry of a header. -/
structure ReadsHeader (limits : ArchiveLimits) (w : ArchiveWalk) (header rest : Bytes) (size : ℕ) :
    Prop where
  checksum : ustarNumber (field header 148 8) = some (headerSum header)
  number : ustarNumber (field header 124 12) = some size
  type : ustarType header = 48 ∨ ustarType header = 53
  path : isCanonical (ustarPath header) (ustarType header = 53) = true
  link : cString (field header 157 100) = []
  directory : ustarType header = 53 → size = 0
  files : (w.files : ℤ) + 1 ≤ limits.maxFiles
  bytes : (w.payloadBytes : ℤ) + size ≤ limits.maxBytes
  stored : paddedSize size ≤ rest.length

/-- The walk behind a header. -/
def ArchiveWalk.behind (w : ArchiveWalk) (header rest : Bytes) (size : ℕ) : ArchiveWalk :=
  { w with
    rest := rest.drop (paddedSize size)
    files := w.files + 1
    payloadBytes := w.payloadBytes + size
    seen := w.seen ++ [⟨bufferText (ustarPath header), ustarType header, size⟩] }

theorem entry_eq_ok_iff {limits : ArchiveLimits} {w w' : ArchiveWalk} {header rest : Bytes}
    (hchecksum : isPlainNumber (field header 148 8) = true)
    (hsize : isPlainNumber (field header 124 12) = true) :
    w.entry limits header rest = .ok w' ↔
      ∃ size, ReadsHeader limits w header rest size ∧ w' = w.behind header rest size := by
  have hnumber : ∀ n, parseTarOctal (field header 124 12) "size" = .ok n ↔
      ustarNumber (field header 124 12) = some n :=
    fun n ↦ parseTarOctal_eq_ok_iff hsize (length_field _ _ _)
  simp only [ArchiveWalk.entry, except_bind_eq_ok_iff, check_then_eq_ok_iff,
    verifyTarChecksum_eq_ok_iff hchecksum, path_eq, hnumber]
  constructor
  · rintro ⟨_, hsum, htype, _, hpath, hlink, size, hnum, hdirectory, hlimits, hstored, hw⟩
    obtain ⟨hfiles, hbytes⟩ := not_or.mp hlimits
    refine ⟨size, ⟨hsum, hnum, ?_, validateArchivePath_eq_ok_iff.mp hpath,
      tarString_eq_nil.mp (not_not.mp hlink), fun h ↦ ?_, not_lt.mp hfiles, not_lt.mp hbytes,
      not_lt.mp hstored⟩, (Except.ok.inj hw).symm⟩
    · by_contra hne
      exact htype (not_or.mp hne)
    · by_contra hne
      exact hdirectory ⟨h, hne⟩
  · rintro ⟨size, h, rfl⟩
    exact ⟨(), h.checksum, fun hne ↦ h.type.elim hne.1 hne.2, (),
      validateArchivePath_eq_ok_iff.mpr h.path, not_not.mpr (tarString_eq_nil.mpr h.link), size,
      h.number, fun hne ↦ hne.2 (h.directory hne.1),
      not_or.mpr ⟨not_lt.mpr h.files, not_lt.mpr h.bytes⟩, not_lt.mpr h.stored, rfl⟩

/-- What a header stores, where the validator takes it. -/
theorem ReadsHeader.stored_eq {limits : ArchiveLimits} {w : ArchiveWalk} {header rest : Bytes}
    {size : ℕ} (h : ReadsHeader limits w header rest size) :
    (if storesPayload (ustarType header) then size else 0) = size := by
  rcases h.type with hfile | hdirectory
  · rw [hfile]
    rfl
  · rw [h.directory hdirectory, ite_self]

/-! ## The walk -/

/-- An entry as the validator sees it. -/
def UstarEntry.seen (e : UstarEntry) : SeenEntry := ⟨bufferText e.path, e.typeflag, e.size⟩

/-- One walk is another behind some entries. -/
structure Walked (w : ArchiveWalk) (entries : List UstarEntry) (w' : ArchiveWalk) : Prop where
  files : w'.files = w.files + entries.length
  bytes : w'.payloadBytes = w.payloadBytes + payloadOf entries
  seen : w'.seen = w.seen ++ entries.map UstarEntry.seen

/-- The entry of a header that is read. -/
def entryOf (header rest : Bytes) (size stored : ℕ) : UstarEntry :=
  ⟨ustarPath header, ustarType header, cString (field header 157 100), size, rest.take stored⟩

theorem payloadOf_cons (e : UstarEntry) (entries : List UstarEntry) :
    payloadOf (e :: entries) = e.payload.length + payloadOf entries := by
  rw [payloadOf, List.map_cons, List.sum_cons, payloadOf]

theorem le_paddedSize (size : ℕ) : size ≤ paddedSize size := by
  rw [paddedSize]
  omega

section Walk

variable {limits : ArchiveLimits} {w w' : ArchiveWalk} {header rest : Bytes} {size : ℕ}
  {entries : List UstarEntry} {trailer : Bytes}

theorem ReadsHeader.ordinary (h : ReadsHeader limits w header rest size) :
    (entryOf header rest size size).Ordinary :=
  ⟨h.type, h.link, h.path, h.directory⟩

theorem ReadsHeader.length_payload (h : ReadsHeader limits w header rest size) :
    (entryOf header rest size size).payload.length = size :=
  List.length_take_of_le ((le_paddedSize size).trans h.stored)

theorem ReadsHeader.walked (h : ReadsHeader limits w header rest size)
    (hrest : Walked (w.behind header rest size) entries w') :
    Walked w (entryOf header rest size size :: entries) w' := by
  constructor
  · rw [hrest.files, List.length_cons, ArchiveWalk.behind]
    dsimp only
    omega
  · rw [hrest.bytes, payloadOf_cons, h.length_payload]
    exact Nat.add_assoc ..
  · rw [hrest.seen]
    exact List.append_assoc ..

/-- A header that is read. -/
theorem readUstar_succ {n : ℕ} {archive : Bytes} (hlength : 512 ≤ archive.length)
    (hblock : isZeroBlock (archive.take 512) = false) :
    readUstar (n + 1) archive = some (entries, trailer) ↔
      ∃ size stored rest', ustarNumber (field (archive.take 512) 148 8) =
          some (headerSum (archive.take 512)) ∧
        ustarNumber (field (archive.take 512) 124 12) = some size ∧
        stored = (if storesPayload (ustarType (archive.take 512)) then size else 0) ∧
        paddedSize stored ≤ (archive.drop 512).length ∧
        readUstar n ((archive.drop 512).drop (paddedSize stored)) = some (rest', trailer) ∧
        entries = entryOf (archive.take 512) (archive.drop 512) size stored :: rest' := by
  rw [readUstar, if_neg (not_lt.mpr hlength), if_neg (by simp [hblock])]
  by_cases hsum : ustarNumber (field (archive.take 512) 148 8) = some (headerSum (archive.take 512))
  swap
  · rw [if_pos hsum]
    exact iff_of_false nofun fun ⟨_, _, _, h, _⟩ ↦ hsum h
  rw [if_neg (not_not.mpr hsum)]
  rcases hsize : ustarNumber (field (archive.take 512) 124 12) with _ | size
  · exact iff_of_false nofun fun ⟨_, _, _, _, h, _⟩ ↦ absurd h nofun
  generalize hstored : (if storesPayload (ustarType (archive.take 512)) then size else 0) = stored
  by_cases hfits : paddedSize stored ≤ (archive.drop 512).length
  · dsimp only
    rw [hstored, if_neg (not_lt.mpr hfits), Option.map_eq_some_iff]
    constructor
    · rintro ⟨⟨rest', trailer'⟩, hread, h⟩
      obtain ⟨rfl, rfl⟩ := Prod.mk.inj h
      exact ⟨size, stored, rest', hsum, rfl, hstored.symm, hfits, hread, rfl⟩
    · rintro ⟨size', stored', rest', -, hsize', rfl, -, hread, rfl⟩
      obtain rfl := Option.some.inj hsize'
      rw [hstored] at hread
      exact ⟨(rest', trailer), hread, by rw [hstored]; rfl⟩
  · dsimp only
    rw [hstored, if_pos (not_le.mp hfits)]
    refine iff_of_false nofun ?_
    rintro ⟨size', stored', rest', -, hsize', rfl, hfits', -⟩
    obtain rfl := Option.some.inj hsize'
    rw [hstored] at hfits'
    exact hfits hfits'

/-- A header of which the numbers are plain, and what is plain behind it. -/
theorem plainNumbers_succ {n : ℕ} {archive : Bytes} (hlength : 512 ≤ archive.length)
    (hblock : isZeroBlock (archive.take 512) = false) (h : plainNumbers (n + 1) archive = true) :
    isPlainNumber (field (archive.take 512) 148 8) = true ∧
      isPlainNumber (field (archive.take 512) 124 12) = true ∧
        ∀ size, ustarNumber (field (archive.take 512) 124 12) = some size →
          plainNumbers n ((archive.drop 512).drop
            (paddedSize (if storesPayload (ustarType (archive.take 512)) then size else 0))) =
              true := by
  rw [plainNumbers, if_neg (not_lt.mpr hlength), if_neg (by simp [hblock]), Bool.and_eq_true,
    Bool.and_eq_true] at h
  refine ⟨h.1.1, h.1.2, fun size hsize ↦ ?_⟩
  have hrest := h.2
  rw [hsize] at hrest
  exact hrest

/-- The second block of the end of an archive. -/
theorem loop_end {n : ℕ} (hend : w.endBlocks = 1) (hloop : ArchiveWalk.loop limits n w = .ok w')
    (hdone : w'.endBlocks = 2) : 512 ≤ w.rest.length ∧ isZeroBlock (w.rest.take 512) = true ∧
      w' = { w with rest := w.rest.drop 512, endBlocks := 2 } := by
  have hstays : w = w' → False := fun h ↦ by
    rw [← h, hend] at hdone
    exact absurd hdone (by decide)
  rcases n with _ | n
  · exact (hstays (Except.ok.inj hloop)).elim
  by_cases hshort : w.rest.length < 512
  · rw [ArchiveWalk.loop, if_pos hshort] at hloop
    exact (hstays (Except.ok.inj hloop)).elim
  by_cases hzero : isZeroBlock (w.rest.take 512) = true
  · rw [ArchiveWalk.loop, if_neg hshort, if_pos hzero, if_pos (by rw [hend])] at hloop
    exact ⟨not_lt.mp hshort, hzero, (Except.ok.inj hloop).symm⟩
  · rw [ArchiveWalk.loop, if_neg hshort, if_neg hzero, if_pos (by rw [hend]; decide)] at hloop
    exact absurd hloop nofun

theorem endBlocks_of_entry (h : w.entry limits header rest = .ok w') :
    w'.endBlocks = w.endBlocks := by
  simp only [ArchiveWalk.entry, except_bind_eq_ok_iff, check_then_eq_ok_iff] at h
  obtain ⟨_, -, -, _, -, -, size, -, -, -, -, hw⟩ := h
  rw [← Except.ok.inj hw]

/-- The loop ends with the second end block. -/
theorem endBlocks_of_loop {n : ℕ} (hend : w.endBlocks ≤ 1)
    (hloop : ArchiveWalk.loop limits n w = .ok w') : w'.endBlocks ≤ 2 := by
  induction n generalizing w with
  | zero => exact Except.ok.inj hloop ▸ hend.trans one_le_two
  | succ n ih =>
    rw [ArchiveWalk.loop] at hloop
    dsimp only at hloop
    split_ifs at hloop with hshort hzero hsecond hdata
    · exact Except.ok.inj hloop ▸ hend.trans one_le_two
    · exact Except.ok.inj hloop ▸ le_refl 2
    · exact ih (by dsimp only; omega) hloop
    · obtain ⟨next, hentry, hloop⟩ := except_bind_eq_ok_iff.mp hloop
      exact ih (by rw [endBlocks_of_entry hentry]; exact hend) hloop

/-- **What the validator accepts, a reader reads**, by induction on the headers. -/
theorem reads_of_loop {n : ℕ} (hplain : plainNumbers n w.rest = true) (hend : w.endBlocks = 0)
    (hloop : ArchiveWalk.loop limits n w = .ok w') (hdone : w'.endBlocks = 2) :
    ∃ entries, readUstar n w.rest = some (entries, w'.rest) ∧ Walked w entries w' ∧
      (∀ e ∈ entries, e.Ordinary) ∧
      ((w.files : ℤ) ≤ limits.maxFiles → (w'.files : ℤ) ≤ limits.maxFiles) ∧
      ((w.payloadBytes : ℤ) ≤ limits.maxBytes → (w'.payloadBytes : ℤ) ≤ limits.maxBytes) := by
  have hstays : ∀ {v : ArchiveWalk}, v.endBlocks = 0 → v = w' → False := fun hv h ↦ by
    rw [← h, hv] at hdone
    exact absurd hdone (by decide)
  induction n generalizing w with
  | zero => exact (hstays hend (Except.ok.inj hloop)).elim
  | succ n ih =>
    by_cases hshort : w.rest.length < 512
    · rw [ArchiveWalk.loop, if_pos hshort] at hloop
      exact (hstays hend (Except.ok.inj hloop)).elim
    by_cases hzero : isZeroBlock (w.rest.take 512) = true
    · -- the end of the archive
      rw [ArchiveWalk.loop, if_neg hshort, if_pos hzero, if_neg (by rw [hend]; decide)] at hloop
      obtain ⟨hlength, hblock, rfl⟩ := loop_end (congrArg (· + 1) hend) hloop hdone
      refine ⟨[], ?_, ⟨rfl, rfl, (List.append_nil _).symm⟩, nofun, id, id⟩
      rw [readUstar, if_neg hshort, if_pos hzero, if_pos ⟨hlength, hblock⟩]
    · rw [ArchiveWalk.loop, if_neg hshort, if_neg hzero, if_neg (by rw [hend]; decide)] at hloop
      have hblock := Bool.eq_false_iff.mpr hzero
      obtain ⟨hchecksum, hsize, hrest⟩ := plainNumbers_succ (not_lt.mp hshort) hblock hplain
      obtain ⟨next, hentry, hloop⟩ := except_bind_eq_ok_iff.mp hloop
      obtain ⟨size, hheader, rfl⟩ := (entry_eq_ok_iff hchecksum hsize).mp hentry
      have hplain' := hrest size hheader.number
      rw [hheader.stored_eq] at hplain'
      obtain ⟨entries, hread, hwalked, hordinary, hfiles, hbytes⟩ :=
        ih (w := w.behind _ _ size) hplain' hend hloop
      refine ⟨_ :: entries, (readUstar_succ (not_lt.mp hshort) hblock).mpr ⟨size, size, entries,
        hheader.checksum, hheader.number, hheader.stored_eq.symm, hheader.stored, hread, rfl⟩,
        hheader.walked hwalked, List.forall_mem_cons.mpr ⟨hheader.ordinary, hordinary⟩,
        fun _ ↦ hfiles ?_, fun _ ↦ hbytes ?_⟩
      · rw [ArchiveWalk.behind, Nat.cast_add, Nat.cast_one]
        exact hheader.files
      · rw [ArchiveWalk.behind, Nat.cast_add]
        exact hheader.bytes

/-- **What a reader reads, and may be there, the validator accepts.** -/
theorem loop_of_reads {n : ℕ} (hplain : plainNumbers n w.rest = true) (hend : w.endBlocks = 0)
    (hrounds : w.rest.length < 512 * (n + 1)) (hread : readUstar n w.rest = some (entries, trailer))
    (hordinary : ∀ e ∈ entries, e.Ordinary)
    (hfiles : (w.files + entries.length : ℤ) ≤ limits.maxFiles)
    (hbytes : (w.payloadBytes + payloadOf entries : ℤ) ≤ limits.maxBytes) :
    ∃ w', ArchiveWalk.loop limits n w = .ok w' ∧ w'.rest = trailer ∧ w'.endBlocks = 2 ∧
      Walked w entries w' := by
  induction n generalizing w entries with
  | zero => exact absurd hread nofun
  | succ n ih =>
    by_cases hshort : w.rest.length < 512
    · rw [readUstar, if_pos hshort] at hread
      exact absurd hread nofun
    rw [ArchiveWalk.loop, if_neg hshort]
    by_cases hzero : isZeroBlock (w.rest.take 512) = true
    · rw [readUstar, if_neg hshort, if_pos hzero] at hread
      split_ifs at hread with hsecond
      obtain ⟨rfl, rfl⟩ := Prod.mk.inj (Option.some.inj hread)
      rw [if_pos hzero, if_neg (by rw [hend]; decide)]
      -- there is a round for the second block
      rcases n with _ | n
      · have hlength := hsecond.1
        rw [List.length_drop] at hlength
        omega
      · rw [ArchiveWalk.loop, if_neg (not_lt.mpr hsecond.1), if_pos hsecond.2,
          if_pos (by rw [hend])]
        exact ⟨_, rfl, rfl, rfl, rfl, rfl, (List.append_nil _).symm⟩
    · have hblock := Bool.eq_false_iff.mpr hzero
      obtain ⟨hchecksum, hsize, hrest⟩ := plainNumbers_succ (not_lt.mp hshort) hblock hplain
      obtain ⟨size, stored, rest', hsum, hnumber, rfl, hfits, hbehind, rfl⟩ :=
        (readUstar_succ (not_lt.mp hshort) hblock).mp hread
      obtain ⟨hfirst, hordinary⟩ := List.forall_mem_cons.mp hordinary
      have hstored : (if storesPayload (ustarType (w.rest.take 512)) then size else 0) = size := by
        rcases hfirst.type with hfile | hdirectory
        · rw [show ustarType (w.rest.take 512) = 48 from hfile]
          rfl
        · rw [show size = 0 from hfirst.size hdirectory, ite_self]
      rw [hstored] at hfits hbehind hfiles hbytes ⊢
      rw [List.length_cons] at hfiles
      rw [payloadOf_cons] at hbytes
      have hpayload :
          (entryOf (w.rest.take 512) (w.rest.drop 512) size size).payload.length = size :=
        List.length_take_of_le ((le_paddedSize size).trans hfits)
      rw [hpayload] at hbytes
      push_cast at hfiles hbytes
      have hheader : ReadsHeader limits w (w.rest.take 512) (w.rest.drop 512) size :=
        ⟨hsum, hnumber, hfirst.type, hfirst.path, hfirst.link, hfirst.size, by omega, by omega,
          hfits⟩
      have hplain' := hrest size hnumber
      rw [hstored] at hplain'
      have hlength : ((w.rest.drop 512).drop (paddedSize size)).length < 512 * (n + 1) := by
        rw [List.length_drop, List.length_drop]
        omega
      obtain ⟨w', hloop, hend', hdone, hwalked⟩ := ih
        (w := w.behind (w.rest.take 512) (w.rest.drop 512) size) hplain' hend hlength
        hbehind hordinary (by rw [ArchiveWalk.behind]; push_cast; omega)
        (by rw [ArchiveWalk.behind]; push_cast; omega)
      refine ⟨w', ?_, hend', hdone, hheader.walked hwalked⟩
      rw [if_neg hzero, if_neg (by rw [hend]; decide)]
      exact except_bind_eq_ok_iff.mpr
        ⟨_, (entry_eq_ok_iff hchecksum hsize).mpr ⟨size, hheader, rfl⟩, hloop⟩

theorem length_rest_of_entry (h : w.entry limits header rest = .ok w') :
    w'.rest.length ≤ rest.length := by
  simp only [ArchiveWalk.entry, except_bind_eq_ok_iff, check_then_eq_ok_iff] at h
  obtain ⟨_, -, -, _, -, -, size, -, -, -, -, hw⟩ := h
  rw [← Except.ok.inj hw, List.length_drop]
  exact Nat.sub_le _ _

/-- More rounds than there are blocks change nothing: the loop ends by itself. -/
theorem loop_succ {n : ℕ} (hrounds : w.rest.length < 512 * (n + 1)) :
    ArchiveWalk.loop limits (n + 1) w = ArchiveWalk.loop limits n w := by
  induction n generalizing w with
  | zero => rw [ArchiveWalk.loop, ArchiveWalk.loop, if_pos (by omega)]
  | succ n ih =>
    by_cases hshort : w.rest.length < 512
    · rw [ArchiveWalk.loop, if_pos hshort, ArchiveWalk.loop, if_pos hshort]
    have hdrop : (w.rest.drop 512).length < 512 * (n + 1) := by
      rw [List.length_drop]
      omega
    rw [ArchiveWalk.loop, if_neg hshort, ArchiveWalk.loop.eq_2 limits w n, if_neg hshort]
    by_cases hzero : isZeroBlock (w.rest.take 512) = true
    · rw [if_pos hzero, if_pos hzero]
      by_cases hsecond : w.endBlocks + 1 = 2
      · rw [if_pos hsecond, if_pos hsecond]
      · rw [if_neg hsecond, if_neg hsecond, ih hdrop]
    · rw [if_neg hzero, if_neg hzero]
      by_cases hdata : 0 < w.endBlocks
      · rw [if_pos hdata, if_pos hdata]
      · rw [if_neg hdata, if_neg hdata]
        rcases hentry : w.entry limits (w.rest.take 512) (w.rest.drop 512) with e | next
        · rfl
        · exact ih ((length_rest_of_entry hentry).trans_lt hdrop)

end Walk

/-! ## The validator -/

/-- The limits that entries and what is behind them have to meet. -/
structure Admits (limits : ArchiveLimits) (entries : List UstarEntry) (trailer : Bytes) : Prop where
  files : (entries.length : ℤ) ≤ limits.maxFiles
  bytes : (payloadOf entries : ℤ) ≤ limits.maxBytes
  trailer : ∀ b ∈ trailer, b = 0

/-- **What the validator is for.** -/
structure Validates (archive : Bytes) (limits : ArchiveLimits) : Prop where
  /-- The loop ends by itself. -/
  terminates : ∀ rounds, archive.length / 512 ≤ rounds →
    ArchiveWalk.loop limits rounds { rest := archive } =
      ArchiveWalk.loop limits (archive.length / 512) { rest := archive }
  /-- What is accepted is what a reader sees, and may be extracted. -/
  sound : ∀ w, validateArchiveEntries archive limits = .ok w →
    ∃ entries trailer, ustarEntries archive = some (entries, trailer) ∧
      w.seen = entries.map UstarEntry.seen ∧ w.files = entries.length ∧
      w.payloadBytes = payloadOf entries ∧ Admits limits entries trailer ∧
      ∀ e ∈ entries, e.Ordinary ∧ (e.path ≠ [47] → e.Confined)
  /-- What a reader sees of ordinary entries is accepted. -/
  complete : limits.valid = true → archive.length % 512 = 0 → ∀ entries trailer,
    ustarEntries archive = some (entries, trailer) → Admits limits entries trailer →
      (∀ e ∈ entries, e.Ordinary) → ∃ w, validateArchiveEntries archive limits = .ok w ∧
        w.files = entries.length ∧ w.payloadBytes = payloadOf entries

theorem UstarEntry.Ordinary.confined {e : UstarEntry} (h : e.Ordinary) (hroot : e.path ≠ [47]) :
    e.Confined := by
  obtain ⟨hrelative, hwithin⟩ := (confined_of_isCanonical h.path).resolve_left hroot
  exact ⟨h.type, h.link, hrelative, hwithin⟩

theorem ArchiveLimits.nonneg_of_valid {limits : ArchiveLimits} (h : limits.valid = true) :
    0 ≤ limits.maxBytes ∧ 0 ≤ limits.maxFiles := by
  simp only [ArchiveLimits.valid, Bool.and_eq_true, decide_eq_true_iff] at h
  exact ⟨h.1.1.1, zero_le_one.trans h.1.2⟩

theorem validateArchiveEntries_eq_ok_iff {archive : Bytes} {limits : ArchiveLimits}
    {w : ArchiveWalk} : validateArchiveEntries archive limits = .ok w ↔
      limits.valid = true ∧ archive.length % 512 = 0 ∧
        ArchiveWalk.loop limits (archive.length / 512) { rest := archive } = .ok w ∧
        2 ≤ w.endBlocks ∧ ∀ b ∈ w.rest, b = 0 := by
  simp only [validateArchiveEntries, except_bind_eq_ok_iff, check_then_eq_ok_iff, not_or, not_lt,
    Bool.or_eq_true, Bool.not_eq_true', decide_eq_true_iff, Bool.not_eq_false, not_not,
    List.any_eq_true, not_exists, not_and]
  constructor
  · rintro ⟨⟨hvalid, hblocks⟩, w', hloop, ⟨hend, hzero⟩, hw⟩
    obtain rfl := Except.ok.inj hw
    exact ⟨hvalid, hblocks, hloop, hend, hzero⟩
  · rintro ⟨hvalid, hblocks, hloop, hend, hzero⟩
    exact ⟨⟨hvalid, hblocks⟩, w, hloop, ⟨hend, hzero⟩, rfl⟩

/-- **The validator agrees with a reader** on every archive whose numbers are plain. -/
theorem validates_of_plainNumbers (archive : Bytes) (limits : ArchiveLimits)
    (hplain : plainNumbers (archive.length / 512) archive = true) : Validates archive limits where
  terminates rounds hrounds := by
    induction rounds, hrounds using Nat.le_induction with
    | base => rfl
    | succ rounds hrounds ih =>
      rw [loop_succ (by dsimp only; omega), ih]
  sound w h := by
    obtain ⟨hvalid, -, hloop, hend, hzero⟩ := validateArchiveEntries_eq_ok_iff.mp h
    have hdone := (endBlocks_of_loop (Nat.zero_le 1) hloop).antisymm hend
    obtain ⟨entries, hread, hwalked, hordinary, hfiles, hbytes⟩ :=
      reads_of_loop (w := { rest := archive }) hplain rfl hloop hdone
    obtain ⟨hlowBytes, hlowFiles⟩ := ArchiveLimits.nonneg_of_valid hvalid
    refine ⟨entries, w.rest, hread, hwalked.seen, ?_, ?_, ?_, fun e he ↦
      ⟨hordinary e he, (hordinary e he).confined⟩⟩
    · rw [hwalked.files, Nat.zero_add]
    · rw [hwalked.bytes, Nat.zero_add]
    · refine ⟨?_, ?_, hzero⟩
      · simpa [hwalked.files] using hfiles hlowFiles
      · simpa [hwalked.bytes] using hbytes hlowBytes
  complete hvalid hblocks entries trailer hread hadmits hordinary := by
    obtain ⟨w, hloop, rfl, hend, hwalked⟩ := loop_of_reads (w := { rest := archive }) hplain rfl
      (by dsimp only; omega) hread hordinary (by simpa using hadmits.files)
      (by simpa using hadmits.bytes)
    refine ⟨w, validateArchiveEntries_eq_ok_iff.mpr
      ⟨hvalid, hblocks, hloop, hend.ge, hadmits.trailer⟩, ?_, ?_⟩
    · rw [hwalked.files, Nat.zero_add]
    · rw [hwalked.bytes, Nat.zero_add]

/-! ## Three archives -/

/-- The octal digits of a number, in some places. -/
def octalDigits : ℕ → ℕ → Bytes
  | 0, _ => []
  | places + 1, n => octalDigits places (n / 8) ++ [UInt8.ofNat (48 + n % 8)]

/-- Bytes that are filled up with NULs. -/
def padded (length : ℕ) (bytes : Bytes) : Bytes := bytes ++ .replicate (length - bytes.length) 0

/-- A header with its checksum. -/
def archiveHeader (name size : Bytes) (typeflag : UInt8) (link : Bytes) : Bytes :=
  let front := padded 124 name ++ padded 24 size
  let back := typeflag :: padded 355 link
  front ++ octalDigits 6 (headerSum (front ++ .replicate 8 0 ++ back)) ++ [0, 32] ++ back

/-- The two blocks at the end of an archive. -/
def endMarker : Bytes := .replicate 1024 0

/-- A directory `a` and in it a file of three bytes. -/
def plainArchive : Bytes :=
  archiveHeader [97, 47] (octalDigits 11 0) 53 [] ++
    archiveHeader [97, 47, 98] (octalDigits 11 3) 48 [] ++ padded 512 [120, 121, 122] ++ endMarker

/-- An empty file `a//b`. -/
def doubledSlash : Bytes := archiveHeader [97, 47, 47, 98] (octalDigits 11 0) 48 [] ++ endMarker

/-- A file of the size `0`, behind which are a NUL and more digits, and a link to `/`. -/
def hiddenLink : Bytes :=
  archiveHeader [97] ([48, 0] ++ octalDigits 4 512) 48 [] ++
    archiveHeader [98] (octalDigits 11 0) 50 [47] ++ endMarker

theorem validates_plainArchive : Validates plainArchive { maxBytes := 1024 } :=
  validates_of_plainNumbers _ _ (by decide +kernel)

/-- A path that a reader takes is refused, and digits behind a NUL hide a link in what is skipped as
the payload of a file. -/
theorem not_validates :
    ((∃ entries, ustarEntries doubledSlash = some (entries, []) ∧ (∀ e ∈ entries, e.Confined) ∧
        Admits { maxBytes := 1024 } entries []) ∧
      ∀ w, validateArchiveEntries doubledSlash { maxBytes := 1024 } ≠ .ok w) ∧
    (∃ entries, ustarEntries hiddenLink = some (entries, []) ∧ ∃ e ∈ entries, ¬e.Confined) ∧
      ∃ w, validateArchiveEntries hiddenLink { maxBytes := 1024 } = .ok w ∧ w.files = 1 := by
  refine ⟨⟨⟨[⟨[97, 47, 47, 98], 48, [], 0, []⟩], by decide +kernel, by decide +kernel,
    ⟨by decide, by decide, nofun⟩⟩, fun w hw ↦ ?_⟩,
    ⟨[⟨[97], 48, [], 0, []⟩, ⟨[98], 50, [47], 0, []⟩], by decide +kernel, by decide +kernel⟩, ?_⟩
  · have hrefused : (validateArchiveEntries doubledSlash { maxBytes := 1024 }).isOk = false := by
      decide +kernel
    rw [hw] at hrefused
    exact absurd hrefused nofun
  · have hfiles : (validateArchiveEntries hiddenLink { maxBytes := 1024 }).map
        (fun w ↦ w.files) = .ok 1 := by decide +kernel
    rcases haccepted : validateArchiveEntries hiddenLink { maxBytes := 1024 } with e | w
    · rw [haccepted] at hfiles
      exact absurd hfiles nofun
    · rw [haccepted] at hfiles
      exact ⟨w, rfl, Except.ok.inj hfiles⟩

end LiteHarness.Workspace
