import LiteHarness.Foundation.SelfDelimiting

/-!
# JavaScript strings

A JavaScript string is a sequence of UTF-16 code units, and `length`, the default `sort` order and
`indexOf` all count code units. Identifiers and idempotency keys reach the program from JSON, so
lone surrogates are possible and no well-formedness is assumed.

`js` turns a source-text literal into its code units; `decimal` is the template-literal rendering
of a non-negative integer; `stringLiteral` is `JSON.stringify` on a string, with the surrogate
escapes of well-formed `JSON.stringify`.
-/

namespace LiteHarness

open Foundation

/-! ## Decisions along a text

What holds of all units of a text is decided along the text, not over all the units there are. -/

section

variable {α : Type*} (p : α → Prop) [DecidablePred p]

instance (priority := 1100) decidableForallMem (l : List α) : Decidable (∀ a ∈ l, p a) :=
  List.decidableBAll p l

instance (priority := 1100) decidableExistsMem (l : List α) : Decidable (∃ a ∈ l, p a) :=
  List.decidableBEx p l

instance (priority := 1100) decidableForallMemOption (o : Option α) : Decidable (∀ a ∈ o, p a) :=
  Option.decidableForallMem o

instance (priority := 1100) decidableExistsMemOption (o : Option α) :
    Decidable (∃ a ∈ o, p a) :=
  Option.decidableExistsMem o

end

/-! ## Strings -/

/-- A JavaScript string, as its UTF-16 code units. -/
abbrev JsString := List UInt16

instance : LawfulBEq JsString := List.instLawfulBEq

/-- The UTF-16 code units of one Unicode scalar value. -/
def utf16Units (c : Char) : JsString :=
  let v := c.toNat
  if v < 0x10000 then [UInt16.ofNat v]
  else [UInt16.ofNat (0xD800 + (v - 0x10000) / 0x400), UInt16.ofNat (0xDC00 + (v - 0x10000) % 0x400)]

/-- A string literal of the source text. -/
def js (s : String) : JsString := s.toList.flatMap utf16Units

/-! ## Lines -/

/-- `text.split(/\r?\n/)`. -/
def splitLines : JsString → List JsString
  | [] => [[]]
  | 13 :: 10 :: rest => [] :: splitLines rest
  | 10 :: rest => [] :: splitLines rest
  | u :: rest =>
    match splitLines rest with
    | line :: lines => (u :: line) :: lines
    | [] => [[u]]

/-! ## Decimal numerals -/

/-- The code unit of an ASCII character. -/
def asciiUnit (c : Char) : UInt16 := UInt16.ofNat c.toNat

/-- `${n}` for a non-negative integer. -/
def decimal (n : ℕ) : JsString := (Nat.toDigits 10 n).map asciiUnit

theorem isDigit_toNat {c : Char} (h : c.isDigit) : 48 ≤ c.toNat ∧ c.toNat ≤ 57 := by
  simp only [Char.isDigit, Bool.and_eq_true, decide_eq_true_eq, ge_iff_le, UInt32.le_iff_toNat_le]
    at h
  exact h

theorem asciiUnit_toNat {c : Char} (h : c.isDigit) : (asciiUnit c).toNat = c.toNat := by
  have hc := isDigit_toNat h
  rw [asciiUnit, UInt16.toNat_ofNat']
  omega

theorem decimal_injective : Function.Injective decimal := by
  intro n m h
  have hback : ∀ k, (decimal k).map (fun u ↦ Char.ofNat u.toNat) = Nat.toDigits 10 k := by
    intro k
    rw [decimal, List.map_map]
    refine (List.map_congr_left fun c hc ↦ ?_).trans (List.map_id _)
    have hd : c.isDigit := Nat.isDigit_of_mem_toDigits (by norm_num) le_rfl hc
    rw [Function.comp_apply, asciiUnit_toNat hd, Char.ofNat_toNat, id_eq]
  have hdigits : Nat.toDigits 10 n = Nat.toDigits 10 m := by rw [← hback n, ← hback m, h]
  rw [← Nat.ofDigitChars_ten_toDigits (n := n), hdigits, Nat.ofDigitChars_ten_toDigits]

theorem decimal_unit {n : ℕ} {u : UInt16} (h : u ∈ decimal n) : 48 ≤ u.toNat ∧ u.toNat ≤ 57 := by
  obtain ⟨c, hc, rfl⟩ := List.mem_map.mp h
  have hd : c.isDigit := Nat.isDigit_of_mem_toDigits (by norm_num) le_rfl hc
  rw [asciiUnit_toNat hd]
  exact isDigit_toNat hd

/-- The code unit of `':'`. -/
abbrev colon : UInt16 := 58

theorem ne_colon_of_mem_decimal {n : ℕ} {u : UInt16} (h : u ∈ decimal n) : u ≠ colon := by
  rintro rfl
  exact absurd (decimal_unit h).2 (by decide)

/-- `${w.length}:${w}`. -/
abbrev sized (w : JsString) : JsString := lengthPrefixed decimal colon w

theorem sized_append_inj {w v s t : JsString} (h : sized w ++ s = sized v ++ t) : w = v ∧ s = t :=
  lengthPrefixed_delimited (fun _ _ ↦ ne_colon_of_mem_decimal) decimal_injective w v trivial s t
    (startsIn_of_forall (fun _ ↦ trivial) s) (startsIn_of_forall (fun _ ↦ trivial) t) h

/-! ## String literals

`JSON.stringify` escapes the quote, the backslash, the control characters and every surrogate that
is not part of a pair. The reader below undoes it one unit at a time, which is all that is needed
to see that a literal can be read off the front of any text. -/

abbrev quote : UInt16 := 34
abbrev backslash : UInt16 := 92

def isLead (u : UInt16) : Bool := 0xD800 ≤ u.toNat && u.toNat ≤ 0xDBFF
def isTrail (u : UInt16) : Bool := 0xDC00 ≤ u.toNat && u.toNat ≤ 0xDFFF

/-- A lowercase hexadecimal digit. -/
def hexDigit (n : ℕ) : UInt16 := UInt16.ofNat (if n < 10 then 48 + n else 87 + n)

def hexValue (u : UInt16) : ℕ := if u.toNat < 58 then u.toNat - 48 else u.toNat - 87

theorem hexValue_hexDigit {n : ℕ} (h : n < 16) : hexValue (hexDigit n) = n := by
  have hall : ∀ k < 16, hexValue (hexDigit k) = k := by decide
  exact hall n h

/-- `\uXXXX`. -/
def unicodeEscape (u : UInt16) : JsString :=
  [backslash, 117, hexDigit (u.toNat / 4096), hexDigit (u.toNat / 256 % 16),
    hexDigit (u.toNat / 16 % 16), hexDigit (u.toNat % 16)]

/-- The two-character escapes, by the unit they stand for. -/
def shortEscape? (u : UInt16) : Option UInt16 :=
  if u = 8 then some 98
  else if u = 9 then some 116
  else if u = 10 then some 110
  else if u = 12 then some 102
  else if u = 13 then some 114
  else if u = quote then some quote
  else if u = backslash then some backslash
  else none

def unescape (e : UInt16) : UInt16 :=
  if e = 98 then 8
  else if e = 116 then 9
  else if e = 110 then 10
  else if e = 102 then 12
  else if e = 114 then 13
  else e

/-- One unit outside a surrogate pair. -/
def escapeUnit (u : UInt16) : JsString :=
  match shortEscape? u with
  | some e => [backslash, e]
  | none => if u.toNat < 32 || isLead u || isTrail u then unicodeEscape u else [u]

/-- The inside of a string literal. -/
def escapeUnits : JsString → JsString
  | [] => []
  | u :: v :: rest =>
    if isLead u && isTrail v then u :: v :: escapeUnits rest
    else escapeUnit u ++ escapeUnits (v :: rest)
  | [u] => escapeUnit u

/-- `JSON.stringify(s)` for a string `s`. -/
def stringLiteral (s : JsString) : JsString := quote :: (escapeUnits s ++ [quote])

/-- Reads the inside of a string literal and its closing quote. -/
def readUnits : List UInt16 → Option (JsString × List UInt16)
  | [] => none
  | c :: rest =>
    if c = quote then some ([], rest)
    else if c = backslash then
      match rest with
      | 117 :: a :: b :: d :: e :: rest' =>
        (readUnits rest').map fun (s, t) ↦
          (UInt16.ofNat (hexValue a * 4096 + hexValue b * 256 + hexValue d * 16 + hexValue e) :: s, t)
      | e :: rest' => (readUnits rest').map fun (s, t) ↦ (unescape e :: s, t)
      | [] => none
    else (readUnits rest).map fun (s, t) ↦ (c :: s, t)

theorem readUnits_quote (t : JsString) : readUnits (quote :: t) = some ([], t) := by
  rw [readUnits.eq_def]
  simp only [if_true]

theorem readUnits_plain {u : UInt16} (hq : u ≠ quote) (hb : u ≠ backslash) (t : JsString) :
    readUnits (u :: t) = (readUnits t).map fun (s, r) ↦ (u :: s, r) := by
  rw [readUnits.eq_def]
  simp only [if_neg hq, if_neg hb]

theorem unicodeEscape_value (u : UInt16) :
    UInt16.ofNat (hexValue (hexDigit (u.toNat / 4096)) * 4096
      + hexValue (hexDigit (u.toNat / 256 % 16)) * 256
      + hexValue (hexDigit (u.toNat / 16 % 16)) * 16 + hexValue (hexDigit (u.toNat % 16))) = u := by
  have hu : u.toNat < 65536 := u.toNat_lt
  rw [hexValue_hexDigit (by omega), hexValue_hexDigit (by omega), hexValue_hexDigit (by omega),
    hexValue_hexDigit (by omega), show u.toNat / 4096 * 4096 + u.toNat / 256 % 16 * 256
      + u.toNat / 16 % 16 * 16 + u.toNat % 16 = u.toNat from by omega, UInt16.ofNat_toNat]

theorem readUnits_unicodeEscape (u : UInt16) (t : JsString) :
    readUnits (unicodeEscape u ++ t) = (readUnits t).map fun (s, r) ↦ (u :: s, r) := by
  simp only [unicodeEscape, List.cons_append, List.nil_append]
  rw [readUnits.eq_def]
  simp only [if_neg (show backslash ≠ quote by decide), if_true, unicodeEscape_value]

/-- The reader consumes one escaped unit. -/
theorem readUnits_escapeUnit (u : UInt16) (t : JsString) :
    readUnits (escapeUnit u ++ t) = (readUnits t).map fun (s, r) ↦ (u :: s, r) := by
  rw [escapeUnit]
  cases hshort : shortEscape? u with
  | some e =>
    have he : e ≠ 117 ∧ unescape e = u := by
      simp only [shortEscape?] at hshort
      split_ifs at hshort with h₁ h₂ h₃ h₄ h₅ h₆ h₇ <;> obtain rfl := Option.some.inj hshort <;>
        subst u <;> decide
    rw [List.cons_append, List.cons_append, List.nil_append, readUnits.eq_def]
    simp only [if_neg (show backslash ≠ quote by decide), if_true]
    split
    · rename_i heq
      exact absurd (List.cons.inj heq).1 he.1
    · rename_i heq
      obtain ⟨rfl, rfl⟩ := List.cons.inj heq
      rw [he.2]
    · rename_i heq
      exact absurd heq (List.cons_ne_nil _ _)
  | none =>
    have hq : u ≠ quote := by
      rintro rfl
      exact absurd hshort (by decide)
    have hb : u ≠ backslash := by
      rintro rfl
      exact absurd hshort (by decide)
    by_cases hesc : (u.toNat < 32 || isLead u || isTrail u) = true
    · simp only [if_pos hesc]
      exact readUnits_unicodeEscape u t
    · simp only [if_neg hesc, List.cons_append, List.nil_append]
      exact readUnits_plain hq hb t

theorem ne_of_isLead {u : UInt16} (h : isLead u = true) : u ≠ quote ∧ u ≠ backslash := by
  constructor <;> rintro rfl <;> exact absurd h (by decide)

theorem ne_of_isTrail {u : UInt16} (h : isTrail u = true) : u ≠ quote ∧ u ≠ backslash := by
  constructor <;> rintro rfl <;> exact absurd h (by decide)

theorem readUnits_escapeUnits (s t : JsString) :
    readUnits (escapeUnits s ++ quote :: t) = some (s, t) := by
  induction s using escapeUnits.induct with
  | case1 => rw [escapeUnits, List.nil_append, readUnits_quote]
  | case2 u v rest hpair ih =>
    rw [Bool.and_eq_true] at hpair
    rw [escapeUnits, if_pos (by rw [hpair.1, hpair.2]; rfl), List.cons_append, List.cons_append,
      readUnits_plain (ne_of_isLead hpair.1).1 (ne_of_isLead hpair.1).2,
      readUnits_plain (ne_of_isTrail hpair.2).1 (ne_of_isTrail hpair.2).2, ih]
    rfl
  | case3 u v rest hpair ih =>
    rw [escapeUnits, if_neg hpair, List.append_assoc, readUnits_escapeUnit, ih]
    rfl
  | case4 u =>
    rw [escapeUnits, readUnits_escapeUnit, readUnits_quote]
    rfl

/-- Reads a whole string literal. -/
def readLiteral : List UInt16 → Option (JsString × List UInt16)
  | [] => none
  | c :: rest => if c = quote then readUnits rest else none

theorem readLiteral_stringLiteral (s t : JsString) :
    readLiteral (stringLiteral s ++ t) = some (s, t) := by
  rw [stringLiteral, List.cons_append, List.append_assoc, readLiteral, if_pos rfl]
  exact readUnits_escapeUnits s t

/-- **A string literal is self-delimiting**, whatever follows it. -/
theorem stringLiteral_delimited (D : UInt16 → Prop) (V : JsString → Prop) (s : JsString) :
    DelimitedAt D V (· = ·) stringLiteral s :=
  delimitedAt_of_reader readLiteral readLiteral_stringLiteral s

/-! ## Lengths in bytes -/

/-- The UTF-8 bytes of one code unit; a lone surrogate is written as the replacement character. -/
def unitBytes (u : UInt16) : ℕ := if u.toNat < 0x80 then 1 else if u.toNat < 0x800 then 2 else 3

/-- `Buffer.byteLength(text)`. -/
def byteLength : JsString → ℕ
  | [] => 0
  | u :: v :: rest =>
    if isLead u && isTrail v then 4 + byteLength rest else unitBytes u + byteLength (v :: rest)
  | [u] => unitBytes u

theorem one_le_unitBytes (u : UInt16) : 1 ≤ unitBytes u := by
  rw [unitBytes]
  split_ifs <;> omega

/-- A code unit takes a byte at least. -/
theorem length_le_byteLength (s : JsString) : s.length ≤ byteLength s := by
  induction s using byteLength.induct with
  | case1 => exact Nat.zero_le _
  | case2 u v rest hpair ih =>
    rw [byteLength, if_pos hpair, List.length_cons, List.length_cons]
    omega
  | case3 u v rest hpair ih =>
    have := one_le_unitBytes u
    rw [byteLength, if_neg hpair, List.length_cons]
    omega
  | case4 u => exact one_le_unitBytes u

theorem unitBytes_le (u : UInt16) : unitBytes u ≤ 3 := by
  rw [unitBytes]
  split_ifs <;> omega

/-- A text is no shorter than what it starts with. -/
theorem byteLength_le_append (s t : JsString) : byteLength s ≤ byteLength (s ++ t) := by
  induction s using byteLength.induct with
  | case1 => exact Nat.zero_le _
  | case2 u v rest hpair ih =>
    rw [List.cons_append, List.cons_append, byteLength, byteLength, if_pos hpair, if_pos hpair]
    exact Nat.add_le_add_left ih 4
  | case3 u v rest hpair ih =>
    rw [List.cons_append, List.cons_append, byteLength, byteLength, if_neg hpair, if_neg hpair]
    exact Nat.add_le_add_left ih (unitBytes u)
  | case4 u =>
    rcases t with _ | ⟨v, t⟩
    · exact Nat.le_refl _
    · have hu := unitBytes_le u
      rw [List.singleton_append, byteLength, byteLength]
      split_ifs <;> omega

/-- A text is longer than what it properly starts with. -/
theorem byteLength_lt_append (s : JsString) {t : JsString} (ht : t ≠ []) :
    byteLength s < byteLength (s ++ t) := by
  have hpos : 0 < byteLength t := (List.length_pos_iff.mpr ht).trans_le (length_le_byteLength t)
  induction s using byteLength.induct with
  | case1 => exact hpos
  | case2 u v rest hpair ih =>
    rw [List.cons_append, List.cons_append, byteLength, byteLength, if_pos hpair, if_pos hpair]
    exact Nat.add_lt_add_left ih 4
  | case3 u v rest hpair ih =>
    rw [List.cons_append, List.cons_append, byteLength, byteLength, if_neg hpair, if_neg hpair]
    exact Nat.add_lt_add_left ih (unitBytes u)
  | case4 u =>
    rcases t with _ | ⟨v, t⟩
    · exact absurd rfl ht
    · have hu := unitBytes_le u
      rw [List.singleton_append, byteLength, byteLength]
      split_ifs <;> omega

end LiteHarness
