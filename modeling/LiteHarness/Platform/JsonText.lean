import LiteHarness.Platform.NumberText
import LiteHarness.Storage.Rows

/-!
# JSON texts

`JSON.parse` in JavaScript and `json.loads` in Python read one grammar, but for two things: Python
knows three more words, `NaN`, `Infinity` and `-Infinity`, and it refuses an integer of more than
4300 digits as soon as it comes to it. `scan` reads what both know, as far as the text goes;
`jsonParse` and `jsonLoads` are made of it.

Numbers are kept as they are written, since Python tells an integer by the way it is written and
JavaScript by its value. A string of Python is the UTF-16 of its characters: an escaped surrogate
pair is one character there too. How deep a text may be nested before a reader gives up is not
modelled.
-/

namespace LiteHarness

/-- A number as it is written. -/
structure JsonNumeral where
  negative : Bool := false
  whole : List ℕ
  fraction : List ℕ := []
  exponent : Option ℤ := none
  deriving DecidableEq

/-- What a JSON text says, and the words that Python adds. -/
inductive JsonText where
  | null
  | bool (b : Bool)
  | number (n : JsonNumeral)
  | string (s : JsString)
  | array (items : List JsonText)
  | object (members : List (JsString × JsonText))
  /-- `NaN`, `Infinity` or `-Infinity`. -/
  | constant

namespace JsonNumeral

/-- The value of decimal digits. -/
def digitsValue (digits : List ℕ) : ℕ := digits.foldl (fun n digit ↦ n * 10 + digit) 0

/-- There is neither a fraction nor an exponent. -/
def isInteger (n : JsonNumeral) : Bool := n.fraction = [] && n.exponent = none

/-- The value of an integer. -/
def integer (n : JsonNumeral) : ℤ :=
  if n.negative then -digitsValue n.whole else digitsValue n.whole

/-- The number that is written. -/
def value (n : JsonNumeral) : ℚ :=
  let unsigned : ℚ :=
    digitsValue (n.whole ++ n.fraction) * 10 ^ (n.exponent.getD 0 - (n.fraction.length : ℤ))
  if n.negative then -unsigned else unsigned

/-- `sys.get_int_max_str_digits()`. -/
def maxIntegerDigits : ℕ := 4300

/-- An integer that Python refuses. -/
def isLong (n : JsonNumeral) : Bool := n.isInteger && maxIntegerDigits < n.whole.length

end JsonNumeral

/-! ## The grammar -/

def isJsonSpace (u : UInt16) : Bool := u = 32 || u = 9 || u = 10 || u = 13

def skipSpace (text : JsString) : JsString := text.dropWhile isJsonSpace

def isDigitUnit (u : UInt16) : Bool := 48 ≤ u && u ≤ 57

/-- The digits in front of a text, and what is behind them. -/
def scanDigits (text : JsString) : List ℕ × JsString :=
  ((text.takeWhile isDigitUnit).map fun u ↦ u.toNat - 48, text.dropWhile isDigitUnit)

/-- A point and digits behind it. -/
def scanFraction : JsString → List ℕ × JsString
  | 46 :: text =>
    match scanDigits text with
    | ([], _) => ([], 46 :: text)
    | digits => digits
  | text => ([], text)

/-- An exponent mark, a sign if there is one, and digits. -/
def scanExponent (text : JsString) : Option ℤ × JsString :=
  let (negative, digits) : Bool × JsString :=
    match text.drop 1 with
    | 45 :: digits => (true, digits)
    | 43 :: digits => (false, digits)
    | digits => (false, digits)
  match text.head?, scanDigits digits with
  | some u, (d :: ds, rest) =>
    let magnitude : ℤ := JsonNumeral.digitsValue (d :: ds)
    if u = 101 ∨ u = 69 then (some (if negative then -magnitude else magnitude), rest)
    else (none, text)
  | _, _ => (none, text)

/-- A number behind its sign. A zero in front is a number for itself. -/
def scanUnsigned (negative : Bool) (text : JsString) : Option (JsonNumeral × JsString) :=
  let whole : List ℕ × JsString :=
    match text with
    | 48 :: rest => ([0], rest)
    | _ => scanDigits text
  if whole.1 = [] then none
  else
    let fraction := scanFraction whole.2
    let exponent := scanExponent fraction.2
    some (⟨negative, whole.1, fraction.1, exponent.1⟩, exponent.2)

def scanNumber : JsString → Option (JsonNumeral × JsString)
  | 45 :: text => scanUnsigned true text
  | text => scanUnsigned false text

/-- What stands for one unit behind a backslash. -/
def escapedUnit (u : UInt16) : Option UInt16 :=
  if u = 34 ∨ u = 92 ∨ u = 47 then some u
  else if u = 98 then some 8
  else if u = 102 then some 12
  else if u = 110 then some 10
  else if u = 114 then some 13
  else if u = 116 then some 9
  else none

/-- A string behind its first quote. -/
def scanString : JsString → Option (JsString × JsString)
  | [] => none
  | 34 :: rest => some ([], rest)
  | 92 :: 117 :: a :: b :: c :: d :: rest =>
    (digitsIn 16 [a, b, c, d]).bind fun unit ↦
      (scanString rest).map fun (units, rest) ↦ (UInt16.ofNat unit :: units, rest)
  | 92 :: u :: rest =>
    (escapedUnit u).bind fun unit ↦
      (scanString rest).map fun (units, rest) ↦ (unit :: units, rest)
  | u :: rest =>
    if u < 32 ∨ u = 92 then none
    else (scanString rest).map fun (units, rest) ↦ (u :: units, rest)

/-- The words, with what they mean. -/
def jsonWords : List (JsString × JsonText) :=
  [(js "null", .null), (js "true", .bool true), (js "false", .bool false), (js "NaN", .constant),
    (js "Infinity", .constant), (js "-Infinity", .constant)]

mutual

/-- A value, as far as it goes, and what is behind it, if it is whole. -/
def scanValue : ℕ → JsString → JsonText × Option JsString
  | 0, _ => (.null, none)
  | n + 1, text =>
    match text with
    | 34 :: rest =>
      match scanString rest with
      | some (s, rest) => (.string s, some rest)
      | none => (.null, none)
    | 91 :: rest =>
      match skipSpace rest with
      | 93 :: rest => (.array [], some rest)
      | rest => let (items, rest) := scanItems n rest; (.array items, rest)
    | 123 :: rest =>
      match skipSpace rest with
      | 125 :: rest => (.object [], some rest)
      | rest => let (members, rest) := scanMembers n rest; (.object members, rest)
    | text =>
      match jsonWords.find? fun word ↦ word.1.isPrefixOf text with
      | some (word, value) => (value, some (text.drop word.length))
      | none =>
        match scanNumber text with
        | some (number, rest) => (.number number, some rest)
        | none => (.null, none)

/-- The items of an array. -/
def scanItems : ℕ → JsString → List JsonText × Option JsString
  | 0, _ => ([], none)
  | n + 1, text =>
    match scanValue n text with
    | (item, none) => ([item], none)
    | (item, some rest) =>
      match skipSpace rest with
      | 44 :: rest => let (items, rest) := scanItems n (skipSpace rest); (item :: items, rest)
      | 93 :: rest => ([item], some rest)
      | _ => ([item], none)

/-- The members of an object. -/
def scanMembers : ℕ → JsString → List (JsString × JsonText) × Option JsString
  | 0, _ => ([], none)
  | n + 1, text =>
    match text with
    | 34 :: rest =>
      match scanString rest with
      | none => ([], none)
      | some (key, rest) =>
        match skipSpace rest with
        | 58 :: rest =>
          match scanValue n (skipSpace rest) with
          | (value, none) => ([(key, value)], none)
          | (value, some rest) =>
            match skipSpace rest with
            | 44 :: rest =>
              let (members, rest) := scanMembers n (skipSpace rest)
              ((key, value) :: members, rest)
            | 125 :: rest => ([(key, value)], some rest)
            | _ => ([(key, value)], none)
        | _ => ([], none)
    | _ => ([], none)

end

/-- A text, as far as it goes, and whether it is one value and nothing else. A unit is behind at most
two calls of the functions above. -/
def scan (text : JsString) : JsonText × Bool :=
  let (value, rest) := scanValue (2 * text.length + 2) (skipSpace text)
  (value, rest.any fun rest ↦ skipSpace rest = [])

namespace JsonText

mutual

/-- The value, or one in it, is of some kind. -/
def any (p : JsonText → Bool) : JsonText → Bool
  | .array items => p (.array items) || anyItem p items
  | .object members => p (.object members) || anyMember p members
  | value => p value

def anyItem (p : JsonText → Bool) : List JsonText → Bool
  | [] => false
  | item :: items => any p item || anyItem p items

def anyMember (p : JsonText → Bool) : List (JsString × JsonText) → Bool
  | [] => false
  | (_, value) :: members => any p value || anyMember p members

end

def isConstant : JsonText → Bool
  | .constant => true
  | _ => false

def isLongInteger : JsonText → Bool
  | .number n => n.isLong
  | _ => false

/-- A word of Python is in the text. -/
def hasConstant (value : JsonText) : Bool := value.any isConstant

/-- An integer that Python refuses is in the text. -/
def hasLongInteger (value : JsonText) : Bool := value.any isLongInteger

end JsonText

/-! ## The two readers -/

/-- `JSON.parse`, where `none` is a `SyntaxError`. -/
def jsonParse (text : JsString) : Option JsonText :=
  if (scan text).2 && !(scan text).1.hasConstant then some (scan text).1 else none

/-- What `json.loads` raises. -/
inductive LoadsError where
  | jsonDecode
  /-- A `ValueError` that is no `JSONDecodeError`. -/
  | value
  deriving DecidableEq

/-- `json.loads`. -/
def jsonLoads (text : JsString) : Except LoadsError JsonText :=
  if (scan text).1.hasLongInteger then .error .value
  else if (scan text).2 then .ok (scan text).1
  else .error .jsonDecode

/-- Nothing in the text is read by one language and refused by the other. -/
structure ReadAlike (text : JsString) : Prop where
  constants : (scan text).1.hasConstant = false
  integers : (scan text).1.hasLongInteger = false

instance (text : JsString) : Decidable (ReadAlike text) :=
  decidable_of_iff ((scan text).1.hasConstant = false ∧ (scan text).1.hasLongInteger = false)
    ⟨fun h ↦ ⟨h.1, h.2⟩, fun h ↦ ⟨h.constants, h.integers⟩⟩

theorem jsonLoads_eq {text : JsString} (h : ReadAlike text) :
    jsonLoads text = (jsonParse text).elim (.error .jsonDecode) .ok := by
  rw [jsonLoads, jsonParse, h.integers, h.constants]
  by_cases hwhole : (scan text).2 = true
  · simp [hwhole]
  · simp [hwhole]

end LiteHarness
