import LiteHarness.Platform.JsString
import Mathlib.Algebra.Order.Ring.Rat
import Mathlib.Data.Int.Log
import Mathlib.Data.List.TakeWhile
import Mathlib.Data.Rat.Floor

/-!
# Numbers read from texts

`Number(text)` skips white space at both ends and reads a decimal literal, an integer in one of the
bases two, eight and sixteen, or `Infinity`; the empty text is zero and every other text is `NaN`.
The number is the double next to the value of the literal.
-/

namespace LiteHarness

/-- White space and line terminators. -/
def isStrWhiteSpace (u : UInt16) : Bool :=
  let n := u.toNat
  decide (9 ≤ n ∧ n ≤ 13) || n == 0x20 || n == 0xA0 || n == 0x1680 ||
    decide (0x2000 ≤ n ∧ n ≤ 0x200A) || n == 0x2028 || n == 0x2029 || n == 0x202F || n == 0x205F ||
    n == 0x3000 || n == 0xFEFF

/-- `text.trim()`. -/
def trim (text : JsString) : JsString :=
  ((text.dropWhile isStrWhiteSpace).reverse.dropWhile isStrWhiteSpace).reverse

/-- A number that was read from a text. There is one zero: nothing here tells `-0` from it. -/
inductive Numeral where
  | nan
  | infinite (negative : Bool)
  | finite (value : ℚ)
  deriving DecidableEq

namespace Numeral

/-- `Number.isInteger`. -/
def isInteger : Numeral → Bool
  | .finite q => q.den = 1
  | _ => false

/-- `n >= k`. -/
def atLeast (k : ℤ) : Numeral → Bool
  | .finite q => k ≤ q
  | .infinite negative => !negative
  | .nan => false

/-- `n <= k`. -/
def atMost (k : ℤ) : Numeral → Bool
  | .finite q => q ≤ k
  | .infinite negative => negative
  | .nan => false

/-- `n === k`. -/
def is (k : ℤ) (n : Numeral) : Bool := n = .finite k

end Numeral

/-- The integer next to a number, the even one between two. -/
def roundHalfEven (q : ℚ) : ℤ :=
  let below := ⌊q⌋
  if q - below < 1 / 2 then below
  else if 1 / 2 < q - below then below + 1
  else if below % 2 = 0 then below
  else below + 1

/-- The double next to a number. Integers up to `2 ^ 53` are doubles. -/
def toDouble (q : ℚ) : Numeral :=
  if q.den = 1 ∧ q.num.natAbs ≤ 2 ^ 53 then .finite q
  else
    let ulp : ℚ := 2 ^ max (Int.log 2 |q| - 52) (-1074)
    let rounded := roundHalfEven (q / ulp) * ulp
    if 2 ^ 1024 ≤ |rounded| then .infinite (q < 0) else .finite rounded

/-- The value of a digit in a base up to sixteen. -/
def digitIn (base : ℕ) (u : UInt16) : Option ℕ :=
  let n := u.toNat
  let value :=
    if 48 ≤ n ∧ n ≤ 57 then n - 48
    else if 97 ≤ n ∧ n ≤ 102 then n - 87
    else if 65 ≤ n ∧ n ≤ 70 then n - 55
    else base
  if value < base then some value else none

/-- The value of one or more digits. -/
def digitsIn (base : ℕ) : JsString → Option ℕ
  | [] => none
  | u :: rest => (u :: rest).foldlM (fun n u ↦ (digitIn base u).map (base * n + ·)) 0

/-- An integer in base two, eight or sixteen. -/
def nonDecimalLiteral : JsString → Option Numeral
  | 48 :: u :: digits =>
    (if u = 98 ∨ u = 66 then some 2
      else if u = 111 ∨ u = 79 then some 8
      else if u = 120 ∨ u = 88 then some 16
      else none).bind fun base : ℕ ↦ (digitsIn base digits).map fun n : ℕ ↦ toDouble n
  | _ => none

/-- The exponent part of a decimal literal, the mark included. -/
def exponentPart : JsString → Option ℤ
  | [] => some 0
  | _ :: 43 :: digits => (digitsIn 10 digits).map fun n : ℕ ↦ (n : ℤ)
  | _ :: 45 :: digits => (digitsIn 10 digits).map fun n : ℕ ↦ -(n : ℤ)
  | _ :: digits => (digitsIn 10 digits).map fun n : ℕ ↦ (n : ℤ)

/-- A decimal literal without sign. -/
def unsignedDecimal (text : JsString) : Option ℚ :=
  let mantissa := text.takeWhile fun u ↦ u ≠ 101 ∧ u ≠ 69
  let whole := mantissa.takeWhile (· ≠ 46)
  let fraction := (mantissa.dropWhile (· ≠ 46)).drop 1
  (digitsIn 10 (whole ++ fraction)).bind fun n ↦
    (exponentPart (text.dropWhile fun u ↦ u ≠ 101 ∧ u ≠ 69)).map fun exponent ↦
      (n : ℚ) * 10 ^ (exponent - (fraction.length : ℤ))

/-- A decimal literal without sign, or `Infinity`. -/
def unsignedLiteral (negative : Bool) (text : JsString) : Option Numeral :=
  if text = js "Infinity" then some (.infinite negative)
  else (unsignedDecimal text).map fun q ↦ toDouble (if negative then -q else q)

/-- A decimal literal with or without sign. -/
def decimalLiteral : JsString → Option Numeral
  | 43 :: text => unsignedLiteral false text
  | 45 :: text => unsignedLiteral true text
  | text => unsignedLiteral false text

/-- `Number(text)`. -/
def number (text : JsString) : Numeral :=
  if trim text = [] then .finite 0
  else ((nonDecimalLiteral (trim text)).or (decimalLiteral (trim text))).getD .nan

/-! ## Whole numbers -/

theorem not_isStrWhiteSpace_digit {u : UInt16} (h : 48 ≤ u.toNat ∧ u.toNat ≤ 57) :
    isStrWhiteSpace u = false := by
  simp only [isStrWhiteSpace, Bool.or_eq_false_iff, decide_eq_false_iff_not, beq_eq_false_iff_ne]
  omega

/-! ## Texts that are no number -/

/-- The colon and the percent sign are in no number. -/
def isForeign (u : UInt16) : Bool := u == colon || u == 37

section Foreign

variable {u : UInt16} (h : isForeign u = true)

include h

end Foreign

end LiteHarness
