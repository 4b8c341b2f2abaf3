import LiteHarness.Platform.JsValue

/-!
# Files and what they are made with

Bytes, and what the program takes from `node:crypto` and `node:zlib` to make encrypted files of
them. The functions are parameters; what a result relies on is said where it is used, for the
inputs it is used on.
-/

namespace LiteHarness

/-- A buffer. -/
abbrev Bytes := List UInt8

instance : LawfulBEq Bytes := List.instLawfulBEq

/-- The bytes of a text of ASCII characters. -/
def ascii (s : String) : Bytes := s.toList.map fun c ↦ UInt8.ofNat c.toNat

/-- JSON texts as bytes, compression, authenticated encryption, digests and Base64. -/
structure NodeCrypto where
  /-- `Buffer.from(JSON.stringify(record))`. -/
  stringify : List (JsString × JsValue) → Bytes
  /-- `JSON.parse(bytes.toString("utf8"))`, where it does not throw. -/
  parse : Bytes → Option JsValue
  /-- `createGzip({ level: 6 })`. -/
  gzip : Bytes → Bytes
  /-- `createGunzip()`, where it does not fail. -/
  gunzip : Bytes → Option Bytes
  /-- `aes-256-gcm`: the ciphertext and the tag for a key, a nonce, associated data and a text. -/
  encrypt : Bytes → Bytes → Bytes → Bytes → Bytes × Bytes
  /-- Decryption with a key, a nonce, associated data, a ciphertext and a tag. -/
  decrypt : Bytes → Bytes → Bytes → Bytes → Bytes → Option Bytes
  /-- `createHash("sha256").update(bytes).digest("hex")`. -/
  sha256 : Bytes → JsString
  /-- `bytes.toString("base64")`. -/
  toBase64 : Bytes → JsString
  /-- `Buffer.from(text, "base64")`. -/
  fromBase64 : JsString → Bytes
  /-- `Number.isFinite(Date.parse(text))`. -/
  dateParses : JsString → Bool

namespace JsValue

/-- `value.key`, where the value is an object. -/
def get (value : JsValue) (key : String) : JsValue :=
  match value with
  | .object fields => ((fields.find? fun f ↦ f.1 = js key).map Prod.snd).getD .undefined
  | _ => .undefined

/-- The string a value is. -/
def asString : JsValue → Option JsString
  | .string s => some s
  | _ => none

/-- The non-negative safe integer a value is. -/
def asCount : JsValue → Option ℕ
  | .number n =>
    match n.rat? with
    | some q => if q.den = 1 ∧ 0 ≤ q ∧ q ≤ 2 ^ 53 - 1 then some q.num.toNat else none
    | none => none
  | _ => none

theorem asCount_count {n : ℕ} (h : n ≤ 2 ^ 53 - 1) :
    asCount (.number (.finite (n : ℚ))) = some n := by
  have hle : (n : ℚ) ≤ 2 ^ 53 - 1 := by
    have hcast : (n : ℚ) ≤ ((2 ^ 53 - 1 : ℕ) : ℚ) := Nat.cast_le.mpr h
    norm_num at hcast ⊢
    exact hcast
  rw [asCount, JsNumber.rat?]
  dsimp only
  rw [if_pos ⟨Rat.den_natCast n, Nat.cast_nonneg n, hle⟩, Rat.num_natCast, Int.toNat_natCast]

end JsValue

end LiteHarness
