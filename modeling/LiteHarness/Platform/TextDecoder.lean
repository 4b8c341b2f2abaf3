import LiteHarness.Platform.JsString

/-!
# Text decoders

`new TextDecoder()`, which reads UTF-8 and keeps an unfinished character from one piece to the next.
What UTF-8 cannot hold becomes the replacement character, and the byte that showed it is read
again; a byte order mark at the very start is dropped.

A decoder reads byte by byte, so what it has read of a stream does not depend on where the stream
was cut.
-/

namespace LiteHarness

/-- The UTF-16 code units of a code point. -/
def codePointUnits (v : ℕ) : JsString :=
  if v < 0x10000 then [UInt16.ofNat v]
  else
    [UInt16.ofNat (0xD800 + (v - 0x10000) / 0x400), UInt16.ofNat (0xDC00 + (v - 0x10000) % 0x400)]

/-- A decoder between two bytes: what it has of the character it is in, the bytes that character
still owes, the bounds of the next one, and whether anything was decoded so far. -/
structure TextDecoder where
  codePoint : ℕ := 0
  needed : ℕ := 0
  lower : ℕ := 0x80
  upper : ℕ := 0xBF
  started : Bool := false

namespace TextDecoder

/-- A code point is finished. The first one of all is dropped when it is a byte order mark. -/
def emit (d : TextDecoder) (codePoint : ℕ) : TextDecoder × JsString :=
  ({ started := true },
    if !d.started && codePoint == 0xFEFF then [] else codePointUnits codePoint)

/-- A byte between characters. -/
def first (d : TextDecoder) (byte : UInt8) : TextDecoder × JsString :=
  let b := byte.toNat
  if b ≤ 0x7F then d.emit b
  else if 0xC2 ≤ b ∧ b ≤ 0xDF then ({ d with codePoint := b % 0x20, needed := 1 }, [])
  else if 0xE0 ≤ b ∧ b ≤ 0xEF then
    ({ d with
        codePoint := b % 0x10
        needed := 2
        lower := if b = 0xE0 then 0xA0 else 0x80
        upper := if b = 0xED then 0x9F else 0xBF }, [])
  else if 0xF0 ≤ b ∧ b ≤ 0xF4 then
    ({ d with
        codePoint := b % 0x8
        needed := 3
        lower := if b = 0xF0 then 0x90 else 0x80
        upper := if b = 0xF4 then 0x8F else 0xBF }, [])
  else d.emit 0xFFFD

/-- One byte. -/
def step (d : TextDecoder) (byte : UInt8) : TextDecoder × JsString :=
  let b := byte.toNat
  if d.needed = 0 then d.first byte
  else if d.lower ≤ b ∧ b ≤ d.upper then
    let codePoint := d.codePoint * 0x40 + b % 0x40
    if d.needed = 1 then d.emit codePoint
    else ({ d with codePoint, needed := d.needed - 1, lower := 0x80, upper := 0xBF }, [])
  else
    -- The character breaks off, and the byte is read as the start of the next one.
    let broken := d.emit 0xFFFD
    let next := broken.1.first byte
    (next.1, broken.2 ++ next.2)

/-- `decoder.decode(bytes, { stream: true })`. -/
def decode (d : TextDecoder) : List UInt8 → TextDecoder × JsString
  | [] => (d, [])
  | byte :: bytes =>
    let one := d.step byte
    let rest := one.1.decode bytes
    (rest.1, one.2 ++ rest.2)

/-- `decoder.decode(undefined, { stream: false })`. -/
def flush (d : TextDecoder) : JsString := if d.needed = 0 then [] else (d.emit 0xFFFD).2

theorem decode_append (d : TextDecoder) (bytes bytes' : List UInt8) :
    d.decode (bytes ++ bytes')
      = (((d.decode bytes).1.decode bytes').1,
          (d.decode bytes).2 ++ ((d.decode bytes).1.decode bytes').2) := by
  induction bytes generalizing d with
  | nil => rfl
  | cons byte bytes ih =>
    rw [List.cons_append, decode, decode, ih, List.append_assoc]

/-- The texts of a stream, a piece at a time, and what is left at its end. -/
def texts (d : TextDecoder) : List (List UInt8) → List JsString
  | [] => [d.flush]
  | chunk :: chunks => (d.decode chunk).2 :: (d.decode chunk).1.texts chunks

/-- **Cuts do not matter to the decoder**, inside a character or elsewhere. -/
theorem texts_flatten (d : TextDecoder) (chunks : List (List UInt8)) :
    (d.texts chunks).flatten
      = (d.decode chunks.flatten).2 ++ (d.decode chunks.flatten).1.flush := by
  induction chunks generalizing d with
  | nil => exact List.append_nil _
  | cons chunk chunks ih =>
    rw [texts, List.flatten_cons, ih, List.flatten_cons, decode_append, List.append_assoc]

end TextDecoder

/-- The text that a byte string holds. -/
def decodeText (bytes : List UInt8) : JsString :=
  (({} : TextDecoder).decode bytes).2 ++ (({} : TextDecoder).decode bytes).1.flush

/-- A euro sign cut in two, a bad byte and a character that breaks off. -/
example : ({} : TextDecoder).texts [[0xE2, 0x82], [0xAC, 0xFF, 0xE2], [0x82]]
    = [[], [0x20AC, 0xFFFD], [], [0xFFFD]] := by
  decide

end LiteHarness
