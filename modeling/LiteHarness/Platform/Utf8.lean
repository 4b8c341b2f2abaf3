import LiteHarness.Platform.BufferText

/-!
# Texts in UTF-8

The bytes of a text, and their way back. Between two characters a decoder reads the bytes of the
next one one by one, refuses none of them, and then gives its code units (`run_char`); a reader that
is strict (`decodeStrict`, which is `bytes.decode("utf-8")` in Python) and one that is not
(`decodeText`) therefore read the same text, but for a byte order mark in front of it.
-/

namespace LiteHarness

/-- The bytes of a text. -/
def encodeText (text : List Char) : Bytes := text.flatMap String.utf8EncodeChar

/-- The UTF-16 code units of a text. -/
def textUnits (text : List Char) : JsString := text.flatMap utf16Units

/-- A unit below the surrogates is a character. -/
theorem toNat_eq_of_mem_utf16Units {c : Char} {u : UInt16} (hu : u.toNat < 0xD800)
    (h : u ∈ utf16Units c) : u.toNat = c.toNat := by
  have hvalid : c.toNat < 0xD800 ∨ 0xDFFF < c.toNat ∧ c.toNat < 0x110000 := c.valid
  rw [utf16Units] at h
  split_ifs at h with hsmall
  · rw [List.mem_singleton.mp h, UInt16.toNat_ofNat']
    omega
  · rw [List.mem_cons, List.mem_singleton] at h
    rcases h with rfl | rfl <;> rw [UInt16.toNat_ofNat'] at hu <;> omega

theorem mem_of_mem_textUnits {c : Char} (hc : c.toNat < 0xD800) {text : List Char}
    (h : UInt16.ofNat c.toNat ∈ textUnits text) : c ∈ text := by
  have hunit : (UInt16.ofNat c.toNat).toNat = c.toNat := by
    rw [UInt16.toNat_ofNat']
    omega
  obtain ⟨c', hmem, hu⟩ := List.mem_flatMap.mp h
  have hsame := toNat_eq_of_mem_utf16Units (by omega) hu
  rwa [show c = c' from Char.ext (UInt32.toNat_inj.mp (hunit.symm.trans hsame))]

theorem encodeText_append (text text' : List Char) :
    encodeText (text ++ text') = encodeText text ++ encodeText text' :=
  List.flatMap_append ..

theorem encodeText_ne_nil {text : List Char} (h : text ≠ []) : encodeText text ≠ [] := by
  obtain ⟨c, text, rfl⟩ := List.exists_cons_of_ne_nil h
  rw [encodeText, List.flatMap_cons, String.utf8EncodeChar]
  split_ifs <;> exact List.cons_ne_nil _ _

namespace TextDecoder

/-- The byte goes on with what was read before it. -/
def accepts (d : TextDecoder) (byte : UInt8) : Bool :=
  let b := byte.toNat
  if d.needed = 0 then b ≤ 0x7F || 0xC2 ≤ b && b ≤ 0xF4 else d.lower ≤ b && b ≤ d.upper

/-- Bytes of which each goes on with those before it. -/
def run (d : TextDecoder) : Bytes → Option (TextDecoder × JsString)
  | [] => some (d, [])
  | byte :: bytes =>
    if d.accepts byte then
      ((d.step byte).1.run bytes).map fun (d', units) ↦ (d', (d.step byte).2 ++ units)
    else none

variable {d d' : TextDecoder} {units : JsString}

theorem run_cons {byte : UInt8} (h : d.accepts byte = true) (bytes : Bytes) :
    d.run (byte :: bytes) =
      ((d.step byte).1.run bytes).map fun (d', units) ↦ (d', (d.step byte).2 ++ units) :=
  if_pos h

/-- What a strict reader reads, one that is not reads too. -/
theorem decode_of_run {bytes : Bytes} (h : d.run bytes = some (d', units)) :
    d.decode bytes = (d', units) := by
  induction bytes generalizing d units with
  | nil => exact Option.some.inj h
  | cons byte bytes ih =>
    by_cases haccepts : d.accepts byte = true
    · rw [run_cons haccepts, Option.map_eq_some_iff] at h
      obtain ⟨⟨d'', rest⟩, hrest, heq⟩ := h
      obtain ⟨rfl, rfl⟩ := Prod.mk.inj heq
      rw [decode, ih hrest]
    · rw [run, if_neg haccepts] at h
      exact absurd h.symm (Option.some_ne_none _)

theorem run_append {bytes : Bytes} (h : d.run bytes = some (d', units)) (bytes' : Bytes) :
    d.run (bytes ++ bytes') = (d'.run bytes').map fun (e, rest) ↦ (e, units ++ rest) := by
  induction bytes generalizing d units with
  | nil =>
    obtain ⟨rfl, rfl⟩ := Prod.mk.inj (Option.some.inj h)
    exact (congrFun Option.map_id _).symm
  | cons byte bytes ih =>
    by_cases haccepts : d.accepts byte = true
    · rw [run_cons haccepts, Option.map_eq_some_iff] at h
      obtain ⟨⟨d'', rest⟩, hrest, heq⟩ := h
      obtain ⟨rfl, rfl⟩ := Prod.mk.inj heq
      rw [List.cons_append, run_cons haccepts, ih hrest, Option.map_map]
      refine congrArg (Option.map · _) (funext fun ⟨e, tail⟩ ↦ ?_)
      exact congrArg (Prod.mk e) (List.append_assoc ..).symm
    · rw [run, if_neg haccepts] at h
      exact absurd h.symm (Option.some_ne_none _)

/-- A decoder between two characters. -/
structure Idle (d : TextDecoder) : Prop where
  needed : d.needed = 0
  lower : d.lower = 0x80
  upper : d.upper = 0xBF

theorem idle_fresh : fresh.Idle := ⟨rfl, rfl, rfl⟩

theorem idle_start : ({} : TextDecoder).Idle := ⟨rfl, rfl, rfl⟩

/-! ### The bytes of a character -/

section Bytes

variable {b : UInt8} {n : ℕ}

theorem run_last (hneeded : d.needed = 1) (hb : d.lower ≤ b.toNat ∧ b.toNat ≤ d.upper) :
    d.run [b] = some (d.emit (d.codePoint * 0x40 + b.toNat % 0x40)) := by
  have hstep : d.step b = d.emit (d.codePoint * 0x40 + b.toNat % 0x40) := by
    rw [step]
    dsimp only
    rw [if_neg (by omega), if_pos hb, if_pos hneeded]
  rw [run_cons (by simp [accepts, hneeded, hb]), run, hstep, Option.map_some]
  exact congrArg (fun units ↦ some (_, units)) (List.append_nil _)

theorem run_more (hneeded : d.needed = n + 2) (hb : d.lower ≤ b.toNat ∧ b.toNat ≤ d.upper)
    (bytes : Bytes) : d.run (b :: bytes) =
      ({ d with
          codePoint := d.codePoint * 0x40 + b.toNat % 0x40
          needed := n + 1
          lower := 0x80
          upper := 0xBF } : TextDecoder).run bytes := by
  have hstep : d.step b = ({ d with
      codePoint := d.codePoint * 0x40 + b.toNat % 0x40
      needed := n + 1
      lower := 0x80
      upper := 0xBF }, []) := by
    rw [step]
    dsimp only
    rw [if_neg (by omega), if_pos hb, if_neg (by omega), hneeded]
    rfl
  rw [run_cons (by simp [accepts, hneeded, hb]), hstep]
  exact congrFun Option.map_id _

theorem run_first (hd : d.Idle) (hb : 0xC2 ≤ b.toNat ∧ b.toNat ≤ 0xF4) {e : TextDecoder}
    (hfirst : d.first b = (e, [])) (bytes : Bytes) : d.run (b :: bytes) = e.run bytes := by
  have hstep : d.step b = (e, []) := by
    rw [step]
    dsimp only
    rw [if_pos hd.needed, hfirst]
  rw [run_cons (by simp [accepts, hd.needed, hb]), hstep]
  exact congrFun Option.map_id _

/-- The value of a byte that is given as a number. -/
theorem toNat_ofNat_of_lt (h : n < 256) : (UInt8.ofNat n).toNat = n := by
  rw [UInt8.toNat_ofNat']
  exact Nat.mod_eq_of_lt h

end Bytes

/-- **A character is read from its bytes.** -/
theorem run_char (hd : d.Idle) (c : Char) :
    d.run (String.utf8EncodeChar c) = some (d.emit c.toNat) := by
  have hvalid : c.val.toNat < 0xD800 ∨ 0xDFFF < c.val.toNat ∧ c.val.toNat < 0x110000 := c.valid
  rw [String.utf8EncodeChar, Char.toNat]
  generalize c.val.toNat = v at *
  by_cases hone : v ≤ 0x7F
  · have hbyte : (UInt8.ofNat v).toNat = v := toNat_ofNat_of_lt (by omega)
    have hstep : d.step (UInt8.ofNat v) = d.emit v := by
      rw [step, first]
      dsimp only
      rw [if_pos hd.needed, hbyte, if_pos hone]
    rw [if_pos hone, run_cons (by simp [accepts, hd.needed, hbyte, hone]), run, hstep,
      Option.map_some]
    exact congrArg (fun units ↦ some (_, units)) (List.append_nil _)
  rw [if_neg hone]
  have htail : ∀ k, (UInt8.ofNat (k % 0x40 + 0x80)).toNat = k % 0x40 + 0x80 :=
    fun k ↦ toNat_ofNat_of_lt (by omega)
  by_cases htwo : v ≤ 0x7FF
  · have hbyte : (UInt8.ofNat (v / 64 % 0x20 + 0xC0)).toNat = v / 64 % 0x20 + 0xC0 :=
      toNat_ofNat_of_lt (by omega)
    have hlast := htail v
    rw [if_pos htwo, run_first hd (e := { d with codePoint := v / 64, needed := 1 }) (by omega),
      run_last rfl ?_]
    · refine congrArg (fun v ↦ some (d.emit v)) ?_
      dsimp only
      omega
    · rw [hlast, hd.lower, hd.upper]
      omega
    · rw [first, if_neg (by omega), if_pos (by omega), hbyte,
        show (v / 64 % 32 + 192) % 32 = v / 64 by omega]
  rw [if_neg htwo]
  by_cases hthree : v ≤ 0xFFFF
  · have hbyte : (UInt8.ofNat (v / 4096 % 0x10 + 0xE0)).toNat = v / 4096 % 0x10 + 0xE0 :=
      toNat_ofNat_of_lt (by omega)
    have hsecond := htail (v / 64)
    have hlast := htail v
    rw [if_pos hthree, run_first hd (e := { d with
      codePoint := v / 4096
      needed := 2
      lower := if v / 4096 = 0 then 0xA0 else 0x80
      upper := if v / 4096 = 13 then 0x9F else 0xBF }) (by omega), run_more rfl ?_, run_last rfl ?_]
    · refine congrArg (fun v ↦ some (d.emit v)) ?_
      dsimp only
      omega
    · rw [hlast]
      dsimp only
      omega
    · rw [hsecond]
      dsimp only
      split_ifs <;> omega
    · have hcode : (v / 4096 % 16 + 224) % 16 = v / 4096 := by omega
      have hlower : v / 4096 % 16 + 224 = 0xE0 ↔ v / 4096 = 0 := by omega
      have hupper : v / 4096 % 16 + 224 = 0xED ↔ v / 4096 = 13 := by omega
      rw [first, if_neg (by omega), if_neg (by omega), if_pos (by omega)]
      simp only [hbyte, hcode, hlower, hupper]
  · have hbyte : (UInt8.ofNat (v / 262144 % 8 + 0xF0)).toNat = v / 262144 % 8 + 0xF0 :=
      toNat_ofNat_of_lt (by omega)
    have hsecond := htail (v / 4096)
    have hthird := htail (v / 64)
    have hlast := htail v
    rw [if_neg hthree, run_first hd (e := { d with
      codePoint := v / 262144
      needed := 3
      lower := if v / 262144 = 0 then 0x90 else 0x80
      upper := if v / 262144 = 4 then 0x8F else 0xBF }) (by omega), run_more rfl ?_, run_more rfl ?_,
      run_last rfl ?_]
    · refine congrArg (fun v ↦ some (d.emit v)) ?_
      dsimp only
      omega
    · rw [hlast]
      dsimp only
      omega
    · rw [hthird]
      dsimp only
      omega
    · rw [hsecond]
      dsimp only
      split_ifs <;> omega
    · have hcode : (v / 262144 % 8 + 240) % 8 = v / 262144 := by omega
      have hlower : v / 262144 % 8 + 240 = 0xF0 ↔ v / 262144 = 0 := by omega
      have hupper : v / 262144 % 8 + 240 = 0xF4 ↔ v / 262144 = 4 := by omega
      rw [first, if_neg (by omega), if_neg (by omega), if_neg (by omega), if_pos (by omega)]
      simp only [hbyte, hcode, hlower, hupper]

theorem run_text (text : List Char) :
    fresh.run (encodeText text) = some (fresh, textUnits text) := by
  induction text with
  | nil => rfl
  | cons c text ih =>
    have hchar := run_char idle_fresh c
    rw [emit_of_started rfl] at hchar
    rw [encodeText, List.flatMap_cons, run_append hchar]
    change (fresh.run (encodeText text)).map _ = _
    rw [ih]
    rfl

end TextDecoder

/-- `bytes.decode("utf-8")` in Python, where `none` is a `UnicodeDecodeError`. -/
def decodeStrict (bytes : Bytes) : Option JsString :=
  (TextDecoder.fresh.run bytes).bind fun (d, units) ↦ if d.needed = 0 then some units else none

/-- A text without the byte order mark in front of it. -/
def withoutMark : List Char → List Char
  | [] => []
  | c :: text => if c = '\uFEFF' then text else c :: text

theorem mem_of_mem_withoutMark {c : Char} {text : List Char} (h : c ∈ withoutMark text) :
    c ∈ text := by
  rcases text with _ | ⟨c', text⟩
  · exact h
  · rw [withoutMark] at h
    split_ifs at h
    · exact List.mem_cons_of_mem _ h
    · exact h

theorem withoutMark_append (text : List Char) {rest : List Char}
    (hrest : rest.head? ≠ some '\uFEFF') : withoutMark (text ++ rest) = withoutMark text ++ rest := by
  rcases text with _ | ⟨c, text⟩
  · rcases rest with _ | ⟨c, rest⟩
    · rfl
    · exact if_neg fun h ↦ hrest (congrArg some h)
  · rw [List.cons_append, withoutMark, withoutMark]
    split_ifs
    · rfl
    · rfl

open TextDecoder

theorem decodeStrict_encodeText (text : List Char) :
    decodeStrict (encodeText text) = some (textUnits text) := by
  rw [decodeStrict, run_text]
  rfl

theorem bufferText_of_decodeStrict {bytes : Bytes} {text : JsString}
    (h : decodeStrict bytes = some text) : bufferText bytes = text := by
  obtain ⟨⟨d, units⟩, hrun, hend⟩ := Option.bind_eq_some_iff.mp h
  dsimp only at hend
  split_ifs at hend with hneeded
  obtain rfl := Option.some.inj hend
  rw [bufferText, rest, decode_of_run hrun, flush, if_pos hneeded, List.append_nil]

/-- A decoder that has read nothing yet drops a byte order mark, and only that. -/
theorem decodeText_encodeText (text : List Char) :
    decodeText (encodeText text) = textUnits (withoutMark text) := by
  rcases text with _ | ⟨c, text⟩
  · rfl
  have hrun : ({} : TextDecoder).run (encodeText (c :: text)) =
      some (fresh, (emit {} c.toNat).2 ++ textUnits text) := by
    rw [encodeText, List.flatMap_cons, run_append (run_char idle_start c)]
    change (fresh.run (encodeText text)).map _ = _
    rw [run_text]
    rfl
  rw [decodeText, decode_of_run hrun]
  change ((emit {} c.toNat).2 ++ textUnits text) ++ [] = _
  rw [List.append_nil, emit, withoutMark]
  by_cases hmark : c = '\uFEFF'
  · subst hmark
    rfl
  · have hne : c.toNat ≠ 0xFEFF := fun h ↦ hmark (Char.ext (UInt32.toNat_inj.mp h))
    rw [if_neg hmark]
    simp [hne]
    rfl

/-- A byte below 128 is a character. -/
theorem mem_of_mem_encodeText {c : Char} (hc : c.toNat < 0x80) {text : List Char}
    (h : UInt8.ofNat c.toNat ∈ encodeText text) : c ∈ text := by
  have hbyte := toNat_ofNat_of_lt (n := c.toNat) (by omega)
  have hmem := (mem_bufferText (by omega) _).mpr h
  rw [bufferText_of_decodeStrict (decodeStrict_encodeText text), byteUnit, hbyte] at hmem
  exact mem_of_mem_textUnits (by omega) hmem

end LiteHarness
