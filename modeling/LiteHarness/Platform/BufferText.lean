import LiteHarness.Platform.Crypto
import LiteHarness.Platform.TextDecoder

/-!
# Bytes as a text

`buffer.toString("utf8")`, which keeps a byte order mark. Bytes below 128 are the units of the same
number, wherever they stand, and no other byte becomes one: what is decided by such units of the
text is decided by the bytes (`mem_bufferText`, `bufferText_append_cons`, `bufferText_eq_iff`).
-/

namespace LiteHarness

/-- The unit of a byte below 128. -/
def byteUnit (b : UInt8) : UInt16 := UInt16.ofNat b.toNat

theorem toNat_byteUnit (b : UInt8) : (byteUnit b).toNat = b.toNat := by
  have hlt := b.toNat_lt
  rw [byteUnit, UInt16.toNat_ofNat']
  omega

theorem byteUnit_injective : Function.Injective byteUnit := fun a b h ↦ by
  have htoNat := congrArg UInt16.toNat h
  rwa [toNat_byteUnit, toNat_byteUnit, UInt8.toNat_inj] at htoNat

namespace TextDecoder

/-- A decoder that has started, between two characters. -/
def fresh : TextDecoder := { started := true }

/-- What a decoder makes of the rest of its bytes. -/
def rest (d : TextDecoder) (bytes : Bytes) : JsString :=
  (d.decode bytes).2 ++ (d.decode bytes).1.flush

/-- What a decoder holds of a character that is not over: too little for a unit below 128, and no
more than a code point can be. -/
structure Within (d : TextDecoder) : Prop where
  started : d.started = true
  lower : 0x80 ≤ d.lower
  upper : d.upper ≤ 0xBF
  character : d.needed = 0 ∧ d.lower = 0x80 ∧ d.upper = 0xBF ∨
    d.needed = 1 ∧ 2 ≤ d.codePoint ∧ d.codePoint < 0x4400 ∧ d.lower = 0x80 ∧ d.upper = 0xBF ∨
    d.needed = 2 ∧ (1 ≤ d.codePoint ∨ 0xA0 ≤ d.lower) ∧ d.codePoint < 0x110 ∨
    d.needed = 3 ∧ (1 ≤ d.codePoint ∨ 0x90 ≤ d.lower) ∧ d.codePoint ≤ 4 ∧
      (d.codePoint = 4 → d.upper ≤ 0x8F)

theorem within_fresh : fresh.Within := ⟨rfl, by decide, by decide, Or.inl ⟨rfl, rfl, rfl⟩⟩

theorem emit_of_started {d : TextDecoder} (h : d.started = true) (codePoint : ℕ) :
    d.emit codePoint = (fresh, codePointUnits codePoint) := by
  rw [emit, h]
  rfl

/-- The units of a code point from 128 on are from 128 on. -/
theorem le_of_mem_codePointUnits {v : ℕ} (hlow : 0x80 ≤ v) (hhigh : v < 0x110000) {u : UInt16}
    (hu : u ∈ codePointUnits v) : 0x80 ≤ u.toNat := by
  rw [codePointUnits] at hu
  split_ifs at hu with hsmall
  · rw [List.mem_singleton.mp hu, UInt16.toNat_ofNat']
    omega
  · rw [List.mem_cons, List.mem_singleton] at hu
    rcases hu with rfl | rfl
    · rw [UInt16.toNat_ofNat']
      omega
    · rw [UInt16.toNat_ofNat']
      omega

theorem codePointUnits_ne_nil (v : ℕ) : codePointUnits v ≠ [] := by
  rw [codePointUnits]
  split_ifs
  · exact List.cons_ne_nil _ _
  · exact List.cons_ne_nil _ _

/-- What a step gives: units from 128 on, and if there are none, a character that is not over. -/
structure Gives (r : TextDecoder × JsString) : Prop where
  within : r.1.Within
  units : ∀ u ∈ r.2, 0x80 ≤ u.toNat
  progress : r.2 ≠ [] ∨ r.1.needed ≠ 0

theorem gives_codePointUnits {v : ℕ} (hlow : 0x80 ≤ v) (hhigh : v < 0x110000) :
    Gives (fresh, codePointUnits v) :=
  ⟨within_fresh, fun _ hu ↦ le_of_mem_codePointUnits hlow hhigh hu,
    Or.inl (codePointUnits_ne_nil v)⟩

variable {d : TextDecoder} {b : UInt8}

theorem first_ascii (h : d.started = true) (hb : b.toNat < 0x80) :
    d.first b = (fresh, [byteUnit b]) := by
  rw [first, if_pos (by omega), emit_of_started h, codePointUnits, if_pos (by omega), byteUnit]

theorem gives_first (hd : d.Within) (hbetween : d.needed = 0) (hb : 0x80 ≤ b.toNat) :
    Gives (d.first b) := by
  have hlt := b.toNat_lt
  obtain ⟨hlower, hupper⟩ : d.lower = 0x80 ∧ d.upper = 0xBF := by
    rcases hd.character with h | h | h | h
    · exact h.2
    all_goals omega
  rw [first, if_neg (by omega)]
  by_cases htwo : 0xC2 ≤ b.toNat ∧ b.toNat ≤ 0xDF
  · rw [if_pos htwo]
    refine ⟨⟨hd.started, hd.lower, hd.upper, Or.inr (Or.inl ?_)⟩, nofun, Or.inr one_ne_zero⟩
    refine ⟨rfl, ?_, ?_, hlower, hupper⟩ <;> (dsimp only; omega)
  rw [if_neg htwo]
  by_cases hthree : 0xE0 ≤ b.toNat ∧ b.toNat ≤ 0xEF
  · rw [if_pos hthree]
    refine ⟨⟨hd.started, ?_, ?_, Or.inr (Or.inr (Or.inl ⟨rfl, ?_, ?_⟩))⟩, nofun, Or.inr two_ne_zero⟩
    all_goals (dsimp only; try split_ifs) <;> omega
  rw [if_neg hthree]
  by_cases hfour : 0xF0 ≤ b.toNat ∧ b.toNat ≤ 0xF4
  · rw [if_pos hfour]
    refine ⟨⟨hd.started, ?_, ?_, Or.inr (Or.inr (Or.inr ⟨rfl, ?_, ?_, ?_⟩))⟩, nofun,
      Or.inr three_ne_zero⟩
    all_goals (dsimp only; try split_ifs) <;> omega
  · rw [if_neg hfour, emit_of_started hd.started]
    exact gives_codePointUnits (by decide) (by decide)

/-- A byte below 128 ends what was not over, and is a unit itself. -/
theorem step_ascii (hd : d.Within) (hb : b.toNat < 0x80) :
    d.step b = (fresh, d.flush ++ [byteUnit b]) := by
  rw [step, flush]
  by_cases hbetween : d.needed = 0
  · rw [if_pos hbetween, if_pos hbetween, first_ascii hd.started hb, List.nil_append]
  · have hlower := hd.lower
    rw [if_neg hbetween, if_neg hbetween, if_neg (by omega), emit_of_started hd.started]
    dsimp only
    rw [first_ascii rfl hb]

theorem gives_step (hd : d.Within) (hb : 0x80 ≤ b.toNat) : Gives (d.step b) := by
  rw [step]
  dsimp only
  by_cases hbetween : d.needed = 0
  · rw [if_pos hbetween]
    exact gives_first hd hbetween hb
  rw [if_neg hbetween]
  by_cases hgoes : d.lower ≤ b.toNat ∧ b.toNat ≤ d.upper
  · have hlower := hd.lower
    have hupper := hd.upper
    have hchar := hd.character
    rw [if_pos hgoes]
    by_cases hlast : d.needed = 1
    · rw [if_pos hlast, emit_of_started hd.started]
      exact gives_codePointUnits (by omega) (by omega)
    · rw [if_neg hlast]
      refine ⟨⟨hd.started, le_rfl, le_rfl, ?_⟩, nofun, Or.inr (by dsimp only; omega)⟩
      dsimp only
      -- of the four kinds of characters, the ones that need two bytes or three
      have hneeded : d.needed = 2 ∨ d.needed = 3 := by omega
      rcases hneeded with htwo | hthree
      · refine Or.inr (Or.inl ⟨by omega, ?_, ?_, rfl, rfl⟩) <;> omega
      · refine Or.inr (Or.inr (Or.inl ⟨by omega, Or.inl ?_, ?_⟩)) <;> omega
  · rw [if_neg hgoes, emit_of_started hd.started]
    have hnext := gives_first within_fresh rfl hb
    have hbroken := gives_codePointUnits (v := 0xFFFD) (by decide) (by decide)
    refine ⟨hnext.within, fun u hu ↦ ?_, Or.inl ?_⟩
    · exact (List.mem_append.mp hu).elim (hbroken.units u) (hnext.units u)
    · exact List.append_ne_nil_of_left_ne_nil (codePointUnits_ne_nil 0xFFFD) _

theorem within_step (hd : d.Within) : (d.step b).1.Within := by
  by_cases hb : b.toNat < 0x80
  · rw [step_ascii hd hb]
    exact within_fresh
  · exact (gives_step hd (not_lt.mp hb)).within

theorem within_decode (hd : d.Within) (bytes : Bytes) : (d.decode bytes).1.Within := by
  induction bytes generalizing d with
  | nil => exact hd
  | cons b bytes ih => exact ih (within_step hd)

theorem rest_cons (d : TextDecoder) (b : UInt8) (bytes : Bytes) :
    d.rest (b :: bytes) = (d.step b).2 ++ (d.step b).1.rest bytes := by
  rw [rest, decode, rest, List.append_assoc]

theorem le_of_mem_flush (hd : d.Within) {u : UInt16} (hu : u ∈ d.flush) : 0x80 ≤ u.toNat := by
  rw [flush] at hu
  split_ifs at hu
  · exact absurd hu List.not_mem_nil
  · rw [emit_of_started hd.started] at hu
    exact le_of_mem_codePointUnits (v := 0xFFFD) (by decide) (by decide) hu

/-- What follows a byte below 128 is read for itself. -/
theorem rest_append_cons (hd : d.Within) (hb : b.toNat < 0x80) (before after : Bytes) :
    d.rest (before ++ b :: after) = d.rest before ++ byteUnit b :: fresh.rest after := by
  have hmid := within_decode hd before
  rw [rest, rest, decode_append, decode, step_ascii hmid hb, rest]
  simp only [List.append_assoc, List.cons_append, List.nil_append]

/-- The units below 128 are bytes. -/
theorem mem_rest (hd : d.Within) {c : UInt8} (hc : c.toNat < 0x80) (bytes : Bytes) :
    byteUnit c ∈ d.rest bytes ↔ c ∈ bytes := by
  have hlow : ∀ {u : UInt16}, 0x80 ≤ u.toNat → byteUnit c ≠ u := by
    rintro u hu rfl
    rw [toNat_byteUnit] at hu
    omega
  induction bytes generalizing d with
  | nil =>
    refine iff_of_false (fun hmem ↦ ?_) List.not_mem_nil
    exact hlow (le_of_mem_flush hd (by simpa [rest, decode] using hmem)) rfl
  | cons b bytes ih =>
    rw [rest_cons, List.mem_append, List.mem_cons]
    refine or_congr ?_ (ih (within_step hd))
    by_cases hb : b.toNat < 0x80
    · rw [step_ascii hd hb, List.mem_append, List.mem_singleton, byteUnit_injective.eq_iff]
      exact or_iff_right fun hmem ↦ hlow (le_of_mem_flush hd hmem) rfl
    · refine iff_of_false (fun hmem ↦ ?_) fun heq ↦ hb (heq ▸ hc)
      exact hlow ((gives_step hd (not_lt.mp hb)).units _ hmem) rfl

/-- A character that is not over, and a byte from 128 on, begin with a unit from 128 on. -/
theorem rest_high (hd : d.Within) (bytes : Bytes)
    (h : d.needed ≠ 0 ∨ ∃ b ∈ bytes.head?, 0x80 ≤ b.toNat) :
    ∃ u t, d.rest bytes = u :: t ∧ 0x80 ≤ u.toNat := by
  have hfront : ∀ (back : JsString) {front : JsString}, front ≠ [] → (∀ u ∈ front, 0x80 ≤ u.toNat) →
      ∃ u t, front ++ back = u :: t ∧ 0x80 ≤ u.toNat := by
    intro back front hne hunits
    obtain ⟨u, t, rfl⟩ := List.exists_cons_of_ne_nil hne
    exact ⟨u, t ++ back, rfl, hunits u List.mem_cons_self⟩
  have hflush : d.needed ≠ 0 → d.flush ≠ [] := fun hneeded ↦ by
    rw [flush, if_neg hneeded, emit_of_started hd.started]
    exact codePointUnits_ne_nil 0xFFFD
  induction bytes generalizing d with
  | nil =>
    have hneeded := h.resolve_right nofun
    obtain ⟨u, t, htext, hu⟩ := hfront [] (hflush hneeded) fun u hu ↦ le_of_mem_flush hd hu
    exact ⟨u, t, by simpa [rest, decode] using htext, hu⟩
  | cons b bytes ih =>
    rw [rest_cons]
    by_cases hb : b.toNat < 0x80
    · have hneeded := h.resolve_right (by simpa using hb)
      rw [step_ascii hd hb, List.append_assoc]
      exact hfront _ (hflush hneeded) fun u hu ↦ le_of_mem_flush hd hu
    · have hgives := gives_step hd (not_lt.mp hb)
      by_cases hnone : (d.step b).2 = []
      · rw [hnone, List.nil_append]
        refine ih hgives.within (Or.inl (hgives.progress.resolve_left (not_not.mpr hnone)))
          fun hneeded ↦ ?_
        rw [flush, if_neg hneeded, emit_of_started hgives.within.started]
        exact codePointUnits_ne_nil 0xFFFD
      · exact hfront _ hnone hgives.units

/-- A byte from 128 on leaves units from 128 on. -/
theorem rest_singleton (hd : d.Within) (hb : 0x80 ≤ b.toNat) :
    d.rest [b] ≠ [] ∧ ∀ u ∈ d.rest [b], 0x80 ≤ u.toNat := by
  constructor
  · obtain ⟨u, t, htext, -⟩ := rest_high hd [b] (Or.inr ⟨b, rfl, hb⟩)
    rw [htext]
    exact List.cons_ne_nil u t
  · intro u hu
    rw [rest_cons, List.mem_append] at hu
    rcases hu with hu | hu
    · exact (gives_step hd hb).units u hu
    · exact le_of_mem_flush (within_step hd) (by simpa [rest, decode] using hu)

end TextDecoder

/-- `buffer.toString("utf8")`. -/
def bufferText (bytes : Bytes) : JsString := TextDecoder.fresh.rest bytes

@[simp] theorem bufferText_nil : bufferText [] = [] := rfl

theorem bufferText_append_cons {b : UInt8} (hb : b.toNat < 0x80) (before after : Bytes) :
    bufferText (before ++ b :: after) = bufferText before ++ byteUnit b :: bufferText after :=
  TextDecoder.rest_append_cons TextDecoder.within_fresh hb before after

theorem bufferText_cons {b : UInt8} (hb : b.toNat < 0x80) (bytes : Bytes) :
    bufferText (b :: bytes) = byteUnit b :: bufferText bytes :=
  bufferText_append_cons hb [] bytes

theorem mem_bufferText {c : UInt8} (hc : c.toNat < 0x80) (bytes : Bytes) :
    byteUnit c ∈ bufferText bytes ↔ c ∈ bytes :=
  TextDecoder.mem_rest TextDecoder.within_fresh hc bytes

/-- A text that begins with a unit below 128 was read from the byte, and the rest from the rest. -/
theorem bufferText_eq_cons {c : UInt8} (hc : c.toNat < 0x80) {bytes : Bytes} {t : JsString} :
    bufferText bytes = byteUnit c :: t ↔ ∃ rest, bytes = c :: rest ∧ bufferText rest = t := by
  constructor
  · intro h
    rcases bytes with _ | ⟨b, bytes⟩
    · exact absurd h nofun
    by_cases hb : b.toNat < 0x80
    · rw [bufferText_cons hb] at h
      obtain ⟨hunit, htail⟩ := List.cons.inj h
      exact ⟨bytes, by rw [byteUnit_injective hunit], htail⟩
    · obtain ⟨u, t', htext, hu⟩ := TextDecoder.rest_high TextDecoder.within_fresh
        (b :: bytes) (Or.inr ⟨b, rfl, not_lt.mp hb⟩)
      obtain rfl := (List.cons.inj (htext.symm.trans h)).1
      rw [toNat_byteUnit] at hu
      omega
  · rintro ⟨rest, rfl, rfl⟩
    exact bufferText_cons hc rest

theorem bufferText_eq_nil {bytes : Bytes} : bufferText bytes = [] ↔ bytes = [] := by
  refine ⟨fun h ↦ ?_, fun h ↦ h ▸ rfl⟩
  rcases bytes with _ | ⟨b, bytes⟩
  · rfl
  by_cases hb : b.toNat < 0x80
  · rw [bufferText_cons hb] at h
    exact absurd h nofun
  · obtain ⟨u, t, htext, -⟩ := TextDecoder.rest_high TextDecoder.within_fresh
      (b :: bytes) (Or.inr ⟨b, rfl, not_lt.mp hb⟩)
    exact absurd (htext.symm.trans h) nofun

/-- A unit below 128 is that of a byte. -/
theorem exists_byteUnit {u : UInt16} (hu : u.toNat < 0x80) :
    ∃ b : UInt8, b.toNat < 0x80 ∧ byteUnit b = u := by
  have htoNat : (UInt8.ofNat u.toNat).toNat = u.toNat := by
    rw [UInt8.toNat_ofNat']
    omega
  refine ⟨UInt8.ofNat u.toNat, by omega, UInt16.toNat_inj.mp ?_⟩
  rw [toNat_byteUnit, htoNat]

/-- A text ends in a unit below 128 where the bytes end in the byte. -/
theorem getLast?_bufferText {c : UInt8} (hc : c.toNat < 0x80) (bytes : Bytes) :
    (bufferText bytes).getLast? = some (byteUnit c) ↔ bytes.getLast? = some c := by
  rcases List.eq_nil_or_concat bytes with rfl | ⟨before, b, rfl⟩
  · exact iff_of_false nofun nofun
  rw [List.concat_eq_append, List.getLast?_concat]
  by_cases hb : b.toNat < 0x80
  · rw [bufferText_append_cons hb, bufferText_nil, List.getLast?_concat, Option.some.injEq,
      Option.some.injEq, byteUnit_injective.eq_iff]
  · obtain ⟨hne, hunits⟩ := TextDecoder.rest_singleton
      (TextDecoder.within_decode TextDecoder.within_fresh before) (not_lt.mp hb)
    have htext : bufferText (before ++ [b]) = (TextDecoder.fresh.decode before).2 ++
        (TextDecoder.fresh.decode before).1.rest [b] := by
      rw [bufferText, TextDecoder.rest, TextDecoder.rest, TextDecoder.decode_append,
        List.append_assoc]
    rw [htext, List.getLast?_append_of_ne_nil _ hne]
    refine iff_of_false (fun hlast ↦ ?_) fun h ↦ hb (Option.some.inj h ▸ hc)
    have hle := hunits _ (List.mem_of_getLast? hlast)
    rw [toNat_byteUnit] at hle
    omega

/-- A text of units below 128 was read from just these bytes. -/
theorem bufferText_eq_iff (word bytes : Bytes) (hword : ∀ c ∈ word, c.toNat < 0x80) :
    bufferText bytes = word.map byteUnit ↔ bytes = word := by
  induction word generalizing bytes with
  | nil => exact bufferText_eq_nil
  | cons c word ih =>
    obtain ⟨hc, hword⟩ := List.forall_mem_cons.mp hword
    rw [List.map_cons, bufferText_eq_cons hc]
    constructor
    · rintro ⟨rest, rfl, hrest⟩
      rw [(ih rest hword).mp hrest]
    · rintro rfl
      exact ⟨word, rfl, (ih word hword).mpr rfl⟩

/-- A text is split where the bytes are. -/
theorem splitOn_bufferText {c : UInt8} (hc : c.toNat < 0x80) (bytes : Bytes) :
    (bufferText bytes).splitOn (byteUnit c) = (bytes.splitOn c).map bufferText := by
  by_cases hmem : c ∈ bytes
  · obtain ⟨before, after, rfl, hfree⟩ := List.eq_append_cons_of_mem hmem
    have hlength : after.length < (before ++ c :: after).length := by simp; omega
    rw [bufferText_append_cons hc, List.splitOn_append_cons_self, List.splitOn_append_cons_self,
      List.splitOn_eq_singleton (fun h ↦ hfree ((mem_bufferText hc _).mp h)),
      List.splitOn_eq_singleton hfree, splitOn_bufferText hc after]
    rfl
  · rw [List.splitOn_eq_singleton (fun h ↦ hmem ((mem_bufferText hc _).mp h)),
      List.splitOn_eq_singleton hmem]
    rfl
  termination_by bytes.length

end LiteHarness
