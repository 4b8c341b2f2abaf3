import LiteHarness.Foundation.Blocks
import LiteHarness.Platform.JsString

/-!
# The log of a service

`RedactedStreamBuffer` takes the output of a service in chunks, decodes it, and emits a redacted
text for each line. Of a line that is too long it emits a fixed text, as soon as it sees that the
line is too long, and nothing else.

What is emitted depends on the stream alone. The invariant is about the line that is not over yet:
it is what the buffer holds, or it was too long already and was reported.
-/

namespace LiteHarness.Operations

open Foundation

/-- The line feed. -/
abbrev lineFeed : UInt16 := 10

/-- A decoder reads chunks one after the other. -/
def readChunks {σ : Type} (write : σ → List UInt8 → σ × JsString) (start : σ × JsString)
    (chunks : List (List UInt8)) : σ × JsString :=
  chunks.foldl (fun r chunk ↦ ((write r.1 chunk).1, r.2 ++ (write r.1 chunk).2)) start

/-- `StringDecoder`, which decodes a stream as it does the whole of it. -/
structure StringDecoder where
  State : Type
  start : State
  write : State → List UInt8 → State × JsString
  /-- `end()`: the text of what is left. -/
  finish : State → JsString
  /-- What the bytes of a whole stream are decoded to. -/
  decode : List UInt8 → JsString
  /-- The text does not depend on the chunks. -/
  decode_flatten : ∀ chunks : List (List UInt8),
    (readChunks write (start, []) chunks).2 ++ finish (readChunks write (start, []) chunks).1 =
      decode chunks.flatten

/-- The text for a line that is too long. -/
def oversizedLine : JsString := js "[REDACTED OVERSIZED LOG LINE]\n"

/-- The buffer, behind its decoder, with the texts that it has emitted. -/
structure RedactedStreamBuffer where
  pending : JsString := []
  discardingOversizedLine : Bool := false
  ended : Bool := false
  emitted : List JsString := []

namespace RedactedStreamBuffer

variable (maxLineBytes : ℕ) (redactServiceLog : JsString → JsString)

/-- The body of the loop of `#accept`, on a line with its line feed. -/
def takeLine (b : RedactedStreamBuffer) (line : JsString) : RedactedStreamBuffer :=
  if b.discardingOversizedLine then { b with discardingOversizedLine := false }
  else if maxLineBytes < byteLength line then { b with emitted := b.emitted ++ [oversizedLine] }
  else { b with emitted := b.emitted ++ [redactServiceLog line] }

/-- `#accept`. The loop runs once for each line that is over. -/
def accept (b : RedactedStreamBuffer) (decoded : JsString) : RedactedStreamBuffer :=
  let lines := (b.pending ++ decoded).splitOn lineFeed
  let b' := (lines.dropLast.map (· ++ [lineFeed])).foldl (takeLine maxLineBytes redactServiceLog) b
  let pending := lines.getLast (List.splitOn_ne_nil lineFeed _)
  if maxLineBytes < byteLength pending then
    { b' with
      pending := []
      discardingOversizedLine := true
      emitted := if b'.discardingOversizedLine then b'.emitted else b'.emitted ++ [oversizedLine] }
  else { b' with pending }

/-- `end`, on the text that the decoder ends with. -/
def finish (b : RedactedStreamBuffer) (rest : JsString) : RedactedStreamBuffer :=
  if b.ended then b
  else
    let b' := accept maxLineBytes redactServiceLog { b with ended := true } rest
    { b' with
      pending := []
      discardingOversizedLine := false
      emitted :=
        if b'.discardingOversizedLine = false ∧ b'.pending ≠ [] then
          b'.emitted ++ [redactServiceLog b'.pending]
        else b'.emitted }

variable (D : StringDecoder)

/-- `write`, with the state of the decoder. It throws when the stream is over, which `none` is. -/
def write (s : D.State × RedactedStreamBuffer) (chunk : List UInt8) :
    Option (D.State × RedactedStreamBuffer) :=
  if s.2.ended then none
  else some ((D.write s.1 chunk).1, accept maxLineBytes redactServiceLog s.2 (D.write s.1 chunk).2)

/-- `decoder.end(chunk)`, also without a chunk. -/
def decoderEnd (state : D.State) : Option (List UInt8) → JsString
  | none => D.finish state
  | some chunk => (D.write state chunk).2 ++ D.finish (D.write state chunk).1

/-- The texts that are emitted for a stream that is written in chunks and ended, maybe with a last
chunk. -/
def emittedFor (chunks : List (List UInt8)) (last : Option (List UInt8)) :
    Option (List JsString) :=
  (chunks.foldlM (write maxLineBytes redactServiceLog D) (D.start, {})).map fun s ↦
    (finish maxLineBytes redactServiceLog s.2 (decoderEnd D s.1 last)).emitted

/-! ## What the texts should be -/

/-- The lines of a text, each with its line feed, and the last one without if nothing ends it. -/
def linesOf (text : JsString) : List JsString :=
  let lines := text.splitOn lineFeed
  let last := lines.getLast (List.splitOn_ne_nil lineFeed text)
  lines.dropLast.map (· ++ [lineFeed]) ++ if last = [] then [] else [last]

/-- The text for a line. -/
def textFor (line : JsString) : JsString :=
  if byteLength line ≤ maxLineBytes then redactServiceLog line else oversizedLine

/-! ## Lines that go on -/

variable {maxLineBytes redactServiceLog}

/-- Lines are taken one by one. -/
theorem foldl_takeLine (lines : List JsString) {b : RedactedStreamBuffer}
    (h : b.discardingOversizedLine = false) :
    lines.foldl (takeLine maxLineBytes redactServiceLog) b =
      { b with emitted := b.emitted ++ lines.map (textFor maxLineBytes redactServiceLog) } := by
  induction lines generalizing b with
  | nil => rw [List.foldl_nil, List.map_nil, List.append_nil]
  | cons line lines ih =>
    have hline : takeLine maxLineBytes redactServiceLog b line =
        { b with emitted := b.emitted ++ [textFor maxLineBytes redactServiceLog line] } := by
      rw [takeLine, if_neg (by rw [h]; exact Bool.false_ne_true), textFor]
      by_cases hlong : maxLineBytes < byteLength line
      · rw [if_pos hlong, if_neg (not_le.mpr hlong)]
      · rw [if_neg hlong, if_pos (not_lt.mp hlong)]
    rw [List.foldl_cons, hline, ih (by exact h), List.map_cons, List.append_assoc,
      List.singleton_append]

/-- What the buffer is after a text: the lines that are over were taken, and the last line is
pending, or it is too long and was reported. -/
structure Holds (maxLineBytes : ℕ) (redactServiceLog : JsString → JsString)
    (b : RedactedStreamBuffer) (lines : List JsString) (last : JsString) : Prop where
  pending : lineFeed ∉ b.pending
  fits : b.discardingOversizedLine = false → b.pending = last ∧ byteLength last ≤ maxLineBytes ∧
    b.emitted = (lines.map (· ++ [lineFeed])).map (textFor maxLineBytes redactServiceLog)
  oversized : b.discardingOversizedLine = true → maxLineBytes < byteLength last ∧
    b.emitted = (lines.map (· ++ [lineFeed])).map (textFor maxLineBytes redactServiceLog) ++
      [oversizedLine]

/-- A line that is taken into the buffer after all the lines before it. -/
theorem accept_eq {b : RedactedStreamBuffer} {decoded : JsString} (lines : List JsString)
    {last : JsString} (h : (b.pending ++ decoded).splitOn lineFeed = lines ++ [last]) :
    accept maxLineBytes redactServiceLog b decoded =
      let b' := (lines.map (· ++ [lineFeed])).foldl (takeLine maxLineBytes redactServiceLog) b
      if maxLineBytes < byteLength last then
        { b' with
          pending := []
          discardingOversizedLine := true
          emitted :=
            if b'.discardingOversizedLine then b'.emitted else b'.emitted ++ [oversizedLine] }
      else { b' with pending := last } := by
  have hdrop : ((b.pending ++ decoded).splitOn lineFeed).dropLast = lines := by
    rw [h, List.dropLast_concat]
  have hlast : ((b.pending ++ decoded).splitOn lineFeed).getLast
      (List.splitOn_ne_nil lineFeed _) = last := by
    simp only [h, List.getLast_append_singleton]
  rw [accept, hdrop, hlast]

/-- What is left when the lines that are over were taken. -/
theorem Holds.of_lines {b : RedactedStreamBuffer} {lines : List JsString} {last : JsString}
    (hlast : lineFeed ∉ last) (hopen : b.discardingOversizedLine = false)
    (hemitted : b.emitted =
      (lines.map (· ++ [lineFeed])).map (textFor maxLineBytes redactServiceLog)) :
    Holds maxLineBytes redactServiceLog
      (if maxLineBytes < byteLength last then
        { b with
          pending := []
          discardingOversizedLine := true
          emitted :=
            if b.discardingOversizedLine then b.emitted else b.emitted ++ [oversizedLine] }
      else { b with pending := last }) lines last := by
  by_cases hlong : maxLineBytes < byteLength last
  · rw [if_pos hlong]
    refine ⟨List.not_mem_nil, fun hfalse ↦ absurd hfalse.symm Bool.false_ne_true, fun _ ↦ ?_⟩
    refine ⟨hlong, ?_⟩
    dsimp only
    rw [hopen, if_neg Bool.false_ne_true, hemitted]
  · rw [if_neg hlong]
    refine ⟨hlast, fun _ ↦ ⟨rfl, not_lt.mp hlong, hemitted⟩, fun htrue ↦ ?_⟩
    exact absurd (hopen.symm.trans htrue) Bool.false_ne_true

/-- **More text**: the buffer goes on with the line it is in. -/
theorem Holds.accept {b : RedactedStreamBuffer} {lines more : List JsString}
    {last last' decoded : JsString} (h : Holds maxLineBytes redactServiceLog b lines last)
    (hmore : (last ++ decoded).splitOn lineFeed = more ++ [last']) (hlast : lineFeed ∉ last) :
    Holds maxLineBytes redactServiceLog
      (RedactedStreamBuffer.accept maxLineBytes redactServiceLog b decoded) (lines ++ more)
      last' := by
  have hlast' : lineFeed ∉ last' := by
    refine notMem_of_mem_splitOn (s := last ++ decoded) ?_
    rw [hmore]
    exact List.mem_append_right _ List.mem_cons_self
  rcases hopen : b.discardingOversizedLine with _ | _
  · obtain ⟨hpending, -, hemitted⟩ := h.fits hopen
    rw [accept_eq more (hpending ▸ hmore)]
    dsimp only
    rw [foldl_takeLine _ hopen]
    refine Holds.of_lines hlast' hopen ?_
    dsimp only
    rw [hemitted, List.map_append, List.map_append]
  · obtain ⟨hlong, hemitted⟩ := h.oversized hopen
    -- the rest of the line, and the lines behind it
    rcases hsplit : decoded.splitOn lineFeed with _ | ⟨rest, behind⟩
    · exact absurd hsplit (List.splitOn_ne_nil lineFeed decoded)
    have hpending := splitOn_append_of_notMem h.pending decoded
    rw [splitOn_append_of_notMem hlast, hsplit, List.modifyHead_cons] at hmore
    rw [hsplit, List.modifyHead_cons] at hpending
    have hlonger : maxLineBytes < byteLength (last ++ rest) :=
      hlong.trans_le (byteLength_le_append last rest)
    rcases List.eq_nil_or_concat behind with rfl | ⟨ready, next, rfl⟩
    · -- the line is not over yet
      have hmore : [] ++ [last ++ rest] = more ++ [last'] := hmore
      obtain ⟨rfl, hnext⟩ := List.append_inj' hmore rfl
      obtain rfl : last ++ rest = last' := List.head_eq_of_cons_eq hnext
      have hfree : lineFeed ∉ b.pending ++ rest := by
        refine notMem_of_mem_splitOn (s := b.pending ++ decoded) ?_
        rw [hpending]
        exact List.mem_cons_self
      rw [accept_eq [] hpending, List.append_nil]
      simp only [List.map_nil, List.foldl_nil]
      rw [hopen, if_pos rfl]
      split_ifs
      · exact ⟨List.not_mem_nil, fun hfalse ↦ absurd hfalse.symm Bool.false_ne_true,
          fun _ ↦ ⟨hlonger, hemitted⟩⟩
      · exact ⟨hfree, fun hfalse ↦ absurd hfalse.symm Bool.false_ne_true,
          fun _ ↦ ⟨hlonger, hemitted⟩⟩
    · -- the line is over, and was reported when it got too long
      rw [List.concat_eq_append] at hmore hpending
      have hmore : ((last ++ rest) :: ready) ++ [next] = more ++ [last'] := hmore
      obtain ⟨rfl, hnext⟩ := List.append_inj' hmore rfl
      obtain rfl : next = last' := List.head_eq_of_cons_eq hnext
      have hskip : takeLine maxLineBytes redactServiceLog b (b.pending ++ rest ++ [lineFeed]) =
          { b with discardingOversizedLine := false } := by
        rw [takeLine, if_pos hopen]
      have htext : textFor maxLineBytes redactServiceLog (last ++ rest ++ [lineFeed]) =
          oversizedLine :=
        if_neg (not_le.mpr (hlonger.trans_le (byteLength_le_append _ [lineFeed])))
      rw [accept_eq ((b.pending ++ rest) :: ready) hpending]
      dsimp only
      rw [List.map_cons, List.foldl_cons, hskip, foldl_takeLine _ rfl]
      refine Holds.of_lines hlast' rfl ?_
      dsimp only
      rw [hemitted, List.map_append, List.map_append, List.map_cons, List.map_cons, htext,
        List.append_assoc, List.singleton_append]

/-! ## Streams -/

theorem accept_ended (b : RedactedStreamBuffer) (decoded : JsString) :
    (RedactedStreamBuffer.accept maxLineBytes redactServiceLog b decoded).ended = b.ended := by
  have hline (b : RedactedStreamBuffer) (line : JsString) :
      (takeLine maxLineBytes redactServiceLog b line).ended = b.ended := by
    rw [takeLine]
    split_ifs <;> rfl
  have hlines (lines : List JsString) (b : RedactedStreamBuffer) :
      (lines.foldl (takeLine maxLineBytes redactServiceLog) b).ended = b.ended := by
    induction lines generalizing b with
    | nil => rfl
    | cons line lines ih => rw [List.foldl_cons, ih, hline]
  rw [RedactedStreamBuffer.accept]
  split_ifs <;> exact hlines _ b

/-- The buffer has taken the text: it holds the last line of it. -/
def Took (maxLineBytes : ℕ) (redactServiceLog : JsString → JsString) (b : RedactedStreamBuffer)
    (text : JsString) : Prop :=
  ∃ lines last, text.splitOn lineFeed = lines ++ [last] ∧
    Holds maxLineBytes redactServiceLog b lines last

theorem took_nil : Took maxLineBytes redactServiceLog {} [] :=
  ⟨[], [], List.splitOn_nil lineFeed, List.not_mem_nil,
    fun _ ↦ ⟨rfl, Nat.zero_le _, rfl⟩, fun h ↦ absurd h Bool.false_ne_true⟩

theorem Took.accept {b : RedactedStreamBuffer} {text : JsString}
    (h : Took maxLineBytes redactServiceLog b text) (decoded : JsString) :
    Took maxLineBytes redactServiceLog
      (RedactedStreamBuffer.accept maxLineBytes redactServiceLog b decoded) (text ++ decoded) := by
  obtain ⟨lines, last, hsplit, hholds⟩ := h
  have hlast : lineFeed ∉ last := by
    refine notMem_of_mem_splitOn (s := text) ?_
    rw [hsplit]
    exact List.mem_append_right _ List.mem_cons_self
  obtain ⟨more, last', hmore⟩ : ∃ more last', (last ++ decoded).splitOn lineFeed =
      more ++ [last'] :=
    ⟨_, _, (List.dropLast_concat_getLast (List.splitOn_ne_nil lineFeed _)).symm⟩
  refine ⟨lines ++ more, last', ?_, hholds.accept hmore hlast⟩
  rw [splitOn_append hsplit decoded, hmore, List.append_assoc]

/-- At the end the last line is emitted, unless there is none or it was reported. -/
theorem Took.finish {b : RedactedStreamBuffer} {text : JsString}
    (h : Took maxLineBytes redactServiceLog b text) (hopen : b.ended = false) (rest : JsString) :
    (RedactedStreamBuffer.finish maxLineBytes redactServiceLog b rest).emitted =
      (linesOf (text ++ rest)).map (textFor maxLineBytes redactServiceLog) := by
  obtain ⟨lines, last, hsplit, hholds⟩ := h
  have hended : Took maxLineBytes redactServiceLog { b with ended := true } text :=
    ⟨lines, last, hsplit, hholds.pending, hholds.fits, hholds.oversized⟩
  obtain ⟨lines, last, hsplit, hholds⟩ := hended.accept rest
  have hlines : linesOf (text ++ rest) =
      lines.map (· ++ [lineFeed]) ++ if last = [] then [] else [last] := by
    rw [linesOf]
    simp only [hsplit, List.dropLast_concat, List.getLast_append_singleton]
  rw [RedactedStreamBuffer.finish, hopen, if_neg Bool.false_ne_true, hlines, List.map_append]
  dsimp only
  rcases hoversized : (RedactedStreamBuffer.accept maxLineBytes redactServiceLog
      { b with ended := true } rest).discardingOversizedLine with _ | _
  · obtain ⟨hpending, hfits, hemitted⟩ := hholds.fits hoversized
    rw [hpending, hemitted]
    by_cases hnil : last = []
    · rw [if_neg fun h ↦ h.2 hnil, if_pos hnil, List.map_nil, List.append_nil]
    · rw [if_pos ⟨rfl, hnil⟩, if_neg hnil, List.map_singleton, textFor, if_pos hfits]
  · obtain ⟨hlong, hemitted⟩ := hholds.oversized hoversized
    have hnil : last ≠ [] := by
      rintro rfl
      exact absurd hlong (Nat.not_lt_zero _)
    rw [if_neg fun h ↦ Bool.false_ne_true h.1.symm, hemitted, if_neg hnil, List.map_singleton,
      textFor, if_neg (not_le.mpr hlong)]

variable {D : StringDecoder}

/-- The chunks are decoded and taken one after the other. -/
theorem took_chunks (chunks : List (List UInt8)) (state : D.State) {b : RedactedStreamBuffer}
    {text : JsString} (h : Took maxLineBytes redactServiceLog b text) (hopen : b.ended = false) :
    ∃ b', chunks.foldlM (write maxLineBytes redactServiceLog D) (state, b) =
        some ((readChunks D.write (state, text) chunks).1, b') ∧ b'.ended = false ∧
      Took maxLineBytes redactServiceLog b' (readChunks D.write (state, text) chunks).2 := by
  induction chunks generalizing state b text with
  | nil => exact ⟨b, rfl, hopen, h⟩
  | cons chunk chunks ih =>
    obtain ⟨b', hrun, hopen', htook⟩ := ih (D.write state chunk).1
      (h.accept (D.write state chunk).2) ((accept_ended b _).trans hopen)
    refine ⟨b', ?_, hopen', htook⟩
    rw [List.foldlM_cons, write, hopen, if_neg Bool.false_ne_true]
    exact hrun

/-- What the decoder says in the end makes the whole text. -/
theorem read_decoderEnd (chunks : List (List UInt8)) (last : Option (List UInt8)) :
    (readChunks D.write (D.start, []) chunks).2 ++
        decoderEnd D (readChunks D.write (D.start, []) chunks).1 last =
      D.decode (chunks ++ last.toList).flatten := by
  rw [← D.decode_flatten, readChunks, readChunks, List.foldl_append]
  rcases last with _ | chunk
  · rfl
  · exact (List.append_assoc ..).symm

end RedactedStreamBuffer

open RedactedStreamBuffer in
/-- **The emitted texts do not depend on the chunks**: they are those of the lines of the stream, in
order, each redacted or replaced as a whole. -/
theorem emittedFor_eq (maxLineBytes : ℕ) (redactServiceLog : JsString → JsString)
    (D : StringDecoder) (chunks : List (List UInt8)) (last : Option (List UInt8)) :
    emittedFor maxLineBytes redactServiceLog D chunks last =
        some ((linesOf (D.decode (chunks ++ last.toList).flatten)).map
          (textFor maxLineBytes redactServiceLog)) ∧
      ∀ (chunks' : List (List UInt8)) (last' : Option (List UInt8)),
        (chunks' ++ last'.toList).flatten = (chunks ++ last.toList).flatten →
          emittedFor maxLineBytes redactServiceLog D chunks' last' =
            emittedFor maxLineBytes redactServiceLog D chunks last := by
  have hemitted (chunks : List (List UInt8)) (last : Option (List UInt8)) :
      emittedFor maxLineBytes redactServiceLog D chunks last =
        some ((linesOf (D.decode (chunks ++ last.toList).flatten)).map
          (textFor maxLineBytes redactServiceLog)) := by
    obtain ⟨b, hrun, hopen, htook⟩ := took_chunks chunks D.start took_nil rfl
    rw [emittedFor, hrun, Option.map_some, htook.finish hopen, read_decoderEnd]
  refine ⟨hemitted chunks last, fun chunks' last' hsame ↦ ?_⟩
  rw [hemitted chunks' last', hemitted chunks last, hsame]

end LiteHarness.Operations
