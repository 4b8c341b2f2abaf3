import Mathlib.Data.List.TakeWhile
import LiteHarness.ControlPlane.Agent
import LiteHarness.Foundation.Blocks
import LiteHarness.Platform.TextDecoder
import LiteHarness.Provider.Answers

/-!
# Event streams

`readSseData`, which reads the `data:` fields of a stream of server-sent events. A body arrives in
pieces that can be cut anywhere. Each is decoded and its line ends are made line feeds, it is added
to what was left of the pieces before, the whole is checked against a limit, and the frames that are
over are taken off.

The stream is read to its end, and nobody aborts the read.
-/

namespace LiteHarness.Provider

open Foundation

abbrev lineFeed : UInt16 := 10
abbrev carriageReturn : UInt16 := 13

/-- `text.replaceAll("\r\n", "\n")`. -/
def withoutReturns : JsString → JsString
  | [] => []
  | [u] => [u]
  | u :: v :: rest =>
    if u = carriageReturn ∧ v = lineFeed then lineFeed :: withoutReturns rest
    else u :: withoutReturns (v :: rest)

/-! ## Frames -/

/-- `line.startsWith("data:")`. -/
def isDataLine (line : JsString) : Bool := (js "data:").isPrefixOf line

/-- `line.slice(5).trimStart()`. -/
def dataOf (line : JsString) : JsString := (line.drop 5).dropWhile isStrWhiteSpace

/-- The data of the lines of a frame. -/
def frameData (frame : JsString) : List JsString :=
  ((frame.splitOn lineFeed).filter isDataLine).map dataOf

/-- `if (data) yield data`, where `data` are lines joined by line feeds. -/
def yieldData (lines : List JsString) : List JsString :=
  if [lineFeed].intercalate lines = [] then [] else [[lineFeed].intercalate lines]

/-- What a frame yields. -/
def framePayload (frame : JsString) : List JsString := yieldData (frameData frame)

/-- The `ProviderError` of a frame that is too large. -/
def frameTooLarge : ProviderError :=
  providerError "response_too_large" "Provider SSE frame exceeded the buffer limit"

/-! ## The reader -/

/-- `maxBufferBytes` when the caller gives none. -/
def defaultBufferBytes : ℕ := 2 * 1024 * 1024

/-- The loop of the reader, from what is in the buffer and the texts that are still to come, of
which the last one is read when the stream is done. -/
def readTexts (maxBufferBytes : ℕ) (buffer : JsString) :
    List JsString → Generated JsString ProviderError
  | [] => .yields (if trim buffer = [] then [] else framePayload buffer)
  | text :: texts =>
    let buffer := buffer ++ withoutReturns text
    if maxBufferBytes < byteLength buffer then .throws frameTooLarge
    else
      (Generated.yields ((finished lineFeed buffer).1.flatMap framePayload)).andThen
        (readTexts maxBufferBytes (finished lineFeed buffer).2 texts)

/-- `readSseData` over the pieces of a body. -/
def readSseData (maxBufferBytes : ℕ) :
    Option (List (List UInt8)) → Generated JsString ProviderError
  | none => .throws (providerError "invalid_response" "Provider response body is missing")
  | some chunks => readTexts maxBufferBytes [] (({} : TextDecoder).texts chunks)

/-! ## The reference

What a text holds, without a word about how it arrived. -/

/-- The payloads of a text whose lines end in line feeds. -/
def payloads (text : JsString) : List JsString := (blocks lineFeed text).flatMap framePayload

/-- Some frame of a text is larger than the limit, with the empty line that ends it. -/
def Oversize (maxBufferBytes : ℕ) (text : JsString) : Prop :=
  (∃ frame ∈ (finished lineFeed text).1,
      maxBufferBytes < byteLength (frame ++ [lineFeed, lineFeed])) ∨
    maxBufferBytes < byteLength (finished lineFeed text).2

instance (maxBufferBytes : ℕ) (text : JsString) : Decidable (Oversize maxBufferBytes text) :=
  inferInstanceAs (Decidable (_ ∨ _))

/-- The text of a body, with its line ends made line feeds. -/
def bodyText (bytes : List UInt8) : JsString := withoutReturns (decodeText bytes)

/-- The reader treats the pieces as the bytes they make up ask for: the limit is reported when some
frame is larger, and otherwise the payloads are those of the text. -/
def ReadsWhole (maxBufferBytes : ℕ) (chunks : List (List UInt8)) : Prop :=
  ((readSseData maxBufferBytes (some chunks)).error ≠ none ↔
      Oversize maxBufferBytes (bodyText chunks.flatten)) ∧
    (¬ Oversize maxBufferBytes (bodyText chunks.flatten) →
      (readSseData maxBufferBytes (some chunks)).items = payloads (bodyText chunks.flatten))

/-! ## A run of the reader -/

/-- Every text fits in the buffer behind what is left of the frame before it. -/
def Fits (maxBufferBytes : ℕ) (seen : JsString) (texts : List JsString) : Prop :=
  ∀ before text after, texts = before ++ text :: after →
    byteLength ((finished lineFeed (seen ++ before.flatMap withoutReturns)).2
      ++ withoutReturns text) ≤ maxBufferBytes

variable {maxBufferBytes : ℕ}

theorem fits_cons {seen text : JsString} {texts : List JsString} :
    Fits maxBufferBytes seen (text :: texts) ↔
      byteLength ((finished lineFeed seen).2 ++ withoutReturns text) ≤ maxBufferBytes ∧
        Fits maxBufferBytes (seen ++ withoutReturns text) texts := by
  constructor
  · intro h
    constructor
    · have hfirst := h [] text texts rfl
      rwa [List.flatMap_nil, List.append_nil] at hfirst
    · intro before next after hsplit
      have hnext := h (text :: before) next after (congrArg (text :: ·) hsplit)
      rwa [List.flatMap_cons, ← List.append_assoc] at hnext
  · rintro ⟨hfirst, hrest⟩ before next after hsplit
    rcases before with _ | ⟨first, before⟩
    · obtain ⟨rfl, -⟩ := List.cons.inj hsplit
      rwa [List.flatMap_nil, List.append_nil]
    · obtain ⟨rfl, htexts⟩ := List.cons.inj hsplit
      rw [List.flatMap_cons, ← List.append_assoc]
      exact hrest before next after htexts

/-- What `trim` leaves nothing of is white space. -/
theorem isStrWhiteSpace_of_trim {text : JsString} (h : trim text = []) {u : UInt16}
    (hu : u ∈ text) : isStrWhiteSpace u = true := by
  have hrest : ∀ v ∈ text.dropWhile isStrWhiteSpace, isStrWhiteSpace v = true := by
    intro v hv
    have hnil := List.reverse_eq_nil_iff.mp h
    exact List.dropWhile_eq_nil_iff.mp hnil v (List.mem_reverse.mpr hv)
  rw [← List.takeWhile_append_dropWhile (p := isStrWhiteSpace) (l := text)] at hu
  rcases List.mem_append.mp hu with hu | hu
  · exact List.mem_takeWhile_imp hu
  · exact hrest u hu

/-- White space holds no data. -/
theorem framePayload_of_blank {frame : JsString} (h : trim frame = []) :
    framePayload frame = [] := by
  have hnone : (frame.splitOn lineFeed).filter isDataLine = [] := by
    refine List.filter_eq_nil_iff.mpr fun line hline hdata ↦ ?_
    -- A data line has a `d`, which is no white space.
    have hd : (100 : UInt16) ∈ line := (List.isPrefixOf_iff_prefix.mp hdata).subset (by decide)
    have := isStrWhiteSpace_of_trim h (mem_of_mem_splitOn hline hd)
    exact absurd this (by decide)
  rw [framePayload, frameData, hnone]
  rfl

theorem payloads_append (s t : JsString) :
    payloads (s ++ t) = (finished lineFeed s).1.flatMap framePayload
      ++ payloads ((finished lineFeed s).2 ++ t) := by
  rw [payloads, blocks_append, List.flatMap_append]
  rfl

/-- **What the loop does**: it yields the payloads of all that is left when everything fits, and
reports the limit when something does not. -/
theorem readTexts_spec (seen : JsString) (texts : List JsString) :
    (Fits maxBufferBytes seen texts →
        readTexts maxBufferBytes (finished lineFeed seen).2 texts
          = .yields (payloads ((finished lineFeed seen).2 ++ texts.flatMap withoutReturns))) ∧
      (¬ Fits maxBufferBytes seen texts →
        (readTexts maxBufferBytes (finished lineFeed seen).2 texts).error ≠ none) := by
  induction texts generalizing seen with
  | nil =>
    constructor
    · intro _
      rw [readTexts, List.flatMap_nil, List.append_nil, payloads, blocks_rest,
        List.flatMap_singleton]
      by_cases hblank : trim (finished lineFeed seen).2 = []
      · rw [if_pos hblank, framePayload_of_blank hblank]
      · rw [if_neg hblank]
    · intro h
      exact absurd (fun before _ _ hsplit ↦ absurd hsplit.symm (by simp)) h
  | cons text texts ih =>
    obtain ⟨hfits, hover⟩ := ih (seen ++ withoutReturns text)
    -- What is left of the buffer is what is left of all the text so far.
    have hrest : (finished lineFeed ((finished lineFeed seen).2 ++ withoutReturns text)).2
        = (finished lineFeed (seen ++ withoutReturns text)).2 := by
      rw [finished_append seen]
    rw [readTexts]
    by_cases hlarge : maxBufferBytes
        < byteLength ((finished lineFeed seen).2 ++ withoutReturns text)
    · simp only [if_pos hlarge]
      exact ⟨fun h ↦ absurd (fits_cons.mp h).1 (by omega), fun _ ↦ Option.some_ne_none _⟩
    · simp only [if_neg hlarge, hrest]
      constructor
      · intro h
        rw [hfits (fits_cons.mp h).2, List.flatMap_cons, ← List.append_assoc, ← hrest,
          payloads_append (_ ++ _)]
        rfl
      · intro h
        exact hover fun hfit ↦ h (fits_cons.mpr ⟨by omega, hfit⟩)

/-! ## Sizes -/

/-- The text as the reader puts it together, where the pieces make no difference to the characters
but line ends are looked for in each piece alone. -/
def joinedText (chunks : List (List UInt8)) : JsString :=
  (({} : TextDecoder).texts chunks).flatMap withoutReturns

/-- **A run of the reader**: it succeeds when everything fits, with the payloads of the text it put
together. -/
theorem readSseData_spec (maxBufferBytes : ℕ) (chunks : List (List UInt8)) :
    (Fits maxBufferBytes [] (({} : TextDecoder).texts chunks) →
        readSseData maxBufferBytes (some chunks) = .yields (payloads (joinedText chunks))) ∧
      (¬ Fits maxBufferBytes [] (({} : TextDecoder).texts chunks) →
        (readSseData maxBufferBytes (some chunks)).error ≠ none) :=
  readTexts_spec [] (({} : TextDecoder).texts chunks)

end LiteHarness.Provider
