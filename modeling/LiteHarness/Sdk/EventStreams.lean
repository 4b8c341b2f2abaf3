import LiteHarness.Foundation.Generators
import LiteHarness.Platform.JsonText
import LiteHarness.Platform.Utf8
import LiteHarness.Provider.EventStream

/-!
# Event streams, read by the two SDKs

The gateway sends the events of a run as server-sent events: lines that end in a line feed, with a
carriage return in front of it or not, and an empty line behind each frame. The Python SDK reads
the body line by line (`iterPayloads`), the TypeScript SDK piece by piece (`readEventStream`). Both
put the data of a frame together, read it as JSON, and check what it is; `dataFrames` says which
lines make up a frame, without a word about either.

What a Python program would do with the events is not modelled: it takes each of them.
-/

namespace LiteHarness.Sdk

open Foundation Provider

/-! ## Streams -/

/-- A line, and whether a carriage return is in front of its line feed. -/
structure Line where
  text : List Char
  crlf : Bool := false
  feedless : '\n' ∉ text
  returnless : '\r' ∉ text

namespace Line

variable (l : Line)

/-- The characters that end the line. -/
def ends : List Char := if l.crlf then ['\r', '\n'] else ['\n']

/-- The line with its end. -/
def whole : List Char := l.text ++ l.ends

def bytes : Bytes := encodeText l.whole

/-- The code units of the line, without its end. -/
def units : JsString := textUnits l.text

end Line

/-- The body of a stream. -/
def streamBytes (lines : List Line) : Bytes := lines.flatMap Line.bytes

/-- The fields of the frames that are over, from those of the frame that is not. A field is what is
behind `data:` in its line. -/
def dataFrames (fields : List JsString) : List JsString → List (List JsString)
  | [] => []
  | line :: lines =>
    if line = [] then
      if fields = [] then dataFrames [] lines else fields :: dataFrames [] lines
    else if isDataLine line then dataFrames (fields ++ [line.drop 5]) lines
    else dataFrames fields lines

/-- The frames of a stream. -/
def streamFrames (lines : List Line) : List (List JsString) := dataFrames [] (lines.map Line.units)

/-! ## Errors and events -/

/-- What the SDKs raise, or let through. -/
inductive SdkError where
  /-- A `LiteHarnessError`. -/
  | harness (message code : JsString) (status : Option ℕ) (retryable : Bool)
  /-- An `OSError`, which a timeout is too. -/
  | os
  /-- A `UnicodeDecodeError`. -/
  | unicodeDecode
  /-- Another `ValueError`. -/
  | value
  /-- An `AttributeError` or a `TypeError`. -/
  | misuse
  deriving DecidableEq

/-- A `LiteHarnessError` that has no status and asks for no retry. -/
def harnessError (message code : String) : SdkError := .harness (js message) (js code) none false

/-- `_is_retryable_event_stream_error`. The other errors are not caught. -/
def SdkError.isRetryable : SdkError → Bool
  | .harness _ code status retryable =>
    code = js "event_stream_error" || retryable || status.any (500 ≤ ·)
  | .os => true
  | _ => false

/-- The value of a key. The last of equal keys counts. -/
def lookup (key : String) : JsonText → Option JsonText
  | .object members => (members.reverse.find? fun m ↦ m.1 = js key).map Prod.snd
  | _ => none

/-- The value, if it is a string. -/
def asString : Option JsonText → Option JsString
  | some (.string s) => some s
  | _ => none

/-- An event that was read: its sequence number, and all it says. -/
structure Event where
  sequence : ℤ
  record : JsonText

def invalidJson : SdkError :=
  harnessError "Event stream returned invalid JSON" "invalid_event_stream_frame"

def invalidFrame : SdkError :=
  harnessError "Event stream returned an invalid frame" "invalid_event_stream_frame"

def invalidEvent : SdkError :=
  harnessError "Event stream returned an invalid event" "invalid_event_stream_frame"

def differentRun : SdkError :=
  harnessError "Event stream returned a different run" "event_stream_run_mismatch"

/-- The error that the gateway reports in a frame. -/
def reported (message : JsString) : SdkError :=
  .harness message (js "event_stream_error") none true

/-! ## The Python SDK -/

namespace Python

/-- `str.isspace`. -/
def isSpace (u : UInt16) : Bool :=
  let n := u.toNat
  decide (9 ≤ n ∧ n ≤ 13) || decide (0x1C ≤ n ∧ n ≤ 0x20) || n == 0x85 || n == 0xA0 ||
    n == 0x1680 || decide (0x2000 ≤ n ∧ n ≤ 0x200A) || n == 0x2028 || n == 0x2029 || n == 0x202F ||
    n == 0x205F || n == 0x3000

/-- `text.lstrip()`. -/
def lstrip (text : JsString) : JsString := text.dropWhile isSpace

/-- `text.rstrip("\r\n")`. -/
def rstripEnds (text : JsString) : JsString :=
  (text.reverse.dropWhile fun u ↦ u = 13 || u = 10).reverse

/-- The lines of a body, each with its line feed, and the bytes behind the last of them. -/
def rawLines : Bytes → List Bytes × Bytes
  | [] => ([], [])
  | b :: bytes =>
    if b = 10 then ([b] :: (rawLines bytes).1, (rawLines bytes).2)
    else
      match rawLines bytes with
      | (line :: lines, rest) => ((b :: line) :: lines, rest)
      | ([], rest) => ([], b :: rest)

/-- The payload of a frame, in `_iter_sse_payloads`. -/
def framePayload (data : List JsString) : Except SdkError JsonText :=
  match jsonLoads ([lineFeed].intercalate data) with
  | .error .jsonDecode => .error invalidJson
  | .error .value => .error .value
  | .ok (.object members) => .ok (.object members)
  | .ok _ => .error invalidFrame

/-- `_iter_sse_payloads`, from the data lines of the frame that is not over. -/
def iterPayloads (data : List JsString) : List Bytes → Generated JsonText SdkError
  | [] => .yields []
  | raw :: raws =>
    match decodeStrict raw with
    | none => .throws .unicodeDecode
    | some text =>
      let line := rstripEnds text
      if line = [] then
        if data = [] then iterPayloads [] raws
        else
          match framePayload data with
          | .error e => .throws e
          | .ok payload => (Generated.yields [payload]).andThen (iterPayloads [] raws)
      else if isDataLine line then iterPayloads (data ++ [lstrip (line.drop 5)]) raws
      else iterPayloads data raws

/-- `_iter_sse_payloads` over a response of which some bytes arrive. Behind them the transport
raises an `OSError`, and the line that is not over is lost, or the body ends, and it is a line too.
-/
def responsePayloads (received : Bytes) (raises : Bool) : Generated JsonText SdkError :=
  let (lines, rest) := rawLines received
  if raises then (iterPayloads [] lines).andThen (.throws .os)
  else iterPayloads [] (lines ++ if rest = [] then [] else [rest])

/-- `isinstance(value, int) and not isinstance(value, bool)`. -/
def asInteger : Option JsonText → Option ℤ
  | some (.number n) => if n.isInteger then some n.integer else none
  | _ => none

/-- `isinstance(value, dict)`. -/
def isDict : Option JsonText → Bool
  | some (.object _) => true
  | _ => false

variable (runId : JsString)

/-- `_validate_event_payload`, with the sequence number that it has found to be one. -/
def validateEventPayload (payload : JsonText) : Except SdkError ℤ :=
  match asString (lookup "message" payload), asString (lookup "runId" payload) with
  | some message, none => .error (reported message)
  | _, none => .error invalidEvent
  | _, some id =>
    if id ≠ runId then .error differentRun
    else
      match asInteger (lookup "sequence" payload) with
      | none => .error invalidEvent
      | some sequence =>
        if sequence < 1 ∨ asString (lookup "type" payload) = none ∨
            isDict (lookup "payload" payload) = false ∨
            asString (lookup "createdAt" payload) = none then .error invalidEvent
        else .ok sequence

/-- `Event stream sequence gap: …`. -/
def sequenceGap (expected received : ℤ) : SdkError :=
  .harness (js "Event stream sequence gap: expected " ++ decimal expected.toNat ++
    js ", received " ++ decimal received.toNat) (js "event_sequence_gap") none false

/-- What the loop over the payloads of a stream has done. -/
structure Consumed where
  yielded : List Event := []
  cursor : ℤ
  error : Option SdkError := none

/-- The loop of `events` over the payloads, and then the error that ended them. -/
def consume (cursor : ℤ) (error : Option SdkError) : List JsonText → Consumed
  | [] => { cursor, error }
  | payload :: payloads =>
    match validateEventPayload runId payload with
    | .error e => { cursor, error := some e }
    | .ok sequence =>
      if sequence ≤ cursor then consume cursor error payloads
      else if sequence ≠ cursor + 1 then
        { cursor, error := some (sequenceGap (cursor + 1) sequence) }
      else
        let rest := consume sequence error payloads
        { rest with yielded := ⟨sequence, payload⟩ :: rest.yielded }

end Python

/-! ## The TypeScript SDK -/

namespace TypeScript

/-- `/\r?\n/` at the start of a text: what is behind it. -/
def afterLineEnd : JsString → Option JsString
  | 13 :: 10 :: rest => some rest
  | 10 :: rest => some rest
  | _ => none

/-- `/\r?\n\r?\n/` at the start of a text: what is behind it. -/
def afterBoundary (text : JsString) : Option JsString := (afterLineEnd text).bind afterLineEnd

/-- A text in front of the first frame. -/
def pushFront (front : JsString) : List JsString × JsString → List JsString × JsString
  | (frame :: frames, rest) => ((front ++ frame) :: frames, rest)
  | ([], rest) => ([], front ++ rest)

/-- The frames that are taken off a buffer at `/\r?\n\r?\n/`, and what is left of it. -/
def takeFrames : JsString → List JsString × JsString
  | 13 :: 10 :: 13 :: 10 :: text => ([] :: (takeFrames text).1, (takeFrames text).2)
  | 13 :: 10 :: 10 :: text => ([] :: (takeFrames text).1, (takeFrames text).2)
  | 10 :: 13 :: 10 :: text => ([] :: (takeFrames text).1, (takeFrames text).2)
  | 10 :: 10 :: text => ([] :: (takeFrames text).1, (takeFrames text).2)
  | u :: text => pushFront [u] (takeFrames text)
  | [] => ([], [])

/-- The fields of the lines of a frame. -/
def frameFields (frame : JsString) : List JsString :=
  ((splitLines frame).filter isDataLine).map (·.drop 5)

/-- `line.slice(5).trimStart()`. -/
def trimStart (text : JsString) : JsString := text.dropWhile isStrWhiteSpace

/-- `Number.isSafeInteger(value)`, with the integer. -/
def asSafeInteger : Option JsonText → Option ℤ
  | some (.number n) =>
    match toDouble n.value with
    | .finite q => if q.den = 1 ∧ |q.num| ≤ maxSafeInteger then some q.num else none
    | _ => none
  | _ => none

/-- `value && typeof value === "object"`. -/
def isObject : Option JsonText → Bool
  | some (.object _) => true
  | some (.array _) => true
  | _ => false

/-- `parseEventFrame`. -/
def parseEventFrame (data : JsString) : Except SdkError Event :=
  match jsonParse data with
  | none => .error invalidJson
  | some parsed =>
    if isObject (some parsed) = false then .error invalidFrame
    else
      match asString (lookup "message" parsed), asString (lookup "runId" parsed) with
      | some message, none => .error (reported message)
      | _, none => .error invalidEvent
      | _, some _ =>
        match asSafeInteger (lookup "sequence" parsed) with
        | none => .error invalidEvent
        | some sequence =>
          if sequence < 1 ∨ asString (lookup "type" parsed) = none ∨
              isObject (lookup "payload" parsed) = false ∨
              asString (lookup "createdAt" parsed) = none then .error invalidEvent
          else .ok ⟨sequence, parsed⟩

/-- `if (data) yield parseEventFrame(data)` over the frames of a buffer. -/
def frameEvents : List JsString → Generated Event SdkError
  | [] => .yields []
  | frame :: frames =>
    let data := [lineFeed].intercalate ((frameFields frame).map trimStart)
    if data = [] then frameEvents frames
    else
      match parseEventFrame data with
      | .error e => .throws e
      | .ok event => (Generated.yields [event]).andThen (frameEvents frames)

/-- The loop of `readEventStream`, from what is in the buffer and the texts that are still to come.
-/
def readTexts (buffer : JsString) : List JsString → Generated Event SdkError
  | [] => .yields []
  | text :: texts =>
    let taken := takeFrames (buffer ++ text)
    (frameEvents taken.1).andThen (readTexts taken.2 texts)

/-- `readEventStream` over the pieces of a body. -/
def readEventStream (chunks : List Bytes) : Generated Event SdkError :=
  readTexts [] (({} : TextDecoder).texts chunks)

end TypeScript

end LiteHarness.Sdk
