import LiteHarness.Foundation.Suspension
import LiteHarness.Platform.TextDecoder
import LiteHarness.ProcessRpc.Client

/-!
# The standard output of child processes

What `JsonLineRpcClient` does with the bytes that its child processes write. The bytes of an
instance are decoded by a decoder of its own, but all instances share one buffer. A `data` event
adds to the buffer and starts a loop over the lines that are complete; each is handed to
`#acceptMessage`. The loop is synchronous: while it runs nothing else happens but what the listeners
of a notification and the handler of a request of the process call.

An exception that leaves the loop is an uncaught exception of the listener of `data`. A promise
nobody waits for may be rejected: that of a stop the handler has begun, and that of an answer to a
request of the process. Beside the state of the client a reader keeps what has arrived of each
instance, the messages that were handled, and whether either of the two has happened.
-/

namespace LiteHarness.ProcessRpc

open Foundation JsonLineRpcClient

/-! ## Messages -/

/-- The options, and whether a handler for the requests of the process is given. -/
structure ReaderOptions extends RpcOptions where
  onServerRequest : Bool := false

namespace LineReader

mutual

/-- `String(value)` gives a text. An own property `toString` of a JSON object is no function, and
the `valueOf` that is tried next gives the object itself. -/
def hasText : JsValue → Bool
  | .array items => itemsHaveText items
  | .object fields => fields.all fun f ↦ f.1 ≠ js "toString"
  | _ => true

def itemsHaveText : List JsValue → Bool
  | [] => true
  | item :: items => hasText item && itemsHaveText items

end

/-- The `id` is a string or a number. -/
def hasId (message : JsValue) : Bool :=
  match property message "id" with
  | .string _ => true
  | .number _ => true
  | _ => false

/-- The `method` is a string. -/
def hasMethod (message : JsValue) : Bool :=
  match property message "method" with
  | .string _ => true
  | _ => false

def isResponse (message : JsValue) : Bool :=
  hasId message && (hasProperty message "result" || hasProperty message "error")

def isServerRequest (message : JsValue) : Bool :=
  !isResponse message && hasId message && hasMethod message

def isNotification (message : JsValue) : Bool :=
  !isResponse message && !hasId message && hasMethod message

/-- `#acceptMessage` itself throws: it reads a property of `null`, or the error of a response cannot
be made a text. -/
def throwsOn (message : JsValue) : Bool :=
  match message with
  | .null => true
  | message =>
    let body := property message "error"
    isResponse message && isTruthy body &&
      !(hasText (property body "code") && hasText (property body "message"))

end LineReader

open LineReader

/-! ## The reader -/

/-- A client, its decoders and the loop that runs, with what is noted about them. -/
structure LineReader where
  client : JsonLineRpcClient := {}
  /-- The decoder of each instance, which keeps a byte order mark. -/
  decoders : ℕ → TextDecoder := fun _ ↦ { started := true }
  /-- The instance whose `data` event the loop of `#acceptStdout` runs for. -/
  looping : Option ℕ := none
  /-- The requests of the process that wait for the handler. -/
  answering : List JsValue := []
  /-- The output of an instance is at its end. -/
  closed : ℕ → Bool := fun _ ↦ false
  /-- The bytes of an instance that have arrived. -/
  arrived : ℕ → List UInt8 := fun _ ↦ []
  /-- The messages that were handled of an instance, before its first protocol error. -/
  handled : ℕ → List JsValue := fun _ ↦ []
  /-- The output of an instance has shown a protocol error. -/
  broken : ℕ → Bool := fun _ ↦ false
  /-- The stops whose promise was dropped. -/
  voided : List ℕ := []
  /-- An exception has left the handler of `data`. -/
  thrown : Bool := false
  /-- A promise was rejected that nobody waits for. -/
  unhandled : Bool := false

/-- What the handler of a request of the process does. -/
inductive HandlerOutcome where
  /-- It gives a result, which `JSON.stringify` may or may not be able to write. -/
  | result (encodes : Except JsString Unit)
  | throws

/-- What can happen to a reader. -/
inductive ReaderInput where
  /-- Anything that has nothing to do with the output of a process. -/
  | call (input : RpcInput)
  | data (n : ℕ) (bytes : List UInt8)
  /-- The output of an instance ends. -/
  | ended (n : ℕ)
  /-- One round of the loop; a listener of a notification may throw. -/
  | line (listenerThrows : Bool)
  /-- The handler of a request of the process is done. -/
  | answered (i : ℕ) (outcome : HandlerOutcome)

namespace LineReader

/-- The stop that is remembered could not reap its process. -/
def stopHasFailed (s : JsonLineRpcClient) : Bool :=
  s.stopPromise.any fun number ↦ (s.operations[number]?).any fun o ↦ o.stage == .failed

/-- The wait after `SIGKILL` times out. -/
def reapFails (s : JsonLineRpcClient) (number : ℕ) (timedOut : Bool) : Bool :=
  match s.operations[number]? with
  | some ⟨some n, .killed⟩ => timedOut && !decide (s.Ended n)
  | _ => false

/-- `#send` would write. -/
def canSend (s : JsonLineRpcClient) : Bool :=
  match s.send (.ok ()) with
  | .ok _ => true
  | .error _ => false

/-- A listener or a handler may call this while the loop runs. -/
def isReentrant : RpcInput → Bool
  | .start => true
  | .notify => true
  | .request _ => true
  | .stop => true
  | _ => false

variable (R : RpcHost) (O : ReaderOptions) (r : LineReader)

/-- `this.#fail(error); void this.stop()`, where `caught` says that the promise is not dropped. -/
def protocolError (n : ℕ) (code message : String) (caught : Bool) : LineReader :=
  let s := r.client.fail (.process ⟨js code, js message, .undefined⟩) none
  { r with
    client := s.stop.1
    broken := Function.update r.broken n true
    voided := if caught then r.voided else s.stop.2 :: r.voided
    unhandled := r.unhandled || (!caught && stopHasFailed r.client) }

/-- The buffer is set. -/
def setStdout (stdout : List Written) : LineReader :=
  { r with client := { r.client with stdout } }

/-- A `data` event: `#acceptStdout` up to its loop. -/
def acceptText (n : ℕ) (text : JsString) : LineReader :=
  let r := r.setStdout (r.client.stdout ++ text.map (·, n))
  let stdout := unitsOf r.client.stdout
  if O.max < byteLength stdout ∧ lineFeed ∉ stdout then
    r.protocolError n "line_too_large" "RPC process emitted an oversized line" false
  else { r with looping := some n }

/-- The error answer to a request of the process. -/
def answerError : LineReader :=
  if canSend r.client then r else { r with unhandled := true }

/-- A message is handled, which is noted before the first protocol error. -/
def noteHandled (n : ℕ) (message : JsValue) : LineReader :=
  if r.broken n then r
  else { r with handled := Function.update r.handled n (r.handled n ++ [message]) }

/-- `#acceptMessage`. -/
def acceptMessage (n : ℕ) (line : List Written) (listenerThrows : Bool) : LineReader :=
  match R.parse (unitsOf line) with
  | none => r.protocolError n "invalid_json" "RPC process emitted invalid JSON" false
  | some message =>
    let r := r.noteHandled n message
    if throwsOn message then { r with thrown := true, looping := none }
    else if isServerRequest message then
      if O.onServerRequest then { r with answering := r.answering ++ [message] }
      else r.answerError
    else if isNotification message then
      if listenerThrows then { r with thrown := true, looping := none } else r
    else { r with client := r.client.acceptMessage R line }

/-- One round of the loop of `#acceptStdout` for an instance, or the check after it. -/
def acceptLine (n : ℕ) (listenerThrows : Bool) : LineReader :=
  match nextLine? r.client.stdout with
  | some (complete, rest) =>
    let line := withoutReturn complete
    let r := r.setStdout rest
    if O.max < byteLength (unitsOf line) then
      { r.protocolError n "line_too_large" "RPC process emitted an oversized line" false with
        looping := none }
    else if trim (unitsOf line) = [] then r
    else r.acceptMessage R O n line listenerThrows
  | none =>
    let r := { r with looping := none }
    if O.max < byteLength (unitsOf r.client.stdout) then
      r.protocolError n "line_too_large" "RPC process emitted an oversized partial line" true
    else r

/-- Output of an instance, as its decoder gives it; an empty text is no event. -/
def receive (n : ℕ) (text : JsString) : LineReader :=
  if text = [] then r else r.acceptText O n text

/-- Output can come from the instance: the event loop is idle, and the instance was spawned and has
not closed its output. -/
def Awaits (n : ℕ) : Prop :=
  r.looping = none ∧ n < r.client.instances.length ∧ r.closed n = false

instance (n : ℕ) : Decidable (r.Awaits n) := inferInstanceAs (Decidable (_ ∧ _))

/-- The handler of a request of the process is done. -/
def answered (i : ℕ) (outcome : HandlerOutcome) : LineReader :=
  match r.answering[i]? with
  | none => r
  | some _ =>
    let r := { r with answering := r.answering.eraseIdx i }
    match outcome with
    | .throws => r.answerError
    | .result encodes =>
      match r.client.send encodes with
      | .ok _ => r
      | .error _ => r.answerError

/-- What has nothing to do with output. -/
def call (input : RpcInput) : LineReader :=
  if r.looping.isSome ∧ isReentrant input = false then r
  else
    match input with
    | .data _ _ => r
    | .line => r
    | .stopGoesOn number timedOut =>
      { r with
        client := r.client.step R O.toRpcOptions (.stopGoesOn number timedOut)
        unhandled := r.unhandled || (reapFails r.client number timedOut && number ∈ r.voided) }
    | input => { r with client := r.client.step R O.toRpcOptions input }

/-- One step. -/
def step (r : LineReader) : ReaderInput → LineReader
  | .call input => r.call R O input
  | .data n bytes =>
    if r.Awaits n then
      let d := (r.decoders n).decode bytes
      { r with
        decoders := Function.update r.decoders n d.1
        arrived := Function.update r.arrived n (r.arrived n ++ bytes) }.receive O n d.2
    else r
  | .ended n =>
    if r.Awaits n then
      { r with closed := Function.update r.closed n true }.receive O n (r.decoders n).flush
    else r
  | .line listenerThrows =>
    match r.looping with
    | none => r
    | some n => r.acceptLine R O n listenerThrows
  | .answered i outcome => r.answered i outcome

/-- The reader after some inputs. -/
def after (inputs : List ReaderInput) : LineReader := inputs.foldl (step R O) {}

/-! ## What output holds -/

/-- The text of what has arrived of an instance. -/
def textOf (n : ℕ) : JsString :=
  let d := ({ started := true } : TextDecoder).decode (r.arrived n)
  d.2 ++ if r.closed n then d.1.flush else []

/-- `line.replace(/\r$/, "")`, on a text. -/
def withoutReturnUnit (line : JsString) : JsString :=
  if line.getLast? = some 13 then line.dropLast else line

variable (max : ℕ) (parse : JsString → Option JsValue)

/-- The messages of the lines of a text up to its first protocol error, and whether it has one. The
last line is not complete. -/
def messages : List JsString → List JsValue × Bool
  | [] => ([], false)
  | [unfinished] => ([], decide (max < byteLength (withoutReturnUnit unfinished)))
  | complete :: next :: lines =>
    let line := withoutReturnUnit complete
    if max < byteLength line then ([], true)
    else if trim line = [] then messages (next :: lines)
    else
      match parse line with
      | none => ([], true)
      | some message =>
        (message :: (messages (next :: lines)).1, (messages (next :: lines)).2)

/-- What is right about a reader: no exception has left the handler and no rejection was dropped;
when no loop runs, the messages of each instance and its protocol error are those of its own output;
while one runs, they are a part of them; and the buffer never holds output of two instances. -/
structure Framed : Prop where
  thrown : r.thrown = false
  unhandled : r.unhandled = false
  own : ∀ n, r.looping ≠ some n →
    (r.handled n, r.broken n) = messages O.max R.parse ((r.textOf n).splitOn lineFeed)
  inOrder : ∀ n, r.handled n <+: (messages O.max R.parse ((r.textOf n).splitOn lineFeed)).1
  apart : ∀ w ∈ r.client.stdout, ∀ v ∈ r.client.stdout, w.2 = v.2

/-! ## The condition -/

/-- The unfinished line is over the limit only if it is so without a carriage return at its end. -/
def SizedByLine (stdout : JsString) : Prop :=
  ∀ unfinished ∈ (stdout.splitOn lineFeed).getLast?, O.max < byteLength unfinished →
    O.max < byteLength (withoutReturnUnit unfinished)

instance (stdout : JsString) : Decidable (SizedByLine O stdout) :=
  inferInstanceAs (Decidable (∀ unfinished ∈ (stdout.splitOn lineFeed).getLast?, _ → _))

/-- Output of an instance finds no output of another one in the buffer, does not stop behind a line
that only its carriage return makes too long, and, if it shows a protocol error, no stop is
remembered that could not reap its process. -/
def Arrives (n : ℕ) (text : JsString) : Prop :=
  text ≠ [] →
    (∀ w ∈ r.client.stdout, w.2 = n) ∧ SizedByLine O (unitsOf r.client.stdout ++ text) ∧
      (O.max < byteLength (unitsOf r.client.stdout ++ text) ∧
          lineFeed ∉ unitsOf r.client.stdout ++ text → stopHasFailed r.client = false)

instance (n : ℕ) (text : JsString) : Decidable (r.Arrives O n text) :=
  inferInstanceAs (Decidable (_ → _))

/-- A message, or what is no JSON, can be handled: it does not make `#acceptMessage` throw, nor does
a listener; a request that is not allowed can be answered; and a protocol error finds no stop that
could not reap its process. -/
def CanHandle (listenerThrows : Bool) : Option JsValue → Prop
  | none => stopHasFailed r.client = false
  | some message =>
    throwsOn message = false ∧
      (isServerRequest message = true → O.onServerRequest = true ∨ canSend r.client = true) ∧
        (isNotification message = true → listenerThrows = false)

instance (listenerThrows : Bool) : ∀ message, Decidable (r.CanHandle O listenerThrows message)
  | none => inferInstanceAs (Decidable (_ = _))
  | some _ => inferInstanceAs (Decidable (_ ∧ _))

/-- A complete line can be handled. -/
def Handles (line : JsString) (listenerThrows : Bool) : Prop :=
  if O.max < byteLength line then stopHasFailed r.client = false
  else trim line ≠ [] → r.CanHandle O listenerThrows (R.parse line)

instance (line : JsString) (listenerThrows : Bool) :
    Decidable (r.Handles R O line listenerThrows) :=
  inferInstanceAs (Decidable (if O.max < byteLength line then stopHasFailed r.client = false
    else trim line ≠ [] → r.CanHandle O listenerThrows (R.parse line)))

/-- The wait of a stop that a call ends, and whether it has timed out. -/
def waitOf? : RpcInput → Option (ℕ × Bool)
  | .stopGoesOn number timedOut => some (number, timedOut)
  | _ => none

/-- The step does nothing the code does not provide for. -/
def Orderly (r : LineReader) : ReaderInput → Prop
  | .call input =>
    ∀ wait ∈ waitOf? input, reapFails r.client wait.1 wait.2 = true → wait.1 ∉ r.voided
  | .data n bytes => r.Awaits n → r.Arrives O n ((r.decoders n).decode bytes).2
  | .ended n => r.Awaits n → r.Arrives O n (r.decoders n).flush
  | .line listenerThrows =>
    r.looping ≠ none → ∀ split ∈ nextLine? r.client.stdout,
      r.Handles R O (unitsOf (withoutReturn split.1)) listenerThrows
  | .answered i _ => r.answering[i]?.isSome = true → canSend r.client = true

instance : ∀ r i, Decidable (Orderly R O r i)
  | r, .call input =>
    inferInstanceAs (Decidable (∀ wait ∈ waitOf? input,
      reapFails r.client wait.1 wait.2 = true → wait.1 ∉ r.voided))
  | _, .data _ _ => inferInstanceAs (Decidable (_ → _))
  | _, .ended _ => inferInstanceAs (Decidable (_ → _))
  | r, .line listenerThrows =>
    inferInstanceAs (Decidable (r.looping ≠ none → ∀ split ∈ nextLine? r.client.stdout,
      r.Handles R O (unitsOf (withoutReturn split.1)) listenerThrows))
  | _, .answered _ _ => inferInstanceAs (Decidable (_ → _))

end LineReader

end LiteHarness.ProcessRpc
