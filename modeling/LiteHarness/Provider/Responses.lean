import LiteHarness.Provider.Answers

/-!
# Responses, streamed and whole

The two decoders of the OpenAI Responses adapter. Both merge what is sent of a function call under
the index of its output item and yield the calls in the order of the indices; the stream merges
events and the output of the completed response, the other the output of the body alone. The id of
an item is kept by the source and never read; it is left out.
-/

namespace LiteHarness.Provider

open Foundation

variable (J : JsonReader)

/-! ## Bodies -/

inductive ResponsesStatus where
  | completed | failed | incomplete | cancelled | queued | inProgress
  deriving DecidableEq

/-- An element of `content`. -/
structure ResponsesContent where
  /-- `type === "refusal"`. -/
  isRefusal : Bool := false
  text : Option JsString := none
  refusal : Option JsString := none

inductive OutputItemType where
  | message | functionCall | other
  deriving DecidableEq

/-- `OpenAIResponseOutputItem`. -/
structure OpenAIResponseOutputItem where
  type : OutputItemType
  callId : Option JsString := none
  name : Option JsString := none
  arguments : Option JsString := none
  content : List ResponsesContent := []

structure ResponsesUsage where
  inputTokens : Option JsNumber := none
  outputTokens : Option JsNumber := none
  cachedTokens : Option JsNumber := none
  imageTokens : Option JsNumber := none
  deriving DecidableEq

/-- `error` of a body, where it is an object. -/
structure ResponsesFailure where
  code : Option JsString := none
  message : Option JsString := none
  deriving DecidableEq

/-- `OpenAIResponsesBody`. -/
structure OpenAIResponsesBody where
  status : Option ResponsesStatus := none
  error : Option ResponsesFailure := none
  /-- `incomplete_details?.reason`. -/
  incompleteReason : Option JsString := none
  output : List OpenAIResponseOutputItem := []
  usage : Option ResponsesUsage := none

/-! ## Calls -/

structure PendingResponseCall where
  callId : Option JsString := none
  name : Option JsString := none
  arguments : JsString := []
  deriving DecidableEq

/-- What is sent of a call: some of its fields, or more of its arguments. -/
inductive CallPiece where
  | fields (callId name arguments : Option JsString)
  | delta (text : JsString)

/-- The piece is merged into its call. -/
def PendingResponseCall.merge (call : PendingResponseCall) : CallPiece → PendingResponseCall
  | .fields callId name arguments =>
    ⟨callId.or call.callId, name.or call.name, arguments.getD call.arguments⟩
  | .delta text => { call with arguments := call.arguments ++ text }

/-- `responseCall` and what is done to it. -/
def mergeCall (calls : OrderedMap ℤ PendingResponseCall) (index : ℤ) (piece : CallPiece) :
    OrderedMap ℤ PendingResponseCall :=
  calls.set index (((calls.get? index).getD {}).merge piece)

/-- What `mergeResponseCall` merges of an item. -/
def OpenAIResponseOutputItem.piece (item : OpenAIResponseOutputItem) : CallPiece :=
  .fields item.callId item.name item.arguments

/-- `mergeResponseOutput`. -/
def mergeResponseOutput (calls : OrderedMap ℤ PendingResponseCall)
    (output : List OpenAIResponseOutputItem) : OrderedMap ℤ PendingResponseCall :=
  output.zipIdx.foldl
    (fun calls entry ↦
      if entry.1.type = .functionCall then mergeCall calls entry.2 entry.1.piece else calls)
    calls

/-- A call of `emitResponseCalls`. -/
def readResponseCall (call : PendingResponseCall) : Except ProviderError ReceivedCall :=
  if call.callId.getD [] = [] ∨ call.name.getD [] = [] then
    .error (providerError "invalid_response"
      "OpenAI Responses returned an incomplete function call")
  else
    match J.parse (if call.arguments = [] then js "\x7b\x7d" else call.arguments) with
    | none =>
      .error (providerError "invalid_tool_arguments"
        "OpenAI Responses returned invalid JSON function arguments")
    | some (.object fields) => .ok ⟨call.callId.getD [], call.name.getD [], .object fields⟩
    | some _ =>
      .error (providerError "invalid_tool_arguments"
        "OpenAI Responses function arguments must be a JSON object")

/-- `emitResponseCalls`. -/
def emitResponseCalls (calls : OrderedMap ℤ PendingResponseCall) : Decoded :=
  emitCalls (readResponseCall J) (calls.byKey.map Prod.snd)

/-! ## Usage and errors -/

/-- The integer of a number that `Number.isSafeInteger` takes. -/
def safeInteger (n : JsNumber) : Option ℤ :=
  (n.rat?.filter fun q ↦ q.den = 1 ∧ |q.num| ≤ maxSafeInteger).map fun q ↦ q.num

/-- The event of a usage with safe counts. -/
def ResponsesUsage.event? (usage : ResponsesUsage) : Option UsageEvent :=
  match usage.inputTokens, usage.outputTokens with
  | some input, some output =>
    if (safeInteger input).isSome ∧ (safeInteger output).isSome then
      some {
        inputTokens := input
        outputTokens := output
        cachedInputTokens := usage.cachedTokens
        imageInputTokens := usage.imageTokens }
    else none
  | _, _ => none

/-- `emitResponsesUsage`. -/
def emitResponsesUsage (usage : Option ResponsesUsage) : Decoded :=
  match usage with
  | none => .yields []
  | some usage =>
    match usage.event? with
    | none =>
      .throws (providerError "invalid_usage" "OpenAI Responses returned invalid token usage")
    | some event => .yields [.usage event]

/-- `responseTerminalError`. -/
def responseTerminalError (code : String) (response : Option OpenAIResponsesBody) : ProviderError :=
  let failure := response.bind OpenAIResponsesBody.error
  let reason :=
    (failure.bind ResponsesFailure.message).or
      (response.bind OpenAIResponsesBody.incompleteReason)
  { code := (failure.bind ResponsesFailure.code).getD (js code)
    message :=
      if reason.getD [] = [] then js "OpenAI Responses did not complete"
      else js "OpenAI Responses did not complete: " ++ reason.getD []
    retryable := false }

/-- The end of both decoders. -/
def finishResponse (calls : OrderedMap ℤ PendingResponseCall) (usage : Option ResponsesUsage) :
    Decoded :=
  (emitResponseCalls J calls).andThen <|
    (emitResponsesUsage usage).andThen <|
      .yields [.completed (if calls.size = 0 then .stop else .toolCalls)]

/-! ## The JSON body -/

/-- The text of an element of `content`. -/
def ResponsesContent.said (content : ResponsesContent) : JsString :=
  (if content.isRefusal then content.refusal else content.text).getD []

/-- The texts of a message item. -/
def OpenAIResponseOutputItem.texts (item : OpenAIResponseOutputItem) : List JsString :=
  if item.type = .message then item.content.map ResponsesContent.said else []

/-- `normalizeOpenAiResponse`. -/
def normalizeOpenAiResponse (body : OpenAIResponsesBody) : Decoded :=
  if body.status = some .failed ∨ body.status = some .incomplete ∨ body.status = some .cancelled ∨
      body.error.isSome then
    (emitResponsesUsage body.usage).andThen <|
      .throws (responseTerminalError
        (if body.status = some .incomplete then "response_incomplete"
        else "provider_response_failed") (some body))
  else if body.status ≠ some .completed then
    .throws (providerError "invalid_response"
      "OpenAI Responses returned a non-terminal response")
  else
    (Generated.yields
      ((body.output.flatMap OpenAIResponseOutputItem.texts).flatMap textEvents)).andThen
        (finishResponse J (mergeResponseOutput .empty body.output) body.usage)

/-! ## The stream -/

inductive ResponsesEventType where
  | outputTextDelta | refusalDelta | outputItemAdded | outputItemDone
  | functionCallArgumentsDelta | functionCallArgumentsDone | completed | incomplete | failed
  | error | other
  deriving DecidableEq

/-- `OpenAIResponseStreamEvent`. -/
structure OpenAIResponseStreamEvent where
  /-- `none` where it is missing or empty. -/
  type : Option ResponsesEventType
  sequenceNumber : Option JsNumber := none
  /-- `none` where it is not a string. -/
  delta : Option JsString := none
  arguments : Option JsString := none
  callId : Option JsString := none
  name : Option JsString := none
  outputIndex : Option ℤ := none
  item : Option OpenAIResponseOutputItem := none
  response : Option OpenAIResponsesBody := none
  code : Option JsString := none
  message : Option JsString := none

/-- The data of an event: a text that `JSON.parse` refuses is `none`. -/
abbrev ResponsesData := Option OpenAIResponseStreamEvent

/-- What an event sends of a call. -/
def OpenAIResponseStreamEvent.piece? (event : OpenAIResponseStreamEvent) : Option CallPiece :=
  match event.type with
  | some .outputItemAdded | some .outputItemDone =>
    (event.item.filter fun item ↦ item.type = .functionCall).map OpenAIResponseOutputItem.piece
  | some .functionCallArgumentsDelta => some (.delta (event.delta.getD []))
  | some .functionCallArgumentsDone => some (.fields event.callId event.name event.arguments)
  | _ => none

/-- What the loop of `streamOpenAiResponses` keeps. -/
structure ResponsesState where
  calls : OrderedMap ℤ PendingResponseCall := .empty
  lastSequence : ℤ := -1
  terminal : Bool := false

/-- The sequence number of an event is above the last. -/
def ResponsesState.sequence (state : ResponsesState) (event : OpenAIResponseStreamEvent) :
    Except ProviderError ResponsesState :=
  match event.sequenceNumber with
  | none => .ok state
  | some n =>
    match safeInteger n with
    | none =>
      .error (providerError "invalid_response" "OpenAI Responses event sequence was invalid")
    | some k =>
      if k ≤ state.lastSequence then
        .error (providerError "invalid_response" "OpenAI Responses event sequence was invalid")
      else .ok { state with lastSequence := k }

/-- The calls after an event that sends something of one. -/
def mergeEvent (calls : OrderedMap ℤ PendingResponseCall) (event : OpenAIResponseStreamEvent) :
    OrderedMap ℤ PendingResponseCall :=
  match event.piece? with
  | some piece => mergeCall calls (event.outputIndex.getD 0) piece
  | none => calls

/-- What an event of a type does, and the state that it leaves. -/
def ResponsesState.react (state : ResponsesState) (event : OpenAIResponseStreamEvent)
    (type : ResponsesEventType) : Decoded × ResponsesState :=
  match type with
  | .outputTextDelta | .refusalDelta =>
    match event.delta with
    | none =>
      (.throws (providerError "invalid_response"
        "OpenAI Responses text event omitted its delta"), state)
    | some delta => (.yields (textEvents delta), state)
  | .outputItemAdded | .outputItemDone | .functionCallArgumentsDelta
  | .functionCallArgumentsDone =>
    (.yields [], { state with calls := mergeEvent state.calls event })
  | .completed =>
    let calls :=
      mergeResponseOutput state.calls ((event.response.map OpenAIResponsesBody.output).getD [])
    (finishResponse J calls (event.response.bind OpenAIResponsesBody.usage),
      { state with calls := calls, terminal := true })
  | .incomplete =>
    ((emitResponsesUsage (event.response.bind OpenAIResponsesBody.usage)).andThen
      (.throws (responseTerminalError "response_incomplete" event.response)),
      { state with terminal := true })
  | .failed =>
    ((emitResponsesUsage (event.response.bind OpenAIResponsesBody.usage)).andThen
      (.throws (responseTerminalError "provider_response_failed" event.response)),
      { state with terminal := true })
  | .error =>
    (.throws {
        code := event.code.getD (js "provider_stream_error")
        message := event.message.getD (js "OpenAI Responses stream reported an error")
        retryable := false },
      { state with terminal := true })
  | .other => (.yields [], state)

/-- `streamOpenAiResponses`, from the state of its loop. -/
def streamOpenAiResponses (state : ResponsesState) : List ResponsesData → Decoded
  | [] =>
    if state.terminal then .yields []
    else
      .throws (providerError "invalid_response"
        "OpenAI Responses stream ended without a terminal event")
  | none :: _ =>
    .throws (providerError "invalid_response" "OpenAI Responses returned an invalid SSE payload")
  | some event :: data =>
    match event.type with
    | none =>
      .throws (providerError "invalid_response" "OpenAI Responses event omitted its type")
    | some type =>
      match state.sequence event with
      | .error e => .throws e
      | .ok state =>
        (state.react J event type).1.andThen
          (streamOpenAiResponses (state.react J event type).2 data)

/-! ## A stream that describes a body -/

/-- The type of the event that ends the stream of a body: a response with an error has failed. -/
def OpenAIResponsesBody.terminalType (body : OpenAIResponsesBody) : Option ResponsesEventType :=
  if body.status = some .incomplete then some .incomplete
  else if body.status = some .failed ∨ body.status = some .cancelled ∨ body.error.isSome then
    some .failed
  else if body.status = some .completed then some .completed
  else none

/-- The text of a text event. -/
def OpenAIResponseStreamEvent.said (event : OpenAIResponseStreamEvent) : JsString :=
  if event.type = some .outputTextDelta ∨ event.type = some .refusalDelta then event.delta.getD []
  else []

/-- The event does not end the stream. -/
def OpenAIResponseStreamEvent.Ongoing (event : OpenAIResponseStreamEvent) : Prop :=
  ∃ type, event.type = some type ∧
    match type with
    | .completed | .incomplete | .failed | .error => False
    | .outputTextDelta | .refusalDelta => event.delta.isSome
    | _ => True

/-- The pieces of an output index. -/
def callPiecesAt (k : ℤ) (events : List OpenAIResponseStreamEvent) : List CallPiece :=
  (events.filter fun event ↦ event.outputIndex.getD 0 = k).filterMap
    OpenAIResponseStreamEvent.piece?

/-- The piece sends fields of the item, if any. -/
def CallPiece.Whole (item : OpenAIResponseOutputItem) : CallPiece → Prop
  | .fields callId name arguments =>
    (callId = none ∨ callId = item.callId) ∧ (name = none ∨ name = item.name) ∧
      (arguments = none ∨ arguments = some (item.arguments.getD []))
  | .delta _ => False

/-- The pieces send a function call: the item is added, without its arguments, these follow in
deltas that are cut anywhere, and whole fields of the item may be sent behind. Where there is no
delta the arguments are among these. -/
def PiecesSend (pieces : List CallPiece) (item : OpenAIResponseOutputItem) : Prop :=
  ∃ (start : Option JsString) (texts : List JsString) (wholes : List CallPiece),
    pieces = .fields item.callId item.name start :: (texts.map .delta ++ wholes) ∧
      start.getD [] = [] ∧ (∀ whole ∈ wholes, whole.Whole item) ∧
      (texts.flatten = item.arguments.getD [] ∨
        texts.flatten = [] ∧
          ∃ callId name, CallPiece.fields callId name (some (item.arguments.getD [])) ∈ wholes)

/-- The piece says nothing of a call but what its item does. Arguments that the item has may be sent
in any part. -/
def CallPiece.Within (item : OpenAIResponseOutputItem) : CallPiece → Prop
  | .fields callId name arguments =>
    (callId = none ∨ callId = item.callId) ∧ (name = none ∨ name = item.name) ∧
      (item.arguments = none → arguments.getD [] = [])
  | .delta text => item.arguments = none → text = []

/-- **The events describe the body**, where the last ends the stream. The completed response may
come without its output, where all function calls are sent, and with it, where any part of one may
be missing. -/
structure ResponsesDescribe (before : List OpenAIResponseStreamEvent)
    (last : OpenAIResponseStreamEvent) (body : OpenAIResponsesBody) : Prop where
  ongoing : ∀ event ∈ before, event.Ongoing
  sequence : ∃ numbers : List ℤ,
    ((before ++ [last]).filterMap OpenAIResponseStreamEvent.sequenceNumber).map safeInteger =
      numbers.map some ∧ (-1 :: numbers).IsChain (· < ·)
  text : (before.map OpenAIResponseStreamEvent.said).flatten =
    (body.output.flatMap OpenAIResponseOutputItem.texts).flatten
  calls : ∀ (i : ℕ) item, body.output[i]? = some item → item.type = .functionCall →
    PiecesSend (callPiecesAt i before) item ∨
      last.response.map OpenAIResponsesBody.output = some body.output ∧
        ∀ piece ∈ callPiecesAt i before, piece.Within item
  places : ∀ event ∈ before, event.piece?.isSome → ∃ (i : ℕ) (item : OpenAIResponseOutputItem),
    body.output[i]? = some item ∧ item.type = .functionCall ∧ event.outputIndex.getD 0 = i
  type : ∃ type, body.terminalType = some type ∧ last.type = some type
  response : ∃ response, last.response = some response ∧ response.usage = body.usage ∧
    response.error = body.error ∧ response.incompleteReason = body.incompleteReason ∧
    (response.output = body.output ∨ response.output = [])

end LiteHarness.Provider
