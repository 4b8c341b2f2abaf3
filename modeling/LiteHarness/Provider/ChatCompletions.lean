import LiteHarness.Provider.Answers
import LiteHarness.Provider.Conversations

/-!
# Chat completions, streamed and whole

The two decoders of `OpenAICompatibleProvider`: one reads the chunks of a stream and joins the
fragments of each call under its index, the other reads one JSON body. A stream describes a
completion where its contents, and the fragments of each call, are cut anywhere and come in any
order between the calls.
-/

namespace LiteHarness.Provider

open Foundation

variable (J : JsonReader)

/-- The `usage` of a body or a chunk. -/
structure ChatUsage where
  promptTokens : JsNumber
  completionTokens : JsNumber
  cachedTokens : Option JsNumber := none
  imageTokens : Option JsNumber := none
  deriving DecidableEq

/-- The usage event of a report. -/
def ChatUsage.event (report : ChatUsage) : UsageEvent where
  inputTokens := report.promptTokens
  outputTokens := report.completionTokens
  cachedInputTokens := report.cachedTokens
  imageInputTokens := report.imageTokens

/-! ## The JSON body -/

/-- The `message` of a choice. -/
structure CompletionMessage where
  content : Option JsString := none
  toolCalls : List ChatToolCall := []

/-- `OpenAIResponse`. -/
structure OpenAIResponse where
  choices : List CompletionMessage := []
  usage : Option ChatUsage := none

/-- A call of the body. -/
def bodyCall (call : ChatToolCall) : Except ProviderError ReceivedCall :=
  match J.parse call.arguments with
  | none =>
    .error (providerError "invalid_tool_arguments" "Provider returned invalid JSON tool arguments")
  | some arguments => .ok ⟨call.id, call.name, arguments⟩

/-- The branch of `OpenAICompatibleProvider.stream` for a JSON body. -/
def decodeBody (body : OpenAIResponse) : Decoded :=
  match body.choices with
  | [] => .throws (providerError "invalid_response" "Provider response contained no choices")
  | message :: _ =>
    (Generated.yields (textEvents (message.content.getD []))).andThen <|
      (emitCalls (bodyCall J) message.toolCalls).andThen <|
        .yields ((body.usage.toList.map ChatUsage.event).map .usage ++
          [.completed (if message.toolCalls ≠ [] then .toolCalls else .stop)])

/-! ## The stream -/

/-- An element of `delta.tool_calls`. -/
structure CallFragment where
  index : ℕ
  id : Option JsString := none
  name : Option JsString := none
  arguments : Option JsString := none

/-- A choice of a chunk. -/
structure ChunkChoice where
  content : Option JsString := none
  toolCalls : List CallFragment := []
  finishReason : Option JsString := none

/-- `OpenAIStreamChunk`. -/
structure OpenAIStreamChunk where
  choices : List ChunkChoice := []
  usage : Option ChatUsage := none
  /-- `chunk.error` is truthy. -/
  error : Bool := false

/-- The data of an event of the stream. -/
inductive StreamData where
  /-- `[DONE]`. -/
  | done
  /-- A text that `JSON.parse` refuses. -/
  | malformed
  | chunk (chunk : OpenAIStreamChunk)

/-- What the loop of `streamOpenAi` keeps. -/
structure OpenAiState where
  tools : OrderedMap ℕ PendingCall := .empty
  finishReason : Option JsString := none

/-- The pieces of a fragment are put behind those of its call. -/
def PendingCall.extend (call : PendingCall) (part : CallFragment) : PendingCall where
  id := call.id ++ part.id.getD []
  name := call.name ++ part.name.getD []
  arguments := call.arguments ++ part.arguments.getD []

/-- A fragment is joined to the call of its index. -/
def joinFragment (tools : OrderedMap ℕ PendingCall) (part : CallFragment) :
    OrderedMap ℕ PendingCall :=
  tools.set part.index (((tools.get? part.index).getD {}).extend part)

/-- A choice of a chunk, without its text. -/
def OpenAiState.readChoice (state : OpenAiState) (choice : ChunkChoice) : OpenAiState where
  tools := choice.toolCalls.foldl joinFragment state.tools
  finishReason := choice.finishReason.or state.finishReason

/-- What is yielded while a chunk is read. -/
def OpenAIStreamChunk.events (chunk : OpenAIStreamChunk) : List AnswerEvent :=
  (chunk.usage.toList.map ChatUsage.event).map .usage ++
    chunk.choices.flatMap fun choice ↦ textEvents (choice.content.getD [])

/-- A call of the stream, when it has ended. -/
def streamedCall (call : PendingCall) : Except ProviderError ReceivedCall :=
  if call.id = [] ∨ call.name = [] then
    .error (providerError "invalid_response" "Provider returned an incomplete tool call")
  else
    match J.parse (if call.arguments = [] then js "\x7b\x7d" else call.arguments) with
    | none =>
      .error (providerError "invalid_tool_arguments"
        "Provider returned invalid JSON tool arguments")
    | some arguments => .ok ⟨call.id, call.name, arguments⟩

/-- What follows `[DONE]`. -/
def finishOpenAi (state : OpenAiState) : Decoded :=
  (emitCalls (streamedCall J) (state.tools.byKey.map Prod.snd)).andThen <|
    .yields [.completed
      (if 0 < state.tools.size ∨ state.finishReason = some (js "tool_calls") then .toolCalls
      else .stop)]

/-- `streamOpenAi`, from the state of its loop. -/
def streamOpenAi (state : OpenAiState) : List StreamData → Decoded
  | [] =>
    .throws (providerError "provider_stream_truncated"
      "Provider stream ended before a terminal event")
  | .done :: _ => finishOpenAi J state
  | .malformed :: _ =>
    .throws (providerError "invalid_response" "Provider returned an invalid SSE payload")
  | .chunk chunk :: data =>
    if chunk.error then
      .throws (providerError "provider_stream_error" "Provider stream reported an error")
    else
      (Generated.yields chunk.events).andThen
        (streamOpenAi (chunk.choices.foldl OpenAiState.readChoice state) data)

/-! ## A stream that describes a completion -/

/-- A chat completion. -/
structure ChatCompletion where
  content : Option JsString := none
  calls : List ChatToolCall := []
  usage : Option ChatUsage := none
  finishReason : Option JsString := none

/-- The JSON body of a completion. -/
def ChatCompletion.body (completion : ChatCompletion) : OpenAIResponse where
  choices := [⟨completion.content, completion.calls⟩]
  usage := completion.usage

/-- The fragments of all calls, in their order. -/
def chunkFragments (chunks : List OpenAIStreamChunk) : List CallFragment :=
  (chunks.flatMap OpenAIStreamChunk.choices).flatMap ChunkChoice.toolCalls

/-- The fragments of an index. -/
def fragmentsAt (k : ℕ) (chunks : List OpenAIStreamChunk) : List CallFragment :=
  (chunkFragments chunks).filter fun part ↦ part.index = k

/-- **The chunks describe the completion**: its content is cut anywhere; the fragments of the call
at a position have the index of the position, come in any order between those of other calls and
make the id, the name and the arguments of the call; one chunk has the usage, if there is one, and
the last finish reason is the completion's. -/
structure Describes (index : ℕ → ℕ) (chunks : List OpenAIStreamChunk)
    (completion : ChatCompletion) : Prop where
  errors : ∀ chunk ∈ chunks, chunk.error = false
  content : ((chunks.flatMap OpenAIStreamChunk.choices).map fun choice ↦
    choice.content.getD []).flatten = completion.content.getD []
  begun : ∀ i < completion.calls.length, fragmentsAt (index i) chunks ≠ []
  ids : ∀ i call, completion.calls[i]? = some call →
    ((fragmentsAt (index i) chunks).map fun part ↦ part.id.getD []).flatten = call.id
  names : ∀ i call, completion.calls[i]? = some call →
    ((fragmentsAt (index i) chunks).map fun part ↦ part.name.getD []).flatten = call.name
  arguments : ∀ i call, completion.calls[i]? = some call →
    ((fragmentsAt (index i) chunks).map fun part ↦ part.arguments.getD []).flatten = call.arguments
  indices : ∀ part ∈ chunkFragments chunks, ∃ i < completion.calls.length, part.index = index i
  usage : chunks.filterMap OpenAIStreamChunk.usage = completion.usage.toList
  finish : ((chunks.flatMap OpenAIStreamChunk.choices).filterMap
    ChunkChoice.finishReason).getLast? = completion.finishReason

/-! ## The condition -/

/-- The call has an id, a name and arguments that are a JSON text. -/
def WholeCall (call : ChatToolCall) : Prop :=
  call.id ≠ [] ∧ call.name ≠ [] ∧ (J.parse call.arguments).isSome

/-- Nothing of the completion is wanting. -/
def Clean (completion : ChatCompletion) : Prop :=
  (∀ call ∈ completion.calls, WholeCall J call) ∧
    (completion.finishReason = some (js "tool_calls") → completion.calls ≠ [])

/-- The first call with which the stream has trouble has arguments that are not a JSON text, and are
not empty. -/
def Broken (completion : ChatCompletion) : Prop :=
  ∃ pre call post, completion.calls = pre ++ call :: post ∧
    (∀ earlier ∈ pre, earlier.id ≠ [] ∧ earlier.name ≠ [] ∧
      (earlier.arguments = [] ∨ (J.parse earlier.arguments).isSome)) ∧
    call.id ≠ [] ∧ call.name ≠ [] ∧ call.arguments ≠ [] ∧ J.parse call.arguments = none

end LiteHarness.Provider
