import LiteHarness.Provider.Answers
import LiteHarness.Storage.EventText

/-!
# Anthropic messages, streamed and whole

The two decoders of `AnthropicProvider`: one keeps the tool blocks of a stream under their indices
and parses their inputs at the end, the other reads the blocks of one JSON body. A stream describes
a message where each tool block is begun once and its input is sent with the beginning, or after it
as a JSON text that is cut anywhere.
-/

namespace LiteHarness.Provider

open Foundation

/-- `JSON.parse` and `JSON.stringify`. -/
structure JsonTexts extends NumberLiterals, JsonReader

variable (H : JsonTexts)

/-! ## The JSON body -/

/-- What a tool block holds. -/
structure ToolUse where
  id : Option JsString := none
  name : Option JsString := none
  input : Option (List (JsString × JsValue)) := none

/-- An element of `content`. -/
inductive BodyBlock where
  | text (text : Option JsString)
  | toolUse (tool : ToolUse)

structure AnthropicUsage where
  inputTokens : JsNumber
  outputTokens : JsNumber
  deriving DecidableEq

def AnthropicUsage.event (report : AnthropicUsage) : UsageEvent where
  inputTokens := report.inputTokens
  outputTokens := report.outputTokens

/-- `AnthropicResponse`. -/
structure AnthropicResponse where
  content : List BodyBlock := []
  stopReason : Option JsString := none
  usage : Option AnthropicUsage := none

/-- The block has an id and a name. -/
def ToolUse.Complete (tool : ToolUse) : Prop := tool.id.getD [] ≠ [] ∧ tool.name.getD [] ≠ []

instance (tool : ToolUse) : Decidable tool.Complete :=
  inferInstanceAs (Decidable (_ ∧ _))

/-- The call of a tool block. -/
def ToolUse.call (tool : ToolUse) : ReceivedCall :=
  ⟨tool.id.getD [], tool.name.getD [], .object (tool.input.getD [])⟩

/-- What a block yields. -/
def BodyBlock.events : BodyBlock → List AnswerEvent
  | .text content => textEvents (content.getD [])
  | .toolUse tool => if tool.Complete then [.toolCall tool.call] else []

/-- The branch of `AnthropicProvider.stream` for a JSON body. -/
def decodeAnthropicBody (body : AnthropicResponse) : Decoded :=
  .yields (body.content.flatMap BodyBlock.events ++
    ((body.usage.toList.map AnthropicUsage.event).map .usage ++
      [.completed (if body.stopReason = some (js "tool_use") then .toolCalls else .stop)]))

/-! ## The stream -/

inductive AnthropicEventType where
  | error | messageStart | contentBlockStart | contentBlockDelta | messageDelta | messageStop
  | other
  deriving DecidableEq

/-- `content_block`. -/
structure StartedBlock extends ToolUse where
  /-- `type === "tool_use"`. -/
  isToolUse : Bool := true

inductive AnthropicDeltaType where
  | textDelta | inputJsonDelta | other
  deriving DecidableEq

/-- `delta`. -/
structure AnthropicDelta where
  type : AnthropicDeltaType := .other
  text : Option JsString := none
  partialJson : Option JsString := none
  stopReason : Option JsString := none

/-- `AnthropicStreamEvent`. -/
structure AnthropicStreamEvent where
  type : AnthropicEventType
  index : Option ℤ := none
  /-- `message?.usage?.input_tokens`. -/
  inputTokens : Option JsNumber := none
  contentBlock : Option StartedBlock := none
  delta : Option AnthropicDelta := none
  /-- `usage?.output_tokens`. -/
  outputTokens : Option JsNumber := none

/-- The data of an event: a text that `JSON.parse` refuses is `none`. -/
abbrev AnthropicData := Option AnthropicStreamEvent

/-- What an event says of a tool block. -/
inductive ToolPiece where
  | start (tool : ToolUse)
  | partialJson (text : JsString)

namespace AnthropicStreamEvent

variable (event : AnthropicStreamEvent)

def piece? : Option ToolPiece :=
  match event.type with
  | .contentBlockStart =>
    (event.contentBlock.filter fun block ↦ block.isToolUse).map fun block ↦ .start block.toToolUse
  | .contentBlockDelta =>
    (event.delta.filter fun delta ↦ delta.type = .inputJsonDelta).map fun delta ↦
      .partialJson (delta.partialJson.getD [])
  | _ => none

/-- The text of a text delta. -/
def text : JsString :=
  if event.type = .contentBlockDelta then
    ((event.delta.filter fun delta ↦ delta.type = .textDelta).bind AnthropicDelta.text).getD []
  else []

def inputReport : Option JsNumber := if event.type = .messageStart then event.inputTokens else none

def outputReport : Option JsNumber :=
  if event.type = .messageDelta then event.outputTokens else none

def stopReport : Option JsString :=
  if event.type = .messageDelta then event.delta.bind AnthropicDelta.stopReason else none

end AnthropicStreamEvent

/-- What the loop of `streamAnthropic` keeps. -/
structure AnthropicState where
  tools : OrderedMap ℤ PendingCall := .empty
  inputTokens : JsNumber := .finite 0
  outputTokens : JsNumber := .finite 0
  stopReason : Option JsString := none
  terminal : Bool := false

/-- The entry of a tool block, with the text of the input that it starts with. -/
def startedTool (tool : ToolUse) : PendingCall where
  id := tool.id.getD []
  name := tool.name.getD []
  arguments := if (tool.input.getD []).isEmpty then [] else H.stringify (tool.input.getD [])

/-- `tool.input += partial_json`. -/
def PendingCall.write (tool : PendingCall) (text : JsString) : PendingCall :=
  { tool with arguments := tool.arguments ++ text }

/-- The tool blocks after an event. -/
def readTools (tools : OrderedMap ℤ PendingCall) (event : AnthropicStreamEvent) :
    OrderedMap ℤ PendingCall :=
  match event.piece? with
  | none => tools
  | some (.start tool) => tools.set (event.index.getD tools.size) (startedTool H tool)
  | some (.partialJson text) =>
    match tools.get? (event.index.getD (-1)) with
    | some tool => tools.set (event.index.getD (-1)) (tool.write text)
    | none => tools

/-- One event of the loop. -/
def AnthropicState.read (state : AnthropicState) (event : AnthropicStreamEvent) :
    AnthropicState where
  tools := readTools H state.tools event
  inputTokens := event.inputReport.getD state.inputTokens
  outputTokens := event.outputReport.getD state.outputTokens
  stopReason := event.stopReport.or state.stopReason
  terminal := state.terminal || event.type = .messageStop

/-- A tool block, when the stream has ended. -/
def anthropicCall (tool : PendingCall) : Except ProviderError ReceivedCall :=
  if tool.id = [] ∨ tool.name = [] then
    .error (providerError "invalid_response" "Anthropic returned an incomplete tool call")
  else
    match H.parse (if tool.arguments = [] then js "\x7b\x7d" else tool.arguments) with
    | none =>
      .error (providerError "invalid_tool_arguments"
        "Anthropic returned invalid JSON tool arguments")
    | some input => .ok ⟨tool.id, tool.name, input⟩

/-- What follows the stream. -/
def finishAnthropic (state : AnthropicState) : Decoded :=
  if ¬state.terminal then
    .throws (providerError "provider_stream_truncated"
      "Anthropic stream ended before a terminal event")
  else
    (emitCalls (anthropicCall H) (state.tools.byKey.map Prod.snd)).andThen <|
      .yields [.usage (AnthropicUsage.event ⟨state.inputTokens, state.outputTokens⟩),
        .completed
          (if 0 < state.tools.size ∨ state.stopReason = some (js "tool_use") then .toolCalls
          else .stop)]

/-- `streamAnthropic`, from the state of its loop. -/
def streamAnthropic (state : AnthropicState) : List AnthropicData → Decoded
  | [] => finishAnthropic H state
  | none :: _ =>
    .throws (providerError "invalid_response" "Anthropic returned an invalid SSE payload")
  | some event :: data =>
    if event.type = .error then
      .throws (providerError "provider_stream_error" "Anthropic stream reported an error")
    else
      (Generated.yields (textEvents event.text)).andThen (streamAnthropic (state.read H event) data)

/-! ## A stream that describes a message -/

/-- The text of a text block. -/
def BodyBlock.textOf : BodyBlock → JsString
  | .text content => content.getD []
  | .toolUse _ => []

/-- The events of a block. -/
def piecesAt (k : ℤ) (events : List AnthropicStreamEvent) : List ToolPiece :=
  (events.filter fun event ↦ event.index = some k).filterMap AnthropicStreamEvent.piece?

/-- The text is one of the object. -/
def Reads (text : JsString) (input : List (JsString × JsValue)) : Prop :=
  ∃ value, H.parse text = some value ∧ SameJson value (.object input)

/-- The input of a tool block is sent with its beginning, or after it in some texts, where an empty
one need not be sent at all. -/
def InputSent (sent tool : ToolUse) (texts : List JsString) : Prop :=
  (sent.input = tool.input ∧ sent.input.getD [] ≠ [] ∧ texts.flatten = []) ∨
    sent.input.getD [] = [] ∧
      if texts.flatten = [] then tool.input.getD [] = []
      else Reads H texts.flatten (tool.input.getD [])

/-- The pieces begin a tool block once and send its input. -/
def PiecesDescribe (pieces : List ToolPiece) (tool : ToolUse) : Prop :=
  ∃ sent texts, pieces = .start sent :: texts.map .partialJson ∧
    sent.id.getD [] = tool.id.getD [] ∧ sent.name.getD [] = tool.name.getD [] ∧
    InputSent H sent tool texts

/-- **The events describe the message**, whose blocks stand at some indices in their order. -/
structure AnthropicDescribes (events : List AnthropicStreamEvent) (placed : List (ℤ × BodyBlock))
    (message : AnthropicResponse) : Prop where
  content : placed.map Prod.snd = message.content
  ordered : placed.Pairwise fun a b ↦ a.1 < b.1
  errors : ∀ event ∈ events, event.type ≠ .error
  stopped : ∃ event ∈ events, event.type = .messageStop
  text : (events.map AnthropicStreamEvent.text).flatten =
    (message.content.map BodyBlock.textOf).flatten
  tools : ∀ k tool, (k, BodyBlock.toolUse tool) ∈ placed →
    PiecesDescribe H (piecesAt k events) tool
  places : ∀ event ∈ events, event.piece?.isSome →
    ∃ k tool, (k, BodyBlock.toolUse tool) ∈ placed ∧ event.index = some k
  inputTokens : (events.filterMap AnthropicStreamEvent.inputReport).getLast? =
    message.usage.map AnthropicUsage.inputTokens
  outputTokens : (events.filterMap AnthropicStreamEvent.outputReport).getLast? =
    message.usage.map AnthropicUsage.outputTokens
  stopReason : (events.filterMap AnthropicStreamEvent.stopReport).getLast? = message.stopReason

/-! ## What is claimed -/

/-- The same call, up to the order of the keys of its arguments. -/
structure SameCall (a b : ReceivedCall) : Prop where
  id : a.id = b.id
  name : a.name = b.name
  arguments : SameJson a.arguments b.arguments

/-- The same answer, or two failures. -/
def SameOutcome : Except JsString Answer → Except JsString Answer → Prop
  | .ok a, .ok b =>
    a.text = b.text ∧ List.Forall₂ SameCall a.calls b.calls ∧ a.usage = b.usage ∧
      a.finish = b.finish
  | .error _, .error _ => True
  | _, _ => False

/-! ## The condition -/

/-- The tool block of a block that is one. -/
def BodyBlock.tool? : BodyBlock → Option ToolUse
  | .text _ => none
  | .toolUse tool => some tool

/-- The tool blocks of a message. -/
def AnthropicResponse.tools (message : AnthropicResponse) : List ToolUse :=
  message.content.filterMap BodyBlock.tool?

/-- **The condition**: the usage is reported, each tool block has an id and a name, and where there
is one the message stopped for it. -/
structure Reported (message : AnthropicResponse) : Prop where
  usage : message.usage.isSome
  complete : ∀ tool ∈ message.tools, tool.Complete
  stopReason : message.tools ≠ [] → message.stopReason = some (js "tool_use")

end LiteHarness.Provider
