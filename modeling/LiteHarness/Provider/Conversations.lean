import Mathlib.Data.List.SplitBy
import LiteHarness.Foundation.Checks
import LiteHarness.Provider.Models
import LiteHarness.Storage.EventText

/-!
# Conversations on the wire

The messages of a conversation, as the adapters write them into a request: `toAnthropicMessages`
puts the messages of one role into one message of blocks, `toResponsesInput` makes a list of items
of them, and the chat completions adapter maps each to one message. A tool result is sent under the
role of the user to Anthropic.

Arguments of a tool call are compared as the JSON text that is sent, which determines plain ones
(`NumberLiterals.stringify_inj`). The bytes of a Base64 text are a parameter.
-/

namespace LiteHarness.Provider

/-- `MessageWithImages`. -/
structure MessageWithImages extends ModelMessage where
  imageDataUrls : List JsString := []

/-- What the adapters take from the language. -/
structure AdapterHost extends NumberLiterals where
  /-- `Buffer.from(data, "base64").byteLength`. -/
  base64Bytes : JsString → ℕ

variable (H : AdapterHost)

/-- `JSON.stringify(call.arguments)`. -/
def argumentsText (call : ToolCall) : JsString := H.stringify call.arguments

def invalidRequest (message : String) : ProviderError := ⟨js "invalid_request", js message, false⟩

/-! ## Images -/

/-- A unit of `[A-Za-z0-9+/=]`. -/
def isBase64Unit (u : UInt16) : Bool :=
  (65 ≤ u.toNat && u.toNat ≤ 90) || (97 ≤ u.toNat && u.toNat ≤ 122) ||
    (48 ≤ u.toNat && u.toNat ≤ 57) || u == 43 || u == 47 || u == 61

/-- The groups of `/^data:image\/(png|jpeg);base64,([A-Za-z0-9+/=]+)$/`. -/
def imageData? (url : JsString) : Option (JsString × JsString) :=
  [js "png", js "jpeg"].findSome? fun format ↦
    let head := js "data:image/" ++ format ++ js ";base64,"
    let data := url.drop head.length
    if head.isPrefixOf url && !data.isEmpty && data.all isBase64Unit then some (format, data)
    else none

/-- The loop over the images of a message, which counts the bytes before it. -/
def readImages (bytes : ℕ) : List JsString → Except ProviderError (List (JsString × JsString))
  | [] => .ok []
  | image :: images =>
    match imageData? image with
    | none => .error (invalidRequest "Image context must be a PNG or JPEG data URL")
    | some (format, data) =>
      let bytes := bytes + H.base64Bytes data
      if 32 * 1024 * 1024 < bytes then
        .error (invalidRequest "Image context exceeds the 32 MiB request limit")
      else (readImages bytes images).map ((format, data) :: ·)

/-- `validatedImages`. -/
def validatedImages (message : MessageWithImages) : Except ProviderError (List JsString) :=
  if message.imageDataUrls = [] then .ok []
  else if message.role ≠ .user then
    .error (invalidRequest "Image context must use the user role")
  else (readImages H 0 message.imageDataUrls).map fun _ ↦ message.imageDataUrls

/-! ## Anthropic -/

inductive AnthropicRole where
  | user | assistant
  deriving DecidableEq

inductive AnthropicBlock where
  | text (text : JsString)
  | toolUse (call : ToolCall)
  | toolResult (toolUseId content : JsString)
  | image (mediaType data : JsString)

structure AnthropicMessage where
  role : AnthropicRole
  content : List AnthropicBlock

/-- `[{ type: "text", text }]`, where the text is not empty. -/
def textBlocks (text : JsString) : List AnthropicBlock := if text = [] then [] else [.text text]

/-- `anthropicContent`. -/
def anthropicContent (message : MessageWithImages) : Except ProviderError (List AnthropicBlock) :=
  (readImages H 0 message.imageDataUrls).map fun images ↦
    textBlocks message.content ++
      images.map fun image ↦ .image (js "image/" ++ image.1) image.2

/-- The `append` of `toAnthropicMessages`. -/
def append (output : List AnthropicMessage) (role : AnthropicRole) (blocks : List AnthropicBlock) :
    List AnthropicMessage :=
  match output.getLast? with
  | some previous =>
    if previous.role = role then
      output.dropLast ++ [{ previous with content := previous.content ++ blocks }]
    else output ++ [⟨role, blocks⟩]
  | none => output ++ [⟨role, blocks⟩]

/-- What a message that is not of the system appends, or why it is refused. -/
def anthropicTurn (message : MessageWithImages) :
    Except ProviderError (AnthropicRole × List AnthropicBlock) :=
  match message.role with
  | .assistant =>
    if message.imageDataUrls ≠ [] then
      .error (invalidRequest "Assistant image context is unsupported")
    else .ok (.assistant, textBlocks message.content ++ message.toolCalls.map .toolUse)
  | .tool =>
    if message.imageDataUrls ≠ [] then
      .error (invalidRequest "Tool results cannot contain image context")
    else
      match message.toolCallId with
      | some (u :: id) => .ok (.user, [.toolResult (u :: id) message.content])
      | _ => .error (invalidRequest "Anthropic tool result is missing its tool call id")
  | _ => (anthropicContent H message).map (.user, ·)

/-- `toAnthropicMessages`. -/
def toAnthropicMessages (messages : List MessageWithImages) :
    Except ProviderError (List AnthropicMessage) :=
  messages.foldlM (fun output message ↦
    if message.role = .system then .ok output
    else (anthropicTurn H message).map fun turn ↦ append output turn.1 turn.2) []

/-! ## Responses -/

inductive ResponsesContentPart where
  | inputText (text : JsString)
  | inputImage (imageUrl : JsString)

inductive ResponsesInputItem where
  | message (role : SessionMessageRole) (content : JsString ⊕ List ResponsesContentPart)
  | functionCall (callId name arguments : JsString)
  | functionCallOutput (callId output : JsString)

/-- `toResponsesContent`. -/
def toResponsesContent (message : MessageWithImages) :
    Except ProviderError (JsString ⊕ List ResponsesContentPart) :=
  (validatedImages H message).map fun images ↦
    if images = [] then .inl message.content
    else
      .inr ((if message.content = [] then [] else [.inputText message.content]) ++
        images.map .inputImage)

/-- The message item, where there is a text or an image. -/
def responsesMessage (message : MessageWithImages) :
    Except ProviderError (List ResponsesInputItem) :=
  if message.content ≠ [] ∨ message.imageDataUrls ≠ [] then
    (toResponsesContent H message).map fun content ↦ [.message message.role content]
  else .ok []

/-- The items of a message. -/
def responsesItems (message : MessageWithImages) : Except ProviderError (List ResponsesInputItem) :=
  match message.role with
  | .system => .ok []
  | .tool =>
    match message.toolCallId with
    | some (u :: id) => .ok [.functionCallOutput (u :: id) message.content]
    | _ => .error (invalidRequest "A tool result requires its function call id")
  | _ =>
    (responsesMessage H message).map fun written ↦
      written ++ (if message.role = .assistant then message.toolCalls else []).map fun call ↦
        .functionCall call.id call.name (argumentsText H call)

/-- `toResponsesInput`. -/
def toResponsesInput (messages : List MessageWithImages) :
    Except ProviderError (List ResponsesInputItem) :=
  messages.foldlM (fun input message ↦ (responsesItems H message).map (input ++ ·)) []

/-! ## Chat completions -/

inductive ChatContentPart where
  | text (text : JsString)
  | imageUrl (url : JsString)

structure ChatToolCall where
  id : JsString
  name : JsString
  arguments : JsString

structure ChatMessage where
  role : SessionMessageRole
  content : JsString ⊕ List ChatContentPart
  toolCalls : List ChatToolCall := []
  toolCallId : Option JsString := none

/-- `toChatCompletionsContent`. -/
def toChatCompletionsContent (message : MessageWithImages) :
    Except ProviderError (JsString ⊕ List ChatContentPart) :=
  (validatedImages H message).map fun images ↦
    if images = [] then .inl message.content
    else
      .inr ((if message.content = [] then [] else [.text message.content]) ++
        images.map .imageUrl)

/-- The message of the request for a message. -/
def toChatMessage (message : MessageWithImages) : Except ProviderError ChatMessage :=
  (toChatCompletionsContent H message).map fun content ↦ {
    role := message.role
    content := content
    toolCalls := (if message.role = .assistant then message.toolCalls else []).map fun call ↦
      ⟨call.id, call.name, argumentsText H call⟩
    toolCallId := if message.role = .tool then message.toolCallId.filter (· ≠ []) else none }

/-- The `messages` of the request. -/
def toChatMessages (messages : List MessageWithImages) : Except ProviderError (List ChatMessage) :=
  messages.mapM (toChatMessage H)

/-! ## Reading back -/

/-- What a conversation is made of. -/
inductive ConversationPart where
  | text (text : JsString)
  | call (id name arguments : JsString)
  | result (id content : JsString)
  deriving DecidableEq

/-- A text that is not empty. -/
def textPart (text : JsString) : List ConversationPart := if text = [] then [] else [.text text]

def callPart (call : ToolCall) : ConversationPart :=
  .call call.id call.name (argumentsText H call)

/-- What a message says. -/
def messageParts (message : MessageWithImages) : List ConversationPart :=
  match message.role with
  | .system => []
  | .assistant => textPart message.content ++ message.toolCalls.map (callPart H)
  | .tool => message.toolCallId.toList.map fun id ↦ .result id message.content
  | .user => textPart message.content

/-- What a conversation says, without the messages of the system. -/
def conversationParts (messages : List MessageWithImages) : List ConversationPart :=
  messages.flatMap (messageParts H)

def AnthropicBlock.parts : AnthropicBlock → List ConversationPart
  | .text content => textPart content
  | .toolUse call => [callPart H call]
  | .toolResult id content => [.result id content]
  | .image _ _ => []

def anthropicParts (output : List AnthropicMessage) : List ConversationPart :=
  output.flatMap fun message ↦ message.content.flatMap (AnthropicBlock.parts H)

def ResponsesContentPart.parts : ResponsesContentPart → List ConversationPart
  | .inputText text => textPart text
  | .inputImage _ => []

def ResponsesInputItem.parts : ResponsesInputItem → List ConversationPart
  | .message _ (.inl text) => textPart text
  | .message _ (.inr content) => content.flatMap ResponsesContentPart.parts
  | .functionCall id name arguments => [.call id name arguments]
  | .functionCallOutput id output => [.result id output]

def ChatContentPart.parts : ChatContentPart → List ConversationPart
  | .text content => textPart content
  | .imageUrl _ => []

def ChatMessage.texts (message : ChatMessage) : List ConversationPart :=
  match message.content with
  | .inl text => textPart text
  | .inr content => content.flatMap ChatContentPart.parts

def ChatMessage.parts (message : ChatMessage) : List ConversationPart :=
  match message.role with
  | .system => []
  | .tool =>
    match message.toolCallId, message.content with
    | some id, .inl content => [.result id content]
    | _, _ => []
  | _ => message.texts ++ message.toolCalls.map fun call ↦ .call call.id call.name call.arguments

/-! ## What is claimed of a conversation -/

/-- Each tool message follows an assistant message with its call. -/
def Conversation (messages : List MessageWithImages) : Prop :=
  ∀ before message after, messages = before ++ message :: after → message.role = .tool →
    ∃ earlier ∈ before, earlier.role = .assistant ∧
      ∃ call ∈ earlier.toolCalls, message.toolCallId = some call.id

/-- Each result follows its call. -/
def ResultsFollow (parts : List ConversationPart) : Prop :=
  ∀ before after id content, parts = before ++ .result id content :: after →
    ∃ name arguments, ConversationPart.call id name arguments ∈ before

/-- **The conversation is preserved** by the three encoders. -/
structure Preserved (messages : List MessageWithImages) : Prop where
  anthropic : ∃ output, toAnthropicMessages H messages = .ok output ∧
    anthropicParts H output = conversationParts H messages ∧
    ResultsFollow (anthropicParts H output) ∧
    output.IsChain (fun a b ↦ a.role ≠ b.role) ∧ ∀ message ∈ output, message.content ≠ []
  responses : ∃ output, toResponsesInput H messages = .ok output ∧
    output.flatMap ResponsesInputItem.parts = conversationParts H messages ∧
    ResultsFollow (output.flatMap ResponsesInputItem.parts)
  chat : ∃ output, toChatMessages H messages = .ok output ∧
    output.flatMap ChatMessage.parts = conversationParts H messages ∧
    ResultsFollow (output.flatMap ChatMessage.parts)

/-! ## The condition -/

/-- The role under which Anthropic is sent a message. -/
def anthropicRole (message : MessageWithImages) : AnthropicRole :=
  if message.role = .assistant then .assistant else .user

/-- The messages that are not of the system. -/
def spoken (messages : List MessageWithImages) : List MessageWithImages :=
  messages.filter fun message ↦ message.role ≠ .system

/-- The stretches of consecutive messages that are sent under one role. -/
def turns (messages : List MessageWithImages) : List (List MessageWithImages) :=
  messages.splitBy fun a b ↦ anthropicRole a = anthropicRole b

/-- The message has something to send. -/
def Filled (message : MessageWithImages) : Prop :=
  message.role = .tool ∨ message.content ≠ [] ∨
    (message.role = .assistant ∧ message.toolCalls ≠ []) ∨ message.imageDataUrls ≠ []

/-- **The condition**: the images are those of a user and are accepted, no id of a tool result is
empty, and in each stretch of consecutive messages of one role one at least has something to send.
-/
structure Sendable (messages : List MessageWithImages) : Prop where
  images : ∀ message ∈ messages, ∃ images, validatedImages H message = .ok images
  ids : ∀ message ∈ messages, message.role = .tool → message.toolCallId ≠ some []
  turns : ∀ turn ∈ turns (spoken messages), ∃ message ∈ turn, Filled message

end LiteHarness.Provider
