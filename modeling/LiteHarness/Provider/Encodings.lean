import LiteHarness.Provider.Conversations

/-!
# What the encoders preserve

Each encoder makes something of a message at a time and joins the parts in order, so that reading
back is a map over the messages. `append` puts a message under the one before where the roles agree:
what it makes of a conversation are its `turns`, one message each, which alternate in role and are
empty where nobody has something to send.
-/

namespace LiteHarness.Provider

open Foundation

variable {H : AdapterHost} {messages : List MessageWithImages} {message : MessageWithImages}

/-! ## Parts of a conversation -/

/-- Where a part of what a list makes comes from. -/
theorem flatMap_eq_append_cons {α β : Type*} {f : α → List β} {l : List α} {after : List β}
    {x : β} (before : List β) (h : l.flatMap f = before ++ x :: after) :
    ∃ l₁ a l₂, l = l₁ ++ a :: l₂ ∧ x ∈ f a ∧ ∀ b ∈ l₁.flatMap f, b ∈ before := by
  induction l generalizing before with
  | nil => exact absurd h.symm (List.append_ne_nil_of_right_ne_nil _ (List.cons_ne_nil _ _))
  | cons a l ih =>
    rw [List.flatMap_cons, List.append_eq_append_iff] at h
    rcases h with ⟨as, hbefore, hrest⟩ | ⟨bs, hfa, hrest⟩
    · obtain ⟨l₁, a', l₂, rfl, hx, hmem⟩ := ih _ hrest
      refine ⟨a :: l₁, a', l₂, rfl, hx, fun b hb ↦ ?_⟩
      rw [hbefore]
      rw [List.flatMap_cons] at hb
      rcases List.mem_append.mp hb with hb | hb
      · exact List.mem_append_left _ hb
      · exact List.mem_append_right _ (hmem b hb)
    · rcases bs with _ | ⟨y, bs⟩
      · obtain ⟨l₁, a', l₂, rfl, hx, hmem⟩ := ih [] hrest.symm
        refine ⟨a :: l₁, a', l₂, rfl, hx, fun b hb ↦ ?_⟩
        rw [List.flatMap_cons, hfa, List.append_nil] at hb
        rcases List.mem_append.mp hb with hb | hb
        · exact hb
        · exact absurd (hmem b hb) List.not_mem_nil
      · obtain ⟨rfl, -⟩ := List.cons.inj hrest
        refine ⟨[], a, l, rfl, ?_, nofun⟩
        rw [hfa]
        exact List.mem_append_right _ List.mem_cons_self

theorem result_mem_messageParts {id content : JsString}
    (h : .result id content ∈ messageParts H message) :
    message.role = .tool ∧ message.toolCallId = some id := by
  rw [messageParts] at h
  have htext : ConversationPart.result id content ∉ textPart message.content := by
    rw [textPart]
    split <;> simp
  cases hrole : message.role with
  | system =>
    rw [hrole] at h
    exact absurd h List.not_mem_nil
  | user =>
    rw [hrole] at h
    exact absurd h htext
  | assistant =>
    rw [hrole] at h
    rcases List.mem_append.mp h with h | h
    · exact absurd h htext
    · obtain ⟨call, -, hcall⟩ := List.mem_map.mp h
      exact absurd hcall nofun
  | tool =>
    rw [hrole] at h
    obtain ⟨id', hid, hresult⟩ := List.mem_map.mp h
    obtain ⟨rfl, -⟩ := ConversationPart.result.inj hresult
    exact ⟨rfl, Option.mem_toList.mp hid⟩

theorem callPart_mem_messageParts {call : ToolCall} (hrole : message.role = .assistant)
    (hcall : call ∈ message.toolCalls) : callPart H call ∈ messageParts H message := by
  rw [messageParts, hrole]
  exact List.mem_append_right _ (List.mem_map_of_mem hcall)

/-- **Each result follows its call** in what a conversation says. -/
theorem resultsFollow (h : Conversation messages) :
    ResultsFollow (conversationParts H messages) := by
  intro before after id content hparts
  obtain ⟨l₁, message, l₂, hsplit, hresult, hbefore⟩ := flatMap_eq_append_cons before hparts
  obtain ⟨hrole, hid⟩ := result_mem_messageParts hresult
  obtain ⟨earlier, hmem, hassistant, call, hcall, hcallId⟩ := h l₁ message l₂ hsplit hrole
  obtain rfl := Option.some.inj (hid.symm.trans hcallId)
  refine ⟨call.name, argumentsText H call, hbefore _ ?_⟩
  exact List.mem_flatMap.mpr ⟨earlier, hmem, callPart_mem_messageParts hassistant hcall⟩

/-- In a conversation a tool message names a call. -/
theorem Conversation.exists_id (h : Conversation messages) (hmem : message ∈ messages)
    (hrole : message.role = .tool) : ∃ id, message.toolCallId = some id := by
  obtain ⟨before, after, hsplit⟩ := List.append_of_mem hmem
  obtain ⟨earlier, -, -, call, -, hid⟩ := h before message after hsplit hrole
  exact ⟨call.id, hid⟩

/-! ## Loops that append -/

/-- A loop that appends what is made of each element returns where nothing is refused. -/
theorem foldlM_append_eq_ok_iff {α β ε : Type} {f : α → Except ε (List β)} {l : List α}
    {start output : List β} :
    l.foldlM (fun acc a ↦ (f a).map (acc ++ ·)) start = .ok output ↔
      ∃ made : List (List β), List.Forall₂ (fun a bs ↦ f a = .ok bs) l made ∧
        output = start ++ made.flatten := by
  induction l generalizing start with
  | nil =>
    rw [List.foldlM_nil]
    constructor
    · intro h
      exact ⟨[], .nil, by rw [List.flatten_nil, List.append_nil, Except.ok.inj h]⟩
    · rintro ⟨made, hmade, rfl⟩
      rw [List.forall₂_nil_left_iff.mp hmade, List.flatten_nil, List.append_nil]
      rfl
  | cons a l ih =>
    rw [List.foldlM_cons, except_bind_eq_ok_iff]
    constructor
    · rintro ⟨acc, hacc, h⟩
      rcases hfa : f a with e | bs
      · rw [hfa] at hacc
        exact absurd hacc nofun
      · rw [hfa] at hacc
        obtain rfl := Except.ok.inj hacc
        obtain ⟨made, hmade, rfl⟩ := ih.mp h
        exact ⟨bs :: made, .cons hfa hmade, by rw [List.flatten_cons, List.append_assoc]⟩
    · rintro ⟨made, hmade, rfl⟩
      obtain ⟨bs, rest, hfa, hrest, rfl⟩ := List.forall₂_cons_left_iff.mp hmade
      refine ⟨start ++ bs, by rw [hfa]; rfl, ih.mpr ⟨rest, hrest, ?_⟩⟩
      rw [List.flatten_cons, List.append_assoc]

/-- What is read back of a list is read back of the things made of its elements. -/
theorem flatMap_flatten_of_forall₂ {α β γ : Type*} {r : α → List β → Prop} {l : List α}
    {made : List (List β)} {parts : β → List γ} {spoken : α → List γ} (h : List.Forall₂ r l made)
    (hparts : ∀ a bs, r a bs → bs.flatMap parts = spoken a) :
    made.flatten.flatMap parts = l.flatMap spoken := by
  induction h with
  | nil => rfl
  | cons hhead _ ih =>
    rw [List.flatten_cons, List.flatMap_append, hparts _ _ hhead, ih, List.flatMap_cons]

/-! ## Images -/

/-- Only a user has images that are accepted. -/
theorem images_of_validated {images : List JsString} (h : validatedImages H message = .ok images) :
    images = message.imageDataUrls ∧ (message.imageDataUrls ≠ [] →
      message.role = .user ∧ ∃ read, readImages H 0 message.imageDataUrls = .ok read) := by
  rw [validatedImages] at h
  split at h
  · rename_i hnone
    exact ⟨(Except.ok.inj h).symm.trans hnone.symm, fun hne ↦ absurd hnone hne⟩
  · split at h
    · exact absurd h nofun
    · rename_i hrole
      rcases hread : readImages H 0 message.imageDataUrls with e | read
      · rw [hread] at h
        exact absurd h nofun
      · rw [hread] at h
        exact ⟨(Except.ok.inj h).symm, fun _ ↦ ⟨not_not.mp hrole, read, rfl⟩⟩

/-- What an encoder writes of a text and images is read back as the text. -/
theorem flatMap_content {α : Type} (parts : α → List ConversationPart) (write image : JsString → α)
    (hwrite : ∀ text, parts (write text) = textPart text) (himage : ∀ url, parts (image url) = [])
    (text : JsString) (images : List JsString) :
    ((if text = [] then [] else [write text]) ++ images.map image).flatMap parts =
      textPart text := by
  have himages : (images.map image).flatMap parts = [] := by
    rw [List.flatMap_map]
    exact List.flatMap_eq_nil_iff.mpr fun url _ ↦ himage url
  rw [List.flatMap_append, himages, List.append_nil]
  split
  · rename_i hnil
    rw [hnil]
    rfl
  · rw [List.flatMap_singleton, hwrite]

/-- A map that makes one part of each element. -/
theorem flatMap_map_singleton {α β γ : Type} (f : α → β) (parts : β → List γ) (g : α → γ)
    (h : ∀ a, parts (f a) = [g a]) (l : List α) : (l.map f).flatMap parts = l.map g := by
  rw [List.flatMap_map]
  induction l with
  | nil => rfl
  | cons a l ih => rw [List.flatMap_cons, ih, h, List.map_cons, List.singleton_append]

/-! ## Responses -/

theorem responsesMessage_parts {items : List ResponsesInputItem}
    (h : responsesMessage H message = .ok items) :
    items.flatMap ResponsesInputItem.parts = textPart message.content := by
  rw [responsesMessage] at h
  split at h
  · rw [toResponsesContent] at h
    rcases hv : validatedImages H message with e | images
    · rw [hv] at h
      exact absurd h nofun
    · rw [hv] at h
      obtain rfl := Except.ok.inj h
      rw [List.flatMap_singleton]
      dsimp only
      split
      · rfl
      · exact flatMap_content ResponsesContentPart.parts .inputText .inputImage (fun _ ↦ rfl)
          (fun _ ↦ rfl) message.content images
  · rename_i hempty
    obtain rfl := Except.ok.inj h
    rw [not_not.mp (not_or.mp hempty).1]
    rfl

/-- The items of a message are what it tells. -/
theorem responsesItems_parts {items : List ResponsesInputItem}
    (h : responsesItems H message = .ok items) :
    items.flatMap ResponsesInputItem.parts = messageParts H message := by
  rw [responsesItems] at h
  rw [messageParts]
  cases hrole : message.role with
  | system =>
    rw [hrole] at h
    obtain rfl := Except.ok.inj h
    rfl
  | tool =>
    rw [hrole] at h
    rcases hid : message.toolCallId with _ | _ | ⟨u, id⟩
    · rw [hid] at h
      exact absurd h nofun
    · rw [hid] at h
      exact absurd h nofun
    · rw [hid] at h
      obtain rfl := Except.ok.inj h
      rfl
  | user =>
    rw [hrole] at h
    rcases hw : responsesMessage H message with e | written
    · rw [hw] at h
      exact absurd h nofun
    · rw [hw] at h
      obtain rfl := Except.ok.inj h
      rw [List.flatMap_append, responsesMessage_parts hw]
      exact List.append_nil _
  | assistant =>
    rw [hrole] at h
    rcases hw : responsesMessage H message with e | written
    · rw [hw] at h
      exact absurd h nofun
    · rw [hw] at h
      obtain rfl := Except.ok.inj h
      rw [List.flatMap_append, responsesMessage_parts hw, if_pos rfl]
      exact congrArg _ (flatMap_map_singleton _ _ (callPart H) (fun _ ↦ rfl) message.toolCalls)

/-- What `toResponsesInput` returns is read back as the conversation. -/
theorem toResponsesInput_parts {output : List ResponsesInputItem}
    (h : toResponsesInput H messages = .ok output) :
    output.flatMap ResponsesInputItem.parts = conversationParts H messages := by
  obtain ⟨made, hmade, rfl⟩ := foldlM_append_eq_ok_iff.mp h
  exact flatMap_flatten_of_forall₂ hmade fun _ _ hitems ↦ responsesItems_parts hitems

/-- A message is not refused where its images are accepted and it names its call. -/
theorem exists_responsesItems (himages : ∃ images, validatedImages H message = .ok images)
    (hid : message.role = .tool → ∃ u id, message.toolCallId = some (u :: id)) :
    ∃ items, responsesItems H message = .ok items := by
  obtain ⟨images, hv⟩ := himages
  have hmessage : ∃ items, responsesMessage H message = .ok items := by
    rw [responsesMessage, toResponsesContent, hv]
    split
    · exact ⟨_, rfl⟩
    · exact ⟨[], rfl⟩
  obtain ⟨written, hw⟩ := hmessage
  rw [responsesItems]
  cases hrole : message.role with
  | system => exact ⟨[], rfl⟩
  | tool =>
    obtain ⟨u, id, hid⟩ := hid hrole
    rw [hid]
    exact ⟨_, rfl⟩
  | user | assistant =>
    rw [hw]
    exact ⟨_, rfl⟩

theorem exists_of_mem_forall₂ {α β : Type*} {r : α → β → Prop} {l : List α} {m : List β} {a : α}
    (h : List.Forall₂ r l m) (ha : a ∈ l) : ∃ b, r a b := by
  induction h with
  | nil => exact absurd ha List.not_mem_nil
  | cons hhead _ ih =>
    rcases List.mem_cons.mp ha with rfl | ha
    · exact ⟨_, hhead⟩
    · exact ih ha

theorem exists_forall₂ {α β : Type*} {r : α → β → Prop} {l : List α}
    (h : ∀ a ∈ l, ∃ b, r a b) : ∃ made, List.Forall₂ r l made := by
  induction l with
  | nil => exact ⟨[], .nil⟩
  | cons a l ih =>
    obtain ⟨b, hb⟩ := h a List.mem_cons_self
    obtain ⟨made, hmade⟩ := ih fun a' ha' ↦ h a' (List.mem_cons_of_mem _ ha')
    exact ⟨b :: made, .cons hb hmade⟩

/-! ## Chat completions -/

theorem toChatCompletionsContent_texts {content : JsString ⊕ List ChatContentPart}
    (h : toChatCompletionsContent H message = .ok content) (calls : List ChatToolCall)
    (id : Option JsString) :
    (ChatMessage.mk message.role content calls id).texts = textPart message.content := by
  rw [toChatCompletionsContent] at h
  rcases hv : validatedImages H message with e | images
  · rw [hv] at h
    exact absurd h nofun
  · rw [hv] at h
    obtain rfl := Except.ok.inj h
    rw [ChatMessage.texts]
    dsimp only
    split
    · rename_i htext
      split at htext
      · rw [Sum.inl.inj htext]
      · exact absurd htext nofun
    · rename_i hcontent
      split at hcontent
      · exact absurd hcontent nofun
      · rw [← Sum.inr.inj hcontent]
        exact flatMap_content ChatContentPart.parts .text .imageUrl (fun _ ↦ rfl) (fun _ ↦ rfl)
          message.content images

/-- A chat message tells what its message does. -/
theorem toChatMessage_parts {written : ChatMessage} (h : toChatMessage H message = .ok written)
    (hid : message.role = .tool → ∃ u id, message.toolCallId = some (u :: id)) :
    written.parts = messageParts H message := by
  rw [toChatMessage] at h
  rcases hc : toChatCompletionsContent H message with e | content
  · rw [hc] at h
    exact absurd h nofun
  · rw [hc] at h
    obtain rfl := Except.ok.inj h
    have htexts := toChatCompletionsContent_texts hc
    rw [ChatMessage.parts, messageParts]
    dsimp only
    cases hrole : message.role with
    | system => rfl
    | tool =>
      obtain ⟨u, id, hid⟩ := hid hrole
      -- Only a user has images, so that the content of a tool message is its text.
      have hcontent : content = .inl message.content := by
        rw [toChatCompletionsContent] at hc
        rcases hv : validatedImages H message with e | images
        · rw [hv] at hc
          exact absurd hc nofun
        · rw [hv] at hc
          obtain ⟨himages, huser⟩ := images_of_validated hv
          rcases hurls : message.imageDataUrls with _ | ⟨url, urls⟩
          · rw [himages, hurls] at hc
            exact (Except.ok.inj hc).symm
          · have := (huser (by rw [hurls]; exact List.cons_ne_nil _ _)).1
            rw [hrole] at this
            exact absurd this nofun
      rw [hid, hcontent, if_pos rfl]
      rfl
    | user =>
      rw [hrole] at htexts
      show (ChatMessage.mk .user content _ _).texts ++ [] = _
      rw [htexts, List.append_nil]
    | assistant =>
      rw [hrole] at htexts
      show (ChatMessage.mk .assistant content _ _).texts ++ _ = _
      rw [htexts, if_pos rfl, List.map_map]
      rfl

/-- What the chat completions adapter sends is read back as the conversation. -/
theorem toChatMessages_parts {output : List ChatMessage}
    (hids : ∀ message ∈ messages, message.role = .tool →
      ∃ u id, message.toolCallId = some (u :: id))
    (h : toChatMessages H messages = .ok output) :
    output.flatMap ChatMessage.parts = conversationParts H messages := by
  have hall := mapM_eq_ok_iff.mp h
  clear h
  induction hall with
  | nil => rfl
  | @cons message written messages output hhead _ ih =>
    have hparts := toChatMessage_parts hhead (hids message List.mem_cons_self)
    rw [List.flatMap_cons, hparts, ih fun m hm ↦ hids m (List.mem_cons_of_mem _ hm)]
    rfl

/-! ## Anthropic -/

theorem anthropicTurn_role {turn : AnthropicRole × List AnthropicBlock}
    (h : anthropicTurn H message = .ok turn) : turn.1 = anthropicRole message := by
  rw [anthropicTurn] at h
  rw [anthropicRole]
  split at h
  · rename_i hrole
    split at h
    · exact absurd h nofun
    · rw [if_pos hrole, ← Except.ok.inj h]
  · rename_i hrole
    rw [if_neg (by rw [hrole]; exact nofun)]
    split at h
    · exact absurd h nofun
    · split at h
      · rw [← Except.ok.inj h]
      · exact absurd h nofun
  · rename_i hassistant _
    rw [if_neg hassistant]
    rcases hc : anthropicContent H message with e | blocks
    · rw [hc] at h
      exact absurd h nofun
    · rw [hc] at h
      rw [← Except.ok.inj h]

theorem flatMap_textBlocks (text : JsString) :
    (textBlocks text).flatMap (AnthropicBlock.parts H) = textPart text := by
  rw [textBlocks]
  split
  · rename_i hnil
    rw [hnil]
    rfl
  · rw [List.flatMap_singleton]
    rfl

theorem textBlocks_eq_nil_iff {text : JsString} : textBlocks text = [] ↔ text = [] := by
  rw [textBlocks]
  split
  · rename_i hnil
    exact iff_of_true rfl hnil
  · rename_i hnil
    exact iff_of_false (List.cons_ne_nil _ _) hnil

/-- The images of a message are read one for one. -/
theorem readImages_eq_nil_iff {bytes : ℕ} {images : List JsString}
    {read : List (JsString × JsString)} (h : readImages H bytes images = .ok read) :
    read = [] ↔ images = [] := by
  rcases images with _ | ⟨image, images⟩
  · rw [readImages] at h
    exact iff_of_true (Except.ok.inj h).symm rfl
  · rw [readImages] at h
    split at h
    · exact absurd h nofun
    · dsimp only at h
      split at h
      · exact absurd h nofun
      · rcases hrest : readImages H _ images with e | rest
        · rw [hrest] at h
          exact absurd h nofun
        · rw [hrest] at h
          rw [← Except.ok.inj h]
          exact iff_of_false (List.cons_ne_nil _ _) (List.cons_ne_nil _ _)

theorem anthropicContent_parts {blocks : List AnthropicBlock}
    (h : anthropicContent H message = .ok blocks) :
    blocks.flatMap (AnthropicBlock.parts H) = textPart message.content ∧
      (blocks = [] ↔ message.content = [] ∧ message.imageDataUrls = []) := by
  rw [anthropicContent] at h
  rcases hread : readImages H 0 message.imageDataUrls with e | images
  · rw [hread] at h
    exact absurd h nofun
  · rw [hread] at h
    obtain rfl := Except.ok.inj h
    constructor
    · rw [List.flatMap_append, flatMap_textBlocks, List.flatMap_map]
      exact List.append_right_eq_self.mpr (List.flatMap_eq_nil_iff.mpr fun _ _ ↦ rfl)
    · rw [List.append_eq_nil_iff, List.map_eq_nil_iff, textBlocks_eq_nil_iff,
        readImages_eq_nil_iff hread]

/-- The blocks of a message are read back as what it says. -/
theorem anthropicTurn_parts {turn : AnthropicRole × List AnthropicBlock}
    (hsystem : message.role ≠ .system) (h : anthropicTurn H message = .ok turn) :
    turn.2.flatMap (AnthropicBlock.parts H) = messageParts H message := by
  rw [anthropicTurn] at h
  rw [messageParts]
  cases hrole : message.role with
  | system => exact absurd hrole hsystem
  | assistant =>
    rw [hrole] at h
    dsimp only at h
    split at h
    · exact absurd h nofun
    · obtain rfl := Except.ok.inj h
      rw [List.flatMap_append, flatMap_textBlocks]
      exact congrArg _ (flatMap_map_singleton _ _ (callPart H) (fun _ ↦ rfl) message.toolCalls)
  | tool =>
    rw [hrole] at h
    dsimp only at h
    split at h
    · exact absurd h nofun
    · rcases hid : message.toolCallId with _ | _ | ⟨u, id⟩
      · rw [hid] at h
        exact absurd h nofun
      · rw [hid] at h
        exact absurd h nofun
      · rw [hid] at h
        obtain rfl := Except.ok.inj h
        rfl
  | user =>
    rw [hrole] at h
    rcases hc : anthropicContent H message with e | blocks
    · rw [hc] at h
      exact absurd h nofun
    · rw [hc] at h
      obtain rfl := Except.ok.inj h
      exact (anthropicContent_parts hc).1

/-- A message makes blocks where it has something to send. -/
theorem anthropicTurn_ne_nil_iff {turn : AnthropicRole × List AnthropicBlock}
    (h : anthropicTurn H message = .ok turn) : turn.2 ≠ [] ↔ Filled message := by
  rw [anthropicTurn] at h
  rw [Filled]
  cases hrole : message.role with
  | assistant =>
    rw [hrole] at h
    dsimp only at h
    split at h
    · exact absurd h nofun
    · rename_i himages
      obtain rfl := Except.ok.inj h
      rw [ne_eq, List.append_eq_nil_iff, textBlocks_eq_nil_iff, List.map_eq_nil_iff,
        not_and_or]
      simp [not_not.mp himages]
  | tool =>
    rw [hrole] at h
    dsimp only at h
    split at h
    · exact absurd h nofun
    · rcases hid : message.toolCallId with _ | _ | ⟨u, id⟩
      · rw [hid] at h
        exact absurd h nofun
      · rw [hid] at h
        exact absurd h nofun
      · rw [hid] at h
        obtain rfl := Except.ok.inj h
        exact iff_of_true (List.cons_ne_nil _ _) (.inl rfl)
  | system | user =>
    rw [hrole] at h
    rcases hc : anthropicContent H message with e | blocks
    · rw [hc] at h
      exact absurd h nofun
    · rw [hc] at h
      obtain rfl := Except.ok.inj h
      rw [ne_eq, (anthropicContent_parts hc).2, not_and_or]
      simp

/-- Two stretches of consecutive messages of one role are never next to each other. -/
theorem turns_concat_of_ne {done : List MessageWithImages}
    (h : ∀ last ∈ done.getLast?, anthropicRole last ≠ anthropicRole message) :
    turns (done ++ [message]) = turns done ++ [[message]] :=
  List.splitBy_append_cons [] fun last hlast ↦ decide_eq_false (h last hlast)

/-- The last stretch ends with the last message. -/
theorem exists_last_turn {done : List MessageWithImages} {last : MessageWithImages}
    (hlast : last ∈ done.getLast?) :
    ∃ before turn, turns done = before ++ [turn] ∧ turn.getLast? = some last := by
  have hflat : (turns done).flatten = done := List.flatten_splitBy _ done
  rcases List.eq_nil_or_concat' (turns done) with hnil | ⟨before, turn, hturns⟩
  · rw [← hflat, hnil] at hlast
    exact absurd hlast nofun
  · have hturn : turn ≠ [] :=
      List.ne_nil_of_mem_splitBy (hturns ▸ List.mem_append_right _ List.mem_cons_self)
    refine ⟨before, turn, hturns, ?_⟩
    rwa [← hflat, hturns, List.flatten_append, List.flatten_singleton,
      List.getLast?_append_of_ne_nil _ hturn] at hlast

/-- A message goes on the stretch of the one before it where their roles agree. -/
theorem turns_concat_of_eq {done turn : List MessageWithImages}
    {before : List (List MessageWithImages)} {last : MessageWithImages}
    (hturns : turns done = before ++ [turn]) (hlast : turn.getLast? = some last)
    (h : anthropicRole last = anthropicRole message) :
    turns (done ++ [message]) = before ++ [turn ++ [message]] := by
  obtain ⟨hflat, hnil, hchain, hsplit⟩ := List.splitBy_eq_iff.mp hturns
  have hturn : turn ≠ [] := by
    rintro rfl
    exact absurd hlast nofun
  refine List.splitBy_eq_iff.mpr ⟨?_, ?_, ?_, ?_⟩
  · rw [hflat, List.flatten_append, List.flatten_append, List.flatten_singleton,
      List.flatten_singleton, List.append_assoc]
  · intro hmem
    rcases List.mem_append.mp hmem with hmem | hmem
    · exact hnil (List.mem_append_left _ hmem)
    · exact List.append_ne_nil_of_left_ne_nil hturn _ (List.mem_singleton.mp hmem).symm
  · intro m hm
    rcases List.mem_append.mp hm with hm | hm
    · exact hchain m (List.mem_append_left _ hm)
    · rw [List.mem_singleton.mp hm, List.isChain_append]
      refine ⟨hchain turn (List.mem_append_right _ List.mem_cons_self),
        List.isChain_singleton _, fun x hx y hy ↦ ?_⟩
      rw [hlast] at hx
      obtain rfl := Option.some.inj hx
      obtain rfl := Option.some.inj hy
      exact decide_eq_true h
  · rw [List.isChain_append] at hsplit ⊢
    refine ⟨hsplit.1, List.isChain_singleton _, fun x hx y hy ↦ ?_⟩
    obtain rfl := Option.some.inj hy
    obtain ⟨ha, hb, hroles⟩ := hsplit.2.2 x hx turn rfl
    refine ⟨ha, List.append_ne_nil_of_left_ne_nil hturn _, ?_⟩
    rwa [List.head_append_of_ne_nil hturn]

theorem forall₂_concat_left {α β : Type*} {r : α → β → Prop} {l : List α} {a : α} {m : List β}
    (h : List.Forall₂ r (l ++ [a]) m) :
    ∃ m' b, m = m' ++ [b] ∧ List.Forall₂ r l m' ∧ r a b := by
  induction l generalizing m with
  | nil =>
    obtain ⟨b, rest, hb, hrest, rfl⟩ := List.forall₂_cons_left_iff.mp h
    rw [List.forall₂_nil_left_iff.mp hrest]
    exact ⟨[], b, rfl, .nil, hb⟩
  | cons x l ih =>
    obtain ⟨y, rest, hy, hrest, rfl⟩ := List.forall₂_cons_left_iff.mp h
    obtain ⟨m', b, rfl, hm', hb⟩ := ih hrest
    exact ⟨y :: m', b, rfl, .cons hy hm', hb⟩

/-- What a stretch of messages is sent as: one message with the blocks of all, under their role. -/
structure SentAs (H : AdapterHost) (turn : List MessageWithImages) (written : AnthropicMessage) :
    Prop where
  role : ∀ message ∈ turn, anthropicRole message = written.role
  content : ∃ made : List (List AnthropicBlock), written.content = made.flatten ∧
    List.Forall₂
      (fun message blocks ↦ anthropicTurn H message = .ok (anthropicRole message, blocks)) turn made

theorem SentAs.single {blocks : List AnthropicBlock}
    (h : anthropicTurn H message = .ok (anthropicRole message, blocks)) :
    SentAs H [message] ⟨anthropicRole message, blocks⟩ where
  role m hm := by rw [List.mem_singleton.mp hm]
  content := ⟨[blocks], List.flatten_singleton.symm, .cons h .nil⟩

theorem SentAs.concat {turn : List MessageWithImages} {written : AnthropicMessage}
    {blocks : List AnthropicBlock} (hsent : SentAs H turn written)
    (h : anthropicTurn H message = .ok (anthropicRole message, blocks))
    (hrole : written.role = anthropicRole message) :
    SentAs H (turn ++ [message]) { written with content := written.content ++ blocks } where
  role m hm := by
    rcases List.mem_append.mp hm with hm | hm
    · exact hsent.role m hm
    · rw [List.mem_singleton.mp hm, hrole]
  content := by
    obtain ⟨made, hcontent, hmade⟩ := hsent.content
    refine ⟨made ++ [blocks], ?_, List.rel_append hmade (.cons h .nil)⟩
    rw [hcontent, List.flatten_append, List.flatten_singleton]

/-- **The messages are the stretches**: `append` puts the blocks of a message where it goes. -/
theorem append_turns {done : List MessageWithImages} {output : List AnthropicMessage}
    {blocks : List AnthropicBlock} (hsent : List.Forall₂ (SentAs H) (turns done) output)
    (h : anthropicTurn H message = .ok (anthropicRole message, blocks)) :
    List.Forall₂ (SentAs H) (turns (done ++ [message]))
      (append output (anthropicRole message) blocks) := by
  rcases hlast : done.getLast? with _ | last
  · -- The first message opens a stretch.
    obtain rfl := List.getLast?_eq_none_iff.mp hlast
    obtain rfl := List.forall₂_nil_left_iff.mp hsent
    exact .cons (.single h) .nil
  · obtain ⟨before, turn, hturns, hturn⟩ := exists_last_turn hlast
    rw [hturns] at hsent
    obtain ⟨earlier, previous, rfl, hearlier, hprevious⟩ := forall₂_concat_left hsent
    have hrole : anthropicRole last = previous.role :=
      hprevious.role last (List.mem_of_getLast? hturn)
    rw [append, List.getLast?_concat, List.dropLast_concat]
    dsimp only
    split
    · rename_i heq
      rw [turns_concat_of_eq hturns hturn (hrole.trans heq)]
      exact List.rel_append hearlier (.cons (hprevious.concat h heq) .nil)
    · rename_i hne
      rw [turns_concat_of_ne, hturns]
      · exact List.rel_append hsent (.cons (.single h) .nil)
      · intro last' hlast'
        obtain rfl := Option.some.inj (hlast.symm.trans hlast')
        rwa [hrole]

/-- The roles of the messages alternate. -/
theorem append_isChain {output : List AnthropicMessage} {role : AnthropicRole}
    {blocks : List AnthropicBlock} (h : output.IsChain fun a b ↦ a.role ≠ b.role) :
    (append output role blocks).IsChain fun a b ↦ a.role ≠ b.role := by
  rw [append]
  rcases List.eq_nil_or_concat' output with rfl | ⟨before, previous, rfl⟩
  · exact List.isChain_singleton _
  · rw [List.getLast?_concat, List.dropLast_concat]
    dsimp only
    rw [List.isChain_append] at h
    split
    · refine List.isChain_append.mpr ⟨h.1, List.isChain_singleton _, fun x hx y hy ↦ ?_⟩
      obtain rfl := Option.some.inj hy
      exact h.2.2 x hx previous rfl
    · rename_i hne
      refine List.isChain_append.mpr ⟨List.isChain_append.mpr h, List.isChain_singleton _, ?_⟩
      intro x hx y hy
      rw [List.getLast?_concat] at hx
      obtain rfl := Option.some.inj hx
      obtain rfl := Option.some.inj hy
      exact hne

/-- **What `toAnthropicMessages` returns**: the stretches, in alternating roles. -/
theorem toAnthropicMessages_spec (done : List MessageWithImages)
    {start output : List AnthropicMessage} (hsent : List.Forall₂ (SentAs H) (turns done) start)
    (hchain : start.IsChain fun a b ↦ a.role ≠ b.role)
    (h : messages.foldlM (fun output message ↦
      if message.role = .system then .ok output
      else (anthropicTurn H message).map fun turn ↦ append output turn.1 turn.2) start =
        .ok output) :
    List.Forall₂ (SentAs H) (turns (done ++ spoken messages)) output ∧
      output.IsChain fun a b ↦ a.role ≠ b.role := by
  induction messages generalizing done start with
  | nil =>
    obtain rfl := Except.ok.inj h
    rw [spoken, List.filter_nil, List.append_nil]
    exact ⟨hsent, hchain⟩
  | cons message messages ih =>
    rw [List.foldlM_cons] at h
    by_cases hsystem : message.role = .system
    · rw [if_pos hsystem] at h
      have hspoken : spoken (message :: messages) = spoken messages :=
        List.filter_cons_of_neg (by simp [hsystem])
      rw [hspoken]
      exact ih done hsent hchain h
    · rw [if_neg hsystem] at h
      have hspoken : spoken (message :: messages) = message :: spoken messages :=
        List.filter_cons_of_pos (by simp [hsystem])
      rcases hturn : anthropicTurn H message with e | ⟨role, blocks⟩
      · rw [hturn] at h
        exact absurd h nofun
      · rw [hturn] at h
        obtain rfl : role = anthropicRole message := anthropicTurn_role hturn
        rw [hspoken, List.append_cons]
        exact ih _ (append_turns hsent hturn) (append_isChain hchain) h

theorem not_system_of_mem_spoken (h : message ∈ spoken messages) : message.role ≠ .system :=
  of_decide_eq_true (List.mem_filter.mp h).2

/-- The system says nothing in the messages. -/
theorem conversationParts_spoken :
    (spoken messages).flatMap (messageParts H) = conversationParts H messages := by
  rw [conversationParts]
  induction messages with
  | nil => rfl
  | cons message messages ih =>
    rw [List.flatMap_cons, ← ih, spoken, spoken]
    by_cases hsystem : message.role = .system
    · rw [List.filter_cons_of_neg (by simp [hsystem]), messageParts, hsystem, List.nil_append]
    · rw [List.filter_cons_of_pos (by simp [hsystem]), List.flatMap_cons]

theorem SentAs.parts {turn : List MessageWithImages} {written : AnthropicMessage}
    (h : SentAs H turn written) (hsystem : ∀ message ∈ turn, message.role ≠ .system) :
    written.content.flatMap (AnthropicBlock.parts H) = turn.flatMap (messageParts H) := by
  obtain ⟨made, hcontent, hmade⟩ := h.content
  rw [hcontent]
  clear hcontent h
  induction hmade with
  | nil => rfl
  | @cons message blocks turn made hhead _ ih =>
    rw [List.flatten_cons, List.flatMap_append, List.flatMap_cons,
      ih fun m hm ↦ hsystem m (List.mem_cons_of_mem _ hm),
      ← anthropicTurn_parts (hsystem message List.mem_cons_self) hhead]

/-- A stretch is sent as an empty message where nobody in it has something to send. -/
theorem SentAs.content_ne_nil_iff {turn : List MessageWithImages} {written : AnthropicMessage}
    (h : SentAs H turn written) : written.content ≠ [] ↔ ∃ message ∈ turn, Filled message := by
  obtain ⟨made, hcontent, hmade⟩ := h.content
  rw [hcontent]
  clear hcontent h
  induction hmade with
  | nil => exact iff_of_false (fun h ↦ h rfl) nofun
  | cons hhead _ ih =>
    rw [List.flatten_cons, ne_eq, List.append_eq_nil_iff, not_and_or, List.exists_mem_cons_iff,
      ← anthropicTurn_ne_nil_iff hhead, ← ih]

theorem anthropicParts_of_sent {done : List MessageWithImages} {output : List AnthropicMessage}
    (h : List.Forall₂ (SentAs H) (turns done) output)
    (hsystem : ∀ message ∈ done, message.role ≠ .system) :
    anthropicParts H output = done.flatMap (messageParts H) := by
  have hflat : (turns done).flatten = done := List.flatten_splitBy _ done
  rw [← hflat] at hsystem ⊢
  rw [anthropicParts]
  clear hflat
  generalize turns done = stretches at h hsystem
  induction h with
  | nil => rfl
  | cons hhead _ ih =>
    rw [List.flatMap_cons, List.flatten_cons, List.flatMap_append,
      hhead.parts fun m hm ↦ hsystem m (List.mem_append_left _ hm),
      ih fun m hm ↦ hsystem m (List.mem_append_right _ hm)]

theorem forall_exists_of_forall₂ {α β : Type*} {r : α → β → Prop} {p : α → Prop} {q : β → Prop}
    {l : List α} {m : List β} (h : List.Forall₂ r l m) (hiff : ∀ a b, r a b → (q b ↔ p a)) :
    (∀ b ∈ m, q b) ↔ ∀ a ∈ l, p a := by
  induction h with
  | nil => exact iff_of_true nofun nofun
  | cons hhead _ ih => rw [List.forall_mem_cons, List.forall_mem_cons, hiff _ _ hhead, ih]

/-- The messages are written where no turn is refused. -/
theorem exists_toAnthropicMessages (start : List AnthropicMessage)
    (h : ∀ message ∈ messages, message.role ≠ .system →
      ∃ turn, anthropicTurn H message = .ok turn) :
    ∃ output, messages.foldlM (fun output message ↦
      if message.role = .system then .ok output
      else (anthropicTurn H message).map fun turn ↦ append output turn.1 turn.2) start =
        .ok output := by
  induction messages generalizing start with
  | nil => exact ⟨start, rfl⟩
  | cons message messages ih =>
    rw [List.foldlM_cons]
    by_cases hsystem : message.role = .system
    · rw [if_pos hsystem]
      exact ih start fun m hm ↦ h m (List.mem_cons_of_mem _ hm)
    · obtain ⟨turn, hturn⟩ := h message List.mem_cons_self hsystem
      rw [if_neg hsystem, hturn]
      exact ih _ fun m hm ↦ h m (List.mem_cons_of_mem _ hm)

/-- A message is not refused where its images are accepted and it names its call. -/
theorem exists_anthropicTurn (himages : ∃ images, validatedImages H message = .ok images)
    (hid : message.role = .tool → ∃ u id, message.toolCallId = some (u :: id)) :
    ∃ turn, anthropicTurn H message = .ok turn := by
  obtain ⟨images, hv⟩ := himages
  have huser := (images_of_validated hv).2
  have hnone : message.role ≠ .user → ¬message.imageDataUrls ≠ [] :=
    fun hrole hne ↦ hrole (huser hne).1
  have hcontent : ∃ blocks, anthropicContent H message = .ok blocks := by
    rw [anthropicContent]
    rcases hurls : message.imageDataUrls with _ | ⟨url, urls⟩
    · exact ⟨_, rfl⟩
    · obtain ⟨-, read, hread⟩ := huser (by rw [hurls]; exact List.cons_ne_nil _ _)
      rw [← hurls, hread]
      exact ⟨_, rfl⟩
  obtain ⟨blocks, hcontent⟩ := hcontent
  rw [anthropicTurn]
  cases hrole : message.role with
  | assistant =>
    rw [hrole] at hnone
    dsimp only
    rw [if_neg (hnone nofun)]
    exact ⟨_, rfl⟩
  | tool =>
    rw [hrole] at hnone
    obtain ⟨u, id, hid⟩ := hid hrole
    dsimp only
    rw [if_neg (hnone nofun), hid]
    exact ⟨_, rfl⟩
  | system | user =>
    dsimp only
    rw [hcontent]
    exact ⟨_, rfl⟩

/-! ## The conversation -/

theorem exists_toChatMessage_iff :
    (∃ written, toChatMessage H message = .ok written) ↔
      ∃ images, validatedImages H message = .ok images := by
  rw [toChatMessage, toChatCompletionsContent]
  rcases validatedImages H message with e | images
  · exact iff_of_false nofun nofun
  · exact iff_of_true ⟨_, rfl⟩ ⟨_, rfl⟩

/-- **A conversation is preserved** exactly where it is sendable. -/
theorem preserved_iff_sendable (h : Conversation messages) :
    Preserved H messages ↔ Sendable H messages := by
  constructor
  · rintro ⟨⟨output, hanthropic, -, -, -, hcontents⟩, ⟨input, hresponses, -⟩, ⟨chat, hchat, -⟩⟩
    refine ⟨fun message hmem ↦ ?_, fun message hmem hrole hid ↦ ?_, ?_⟩
    · obtain ⟨written, -, hwritten⟩ := exists_of_mapM_eq_ok hchat message hmem
      exact exists_toChatMessage_iff.mp ⟨written, hwritten⟩
    · -- A result without an id is refused where the input is made.
      obtain ⟨made, hmade, -⟩ := foldlM_append_eq_ok_iff.mp hresponses
      obtain ⟨items, hitems⟩ := exists_of_mem_forall₂ hmade hmem
      rw [responsesItems, hrole, hid] at hitems
      exact absurd hitems nofun
    · have hsent := (toAnthropicMessages_spec [] .nil List.isChain_nil hanthropic).1
      exact (forall_exists_of_forall₂ hsent fun _ _ hturn ↦ hturn.content_ne_nil_iff).mp hcontents
  · rintro ⟨himages, hids, hturns⟩
    have hid : ∀ message ∈ messages, message.role = .tool →
        ∃ u id, message.toolCallId = some (u :: id) := by
      intro message hmem hrole
      obtain ⟨id, hsome⟩ := h.exists_id hmem hrole
      rcases id with _ | ⟨u, id⟩
      · exact absurd hsome (hids message hmem hrole)
      · exact ⟨u, id, hsome⟩
    have hfollow := resultsFollow (H := H) h
    refine ⟨?_, ?_, ?_⟩
    · obtain ⟨output, houtput⟩ := exists_toAnthropicMessages (H := H) [] fun message hmem _ ↦
        exists_anthropicTurn (himages message hmem) (hid message hmem)
      obtain ⟨hsent, hchain⟩ :=
        toAnthropicMessages_spec [] .nil List.isChain_nil houtput
      have hparts : anthropicParts H output = conversationParts H messages :=
        (anthropicParts_of_sent hsent fun _ ↦ not_system_of_mem_spoken).trans
          conversationParts_spoken
      refine ⟨output, houtput, hparts, by rwa [hparts], hchain, ?_⟩
      exact (forall_exists_of_forall₂ hsent fun _ _ hturn ↦ hturn.content_ne_nil_iff).mpr hturns
    · obtain ⟨made, hmade⟩ := exists_forall₂ fun message hmem ↦
        exists_responsesItems (himages message hmem) (hid message hmem)
      have houtput : toResponsesInput H messages = .ok _ :=
        foldlM_append_eq_ok_iff.mpr ⟨made, hmade, rfl⟩
      have hparts := toResponsesInput_parts houtput
      exact ⟨_, houtput, hparts, by rwa [hparts]⟩
    · obtain ⟨output, hall⟩ := exists_forall₂ fun message hmem ↦
        exists_toChatMessage_iff.mpr (himages message hmem)
      have houtput : toChatMessages H messages = .ok output := mapM_eq_ok_iff.mpr hall
      have hparts := toChatMessages_parts hid houtput
      exact ⟨output, houtput, hparts, by rwa [hparts]⟩

/-- The reference numbers, with a count of bytes that every text fits. -/
def referenceHost : AdapterHost where
  toNumberLiterals := referencePlatform.toNumberLiterals
  base64Bytes _ := 0

/-- A question, a call of a tool and its result, after a message of the system. -/
def oneToolCall : List MessageWithImages :=
  [{ role := .system, content := js "Be brief." },
    { role := .user, content := js "List the files." },
    { role := .assistant, content := [], toolCalls := [⟨js "c1", js "shell.exec", []⟩] },
    { role := .tool, content := js "a.txt", toolCallId := some (js "c1") }]

theorem conversation_oneToolCall : Conversation oneToolCall := by
  intro before message after h hrole
  rw [oneToolCall] at h
  rcases before with _ | ⟨m₁, _ | ⟨m₂, _ | ⟨m₃, before⟩⟩⟩
  · obtain ⟨rfl, -⟩ := List.cons.inj h
    exact absurd hrole nofun
  · obtain ⟨-, h⟩ := List.cons.inj h
    obtain ⟨rfl, -⟩ := List.cons.inj h
    exact absurd hrole nofun
  · obtain ⟨-, h⟩ := List.cons.inj h
    obtain ⟨-, h⟩ := List.cons.inj h
    obtain ⟨rfl, -⟩ := List.cons.inj h
    exact absurd hrole nofun
  · -- The call of the third message is the one the fourth names.
    obtain ⟨-, h₁⟩ := List.cons.inj h
    obtain ⟨-, h₂⟩ := List.cons.inj h₁
    obtain ⟨rfl, h₃⟩ := List.cons.inj h₂
    rcases before with _ | ⟨m₄, before⟩
    · obtain ⟨rfl, -⟩ := List.cons.inj h₃
      exact ⟨_, .tail _ (.tail _ (.head _)), rfl, _, .head _, rfl⟩
    · exact absurd (List.cons.inj h₃).2.symm
        (List.append_ne_nil_of_right_ne_nil _ (List.cons_ne_nil _ _))

theorem preserved_oneToolCall : Preserved referenceHost oneToolCall := by
  refine (preserved_iff_sendable conversation_oneToolCall).mpr ⟨?_, by decide, ?_⟩
  · intro message hmem
    simp only [oneToolCall, List.mem_cons, List.not_mem_nil, or_false] at hmem
    rcases hmem with rfl | rfl | rfl | rfl <;> exact ⟨[], rfl⟩
  · have hturns : turns (spoken oneToolCall) = [oneToolCall.drop 1 |>.take 1,
        oneToolCall.drop 2 |>.take 1, oneToolCall.drop 3] := rfl
    rw [hturns]
    simp only [oneToolCall, List.mem_cons, List.not_mem_nil, or_false, List.drop, List.take]
    rintro turn (rfl | rfl | rfl)
    · exact ⟨_, .head _, .inr (.inl nofun)⟩
    · exact ⟨_, .head _, .inr (.inr (.inl ⟨rfl, nofun⟩))⟩
    · exact ⟨_, .head _, .inl rfl⟩

/-- An answer without a text or a call is sent to Anthropic as a message without content. -/
theorem empty_turn_unsendable :
    ¬ ∀ (H : AdapterHost) (messages : List MessageWithImages), Conversation messages →
      Preserved H messages := by
  intro h
  have hempty := h referenceHost [{ role := .assistant, content := [] }] (by
    rintro (_ | ⟨_, before⟩) message after h hrole
    · cases h
      exact absurd hrole nofun
    · exact absurd (List.cons.inj h).2.symm
        (List.append_ne_nil_of_right_ne_nil _ (List.cons_ne_nil _ _)))
  obtain ⟨output, houtput, -, -, -, hcontent⟩ := hempty.anthropic
  obtain rfl := Except.ok.inj houtput
  exact hcontent _ (.head _) rfl

end LiteHarness.Provider
