import LiteHarness.Provider.AnthropicMessages

/-!
# The decoders of an Anthropic message

The loop of the stream leaves at each index what the pieces of the index make, and of a message it
leaves its tool blocks in their order. What the decoders make of a message differs: the stream
always reports a usage, refuses a tool block without an id or a name and takes any tool block for
the reason the message stopped for.
-/

namespace LiteHarness.Provider

open Foundation

variable {H : JsonTexts} {events : List AnthropicStreamEvent} {placed : List (ℤ × BodyBlock)}
  {message : AnthropicResponse} {tool : ToolUse}

/-! ## The loop -/

/-- A stream of events yields their texts and ends with what follows. -/
theorem streamAnthropic_events (h : ∀ event ∈ events, event.type ≠ .error)
    (state : AnthropicState) :
    streamAnthropic H state (events.map some) =
      (Generated.yields ((events.map AnthropicStreamEvent.text).flatMap textEvents)).andThen
        (finishAnthropic H (events.foldl (AnthropicState.read H) state)) := by
  induction events generalizing state with
  | nil => rfl
  | cons event events ih =>
    obtain ⟨hevent, hevents⟩ := List.forall_mem_cons.mp h
    rw [List.map_cons, streamAnthropic, if_neg hevent, ih hevents, ← Generated.andThen_assoc]
    rfl

theorem foldl_getD {α β : Type} (report : α → Option β) (l : List α) (b : β) :
    l.foldl (fun b a ↦ (report a).getD b) b = (l.filterMap report).getLast?.getD b := by
  induction l generalizing b with
  | nil => rfl
  | cons a l ih =>
    rw [List.foldl_cons, ih, List.filterMap_cons]
    rcases report a with _ | b'
    · rfl
    · rw [List.getLast?_cons]
      rfl

/-- The fields of the state are read apart. -/
theorem foldl_read (state : AnthropicState) :
    events.foldl (AnthropicState.read H) state =
      { tools := events.foldl (readTools H) state.tools
        inputTokens := events.foldl (fun n event ↦ event.inputReport.getD n) state.inputTokens
        outputTokens := events.foldl (fun n event ↦ event.outputReport.getD n) state.outputTokens
        stopReason := events.foldl (fun s event ↦ event.stopReport.or s) state.stopReason
        terminal := state.terminal || events.any fun event ↦ event.type = .messageStop } := by
  induction events generalizing state with
  | nil =>
    rw [List.any_nil, Bool.or_false]
    rfl
  | cons event events ih =>
    rw [List.foldl_cons, ih, List.any_cons, ← Bool.or_assoc]
    rfl

theorem foldl_or {α β : Type} (report : α → Option β) (l : List α) (b : Option β) :
    l.foldl (fun b a ↦ (report a).or b) b = (l.filterMap report).getLast?.or b := by
  induction l generalizing b with
  | nil => rfl
  | cons a l ih =>
    rw [List.foldl_cons, ih, List.filterMap_cons]
    rcases report a with _ | b'
    · rfl
    · rw [List.getLast?_cons, Option.some_or]
      rcases (l.filterMap report).getLast? with _ | last <;> rfl

/-- What a piece makes of the entry of its index. -/
def mergePiece (H : JsonTexts) (held : Option PendingCall) : ToolPiece → Option PendingCall
  | .start tool => some (startedTool H tool)
  | .partialJson text => held.map fun tool ↦ tool.write text

theorem foldl_write (texts : List JsString) (call : PendingCall) :
    (texts.map ToolPiece.partialJson).foldl (mergePiece H) (some call) =
      some (call.write texts.flatten) := by
  induction texts generalizing call with
  | nil =>
    rw [List.map_nil, List.foldl_nil, List.flatten_nil, PendingCall.write, List.append_nil]
  | cons text texts ih =>
    rw [List.map_cons, List.foldl_cons, mergePiece, Option.map_some, ih, List.flatten_cons,
      PendingCall.write, PendingCall.write, PendingCall.write, List.append_assoc]

/-- **What the loop leaves at an index**: what its pieces make. -/
theorem get?_foldl_readTools (hindex : ∀ event ∈ events, event.piece?.isSome → event.index.isSome)
    (k : ℤ) :
    (events.foldl (readTools H) .empty).get? k =
      (piecesAt k events).foldl (mergePiece H) none := by
  rw [piecesAt, List.filterMap_filter,
    OrderedMap.get?_foldl
      (fun k (event : AnthropicStreamEvent) ↦
        if event.index = some k then event.piece? else none)
      (mergePiece H)]
  · simp only [OrderedMap.get?_empty, decide_eq_true_eq]
  · intro event hevent m k
    have hsome := hindex event hevent
    rw [readTools]
    rcases hpiece : event.piece? with _ | piece
    · rw [ite_self]
      rfl
    · rw [hpiece] at hsome
      obtain ⟨i, hi⟩ := Option.isSome_iff_exists.mp (hsome rfl)
      rw [hi]
      by_cases hk : i = k
      · subst hk
        rw [if_pos rfl]
        rcases piece with tool | text
        · exact OrderedMap.get?_set_self _ _ _
        · simp only [Option.getD_some, Option.map_some]
          rcases hget : m.get? i with _ | tool
          · exact hget
          · exact OrderedMap.get?_set_self _ _ _
      · rw [if_neg fun h ↦ hk (Option.some.inj h)]
        rcases piece with tool | text
        · exact OrderedMap.get?_set_of_ne _ _ (Ne.symm hk)
        · simp only [Option.getD_some]
          rcases m.get? i with _ | tool
          · rfl
          · exact OrderedMap.get?_set_of_ne _ _ (Ne.symm hk)

/-! ## The tool blocks of a stream -/

/-- The tool blocks with their indices. -/
def placedTools (placed : List (ℤ × BodyBlock)) : List (ℤ × ToolUse) :=
  placed.filterMap fun block ↦ block.2.tool?.map (block.1, ·)

theorem mem_placedTools {k : ℤ} :
    (k, tool) ∈ placedTools placed ↔ (k, BodyBlock.toolUse tool) ∈ placed := by
  rw [placedTools, List.mem_filterMap]
  constructor
  · rintro ⟨⟨i, _ | tool'⟩, hmem, h⟩
    · exact absurd h nofun
    · obtain ⟨rfl, rfl⟩ := Prod.mk.inj (Option.some.inj h)
      exact hmem
  · intro hmem
    exact ⟨_, hmem, rfl⟩

theorem AnthropicDescribes.map_snd_placedTools (h : AnthropicDescribes H events placed message) :
    (placedTools placed).map Prod.snd = message.tools := by
  rw [AnthropicResponse.tools, ← h.content, List.filterMap_map, placedTools, List.map_filterMap]
  refine List.filterMap_congr fun block _ ↦ ?_
  rcases h : block.2.tool? with _ | tool
  · exact h.symm
  · exact h.symm

theorem AnthropicDescribes.pairwise_placedTools
    (h : AnthropicDescribes H events placed message) :
    (placedTools placed).Pairwise fun a b ↦ a.1 < b.1 := by
  rw [placedTools, List.pairwise_filterMap]
  refine h.ordered.imp fun {a b} hlt x hx y hy ↦ ?_
  obtain ⟨-, -, rfl⟩ := Option.map_eq_some_iff.mp hx
  obtain ⟨-, -, rfl⟩ := Option.map_eq_some_iff.mp hy
  exact hlt

/-- The entry that the stream leaves of a tool block. -/
def Kept (H : JsonTexts) (tool : ToolUse) (call : PendingCall) : Prop :=
  call.id = tool.id.getD [] ∧ call.name = tool.name.getD [] ∧
    if call.arguments = [] then tool.input.getD [] = []
    else Reads H call.arguments (tool.input.getD [])

/-- Pieces that describe a tool block leave it, where a text that is written is read back. -/
theorem PiecesDescribe.kept {pieces : List ToolPiece} (h : PiecesDescribe H pieces tool)
    (hback : ∀ input, tool.input = some input → Reads H (H.stringify input) input) :
    ∃ call, pieces.foldl (mergePiece H) none = some call ∧ Kept H tool call := by
  obtain ⟨sent, texts, rfl, hid, hname, hinput⟩ := h
  refine ⟨(startedTool H sent).write texts.flatten, foldl_write texts _, hid, hname, ?_⟩
  rw [PendingCall.write, startedTool]
  dsimp only
  rcases hinput with ⟨hsame, hne, htexts⟩ | ⟨hempty, htexts⟩
  · obtain ⟨input, hinput⟩ : ∃ input, sent.input = some input := by
      rcases hsent : sent.input with _ | input
      · exact absurd (by rw [hsent]; rfl) hne
      · exact ⟨input, rfl⟩
    have hread := hback input (hsame.symm.trans hinput)
    rw [hinput, Option.getD_some] at hne
    have hstart : (if input.isEmpty then [] else H.stringify input) = H.stringify input :=
      if_neg (by rwa [List.isEmpty_iff])
    have htext : H.stringify input ≠ [] := List.cons_ne_nil _ _
    rw [htexts, List.append_nil, hinput, Option.getD_some, hstart, if_neg htext, ← hsame, hinput]
    exact hread
  · rw [hempty]
    exact htexts

/-- **The entries at the end of the stream** are those of the tool blocks, in their order. -/
theorem AnthropicDescribes.kept (h : AnthropicDescribes H events placed message)
    (hback : ∀ tool ∈ message.tools, ∀ input, tool.input = some input →
      Reads H (H.stringify input) input) :
    List.Forall₂ (Kept H) message.tools
      ((events.foldl (readTools H) .empty).byKey.map Prod.snd) := by
  have hindex : ∀ event ∈ events, event.piece?.isSome → event.index.isSome := by
    intro event hevent hpiece
    obtain ⟨k, -, -, hk⟩ := h.places event hevent hpiece
    rw [hk]
    rfl
  have hget := get?_foldl_readTools (H := H) hindex
  generalize events.foldl (readTools H) .empty = left at hget ⊢
  have hkept : ∀ t ∈ placedTools placed, ∃ call, left.get? t.1 = some call ∧ Kept H t.2 call := by
    rintro ⟨k, tool⟩ hmem
    rw [hget]
    refine (h.tools k tool (mem_placedTools.mp hmem)).kept (hback tool ?_)
    rw [← h.map_snd_placedTools]
    exact List.mem_map_of_mem hmem
  have hrows : left.byKey =
      (placedTools placed).map fun t ↦ (t.1, (left.get? t.1).getD {}) := by
    refine OrderedMap.byKey_eq (List.pairwise_map.mpr h.pairwise_placedTools) fun k call ↦ ?_
    rw [List.mem_map]
    constructor
    · intro hcall
      -- An entry comes of a piece, whose place is that of a tool block.
      have hpieces : piecesAt k events ≠ [] := by
        intro hnil
        rw [hget, hnil] at hcall
        exact absurd hcall nofun
      obtain ⟨piece, hpiece⟩ := List.exists_mem_of_ne_nil _ hpieces
      obtain ⟨event, hevent, hsome⟩ := List.mem_filterMap.mp hpiece
      obtain ⟨hmem, hat⟩ := List.mem_filter.mp hevent
      obtain ⟨k', tool, htool, hk'⟩ := h.places event hmem (by rw [hsome]; rfl)
      obtain rfl := Option.some.inj (hk'.symm.trans (of_decide_eq_true hat))
      exact ⟨(k', tool), mem_placedTools.mpr htool, by rw [hcall]; rfl⟩
    · rintro ⟨t, ht, heq⟩
      obtain ⟨rfl, rfl⟩ := Prod.mk.inj heq
      obtain ⟨call, hcall, -⟩ := hkept t ht
      rw [hcall]
      rfl
  rw [hrows, List.map_map, ← h.map_snd_placedTools, List.forall₂_map_left_iff,
    List.forall₂_map_right_iff, List.forall₂_same]
  intro t ht
  obtain ⟨call, hcall, hk⟩ := hkept t ht
  show Kept H t.2 ((left.get? t.1).getD {})
  rw [hcall]
  exact hk

/-! ## The calls -/

/-- The entry of a complete tool block is yielded as its call. -/
theorem exists_anthropicCall {call : PendingCall} (hkept : Kept H tool call)
    (htool : tool.Complete) :
    ∃ received, anthropicCall H call = .ok received ∧ SameCall received tool.call := by
  obtain ⟨hid, hname, hinput⟩ := hkept
  rw [anthropicCall, hid, hname, if_neg (not_or.mpr htool)]
  by_cases hempty : call.arguments = []
  · rw [if_pos hempty] at hinput ⊢
    rw [H.parse_braces]
    refine ⟨_, rfl, rfl, rfl, ?_⟩
    show SameJson (.object []) (.object (tool.input.getD []))
    rw [hinput]
    exact .object .nil .nil
  · rw [if_neg hempty] at hinput ⊢
    obtain ⟨value, hvalue, hsame⟩ := hinput
    rw [hvalue]
    exact ⟨_, rfl, rfl, rfl, hsame⟩

theorem complete_of_anthropicCall {call : PendingCall} {received : ReceivedCall}
    (hkept : Kept H tool call) (h : anthropicCall H call = .ok received) : tool.Complete := by
  rw [anthropicCall] at h
  split at h
  · exact absurd h nofun
  · rename_i hwhole
    rw [hkept.1, hkept.2.1] at hwhole
    exact not_or.mp hwhole

/-- The calls are read where all tool blocks are complete. -/
theorem exists_mapM_anthropicCall {tools : List ToolUse} {calls : List PendingCall}
    (hkept : List.Forall₂ (Kept H) tools calls) (h : ∀ tool ∈ tools, tool.Complete) :
    ∃ received, calls.mapM (anthropicCall H) = .ok received ∧
      List.Forall₂ SameCall received (tools.map ToolUse.call) := by
  induction hkept with
  | nil => exact ⟨[], rfl, .nil⟩
  | cons hhead _ ih =>
    obtain ⟨htool, htools⟩ := List.forall_mem_cons.mp h
    obtain ⟨r, hr, hsame⟩ := exists_anthropicCall hhead htool
    obtain ⟨received, hreceived, hall⟩ := ih htools
    refine ⟨r :: received, ?_, .cons hsame hall⟩
    rw [List.mapM_cons, hr, hreceived]
    rfl

theorem complete_of_mapM {tools : List ToolUse} {calls : List PendingCall}
    {received : List ReceivedCall} (hkept : List.Forall₂ (Kept H) tools calls)
    (h : calls.mapM (anthropicCall H) = .ok received) : ∀ tool ∈ tools, tool.Complete := by
  have hread := exists_of_mapM_eq_ok h
  clear h
  induction hkept with
  | nil => exact nofun
  | cons hhead _ ih =>
    obtain ⟨⟨r, -, hr⟩, hcalls⟩ := List.forall_mem_cons.mp hread
    exact List.forall_mem_cons.mpr ⟨complete_of_anthropicCall hhead hr, ih hcalls⟩

/-! ## The outcomes -/

/-- **The outcome of the stream.** -/
theorem AnthropicDescribes.outcome_stream (h : AnthropicDescribes H events placed message)
    (hback : ∀ tool ∈ message.tools, ∀ input, tool.input = some input →
      Reads H (H.stringify input) input) :
    outcome (streamAnthropic H {} (events.map some)) =
      answerWith (message.content.map BodyBlock.textOf).flatten
        [AnthropicUsage.event ⟨(message.usage.map AnthropicUsage.inputTokens).getD (.finite 0),
          (message.usage.map AnthropicUsage.outputTokens).getD (.finite 0)⟩]
        (if message.tools ≠ [] ∨ message.stopReason = some (js "tool_use") then .toolCalls
        else .stop)
        (((events.foldl (readTools H) .empty).byKey.map Prod.snd).mapM (anthropicCall H)) := by
  have hsize : 0 < (events.foldl (readTools H) .empty).size ↔ message.tools ≠ [] := by
    have hlength := (h.kept hback).length_eq
    rw [List.length_map, OrderedMap.length_byKey] at hlength
    rw [← hlength, List.length_pos_iff]
  have hstopped : (events.any fun event ↦ event.type = .messageStop) = true := by
    obtain ⟨event, hmem, hstop⟩ := h.stopped
    exact List.any_eq_true.mpr ⟨event, hmem, decide_eq_true hstop⟩
  have htext : Answer.of ((events.map AnthropicStreamEvent.text).flatMap textEvents) =
      ⟨(message.content.map BodyBlock.textOf).flatten, [], [], []⟩ := by
    rw [Answer.of_flatMap_textEvents, h.text]
  rw [streamAnthropic_events h.errors, foldl_read, finishAnthropic, foldl_getD, foldl_getD,
    foldl_or, h.inputTokens, h.outputTokens, h.stopReason, Option.or_none, hstopped]
  simp only [Bool.or_true, not_true_eq_false, if_false, hsize]
  exact outcome_emitCalls htext rfl

/-- **The outcome of the body.** -/
theorem outcome_anthropicBody :
    outcome (decodeAnthropicBody message) =
      .ok ⟨(message.content.map BodyBlock.textOf).flatten,
        (message.tools.filter fun tool ↦ tool.Complete).map ToolUse.call,
        message.usage.toList.map AnthropicUsage.event,
        [if message.stopReason = some (js "tool_use") then .toolCalls else .stop]⟩ := by
  have hblocks : Answer.of (message.content.flatMap BodyBlock.events) =
      ⟨(message.content.map BodyBlock.textOf).flatten,
        (message.tools.filter fun tool ↦ tool.Complete).map ToolUse.call, [], []⟩ := by
    rw [AnthropicResponse.tools]
    induction message.content with
    | nil => rfl
    | cons block blocks ih =>
      rw [List.flatMap_cons, Answer.of_append, ih]
      rcases block with content | tool
      · rw [BodyBlock.events, Answer.of_textEvents]
        rfl
      · rw [BodyBlock.events, List.filterMap_cons]
        dsimp only [BodyBlock.tool?]
        rw [List.filter_cons]
        by_cases htool : tool.Complete
        · rw [if_pos htool, if_pos (decide_eq_true htool)]
          rfl
        · rw [if_neg htool, if_neg (by rwa [decide_eq_true_eq])]
          rfl
  show Except.ok (Answer.of (_ ++ (_ ++ _))) = _
  rw [Answer.of_append, Answer.of_append, hblocks, Answer.of_map_usage, Answer.of_completed]
  simp only [Answer.append, List.append_nil, List.nil_append]

/-! ## The agreement -/

/-- **The decoders agree** exactly where the message is reported whole. -/
theorem AnthropicDescribes.sameOutcome_iff (h : AnthropicDescribes H events placed message)
    (hback : ∀ tool ∈ message.tools, ∀ input, tool.input = some input →
      Reads H (H.stringify input) input) :
    SameOutcome (outcome (streamAnthropic H {} (events.map some)))
        (outcome (decodeAnthropicBody message)) ↔ Reported message := by
  have hkept := h.kept hback
  rw [h.outcome_stream hback, outcome_anthropicBody]
  constructor
  · intro hsame
    rcases hread : ((events.foldl (readTools H) .empty).byKey.map Prod.snd).mapM
      (anthropicCall H) with e | received
    · rw [hread] at hsame
      exact hsame.elim
    · rw [hread] at hsame
      obtain ⟨-, -, husage, hfinish⟩ := hsame
      refine ⟨?_, complete_of_mapM hkept hread, fun htools ↦ ?_⟩
      · -- The stream reports a usage in any case.
        by_contra hnone
        rw [Option.not_isSome_iff_eq_none] at hnone
        dsimp only at husage
        rw [hnone] at husage
        exact absurd husage (List.cons_ne_nil _ _)
      · by_contra hstop
        dsimp only at hfinish
        rw [if_pos (.inl htools), if_neg hstop] at hfinish
        exact absurd hfinish (by decide)
  · rintro ⟨husage, hcomplete, hstop⟩
    obtain ⟨received, hread, hall⟩ := exists_mapM_anthropicCall hkept hcomplete
    obtain ⟨report, hreport⟩ := Option.isSome_iff_exists.mp husage
    rw [hread]
    refine ⟨rfl, ?_, by rw [hreport]; rfl, ?_⟩
    · rwa [List.filter_eq_self.mpr fun tool htool ↦ decide_eq_true (hcomplete tool htool)]
    · dsimp only
      congr 2
      exact propext (or_iff_right_of_imp hstop)

/-- The reference numbers, with the reader that knows the empty object. -/
def bracesTexts : JsonTexts where
  toNumberLiterals := referencePlatform.toNumberLiterals
  toJsonReader := bracesReader

/-- A text and a call without arguments. -/
def clockMessage : AnthropicResponse where
  content := [.text (some (js "Let me see.")),
    .toolUse { id := some (js "t1"), name := some (js "clock.now"), input := some [] }]
  stopReason := some (js "tool_use")
  usage := some ⟨.finite 20, .finite 7⟩

/-- Its stream. -/
def clockEvents : List AnthropicStreamEvent :=
  [{ type := .messageStart, inputTokens := some (.finite 20) },
    { type := .contentBlockDelta, index := some 0,
      delta := some { type := .textDelta, text := some (js "Let me ") } },
    { type := .contentBlockDelta, index := some 0,
      delta := some { type := .textDelta, text := some (js "see.") } },
    { type := .contentBlockStart, index := some 1,
      contentBlock := some {
        id := some (js "t1"), name := some (js "clock.now"), input := some [] } },
    { type := .messageDelta, delta := some { stopReason := some (js "tool_use") },
      outputTokens := some (.finite 7) },
    { type := .messageStop }]

theorem describes_clockEvents : AnthropicDescribes bracesTexts clockEvents
    [(0, .text (some (js "Let me see."))),
      (1, .toolUse { id := some (js "t1"), name := some (js "clock.now"), input := some [] })]
    clockMessage where
  content := rfl
  ordered := by decide
  errors := by decide
  stopped := ⟨_, List.mem_of_getElem? (i := 5) rfl, rfl⟩
  text := by decide
  tools k tool hmem := by
    rcases hmem with _ | ⟨_, _ | ⟨_, hmem⟩⟩
    · exact ⟨_, [], rfl, rfl, rfl, .inr ⟨rfl, rfl⟩⟩
    · exact absurd hmem List.not_mem_nil
  places event hmem hpiece := by
    have hevent : event.index = some 1 := by
      revert hpiece
      revert event
      decide
    exact ⟨1, _, .tail _ (.head _), hevent⟩
  inputTokens := rfl
  outputTokens := rfl
  stopReason := rfl

theorem sameOutcome_clock :
    SameOutcome (outcome (streamAnthropic bracesTexts {} (clockEvents.map some)))
      (outcome (decodeAnthropicBody clockMessage)) :=
  (describes_clockEvents.sameOutcome_iff (by
    intro tool htool input hinput
    rcases htool with _ | ⟨_, htool⟩
    · obtain rfl := Option.some.inj hinput
      exact ⟨_, rfl, .object .nil .nil⟩
    · exact absurd htool List.not_mem_nil)).mpr ⟨rfl, by decide, fun _ ↦ rfl⟩

/-- A message whose usage is not reported gets one of zero tokens from the stream. -/
theorem missing_usage_disagrees :
    ¬ ∀ (H : JsonTexts) (events : List AnthropicStreamEvent) (placed : List (ℤ × BodyBlock))
      (message : AnthropicResponse), AnthropicDescribes H events placed message →
        (∀ tool ∈ message.tools, ∀ input, tool.input = some input →
          Reads H (H.stringify input) input) →
        SameOutcome (outcome (streamAnthropic H {} (events.map some)))
          (outcome (decodeAnthropicBody message)) := by
  intro h
  have hsame := h bracesTexts
    [{ type := .contentBlockDelta, index := some 0,
       delta := some { type := .textDelta, text := some (js "Hi") } },
      { type := .messageStop }]
    [(0, .text (some (js "Hi")))] { content := [.text (some (js "Hi"))] }
    { content := rfl
      ordered := by decide
      errors := by decide
      stopped := ⟨_, .tail _ (.head _), rfl⟩
      text := by decide
      tools := fun k tool hmem ↦ absurd (List.mem_singleton.mp hmem) nofun
      places := by
        intro event hmem hpiece
        rcases List.mem_cons.mp hmem with rfl | hmem
        · exact absurd hpiece (by decide)
        · rw [List.mem_singleton.mp hmem] at hpiece
          exact absurd hpiece (by decide)
      inputTokens := rfl
      outputTokens := rfl
      stopReason := rfl } nofun
  exact absurd hsame.2.2.1 (List.cons_ne_nil _ _)

end LiteHarness.Provider
