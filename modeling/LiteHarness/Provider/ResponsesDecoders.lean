import LiteHarness.Provider.Responses
import Mathlib.Data.List.Induction

/-!
# The decoders of a response

The loop of the stream leaves at each index what the pieces of the index make. Merging the output of
the completed response changes nothing in a stream that describes it, so that both decoders end with
the same calls.
-/

namespace LiteHarness.Provider

open Foundation

variable {J : JsonReader} {before : List OpenAIResponseStreamEvent}
  {last event : OpenAIResponseStreamEvent} {body : OpenAIResponsesBody}
  {item : OpenAIResponseOutputItem}

/-! ## Merging -/

theorem get?_mergeCall (calls : OrderedMap ℤ PendingResponseCall) (index k : ℤ)
    (piece : CallPiece) :
    (mergeCall calls index piece).get? k =
      if index = k then some (((calls.get? k).getD {}).merge piece) else calls.get? k := by
  rw [mergeCall, OrderedMap.get?_set]
  split
  · rename_i h
    rw [h]
  · rfl

/-- What a piece makes of the call of its index. -/
def mergeHeld (held : Option PendingResponseCall) (piece : CallPiece) :
    Option PendingResponseCall := some ((held.getD {}).merge piece)

/-- **What the loop leaves at an index**: what its pieces make. -/
theorem get?_foldl_mergeEvent (events : List OpenAIResponseStreamEvent)
    (calls : OrderedMap ℤ PendingResponseCall) (k : ℤ) :
    (events.foldl mergeEvent calls).get? k =
      (callPiecesAt k events).foldl mergeHeld (calls.get? k) := by
  rw [callPiecesAt, List.filterMap_filter,
    OrderedMap.get?_foldl
      (fun k (event : OpenAIResponseStreamEvent) ↦
        if event.outputIndex.getD 0 = k then event.piece? else none)
      mergeHeld]
  · simp only [decide_eq_true_eq]
  · intro event _ m k
    rw [mergeEvent]
    rcases event.piece? with _ | piece
    · rw [ite_self]
      rfl
    · dsimp only
      rw [get?_mergeCall]
      split <;> rfl

/-- The function call of an output at an index. -/
def callItem? (output : List OpenAIResponseOutputItem) (k : ℤ) : Option OpenAIResponseOutputItem :=
  if 0 ≤ k then (output[k.toNat]?).filter fun item ↦ item.type = .functionCall else none

/-- What the merge of an output leaves at an index. -/
theorem get?_mergeResponseOutput (calls : OrderedMap ℤ PendingResponseCall)
    (output : List OpenAIResponseOutputItem) (k : ℤ) :
    (mergeResponseOutput calls output).get? k =
      ((callItem? output k).map fun item ↦
        ((calls.get? k).getD {}).merge item.piece).or (calls.get? k) := by
  induction output using List.reverseRecOn with
  | nil =>
    rw [callItem?, List.getElem?_nil, Option.filter_none, ite_self]
    rfl
  | append_singleton output item ih =>
    rw [mergeResponseOutput, List.zipIdx_append, List.foldl_append, ← mergeResponseOutput]
    show (if item.type = .functionCall
      then mergeCall (mergeResponseOutput calls output) (0 + output.length : ℕ) item.piece
      else mergeResponseOutput calls output).get? k = _
    rw [Nat.zero_add]
    by_cases hk : (output.length : ℤ) = k
    · -- The item at the end is the first that concerns the index.
      have hnone : callItem? output k = none := by
        rw [callItem?, ← hk, Int.toNat_natCast, List.getElem?_eq_none le_rfl, Option.filter_none,
          ite_self]
      have hitem : callItem? (output ++ [item]) k =
          if item.type = .functionCall then some item else none := by
        rw [callItem?, ← hk, if_pos (Int.natCast_nonneg _), Int.toNat_natCast,
          List.getElem?_concat_length, Option.filter_some]
        simp only [decide_eq_true_eq]
      rw [hnone] at ih
      rw [hitem]
      by_cases htype : item.type = .functionCall
      · rw [if_pos htype, if_pos htype, get?_mergeCall, if_pos hk, ih]
        rfl
      · rw [if_neg htype, if_neg htype, ih]
    · have hitem : callItem? (output ++ [item]) k = callItem? output k := by
        rw [callItem?, callItem?]
        by_cases hneg : 0 ≤ k
        · rw [if_pos hneg, if_pos hneg]
          congr 1
          rcases lt_or_ge k.toNat output.length with hlt | hge
          · exact List.getElem?_append_left hlt
          · rw [List.getElem?_eq_none hge, List.getElem?_eq_none]
            rw [List.length_append, List.length_singleton]
            omega
        · rw [if_neg hneg, if_neg hneg]
      rw [hitem, ← ih]
      by_cases htype : item.type = .functionCall
      · rw [if_pos htype, get?_mergeCall, if_neg hk]
      · rw [if_neg htype]

/-! ## The calls of a stream -/

/-- A function call of the output, as it is merged into nothing. -/
def OpenAIResponseOutputItem.pending (item : OpenAIResponseOutputItem) : PendingResponseCall :=
  ⟨item.callId, item.name, item.arguments.getD []⟩

/-- An item that is merged into its own call leaves it as it is. -/
theorem merge_piece_pending : item.pending.merge item.piece = item.pending := by
  rw [OpenAIResponseOutputItem.pending, OpenAIResponseOutputItem.piece,
    PendingResponseCall.merge, Option.or_self, Option.or_self]
  rcases item.arguments with _ | arguments <;> rfl

theorem merge_piece_empty :
    PendingResponseCall.merge {} item.piece = item.pending := by
  rw [OpenAIResponseOutputItem.piece, PendingResponseCall.merge, Option.or_none, Option.or_none]
  rfl

theorem foldl_delta (texts : List JsString) (call : PendingResponseCall) :
    (texts.map CallPiece.delta).foldl PendingResponseCall.merge call =
      { call with arguments := call.arguments ++ texts.flatten } := by
  induction texts generalizing call with
  | nil => rw [List.map_nil, List.foldl_nil, List.flatten_nil, List.append_nil]
  | cons text texts ih =>
    rw [List.map_cons, List.foldl_cons, ih, PendingResponseCall.merge, List.flatten_cons,
      List.append_assoc]

/-- Whole fields behind the deltas: the arguments are there already, or are among the fields. -/
theorem foldl_wholes {wholes : List CallPiece} (hwholes : ∀ whole ∈ wholes, whole.Whole item)
    {arguments : JsString}
    (harguments : arguments = item.arguments.getD [] ∨
      ∃ callId name, CallPiece.fields callId name (some (item.arguments.getD [])) ∈ wholes) :
    wholes.foldl PendingResponseCall.merge ⟨item.callId, item.name, arguments⟩ = item.pending := by
  induction wholes generalizing arguments with
  | nil =>
    rcases harguments with rfl | ⟨callId, name, hmem⟩
    · rfl
    · exact absurd hmem List.not_mem_nil
  | cons whole wholes ih =>
    obtain ⟨hwhole, hrest⟩ := List.forall_mem_cons.mp hwholes
    rcases whole with ⟨callId, name, sent⟩ | text
    · obtain ⟨hid, hname, hsent⟩ := hwhole
      have hid' : callId.or item.callId = item.callId := by
        rcases hid with rfl | rfl
        · exact Option.none_or
        · exact Option.or_self
      have hname' : name.or item.name = item.name := by
        rcases hname with rfl | rfl
        · exact Option.none_or
        · exact Option.or_self
      rw [List.foldl_cons, PendingResponseCall.merge]
      dsimp only
      rw [hid', hname']
      refine ih hrest ?_
      rcases hsent with rfl | rfl
      · rcases harguments with rfl | ⟨callId', name', hmem⟩
        · exact .inl rfl
        · rcases List.mem_cons.mp hmem with heq | hmem
          · exact absurd (CallPiece.fields.inj heq).2.2 nofun
          · exact .inr ⟨callId', name', hmem⟩
      · exact .inl rfl
    · exact hwhole.elim

theorem foldl_mergeHeld (pieces : List CallPiece) (call : PendingResponseCall) :
    pieces.foldl mergeHeld (some call) = some (pieces.foldl PendingResponseCall.merge call) := by
  induction pieces generalizing call with
  | nil => rfl
  | cons piece pieces ih => exact ih _

/-- **Pieces that send a function call leave it.** -/
theorem PiecesSend.foldl {pieces : List CallPiece} (h : PiecesSend pieces item) :
    pieces.foldl mergeHeld none = some item.pending := by
  obtain ⟨start, texts, wholes, rfl, hstart, hwholes, harguments⟩ := h
  have hbegun : PendingResponseCall.merge {} (.fields item.callId item.name start) =
      ⟨item.callId, item.name, []⟩ := by
    rw [PendingResponseCall.merge, Option.or_none, Option.or_none]
    congr 1
  rw [List.foldl_cons, mergeHeld, Option.getD_none, hbegun, foldl_mergeHeld, List.foldl_append,
    foldl_delta, List.nil_append]
  refine congrArg some (foldl_wholes hwholes ?_)
  rcases harguments with heq | ⟨-, hmem⟩
  · exact .inl heq
  · exact .inr hmem

theorem callItem?_eq_some {output : List OpenAIResponseOutputItem} {k : ℤ}
    (h : callItem? output k = some item) :
    ∃ i : ℕ, k = i ∧ output[i]? = some item ∧ item.type = .functionCall := by
  rw [callItem?] at h
  split at h
  · rename_i hk
    obtain ⟨hitem, htype⟩ := Option.filter_eq_some_iff.mp h
    exact ⟨k.toNat, (Int.toNat_of_nonneg hk).symm, hitem, of_decide_eq_true htype⟩
  · exact absurd h nofun

theorem callItem?_of_getElem? {output : List OpenAIResponseOutputItem} {i : ℕ}
    (h : output[i]? = some item) (htype : item.type = .functionCall) :
    callItem? output i = some item := by
  rw [callItem?, if_pos (Int.natCast_nonneg _), Int.toNat_natCast, h, Option.filter_some,
    if_pos (decide_eq_true htype)]

/-- What is held of a call says nothing but what its item does. -/
def PendingResponseCall.Within (item : OpenAIResponseOutputItem) (call : PendingResponseCall) :
    Prop :=
  (call.callId = none ∨ call.callId = item.callId) ∧ (call.name = none ∨ call.name = item.name) ∧
    (item.arguments = none → call.arguments = [])

theorem PendingResponseCall.Within.merge {call : PendingResponseCall} {piece : CallPiece}
    (hcall : call.Within item) (hpiece : piece.Within item) : (call.merge piece).Within item := by
  obtain ⟨hid, hname, harguments⟩ := hcall
  rcases piece with ⟨callId, name, arguments⟩ | text
  · obtain ⟨hid', hname', harguments'⟩ := hpiece
    refine ⟨?_, ?_, fun hnone ↦ ?_⟩
    · rcases callId with _ | id
      · exact hid
      · exact .inr (hid'.resolve_left nofun)
    · rcases name with _ | name
      · exact hname
      · exact .inr (hname'.resolve_left nofun)
    · rcases arguments with _ | arguments
      · exact harguments hnone
      · exact harguments' hnone
  · refine ⟨hid, hname, fun hnone ↦ ?_⟩
    show call.arguments ++ text = []
    rw [harguments hnone, hpiece hnone, List.append_nil]

theorem foldl_within {pieces : List CallPiece} (hpieces : ∀ piece ∈ pieces, piece.Within item)
    (held : Option PendingResponseCall) (hheld : (held.getD {}).Within item) :
    ((pieces.foldl mergeHeld held).getD {}).Within item := by
  induction pieces generalizing held with
  | nil => exact hheld
  | cons piece pieces ih =>
    obtain ⟨hpiece, hrest⟩ := List.forall_mem_cons.mp hpieces
    exact ih hrest _ (hheld.merge hpiece)

/-- The item completes what is held of its call. -/
theorem PendingResponseCall.Within.merge_piece {call : PendingResponseCall}
    (h : call.Within item) : call.merge item.piece = item.pending := by
  obtain ⟨hid, hname, harguments⟩ := h
  have hid' : item.callId.or call.callId = item.callId := by
    rcases hid with hid | hid
    · rw [hid, Option.or_none]
    · rw [hid, Option.or_self]
  have hname' : item.name.or call.name = item.name := by
    rcases hname with hname | hname
    · rw [hname, Option.or_none]
    · rw [hname, Option.or_self]
  rw [OpenAIResponseOutputItem.piece, PendingResponseCall.merge, hid', hname',
    OpenAIResponseOutputItem.pending]
  rcases hitem : item.arguments with _ | arguments
  · rw [Option.getD_none, Option.getD_none, harguments hitem]
  · rfl

/-- An index without a function call is sent no piece. -/
theorem ResponsesDescribe.callPiecesAt_eq_nil (h : ResponsesDescribe before last body) {k : ℤ}
    (hitem : callItem? body.output k = none) : callPiecesAt k before = [] := by
  rw [callPiecesAt, List.filterMap_eq_nil_iff]
  intro event hevent
  by_contra hsome
  obtain ⟨hmem, hk⟩ := List.mem_filter.mp hevent
  obtain ⟨i, item, hi, htype, hindex⟩ :=
    h.places event hmem (Option.isSome_iff_ne_none.mpr hsome)
  obtain rfl := (of_decide_eq_true hk).symm.trans hindex
  rw [callItem?_of_getElem? hi htype] at hitem
  exact absurd hitem nofun

/-- **Both decoders get the same at every index**: the output of the completed response adds what
was not sent, and changes nothing else. -/
theorem ResponsesDescribe.get?_merged (h : ResponsesDescribe before last body)
    {output : List OpenAIResponseOutputItem} (houtput : output = body.output ∨ output = [])
    (hsent : last.response.map OpenAIResponsesBody.output = some output) (k : ℤ) :
    (mergeResponseOutput (before.foldl mergeEvent .empty) output).get? k =
      (mergeResponseOutput .empty body.output).get? k := by
  have hempty : ∀ k, callItem? [] k = none := by
    intro k
    rw [callItem?, List.getElem?_nil, Option.filter_none, ite_self]
  rw [get?_mergeResponseOutput, get?_mergeResponseOutput, get?_foldl_mergeEvent,
    OrderedMap.get?_empty]
  rcases hitem : callItem? body.output k with _ | item
  · rw [h.callPiecesAt_eq_nil hitem]
    rcases houtput with rfl | rfl
    · rw [hitem]
      rfl
    · rw [hempty]
      rfl
  · have hbody : (some item).map (fun item ↦
        (Option.getD none ({} : PendingResponseCall)).merge item.piece) = some item.pending :=
      congrArg some merge_piece_empty
    rw [hbody]
    obtain ⟨i, rfl, hi, htype⟩ := callItem?_eq_some hitem
    rcases h.calls i item hi htype with hpieces | ⟨hcarried, hwithin⟩
    · rw [hpieces.foldl]
      rcases houtput with rfl | rfl
      · rw [hitem, Option.map_some, Option.getD_some, merge_piece_pending]
        rfl
      · rw [hempty]
        rfl
    · obtain rfl := Option.some.inj (hsent.symm.trans hcarried)
      have hheld := foldl_within hwithin none ⟨.inl rfl, .inl rfl, fun _ ↦ rfl⟩
      rw [hitem, Option.map_some, hheld.merge_piece]
      rfl

/-! ## The stream -/

/-- The end of both decoders depends on what the calls get. -/
theorem finishResponse_congr {calls calls' : OrderedMap ℤ PendingResponseCall}
    (h : ∀ k, calls.get? k = calls'.get? k) (usage : Option ResponsesUsage) :
    finishResponse J calls usage = finishResponse J calls' usage := by
  have hkeys := OrderedMap.byKey_congr h
  rw [finishResponse, finishResponse, emitResponseCalls, emitResponseCalls, hkeys,
    ← OrderedMap.length_byKey calls, ← OrderedMap.length_byKey calls', hkeys]

/-- An ongoing event yields its text and merges its piece. -/
theorem react_of_ongoing {state : ResponsesState} {type : ResponsesEventType}
    (hongoing : event.Ongoing) (htype : event.type = some type) :
    state.react J event type =
      (.yields (textEvents event.said), { state with calls := mergeEvent state.calls event }) := by
  obtain ⟨type', htype', hkind⟩ := hongoing
  obtain rfl := Option.some.inj (htype.symm.trans htype')
  have hsaid : event.said =
      if some type = some .outputTextDelta ∨ some type = some .refusalDelta then event.delta.getD []
      else [] := by
    rw [OpenAIResponseStreamEvent.said, htype]
  have hpiece : event.piece? = none → mergeEvent state.calls event = state.calls := by
    intro hnone
    rw [mergeEvent, hnone]
  rw [hsaid]
  rcases type with _ | _ | _ | _ | _ | _ | _ | _ | _ | _ | _
  · obtain ⟨delta, hdelta⟩ := Option.isSome_iff_exists.mp hkind
    rw [ResponsesState.react, hdelta, hpiece (by rw [OpenAIResponseStreamEvent.piece?, htype])]
    rfl
  · obtain ⟨delta, hdelta⟩ := Option.isSome_iff_exists.mp hkind
    rw [ResponsesState.react, hdelta, hpiece (by rw [OpenAIResponseStreamEvent.piece?, htype])]
    rfl
  · rfl
  · rfl
  · rfl
  · rfl
  · exact hkind.elim
  · exact hkind.elim
  · exact hkind.elim
  · exact hkind.elim
  · rw [ResponsesState.react, hpiece (by rw [OpenAIResponseStreamEvent.piece?, htype])]
    rfl

/-- The sequence numbers of a stream go up, so that none is refused. -/
theorem sequence_of_isChain (state : ResponsesState) {numbers : List ℤ}
    {rest : List OpenAIResponseStreamEvent}
    (hnumbers : ((event :: rest).filterMap OpenAIResponseStreamEvent.sequenceNumber).map
      safeInteger = numbers.map some)
    (hchain : (state.lastSequence :: numbers).IsChain (· < ·)) :
    ∃ k numbers', state.sequence event = .ok { state with lastSequence := k } ∧
      (rest.filterMap OpenAIResponseStreamEvent.sequenceNumber).map safeInteger =
        numbers'.map some ∧ (k :: numbers').IsChain (· < ·) := by
  rw [ResponsesState.sequence]
  rw [List.filterMap_cons] at hnumbers
  rcases hnumber : event.sequenceNumber with _ | n
  · rw [hnumber] at hnumbers
    exact ⟨state.lastSequence, numbers, rfl, hnumbers, hchain⟩
  · rw [hnumber] at hnumbers
    rcases numbers with _ | ⟨k, numbers'⟩
    · exact absurd hnumbers nofun
    · obtain ⟨hn, hrest⟩ := List.cons.inj hnumbers
      have hlt : state.lastSequence < k := (List.isChain_cons_cons.mp hchain).1
      refine ⟨k, numbers', ?_, hrest, (List.isChain_cons_cons.mp hchain).2⟩
      dsimp only
      rw [hn]
      dsimp only
      rw [if_neg (not_le.mpr hlt)]

/-- **The events before the last** yield their texts and leave the calls that they merge. -/
theorem streamOpenAiResponses_ongoing (state : ResponsesState) {numbers : List ℤ}
    (hongoing : ∀ event ∈ before, event.Ongoing)
    (hnumbers : ((before ++ [last]).filterMap OpenAIResponseStreamEvent.sequenceNumber).map
      safeInteger = numbers.map some)
    (hchain : (state.lastSequence :: numbers).IsChain (· < ·)) :
    ∃ k numbers', streamOpenAiResponses J state ((before ++ [last]).map some) =
        (Generated.yields ((before.map OpenAIResponseStreamEvent.said).flatMap textEvents)).andThen
          (streamOpenAiResponses J
            { state with calls := before.foldl mergeEvent state.calls, lastSequence := k }
            [some last]) ∧
      ([last].filterMap OpenAIResponseStreamEvent.sequenceNumber).map safeInteger =
        numbers'.map some ∧ (k :: numbers').IsChain (· < ·) := by
  induction before generalizing state numbers with
  | nil => exact ⟨state.lastSequence, numbers, rfl, hnumbers, hchain⟩
  | cons event before ih =>
    obtain ⟨hevent, hbefore⟩ := List.forall_mem_cons.mp hongoing
    obtain ⟨type, htype, -⟩ := id hevent
    obtain ⟨k, numbers', hsequence, hrest, hchain'⟩ := sequence_of_isChain state hnumbers hchain
    obtain ⟨k', numbers'', hstream, hlast⟩ :=
      ih { state with calls := mergeEvent state.calls event, lastSequence := k } hbefore hrest
        hchain'
    refine ⟨k', numbers'', ?_, hlast⟩
    rw [List.cons_append, List.map_cons, streamOpenAiResponses, htype]
    dsimp only
    rw [hsequence]
    dsimp only
    rw [react_of_ongoing hevent htype, hstream, ← Generated.andThen_assoc]
    rfl

/-! ## The agreement -/

theorem exists_error_andThen_throws (usage : Option ResponsesUsage) (e : ProviderError) :
    ∃ e', ((emitResponsesUsage usage).andThen (.throws e)).error = some e' := by
  rcases usage with _ | usage
  · exact ⟨e, rfl⟩
  · rw [emitResponsesUsage]
    rcases usage.event? with _ | event
    · exact ⟨_, rfl⟩
    · exact ⟨e, rfl⟩

/-- **The decoders agree** on every body that a stream describes. -/
theorem ResponsesDescribe.result_eq (h : ResponsesDescribe before last body) :
    result (streamOpenAiResponses J {} ((before ++ [last]).map some)) =
      result (normalizeOpenAiResponse J body) := by
  obtain ⟨numbers, hnumbers, hchain⟩ := h.sequence
  obtain ⟨k, numbers', hstream, hlast, hchain'⟩ :=
    streamOpenAiResponses_ongoing (J := J) {} h.ongoing hnumbers hchain
  obtain ⟨type, hterminal, htype⟩ := h.type
  obtain ⟨response, hresponse, husage, herror, hreason, houtput⟩ := h.response
  obtain ⟨k', -, hsequence, -⟩ := sequence_of_isChain
    { calls := before.foldl mergeEvent .empty, lastSequence := k } hlast hchain'
  have husage : last.response.bind OpenAIResponsesBody.usage = body.usage := by
    rw [hresponse, Option.bind_some, husage]
  have hfailure : ∀ code, responseTerminalError code last.response =
      responseTerminalError code (some body) := by
    intro code
    simp only [responseTerminalError, hresponse, Option.bind_some, herror, hreason]
  -- A response that has failed throws the same, whatever the stream has yielded.
  have hfail : ∀ code texts rest,
      result ((Generated.yields texts).andThen
        (((emitResponsesUsage (last.response.bind OpenAIResponsesBody.usage)).andThen
          (.throws (responseTerminalError code last.response))).andThen rest)) =
        result ((emitResponsesUsage body.usage).andThen
          (.throws (responseTerminalError code (some body)))) := by
    intro code texts rest
    obtain ⟨e, he⟩ :=
      exists_error_andThen_throws body.usage (responseTerminalError code (some body))
    rw [husage, hfailure, Generated.andThen_of_error he, result_yields_andThen_of_error he,
      result_of_error he]
  rw [hstream, streamOpenAiResponses, htype]
  dsimp only
  rw [hsequence]
  dsimp only
  rw [OpenAIResponsesBody.terminalType] at hterminal
  rw [normalizeOpenAiResponse]
  split at hterminal
  · rename_i hstatus
    obtain rfl := Option.some.inj hterminal
    rw [if_pos (.inr (.inl hstatus)), if_pos hstatus]
    exact hfail _ _ _
  · rename_i hincomplete
    split at hterminal
    · rename_i hstatus
      obtain rfl := Option.some.inj hterminal
      have hstatus' : body.status = some .failed ∨ body.status = some .incomplete ∨
          body.status = some .cancelled ∨ body.error.isSome := by
        rcases hstatus with hstatus | hstatus
        · exact .inl hstatus
        · exact .inr (.inr hstatus)
      rw [if_pos hstatus', if_neg hincomplete]
      exact hfail _ _ _
    · rename_i hstatus
      split at hterminal
      · rename_i hcompleted
        obtain rfl := Option.some.inj hterminal
        obtain ⟨hfailed, hrest⟩ := not_or.mp hstatus
        rw [if_neg (not_or.mpr ⟨hfailed, not_or.mpr ⟨hincomplete, hrest⟩⟩),
          if_neg (not_not.mpr hcompleted)]
        have hsent : last.response.map OpenAIResponsesBody.output = some response.output := by
          rw [hresponse, Option.map_some]
        have hfinish := finishResponse_congr (J := J) (h.get?_merged houtput hsent) body.usage
        rw [ResponsesState.react]
        dsimp only
        rw [husage, hsent, Option.getD_some, hfinish]
        show result ((Generated.yields _).andThen ((finishResponse J _ _).andThen (.yields []))) = _
        rw [Generated.andThen_yields_nil]
        refine result_congr ?_ _
        rw [Answer.of_flatMap_textEvents, Answer.of_flatMap_textEvents, h.text]
      · exact absurd hterminal nofun

end LiteHarness.Provider
