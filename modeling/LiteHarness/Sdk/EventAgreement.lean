import LiteHarness.Sdk.StreamFrames

/-!
# Where the two SDKs agree

Both readers go over the frames of a stream, so they agree where each frame is taken alike
(`agree_of_readsAlike`). They do not take a frame alike whose fields begin with a character that is
blank to one language only, whose data is empty, which holds a word or a number that one `JSON`
reader refuses, whose sequence number is an integer to one language only, or whose payload is an
array; and a byte order mark in front of the stream is a character of its first line to one of them.
-/

namespace LiteHarness.Sdk

open Foundation Provider

/-! ## Readers -/

/-- A payload that is validated is an event. -/
def Python.acceptPayload (runId : JsString) (payload : JsonText) : Except SdkError Event :=
  (Python.validateEventPayload runId payload).map (⟨·, payload⟩)

/-- The events that the Python SDK reads from a body that arrives whole. -/
def Python.readEvents (runId : JsString) (body : Bytes) : Generated Event SdkError :=
  (Python.responsePayloads body false).thenEach (Python.acceptPayload runId)

/-- `event.runId !== runId`. -/
def TypeScript.checkRun (runId : JsString) (event : Event) : Except SdkError Event :=
  if asString (lookup "runId" event.record) ≠ some runId then .error differentRun else .ok event

/-- The events that the TypeScript SDK reads from the pieces of a body. -/
def TypeScript.readEvents (runId : JsString) (chunks : List Bytes) : Generated Event SdkError :=
  (TypeScript.readEventStream chunks).thenEach (TypeScript.checkRun runId)

/-- Both are for a retry, or neither is. -/
abbrev SameKind (e e' : SdkError) : Prop := e.isRetryable = e'.isRetryable

/-- The same events are accepted, and then a frame is rejected by both or by neither. -/
structure Agree (g g' : Generated Event SdkError) : Prop where
  accepted : g.items = g'.items
  rejected : g.error = g'.error ∨ ∃ e e', g.error = some e ∧ g'.error = some e' ∧ SameKind e e'

/-! ## Frames -/

/-- The data of a frame, to Python. -/
def frameData (fields : List JsString) : JsString :=
  [lineFeed].intercalate (fields.map Python.lstrip)

/-- **A frame that both languages take alike.** -/
structure ReadsAlike (fields : List JsString) : Prop where
  blanks : ∀ field ∈ fields, Python.lstrip field = TypeScript.trimStart field
  filled : frameData fields ≠ []
  text : ReadAlike (frameData fields)
  sequence : ∀ payload ∈ jsonParse (frameData fields),
    Python.asInteger (lookup "sequence" payload) =
      TypeScript.asSafeInteger (lookup "sequence" payload)
  payload : ∀ payload ∈ jsonParse (frameData fields),
    Python.isDict (lookup "payload" payload) = TypeScript.isObject (lookup "payload" payload)

/-- What Python makes of a frame. -/
def Python.frameEvent (runId : JsString) (fields : List JsString) : Except SdkError Event :=
  Python.payloadOf fields >>= Python.acceptPayload runId

/-- What TypeScript makes of it. -/
def TypeScript.checkedEvent (runId : JsString) (fields : List JsString) : Except SdkError Event :=
  TypeScript.frameEvent fields >>= TypeScript.checkRun runId

variable {runId : JsString} {fields : List JsString}

theorem ReadsAlike.data_eq (h : ReadsAlike fields) :
    [lineFeed].intercalate (fields.map TypeScript.trimStart) = frameData fields := by
  rw [frameData, List.map_congr_left h.blanks]

theorem payloadOf_of_readsAlike (h : ReadsAlike fields) :
    Python.payloadOf fields =
      match jsonParse (frameData fields) with
      | none => .error invalidJson
      | some (.object members) => .ok (.object members)
      | some _ => .error invalidFrame := by
  have hdata : [lineFeed].intercalate (fields.map Python.lstrip) = frameData fields := rfl
  rw [Python.payloadOf, Python.framePayload, hdata, jsonLoads_eq h.text]
  rcases jsonParse (frameData fields) with _ | _ | _ | _ | _ | _ | _ | _ <;> rfl

/-- No retry is made for these. -/
theorem sameKind_differentRun : SameKind differentRun invalidEvent := by decide +kernel

theorem sameKind_invalidFrame : SameKind invalidFrame invalidEvent := by decide +kernel

/-- What becomes of an object, which both languages validate: of what is wrong with it they may name
different things. -/
theorem acceptPayload_of_alike {members : List (JsString × JsonText)}
    (hsequence : Python.asInteger (lookup "sequence" (.object members)) =
      TypeScript.asSafeInteger (lookup "sequence" (.object members)))
    (hpayload : Python.isDict (lookup "payload" (.object members)) =
      TypeScript.isObject (lookup "payload" (.object members)))
    {data : JsString} (hparse : jsonParse data = some (.object members)) :
    Python.acceptPayload runId (.object members) =
        (TypeScript.parseEventFrame data >>= TypeScript.checkRun runId) ∨
      ∃ e e', Python.acceptPayload runId (.object members) = .error e ∧
        (TypeScript.parseEventFrame data >>= TypeScript.checkRun runId) = .error e' ∧
        SameKind e e' := by
  rw [Python.acceptPayload, Python.validateEventPayload, TypeScript.parseEventFrame, hparse]
  dsimp only
  have hobject : ¬TypeScript.isObject (some (.object members)) = false := nofun
  rw [if_neg hobject, hsequence, hpayload]
  rcases hid : asString (lookup "runId" (.object members)) with _ | id
  · rcases asString (lookup "message" (.object members)) with _ | message
    · exact Or.inl rfl
    · exact Or.inl rfl
  -- whatever the message is, it is an event of some run
  rcases asString (lookup "message" (.object members)) with _ | message
  all_goals
    dsimp only
    by_cases hrun : id = runId
    · rw [if_neg (not_not.mpr hrun)]
      refine Or.inl ?_
      rcases TypeScript.asSafeInteger (lookup "sequence" (.object members)) with _ | sequence
      · rfl
      dsimp only
      split_ifs
      · rfl
      · change _ = TypeScript.checkRun runId _
        rw [TypeScript.checkRun, hid, hrun, if_neg (not_not.mpr rfl)]
        rfl
    · rw [if_pos hrun]
      refine Or.inr ⟨differentRun, ?_⟩
      rcases TypeScript.asSafeInteger (lookup "sequence" (.object members)) with _ | sequence
      · exact ⟨invalidEvent, rfl, rfl, sameKind_differentRun⟩
      dsimp only
      split_ifs
      · exact ⟨invalidEvent, rfl, rfl, sameKind_differentRun⟩
      · refine ⟨differentRun, rfl, ?_, rfl⟩
        change TypeScript.checkRun runId _ = _
        rw [TypeScript.checkRun, hid]
        exact if_pos fun heq ↦ hrun (Option.some.inj heq)

/-- **A frame that is read alike** is accepted by both, or rejected by both. -/
theorem frameEvent_of_readsAlike (h : ReadsAlike fields) :
    Python.frameEvent runId fields = TypeScript.checkedEvent runId fields ∨
      ∃ e e', Python.frameEvent runId fields = .error e ∧
        TypeScript.checkedEvent runId fields = .error e' ∧ SameKind e e' := by
  rw [Python.frameEvent, TypeScript.checkedEvent, TypeScript.frameEvent, h.data_eq,
    payloadOf_of_readsAlike h]
  rcases hparse : jsonParse (frameData fields) with _ | _ | b | n | t | items | members | _
  · rw [TypeScript.parseEventFrame, hparse]
    exact Or.inl rfl
  · rw [TypeScript.parseEventFrame, hparse]
    exact Or.inl rfl
  · rw [TypeScript.parseEventFrame, hparse]
    exact Or.inl rfl
  · rw [TypeScript.parseEventFrame, hparse]
    exact Or.inl rfl
  · rw [TypeScript.parseEventFrame, hparse]
    exact Or.inl rfl
  · rw [TypeScript.parseEventFrame, hparse]
    -- an array is an object to one of them, but one without the fields of an event
    exact Or.inr ⟨invalidFrame, invalidEvent, rfl, rfl, sameKind_invalidFrame⟩
  · exact acceptPayload_of_alike (h.sequence _ hparse) (h.payload _ hparse) hparse
  · rw [TypeScript.parseEventFrame, hparse]
    exact Or.inl rfl

/-! ## Streams -/

/-- **A stream that both languages take alike**: each frame is, and no byte order mark makes the
first line a data line to one of them only. -/
structure StreamReadsAlike (lines : List Line) : Prop where
  mark : ∀ l ∈ lines.head?, isDataLine l.unmarked.units = isDataLine l.units
  frames : ∀ fields ∈ streamFrames lines, ReadsAlike fields

variable {lines : List Line}

/-- The mark is a part of the first line, or of no line. -/
theorem streamFrames_unmarked
    (h : ∀ l ∈ lines.head?, isDataLine l.unmarked.units = isDataLine l.units) :
    streamFrames (unmarked lines) = streamFrames lines := by
  rcases lines with _ | ⟨l, lines⟩
  · rfl
  have hdata := h l rfl
  rw [streamFrames, streamFrames, unmarked, List.map_cons, List.map_cons, dataFrames, dataFrames]
  by_cases hblank : l.units = []
  · have hunmarked : l.unmarked.units = [] := by
      have htext := Line.units_eq_nil.mp hblank
      refine Line.units_eq_nil.mpr ?_
      change withoutMark l.text = []
      rw [htext, withoutMark]
    rw [if_pos hunmarked, if_pos hblank]
  · by_cases hmark : l.unmarked.units = l.units
    · rw [hmark]
    · obtain ⟨text, htext⟩ : ∃ text, l.text = '\uFEFF' :: text := by
        rcases htext : l.text with _ | ⟨c, text⟩
        · exact absurd (Line.units_eq_nil.mpr htext) hblank
        · by_cases hc : c = '\uFEFF'
          · exact ⟨text, by rw [hc]⟩
          · refine absurd ?_ hmark
            change textUnits (withoutMark l.text) = textUnits l.text
            rw [htext, withoutMark, if_neg hc]
      have hfree : ¬isDataLine l.units = true := by
        rw [Line.units, htext]
        exact Bool.false_ne_true
      rw [if_neg hblank, hdata, if_neg hfree, if_neg hfree, if_pos rfl, ite_self]

/-- What Python reads of a whole stream, frame by frame. -/
theorem python_readEvents_eq (lines : List Line) :
    Python.readEvents runId (streamBytes lines) =
      Generated.ofEach (Python.frameEvent runId) (streamFrames lines) := by
  rw [Python.readEvents, Python.responsePayloads_whole, Generated.thenEach_ofEach]
  rfl

/-- What TypeScript reads of it. -/
theorem typeScript_readEvents_eq (h : StreamReadsAlike lines) {chunks : List Bytes}
    (hchunks : chunks.flatten = streamBytes lines) :
    TypeScript.readEvents runId chunks =
      Generated.ofEach (TypeScript.checkedEvent runId) (streamFrames lines) := by
  have hframes : ((TypeScript.takenFields (unmarked lines)).filter fun fields ↦
      [lineFeed].intercalate (fields.map TypeScript.trimStart) ≠ []) = streamFrames lines := by
    rw [← streamFrames_unmarked h.mark, TypeScript.streamFrames_eq]
    refine List.filter_congr fun fields hmem ↦ ?_
    rw [decide_eq_decide]
    refine not_congr ⟨fun hnone ↦ ?_, fun hnil ↦ hnil ▸ rfl⟩
    by_contra hsome
    have hframe : fields ∈ streamFrames lines := by
      rw [← streamFrames_unmarked h.mark, TypeScript.streamFrames_eq]
      exact List.mem_filter.mpr ⟨hmem, decide_eq_true hsome⟩
    have halike := h.frames fields hframe
    exact halike.filled (halike.data_eq ▸ hnone)
  rw [TypeScript.readEvents, TypeScript.readEventStream_eq, hchunks, decodeText_streamBytes,
    TypeScript.frameEvents_eq, Generated.thenEach_ofEach]
  exact congrArg (Generated.ofEach (TypeScript.checkedEvent runId)) hframes

/-- **The two SDKs agree** on a stream that they take alike, in whatever pieces it comes. -/
theorem agree_of_readsAlike (h : StreamReadsAlike lines) {chunks : List Bytes}
    (hchunks : chunks.flatten = streamBytes lines) :
    Agree (Python.readEvents runId (streamBytes lines)) (TypeScript.readEvents runId chunks) := by
  rw [python_readEvents_eq, typeScript_readEvents_eq h hchunks]
  obtain ⟨hitems, herror⟩ := Generated.ofEach_congr_of SameKind
    fun fields hmem ↦ frameEvent_of_readsAlike (h.frames fields hmem)
  exact ⟨hitems, herror⟩

end LiteHarness.Sdk
