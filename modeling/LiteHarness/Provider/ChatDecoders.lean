import LiteHarness.Provider.ChatCompletions

/-!
# The decoders of a chat completion

The loop of the stream leaves at each index what the fragments of the index make, so that a stream
that describes a completion ends with its calls in their order. The decoders then differ in what
they make of a call: the stream takes empty arguments for an empty object and refuses a call without
an id or a name; the body does neither.
-/

namespace LiteHarness.Provider

open Foundation

variable {J : JsonReader} {index : ℕ → ℕ} {chunks : List OpenAIStreamChunk}
  {completion : ChatCompletion}

/-! ## The loop -/

/-- A stream of chunks yields their events and ends with what follows `[DONE]`. -/
theorem streamOpenAi_chunks (h : ∀ chunk ∈ chunks, chunk.error = false) (state : OpenAiState)
    (rest : List StreamData) :
    streamOpenAi J state (chunks.map .chunk ++ .done :: rest) =
      (Generated.yields (chunks.flatMap OpenAIStreamChunk.events)).andThen
        (finishOpenAi J
          ((chunks.flatMap OpenAIStreamChunk.choices).foldl OpenAiState.readChoice state)) := by
  induction chunks generalizing state with
  | nil => rfl
  | cons chunk chunks ih =>
    obtain ⟨hchunk, hchunks⟩ := List.forall_mem_cons.mp h
    rw [List.map_cons, List.cons_append, streamOpenAi, if_neg (by rw [hchunk]; exact nofun),
      ih hchunks, ← Generated.andThen_assoc, List.flatMap_cons, List.flatMap_cons,
      List.foldl_append]
    rfl

theorem foldl_readChoice (choices : List ChunkChoice) (state : OpenAiState) :
    choices.foldl OpenAiState.readChoice state =
      { tools := (choices.flatMap ChunkChoice.toolCalls).foldl joinFragment state.tools
        finishReason := (choices.filterMap ChunkChoice.finishReason).getLast?.or
          state.finishReason } := by
  induction choices generalizing state with
  | nil => rfl
  | cons choice choices ih =>
    rw [List.foldl_cons, ih, OpenAiState.readChoice, List.flatMap_cons, List.foldl_append,
      List.filterMap_cons]
    rcases choice.finishReason with _ | reason
    · rfl
    · rw [List.getLast?_cons, Option.some_or]
      rcases (choices.filterMap ChunkChoice.finishReason).getLast? with _ | last <;> rfl

/-- The pieces of the fragments of a call. -/
def joined (parts : List CallFragment) : PendingCall where
  id := (parts.map fun part ↦ part.id.getD []).flatten
  name := (parts.map fun part ↦ part.name.getD []).flatten
  arguments := (parts.map fun part ↦ part.arguments.getD []).flatten

theorem foldl_extend (parts : List CallFragment) (call : PendingCall) :
    parts.foldl PendingCall.extend call =
      { id := call.id ++ (joined parts).id
        name := call.name ++ (joined parts).name
        arguments := call.arguments ++ (joined parts).arguments } := by
  induction parts generalizing call with
  | nil =>
    rw [List.foldl_nil]
    simp only [joined, List.map_nil, List.flatten_nil, List.append_nil]
  | cons part parts ih =>
    rw [List.foldl_cons, ih, PendingCall.extend]
    simp only [joined, List.map_cons, List.flatten_cons, List.append_assoc]

theorem foldl_merge (parts : List CallFragment) (call : PendingCall) :
    parts.foldl (fun (held : Option PendingCall) part ↦ some ((held.getD {}).extend part))
      (some call) = some (parts.foldl PendingCall.extend call) := by
  induction parts generalizing call with
  | nil => rfl
  | cons part parts ih => exact ih _

/-- **What the loop leaves at an index**: what its fragments make. -/
theorem get?_foldl_joinFragment (parts : List CallFragment) (k : ℕ) :
    (parts.foldl joinFragment .empty).get? k =
      if parts.filter (fun part ↦ part.index = k) = [] then none
      else some (joined (parts.filter fun part ↦ part.index = k)) := by
  rw [OrderedMap.get?_foldl (fun k ↦ Option.guard fun part ↦ part.index = k)
    fun held part ↦ some ((held.getD {}).extend part), List.filterMap_eq_filter]
  · generalize parts.filter (fun part ↦ part.index = k) = own
    rcases own with _ | ⟨part, rest⟩
    · rfl
    · rw [if_neg (List.cons_ne_nil _ _), List.foldl_cons, OrderedMap.get?_empty, foldl_merge,
        ← List.foldl_cons, foldl_extend]
      rfl
  · intro part _ m k
    rw [joinFragment, OrderedMap.get?_set, Option.guard]
    by_cases hk : part.index = k
    · rw [if_pos hk, if_pos (decide_eq_true hk), hk]
      rfl
    · rw [if_neg hk, if_neg (by rwa [decide_eq_true_eq])]
      rfl

/-! ## The calls of a stream -/

/-- A call of a completion as the stream joins it. -/
def pending (call : ChatToolCall) : PendingCall := ⟨call.id, call.name, call.arguments⟩

/-- The calls of the completion under their indices. -/
def callRows (index : ℕ → ℕ) (completion : ChatCompletion) : List (ℕ × PendingCall) :=
  completion.calls.mapIdx fun i call ↦ (index i, pending call)

theorem callRows_pairwise (hindex : StrictMono index) :
    (callRows index completion).Pairwise fun a b ↦ a.1 < b.1 := by
  rw [List.pairwise_iff_getElem]
  intro i j hi hj hij
  simp only [callRows, List.getElem_mapIdx]
  exact hindex hij

theorem map_snd_callRows :
    (callRows index completion).map Prod.snd = completion.calls.map pending := by
  refine List.ext_getElem? fun i ↦ ?_
  rw [List.getElem?_map, callRows, List.getElem?_mapIdx, Option.map_map, List.getElem?_map]
  rfl

/-- A stream that describes a completion leaves the calls of the completion. -/
theorem Describes.get?_eq_some_iff (h : Describes index chunks completion) {k : ℕ}
    {call : PendingCall} :
    ((chunkFragments chunks).foldl joinFragment .empty).get? k = some call ↔
      (k, call) ∈ callRows index completion := by
  have hrow : ∀ i (hi : i < completion.calls.length),
      joined (fragmentsAt (index i) chunks) = pending completion.calls[i] := by
    intro i hi
    have hcall := List.getElem?_eq_getElem hi
    rw [joined, h.ids i _ hcall, h.names i _ hcall, h.arguments i _ hcall]
    rfl
  rw [get?_foldl_joinFragment, callRows, List.mem_mapIdx]
  constructor
  · intro hget
    split at hget
    · exact absurd hget nofun
    · rename_i hne
      obtain ⟨part, hpart⟩ := List.exists_mem_of_ne_nil _ hne
      obtain ⟨hmem, hk⟩ := List.mem_filter.mp hpart
      obtain ⟨i, hi, hindexed⟩ := h.indices part hmem
      obtain rfl : index i = k := hindexed.symm.trans (of_decide_eq_true hk)
      exact ⟨i, hi, Prod.ext rfl ((hrow i hi).symm.trans (Option.some.inj hget))⟩
  · rintro ⟨i, hi, hrows⟩
    obtain ⟨rfl, rfl⟩ := Prod.mk.inj hrows
    exact (if_neg (h.begun i hi)).trans (congrArg some (hrow i hi))

/-- **The calls at the end of the stream** are those of the completion, in their order. -/
theorem Describes.calls (hindex : StrictMono index) (h : Describes index chunks completion) :
    ((chunkFragments chunks).foldl joinFragment .empty).byKey.map Prod.snd =
      completion.calls.map pending := by
  rw [OrderedMap.byKey_eq (callRows_pairwise hindex) fun _ _ ↦ h.get?_eq_some_iff,
    map_snd_callRows]

theorem Describes.size (hindex : StrictMono index) (h : Describes index chunks completion) :
    ((chunkFragments chunks).foldl joinFragment .empty).size = completion.calls.length := by
  rw [← OrderedMap.length_byKey, ← List.length_map (f := Prod.snd), h.calls hindex, List.length_map]

/-! ## The outcomes -/

/-- What the stream says it finished with. -/
def streamedFinish (completion : ChatCompletion) : FinishReason :=
  if completion.calls ≠ [] ∨ completion.finishReason = some (js "tool_calls") then .toolCalls
  else .stop

/-- The events of the chunks are seen as the content and the usage. -/
theorem Describes.answer_events (h : Describes index chunks completion) :
    Answer.of (chunks.flatMap OpenAIStreamChunk.events) =
      ⟨completion.content.getD [], [], completion.usage.toList.map ChatUsage.event, []⟩ := by
  rw [← h.content, ← h.usage]
  clear h
  induction chunks with
  | nil => rfl
  | cons chunk chunks ih =>
    have hevents : Answer.of chunk.events =
        ⟨(chunk.choices.map fun choice ↦ choice.content.getD []).flatten, [],
          chunk.usage.toList.map ChatUsage.event, []⟩ := by
      rw [OpenAIStreamChunk.events, Answer.of_append, Answer.of_map_usage, ← List.flatMap_map,
        Answer.of_flatMap_textEvents]
      simp only [Answer.append, List.nil_append, List.append_nil]
    rw [List.flatMap_cons, Answer.of_append, ih, hevents, List.flatMap_cons, List.map_append,
      List.flatten_append, List.filterMap_cons]
    rcases chunk.usage with _ | report <;> rfl

/-- **The outcome of the stream.** -/
theorem Describes.outcome_stream (hindex : StrictMono index)
    (h : Describes index chunks completion) (rest : List StreamData) :
    outcome (streamOpenAi J {} (chunks.map .chunk ++ .done :: rest)) =
      answerWith (completion.content.getD []) (completion.usage.toList.map ChatUsage.event)
        (streamedFinish completion) ((completion.calls.map pending).mapM (streamedCall J)) := by
  have hstate : (chunks.flatMap OpenAIStreamChunk.choices).foldl OpenAiState.readChoice {} =
      ⟨(chunkFragments chunks).foldl joinFragment .empty, completion.finishReason⟩ := by
    rw [foldl_readChoice, h.finish]
    exact congrArg _ Option.or_none
  have hfinish : (if 0 < ((chunkFragments chunks).foldl joinFragment .empty).size ∨
      completion.finishReason = some (js "tool_calls") then .toolCalls else .stop) =
        streamedFinish completion := by
    simp only [h.size hindex, List.length_pos_iff, streamedFinish]
  rw [streamOpenAi_chunks h.errors, hstate, finishOpenAi, hfinish,
    outcome_emitCalls h.answer_events (Answer.of_completed _), h.calls hindex, List.append_nil]

/-- What the body says it finished with. -/
def bodyFinish (completion : ChatCompletion) : FinishReason :=
  if completion.calls ≠ [] then .toolCalls else .stop

/-- **The outcome of the body.** -/
theorem outcome_body :
    outcome (decodeBody J completion.body) =
      answerWith (completion.content.getD []) (completion.usage.toList.map ChatUsage.event)
        (bodyFinish completion) (completion.calls.mapM (bodyCall J)) := by
  have hpost : Answer.of ((completion.usage.toList.map ChatUsage.event).map .usage ++
      [.completed (bodyFinish completion)]) =
        ⟨[], [], completion.usage.toList.map ChatUsage.event, [bodyFinish completion]⟩ := by
    rw [Answer.of_append, Answer.of_map_usage, Answer.of_completed]
    simp only [Answer.append, List.append_nil, List.nil_append]
  exact outcome_emitCalls (Answer.of_textEvents _) hpost

/-! ## The calls of both decoders -/

theorem exists_bodyCall_iff {call : ChatToolCall} :
    (∃ received, bodyCall J call = .ok received) ↔ (J.parse call.arguments).isSome := by
  rw [bodyCall]
  rcases J.parse call.arguments with _ | arguments
  · exact iff_of_false nofun nofun
  · exact iff_of_true ⟨_, rfl⟩ rfl

/-- The body refuses arguments that are not a JSON text, and nothing else. -/
theorem code_of_bodyCall {call : ChatToolCall} {e : ProviderError}
    (h : bodyCall J call = .error e) : e.code = js "invalid_tool_arguments" := by
  rw [bodyCall] at h
  rcases hparse : J.parse call.arguments with _ | arguments
  · rw [hparse] at h
    obtain rfl := Except.error.inj h
    rfl
  · rw [hparse] at h
    exact absurd h nofun

theorem exists_streamedCall_iff {call : ChatToolCall} :
    (∃ received, streamedCall J (pending call) = .ok received) ↔
      call.id ≠ [] ∧ call.name ≠ [] ∧ (call.arguments = [] ∨ (J.parse call.arguments).isSome) := by
  rw [streamedCall, pending]
  split
  · rename_i hempty
    refine iff_of_false nofun fun h ↦ ?_
    rcases hempty with hid | hname
    · exact h.1 hid
    · exact h.2.1 hname
  · rename_i hwhole
    obtain ⟨hid, hname⟩ := not_or.mp hwhole
    dsimp only
    by_cases harguments : call.arguments = []
    · rw [if_pos harguments, J.parse_braces]
      exact iff_of_true ⟨_, rfl⟩ ⟨hid, hname, .inl harguments⟩
    · rw [if_neg harguments]
      rcases J.parse call.arguments with _ | arguments
      · exact iff_of_false nofun fun h ↦ h.2.2.elim harguments nofun
      · exact iff_of_true ⟨_, rfl⟩ ⟨hid, hname, .inr rfl⟩

/-- When the stream refuses the arguments of a call. -/
theorem code_streamedCall_iff {call : ChatToolCall} {e : ProviderError}
    (h : streamedCall J (pending call) = .error e) :
    e.code = js "invalid_tool_arguments" ↔
      call.id ≠ [] ∧ call.name ≠ [] ∧ call.arguments ≠ [] ∧ J.parse call.arguments = none := by
  rw [streamedCall, pending] at h
  split at h
  · rename_i hempty
    obtain rfl := Except.error.inj h
    refine iff_of_false (by decide) fun h ↦ ?_
    rcases hempty with hid | hname
    · exact h.1 hid
    · exact h.2.1 hname
  · rename_i hwhole
    obtain ⟨hid, hname⟩ := not_or.mp hwhole
    dsimp only at h
    by_cases harguments : call.arguments = []
    · rw [if_pos harguments, J.parse_braces] at h
      exact absurd h nofun
    · rw [if_neg harguments] at h
      rcases hparse : J.parse call.arguments with _ | arguments
      · rw [hparse] at h
        obtain rfl := Except.error.inj h
        exact iff_of_true rfl ⟨hid, hname, harguments, rfl⟩
      · rw [hparse] at h
        exact absurd h nofun

/-- Both decoders read a call with an id, a name and arguments alike. -/
theorem bodyCall_eq_streamedCall {call : ChatToolCall} (h : WholeCall J call) :
    bodyCall J call = streamedCall J (pending call) := by
  obtain ⟨hid, hname, hparse⟩ := h
  have harguments : call.arguments ≠ [] := by
    intro hnil
    rw [hnil, J.parse_nil] at hparse
    exact absurd hparse nofun
  rw [bodyCall, streamedCall, pending, if_neg (not_or.mpr ⟨hid, hname⟩)]
  dsimp only
  rw [if_neg harguments]

/-! ## The agreement -/

/-- **The decoders agree** where the completion is clean, and where it is broken in a way both see.
-/
theorem Describes.outcome_eq_iff (hindex : StrictMono index)
    (h : Describes index chunks completion) (rest : List StreamData) :
    outcome (streamOpenAi J {} (chunks.map .chunk ++ .done :: rest)) =
        outcome (decodeBody J completion.body) ↔
      Clean J completion ∨ Broken J completion := by
  rw [h.outcome_stream hindex, outcome_body, List.mapM_map]
  constructor
  · intro heq
    rcases hstream : completion.calls.mapM (streamedCall J ∘ pending) with e | received
    · rcases hbody : completion.calls.mapM (bodyCall J) with e' | received
      · -- The body fails with arguments only, and so the first failure of the stream is one.
        rw [hstream, hbody] at heq
        obtain ⟨-, call', -, -, -, hcall'⟩ := mapM_eq_error_iff.mp hbody
        have hcode : e.code = js "invalid_tool_arguments" :=
          (Except.error.inj heq).trans (code_of_bodyCall hcall')
        obtain ⟨pre, call, post, hsplit, hpre, hcall⟩ := mapM_eq_error_iff.mp hstream
        exact .inr ⟨pre, call, post, hsplit,
          fun earlier hmem ↦ exists_streamedCall_iff.mp (hpre earlier hmem),
          (code_streamedCall_iff hcall).mp hcode⟩
      · rw [hstream, hbody] at heq
        exact absurd heq nofun
    · rcases hbody : completion.calls.mapM (bodyCall J) with e' | received'
      · rw [hstream, hbody] at heq
        exact absurd heq nofun
      · rw [hstream, hbody] at heq
        refine .inl ⟨fun call hmem ↦ ?_, fun hreason hnone ↦ ?_⟩
        · obtain ⟨r, -, hr⟩ := exists_of_mapM_eq_ok hstream call hmem
          obtain ⟨r', -, hr'⟩ := exists_of_mapM_eq_ok hbody call hmem
          obtain ⟨hid, hname, -⟩ := exists_streamedCall_iff.mp ⟨r, hr⟩
          exact ⟨hid, hname, exists_bodyCall_iff.mp ⟨r', hr'⟩⟩
        · have hfinish : [streamedFinish completion] = [bodyFinish completion] :=
            congrArg Answer.finish (Except.ok.inj heq)
          rw [streamedFinish, if_pos (.inr hreason), bodyFinish,
            if_neg (not_not.mpr hnone)] at hfinish
          exact absurd hfinish (by decide)
  · rintro (⟨hcalls, hreason⟩ | ⟨pre, call, post, hsplit, hpre, hcall⟩)
    · have hfinish : streamedFinish completion = bodyFinish completion := by
        rw [streamedFinish, bodyFinish]
        congr 1
        exact propext (or_iff_left_of_imp hreason)
      rw [hfinish, mapM_congr fun call hmem ↦ bodyCall_eq_streamedCall (hcalls call hmem)]
      rfl
    · obtain ⟨e, hstreamed⟩ : ∃ e, streamedCall J (pending call) = .error e := by
        rcases hs : streamedCall J (pending call) with e | received
        · exact ⟨e, rfl⟩
        · rcases (exists_streamedCall_iff.mp ⟨received, hs⟩).2.2 with hnil | hsome
          · exact absurd hnil hcall.2.2.1
          · rw [hcall.2.2.2] at hsome
            exact absurd hsome nofun
      have hstream : completion.calls.mapM (streamedCall J ∘ pending) = .error e :=
        mapM_eq_error_iff.mpr ⟨pre, call, post, hsplit,
          fun earlier hmem ↦ exists_streamedCall_iff.mpr (hpre earlier hmem), hstreamed⟩
      rcases hbody : completion.calls.mapM (bodyCall J) with e' | received
      · obtain ⟨-, call', -, -, -, hcall'⟩ := mapM_eq_error_iff.mp hbody
        rw [hstream]
        show Except.error e.code = Except.error e'.code
        rw [(code_streamedCall_iff hstreamed).mpr hcall, code_of_bodyCall hcall']
      · -- The body reads the arguments of every call.
        have hmem : call ∈ completion.calls :=
          hsplit ▸ List.mem_append_right _ List.mem_cons_self
        obtain ⟨r, -, hr⟩ := exists_of_mapM_eq_ok hbody call hmem
        have hsome := exists_bodyCall_iff.mp ⟨r, hr⟩
        rw [hcall.2.2.2] at hsome
        exact absurd hsome nofun

/-- A call in one chunk. -/
def callChunk (call : ChatToolCall) : OpenAIStreamChunk where
  choices := [{
    toolCalls := [⟨0, some call.id, some call.name, some call.arguments⟩]
    finishReason := some (js "tool_calls") }]

/-- A completion of one call. -/
def callCompletion (call : ChatToolCall) : ChatCompletion where
  calls := [call]
  finishReason := some (js "tool_calls")

theorem describes_callChunk (call : ChatToolCall) :
    Describes id [callChunk call] (callCompletion call) where
  errors chunk hmem := by
    rw [List.mem_singleton.mp hmem]
    rfl
  content := rfl
  begun i hi := by
    rw [Nat.lt_one_iff.mp hi]
    exact List.cons_ne_nil _ _
  ids i call' hcall := by
    obtain ⟨hi, rfl⟩ := List.getElem?_eq_some_iff.mp hcall
    obtain rfl := Nat.lt_one_iff.mp hi
    exact List.append_nil _
  names i call' hcall := by
    obtain ⟨hi, rfl⟩ := List.getElem?_eq_some_iff.mp hcall
    obtain rfl := Nat.lt_one_iff.mp hi
    exact List.append_nil _
  arguments i call' hcall := by
    obtain ⟨hi, rfl⟩ := List.getElem?_eq_some_iff.mp hcall
    obtain rfl := Nat.lt_one_iff.mp hi
    exact List.append_nil _
  indices part hmem := ⟨0, Nat.zero_lt_one, by rw [List.mem_singleton.mp hmem]; rfl⟩
  usage := rfl
  finish := rfl

theorem outcome_eq_emptyObject :
    outcome (streamOpenAi bracesReader {}
        [.chunk (callChunk ⟨js "c1", js "clock.now", js "\x7b\x7d"⟩), .done]) =
      outcome (decodeBody bracesReader
        (callCompletion ⟨js "c1", js "clock.now", js "\x7b\x7d"⟩).body) :=
  ((describes_callChunk _).outcome_eq_iff strictMono_id []).mpr
    (.inl ⟨fun call hmem ↦ by
      rw [List.mem_singleton.mp hmem]
      exact ⟨nofun, nofun, rfl⟩, fun _ ↦ List.cons_ne_nil _ _⟩)

/-- A call without arguments is read from a stream, and refused in a body. -/
theorem empty_arguments_disagree :
    ¬ ∀ (J : JsonReader) (index : ℕ → ℕ) (chunks : List OpenAIStreamChunk)
      (completion : ChatCompletion), StrictMono index → Describes index chunks completion →
        outcome (streamOpenAi J {} (chunks.map .chunk ++ [.done])) =
          outcome (decodeBody J completion.body) := by
  intro h
  have heq := h bracesReader id _ _ strictMono_id
    (describes_callChunk ⟨js "c1", js "clock.now", []⟩)
  exact absurd heq nofun

end LiteHarness.Provider
