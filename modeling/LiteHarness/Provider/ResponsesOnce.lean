import LiteHarness.Provider.ResponsesDecoders

/-!
# A response is completed once

The stream goes on after a completed response. What it yields of a stream of any events is completed
at most once, with nothing behind it and no call twice, exactly where the calls of the first
completed response have different ids and the events behind it yield nothing.
-/

namespace LiteHarness.Provider

open Foundation

variable (J : JsonReader)

/-- **An answer is completed at most once**, at its end, and no call is yielded twice. -/
structure CompletedOnce (items : List AnswerEvent) : Prop where
  once : (items.filterMap AnswerEvent.finish?).length ≤ 1
  last : ∀ before reason behind, items = before ++ .completed reason :: behind → behind = []
  calls : ((items.filterMap AnswerEvent.call?).map ReceivedCall.id).Nodup

/-! ## The condition -/

/-- The call has an id, a name and arguments that are a JSON object. -/
def PendingResponseCall.readable (call : PendingResponseCall) : Bool :=
  !(call.callId.getD []).isEmpty && !(call.name.getD []).isEmpty &&
    match J.parse (if call.arguments = [] then js "\x7b\x7d" else call.arguments) with
    | some (.object _) => true
    | _ => false

/-- The calls in the order of their indices. -/
def keptCalls (calls : OrderedMap ℤ PendingResponseCall) : List PendingResponseCall :=
  calls.byKey.map Prod.snd

/-- The calls up to the first that is refused have different ids. -/
def DistinctIds (calls : OrderedMap ℤ PendingResponseCall) : Prop :=
  (((keptCalls calls).takeWhile (PendingResponseCall.readable J)).map fun call ↦
    call.callId.getD []).Nodup

/-- The usage is absent or has safe counts. -/
def UsageValid (usage : Option ResponsesUsage) : Prop := ∀ report ∈ usage, report.event?.isSome

/-- The usage of the response of an event. -/
def OpenAIResponseStreamEvent.usage (event : OpenAIResponseStreamEvent) : Option ResponsesUsage :=
  event.response.bind OpenAIResponsesBody.usage

/-- The calls of a completed response. -/
def completedCalls (state : ResponsesState) (event : OpenAIResponseStreamEvent) :
    OrderedMap ℤ PendingResponseCall :=
  mergeResponseOutput state.calls ((event.response.map OpenAIResponsesBody.output).getD [])

/-- Nothing is yielded any more: up to the event with which the stream fails, there is no text, no
usage and no completed response that has a call to yield or nothing to refuse. -/
def Quiet (state : ResponsesState) : List ResponsesData → Prop
  | [] => True
  | none :: _ => True
  | some event :: data =>
    match event.type, state.sequence event with
    | some type, .ok next =>
      match type with
      | .outputTextDelta | .refusalDelta =>
        ∀ delta ∈ event.delta, delta = [] ∧ Quiet next data
      | .completed =>
        match keptCalls (completedCalls next event) with
        | call :: _ => call.readable J = false
        | [] => ¬UsageValid event.usage
      | .incomplete | .failed => ∀ report ∈ event.usage, report.event? = none
      | .error => True
      | .outputItemAdded | .outputItemDone | .functionCallArgumentsDelta
      | .functionCallArgumentsDone | .other =>
        Quiet { next with calls := mergeEvent next.calls event } data
    | _, _ => True

/-- **The condition**: the calls of the first completed response have different ids, and where the
response is completed the events behind it are quiet. -/
def Orderly (state : ResponsesState) : List ResponsesData → Prop
  | [] => True
  | none :: _ => True
  | some event :: data =>
    match event.type, state.sequence event with
    | some type, .ok next =>
      match type with
      | .outputTextDelta | .refusalDelta => event.delta.isSome → Orderly next data
      | .completed =>
        DistinctIds J (completedCalls next event) ∧
          ((∀ call ∈ keptCalls (completedCalls next event), call.readable J) →
            UsageValid event.usage →
              Quiet J { next with calls := completedCalls next event, terminal := true } data)
      | .incomplete | .failed | .error => True
      | .outputItemAdded | .outputItemDone | .functionCallArgumentsDelta
      | .functionCallArgumentsDone | .other =>
        Orderly { next with calls := mergeEvent next.calls event } data
    | _, _ => True

variable {J} {items items' : List AnswerEvent} {calls : OrderedMap ℤ PendingResponseCall}
  {call : PendingResponseCall} {event : OpenAIResponseStreamEvent}

/-! ## What is yielded -/

/-- Events that are no calls and do not complete the answer. -/
def Plain (items : List AnswerEvent) : Prop :=
  items.filterMap AnswerEvent.finish? = [] ∧ items.filterMap AnswerEvent.call? = []

theorem plain_textEvents (text : JsString) : Plain (textEvents text) := by
  rw [textEvents]
  split
  · exact ⟨rfl, rfl⟩
  · exact ⟨rfl, rfl⟩

theorem plain_usage (usage : Option ResponsesUsage) : Plain (emitResponsesUsage usage).items := by
  rcases usage with _ | report
  · exact ⟨rfl, rfl⟩
  · rw [emitResponsesUsage]
    rcases report.event? with _ | event
    · exact ⟨rfl, rfl⟩
    · exact ⟨rfl, rfl⟩

/-- Where no event completes the answer, its calls have to be different. -/
theorem completedOnce_iff_of_unfinished (h : items.filterMap AnswerEvent.finish? = []) :
    CompletedOnce items ↔ ((items.filterMap AnswerEvent.call?).map ReceivedCall.id).Nodup := by
  refine ⟨fun hitems ↦ hitems.calls, fun hcalls ↦ ⟨by rw [h]; exact Nat.zero_le 1, ?_, hcalls⟩⟩
  rintro before reason behind rfl
  rw [List.filterMap_append, List.append_eq_nil_iff] at h
  exact absurd h.2 (List.cons_ne_nil _ _)

theorem completedOnce_of_plain (h : Plain items) : CompletedOnce items := by
  rw [completedOnce_iff_of_unfinished h.1, h.2]
  exact List.nodup_nil

/-- Plain events in front make no difference. -/
theorem completedOnce_append_iff (h : Plain items) :
    CompletedOnce (items ++ items') ↔ CompletedOnce items' := by
  have hfinish : (items ++ items').filterMap AnswerEvent.finish? =
      items'.filterMap AnswerEvent.finish? := by
    rw [List.filterMap_append, h.1, List.nil_append]
  have hcall : (items ++ items').filterMap AnswerEvent.call? =
      items'.filterMap AnswerEvent.call? := by
    rw [List.filterMap_append, h.2, List.nil_append]
  constructor
  · rintro ⟨honce, hlast, hcalls⟩
    refine ⟨hfinish ▸ honce, ?_, hcall ▸ hcalls⟩
    rintro before reason behind rfl
    exact hlast (items ++ before) reason behind (List.append_assoc _ _ _).symm
  · rintro ⟨honce, hlast, hcalls⟩
    refine ⟨hfinish ▸ honce, fun before reason behind heq ↦ ?_, hcall ▸ hcalls⟩
    rcases List.append_eq_append_iff.mp heq with ⟨as, -, hrest⟩ | ⟨bs, hitems, hrest⟩
    · exact hlast as reason behind hrest
    · rcases bs with _ | ⟨b, bs⟩
      · exact hlast [] reason behind hrest.symm
      · -- The plain events do not complete the answer.
        obtain ⟨rfl, -⟩ := List.cons.inj hrest
        have hplain := h.1
        rw [hitems, List.filterMap_append, List.append_eq_nil_iff] at hplain
        exact absurd hplain.2 (List.cons_ne_nil _ _)

/-- A completed answer is yielded once where nothing follows it. -/
theorem completedOnce_completed_iff (h : items.filterMap AnswerEvent.finish? = [])
    (reason : FinishReason) :
    CompletedOnce (items ++ .completed reason :: items') ↔
      ((items.filterMap AnswerEvent.call?).map ReceivedCall.id).Nodup ∧ items' = [] := by
  constructor
  · intro hitems
    obtain rfl := hitems.last items reason items' rfl
    have hcalls := hitems.calls
    rw [List.filterMap_append] at hcalls
    exact ⟨by rwa [show [AnswerEvent.completed reason].filterMap AnswerEvent.call? = [] from rfl,
      List.append_nil] at hcalls, rfl⟩
  · rintro ⟨hcalls, rfl⟩
    refine ⟨?_, fun before reason' behind heq ↦ ?_, ?_⟩
    · rw [List.filterMap_append, h]
      exact le_rfl
    · rcases List.append_eq_append_iff.mp heq with ⟨as, -, hrest⟩ | ⟨bs, hitems, hrest⟩
      · rcases as with _ | ⟨a, as⟩
        · exact (List.cons.inj hrest).2.symm
        · exact absurd (List.cons.inj hrest).2.symm
            (List.append_ne_nil_of_right_ne_nil _ (List.cons_ne_nil _ _))
      · rcases bs with _ | ⟨b, bs⟩
        · exact (List.cons.inj hrest).2
        · obtain ⟨rfl, -⟩ := List.cons.inj hrest
          rw [hitems, List.filterMap_append, List.append_eq_nil_iff] at h
          exact absurd h.2 (List.cons_ne_nil _ _)
    · rw [List.filterMap_append]
      exact (List.append_nil _).symm ▸ hcalls

/-! ## A completed response -/

theorem exists_readResponseCall (h : call.readable J = true) :
    ∃ received, readResponseCall J call = .ok received ∧ received.id = call.callId.getD [] := by
  rw [PendingResponseCall.readable, Bool.and_eq_true, Bool.and_eq_true, Bool.not_eq_true',
    Bool.not_eq_true', List.isEmpty_eq_false_iff, List.isEmpty_eq_false_iff] at h
  obtain ⟨⟨hid, hname⟩, hparse⟩ := h
  rw [readResponseCall, if_neg (not_or.mpr ⟨hid, hname⟩)]
  split at hparse
  · rename_i fields hfields
    rw [hfields]
    exact ⟨_, rfl, rfl⟩
  · exact absurd hparse nofun

theorem readResponseCall_of_not_readable (h : call.readable J = false) :
    ∃ e, readResponseCall J call = .error e := by
  rw [readResponseCall]
  split
  · exact ⟨_, rfl⟩
  · rename_i hwhole
    obtain ⟨hid, hname⟩ := not_or.mp hwhole
    rw [PendingResponseCall.readable, List.isEmpty_eq_false_iff.mpr hid,
      List.isEmpty_eq_false_iff.mpr hname] at h
    split
    · exact ⟨_, rfl⟩
    · rename_i fields hfields
      rw [hfields] at h
      exact absurd h nofun
    · exact ⟨_, rfl⟩

/-- **The calls that are yielded** are those up to the first that is refused. -/
theorem emitCalls_readResponseCall (pending : List PendingResponseCall) :
    (∃ received : List ReceivedCall,
      (emitCalls (readResponseCall J) pending).items = received.map .toolCall ∧
        received.map ReceivedCall.id =
          (pending.takeWhile (PendingResponseCall.readable J)).map fun call ↦
            call.callId.getD []) ∧
      ((emitCalls (readResponseCall J) pending).error = none ↔
        ∀ call ∈ pending, call.readable J) := by
  induction pending with
  | nil => exact ⟨⟨[], rfl, rfl⟩, iff_of_true rfl (List.forall_mem_nil _)⟩
  | cons call pending ih =>
    obtain ⟨⟨received, hitems, hids⟩, herror⟩ := ih
    rw [List.takeWhile_cons, List.forall_mem_cons, emitCalls]
    rcases hreadable : call.readable J with _ | _
    · obtain ⟨e, he⟩ := readResponseCall_of_not_readable hreadable
      rw [he]
      exact ⟨⟨[], rfl, rfl⟩, iff_of_false (Option.some_ne_none e)
        fun h ↦ absurd h.1 Bool.false_ne_true⟩
    · obtain ⟨r, hr, hid⟩ := exists_readResponseCall hreadable
      rw [hr]
      dsimp only
      rw [Generated.yields_andThen]
      refine ⟨⟨r :: received, ?_, ?_⟩, herror.trans (and_iff_right rfl).symm⟩
      · rw [hitems]
        rfl
      · rw [if_pos rfl, List.map_cons, List.map_cons, hid, hids]

theorem filterMap_finish?_map_toolCall (received : List ReceivedCall) :
    (received.map AnswerEvent.toolCall).filterMap AnswerEvent.finish? = [] :=
  congrArg Answer.finish (Answer.of_map_toolCall received)

theorem filterMap_call?_map_toolCall (received : List ReceivedCall) :
    (received.map AnswerEvent.toolCall).filterMap AnswerEvent.call? = received :=
  congrArg Answer.calls (Answer.of_map_toolCall received)

theorem error_emitResponsesUsage_iff {usage : Option ResponsesUsage} :
    (emitResponsesUsage usage).error = none ↔ UsageValid usage := by
  rcases usage with _ | report
  · exact iff_of_true rfl fun report hreport ↦ absurd hreport.symm (Option.some_ne_none report)
  · rw [emitResponsesUsage]
    rcases hevent : report.event? with _ | event
    · refine iff_of_false (Option.some_ne_none _) fun h ↦ ?_
      have := h report rfl
      rw [hevent] at this
      exact absurd this Bool.false_ne_true
    · refine iff_of_true rfl fun report' hreport ↦ ?_
      obtain rfl := Option.some.inj hreport
      rw [hevent]
      rfl

/-- **What a completed response yields**, with what follows it. -/
theorem completedOnce_finishResponse_iff {usage : Option ResponsesUsage} {rest : Decoded} :
    CompletedOnce ((finishResponse J calls usage).andThen rest).items ↔
      DistinctIds J calls ∧
        ((∀ call ∈ keptCalls calls, call.readable J) → UsageValid usage → rest.items = []) := by
  obtain ⟨⟨received, hitems, hids⟩, herror⟩ :=
    emitCalls_readResponseCall (J := J) (keptCalls calls)
  have hplain := plain_usage usage
  rw [DistinctIds, ← hids, finishResponse, Generated.andThen_assoc, Generated.andThen_assoc,
    emitResponseCalls, ← keptCalls]
  by_cases hall : ∀ call ∈ keptCalls calls, call.readable J
  · rw [Generated.andThen_of_ok (herror.mpr hall)]
    show CompletedOnce (_ ++ _) ↔ _
    rw [hitems]
    have hcalls : (received.map AnswerEvent.toolCall ++
        (emitResponsesUsage usage).items).filterMap AnswerEvent.call? = received := by
      rw [List.filterMap_append, hplain.2, List.append_nil, filterMap_call?_map_toolCall]
    have hfinish : (received.map AnswerEvent.toolCall ++
        (emitResponsesUsage usage).items).filterMap AnswerEvent.finish? = [] := by
      rw [List.filterMap_append, hplain.1, List.append_nil, filterMap_finish?_map_toolCall]
    by_cases hvalid : UsageValid usage
    · rw [Generated.andThen_of_ok (error_emitResponsesUsage_iff.mpr hvalid),
        Generated.yields_andThen]
      dsimp only
      rw [← List.append_assoc, List.singleton_append, completedOnce_completed_iff hfinish, hcalls]
      exact and_congr_right fun _ ↦ ⟨fun h _ _ ↦ h, fun h ↦ h hall hvalid⟩
    · obtain ⟨e, he⟩ := Option.ne_none_iff_exists'.mp
        fun h ↦ hvalid (error_emitResponsesUsage_iff.mp h)
      rw [Generated.andThen_of_error he, completedOnce_iff_of_unfinished hfinish, hcalls]
      exact (and_iff_left fun _ h ↦ absurd h hvalid).symm
  · obtain ⟨e, he⟩ := Option.ne_none_iff_exists'.mp fun h ↦ hall (herror.mp h)
    rw [Generated.andThen_of_error he, hitems,
      completedOnce_iff_of_unfinished (filterMap_finish?_map_toolCall received),
      filterMap_call?_map_toolCall]
    exact (and_iff_left fun h ↦ absurd h hall).symm

/-! ## Nothing more is yielded -/

/-- A completed response yields nothing where it refuses its first call, or has none and refuses the
usage. -/
theorem items_finishResponse_eq_nil_iff {usage : Option ResponsesUsage} {rest : Decoded} :
    ((finishResponse J calls usage).andThen rest).items = [] ↔
      match keptCalls calls with
      | call :: _ => call.readable J = false
      | [] => ¬UsageValid usage := by
  rw [finishResponse, Generated.andThen_assoc, Generated.andThen_assoc, emitResponseCalls,
    ← keptCalls]
  rcases keptCalls calls with _ | ⟨call, pending⟩
  · rw [emitCalls, Generated.yields_andThen]
    by_cases hvalid : UsageValid usage
    · rw [Generated.andThen_of_ok (error_emitResponsesUsage_iff.mpr hvalid),
        Generated.yields_andThen]
      refine iff_of_false (fun h ↦ ?_) (not_not.mpr hvalid)
      exact List.append_ne_nil_of_right_ne_nil _ (List.cons_ne_nil _ _) h
    · refine iff_of_true ?_ hvalid
      rcases usage with _ | report
      · exact absurd (fun report h ↦ absurd h.symm (Option.some_ne_none report)) hvalid
      · rw [emitResponsesUsage]
        rcases hevent : report.event? with _ | event
        · rfl
        · refine absurd (fun report' hreport ↦ ?_) hvalid
          obtain rfl := Option.some.inj hreport
          rw [hevent]
          rfl
  · rw [emitCalls]
    show _ ↔ call.readable J = false
    rcases hreadable : call.readable J with _ | _
    · obtain ⟨e, he⟩ := readResponseCall_of_not_readable hreadable
      rw [he]
      exact iff_of_true rfl rfl
    · obtain ⟨r, hr, -⟩ := exists_readResponseCall hreadable
      rw [hr]
      dsimp only
      rw [Generated.andThen_assoc, Generated.yields_andThen]
      exact iff_of_false (List.cons_ne_nil _ _) fun h ↦ absurd h.symm Bool.false_ne_true

/-- A response that failed yields its usage. -/
theorem items_failure_eq_nil_iff {usage : Option ResponsesUsage} {e : ProviderError}
    {rest : Decoded} :
    (((emitResponsesUsage usage).andThen (.throws e)).andThen rest).items = [] ↔
      ∀ report ∈ usage, report.event? = none := by
  rcases usage with _ | report
  · exact iff_of_true rfl fun report hreport ↦ absurd hreport.symm (Option.some_ne_none report)
  · rw [emitResponsesUsage]
    rcases hevent : report.event? with _ | event
    · refine iff_of_true rfl fun report' hreport ↦ ?_
      obtain rfl := Option.some.inj hreport
      exact hevent
    · refine iff_of_false (List.cons_ne_nil _ _) fun h ↦ ?_
      rw [h report rfl] at hevent
      exact absurd hevent.symm (Option.some_ne_none _)

theorem textEvents_eq_nil_iff {text : JsString} : textEvents text = [] ↔ text = [] := by
  rw [textEvents]
  split
  · rename_i hnil
    exact iff_of_true rfl hnil
  · rename_i hnil
    exact iff_of_false (List.cons_ne_nil _ _) hnil

/-- An event of another type has nothing to merge. -/
theorem mergeEvent_of_other (h : event.type = some .other)
    (calls : OrderedMap ℤ PendingResponseCall) : mergeEvent calls event = calls := by
  rw [mergeEvent, OpenAIResponseStreamEvent.piece?, h]

/-- **A stream is quiet where it yields nothing**, by induction on its events. -/
theorem quiet_iff (data : List ResponsesData) (state : ResponsesState) :
    Quiet J state data ↔ (streamOpenAiResponses J state data).items = [] := by
  induction data generalizing state with
  | nil =>
    rw [streamOpenAiResponses]
    refine iff_of_true trivial ?_
    split <;> rfl
  | cons datum data ih =>
    rcases datum with _ | event
    · exact iff_of_true trivial rfl
    · rw [streamOpenAiResponses, Quiet]
      rcases htype : event.type with _ | type
      · exact iff_of_true trivial rfl
      · dsimp only
        rcases hsequence : state.sequence event with e | next
        · exact iff_of_true trivial rfl
        · dsimp only
          have htext : (∀ delta ∈ event.delta, delta = [] ∧ Quiet J next data) ↔
              ((next.react J event .outputTextDelta).1.andThen (streamOpenAiResponses J
                (next.react J event .outputTextDelta).2 data)).items = [] := by
            rw [ResponsesState.react]
            rcases event.delta with _ | delta
            · exact iff_of_true (fun delta h ↦ absurd h.symm (Option.some_ne_none delta)) rfl
            · dsimp only
              rw [Generated.yields_andThen, List.append_eq_nil_iff, textEvents_eq_nil_iff, ← ih]
              exact ⟨fun h ↦ h delta rfl, fun h delta' hdelta ↦ Option.some.inj hdelta ▸ h⟩
          rcases type with _ | _ | _ | _ | _ | _ | _ | _ | _ | _ | _
          · exact htext
          · exact htext
          · exact ih _
          · exact ih _
          · exact ih _
          · exact ih _
          · exact items_finishResponse_eq_nil_iff.symm
          · exact items_failure_eq_nil_iff.symm
          · exact items_failure_eq_nil_iff.symm
          · exact iff_of_true trivial rfl
          · dsimp only
            rw [mergeEvent_of_other htype]
            exact ih _

/-! ## The whole stream -/

theorem plain_failure (usage : Option ResponsesUsage) (e : ProviderError) (rest : Decoded) :
    Plain (((emitResponsesUsage usage).andThen (.throws e)).andThen rest).items := by
  rcases usage with _ | report
  · exact ⟨rfl, rfl⟩
  · rw [emitResponsesUsage]
    rcases report.event? with _ | event
    · exact ⟨rfl, rfl⟩
    · exact ⟨rfl, rfl⟩

/-- **A stream of any events completes its answer once** where it is orderly, and nowhere else. -/
theorem orderly_iff (data : List ResponsesData) (state : ResponsesState) :
    Orderly J state data ↔ CompletedOnce (streamOpenAiResponses J state data).items := by
  induction data generalizing state with
  | nil =>
    rw [streamOpenAiResponses]
    refine iff_of_true trivial (completedOnce_of_plain ?_)
    split <;> exact ⟨rfl, rfl⟩
  | cons datum data ih =>
    rcases datum with _ | event
    · exact iff_of_true trivial (completedOnce_of_plain ⟨rfl, rfl⟩)
    · rw [streamOpenAiResponses, Orderly]
      rcases htype : event.type with _ | type
      · exact iff_of_true trivial (completedOnce_of_plain ⟨rfl, rfl⟩)
      · dsimp only
        rcases hsequence : state.sequence event with e | next
        · exact iff_of_true trivial (completedOnce_of_plain ⟨rfl, rfl⟩)
        · dsimp only
          have htext : (event.delta.isSome → Orderly J next data) ↔
              CompletedOnce ((next.react J event .outputTextDelta).1.andThen
                (streamOpenAiResponses J
                  (next.react J event .outputTextDelta).2 data)).items := by
            rw [ResponsesState.react]
            rcases event.delta with _ | delta
            · exact iff_of_true (fun h ↦ absurd h Bool.false_ne_true)
                (completedOnce_of_plain ⟨rfl, rfl⟩)
            · dsimp only
              rw [Generated.yields_andThen, completedOnce_append_iff (plain_textEvents delta), ← ih]
              exact ⟨fun h ↦ h rfl, fun h _ ↦ h⟩
          rcases type with _ | _ | _ | _ | _ | _ | _ | _ | _ | _ | _
          · exact htext
          · exact htext
          · exact ih _
          · exact ih _
          · exact ih _
          · exact ih _
          · -- Behind a completed response nothing may be yielded.
            dsimp only
            rw [quiet_iff]
            exact completedOnce_finishResponse_iff.symm
          · exact iff_of_true trivial (completedOnce_of_plain (plain_failure _ _ _))
          · exact iff_of_true trivial (completedOnce_of_plain (plain_failure _ _ _))
          · exact iff_of_true trivial (completedOnce_of_plain ⟨rfl, rfl⟩)
          · dsimp only
            rw [mergeEvent_of_other htype]
            exact ih _

/-- **The decoders agree on every body that a stream describes, and a stream of any events completes
its answer once exactly where it is orderly.** -/
theorem responses_decoded (J : JsonReader) :
    (∀ before last body, ResponsesDescribe before last body →
      result (streamOpenAiResponses J {} ((before ++ [last]).map some)) =
        result (normalizeOpenAiResponse J body)) ∧
      ∀ data : List ResponsesData,
        CompletedOnce (streamOpenAiResponses J {} data).items ↔ Orderly J {} data :=
  ⟨fun _ _ _ h ↦ h.result_eq, fun data ↦ (orderly_iff data {}).symm⟩

/-- A completed body with one call. -/
def clockBody : OpenAIResponsesBody where
  status := some .completed
  output := [{
    type := .functionCall
    callId := some (js "c1")
    name := some (js "clock.now")
    arguments := some (js "\x7b\x7d") }]

/-- The event of the completed body. -/
def clockCompleted : OpenAIResponseStreamEvent where
  type := some .completed
  response := some clockBody

theorem describes_clockCompleted : ResponsesDescribe [] clockCompleted clockBody where
  ongoing _ hevent := absurd hevent List.not_mem_nil
  sequence := ⟨[], rfl, .singleton _⟩
  text := rfl
  calls _ _ _ _ := .inr ⟨rfl, fun _ hpiece ↦ absurd hpiece List.not_mem_nil⟩
  places _ hevent := absurd hevent List.not_mem_nil
  type := ⟨.completed, rfl, rfl⟩
  response := ⟨clockBody, rfl, rfl, rfl, rfl, .inl rfl⟩

theorem clock_decoded :
    result (streamOpenAiResponses bracesReader {} [some clockCompleted]) =
      result (normalizeOpenAiResponse bracesReader clockBody) :=
  (responses_decoded bracesReader).1 [] clockCompleted clockBody describes_clockCompleted

/-- A response that is completed twice yields its call twice. -/
theorem completed_twice :
    ¬ ∀ J : JsonReader,
      (∀ before last body, ResponsesDescribe before last body →
        result (streamOpenAiResponses J {} ((before ++ [last]).map some)) =
          result (normalizeOpenAiResponse J body)) ∧
        ∀ data : List ResponsesData, CompletedOnce (streamOpenAiResponses J {} data).items := by
  intro h
  have honce := ((h bracesReader).2 [some clockCompleted, some clockCompleted]).once
  exact absurd honce (by decide)

end LiteHarness.Provider
