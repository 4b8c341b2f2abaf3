import LiteHarness.Sdk.EventAgreement
import LiteHarness.Sdk.EventRuns

/-!
# What becomes of a run that is followed

Where a stream is cut, what Python has read of it is the beginning of what it would have read: it
goes on with a retry, unless a frame in front of the cut was wrong (`turn_of_readable`). That holds
where the cut does not run through a character, or where the transport raises an error for it: the
line that is cut is decoded as well, and a `UnicodeDecodeError` is not among the errors that are
caught (`not_follows`). Nor is the `ValueError` of a body of the run that is cut.
-/

namespace LiteHarness.Sdk

open Foundation Provider

/-! ## Beginnings -/

namespace Python

/-- The payloads that are read are consumed alike, whatever comes behind them. -/
theorem consume_append (runId : JsString) (error error' : Option SdkError)
    (payloads more : List JsonText) (cursor : ℤ) :
    (consume runId cursor error payloads).error = error ∨
      (consume runId cursor error' (payloads ++ more)).error =
        (consume runId cursor error payloads).error := by
  induction payloads generalizing cursor with
  | nil => exact Or.inl rfl
  | cons payload payloads ih =>
    rw [List.cons_append, consume, consume]
    rcases validateEventPayload runId payload with e | sequence
    · exact Or.inr rfl
    dsimp only
    split_ifs
    · exact ih cursor
    · exact Or.inr rfl
    · exact ih sequence

/-- **The error of a stream that is cut** is that of the transport, or one of the whole stream. -/
theorem consume_cut (runId : JsString) {lines : List Line} {n : ℕ} {raises : Bool}
    (hcut : raises = true ∨ decodeStrict (rawLines ((streamBytes lines).take n)).2 ≠ none)
    (cursor : ℤ) {e : SdkError}
    (h : (consume runId cursor (responsePayloads ((streamBytes lines).take n) raises).error
      (responsePayloads ((streamBytes lines).take n) raises).items).error = some e) :
    e = .os ∨ (consume runId cursor (responsePayloads (streamBytes lines) false).error
      (responsePayloads (streamBytes lines) false).items).error = some e := by
  obtain ⟨frames, ⟨more, hframes⟩, heq⟩ := responsePayloads_cut lines n raises hcut
  rw [responsePayloads_whole, ← hframes, Generated.ofEach_append]
  rw [heq] at h
  rcases herror : (Generated.ofEach payloadOf frames).error with _ | e'
  · rw [Generated.andThen_of_ok herror] at h ⊢
    dsimp only at h ⊢
    rcases consume_append runId (if raises then Generated.throws .os else .yields []).error
      (Generated.ofEach payloadOf more).error
      ((Generated.ofEach payloadOf frames).items ++
        (if raises then Generated.throws SdkError.os else .yields []).items)
      (Generated.ofEach payloadOf more).items cursor with hlast | hfirst
    · rw [hlast] at h
      rcases raises with _ | _
      · exact absurd h nofun
      · exact Or.inl (Option.some.inj h).symm
    · refine Or.inr ?_
      rw [h] at hfirst
      have hnone : (if raises then Generated.throws SdkError.os else
          (.yields [] : Generated JsonText SdkError)).items = [] := by
        rcases raises with _ | _ <;> rfl
      rwa [hnone, List.append_nil] at hfirst
  · rw [Generated.andThen_of_error herror] at h ⊢
    exact Or.inr h

end Python

/-! ## Answers that are read -/

/-- **What is readable**: a stream that both languages take alike, which is not cut within a
character unless the transport raises an error, and a body of the run that is an object and whose
status is no object and no list. -/
structure Readable (x : Exchange) : Prop where
  stream : ∀ lines received raises, x.events = .stream lines received raises →
    (raises = true ∨
      decodeStrict (Python.rawLines ((streamBytes lines).take received)).2 ≠ none) ∧
    StreamReadsAlike lines
  run : ∀ value, x.run = .body value → ∃ run, value = some run ∧
    Python.isDict (some run) = true ∧ isHashable (lookup "status" run) = true

/-- The gateway itself refuses to go on: it answers with an error, its stream, if it arrives whole,
has an error in it, or the stream is read to where it ends and the run is refused. -/
inductive Refused (runId : JsString) (cursor : ℤ) (x : Exchange) : SdkError → Prop
  | events {status : ℕ} {body : Option JsonText} (h : x.events = .refused status body) :
    Refused runId cursor x (httpError status body)
  | stream {lines : List Line} {received : ℕ} {raises : Bool} {e : SdkError}
    (h : x.events = .stream lines received raises)
    (herror : (Python.consume runId cursor (Python.responsePayloads (streamBytes lines) false).error
      (Python.responsePayloads (streamBytes lines) false).items).error = some e) :
    Refused runId cursor x e
  | run {lines : List Line} {received : ℕ} {raises : Bool} {status : ℕ} {body : Option JsonText}
    (h : x.events = .stream lines received raises)
    (hover : (Python.consume runId cursor
      (Python.responsePayloads ((streamBytes lines).take received) raises).error
      (Python.responsePayloads ((streamBytes lines).take received) raises).items).error = none)
    (hrun : x.run = .refused status body) : Refused runId cursor x (httpError status body)

variable {runId : JsString} {cursor : ℤ} {x : Exchange}

theorem askRun_of_readable (h : Readable x) {e : SdkError} (he : askRun cursor x.run = .error e) :
    e = .os ∨ ∃ status body, x.run = .refused status body ∧ httpError status body = e := by
  rcases hrun : x.run with _ | ⟨status, body⟩ | value
  · rw [hrun] at he
    exact Or.inl (Except.error.inj he).symm
  · rw [hrun] at he
    exact Or.inr ⟨status, body, rfl, Except.error.inj he⟩
  · obtain ⟨run, rfl, hdict, hhash⟩ := h.run value hrun
    rw [hrun, askRun, hdict, hhash, if_neg (by decide)] at he
    exact absurd he nofun

theorem over_of_askRun (h : askRun cursor x.run = .ok true) :
    ∃ run, x.run = .body (some run) ∧ isOver run cursor = true := by
  rcases hrun : x.run with _ | ⟨status, body⟩ | _ | run
  · rw [hrun] at h
    exact absurd h nofun
  · rw [hrun] at h
    exact absurd h nofun
  · rw [hrun] at h
    exact absurd h nofun
  · rw [hrun, askRun] at h
    split_ifs at h
    exact ⟨run, rfl, Except.ok.inj h⟩

variable (runId cursor) in
/-- **A turn whose answers are readable** ends the loop where the run is over, or with a failure of
the transport, a stream that is over, or an error of the gateway. -/
theorem turn_of_readable (h : Readable x) :
    match (turn runId cursor x).result with
    | .ok () => ∃ run, x.run = .body (some run) ∧ isOver run (turn runId cursor x).cursor = true
    | .error e => e = .os ∨ e = streamClosed ∨ Refused runId cursor x e := by
  rw [turn]
  rcases hevents : x.events with _ | ⟨status, body⟩ | ⟨lines, received, raises⟩
  · exact Or.inl rfl
  · exact Or.inr (Or.inr (.events hevents))
  dsimp only
  obtain ⟨hcut, -⟩ := h.stream lines received raises hevents
  generalize hpayloads :
    Python.responsePayloads ((streamBytes lines).take received) raises = payloads
  rcases herror : (Python.consume runId cursor payloads.error payloads.items).error with _ | e
  · dsimp only
    rcases hask : askRun (Python.consume runId cursor payloads.error payloads.items).cursor
        x.run with e | _ | _
    · rcases askRun_of_readable h hask with hos | ⟨status, body, hrun, rfl⟩
      · exact Or.inl hos
      · rw [← hpayloads] at herror
        exact Or.inr (Or.inr (.run hevents herror hrun))
    · exact Or.inr (Or.inl rfl)
    · exact over_of_askRun hask
  · rw [← hpayloads] at herror
    exact (Python.consume_cut runId hcut cursor herror).imp_right fun hwhole ↦
      Or.inr (.stream hevents hwhole)

/-! ## Runs -/

namespace Followed

/-- **What is promised of one turn** of a run that is followed from `after` on: it asks from the
last event that was yielded; it returns where the run is over and its last event is one of those up
to the cursor; it raises where the gateway refuses to go on, or where the retries are used up; and
otherwise it goes on, with one retry less. -/
structure Promised (f : Followed) (after : ℕ) (s : Following) (x : Exchange) : Prop where
  asks : (f.step s x).asked = s.asked ++ [(after : ℤ) + s.yielded.length]
  outcome :
    match (f.step s x).outcome with
    | some (.ok ()) => ∃ run, x.run = .body (some run) ∧
        isOver run (after + (f.step s x).yielded.length) = true
    | some (.error e) =>
      Refused f.runId s.cursor x e ∧ e.isRetryable = false ∨
        e = retriesExhausted f.maxRetries ∧ s.retries = f.maxRetries
    | none => (f.step s x).retries = s.retries + 1 ∧ (f.step s x).retries ≤ f.maxRetries

/-- What is promised of following a run. -/
structure Follows (f : Followed) (after : ℕ) (exchanges : List Exchange) : Prop where
  counted : (f.run after exchanges).yielded.map Event.sequence =
    numbersAfter after (f.run after exchanges).yielded.length
  turns : ∀ before x rest, exchanges = before ++ x :: rest →
    (f.run after before).outcome = none → f.Promised after (f.run after before) x
  agree : ∀ x ∈ exchanges, ∀ lines received raises, x.events = .stream lines received raises →
    ∀ chunks : List Bytes, chunks.flatten = streamBytes lines →
      Agree (Python.readEvents f.runId (streamBytes lines))
        (TypeScript.readEvents f.runId chunks)

variable {f : Followed} {after : ℕ} {s : Following}

theorem promised_of_readable (hinv : f.Inv after s) (hs : s.outcome = none) (h : Readable x) :
    f.Promised after s x := by
  obtain ⟨hcursor, hyielded, hasked, houtcome⟩ := steps (f := f) (x := x) hs
  have hafter := (hinv.step x).counted.cursor
  have hturn := turn_of_readable f.runId s.cursor h
  refine ⟨by rw [hasked, hinv.counted.cursor], ?_⟩
  rcases houtcome with ⟨hresult, hsome, -⟩ | ⟨e, hresult, ⟨hretry, hsome, -⟩ |
    ⟨-, hmany, hsome, -⟩ | ⟨-, hleft, hnone, hretries⟩⟩
  · rw [hresult] at hturn
    rw [hsome]
    rw [← hcursor, hafter] at hturn
    exact hturn
  · rw [hresult] at hturn
    rw [hsome]
    rcases hturn with rfl | rfl | hrefused
    · exact absurd hretry (by decide)
    · exact absurd hretry (by decide +kernel)
    · exact Or.inl ⟨hrefused, hretry⟩
  · rw [hsome]
    have hle := hinv.retries hs
    exact Or.inr ⟨rfl, by omega⟩
  · rw [hnone]
    exact ⟨hretries, hretries ▸ hleft⟩

/-- **A run is followed as promised** as long as the answers are readable. -/
theorem follows_of_readable {exchanges : List Exchange} (h : ∀ x ∈ exchanges, Readable x) :
    f.Follows after exchanges := by
  refine ⟨(Inv.run f after exchanges).counted.sequences, ?_, ?_⟩
  · rintro before x rest rfl hs
    exact promised_of_readable (Inv.run f after before) hs
      (h x (List.mem_append_right before List.mem_cons_self))
  · intro x hx lines received raises hevents chunks hchunks
    exact agree_of_readsAlike (h x hx |>.stream lines received raises hevents).2 hchunks

end Followed

/-! ## Two streams -/

instance (fields : List JsString) : Decidable (ReadsAlike fields) :=
  decidable_of_iff
    ((∀ field ∈ fields, Python.lstrip field = TypeScript.trimStart field) ∧
      frameData fields ≠ [] ∧ ReadAlike (frameData fields) ∧
      (∀ payload ∈ jsonParse (frameData fields), Python.asInteger (lookup "sequence" payload) =
        TypeScript.asSafeInteger (lookup "sequence" payload)) ∧
      ∀ payload ∈ jsonParse (frameData fields),
        Python.isDict (lookup "payload" payload) = TypeScript.isObject (lookup "payload" payload))
    ⟨fun h ↦ ⟨h.1, h.2.1, h.2.2.1, h.2.2.2.1, h.2.2.2.2⟩,
      fun h ↦ ⟨h.blanks, h.filled, h.text, h.sequence, h.payload⟩⟩

instance (lines : List Line) : Decidable (StreamReadsAlike lines) :=
  decidable_of_iff
    ((∀ l ∈ lines.head?, isDataLine l.unmarked.units = isDataLine l.units) ∧
      ∀ fields ∈ streamFrames lines, ReadsAlike fields)
    ⟨fun h ↦ ⟨h.1, h.2⟩, fun h ↦ ⟨h.mark, h.frames⟩⟩

/-- The first event of a run, in which a word has an accent. -/
def accentLine : Line where
  text := ("data: \x7b\"runId\":\"r\",\"sequence\":1,\"type\":\"t\",\"createdAt\":\"c\"," ++
    "\"payload\":\x7b\"text\":\"\u00e9\"\x7d\x7d").toList
  feedless := by decide
  returnless := by decide

def blankLine : Line := ⟨[], false, nofun, nofun⟩

/-- A run that is over with its first event. -/
def finishedRun : JsonText :=
  .object [(js "status", .string (js "SUCCEEDED")), (js "lastSequence", .number { whole := [1] })]

/-- A stream that is cut behind its first line, and then arrives whole. -/
def cutBehindLine : List Exchange :=
  [⟨.stream [accentLine, blankLine] 84 false, .body (some finishedRun)⟩,
    ⟨.stream [accentLine, blankLine] 200 false, .body (some finishedRun)⟩]

theorem readable_of_accent (received : ℕ) (raises : Bool)
    (h : decodeStrict (Python.rawLines ((streamBytes [accentLine, blankLine]).take received)).2 ≠
      none) :
    Readable ⟨.stream [accentLine, blankLine] received raises, .body (some finishedRun)⟩ := by
  have halike : StreamReadsAlike [accentLine, blankLine] := by decide +kernel
  constructor
  · rintro lines n raises' heq
    obtain ⟨rfl, rfl, rfl⟩ := EventAnswer.stream.inj heq
    exact ⟨Or.inr h, halike⟩
  · rintro value heq
    obtain rfl := RunAnswer.body.inj heq
    exact ⟨finishedRun, rfl, rfl, by decide +kernel⟩

/-- It is followed as promised, to the end of the run. -/
theorem follows_cutBehindLine : Followed.Follows ⟨js "r", 3⟩ 0 cutBehindLine ∧
    (Followed.run ⟨js "r", 3⟩ 0 cutBehindLine).outcome = some (.ok ()) := by
  refine ⟨Followed.follows_of_readable ?_, by decide +kernel⟩
  intro x hx
  rcases List.mem_cons.mp hx with rfl | hx
  · exact readable_of_accent _ _ (by decide +kernel)
  · rw [List.mem_singleton.mp hx]
    exact readable_of_accent _ _ (by decide +kernel)

/-- A stream that is cut between the two bytes of a character. -/
def cutInCharacter : Exchange := ⟨.stream [accentLine, blankLine] 79 false, .failed⟩

/-- The error of the decoder ends the loop, with all retries left. -/
theorem not_follows : ¬Followed.Follows ⟨js "r", 3⟩ 0 [cutInCharacter] := by
  intro h
  have houtcome : (Followed.step ⟨js "r", 3⟩ (Followed.run ⟨js "r", 3⟩ 0 [])
      cutInCharacter).outcome = some (.error .unicodeDecode) := by decide +kernel
  have hwhole : (Python.consume (js "r") 0
      (Python.responsePayloads (streamBytes [accentLine, blankLine]) false).error
      (Python.responsePayloads (streamBytes [accentLine, blankLine]) false).items).error =
        none := by
    decide +kernel
  have hpromised := (h.turns [] cutInCharacter [] rfl rfl).outcome
  rw [houtcome] at hpromised
  rcases hpromised with ⟨hrefused, -⟩ | ⟨hexhausted, -⟩
  · generalize he : SdkError.unicodeDecode = e at hrefused
    rcases hrefused with ⟨hevents⟩ | ⟨hevents, herror⟩ | ⟨-, -, hrun⟩
    · exact absurd hevents nofun
    · obtain ⟨rfl, -, -⟩ := EventAnswer.stream.inj hevents
      exact absurd (hwhole.symm.trans herror) nofun
    · exact absurd hrun nofun
  · exact absurd hexhausted nofun

end LiteHarness.Sdk
