import LiteHarness.Sdk.StreamFrames

/-!
# The Python SDK follows a run

`events` asks for the events behind its cursor, reads the stream, asks for the run when the stream
is over, and begins again as long as it has retries left. An answer of the gateway is a stream of
which some bytes arrive, an error response, or nothing but a failure of the transport; whatever the
answers are, what is yielded is counted without a gap (`Followed.Inv.run`).
-/

namespace LiteHarness.Sdk

open Foundation Provider

/-! ## Answers -/

/-- The answer to a request for events. -/
inductive EventAnswer where
  /-- `urlopen` raises an `OSError`. -/
  | failed
  /-- An HTTP error, with its body as `json.loads` reads it, if it does. -/
  | refused (status : ℕ) (body : Option JsonText)
  /-- A stream of which some bytes arrive. Behind them the transport raises an `OSError`, or the
  body ends. -/
  | stream (lines : List Line) (received : ℕ) (raises : Bool)

/-- The answer to a request for the run. -/
inductive RunAnswer where
  | failed
  | refused (status : ℕ) (body : Option JsonText)
  /-- A body, as `json.load` reads it; where it is cut, that raises a `ValueError`. -/
  | body (value : Option JsonText)

/-- The answers of one turn of the loop. The run is asked for where the stream is over. -/
structure Exchange where
  events : EventAnswer
  run : RunAnswer

/-- A number as Python has it: an integer as it is written, or a float. -/
def numeralValue (n : JsonNumeral) : Numeral :=
  if n.isInteger then .finite n.integer else toDouble n.value

/-- `detail.get("version") == 1`. -/
def isVersionOne : Option JsonText → Bool
  | some (.number n) => numeralValue n = .finite 1
  | some (.bool b) => b
  | _ => false

/-- `bool(value)`. -/
def isTruthy : JsonText → Bool
  | .null => false
  | .bool b => b
  | .number n => numeralValue n ≠ .finite 0
  | .string s => s ≠ []
  | .array items => items.length ≠ 0
  | .object members => members.length ≠ 0
  | .constant => true

/-- `_http_error`. A message or a code that is no string counts as an empty one. -/
def httpError (status : ℕ) (body : Option JsonText) : SdkError :=
  let detail := body.bind (lookup "error")
  if Python.isDict detail && isVersionOne (detail.bind (lookup "version")) then
    let text (key : String) (other : JsString) : JsString :=
      match detail.bind (lookup key) with
      | none => other
      | some value => (asString (some value)).getD []
    .harness (text "message" (js "HTTP " ++ decimal status)) (text "code" (js "request_failed"))
      (some status) ((detail.bind (lookup "retryable")).any isTruthy)
  else .harness (js "HTTP " ++ decimal status) (js "invalid_error_response") (some status) false

/-- `_TERMINAL_RUN_STATUSES`. -/
def terminalRunStatuses : List JsString :=
  [js "SUCCEEDED", js "FAILED", js "CANCELLED", js "TIMED_OUT", js "ORPHANED"]

/-- `isinstance(value, int)`. -/
def asInt : Option JsonText → Option ℤ
  | some (.bool b) => some (if b then 1 else 0)
  | value => Python.asInteger value

/-- Whether a value can be looked for in a set. -/
def isHashable : Option JsonText → Bool
  | some (.object _) => false
  | some (.array _) => false
  | _ => true

/-- The run is over, and its last event is one of those up to the cursor. -/
def isOver (run : JsonText) (cursor : ℤ) : Bool :=
  (asString (lookup "status" run)).any (· ∈ terminalRunStatuses) &&
    (asInt (lookup "lastSequence" run)).any (· ≤ cursor)

/-- `self.get_run(run_id)`, and whether that is the end. -/
def askRun (cursor : ℤ) : RunAnswer → Except SdkError Bool
  | .failed => .error .os
  | .refused status body => .error (httpError status body)
  | .body none => .error .value
  | .body (some run) =>
    if Python.isDict (some run) = false ∨ isHashable (lookup "status" run) = false then
      .error .misuse
    else .ok (isOver run cursor)

/-- The error of a stream that is over before the run is. -/
def streamClosed : SdkError :=
  .harness (js "Event stream closed before the run reached a terminal state")
    (js "event_stream_error") none true

/-! ## The loop -/

/-- What one turn of the loop does: it yields events and moves the cursor, and returns or raises. -/
structure Turn where
  yielded : List Event
  cursor : ℤ
  result : Except SdkError Unit

/-- One turn of the loop of `events`. -/
def turn (runId : JsString) (cursor : ℤ) (x : Exchange) : Turn :=
  match x.events with
  | .failed => ⟨[], cursor, .error .os⟩
  | .refused status body => ⟨[], cursor, .error (httpError status body)⟩
  | .stream lines received raises =>
    let payloads := Python.responsePayloads ((streamBytes lines).take received) raises
    let consumed := Python.consume runId cursor payloads.error payloads.items
    ⟨consumed.yielded, consumed.cursor,
      match consumed.error with
      | some e => .error e
      | none =>
        match askRun consumed.cursor x.run with
        | .error e => .error e
        | .ok false => .error streamClosed
        | .ok true => .ok ()⟩

/-- The run that is followed, and how often its stream may be asked for again. -/
structure Followed where
  runId : JsString
  maxRetries : ℕ

/-- What a caller of `events` has seen, and the cursors it has asked from. -/
structure Following where
  cursor : ℤ
  retries : ℕ := 0
  yielded : List Event := []
  asked : List ℤ := []
  outcome : Option (Except SdkError Unit) := none

/-- `Event stream retries exhausted after … reconnects`. -/
def retriesExhausted (maxRetries : ℕ) : SdkError :=
  .harness (js "Event stream retries exhausted after " ++ decimal maxRetries ++ js " reconnects")
    (js "event_stream_retry_exhausted") none false

namespace Followed

variable (f : Followed)

/-- What is done about the result of a turn. -/
def settle (s : Following) (result : Except SdkError Unit) : Following :=
  match result with
  | .ok () => { s with outcome := some (.ok ()) }
  | .error e =>
    if e.isRetryable = false then { s with outcome := some (.error e) }
    else if f.maxRetries < s.retries + 1 then
      { s with
        retries := s.retries + 1
        outcome := some (.error (retriesExhausted f.maxRetries)) }
    else { s with retries := s.retries + 1 }

/-- One turn of the loop, with what is done about its result. -/
def step (s : Following) (x : Exchange) : Following :=
  if s.outcome.isSome then s
  else
    let t := turn f.runId s.cursor x
    f.settle { s with
      cursor := t.cursor
      yielded := s.yielded ++ t.yielded
      asked := s.asked ++ [s.cursor] } t.result

/-- `events(run_id, after)`, answered so far. -/
def run (after : ℕ) (exchanges : List Exchange) : Following :=
  exchanges.foldl f.step { cursor := after }

end Followed

/-! ## Counting -/

/-- The numbers behind a cursor. -/
def numbersAfter (cursor : ℤ) (n : ℕ) : List ℤ := (List.range n).map fun i : ℕ ↦ cursor + 1 + i

theorem numbersAfter_succ (cursor : ℤ) (n : ℕ) :
    numbersAfter cursor (n + 1) = (cursor + 1) :: numbersAfter (cursor + 1) n := by
  rw [numbersAfter, numbersAfter, List.range_succ_eq_map, List.map_cons, List.map_map]
  refine congrArg₂ List.cons (by simp) (List.map_congr_left fun i _ ↦ ?_)
  simp only [Function.comp_apply, Nat.succ_eq_add_one, Nat.cast_add, Nat.cast_one]
  ring

theorem numbersAfter_append (cursor : ℤ) (m n : ℕ) :
    numbersAfter cursor m ++ numbersAfter (cursor + m) n = numbersAfter cursor (m + n) := by
  induction m generalizing cursor with
  | zero => simp [numbersAfter]
  | succ m ih =>
    have hmid : cursor + ((m + 1 : ℕ) : ℤ) = cursor + 1 + m := by
      push_cast
      ring
    rw [numbersAfter_succ, hmid, List.cons_append, ih, Nat.add_right_comm, numbersAfter_succ]

/-- Events that are yielded from a cursor on, and the cursor behind them. -/
structure Counted (cursor : ℤ) (yielded : List Event) (cursor' : ℤ) : Prop where
  sequences : yielded.map Event.sequence = numbersAfter cursor yielded.length
  cursor : cursor' = cursor + yielded.length

theorem counted_nil (cursor : ℤ) : Counted cursor [] cursor := ⟨rfl, (add_zero cursor).symm⟩

theorem Counted.append {c c' c'' : ℤ} {yielded more : List Event} (h : Counted c yielded c')
    (h' : Counted c' more c'') : Counted c (yielded ++ more) c'' := by
  constructor
  · rw [List.map_append, h.sequences, h'.sequences, h.cursor, numbersAfter_append,
      List.length_append]
  · rw [h'.cursor, h.cursor, List.length_append]
    push_cast
    ring

/-- **No event is left out** of what a stream yields, and none comes twice. -/
theorem counted_consume (runId : JsString) (error : Option SdkError) (payloads : List JsonText)
    (cursor : ℤ) : Counted cursor (Python.consume runId cursor error payloads).yielded
      (Python.consume runId cursor error payloads).cursor := by
  induction payloads generalizing cursor with
  | nil => exact counted_nil cursor
  | cons payload payloads ih =>
    rw [Python.consume]
    rcases Python.validateEventPayload runId payload with e | sequence
    · exact counted_nil cursor
    dsimp only
    split_ifs with hseen hgap
    · exact ih cursor
    · exact counted_nil cursor
    · obtain rfl : sequence = cursor + 1 := not_not.mp hgap
      have hrest := ih (cursor + 1)
      constructor
      · rw [List.map_cons, hrest.sequences, List.length_cons, numbersAfter_succ]
      · dsimp only
        rw [hrest.cursor, List.length_cons]
        push_cast
        ring

theorem counted_turn (runId : JsString) (cursor : ℤ) (x : Exchange) :
    Counted cursor (turn runId cursor x).yielded (turn runId cursor x).cursor := by
  rw [turn]
  rcases x.events with _ | ⟨status, body⟩ | ⟨lines, received, raises⟩
  · exact counted_nil cursor
  · exact counted_nil cursor
  · exact counted_consume _ _ _ _

namespace Followed

variable (f : Followed)

/-- **One turn**, from a state that is not the end. -/
structure Steps (s : Following) (x : Exchange) : Prop where
  cursor : (f.step s x).cursor = (turn f.runId s.cursor x).cursor
  yielded : (f.step s x).yielded = s.yielded ++ (turn f.runId s.cursor x).yielded
  asked : (f.step s x).asked = s.asked ++ [s.cursor]
  outcome :
    ((turn f.runId s.cursor x).result = .ok () ∧ (f.step s x).outcome = some (.ok ()) ∧
      (f.step s x).retries = s.retries) ∨
    ∃ e, (turn f.runId s.cursor x).result = .error e ∧
      (e.isRetryable = false ∧ (f.step s x).outcome = some (.error e) ∧
          (f.step s x).retries = s.retries ∨
        e.isRetryable = true ∧ f.maxRetries < s.retries + 1 ∧
          (f.step s x).outcome = some (.error (retriesExhausted f.maxRetries)) ∧
          (f.step s x).retries = s.retries + 1 ∨
        e.isRetryable = true ∧ s.retries + 1 ≤ f.maxRetries ∧ (f.step s x).outcome = none ∧
          (f.step s x).retries = s.retries + 1)

variable {f} {s : Following} {x : Exchange}

/-- Settling a result changes the outcome and the retries. -/
theorem settle_spec (s : Following) (result : Except SdkError Unit) :
    (f.settle s result).cursor = s.cursor ∧ (f.settle s result).yielded = s.yielded ∧
      (f.settle s result).asked = s.asked := by
  rcases result with e | _
  · rw [settle]
    split_ifs <;> exact ⟨rfl, rfl, rfl⟩
  · exact ⟨rfl, rfl, rfl⟩

theorem steps (h : s.outcome = none) : f.Steps s x := by
  have hgoes : ¬s.outcome.isSome = true := by
    rw [h]
    exact Bool.false_ne_true
  have hstep : f.step s x = f.settle { s with
      cursor := (turn f.runId s.cursor x).cursor
      yielded := s.yielded ++ (turn f.runId s.cursor x).yielded
      asked := s.asked ++ [s.cursor] } (turn f.runId s.cursor x).result := if_neg hgoes
  obtain ⟨hcursor, hyielded, hasked⟩ := settle_spec (f := f) { s with
      cursor := (turn f.runId s.cursor x).cursor
      yielded := s.yielded ++ (turn f.runId s.cursor x).yielded
      asked := s.asked ++ [s.cursor] } (turn f.runId s.cursor x).result
  refine ⟨hstep ▸ hcursor, hstep ▸ hyielded, hstep ▸ hasked, ?_⟩
  rw [hstep]
  rcases (turn f.runId s.cursor x).result with e | _
  · refine Or.inr ⟨e, rfl, ?_⟩
    rw [settle]
    dsimp only
    by_cases hretry : e.isRetryable = false
    · rw [if_pos hretry]
      exact Or.inl ⟨hretry, rfl, rfl⟩
    · have hretry' := Bool.eq_true_of_not_eq_false hretry
      rw [if_neg hretry]
      split_ifs with hmany
      · exact Or.inr (Or.inl ⟨hretry', hmany, rfl, rfl⟩)
      · exact Or.inr (Or.inr ⟨hretry', not_lt.mp hmany, h, rfl⟩)
  · exact Or.inl ⟨rfl, rfl, rfl⟩

theorem step_of_over {outcome : Except SdkError Unit} (h : s.outcome = some outcome) :
    f.step s x = s := by
  rw [step, h]
  rfl

/-- What holds of a run so far: its events are counted from `after` on, and it goes on only as long
as it has retries left. -/
structure Inv (f : Followed) (after : ℕ) (s : Following) : Prop where
  counted : Counted after s.yielded s.cursor
  retries : s.outcome = none → s.retries ≤ f.maxRetries

theorem inv_init (after : ℕ) : f.Inv after { cursor := after } :=
  ⟨counted_nil after, fun _ ↦ Nat.zero_le _⟩

theorem Inv.step {after : ℕ} (h : f.Inv after s) (x : Exchange) : f.Inv after (f.step s x) := by
  rcases hs : s.outcome with _ | outcome
  · obtain ⟨hcursor, hyielded, -, houtcome⟩ := steps (f := f) (x := x) hs
    refine ⟨?_, fun hnone ↦ ?_⟩
    · rw [hcursor, hyielded]
      exact h.counted.append (counted_turn f.runId s.cursor x)
    · rcases houtcome with ⟨-, hsome, -⟩ | ⟨e, -, ⟨-, hsome, -⟩ | ⟨-, -, hsome, -⟩ |
        ⟨-, hleft, -, hretries⟩⟩
      · exact absurd (hsome.symm.trans hnone) (Option.some_ne_none _)
      · exact absurd (hsome.symm.trans hnone) (Option.some_ne_none _)
      · exact absurd (hsome.symm.trans hnone) (Option.some_ne_none _)
      · rwa [hretries]
  · rwa [step_of_over hs]

theorem Inv.run (f : Followed) (after : ℕ) (exchanges : List Exchange) :
    f.Inv after (f.run after exchanges) := by
  induction exchanges using List.reverseRecOn with
  | nil => exact inv_init after
  | append_singleton exchanges x ih =>
    rw [Followed.run, List.foldl_append, List.foldl_cons, List.foldl_nil]
    exact ih.step x

end Followed

end LiteHarness.Sdk
