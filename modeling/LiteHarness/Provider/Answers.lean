import LiteHarness.Foundation.Checks
import LiteHarness.Foundation.Generators
import LiteHarness.Foundation.OrderedMap
import LiteHarness.Provider.Models

/-!
# Answers

What the adapters yield of an answer of a provider, and what its readers see of it: the text that
the deltas make, the calls, the usage and the reason it finished with, or the error it failed with.
Each adapter has two decoders of an answer, one for a JSON body and one for a stream of events.

The arguments of a call are whatever JSON value was sent. `JSON.parse` is a parameter, with what the
decoders rely on.
-/

namespace LiteHarness.Provider

open Foundation

/-- `JSON.parse`, where `none` is a `SyntaxError`. -/
structure JsonReader where
  parse : JsString → Option JsValue
  /-- The empty text is not a JSON text. -/
  parse_nil : parse [] = none
  /-- The empty object is one. -/
  parse_braces : parse (js "\x7b\x7d") = some (.object [])

/-- A reader that knows the empty object. -/
def bracesReader : JsonReader where
  parse text := if text = js "\x7b\x7d" then some (.object []) else none
  parse_nil := rfl
  parse_braces := rfl

/-- A call as an adapter yields it. -/
structure ReceivedCall where
  id : JsString
  name : JsString
  arguments : JsValue

/-- What an adapter yields after the request was accepted. -/
inductive AnswerEvent where
  | textDelta (delta : JsString)
  | toolCall (call : ReceivedCall)
  | usage (usage : UsageEvent)
  | completed (finishReason : FinishReason)

/-- What a decoder yields and how it ends. -/
abbrev Decoded := Generated AnswerEvent ProviderError

/-- `if (text) yield { type: "text.delta", delta: text }`. -/
def textEvents (text : JsString) : List AnswerEvent := if text = [] then [] else [.textDelta text]

/-- An error of the adapter, which is not retried. -/
def providerError (code message : String) : ProviderError := ⟨js code, js message, false⟩

/-- The loop that reads and yields one call after the other, until one is refused. -/
def emitCalls {α : Type} (read : α → Except ProviderError ReceivedCall) : List α → Decoded
  | [] => .yields []
  | call :: calls =>
    match read call with
    | .error e => .throws e
    | .ok received => (Generated.yields [.toolCall received]).andThen (emitCalls read calls)

/-- A call whose pieces are joined while a stream is read. -/
structure PendingCall where
  id : JsString := []
  name : JsString := []
  arguments : JsString := []
  deriving DecidableEq

/-! ## What is seen of an answer -/

/-- What the events of an answer say. -/
structure Answer where
  text : JsString
  calls : List ReceivedCall
  usage : List UsageEvent
  finish : List FinishReason

def AnswerEvent.text : AnswerEvent → JsString
  | .textDelta delta => delta
  | _ => []

def AnswerEvent.call? : AnswerEvent → Option ReceivedCall
  | .toolCall call => some call
  | _ => none

def AnswerEvent.usage? : AnswerEvent → Option UsageEvent
  | .usage report => some report
  | _ => none

def AnswerEvent.finish? : AnswerEvent → Option FinishReason
  | .completed reason => some reason
  | _ => none

def Answer.of (events : List AnswerEvent) : Answer where
  text := events.flatMap AnswerEvent.text
  calls := events.filterMap AnswerEvent.call?
  usage := events.filterMap AnswerEvent.usage?
  finish := events.filterMap AnswerEvent.finish?

/-- One part after the other. -/
def Answer.append (a b : Answer) : Answer :=
  ⟨a.text ++ b.text, a.calls ++ b.calls, a.usage ++ b.usage, a.finish ++ b.finish⟩

/-- **The outcome** of a decoder: the answer, or the code of its error. -/
def outcome (decoded : Decoded) : Except JsString Answer :=
  match decoded.error with
  | none => .ok (Answer.of decoded.items)
  | some e => .error e.code

/-- The answer, or the error. -/
def result (decoded : Decoded) : Except ProviderError Answer :=
  match decoded.error with
  | none => .ok (Answer.of decoded.items)
  | some e => .error e

theorem Answer.of_append (events events' : List AnswerEvent) :
    Answer.of (events ++ events') = (Answer.of events).append (Answer.of events') := by
  rw [Answer.of, List.flatMap_append, List.filterMap_append, List.filterMap_append,
    List.filterMap_append]
  rfl

/-- Deltas are seen as the text they make. -/
theorem Answer.of_flatMap_textEvents (texts : List JsString) :
    Answer.of (texts.flatMap textEvents) = ⟨texts.flatten, [], [], []⟩ := by
  induction texts with
  | nil => rfl
  | cons text texts ih =>
    rw [List.flatMap_cons, Answer.of_append, ih, textEvents, List.flatten_cons]
    split
    · rename_i hnil
      rw [hnil]
      rfl
    · rw [Answer.append, Answer.of, List.flatMap_singleton]
      rfl

theorem Answer.of_textEvents (text : JsString) :
    Answer.of (textEvents text) = ⟨text, [], [], []⟩ := by
  have := Answer.of_flatMap_textEvents [text]
  rwa [List.flatMap_singleton, List.flatten_singleton] at this

theorem Answer.of_map_toolCall (calls : List ReceivedCall) :
    Answer.of (calls.map .toolCall) = ⟨[], calls, [], []⟩ := by
  induction calls with
  | nil => rfl
  | cons call calls ih =>
    rw [List.map_cons, ← List.singleton_append, Answer.of_append, ih]
    rfl

theorem Answer.of_map_usage (reports : List UsageEvent) :
    Answer.of (reports.map .usage) = ⟨[], [], reports, []⟩ := by
  induction reports with
  | nil => rfl
  | cons report reports ih =>
    rw [List.map_cons, ← List.singleton_append, Answer.of_append, ih]
    rfl

theorem Answer.of_completed (reason : FinishReason) :
    Answer.of [.completed reason] = ⟨[], [], [], [reason]⟩ := rfl

/-- The result of a decoder behind some events depends on what is seen of them. -/
theorem result_congr {events events' : List AnswerEvent} (h : Answer.of events = Answer.of events')
    (decoded : Decoded) :
    result ((Generated.yields events).andThen decoded) =
      result ((Generated.yields events').andThen decoded) := by
  rw [Generated.yields_andThen, Generated.yields_andThen, result, result]
  rcases decoded.error with _ | e
  · dsimp only
    rw [Answer.of_append, Answer.of_append, h]
  · rfl

/-- A decoder that throws does so behind some events. -/
theorem result_yields_andThen_of_error {decoded : Decoded} {e : ProviderError}
    (h : decoded.error = some e) (events : List AnswerEvent) :
    result ((Generated.yields events).andThen decoded) = .error e := by
  rw [Generated.yields_andThen, result, h]

theorem result_of_error {decoded : Decoded} {e : ProviderError} (h : decoded.error = some e) :
    result decoded = .error e := by
  rw [result, h]

/-! ## Calls -/

variable {α : Type} {read : α → Except ProviderError ReceivedCall} {calls : List α}

theorem emitCalls_of_ok {received : List ReceivedCall} (h : calls.mapM read = .ok received) :
    emitCalls read calls = .yields (received.map .toolCall) := by
  have hall := mapM_eq_ok_iff.mp h
  clear h
  induction hall with
  | nil => rfl
  | cons hhead _ ih =>
    rw [emitCalls, hhead]
    dsimp only
    rw [ih]
    rfl

theorem error_emitCalls {e : ProviderError} (h : calls.mapM read = .error e) :
    (emitCalls read calls).error = some e := by
  obtain ⟨pre, call, post, rfl, hpre, hcall⟩ := mapM_eq_error_iff.mp h
  clear h
  induction pre with
  | nil =>
    rw [List.nil_append, emitCalls, hcall]
    rfl
  | cons call' pre ih =>
    obtain ⟨⟨received, hreceived⟩, hpre⟩ := List.forall_mem_cons.mp hpre
    rw [List.cons_append, emitCalls, hreceived]
    exact ih hpre

/-- The outcome of a decoder that has read the calls. -/
def answerWith (text : JsString) (usage : List UsageEvent) (finish : FinishReason) :
    Except ProviderError (List ReceivedCall) → Except JsString Answer
  | .error e => .error e.code
  | .ok received => .ok ⟨text, received, usage, [finish]⟩

/-- **The outcome of a decoder** that yields, reads the calls and yields again. -/
theorem outcome_emitCalls {pre post : List AnswerEvent} {text : JsString}
    {before behind : List UsageEvent} {finish : FinishReason}
    (hpre : Answer.of pre = ⟨text, [], before, []⟩)
    (hpost : Answer.of post = ⟨[], [], behind, [finish]⟩) :
    outcome ((Generated.yields pre).andThen ((emitCalls read calls).andThen (.yields post))) =
      answerWith text (before ++ behind) finish (calls.mapM read) := by
  rcases h : calls.mapM read with e | received
  · rw [Generated.andThen_of_error (error_emitCalls h), Generated.yields_andThen, outcome,
      error_emitCalls h]
    rfl
  · rw [emitCalls_of_ok h]
    show Except.ok (Answer.of (pre ++ (received.map .toolCall ++ post))) = _
    rw [Answer.of_append, Answer.of_append, Answer.of_map_toolCall, hpre, hpost, answerWith]
    simp only [Answer.append, List.append_nil, List.nil_append]

end LiteHarness.Provider
