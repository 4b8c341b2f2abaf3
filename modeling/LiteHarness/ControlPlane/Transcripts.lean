import LiteHarness.ControlPlane.Consistency
import LiteHarness.Foundation.Suspension

/-!
# What the agent loop says to the model

A provider takes a conversation only if every tool message answers a call of the assistant message
in front of it, and every call is answered before anyone else speaks. `pairing` reads a conversation
message by message and keeps the calls that are still to be answered.

What the loop adds to the conversation it opens with is in order, and has one assistant message for
each turn, whatever is steered, cancelled or timed out in between (`transcripts_paired`). What it
opens with comes from the session and the context compiler, and nothing is said about it.
-/

namespace LiteHarness

open Foundation Foundation.Eff

/-! ## Conversations -/

/-- The calls that are still to be answered after one more message, if it is in order. -/
def pairing (awaited : Option (List JsString)) (message : ModelMessage) : Option (List JsString) :=
  match awaited, message.role with
  -- a result answers the first open call, as the loop runs the calls of a turn in their order
  | some (id :: rest), .tool => if message.toolCallId = some id then some rest else none
  | some [], .assistant => some (message.toolCalls.map ToolCall.id)
  | some [], .user => some []
  | some [], .system => some []
  -- a result nobody waits for, or a speaker who does not wait for the results
  | _, _ => none

/-- The calls that are still to be answered behind these messages, if all of them are in order. -/
def awaitedCalls (messages : List ModelMessage) : Option (List JsString) :=
  messages.foldl pairing (some [])

/-- How often the model has spoken. -/
def spoken (messages : List ModelMessage) : ℕ :=
  (messages.filter fun m ↦ m.role = .assistant).length

theorem awaitedCalls_concat (messages : List ModelMessage) (m : ModelMessage) :
    awaitedCalls (messages ++ [m]) = pairing (awaitedCalls messages) m := by
  rw [awaitedCalls, List.foldl_append]
  rfl

theorem spoken_append (messages more : List ModelMessage) :
    spoken (messages ++ more) = spoken messages + spoken more := by
  rw [spoken, List.filter_append, List.length_append, spoken, spoken]

/-- What users say is in order where nothing is to be answered. -/
theorem awaitedCalls_users {messages users : List ModelMessage}
    (h : awaitedCalls messages = some []) (husers : ∀ m ∈ users, m.role = .user) :
    awaitedCalls (messages ++ users) = some [] ∧ spoken (messages ++ users) = spoken messages := by
  induction users generalizing messages with
  | nil => exact ⟨by rwa [List.append_nil], by rw [List.append_nil]⟩
  | cons m users ih =>
    have hm := husers m List.mem_cons_self
    have hfirst : awaitedCalls (messages ++ [m]) = some [] := by
      rw [awaitedCalls_concat, h]
      unfold pairing
      rw [hm]
    have hcount : spoken [m] = 0 := by simp [spoken, hm]
    obtain ⟨hrest, hspoken⟩ := ih hfirst fun m' h' ↦ husers m' (List.mem_cons_of_mem _ h')
    rw [List.append_cons]
    exact ⟨hrest, by rw [hspoken, spoken_append, hcount, Nat.add_zero]⟩

/-! ## Points of the loop -/

namespace AgentPoint

/-- The calls of the turn that have no result yet. -/
def awaited : AgentPoint → List ToolCall
  | .preparing | .streaming => []
  | .awaitingApproval call rest _ _ | .authorized call rest _ | .executing call rest => call :: rest

/-- Whether the model has spoken in this turn. -/
def answered : AgentPoint → ℕ
  | .preparing | .streaming => 0
  | _ => 1

end AgentPoint

/-- What the loop opens with. -/
def opening (run : RunRecord) (instructions : JsString) (context history : List ModelMessage) :
    List ModelMessage :=
  let instructions := trim instructions
  (if instructions = [] then [] else [{ role := .system, content := instructions }]) ++ context ++
    if history.isEmpty then [{ role := .user, content := run.input }] else history

/-- Behind what the loop has opened with, the messages are in order up to the awaited calls, and the
model has spoken so often. -/
def AgentState.Exchanged (run : RunRecord) (a : AgentState) (awaited : List ToolCall)
    (turns : ℕ) : Prop :=
  ∃ context history more, a.messages = opening run a.instructions context history ++ more ∧
    awaitedCalls more = some (awaited.map ToolCall.id) ∧ spoken more = turns

/-- The messages are those of the turn, and the turn is one of those the budget allows. -/
structure AgentState.Speaks (run : RunRecord) (p : AgentPoint) (a : AgentState) : Prop where
  exchanged : a.Exchanged run p.awaited (a.turn + p.answered)
  allowed : (a.turn : ℚ) < run.budget.maxTurns

/-- What holds of the messages while an execution is suspended at a point. -/
def Point.Transcribed (run : RunRecord) : Point → Prop
  | .agent .preparing a => a.turn = 0
  | .agent p a => a.Speaks run p
  | _ => True

theorem Point.transcribed_agent {run : RunRecord} {p : AgentPoint} {a : AgentState}
    (hp : p ≠ .preparing) : (Point.agent p a).Transcribed run ↔ a.Speaks run p := by
  cases p with
  | preparing => exact absurd rfl hp
  | _ => exact Iff.rfl

theorem Point.Transcribed.of_speaks {run : RunRecord} {p : AgentPoint} {a : AgentState}
    (h : a.Speaks run p) (hp : p ≠ .preparing) : (Point.agent p a).Transcribed run :=
  (Point.transcribed_agent hp).mpr h

theorem Point.Transcribed.answered {run : RunRecord} {point point' : Point}
    (h : point.Transcribed run) (ha : point.Answered point') : point'.Transcribed run := by
  rcases ha with rfl | ⟨call, rest, id, a, value, rfl, rfl⟩
  · exact h
  · exact ⟨h.exchanged, h.allowed⟩

/-- The loop has not begun, or is over. -/
def Point.Outside : Point → Prop
  | .agent .preparing a => a.turn = 0
  | .agent _ _ => False
  | _ => True

theorem Point.Outside.transcribed {point : Point} (h : point.Outside) (run : RunRecord) :
    point.Transcribed run := by
  unfold Point.Outside at h
  split at h
  · exact h
  · exact h.elim
  · rename_i hagent
    cases point with
    | agent p a => exact absurd rfl (hagent p a)
    | _ => trivial

namespace Service

variable {H : Host} {O : Options}

/-! ## Stretches of the loop -/

theorem takeSteering_yields (runId : JsString) :
    Yields (fun messages ↦ ∀ m ∈ messages, m.role = .user) (takeSteering runId) :=
  .gets fun s ↦ .bind fun _ ↦ .pure fun m hm ↦ by
    obtain ⟨instruction, -, rfl⟩ := List.mem_map.mp hm
    rfl

theorem beginTurn_transcribed (e : Execution) {a : AgentState}
    (h : a.Exchanged e.run [] a.turn) :
    Yields (Point.Transcribed e.run) (beginTurn H O e a) := by
  obtain ⟨context, history, more, hmessages, hawaited, hspoken⟩ := h
  refine .ite (fun hturn ↦ .bind fun _ ↦ .bind_of (takeSteering_yields e.runId) fun steering hs ↦
    .bind fun _ ↦ .bind fun _ ↦ .pure ?_) fun _ ↦ .throw
  -- steering is taken in between two turns, where no call is open
  obtain ⟨hawaited', hspoken'⟩ := awaitedCalls_users hawaited hs
  refine .of_speaks ⟨⟨context, history, more ++ steering, ?_, hawaited', ?_⟩, hturn⟩ (by simp)
  · rw [← List.append_assoc, ← hmessages]
  · exact hspoken'.trans hspoken

theorem endTurn_transcribed (e : Execution) {a : AgentState}
    (h : a.Exchanged e.run [] (a.turn + 1)) :
    Yields (Point.Transcribed e.run) (endTurn H O e a) :=
  .ite (fun _ ↦ .pure trivial) fun _ ↦ .ite (fun _ ↦ .throw) fun _ ↦ beginTurn_transcribed e h

theorem nextToolCall_transcribed (e : Execution) {a : AgentState} {calls : List ToolCall}
    (h : a.Exchanged e.run calls (a.turn + 1)) (hturn : (a.turn : ℚ) < e.run.budget.maxTurns) :
    Yields (Point.Transcribed e.run) (nextToolCall H O e a calls) := by
  cases calls with
  | nil => exact endTurn_transcribed e h
  | cons call rest =>
    refine .bind fun _ ↦ .bind fun _ ↦ .bind fun approvalId ↦ ?_
    cases approvalId with
    | none => exact .pure (.of_speaks ⟨h, hturn⟩ (by simp))
    | some approvalId => exact .pure (.of_speaks ⟨h, hturn⟩ (by simp))

theorem agentPrepared_transcribed (e : Execution) {a : AgentState} (h : a.turn = 0)
    (preparation : AgentPreparation) :
    Yields (Point.Transcribed e.run) (agentPrepared H O e a preparation) := by
  have hbegin : Yields (Point.Transcribed e.run) (beginTurn H O e
      { a with messages := opening e.run a.instructions preparation.context a.messages }) :=
    beginTurn_transcribed e
      ⟨preparation.context, a.messages, [], (List.append_nil _).symm, rfl, h.symm⟩
  unfold agentPrepared
  cases e.attempt with
  | none => exact hbegin
  | some attempt => exact .ite (fun _ ↦ .bind fun _ ↦ hbegin) fun _ ↦ hbegin

theorem modelEvent_transcribed (e : Execution) {a : AgentState} (h : a.Speaks e.run .streaming)
    (event : ModelEvent) : Yields (Point.Transcribed e.run) (modelEvent H e a event) := by
  have hend : ∀ a' : AgentState, a'.instructions = a.instructions → a'.messages = a.messages →
      a'.turn = a.turn → Yields (Point.Transcribed e.run) (do
        throwIfAborted e.runId; pure (Point.agent .streaming a')) := by
    intro a' hinstructions hmessages hturn
    refine .bind fun _ ↦ .pure (.of_speaks ⟨?_, hturn ▸ h.allowed⟩ (by simp))
    obtain ⟨context, history, more, heq, hrest⟩ := h.exchanged
    exact ⟨context, history, more, by rw [hmessages, hinstructions, heq], by rwa [hturn]⟩
  unfold modelEvent
  split
  · exact .bind fun _ ↦ hend _ rfl rfl rfl
  · exact hend _ rfl rfl rfl
  · exact .bind_of (q := fun _ ↦ False) .throw fun _ h ↦ h.elim
  · exact .bind fun _ ↦ hend _ rfl rfl rfl
  · exact hend _ rfl rfl rfl

/-- The model has spoken: its calls are to be answered. -/
theorem modelDone_transcribed (e : Execution) {a : AgentState} (h : a.Speaks e.run .streaming) :
    Yields (Point.Transcribed e.run) (modelDone H O e a) := by
  obtain ⟨⟨context, history, more, hmessages, hawaited, hspoken⟩, hturn⟩ := h
  refine .ite (fun _ ↦ .throw) fun _ ↦ .ite (fun _ ↦ .throw) fun _ ↦ .bind fun _ ↦
    nextToolCall_transcribed e ?_ hturn
  -- the assistant's message opens the calls of its turn
  refine ⟨context, history,
    more ++ [{ role := .assistant, content := a.assistantText, toolCalls := a.toolCalls }],
    ?_, ?_, ?_⟩
  · rw [← List.append_assoc, ← hmessages]
  · rw [awaitedCalls_concat, hawaited]
    rfl
  · rw [spoken_append, hspoken]
    rfl

theorem approvalSettled_transcribed {run : RunRecord} {a : AgentState} {call : ToolCall}
    {rest : List ToolCall} {id : JsString} {decision : Option Bool}
    (h : a.Speaks run (.awaitingApproval call rest id decision)) (approved : Bool) :
    Yields (Point.Transcribed run) (approvalSettled a call rest id approved) :=
  .ite (fun _ ↦ .pure (.of_speaks ⟨h.exchanged, h.allowed⟩ (by simp))) fun _ ↦ .throw

theorem executeTool_transcribed (e : Execution) {a : AgentState} {call : ToolCall}
    {rest : List ToolCall} {approval : Option JsString}
    (h : a.Speaks e.run (.authorized call rest approval)) :
    Yields (Point.Transcribed e.run) (executeTool H e a call rest approval) := by
  have hexecuting : (Point.agent (.executing call rest) a).Transcribed e.run :=
    .of_speaks ⟨h.exchanged, h.allowed⟩ (by simp)
  unfold executeTool
  cases approval with
  | none => exact .ite (fun _ ↦ .bind fun _ ↦ .pure hexecuting) fun _ ↦ .throw
  | some id => exact .bind fun _ ↦ .ite (fun _ ↦ .bind fun _ ↦ .pure hexecuting) fun _ ↦ .throw

/-- A call is answered. -/
theorem toolReturned_transcribed (e : Execution) {a : AgentState} {call : ToolCall}
    {rest : List ToolCall} (h : a.Speaks e.run (.executing call rest)) {result : ToolResult}
    (hresult : result.callId = call.id) :
    Yields (Point.Transcribed e.run) (toolReturned H O e a call rest result) := by
  obtain ⟨⟨context, history, more, hmessages, hawaited, hspoken⟩, hturn⟩ := h
  have hnext : Yields (Point.Transcribed e.run) (nextToolCall H O e
      { a with messages := a.messages ++
        [{ role := .tool, content := result.content, toolCallId := some result.callId }] }
      rest) := by
    refine nextToolCall_transcribed e ⟨context, history, more ++
      [{ role := .tool, content := result.content, toolCallId := some result.callId }],
      ?_, ?_, ?_⟩ hturn
    · exact (congrArg (· ++ _) hmessages).trans (List.append_assoc _ _ _)
    -- the call that was executed is the first that is open
    · rw [awaitedCalls_concat, hawaited, hresult]
      exact if_pos rfl
    · rw [spoken_append, hspoken]
      rfl
  refine .bind fun artifact ↦ .bind fun _ ↦ ?_
  cases artifact with
  | none => exact hnext
  | some x => exact .bind fun _ ↦ hnext

/-- A stretch of the loop leaves its own run at the point it yields. -/
theorem agentStretch_execution? {m : ServiceM Point} {T : RunRecord → Point → Prop}
    {e e' : Execution} {s : Service} (hm : Performs H (agentLicence e) m)
    (hy : ∀ point s', m.run s = (.ok point, s') → T e.run point)
    (hrejected : ∀ error, T e.run (.rejected error)) (he : s.execution? e.runId = some e)
    (he' : ((agentStretch e.runId m).run s).2.execution? e.runId = some e') :
    T e'.run e'.point := by
  have hset : ∀ (point : Point) (s₁ : Service), Effects H (agentLicence e) s s₁ → T e.run point →
      ((setPoint e.runId point).run s₁).2.execution? e.runId = some e' → T e'.run e'.point := by
    intro point s₁ heffects hpoint he'
    -- the stretch has left the variables of its execution alone up to here, so its run is the same
    obtain ⟨-, hexecution, -⟩ := heffects.undisturbed (r := e.runId) id
    obtain ⟨e₁, he₁, hnudged⟩ := hexecution e he
    have hlookup : ((setPoint e.runId point).run s₁).2.execution? e.runId =
        some { e₁ with point } := by
      refine (execution?_update (f := fun e ↦ { e with point }) (fun _ ↦ rfl) e.runId).trans ?_
      rw [he₁, Option.map_some, if_pos (execution?_runId he₁)]
    obtain rfl := Option.some.inj (hlookup.symm.trans he')
    have hrun : e₁.run = e.run := by rw [hnudged.eq]
    exact hrun ▸ hpoint
  rw [agentStretch, run_bind, run_tryCatch] at he'
  have hperformed := hm s
  rcases hrun : m.run s with ⟨error | point, s₁⟩
  -- what the stretch throws rejects the loop's promise
  · rw [hrun] at he' hperformed
    exact hset _ s₁ hperformed (hrejected error) he'
  · rw [hrun] at he' hperformed
    exact hset _ s₁ hperformed (hy point s₁ hrun) he'

/-! ## Stretches in front of the loop and behind it -/

/-- If the loop of the run had not begun or was over, that is still so. -/
def StaysOut (r : JsString) (s s' : Service) : Prop :=
  (∀ e, s.execution? r = some e → e.point.Outside) →
    ∀ e, s'.execution? r = some e → e.point.Outside

namespace StaysOut

variable {r : JsString}

theorem refl (s : Service) : StaysOut r s s := id

theorem trans (s t w : Service) (h : StaysOut r s t) (h' : StaysOut r t w) : StaysOut r s w :=
  fun hs ↦ h' (h hs)

end StaysOut

/-- The program does not take the run into its loop, further than to its beginning. -/
def Avoids {α : Type} (r : JsString) (m : ServiceM α) : Prop := Evolves (StaysOut r) m

namespace Avoids

variable {r : JsString} {α β : Type}

theorem pure (a : α) : Avoids r (pure a) := Evolves.pure StaysOut.refl a

theorem throw (e : JsError) : Avoids r (throw e : ServiceM α) := Evolves.throw StaysOut.refl e

theorem still {m : ServiceM α} (h : Evolves Still m) : Avoids r m :=
  h.mono fun _ _ hstill hs e he ↦ hs e ((hstill.execution? r).symm.trans he)

theorem getRun (runId : JsString) : Avoids r (getRun runId) := StaysOut.refl

theorem gets {f : Service → ServiceM α} (hf : ∀ t, Avoids r (f t)) : Avoids r (get >>= f) :=
  Evolves.gets hf

theorem ite {c : Prop} [Decidable c] {m m' : ServiceM α} (hm : Avoids r m) (hm' : Avoids r m') :
    Avoids r (if c then m else m') := Evolves.ite hm hm'

theorem bind {m : ServiceM α} {f : α → ServiceM β} (hm : Avoids r m)
    (hf : ∀ a, Avoids r (f a)) : Avoids r (m >>= f) := Evolves.bind StaysOut.trans hm hf

theorem tryCatch {m : ServiceM α} {handler : JsError → ServiceM α} (hm : Avoids r m)
    (hh : ∀ e, Avoids r (handler e)) : Avoids r (tryCatch m handler) :=
  Evolves.tryCatch StaysOut.trans hm hh

theorem update {f : Execution → Execution} (hid : ∀ e, (f e).runId = e.runId)
    (hf : ∀ e, e.point.Outside → (f e).point.Outside) : Avoids r (updateExecution r f) := by
  intro s hs e he
  rw [updateExecution, run_modify, execution?, execution?_update hid] at he
  obtain ⟨e₀, he₀, rfl⟩ := Option.map_eq_some_iff.mp he
  split_ifs
  · exact hf e₀ (hs e₀ he₀)
  · exact hs e₀ he₀

/-- An assignment to another local variable. -/
theorem assign {f : Execution → Execution} (hid : ∀ e, (f e).runId = e.runId)
    (hf : ∀ e, (f e).point = e.point) : Avoids r (updateExecution r f) :=
  update hid fun e h ↦ by rwa [hf]

theorem setPoint {point : Point} (h : point.Outside) : Avoids r (setPoint r point) :=
  update (fun _ ↦ rfl) fun _ _ ↦ h

theorem modify {f : Service → Service} (hf : ∀ s, (f s).executions = s.executions) :
    Avoids r (Eff.modify f) := by
  intro s hs e he
  rw [run_modify, execution?, hf] at he
  exact hs e he

theorem now : Avoids r (now H) := .still now_still

theorem appendEvent (params : AppendRunEvent) : Avoids r (appendEvent H params) :=
  .still (appendEvent_still params)

end Avoids

section Outside

variable {r : JsString}

theorem checkpointFailed_avoids (error : JsError) :
    Avoids r (checkpointFailed H r error) :=
  .bind (.getRun _) fun _ ↦ .bind (.appendEvent _) fun _ ↦
    .assign (fun _ ↦ rfl) fun _ ↦ rfl

theorem releaseLease_avoids : Avoids r (releaseLease H r) := by
  have hend : Avoids r (do
      Eff.modify fun s : Service ↦
        { s with
          active := s.active.filter fun q ↦ q ≠ r
          steering := s.steering.filter fun entry ↦ entry.1 ≠ r }
      setPoint r .releasing : ServiceM PUnit) :=
    .bind (.modify fun _ ↦ rfl) fun _ ↦ .setPoint trivial
  refine .bind (.assign (fun _ ↦ rfl) fun _ ↦ rfl) fun _ ↦ .gets fun s ↦ ?_
  cases (s.execution? r).bind Execution.lease with
  | none => exact hend
  | some lease =>
    refine .bind .now fun t ↦ .bind (.still (onStore_still _)) fun released ↦
      .ite (.bind (.getRun _) fun latest ↦ ?_)
        (.bind (.assign (fun _ ↦ rfl) fun _ ↦ rfl) fun _ ↦ hend)
    cases latest with
    | none => exact hend
    | some latest => exact .bind (.appendEvent _) fun _ ↦ hend

theorem finallyBlock_avoids : Avoids r (finallyBlock H O r) := by
  refine .bind (.assign (fun _ ↦ rfl) fun _ ↦ rfl) fun _ ↦ .gets fun s ↦ ?_
  cases (s.execution? r).bind fun e ↦
      if e.workspacePrepared ∧ e.terminal.isSome then e.lease else none with
  | none => exact releaseLease_avoids
  | some lease =>
    refine .ite (.bind ?_ fun checkpointing ↦
      .ite (.setPoint trivial) releaseLease_avoids) releaseLease_avoids
    refine .tryCatch (.bind (.getRun _) fun run ↦ ?_)
      fun error ↦ .bind (checkpointFailed_avoids error) fun _ ↦ .pure _
    cases run with
    | none => exact .pure _
    | some run =>
      exact .bind .now fun t ↦ .gets fun s ↦ .ite (.pure _) (.throw _)

/-- A stretch of the `try` block outside of the loop. -/
theorem execution_avoids {body : ServiceM (Option Point)} (hbody : Avoids r body)
    (hy : Yields (fun next ↦ ∀ point ∈ next, point.Outside) body) :
    Avoids r (execution H O r body) := by
  -- an error of the body ends in the `finally` block, and so does a body without a next point
  refine .tryCatch (fun s ↦ ?_) fun _ ↦ .setPoint trivial
  have hmoved := hbody s
  have hfinally := finallyBlock_avoids (H := H) (O := O) (r := r)
  rw [tryBlock, run_bind, run_tryCatch]
  rcases hrun : body.run s with ⟨error | next, s₁⟩
  · rw [hrun] at hmoved
    have hassigned : StaysOut r s₁ _ := Avoids.assign (r := r)
      (f := fun e ↦ { e with terminal := some (failureOf e.abortReason error) })
      (fun _ ↦ rfl) (fun _ ↦ rfl) s₁
    exact StaysOut.trans _ _ _ hmoved (StaysOut.trans _ _ _ hassigned (hfinally _))
  · rw [hrun] at hmoved
    cases next with
    | none => exact StaysOut.trans _ _ _ hmoved (hfinally s₁)
    | some point =>
      exact StaysOut.trans _ _ _ hmoved
        (Avoids.setPoint (hy s _ s₁ hrun point rfl) s₁)

theorem throwIfAborted_still (runId : JsString) : Evolves Still (throwIfAborted runId) := by
  refine Evolves.gets fun s ↦ ?_
  cases (s.execution? runId).bind Execution.abortReason with
  | none => exact Still.refl
  | some reason => exact Still.refl

theorem transitionIfActive_still (runId : JsString) (status : RunStatus) (type : RunEventType) :
    Evolves Still (transitionIfActive H runId status type) := by
  refine Evolves.bind Still.trans Still.refl fun run ↦ ?_
  cases run with
  | none => exact Still.refl
  | some run =>
    exact Evolves.ite Still.refl
      (Evolves.bind Still.trans (transition_still _ _ _ _) fun _ ↦ Still.refl)

theorem waitForWorkspaceLease_still (run : RunRecord) (deadline : ℤ) :
    Evolves Still (waitForWorkspaceLease H O run deadline) := by
  refine Evolves.bind Still.trans now_still fun t ↦ Evolves.ite Still.refl
    (Evolves.bind Still.trans (throwIfAborted_still _) fun _ ↦ Evolves.bind Still.trans now_still
      fun t ↦ Evolves.bind Still.trans (onStore_still _) fun lease ↦ ?_)
  cases lease with
  | none => exact Still.refl
  | some lease => exact Still.refl

theorem waitForWorkspaceLease_outside (run : RunRecord) (deadline : ℤ) :
    Yields Point.Outside (waitForWorkspaceLease H O run deadline) := by
  refine .bind fun _ ↦ .ite (fun _ ↦ .throw) fun _ ↦ .bind fun _ ↦ .bind fun _ ↦
    .bind fun lease ↦ ?_
  cases lease with
  | none => exact .pure trivial
  | some lease => exact .pure trivial

theorem startAgent_avoids (e : Execution) : Avoids r (startAgent H e) := by
  refine .bind (.still (transitionIfActive_still _ _ _)) fun _ ↦ .ite (.gets fun s ↦ ?_) (.pure _)
  dsimp only
  cases s.store.getAgentProfile e.run.agentId e.run.owner with
  | none => exact .throw _
  | some profile => exact .pure _

theorem startAgent_outside (e : Execution) :
    Yields (fun next ↦ ∀ point ∈ next, point.Outside) (startAgent H e) := by
  refine .bind fun _ ↦ .ite (fun _ ↦ .gets fun s ↦ ?_) fun _ ↦ .pure fun _ h ↦
    absurd h (Option.not_mem_none _)
  cases s.store.getAgentProfile e.run.agentId e.run.owner with
  | none => exact .throw
  | some profile => exact .pure fun point h ↦ Option.some.inj h ▸ rfl

theorem leaseGranted_avoids (e : Execution) (lease : WorkspaceLease) :
    Avoids e.runId (leaseGranted H O e lease) :=
  .bind (.assign (fun _ ↦ rfl) fun _ ↦ rfl) fun _ ↦ .bind (.appendEvent _) fun _ ↦
    .bind (.assign (fun _ ↦ rfl) fun _ ↦ rfl) fun _ ↦ .ite (.pure _)
      (startAgent_avoids e)

theorem leaseGranted_outside (e : Execution) (lease : WorkspaceLease) :
    Yields (fun next ↦ ∀ point ∈ next, point.Outside) (leaseGranted H O e lease) :=
  .bind fun _ ↦ .bind fun _ ↦ .bind fun _ ↦
    .ite (fun _ ↦ .pure fun _ h ↦ Option.some.inj h ▸ trivial) fun _ ↦ startAgent_outside e

theorem workspacePrepared_avoids (e : Execution) (prepared : PrepareResult) :
    Avoids e.runId (workspacePrepared H e prepared) :=
  .bind (.assign (fun _ ↦ rfl) fun _ ↦ rfl) fun _ ↦
    .ite (.bind (.appendEvent _) fun _ ↦ startAgent_avoids e) (startAgent_avoids e)

theorem workspacePrepared_outside (e : Execution) (prepared : PrepareResult) :
    Yields (fun next ↦ ∀ point ∈ next, point.Outside) (workspacePrepared H e prepared) :=
  .bind fun _ ↦ .ite (fun _ ↦ .bind fun _ ↦ startAgent_outside e) fun _ ↦ startAgent_outside e

theorem agentReturned_avoids : Avoids r (agentReturned H O r) := by
  have hend : Avoids r (do
      updateExecution r fun e ↦
        { e with terminal := some ⟨.succeeded, .runSucceeded, {}, rfl, rfl⟩ }
      pure (none : Option Point)) := .bind (.assign (fun _ ↦ rfl) fun _ ↦ rfl) fun _ ↦ .pure _
  exact .ite (.bind (.still (transition_still _ _ _ _)) fun _ ↦ hend) hend

theorem agentReturned_outside :
    Yields (fun next ↦ ∀ point ∈ next, point.Outside) (agentReturned H O r) := by
  have hend : Yields (fun next : Option Point ↦ ∀ point ∈ next, point.Outside) (do
      updateExecution r fun e ↦
        { e with terminal := some ⟨.succeeded, .runSucceeded, {}, rfl, rfl⟩ }
      pure (none : Option Point)) := .bind fun _ ↦ .pure fun _ h ↦ absurd h (Option.not_mem_none _)
  exact .ite (fun _ ↦ .bind fun _ ↦ hend) fun _ ↦ hend

theorem executeStart_avoids : Avoids r (executeStart H O r) := by
  refine .bind (.getRun _) fun run ↦ ?_
  cases run with
  | none => exact .throw _
  | some run =>
    refine .bind (.assign (fun _ ↦ rfl) fun _ ↦ rfl) fun _ ↦ .bind .now fun t ↦
      .ite (.bind (.still (timeoutQueuedRun_still _ _)) fun _ ↦ .pure _) ?_
    refine .bind (.still fun _ ↦ ⟨rfl, rfl, rfl⟩) fun attempt ↦ .bind .now
      fun t ↦ .bind (.still (onStore_still _)) fun _ ↦
        .bind (.assign (fun _ ↦ rfl) fun _ ↦ rfl) fun _ ↦
          .bind (.still (transitionIfActive_still _ _ _)) fun _ ↦ .ite ?_ (.pure _)
    exact .bind (.assign (fun _ ↦ rfl) fun _ ↦ rfl) fun _ ↦ .bind .now fun t ↦
      .bind (.still (waitForWorkspaceLease_still _ _)) fun _ ↦ .pure _

theorem executeStart_outside :
    Yields (fun next ↦ ∀ point ∈ next, point.Outside) (executeStart H O r) := by
  have hnone : Yields (fun next : Option Point ↦ ∀ point ∈ next, point.Outside)
      (pure none : ServiceM (Option Point)) := .pure fun _ h ↦ absurd h (Option.not_mem_none _)
  refine .bind fun run ↦ ?_
  cases run with
  | none => exact .throw
  | some run =>
    exact .bind fun _ ↦ .bind fun _ ↦ .ite (fun _ ↦ .bind fun _ ↦ hnone) fun _ ↦ .bind fun _ ↦
      .bind fun _ ↦ .bind fun _ ↦ .bind fun _ ↦ .bind fun _ ↦ .ite (fun _ ↦ .bind fun _ ↦
        .bind fun _ ↦ .bind_of (waitForWorkspaceLease_outside _ _) fun point h ↦
          .pure fun _ heq ↦ Option.some.inj heq ▸ h) fun _ ↦ hnone

theorem startExecution_avoids (e : Execution) :
    Avoids e.runId (startExecution H O e) := by
  refine .bind (.assign (fun _ ↦ rfl) fun _ ↦ rfl) fun _ ↦ .bind (.getRun _)
    fun run ↦ ?_
  cases run with
  | none => exact .setPoint trivial
  | some current =>
    exact .ite (.setPoint trivial) (.bind (.modify fun _ ↦ rfl) fun _ ↦
      execution_avoids executeStart_avoids executeStart_outside)

theorem checkpointed_avoids (e : Execution) (outcome : Except JsString CheckpointResult) :
    Avoids e.runId (checkpointed H e outcome) := by
  refine .tryCatch ?_ fun _ ↦ .setPoint trivial
  cases outcome with
  | error message => exact .bind (checkpointFailed_avoids _) fun _ ↦ releaseLease_avoids
  | ok result =>
    exact .bind (.tryCatch (.bind (.appendEvent _) fun _ ↦ .pure _) checkpointFailed_avoids)
      fun _ ↦ releaseLease_avoids

theorem released_avoids (e : Execution) (outcome : ReleaseOutcome) :
    Avoids e.runId (released H e outcome) := by
  have hend : Avoids e.runId (setPoint e.runId .settled) := .setPoint trivial
  refine .tryCatch (.bind (.getRun _) fun run ↦ ?_) fun _ ↦ hend
  cases run with
  | none => exact hend
  | some latest =>
    refine .ite hend ?_
    cases afterRelease outcome e.terminal with
    | some terminal => exact .bind (.still (transition_still _ _ _ _)) fun _ ↦ hend
    | none => exact .ite (.bind (.still (transition_still _ _ _ _)) fun _ ↦ hend) hend

theorem drain_avoids (e : Execution) : Avoids e.runId (drain e) :=
  .bind (.assign (fun _ ↦ rfl) fun _ ↦ rfl) fun _ ↦ .modify fun _ ↦ rfl

/-- An execution that is woken outside of the loop is still outside, or at its beginning. -/
theorem wake_avoids {e : Execution} (hpoint : ∀ p a, e.point ≠ .agent p a) (input : Input) :
    Avoids e.runId (wake H O e e.point input) := by
  have hthrow : ∀ error : JsError, Avoids e.runId
      (execution H O e.runId (throw error)) := fun error ↦
    execution_avoids (.throw _) .throw
  unfold wake
  split
  · exact .gets fun s ↦ .ite (startExecution_avoids e) (.pure _)
  · exact .ite (.pure _) (drain_avoids e)
  · split
    · exact .pure _
    · exact hthrow _
    · exact execution_avoids (.bind (.still (waitForWorkspaceLease_still _ _)) fun _ ↦
        .pure _) (.bind_of (waitForWorkspaceLease_outside _ _) fun point h ↦
          .pure fun _ heq ↦ Option.some.inj heq ▸ h)
  · exact execution_avoids (leaseGranted_avoids e _) (leaseGranted_outside e _)
  · exact execution_avoids (workspacePrepared_avoids e _) (workspacePrepared_outside e _)
  · exact hthrow _
  · rename_i heq
    exact absurd heq (hpoint _ _)
  · exact hthrow _
  · exact execution_avoids agentReturned_avoids agentReturned_outside
  · exact checkpointed_avoids e _
  · exact released_avoids e _
  · exact .pure _

end Outside

/-! ## Steps and runs -/

/-- Every execution is where its messages are those of its turn. -/
def Transcribed (s : Service) : Prop :=
  ∀ r e, s.execution? r = some e → e.point.Transcribed e.run

/-- The call that is with its tool. -/
def executing? (e : Execution) : Option ToolCall :=
  match e.point with
  | .agent (.executing call _) _ => some call
  | _ => none

/-- What a tool returned, and to which run. -/
def toolResult? : Input → Option (JsString × ToolResult)
  | .toolReturned r (.ok result) => some (r, result)
  | _ => none

/-- A tool that returns answers the call it was given. -/
def Answers (s : Service) (input : Input) : Prop :=
  ∀ x ∈ toolResult? input, ∀ call ∈ (s.execution? x.1).bind executing?,
    x.2.callId = call.id

instance (s : Service) (input : Input) : Decidable (s.Answers input) :=
  inferInstanceAs (Decidable (∀ x ∈ toolResult? input, _))

/-- What a stretch does to an execution it does not control keeps it transcribed. -/
theorem Transcribed.effects {L : Licence} {s s' : Service} (h : s.Transcribed)
    (heffects : Effects H L s s') {r : JsString} (hr : ¬L.controls r) {e' : Execution}
    (he' : s'.execution? r = some e') : e'.point.Transcribed e'.run := by
  have hframe := heffects.undisturbed hr
  cases he : s.execution? r with
  | none => exact absurd (he'.symm.trans (hframe.idle he)) (Option.some_ne_none _)
  | some e =>
    obtain ⟨e₁, he₁, hnudged⟩ := hframe.execution e he
    obtain rfl := Option.some.inj (he'.symm.trans he₁)
    have hrun : e'.run = e.run := by rw [hnudged.eq]
    rw [hrun]
    exact (h r e he).answered hnudged.point

/-- **A stretch of the loop** keeps its own run transcribed. -/
theorem wakeAgent_transcribed {s : Service} {e e' : Execution} {p : AgentPoint} {a : AgentState}
    {input : Input} (he : s.execution? e.runId = some e) (hpoint : e.point = .agent p a)
    (h : (Point.agent p a).Transcribed e.run)
    (hanswers : ∀ result call rest, input = .toolReturned e.runId (.ok result) →
      p = .executing call rest → result.callId = call.id)
    (hinput : input.execution? = some e.runId)
    (he' : ((wakeAgent H O e a p input).run s).2.execution? e.runId = some e') :
    e'.point.Transcribed e'.run := by
  have hrejected : ∀ error, Point.Transcribed e.run (.rejected error) := fun _ ↦ trivial
  have hfailed : ∀ error, ((setPoint e.runId (.rejected error)).run s).2.execution? e.runId =
      some e' → e'.point.Transcribed e'.run := by
    intro error hlookup
    have hset := (execution?_update (f := fun e ↦ { e with point := .rejected error })
      (fun _ ↦ rfl) e.runId).symm.trans hlookup
    rw [he, Option.map_some, if_pos rfl] at hset
    obtain rfl := Option.some.inj hset
    trivial
  unfold wakeAgent at he'
  split at he'
  · exact agentStretch_execution? (agentPrepared_performs _ _ _)
      (agentPrepared_transcribed e h _ s) hrejected he he'
  · exact hfailed _ he'
  · exact agentStretch_execution? (modelEvent_performs _ _ _ trivial)
      (modelEvent_transcribed e h _ s) hrejected he he'
  · exact agentStretch_execution? (modelDone_performs _ rfl trivial)
      (modelDone_transcribed e h s) hrejected he he'
  · exact hfailed _ he'
  · exact agentStretch_execution? (H := H) (approvalSettled_performs _ _ _ _ _)
      (approvalSettled_transcribed h _ s) hrejected he he'
  · exact agentStretch_execution? (executeTool_performs _ _ _ _ _ trivial)
      (executeTool_transcribed e h s) hrejected he he'
  · obtain rfl := Option.some.inj hinput
    exact agentStretch_execution? (toolReturned_performs _ _ _ _ rfl trivial)
      (toolReturned_transcribed e h (hanswers _ _ _ rfl rfl) s) hrejected he he'
  · exact hfailed _ he'
  · obtain rfl := Option.some.inj (he.symm.trans he')
    rwa [hpoint]

/-- A tick of the renewal interval leaves the loop where it is. -/
theorem renewLease_answered {s : Service} {e e' : Execution} (he : s.execution? e.runId = some e)
    (hactive : e.runId ∈ s.active)
    (he' : ((renewLease H O e).run s).2.execution? e.runId = some e') :
    e'.run = e.run ∧ e.point.Answered e'.point := by
  -- the tick assigns the lease or notes its loss, and the point is among neither
  have hassign : ∀ (f : Execution → Execution) (s₁ : Service), (∀ e, (f e).runId = e.runId) →
      s₁.execution? e.runId = some e →
      ((updateExecution e.runId f).run s₁).2.execution? e.runId = some (f e) := by
    intro f s₁ hid he₁
    refine (execution?_update hid e.runId).trans ?_
    rw [he₁, Option.map_some, if_pos rfl]
  unfold renewLease at he'
  cases hlease : e.lease with
  | none =>
    rw [hlease] at he'
    obtain rfl := Option.some.inj (he.symm.trans he')
    exact ⟨rfl, Or.inl rfl⟩
  | some lease =>
    rw [hlease] at he'
    dsimp only at he'
    rw [run_bind, now_run, andThen_ok, run_bind] at he'
    have hstill := onStore_still (Store.renewWorkspaceLease (H.clock s.readings) lease
      O.workspaceLeaseTtlMs) { s with readings := s.readings + 1 }
    rcases hrun : (onStore (Store.renewWorkspaceLease (H.clock s.readings) lease
      O.workspaceLeaseTtlMs)).run { s with readings := s.readings + 1 } with ⟨error | renewed, s₁⟩
    · rw [hrun] at he' hstill
      obtain rfl := Option.some.inj (((hstill.execution? _).trans he).symm.trans he')
      exact ⟨rfl, Or.inl rfl⟩
    · rw [hrun] at he' hstill
      have he₁ : s₁.execution? e.runId = some e := (hstill.execution? _).trans he
      cases renewed with
      | some renewed =>
        have hrenewed := hassign (fun e ↦ { e with lease := some renewed }) s₁ (fun _ ↦ rfl) he₁
        obtain rfl := Option.some.inj (hrenewed.symm.trans he')
        exact ⟨rfl, Or.inl rfl⟩
      | none =>
        -- the lease is lost: aborting the run refuses the approval it may be waiting for, no more
        have hlost := hassign (fun e ↦ { e with leaseLost := true }) s₁ (fun _ ↦ rfl) he₁
        have hstillActive : e.runId ∈ s₁.active := by
          rw [hstill.active]
          exact hactive
        have habort : ∀ t : Service, e.runId ∈ t.active → Effects H { resolves := True } t
            ((abort H e.runId workspaceLeaseLostError).run t).2 :=
          fun _ ht ↦ abort_effects (Or.inl ht) trivial
        obtain ⟨-, hexecution, -⟩ := (habort ((updateExecution e.runId fun e ↦
          { e with leaseLost := true }).run s₁).2 hstillActive).undisturbed (r := e.runId) id
        obtain ⟨e₂, he₂, hnudged⟩ := hexecution _ hlost
        obtain rfl := Option.some.inj (he₂.symm.trans he')
        exact ⟨by rw [hnudged.eq], hnudged.point⟩

/-- **Every step keeps the executions transcribed**, as long as the tools answer their calls. -/
theorem Transcribed.step {s : Service} (h : s.Transcribed) (hs : Reachable H O s)
    {input : Input} (hanswers : s.Answers input) : (Service.step H O s input).Transcribed := by
  intro r e' he'
  have hlogged := hs.logged
  by_cases hrestart : input = .restart
  · subst hrestart
    rw [step_restart] at he'
    have hfresh : (restarted s).Transcribed := fun _ _ he ↦
      absurd he (by simp [execution?, restarted, Table.lookup])
    exact hfresh.effects (reconcileInterruptedRuns_effects hlogged) id he'
  -- an input is for one execution or for none; only its own stretch moves an execution
  cases hexec : input.execution? with
  | none =>
    have heffects := handle_call (H := H) (O := O) hexec hrestart s
    cases input with
    | immediate runId =>
      -- the one call that makes an execution, and it is made outside of the loop
      rcases immediate_execution? hlogged he' with ⟨run, tails, rfl⟩ | hold
      · trivial
      · exact h r e' hold
    | _ => exact h.effects heffects id he'
  | some q =>
    cases he : s.execution? q with
    | none =>
      rw [step_idle hexec he] at he'
      exact h r e' he'
    | some e =>
      obtain rfl := execution?_runId he
      by_cases hr : r = e.runId
      rotate_left
      · exact h.effects (handle_execution hexec he) hr he'
      subst hr
      have hplace := h _ e he
      obtain ⟨row, -, hstaged⟩ := hs.consistent.staged _ e he
      have hwoken := step_woken (H := H) (O := O) hexec he
      generalize Service.step H O s input = s' at hwoken he'
      cases hwoken with
      | idle => exact h _ e' he'
      | queueTimeout =>
        exact h.effects (timeoutQueuedRun_performs (L := { ends := fun r ↦ r = e.runId }) _
          (Or.inr ⟨rfl, rfl⟩) s) id he'
      | totalTimeout ht =>
        exact h.effects (abort_effects (L := { resolves := True }) (Or.inl
          (hstaged.active_of_not_silent (Execution.not_silent_of_timeout ht))) trivial) id he'
      | leaseRenewal ht =>
        obtain ⟨hrun, hpoint⟩ := renewLease_answered he
          (hstaged.active_of_not_silent (Execution.not_silent_of_renewal ht)) he'
        rw [hrun]
        exact hplace.answered hpoint
      | wake =>
        by_cases hagent : ∃ p a, e.point = .agent p a
        · obtain ⟨p, a, hpoint⟩ := hagent
          rw [hpoint] at hplace he'
          refine wakeAgent_transcribed he hpoint hplace ?_ hexec he'
          rintro result call rest rfl rfl
          exact hanswers _ rfl call (by rw [he, Option.bind_some, executing?, hpoint]; rfl)
        · have hpoint : ∀ p a, e.point ≠ .agent p a := fun p a heq ↦ hagent ⟨p, a, heq⟩
          -- a point that is not of the loop is outside
          have houtside : ∀ e₁, s.execution? e.runId = some e₁ → e₁.point.Outside := by
            intro e₁ he₁
            obtain rfl := Option.some.inj (he.symm.trans he₁)
            unfold Point.Outside
            split
            · exact absurd ‹_› (hpoint _ _)
            · exact absurd ‹_› (hpoint _ _)
            · trivial
          exact (wake_avoids (H := H) (O := O) hpoint input s houtside e' he').transcribed _

/-- **What the loop adds to a conversation is in order**, in every state of every history in which
the tools answer the calls they are given: every turn is opened with all calls answered, in between
exactly the calls of the turn are open that have no result yet, and the model has spoken once in
every turn, of which there are no more than the budget allows. -/
theorem transcripts_paired {history : List Input}
    (h : Throughout (step H O) Answers {} history) {r : JsString} {e : Execution}
    (he : (after H O {} history).execution? r = some e) {p : AgentPoint} {a : AgentState}
    (hpoint : e.point = .agent p a) (hp : p ≠ .preparing) :
    ∃ context session more, a.messages = opening e.run a.instructions context session ++ more ∧
      awaitedCalls more = some (p.awaited.map ToolCall.id) ∧ spoken more = a.turn + p.answered ∧
      (a.turn : ℚ) < e.run.budget.maxTurns := by
  have hinv : Reachable H O (after H O {} history) ∧ (after H O {} history).Transcribed := by
    refine Throughout.induction (p := fun s ↦ Reachable H O s ∧ s.Transcribed) ?_ ?_ h
    · exact fun s input hs hanswers ↦ ⟨hs.1.step input, hs.2.step hs.1 hanswers⟩
    · exact ⟨⟨[], rfl⟩, fun _ _ he ↦ absurd he (by simp [execution?, Table.lookup])⟩
  have htranscribed := hinv.2 r e he
  rw [hpoint, Point.transcribed_agent hp] at htranscribed
  obtain ⟨⟨context, session, more, hmessages, hawaited, hspoken⟩, hturn⟩ := htranscribed
  exact ⟨context, session, more, hmessages, hawaited, hspoken, hturn⟩

/-- A history in which the first turn of `run_0` uses a tool and is steered meanwhile. -/
def steeredTurn : List Input :=
  let r := js "run_0"
  [.createRun rootRequest, .immediate r, .predecessorsSettled r, .resume r,
    .workspacePrepared r (.ok ⟨false, false⟩), .agentPrepared r (.ok ⟨[], []⟩),
    .modelEvent r (.toolCall ⟨js "call", js "read_file", []⟩),
    .modelEvent r (.completed .toolCalls), .modelDone r, .steerRun r (js "hurry"), .resume r,
    .resolveApproval (js "apr_6") true, .resume r, .resume r,
    .toolReturned r (.ok ⟨js "call", true, js "x", .undefined⟩)]

/-- The turn whose stream is being read. -/
def streamingTurn? (e : Execution) : Option ℕ :=
  match e.point with
  | .agent .streaming a => some a.turn
  | _ => none

theorem transcripts_paired_steeredTurn :
    ∃ e a, (after referenceHost referenceOptions {} steeredTurn).execution? (js "run_0") = some e ∧
      e.point = .agent .streaming a ∧ a.turn = 1 ∧ ∃ context session more,
        a.messages = opening e.run a.instructions context session ++ more ∧
        awaitedCalls more = some [] ∧ spoken more = a.turn + 0 ∧
        (a.turn : ℚ) < e.run.budget.maxTurns := by
  have hhistory : Throughout (step referenceHost referenceOptions) Answers {} steeredTurn := by
    decide +kernel
  have hstreaming : ((after referenceHost referenceOptions {} steeredTurn).execution?
      (js "run_0")).bind streamingTurn? = some 1 := by
    decide +kernel
  obtain ⟨e, he, hturn⟩ := Option.bind_eq_some_iff.mp hstreaming
  unfold streamingTurn? at hturn
  split at hturn
  · rename_i a hpoint
    exact ⟨e, a, he, hpoint, Option.some.inj hturn,
      transcripts_paired hhistory he hpoint AgentPoint.noConfusion⟩
  · exact absurd hturn.symm (Option.some_ne_none _)

end Service

end LiteHarness
