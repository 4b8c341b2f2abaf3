import LiteHarness.Foundation.Paging
import LiteHarness.Storage.EventText
import LiteHarness.Storage.Logged

/-!
# Bounded pages of events

`RunService.listEvents` cuts the events beyond a cursor into pages that stay below a row limit and
a byte limit. The loop refuses an event that is too large for any page as soon as it meets it, also
where the page already holds events that would have to be delivered first; the sibling check for
the envelope refuses only what starts a page.

The record a payload stands for is a parameter, so that the results hold whatever the events carry.
-/

namespace LiteHarness

open Foundation

/-! ## The loop -/

/-- `Buffer.byteLength(JSON.stringify(event))`. -/
def eventSize (P : Platform) (payload : EventPayload → JsValue) (e : EventRow) : ℕ :=
  byteLength (P.stringify (e.fields P payload))

/-- `Buffer.byteLength('{"events":[]}')`. -/
def envelopeBytes : ℕ := byteLength (js "\x7b\"events\":[]\x7d")

/-- The loop of `boundedEventBatch`, given the page so far and its bytes. -/
def fillPage (size : EventRow → ℕ) (maxBytes : ℕ) :
    List EventRow → ℕ → List EventRow → Except JsError (List EventRow)
  | page, _, [] => .ok page
  | page, bytes, event :: events =>
    let eventBytes := size event + if page.isEmpty then 0 else 1
    if maxBytes < eventBytes then
      .error (.new (js "Run event " ++ decimal event.sequence ++
        js " exceeds the IPC event page limit"))
    else if maxBytes < bytes + eventBytes then
      if page.isEmpty then
        .error (.new (js "Run event " ++ decimal event.sequence ++
          js " exceeds the IPC event page envelope limit"))
      else .ok page
    else fillPage size maxBytes (page ++ [event]) (bytes + eventBytes) events

/-- `boundedEventBatch`, with the row limit as an argument. -/
def boundedEventBatch (size : EventRow → ℕ) (pageLimit maxBytes : ℕ) (events : List EventRow) :
    Except JsError (List EventRow) :=
  if maxBytes < 1 ∨ maxSafeInteger < maxBytes then
    .error (.new (js "Event page byte limit is invalid"))
  else fillPage size maxBytes [] envelopeBytes (events.take pageLimit)

/-- Limits that are accepted: at least one event a page, and a positive safe integer of bytes. -/
structure PageLimits where
  events : ℕ
  bytes : ℕ
  events_pos : 0 < events
  bytes_pos : 0 < bytes
  bytes_safe : bytes ≤ maxSafeInteger

/-- `EVENT_PAGE_LIMIT` and `EVENT_PAGE_MAX_BYTES`. -/
def eventPageLimits : PageLimits where
  events := 256
  bytes := 8 * 1024 * 1024
  events_pos := by decide
  bytes_pos := by decide
  bytes_safe := by decide

/-- `RunService.listEvents`. -/
def Service.listEvents (size : EventRow → ℕ) (limits : PageLimits) (S : Store) (runId : JsString)
    (after : ℕ) : Except JsError (List EventRow) :=
  boundedEventBatch size limits.events limits.bytes (S.listEvents runId after limits.events)

/-! ## One page -/

/-- The event fits a page of its own. -/
def FitsAlone (size : EventRow → ℕ) (maxBytes : ℕ) (e : EventRow) : Bool :=
  envelopeBytes + size e ≤ maxBytes

section Page

variable (size : EventRow → ℕ) (maxBytes : ℕ)

/-- What a page that has started ends as: more events are taken from the front, and an error comes
from an event that does not even fit the limit with its comma. -/
theorem fillPage_started (events : List EventRow) {page : List EventRow} {bytes : ℕ} (hpage : page ≠ [])
    (hbytes : envelopeBytes ≤ bytes) :
    (∃ more, more <+: events ∧ (∀ e ∈ more, FitsAlone size maxBytes e = true) ∧
      fillPage size maxBytes page bytes events = .ok (page ++ more)) ∨
    ∃ more large rest error, events = more ++ large :: rest ∧
      (∀ e ∈ more, FitsAlone size maxBytes e = true) ∧ maxBytes ≤ size large ∧
      fillPage size maxBytes page bytes events = .error error := by
  have hstarted : page.isEmpty = false := List.isEmpty_eq_false_iff.mpr hpage
  induction events generalizing page bytes with
  | nil => exact Or.inl ⟨[], List.prefix_refl _, by simp, by rw [fillPage, List.append_nil]⟩
  | cons event events ih =>
    rw [fillPage]
    simp only [hstarted, Bool.false_eq_true, if_false]
    by_cases hlarge : maxBytes < size event + 1
    · exact Or.inr ⟨[], event, events, _, rfl, fun _ h ↦ absurd h List.not_mem_nil, by omega,
        if_pos hlarge⟩
    · rw [if_neg hlarge]
      by_cases hfull : maxBytes < bytes + (size event + 1)
      · exact Or.inl ⟨[], List.nil_prefix, by simp, by rw [if_pos hfull, List.append_nil]⟩
      · rw [if_neg hfull]
        have hfits : FitsAlone size maxBytes event = true := decide_eq_true (by omega)
        have hpage' : page ++ [event] ≠ [] := by simp
        have hbytes' : envelopeBytes ≤ bytes + (size event + 1) := by omega
        have hrest := ih hpage' hbytes' (List.isEmpty_eq_false_iff.mpr hpage')
        have hcons : ∀ {more : List EventRow}, (∀ e ∈ more, FitsAlone size maxBytes e = true) →
            ∀ e ∈ event :: more, FitsAlone size maxBytes e = true :=
          fun hmore ↦ List.forall_mem_cons.mpr ⟨hfits, hmore⟩
        rcases hrest with ⟨more, hfront, hmore, hok⟩ |
          ⟨more, large, rest, error, rfl, hmore, hsize, herror⟩
        · refine Or.inl ⟨event :: more, ?_, hcons hmore, ?_⟩
          · exact (List.prefix_cons_inj event).mpr hfront
          · rw [hok, List.append_assoc, List.singleton_append]
        · exact Or.inr ⟨event :: more, large, rest, error, rfl, hcons hmore, hsize, herror⟩

/-- A page starts with the next event, which is refused exactly where it does not fit alone. -/
theorem fillPage_cons (event : EventRow) (events : List EventRow) :
    if FitsAlone size maxBytes event then
      fillPage size maxBytes [] envelopeBytes (event :: events) =
        fillPage size maxBytes [event] (envelopeBytes + size event) events
    else ∃ error, fillPage size maxBytes [] envelopeBytes (event :: events) = .error error := by
  have hfits : FitsAlone size maxBytes event = true ↔ envelopeBytes + size event ≤ maxBytes :=
    decide_eq_true_iff
  rw [fillPage]
  simp only [List.isEmpty_nil, if_true, Nat.add_zero]
  split_ifs with h hsize henvelope
  · have := hfits.mp h
    omega
  · have := hfits.mp h
    omega
  · rfl
  · exact ⟨_, rfl⟩
  · exact ⟨_, rfl⟩
  · exact absurd (hfits.mpr (by omega)) h

end Page

/-! ## The stored log -/

namespace Store

/-- The events of a run in the order of their sequence numbers. -/
def logOf (S : Store) (runId : JsString) : List EventRow :=
  (S.eventsOf runId).insertionSort fun a b ↦ a.sequence ≤ b.sequence

/-- The primary key of `run_events` holds. -/
def EventKeys (S : Store) : Prop := (S.events.map fun e ↦ (e.runId, e.sequence)).Nodup

theorem EventKeys.append {S S' : Store} (h : S.EventKeys) {event : EventRow}
    (hfresh : ∀ e ∈ S.events, e.runId = event.runId → e.sequence ≠ event.sequence)
    (hevents : S'.events = S.events ++ [event]) : S'.EventKeys := by
  rw [EventKeys, hevents, List.map_append, List.nodup_append]
  refine ⟨h, List.nodup_singleton _, ?_⟩
  rintro k hk _ hk' rfl
  obtain ⟨e, he, hkey⟩ := List.mem_map.mp hk
  obtain ⟨hrun, hsequence⟩ := Prod.mk.inj (hkey.trans (List.mem_singleton.mp hk'))
  exact hfresh e he hrun hsequence

/-- Every operation keeps the key. -/
theorem EventKeys.apply {P : Platform} {S : Store} (h : S.EventKeys) (op : StoreOp) :
    (op.apply P S).EventKeys := by
  have hsame : ∀ {S' : Store}, S'.events = S.events → S'.EventKeys := by
    intro S' hevents
    rw [EventKeys, hevents]
    exact h
  rcases op.cases P S with heq | hchange
  · rw [heq]
    exact h
  · generalize op.apply P S = S' at hchange
    cases hchange with
    | created hcreated => exact h.append hcreated.noEvent hcreated.events
    | appended happend => exact h.append happend.fresh rfl
    | approvalRecorded _ _ happend =>
      exact EventKeys.append (S := Store.setApproval _ _ _ S) (hsame rfl) happend.fresh rfl
    | acquired hacquired =>
      rw [hacquired.store]
      exact hsame rfl
    | _ => exact hsame rfl

theorem EventKeys.empty : EventKeys {} := List.nodup_nil

theorem after_eventKeys (P : Platform) (history : List StoreOp) :
    (Store.after P {} history).EventKeys :=
  after_induction (p := EventKeys) (fun _ op h ↦ h.apply op) .empty history

instance : Std.Total fun a b : EventRow ↦ a.sequence ≤ b.sequence :=
  ⟨fun a b ↦ le_total a.sequence b.sequence⟩

instance : IsTrans EventRow fun a b ↦ a.sequence ≤ b.sequence := ⟨fun _ _ _ ↦ le_trans⟩

theorem mem_logOf {S : Store} {runId : JsString} {e : EventRow} :
    e ∈ S.logOf runId ↔ e ∈ S.events ∧ e.runId = runId := by
  rw [logOf, List.mem_insertionSort, eventsOf, List.mem_filter, decide_eq_true_iff]

/-- The sequence numbers of a log increase. -/
theorem EventKeys.increasing {S : Store} (h : S.EventKeys) (runId : JsString) :
    (S.logOf runId).Pairwise fun a b ↦ a.sequence < b.sequence := by
  have hsorted : (S.logOf runId).Pairwise fun a b ↦ a.sequence ≤ b.sequence :=
    List.pairwise_insertionSort _ _
  have hkeys : (S.logOf runId).Pairwise fun a b ↦ (a.runId, a.sequence) ≠ (b.runId, b.sequence) := by
    have hperm : (S.logOf runId).Perm (S.eventsOf runId) := List.perm_insertionSort _ _
    refine (hperm.pairwise_iff fun hne ↦ hne.symm).mpr ?_
    exact (List.pairwise_map.mp h).filter _
  refine (hsorted.and hkeys).imp_of_mem fun {a b} ha hb hab ↦ ?_
  refine lt_of_le_of_ne hab.1 fun heq ↦ hab.2 ?_
  rw [(mem_logOf.mp ha).2, (mem_logOf.mp hb).2, heq]

/-- A read of the store is the front of what the log has beyond the cursor. -/
theorem EventKeys.listEvents_eq {S : Store} (h : S.EventKeys) (runId : JsString)
    (after limit : ℕ) :
    S.listEvents runId after limit
      = (beyond EventRow.sequence (S.logOf runId) after).take limit := by
  rw [listEvents]
  congr 1
  have hbeyond : (beyond EventRow.sequence (S.logOf runId) after).Pairwise
      fun a b ↦ a.sequence < b.sequence := (h.increasing runId).filter _
  have hperm : ((S.events.filter fun e ↦ e.runId = runId ∧ after < e.sequence).insertionSort
      fun a b ↦ a.sequence ≤ b.sequence).Perm
        (beyond EventRow.sequence (S.logOf runId) after) := by
    refine (List.perm_insertionSort _ _).trans ?_
    have hfilter : (S.events.filter fun e ↦ e.runId = runId ∧ after < e.sequence)
        = (S.eventsOf runId).filter fun e ↦ after < e.sequence := by
      rw [eventsOf, List.filter_filter]
      refine List.filter_congr fun e _ ↦ ?_
      rw [Bool.decide_and, Bool.and_comm]
    rw [hfilter]
    exact ((List.perm_insertionSort _ _).filter _).symm
  refine hperm.eq_of_pairwise ?_ (List.pairwise_insertionSort _ _) (hbeyond.imp fun hab ↦ hab.le)
  -- two events of one run with one sequence number are one event
  intro a b ha hb hab hba
  have hnodup : ((beyond EventRow.sequence (S.logOf runId) after).map EventRow.sequence).Nodup :=
    List.pairwise_map.mpr (hbeyond.imp fun hlt ↦ hlt.ne)
  exact List.inj_on_of_nodup_map hnodup (hperm.mem_iff.mp ha) hb (le_antisymm hab hba)

end Store

/-! ## Reading a log to its end -/

/-- Reading on from the cursor, always from the last sequence number returned, yields exactly the
events of the run beyond it, each once and in order, up to the first that does not fit a page of
its own, and fails exactly when there is one. -/
def DeliversEvents (size : EventRow → ℕ) (limits : PageLimits) (S : Store) (runId : JsString)
    (cursor : ℕ) : Prop :=
  Delivers EventRow.sequence (Service.listEvents size limits S runId)
    (FitsAlone size limits.bytes) (S.logOf runId) cursor

/-- An event too large for any page directly follows one that fits a page, beyond the cursor. -/
def LargeAfterFitting (size : EventRow → ℕ) (limits : PageLimits) (S : Store) (runId : JsString)
    (cursor : ℕ) : Prop :=
  ∃ e large, [e, large] <:+: beyond EventRow.sequence (S.logOf runId) cursor ∧
    FitsAlone size limits.bytes e = true ∧ limits.bytes ≤ size large

section Reading

variable {size : EventRow → ℕ} {limits : PageLimits} {S : Store} {runId : JsString}

/-- The read, once the limits are checked. -/
theorem listEvents_eq_fillPage (h : S.EventKeys) (cursor : ℕ) :
    Service.listEvents size limits S runId cursor =
      fillPage size limits.bytes [] envelopeBytes
        ((beyond EventRow.sequence (S.logOf runId) cursor).take limits.events) := by
  have hbytes := limits.bytes_pos
  have hsafe := limits.bytes_safe
  rw [Service.listEvents, boundedEventBatch, if_neg (by omega), h.listEvents_eq, List.take_take,
    Nat.min_self]

/-- A read is sound unless its page meets an event that is too large. -/
theorem listEvents_sound (h : S.EventKeys) {cursor : ℕ}
    (hcond : limits.events = 1 ∨ ¬LargeAfterFitting size limits S runId cursor) :
    SoundRead EventRow.sequence (Service.listEvents size limits S runId)
      (FitsAlone size limits.bytes) (S.logOf runId) cursor := by
  have hread : Service.listEvents size limits S runId cursor = _ := listEvents_eq_fillPage h cursor
  cases hleft : beyond EventRow.sequence (S.logOf runId) cursor with
  | nil =>
    rw [hleft, List.take_nil, fillPage] at hread
    refine ⟨fun hok ↦ ?_, fun hok ↦ ?_, fun _ ↦ hleft, fun herr ↦ ?_⟩
    · rw [← Except.ok.inj (hread.symm.trans hok)]
      exact List.nil_prefix
    · rw [← Except.ok.inj (hread.symm.trans hok)]
      exact fun _ hx ↦ absurd hx List.not_mem_nil
    · exact absurd (hread.symm.trans herr) (by simp)
  | cons event events =>
    obtain ⟨n, hn⟩ := Nat.exists_eq_succ_of_ne_zero limits.events_pos.ne'
    rw [hleft, hn, List.take_succ_cons] at hread
    have hcons := fillPage_cons size limits.bytes event (events.take n)
    split_ifs at hcons with hfits
    · -- the page holds the next event, and more is taken from what follows it
      rw [hcons] at hread
      have hbytes : envelopeBytes ≤ envelopeBytes + size event := Nat.le_add_right _ _
      rcases fillPage_started size limits.bytes (events.take n) (List.cons_ne_nil event []) hbytes with
        ⟨more, hfront, hmore, hok⟩ | ⟨more, large, rest, error, htake, hmore, hsize, -⟩
      · rw [hok] at hread
        refine ⟨fun hpage ↦ ?_, fun hpage ↦ ?_, fun hpage ↦ ?_, fun herr ↦ ?_⟩
        · rw [← Except.ok.inj (hread.symm.trans hpage), hleft]
          exact (List.prefix_cons_inj event).mpr (hfront.trans (List.take_prefix _ _))
        · rw [← Except.ok.inj (hread.symm.trans hpage)]
          exact List.forall_mem_cons.mpr ⟨hfits, hmore⟩
        · exact absurd (Except.ok.inj (hread.symm.trans hpage)) (by simp)
        · exact absurd (hread.symm.trans herr) (by simp)
      · -- what a started page throws for is too large and follows an event that fits
        exfalso
        have hlarge : LargeAfterFitting size limits S runId cursor := by
          have hinfix : event :: (more ++ large :: rest) <:+: event :: events := by
            rw [← htake]
            exact ((List.prefix_cons_inj event).mpr (List.take_prefix _ _)).isInfix
          rcases List.eq_nil_or_concat more with rfl | ⟨init, last, rfl⟩
          · refine ⟨event, large, ?_, hfits, hsize⟩
            rw [hleft]
            exact (List.prefix_append [event, large] rest).isInfix.trans hinfix
          · refine ⟨last, large, ?_, hmore last (by simp), hsize⟩
            rw [hleft]
            refine List.IsInfix.trans ⟨event :: init, rest, ?_⟩ hinfix
            simp
        rcases hcond with hone | hcond
        · obtain rfl : n = 0 := by omega
          rw [List.take_zero] at htake
          exact absurd htake (by simp)
        · exact hcond hlarge
    · obtain ⟨error, herror⟩ := hcons
      rw [herror] at hread
      refine ⟨fun hok ↦ absurd (hread.symm.trans hok) (by simp),
        fun hok ↦ absurd (hread.symm.trans hok) (by simp),
        fun hok ↦ absurd (hread.symm.trans hok) (by simp), fun _ ↦ ⟨event, ?_, ?_⟩⟩
      · rw [hleft, List.head?_cons]
        rfl
      · exact Bool.eq_false_iff.mpr hfits

/-- A page that starts right before a large event loses the event it starts with. -/
theorem listEvents_error (h : S.EventKeys) {cursor : ℕ} {event large : EventRow}
    {rest : List EventRow} (hlimit : limits.events ≠ 1)
    (hleft : beyond EventRow.sequence (S.logOf runId) cursor = event :: large :: rest)
    (hfits : FitsAlone size limits.bytes event = true) (hlarge : limits.bytes ≤ size large) :
    ∃ error, Service.listEvents size limits S runId cursor = .error error := by
  have hpos := limits.events_pos
  obtain ⟨n, hn⟩ : ∃ n, limits.events = n + 2 := ⟨limits.events - 2, by omega⟩
  have hcons := fillPage_cons size limits.bytes event
    (large :: rest.take n)
  rw [if_pos hfits] at hcons
  rw [listEvents_eq_fillPage h, hleft, hn, List.take_succ_cons, List.take_succ_cons, hcons,
    fillPage]
  simp only [List.isEmpty_cons, Bool.false_eq_true, if_false]
  rw [if_pos (by omega)]
  exact ⟨_, rfl⟩

/-- Some cursor does not deliver a log with a large event behind one that fits. -/
theorem LargeAfterFitting.not_delivers (h : S.EventKeys) {after : ℕ}
    (hlarge : LargeAfterFitting size limits S runId after) (hlimit : limits.events ≠ 1) :
    ∃ cursor, after ≤ cursor ∧ ¬DeliversEvents size limits S runId cursor := by
  obtain ⟨e, large, ⟨before, rest, hleft⟩, hfits, hsize⟩ := hlarge
  have hsplit : beyond EventRow.sequence (S.logOf runId) after = before ++ e :: large :: rest := by
    rw [← hleft, List.append_assoc]
    rfl
  obtain ⟨hcursor, hbeyond⟩ := beyond_pred (h.increasing runId) hsplit
  obtain ⟨error, herror⟩ := listEvents_error h hlimit hbeyond hfits hsize
  exact ⟨_, hcursor, not_delivers_of_error hbeyond hfits herror⟩

end Reading

/-- **Which logs are delivered.** After any history of the store, whatever the limits and wherever
reading starts: reading on from every cursor yields what it should exactly when pages hold one
event only or no event that is too large for a page follows one that fits. -/
theorem Service.listEvents_delivers_iff (P : Platform) (payload : EventPayload → JsValue)
    (limits : PageLimits) (history : List StoreOp) (runId : JsString) (after : ℕ) :
    (∀ cursor, after ≤ cursor →
      DeliversEvents (eventSize P payload) limits (Store.after P {} history) runId cursor) ↔
    (limits.events = 1 ∨
      ¬LargeAfterFitting (eventSize P payload) limits (Store.after P {} history) runId after) := by
  have hkeys := Store.after_eventKeys P history
  have hlog := hkeys.increasing runId
  constructor
  · intro h
    by_contra hcond
    obtain ⟨hlimit, hlarge⟩ := not_or.mp hcond
    obtain ⟨cursor, hcursor, hnot⟩ := (not_not.mp hlarge).not_delivers hkeys hlimit
    exact hnot (h cursor hcursor)
  · intro hcond cursor hcursor
    refine delivers_of_sound hlog fun c hc ↦ listEvents_sound hkeys (hcond.imp_right ?_)
    -- a later cursor leaves an end of what the earlier one left
    rintro hnone ⟨e, large, hinfix, hfits, hsize⟩
    exact hnone ⟨e, large,
      hinfix.trans (beyond_suffix hlog (hcursor.trans hc)).isInfix, hfits, hsize⟩

/-! ## A log that is not delivered -/

/-- A run with one message delta. -/
def deltaRun (delta : JsString) : List StoreOp :=
  [.createOrGetRun 0 ⟨js "agent_0", js "ws_0", js "ses_0"⟩ (js "run_0")
      { agent := js "agent", workspace := js "workspace", input := js "hello"
        idempotencyKey := js "key", principal := ⟨js "app", js "tenant", js "user"⟩ },
    .appendEvent 0
      { runId := js "run_0", type := .agentMessageDelta, payload := .messageDelta delta 0 }]

/-- The event of the delta. -/
def deltaEvent (delta : JsString) : EventRow :=
  ⟨js "run_0", 2, .agentMessageDelta, .messageDelta delta 0, 0⟩

theorem logOf_deltaRun (delta : JsString) :
    (Store.after referencePlatform {} (deltaRun delta)).logOf (js "run_0") =
      [Store.acceptedEvent 0 (js "run_0"), deltaEvent delta] := rfl

theorem length_le_eventSize (P : Platform) (delta : JsString) :
    delta.length ≤ eventSize P (EventPayload.json P) (deltaEvent delta) := by
  have hdelta : stringLiteral (js "delta") ++ colon :: stringLiteral delta ∈ P.stringifyFields
      [(js "delta", .string delta), (js "turn", count 0)] := by
    rw [NumberLiterals.stringifyFields, NumberLiterals.stringify?]
    exact List.mem_cons_self
  have hpayload : stringLiteral (js "payload") ++ colon ::
      P.stringify [(js "delta", .string delta), (js "turn", count 0)] ∈
        P.stringifyFields ((deltaEvent delta).fields P (EventPayload.json P)) := by
    simp only [EventRow.fields, deltaEvent, EventPayload.json, NumberLiterals.stringifyFields,
      NumberLiterals.stringify?, NumberLiterals.stringify, count]
    simp
  have h₁ := length_le_length_stringLiteral delta
  have h₂ := length_le_length_closedList comma closeBrace hdelta
  have h₃ := length_le_length_closedList comma closeBrace hpayload
  have h₄ := length_le_byteLength (P.stringify ((deltaEvent delta).fields P (EventPayload.json P)))
  simp only [List.length_append, List.length_cons, NumberLiterals.stringify] at h₂ h₃ h₄
  rw [eventSize, NumberLiterals.stringify]
  omega

theorem largeAfterFitting_deltaRun {delta : JsString} (hdelta : 8 * 1024 * 1024 ≤ delta.length) :
    LargeAfterFitting (eventSize referencePlatform (EventPayload.json referencePlatform))
      eventPageLimits (Store.after referencePlatform {} (deltaRun delta)) (js "run_0") 0 := by
  refine ⟨Store.acceptedEvent 0 (js "run_0"), deltaEvent delta, ?_, by decide +kernel,
    hdelta.trans (length_le_eventSize referencePlatform delta)⟩
  rw [logOf_deltaRun]
  exact List.infix_refl _

/-- In front of a delta of eight mebibytes, the event that announces the run is never read. -/
theorem Service.not_delivers_deltaRun :
    ¬∀ (P : Platform) (payload : EventPayload → JsValue) (limits : PageLimits)
      (history : List StoreOp) (runId : JsString) (cursor : ℕ),
      DeliversEvents (eventSize P payload) limits (Store.after P {} history) runId cursor := by
  intro h
  obtain ⟨delta, hdelta⟩ : ∃ delta : JsString, 8 * 1024 * 1024 ≤ delta.length :=
    ⟨List.replicate (8 * 1024 * 1024) 97, List.length_replicate.ge⟩
  obtain ⟨cursor, -, hnot⟩ := (largeAfterFitting_deltaRun hdelta).not_delivers
    (Store.after_eventKeys _ _) (by decide)
  exact hnot (h _ _ _ _ _ cursor)

end LiteHarness
