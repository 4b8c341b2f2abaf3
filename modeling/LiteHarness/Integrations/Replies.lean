import LiteHarness.Foundation.Faults
import LiteHarness.Integrations.Receipts

/-!
# Delivering replies

A tick of a `DeliveryCoordinator` goes through the receipts that were pending when it began. It asks
for the reply of each, takes the lease of the receipt, sends the reply, and writes what came of it.
Coordinators work on one store, and between any two statements of a tick those of others are
executed. A lease ends thirty seconds after the *tick* began that took it.

`releaseReply` asks whether the coordinator still has the lease. `markReply` and `markFailed` do not,
and what that makes possible is what the condition `Orderly` excludes.
-/

namespace LiteHarness.Integrations

open Foundation

/-! ## State -/

/-- What `getRunReply` answers. -/
structure RunReply where
  terminal : Bool
  text : Option JsString := none
  errorCode : Option JsString := none

/-- What becomes of `adapter.send`. -/
inductive SendResult where
  | sent (externalId : JsString)
  /-- It throws a `ConnectorError`. -/
  | rejected (code : JsString) (retryable : Bool)
  /-- It throws something else. -/
  | threw

/-- How far a tick is with its first receipt. -/
inductive ReplyStage where
  /-- `getRunReply` is next. -/
  | asking
  /-- The receipt cannot be answered, and `markFailed` is next. -/
  | undeliverable (errorCode : JsString)
  /-- `claimReply` is next. -/
  | claiming (text : JsString)
  /-- `send` was called. -/
  | sending (text : JsString)
  /-- The first statement of `markReply` is next. -/
  | marking (externalId : JsString)
  /-- The second statement of `markReply` is next. -/
  | clearing
  /-- `releaseReply` is next. -/
  | releasing (errorCode : JsString)
  /-- `markFailed` is next. -/
  | failing (errorCode : JsString)

/-- A tick of a coordinator. -/
structure ReplyTick where
  id : ℕ
  /-- The coordinator. -/
  owner : JsString
  /-- The connectors it has adapters for. -/
  connectors : List JsString
  /-- The clock when the tick began. -/
  start : ℤ
  /-- The receipts that are left, as they were then. -/
  items : List DeliveryRow
  stage : ReplyStage := .asking

/-- Which tick took a lease. -/
structure ReplyClaim where
  key : DeliveryKey
  tick : ℕ
  owner : JsString

/-- The store, the ticks, and what is noted of them. -/
structure Replies where
  receipts : ReceiptTables := {}
  ticks : List ReplyTick := []
  begun : ℕ := 0
  /-- The leases that were taken, the latest first. -/
  claims : List ReplyClaim := []
  /-- Every status `REPLIED` or `FAILED` that a receipt reached. -/
  finals : List (DeliveryKey × DeliveryStatus) := []
  /-- The replies whose sending failed, but may be tried again. -/
  retryable : List DeliveryKey := []
  /-- The receipts that a tick changed after its lease was taken over. -/
  overwritten : List DeliveryKey := []

/-- What a statement meets. -/
structure ReplyEncounter where
  outcome : Outcome := .succeeds
  now : ℤ := 0
  reply : RunReply := ⟨false, none, none⟩
  result : SendResult := .threw

/-- How long a reply is leased. -/
def replyLeaseMs : ℤ := 30000

/-! ## Steps -/

namespace Replies

variable (W : Replies)

/-- The tick that took the lease of a reply last. -/
def claimant (key : DeliveryKey) : Option ReplyClaim := W.claims.find? fun c ↦ c.key = key

/-- The tick goes on. -/
def goOn (t : ReplyTick) : Replies :=
  { W with ticks := Table.update (fun t' ↦ t'.id = t.id) (fun _ ↦ t) W.ticks }

/-- The tick is over, or its process is gone. -/
def leave (t : ReplyTick) : Replies := { W with ticks := W.ticks.filter fun t' ↦ t'.id ≠ t.id }

/-- The tick goes on with the next receipt. -/
def nextItem (t : ReplyTick) : Replies :=
  W.goOn { t with items := t.items.tail, stage := .asking }

/-- A tick writes to the receipt it works on, after it had the lease. -/
def write (t : ReplyTick) (key : DeliveryKey) (receipts : ReceiptTables) : Replies :=
  { W with
    receipts := receipts
    overwritten :=
      if (W.claimant key).map (·.tick) ≠ some t.id ∧ receipts.row? key ≠ W.receipts.row? key then
        W.overwritten ++ [key]
      else W.overwritten }

/-- A receipt reaches a status. -/
def reach (key : DeliveryKey) (status : DeliveryStatus) : Replies :=
  { W with finals := W.finals ++ [(key, status)] }

/-- The next statement of a tick on its first receipt succeeds. -/
def perform (t : ReplyTick) (item : DeliveryRow) (e : ReplyEncounter) : Replies :=
  match t.stage with
  | .asking =>
    if (truthy item.runId).isNone || !e.reply.terminal then W.nextItem t
    else
      match truthy e.reply.text with
      | some text =>
        if item.envelope.connectorId ∈ t.connectors then W.goOn { t with stage := .claiming text }
        else
          W.goOn { t with
            stage := .undeliverable (e.reply.errorCode.getD (js "delivery_unavailable")) }
      | none =>
        W.goOn { t with
          stage := .undeliverable (e.reply.errorCode.getD (js "delivery_unavailable")) }
  | .undeliverable errorCode =>
    ({ W with receipts := W.receipts.markFailed item.key errorCode e.now }.reach item.key
      .failed).nextItem t
  | .claiming text =>
    match W.receipts.claimReply item.key t.owner t.start replyLeaseMs with
    | (_, false) => W.nextItem t
    | (receipts, true) =>
      { W with receipts := receipts, claims := ⟨item.key, t.id, t.owner⟩ :: W.claims }.goOn
        { t with stage := .sending text }
  | .sending _ =>
    match e.result with
    | .sent externalId => W.goOn { t with stage := .marking externalId }
    | .rejected code true =>
      { W with retryable := W.retryable ++ [item.key] }.goOn { t with stage := .releasing code }
    | .rejected code false => W.goOn { t with stage := .failing code }
    | .threw => W.goOn { t with stage := .failing (js "delivery_failed") }
  | .marking externalId =>
    ((W.write t item.key (W.receipts.markReply item.key externalId e.now)).reach item.key
      .replied).goOn { t with stage := .clearing }
  | .clearing => (W.write t item.key (W.receipts.clearLease item.key)).nextItem t
  | .releasing errorCode =>
    (W.write t item.key (W.receipts.releaseReply item.key t.owner errorCode e.now).1).nextItem t
  | .failing errorCode =>
    ((W.write t item.key (W.receipts.markFailed item.key errorCode e.now)).reach item.key
      .failed).nextItem t

/-- The next statement of a tick throws. -/
def throws (t : ReplyTick) : Replies :=
  match t.stage with
  -- These are inside `try`, and what they throw is no `ConnectorError`.
  | .sending _ | .marking _ | .clearing =>
    W.goOn { t with stage := .failing (js "delivery_failed") }
  | _ => W.leave t

/-- The next statement of a tick. -/
def advance (t : ReplyTick) (e : ReplyEncounter) : Replies :=
  match t.items, e.outcome with
  | [], _ => W.leave t
  | item :: _, .succeeds => W.perform t item e
  | _ :: _, .fails => W.throws t
  | _ :: _, .dies => W.leave t

/-- A tick of the coordinator begins. -/
def startTick (owner : JsString) (connectors : List JsString) (now : ℤ) : Replies :=
  { W with
    ticks := W.ticks ++ [⟨W.begun, owner, connectors, now, W.receipts.listPendingReplies, .asking⟩]
    begun := W.begun + 1 }

/-- The receipt has no run yet, and is the router's. -/
def Received (key : DeliveryKey) : Prop := ∃ row ∈ W.receipts.row? key, row.status = .received

instance (key : DeliveryKey) : Decidable (W.Received key) :=
  inferInstanceAs (Decidable (∃ row ∈ W.receipts.row? key, row.status = .received))

end Replies

/-- What happens. -/
inductive ReplyAction where
  /-- A delivery is claimed by the router. -/
  | receive (envelope : InboundEnvelope) (now : ℤ)
  /-- The router writes the run of a delivery. -/
  | markRun (key : DeliveryKey) (runId : JsString) (now : ℤ)
  /-- The router writes that a delivery has no run. -/
  | markFailed (key : DeliveryKey) (errorCode : JsString) (now : ℤ)
  | tick (owner : JsString) (connectors : List JsString) (now : ℤ)
  | next (tick : ℕ) (e : ReplyEncounter)

namespace Replies

/-- One step of the coordinators and the router. -/
def step (W : Replies) : ReplyAction → Replies
  | .receive envelope now => { W with receipts := (W.receipts.claim envelope now).1 }
  | .markRun key runId now =>
    if W.Received key then { W with receipts := W.receipts.markRun key runId now } else W
  | .markFailed key errorCode now =>
    if W.Received key then
      { W with receipts := W.receipts.markFailed key errorCode now }.reach key .failed
    else W
  | .tick owner connectors now => W.startTick owner connectors now
  | .next tick e =>
    match Table.lookup ReplyTick.id tick W.ticks with
    | none => W
    | some t => W.advance t e

/-- A run of the coordinators. -/
def run (W : Replies) (actions : List ReplyAction) : Replies := actions.foldl step W

end Replies

/-! ## What is claimed of a run -/

/-- The reply a tick is sending. -/
def ReplyTick.sends (t : ReplyTick) : Option DeliveryKey :=
  match t.stage with
  | .sending _ => t.items.head?.map DeliveryRow.key
  | _ => none

/-- The reply whose lease a tick took, and about which it did not write yet. -/
def ReplyTick.flight (t : ReplyTick) : Option DeliveryKey :=
  match t.stage with
  | .sending _ | .marking _ | .clearing | .releasing _ | .failing _ =>
    t.items.head?.map DeliveryRow.key
  | _ => none

/-- The reply of a receipt is sent again: it is listed, and can be leased from some time on. -/
def DeliveryRow.Pending (row : DeliveryRow) : Prop :=
  row.runId.isSome ∧ (row.status = .runStarted ∨ row.status = .delivering) ∧
    ∃ start, ∀ now, start ≤ now → ReceiptTables.isClaimable now row = true

/-- **What the leases are for.** -/
structure Replies.Delivers (W : Replies) : Prop where
  /-- One tick at most is sending a reply. -/
  alone : ∀ t ∈ W.ticks, ∀ t' ∈ W.ticks, t.sends = t'.sends → t.sends.isSome → t.id = t'.id
  /-- A receipt that was `REPLIED` or `FAILED` still is. -/
  final : ∀ f ∈ W.finals, ∃ row ∈ W.receipts.row? f.1, row.status = f.2
  /-- No tick wrote over a receipt whose lease was taken over. -/
  fenced : W.overwritten = []
  /-- A reply whose sending may be tried again is sent again, unless it came to its end. -/
  retried : ∀ key ∈ W.retryable, ∃ row ∈ W.receipts.row? key,
    row.Pending ∨ (key, row.status) ∈ W.finals

/-! ## The condition -/

namespace Replies

variable (W : Replies)

/-- The receipt is leased to the coordinator of the tick: what `releaseReply` asks. -/
def Leased (t : ReplyTick) (key : DeliveryKey) : Prop :=
  ∃ row ∈ W.receipts.row? key, ReceiptTables.isLeasedTo t.owner row = true

/-- The condition on the next statement of a tick. -/
def OrderlyAt (t : ReplyTick) (key : DeliveryKey) : Prop :=
  match t.stage with
  | .undeliverable _ => ∀ row ∈ W.receipts.row? key, row.status ≠ .replied
  | .claiming _ => ∀ t' ∈ W.ticks, t'.id ≠ t.id → t'.flight = some key →
    t'.owner ≠ t.owner ∧ (t'.sends = some key → t.start < t'.start + replyLeaseMs)
  | .marking _ | .failing _ => W.Leased t key
  | _ => True

/-- **The condition on a step**: what `markReply` and `markFailed` write after a send is about a
receipt that is leased to their coordinator, a receipt that cannot be answered is not `REPLIED`, and
when a tick takes a lease, no tick that began thirty seconds before is still sending the reply, nor is
another tick of the coordinator at it. -/
def Orderly : ReplyAction → Prop
  | .next tick e => e.outcome = .succeeds → ∀ t ∈ Table.lookup ReplyTick.id tick W.ticks,
    ∀ item ∈ t.items.head?, W.OrderlyAt t item.key
  | _ => True

end Replies

end LiteHarness.Integrations
