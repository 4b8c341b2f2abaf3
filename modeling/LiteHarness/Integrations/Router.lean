import LiteHarness.Foundation.Faults
import LiteHarness.Integrations.Receipts
import LiteHarness.Storage.RunKeys

/-!
# Routing inbound deliveries

`InboundRunRouter` claims a delivery, starts its run and writes the run into the receipt: three
commits, between which other deliveries come in, anything may fail, and the process may end. The
manager starts the run with `createOrGetRun`, under a key it makes from the ids of the delivery.
-/

namespace LiteHarness.Integrations

open Foundation

/-! ## Requests -/

/-- The host of the router. -/
structure RouterHost extends Platform where
  /-- The first 24 hexadecimal digits of the SHA-256 digest. -/
  shortDigest : JsString → JsString
  /-- A digit is not an underscore. -/
  shortDigest_unit : ∀ text, ∀ u ∈ shortDigest text, u ≠ 95

/-- What `startRun` is called with. -/
structure StartRunRequest where
  binding : IntegrationBinding
  envelope : InboundEnvelope
  sessionId : JsString
  deriving DecidableEq

/-- `composeInboundPrompt`. -/
def composeInboundPrompt (envelope : InboundEnvelope) : JsString :=
  if envelope.attachmentUrls = [] then envelope.text
  else
    envelope.text ++ js "\n\nAttachments (untrusted external references):\n" ++
      List.intercalate (js "\n") (envelope.attachmentUrls.map fun url ↦ js "- " ++ url)

/-- What the session is made from. -/
def InboundEnvelope.conversation (envelope : InboundEnvelope) : JsString :=
  (envelope.threadExternalId.or envelope.conversationExternalId).getD envelope.senderExternalId

/-- The request of a delivery. -/
def startRunRequest (H : RouterHost) (binding : IntegrationBinding) (envelope : InboundEnvelope) :
    StartRunRequest where
  binding := binding
  envelope := envelope
  sessionId := binding.sessionPrefix ++ 95 :: H.shortDigest envelope.conversation

/-- The key of a run: `webhook:${envelope.accountId}:${envelope.deliveryId}`. -/
def InboundEnvelope.idempotencyKey (envelope : InboundEnvelope) : JsString :=
  js "webhook:" ++ (envelope.accountId ++ 58 :: envelope.deliveryId)

/-- Whom a binding acts for. -/
def IntegrationBinding.owner (binding : IntegrationBinding) : ResourceOwner :=
  ⟨binding.appId, binding.tenantId, binding.userId⟩

/-- The run the manager asks for. -/
def StartRunRequest.run (request : StartRunRequest) : InternalStartRunRequest where
  agent := request.binding.agentId
  workspace := request.binding.workspaceId
  session := some request.sessionId
  input := composeInboundPrompt request.envelope
  idempotencyKey := request.envelope.idempotencyKey
  principal := request.binding.owner

/-! ## State -/

/-- How far a call of `route` is, once it claimed its delivery. -/
inductive RouteStage where
  /-- `getBinding` is next. -/
  | binding
  /-- There is no binding, and `markFailed` is next. -/
  | unbound
  /-- `startRun` is next. -/
  | starting (request : StartRunRequest)
  /-- `markRun` is next. -/
  | marking (runId : JsString)
  /-- `markFailed` is next. -/
  | failing

/-- A call of `route` that claimed its delivery. -/
structure RouteCall where
  id : ℕ
  envelope : InboundEnvelope
  stage : RouteStage

/-- What a call of `route` returned. -/
structure RouteAnswer where
  key : DeliveryKey
  duplicate : Bool
  runId : Option JsString
  /-- The run that had been started for the delivery. -/
  existing : Option JsString

/-- The router, what it works on, and what is noted of its calls. -/
structure Inbound where
  receipts : ReceiptTables := {}
  runs : Store := {}
  calls : List RouteCall := []
  begun : ℕ := 0
  /-- What `startRun` was called with. -/
  requests : List StartRunRequest := []
  /-- The runs that were started, by their delivery. -/
  started : List (DeliveryKey × JsString) := []
  /-- The deliveries whose call ended without a run because something failed or the process died. -/
  owed : List DeliveryKey := []
  answers : List RouteAnswer := []

/-- What a statement meets: its outcome, the clock, the identifiers that are drawn, and whether
`startRun` rejects behind its commit. -/
structure Encounter where
  outcome : Outcome := .succeeds
  now : ℤ := 0
  fresh : Store.FreshInternalIds := ⟨[], [], []⟩
  runId : JsString := []
  lost : Bool := false

/-! ## Steps -/

namespace Inbound

variable (H : RouterHost) (W : Inbound)

/-- The run of a delivery. -/
def existing (key : DeliveryKey) : Option JsString :=
  (W.started.find? fun s ↦ s.1 = key).map Prod.snd

/-- The call goes on. -/
def goOn (c : RouteCall) : Inbound :=
  { W with calls := Table.update (fun c' ↦ c'.id = c.id) (fun _ ↦ c) W.calls }

/-- The call is over, or its process is gone. -/
def finish (c : RouteCall) : Inbound := { W with calls := W.calls.filter fun c' ↦ c'.id ≠ c.id }

/-- The call is over before there is a run. -/
def abandon (c : RouteCall) : Inbound :=
  { W.finish c with owed := W.owed ++ [c.envelope.key] }

/-- A delivery comes in. -/
def deliver (envelope : InboundEnvelope) (now : ℤ) : Inbound :=
  match W.receipts.claim envelope now with
  | (_, false) =>
    { W with
      answers := W.answers ++ [⟨envelope.key, true, (W.receipts.row? envelope.key).bind (·.runId),
        W.existing envelope.key⟩] }
  | (receipts, true) =>
    { W with
      receipts := receipts
      calls := W.calls ++ [⟨W.begun, envelope, .binding⟩]
      begun := W.begun + 1 }

/-- `startRun` of the manager. -/
def startRun (c : RouteCall) (request : StartRunRequest) (e : Encounter) : Inbound :=
  match (Store.createOrGetRun H.toPlatform e.now e.fresh e.runId request.run).run W.runs with
  | (.error _, _) => W.goOn { c with stage := .failing }
  | (.ok (run, created), runs) =>
    { W with
      runs := runs
      started := if created then W.started ++ [(c.envelope.key, run.id)] else W.started }.goOn
      { c with stage := if e.lost then .failing else .marking run.id }

/-- The next statement of a call. -/
def advance (c : RouteCall) (e : Encounter) : Inbound :=
  match c.stage, e.outcome with
  | .binding, .succeeds =>
    match W.receipts.getBinding c.envelope with
    | none => W.goOn { c with stage := .unbound }
    | some binding => W.goOn { c with stage := .starting (startRunRequest H binding c.envelope) }
  | .binding, _ => W.abandon c
  | .unbound, .succeeds =>
    { W.finish c with
      receipts := W.receipts.markFailed c.envelope.key (js "binding_missing") e.now }
  | .unbound, _ => W.finish c
  | .starting request, outcome =>
    let W : Inbound := { W with requests := W.requests ++ [request] }
    match outcome with
    | .succeeds => W.startRun H c request e
    | .fails => { W with owed := W.owed ++ [c.envelope.key] }.goOn { c with stage := .failing }
    | .dies => W.abandon c
  | .marking runId, .succeeds =>
    { W.finish c with
      receipts := W.receipts.markRun c.envelope.key runId e.now
      answers := W.answers ++ [⟨c.envelope.key, false, some runId, W.existing c.envelope.key⟩] }
  | .marking _, .fails => W.goOn { c with stage := .failing }
  | .marking _, .dies => W.finish c
  | .failing, .succeeds =>
    { W.finish c with
      receipts := W.receipts.markFailed c.envelope.key (js "run_start_failed") e.now }
  | .failing, _ => W.finish c

end Inbound

/-- What happens. -/
inductive InboundAction where
  | bind (binding : IntegrationBinding)
  | deliver (envelope : InboundEnvelope) (now : ℤ) (outcome : Outcome)
  | next (call : ℕ) (e : Encounter)
  /-- Another operation on the store of runs. -/
  | other (op : StoreOp)

namespace Inbound

variable (H : RouterHost)

/-- One step of the router. -/
def step (W : Inbound) : InboundAction → Inbound
  | .bind binding => { W with receipts := W.receipts.bind binding }
  | .deliver envelope now outcome =>
    match outcome with
    | .succeeds => W.deliver envelope now
    | _ => W
  | .next call e =>
    match Table.lookup RouteCall.id call W.calls with
    | none => W
    | some c => W.advance H c e
  | .other op => { W with runs := op.apply H.toPlatform W.runs }

/-- A run of the router. -/
def run (W : Inbound) (actions : List InboundAction) : Inbound := actions.foldl (step H) W

end Inbound

/-! ## What is claimed of a run -/

/-- Two requests are for one session. -/
def StartRunRequest.SharesSession (r r' : StartRunRequest) : Prop :=
  r.binding.owner = r'.binding.owner ∧ r.sessionId = r'.sessionId

/-- The account and the conversation of an envelope. -/
def InboundEnvelope.place (envelope : InboundEnvelope) : JsString × JsString × JsString :=
  (envelope.connectorId, envelope.accountId,
    envelope.conversationExternalId.getD envelope.senderExternalId)

/-- **What the router is for.** -/
structure Inbound.Routes (W : Inbound) : Prop where
  /-- A delivery starts one run at most. -/
  once : (W.started.map Prod.fst).Nodup
  /-- A delivery that something kept from its run gets it when it comes again. -/
  retried : ∀ envelope now, envelope.key ∈ W.owed → (W.receipts.claim envelope now).2 = true
  /-- A run is in the receipt, or is about to be written into it. -/
  linked : ∀ s ∈ W.started, (∃ row ∈ W.receipts.row? s.1, row.runId = some s.2) ∨
    ∃ c ∈ W.calls, c.envelope.key = s.1 ∧ c.stage = .marking s.2
  /-- A delivery that comes again is answered with the run it has. -/
  answered : ∀ a ∈ W.answers, ∀ runId ∈ a.existing, a.runId = some runId
  /-- Deliveries have keys of their own. -/
  keys : ∀ r ∈ W.requests, ∀ r' ∈ W.requests,
    r.envelope.idempotencyKey = r'.envelope.idempotencyKey → r.envelope.key = r'.envelope.key
  /-- Conversations have sessions of their own. -/
  sessions : ∀ r ∈ W.requests, ∀ r' ∈ W.requests,
    r.SharesSession r' → r.envelope.place = r'.envelope.place

/-! ## The condition -/

/-- The account of the second goes on where that of the first ends, with a colon and the beginning of
the first's delivery id. -/
def InboundEnvelope.Overlaps (e e' : InboundEnvelope) : Prop :=
  ∃ part, e'.accountId = e.accountId ++ 58 :: part ∧ e.deliveryId = part ++ 58 :: e'.deliveryId

/-- Two deliveries are told apart by the connector only, or by where the account ends. -/
def InboundEnvelope.Confused (e e' : InboundEnvelope) : Prop :=
  e.key ≠ e'.key ∧ ((e.accountId = e'.accountId ∧ e.deliveryId = e'.deliveryId) ∨ e.Overlaps e' ∨
    e'.Overlaps e)

/-- Two conversations are of one owner and one prefix, and their thread, conversation or sender is
one text, as far as the digest tells. -/
def StartRunRequest.Mingled (H : RouterHost) (r r' : StartRunRequest) : Prop :=
  r.envelope.place ≠ r'.envelope.place ∧ r.binding.owner = r'.binding.owner ∧
    r.binding.sessionPrefix = r'.binding.sessionPrefix ∧
      H.shortDigest r.envelope.conversation = H.shortDigest r'.envelope.conversation

namespace Inbound

variable (H : RouterHost) (W : Inbound)

/-- The condition on the next statement of a call. -/
def OrderlyAt (c : RouteCall) (e : Encounter) : Prop :=
  match c.stage with
  | .binding | .marking _ => e.outcome = .succeeds
  | .starting request =>
    e.outcome = .succeeds ∧ e.lost = false ∧ ∀ r ∈ W.requests,
      ¬request.envelope.Confused r.envelope ∧ ¬StartRunRequest.Mingled H request r
  | .unbound | .failing => True

/-- **The condition on a step**: nothing fails between the claim of a delivery and the writing of its
run, a delivery does not come again between the start of its run and that, and no two deliveries or
conversations are confused. -/
def Orderly : InboundAction → Prop
  | .deliver envelope _ _ =>
    ∀ c ∈ W.calls, c.envelope.key = envelope.key → ∀ runId, c.stage ≠ .marking runId
  | .next call e => ∀ c ∈ Table.lookup RouteCall.id call W.calls, W.OrderlyAt H c e
  | _ => True

end Inbound

end LiteHarness.Integrations
