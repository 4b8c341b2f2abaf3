import LiteHarness.Foundation.Noninterference
import LiteHarness.Platform.JsString

/-!
# The supervisor of MCP servers

For each registered server `McpSupervisor` keeps one transport, which its operations share. An operation
takes a lease on the transport, waits until it has started and, where a catalog is configured, until the
server has listed the tools that are expected, and then sends its call. Every stop makes the leases
before it invalid.

The code between two `await`s is one step, and the promises settle in any order. What a policy decides
about values is a parameter, and so is the comparison of two schemas. `transport.start()` returns a
promise, as it is declared.

One order is fixed: an operation that has passed its last check goes on a few microtasks later, before
the promise of a stop that has begun in between can settle (`Registration.stopSettles`).
-/

namespace LiteHarness.Mcp

variable {ω σ : Type}

structure McpToolDescriptor (σ : Type) where
  name : JsString
  inputSchema : σ

/-- `BrokeredMcpToolPolicy`, as the supervisor uses it, on values `ω` and schemas `σ`. -/
structure McpPolicy (ω σ : Type) where
  assertCall : JsString → ω → Bool
  assertOutput : ω → Bool
  filterTools : ω → Option (List (McpToolDescriptor σ))
  /-- `isDeepStrictEqual`. -/
  sameSchema : σ → σ → Bool

structure McpLimits where
  idleTtlMs : ℕ := 60000
  maxBackoffMs : ℕ := 30000

/-- `McpTransportLease`. -/
structure McpTransportLease where
  transport : ℕ
  generation : ℕ
  /-- The transport whose `start()` the lease awaits. -/
  startPromise : Option ℕ
  deriving DecidableEq

inductive PromiseState where
  | pending
  | fulfilled
  | rejected
  deriving DecidableEq

/-- A call of `#readAndValidateCatalog`. -/
structure CatalogReading where
  lease : McpTransportLease
  state : PromiseState

inductive OperationKind (ω : Type) where
  | call (tool : JsString) (input : ω)
  | listTools

def OperationKind.isCall : OperationKind ω → Bool
  | .call _ _ => true
  | .listTools => false

/-- How far an operation is. -/
inductive OperationStage (ω : Type) where
  | idle
  /-- It awaits `stopPromise`. -/
  | waiting
  /-- `stopPromise` was fulfilled. -/
  | resuming
  /-- It awaits `startPromise`. -/
  | starting
  /-- `#awaitStarted` has returned. -/
  | started
  | reading (reading : ℕ)
  /-- The catalog was awaited. -/
  | validated
  | calling
  /-- The transport has answered. Whether it was current then is noted for the statements only. -/
  | answered (output : ω) (current : Bool)
  | failing
  /-- It awaits `#stopRegistration` in its `catch`. -/
  | stopping
  | ending
  | settled

/-- The operation has called `#beginOperation` and not yet `#endOperation`. -/
def OperationStage.unfinished : OperationStage ω → Bool
  | .idle | .settled => false
  | _ => true

structure Operation (ω : Type) where
  kind : OperationKind ω := .listTools
  /-- `signal?.aborted`. -/
  aborted : Bool := false
  lease : Option McpTransportLease := none
  stage : OperationStage ω := .idle

/-- A tool call that was sent. -/
structure SentCall where
  transport : ℕ
  /-- Its `start()` had succeeded. -/
  started : Bool
  /-- Its stop had begun. -/
  stopped : Bool
  /-- No catalog is configured, or the transport's own answer matched it. -/
  matched : Bool
  deriving DecidableEq

/-- `McpRegistration`, with the operations on it. -/
structure Registration (ω σ : Type) where
  policy : McpPolicy ω σ
  expectedTools : Option (List (McpToolDescriptor σ))
  transport : Option ℕ := none
  generation : ℕ := 0
  startPromise : Option ℕ := none
  catalogPromise : Option ℕ := none
  catalogValidated : Bool := false
  /-- The transport that is being stopped. -/
  stopPromise : Option ℕ := none
  idleTimer : Option McpTransportLease := none
  activeOperations : ℕ := 0
  failures : ℕ := 0
  retryAt : ℕ := 0
  /-- The number of transports the factory has made, which names the next one. -/
  made : ℕ := 0
  /-- What has become of each `start()`, a timeout being a rejection. -/
  starts : ℕ → PromiseState := fun _ ↦ .pending
  readings : ℕ → Option CatalogReading := fun _ ↦ none
  readingsMade : ℕ := 0
  operations : ℕ → Operation ω := fun _ ↦ {}
  /-- Recorded for the statements only: the operations that have begun and not ended. -/
  unfinished : List ℕ := []
  /-- Recorded for the statements only: the transports whose `start()` was called and whose `stop()` has
  not succeeded. -/
  live : List ℕ := []
  /-- Recorded for the statements only: the transports whose `stop()` has failed. -/
  unstopped : List ℕ := []
  /-- Recorded for the statements only: the transports whose stop has begun. -/
  stopsBegun : List ℕ := []
  /-- Recorded for the statements only: the transports whose own answer matched the catalog. -/
  matched : List ℕ := []
  sent : List SentCall := []
  /-- Recorded for the statements only: for each result that was returned, whether the transport was
  current when it arrived. -/
  results : List Bool := []

namespace Registration

variable (limits : McpLimits) (W : Registration ω σ)

/-- The operation is now this. -/
def goOn (n : ℕ) (operation : Operation ω) : Registration ω σ :=
  { W with operations := Function.update W.operations n operation }

/-- The operation is now here. -/
def goTo (n : ℕ) (stage : OperationStage ω) : Registration ω σ :=
  W.goOn n { W.operations n with stage := stage }

/-- The operation awaits something here, which rejects where its signal was aborted. -/
def awaitAt (n : ℕ) (stage : OperationStage ω) : Registration ω σ :=
  W.goTo n (if (W.operations n).aborted then .failing else stage)

/-- Every operation goes on. -/
def move (f : Operation ω → Operation ω) : Registration ω σ :=
  { W with operations := fun n ↦ f (W.operations n) }

/-- `#isCurrent`. -/
def IsCurrent (lease : McpTransportLease) : Prop :=
  W.transport = some lease.transport ∧ W.generation = lease.generation

instance (lease : McpTransportLease) : Decidable (W.IsCurrent lease) :=
  inferInstanceAs (Decidable (_ ∧ _))

/-! ## Counting -/

/-- `#recordFailure`. -/
def recordFailure (now : ℕ) : Registration ω σ :=
  { W with
    failures := W.failures + 1
    retryAt := now + min (2 ^ W.failures * 250) limits.maxBackoffMs }

/-- `#armIdle`. -/
def armIdle : Registration ω σ :=
  match W.transport with
  | none => W
  | some transport =>
    if W.activeOperations ≠ 0 ∨ W.stopPromise.isSome then W
    else { W with
      idleTimer := if limits.idleTtlMs = 0 then none else some ⟨transport, W.generation, none⟩ }

/-- `#endOperation`, and the operation is over. -/
def endOperation (n : ℕ) : Registration ω σ :=
  let ended : Registration ω σ :=
    { W with activeOperations := W.activeOperations - 1, unfinished := W.unfinished.erase n }
  (if ended.activeOperations = 0 then ended.armIdle limits else ended).goTo n .settled

/-! ## Stopping -/

/-- `#stopRegistration` to its `await`, from where no stop is under way. -/
def beginStop (transport : ℕ) : Registration ω σ :=
  { W with
    idleTimer := none
    transport := none
    generation := W.generation + 1
    catalogValidated := false
    startPromise := none
    catalogPromise := none
    stopPromise := some transport
    stopsBegun := transport :: W.stopsBegun }

/-- `#stopRegistration` of the transport that is current. -/
def stopRegistration : Registration ω σ :=
  if W.stopPromise.isSome then W
  else
    match W.transport with
    | none => { W with idleTimer := none }
    | some transport => W.beginStop transport

/-- Who awaits `stopPromise` goes on. -/
def afterStop (stopped : Bool) (operation : Operation ω) : Operation ω :=
  match operation.stage with
  | .waiting => { operation with stage := if stopped then .resuming else .failing }
  | .stopping => { operation with stage := .ending }
  | _ => operation

/-- The operation is to go on before a stop that has begun can end. -/
def IsDue (operation : Operation ω) : Prop :=
  match operation.stage with
  | .started | .validated => ∃ lease ∈ operation.lease, ¬W.IsCurrent lease
  | _ => False

instance : DecidablePred W.IsDue := fun operation ↦ by
  unfold IsDue
  split <;> infer_instance

/-- `transport.stop()` has settled. -/
def stopSettles (stopped : Bool) : Registration ω σ :=
  match W.stopPromise with
  | none => W
  | some transport =>
    if ∃ n ∈ W.unfinished, W.IsDue (W.operations n) then W
    else
      { W with
        stopPromise := none
        live := if stopped then W.live.erase transport else W.live
        unstopped := if stopped then W.unstopped else transport :: W.unstopped
        }.move (afterStop stopped)

/-- The idle timer fires. -/
def timerFires : Registration ω σ :=
  match W.idleTimer with
  | none => W
  | some lease =>
    let fired : Registration ω σ := { W with idleTimer := none }
    if W.activeOperations ≠ 0 ∨ ¬W.IsCurrent lease then fired else fired.stopRegistration

/-! ## Operations -/

/-- The operation has its lease, and awaits its start. -/
def lend (n : ℕ) (lease : McpTransportLease) : Registration ω σ :=
  W.goOn n { W.operations n with lease := some lease, stage := .starting }

/-- A transport is made, and its `start()` called. -/
def create : Registration ω σ :=
  { W with
    transport := some W.made
    generation := W.generation + 1
    startPromise := some W.made
    made := W.made + 1
    live := W.made :: W.live }

/-- `#acquireTransport`, from where no stop is awaited. `factory()` may throw. -/
def acquireTransport (n : ℕ) (makes : Bool) : Registration ω σ :=
  match W.transport with
  | some transport => W.lend n ⟨transport, W.generation, W.startPromise⟩
  | none =>
    if makes then W.create.lend n ⟨W.made, W.generation + 1, some W.made⟩ else W.goTo n .failing

/-- The operation throws before it begins. -/
def denies (kind : OperationKind ω) (now : ℕ) (aborted : Bool) : Bool :=
  let denied : Bool :=
    match kind with
    | .call tool input =>
      !W.policy.assertCall tool input ||
        W.expectedTools.any fun tools ↦ !tools.any fun descriptor ↦ descriptor.name = tool
    | .listTools => false
  denied || decide (now < W.retryAt) || aborted

/-- `call` and `listTools` to their first `await`. -/
def start (n : ℕ) (kind : OperationKind ω) (now : ℕ) (aborted makes : Bool) : Registration ω σ :=
  if W.denies kind now aborted then W.goTo n .settled
  else
    let begun : Registration ω σ := { W with
      idleTimer := none
      activeOperations := W.activeOperations + 1
      unfinished := n :: W.unfinished }.goOn n { kind := kind, stage := .waiting }
    if W.stopPromise.isSome then begun else begun.acquireTransport n makes

/-- The operation reads the catalog. -/
def read (n : ℕ) (lease : McpTransportLease) : Registration ω σ :=
  { W with
    readings := Function.update W.readings W.readingsMade (some ⟨lease, .pending⟩)
    readingsMade := W.readingsMade + 1 }.awaitAt n (.reading W.readingsMade)

/-- `#ensureExpectedCatalog` to its `await`. -/
def ensureExpectedCatalog (n : ℕ) (lease : McpTransportLease) : Registration ω σ :=
  if ¬W.IsCurrent lease then W.goTo n .failing
  else if W.catalogValidated then W.goTo n .validated
  else
    match W.catalogPromise with
    | none => { W with catalogPromise := some W.readingsMade }.read n lease
    | some reading =>
      match W.readings reading with
      | some ⟨_, .rejected⟩ => W.goTo n .failing
      | _ => W.awaitAt n (.reading reading)

/-- The call is sent. -/
def send (n : ℕ) (lease : McpTransportLease) : Registration ω σ :=
  { W with
    sent := ⟨lease.transport, W.starts lease.transport = PromiseState.fulfilled,
      lease.transport ∈ W.stopsBegun,
      W.expectedTools.isNone ∨ lease.transport ∈ W.matched⟩ :: W.sent }.awaitAt n .calling

/-- The `catch` of an operation. -/
def caught (n now : ℕ) : Registration ω σ :=
  let operation := W.operations n
  let current := operation.lease.any fun lease ↦ decide (W.IsCurrent lease)
  if operation.aborted then
    if current ∧ W.activeOperations = 1 then W.stopRegistration.goTo n .stopping
    else W.endOperation limits n
  else if current then (W.recordFailure limits now).stopRegistration.goTo n .stopping
  else if operation.lease.isNone ∧ W.transport.isNone ∧ W.stopPromise.isNone then
    (W.recordFailure limits now).endOperation limits n
  else W.endOperation limits n

/-- The operation has what it is to return. -/
def succeed (n : ℕ) : Registration ω σ :=
  { W with failures := 0, retryAt := 0 }.endOperation limits n

/-- The operation runs to its next `await`, with the lease it has taken. -/
def proceed (n : ℕ) (lease : McpTransportLease) : Registration ω σ :=
  match (W.operations n).stage with
  | .starting =>
    match lease.startPromise with
    | none => W.goTo n .started
    | some transport =>
      if (W.operations n).aborted then W.goTo n .failing
      else
        match W.starts transport with
        | .pending => W
        | .rejected => W.goTo n .failing
        | .fulfilled => W.goTo n (if W.IsCurrent lease then .started else .failing)
  | .started =>
    match (W.operations n).kind with
    | .call _ _ =>
      if W.expectedTools.isSome ∧ W.catalogValidated = false then W.ensureExpectedCatalog n lease
      else W.send n lease
    | .listTools =>
      if W.expectedTools.isSome then W.ensureExpectedCatalog n lease else W.read n lease
  | .validated =>
    match (W.operations n).kind with
    | .call _ _ => W.send n lease
    | .listTools => if W.IsCurrent lease then W.succeed limits n else W.goTo n .failing
  | .answered output current =>
    if W.IsCurrent lease ∧ W.policy.assertOutput output then
      { W with results := current :: W.results }.succeed limits n
    else W.goTo n .failing
  | _ => W

/-- The operation runs to its next `await`. -/
def resume (n now : ℕ) (makes : Bool) : Registration ω σ :=
  match (W.operations n).stage with
  | .resuming => W.acquireTransport n makes
  | .failing => W.caught limits n now
  | .ending => W.endOperation limits n
  | _ =>
    match (W.operations n).lease with
    | none => W
    | some lease => W.proceed limits n lease

/-- The signal of the caller is aborted, which rejects what the operation awaits. -/
def abort (n : ℕ) : Registration ω σ :=
  let operation := { W.operations n with aborted := true }
  match operation.stage with
  | .waiting | .starting | .reading _ | .calling => W.goOn n { operation with stage := .failing }
  | _ => W.goOn n operation

/-! ## What the promises of the transport do -/

/-- `transport.start()` has settled, or timed out. -/
def startSettles (transport : ℕ) (started : Bool) : Registration ω σ :=
  if transport < W.made ∧ W.starts transport = .pending then
    { W with
      starts := Function.update W.starts transport
        (if started then PromiseState.fulfilled else .rejected) }
  else W

/-- Every tool that is expected is among those discovered, with the same schema. -/
def catalogMatches (expected discovered : List (McpToolDescriptor σ)) : Bool :=
  expected.all fun descriptor ↦
    match discovered.find? fun candidate ↦ candidate.name = descriptor.name with
    | none => false
    | some actual => W.policy.sameSchema actual.inputSchema descriptor.inputSchema

/-- The reading is over, for all who await it. -/
def settleReading (reading : ℕ) (lease : McpTransportLease) (read : Bool) : Registration ω σ :=
  { W with
    readings := Function.update W.readings reading
      (some ⟨lease, if read then PromiseState.fulfilled else .rejected⟩) }.move fun operation ↦
    match operation.stage with
    | .reading r =>
      if r = reading then { operation with stage := if read then .validated else .failing }
      else operation
    | _ => operation

/-- `transport.listTools()` has answered with these tools, or it has rejected, timed out or is
missing. -/
def catalogSettles (reading : ℕ) (tools : Option ω) : Registration ω σ :=
  match W.readings reading with
  | some ⟨lease, .pending⟩ =>
    match tools.bind W.policy.filterTools with
    | none => W.settleReading reading lease false
    | some discovered =>
      if ¬W.IsCurrent lease then W.settleReading reading lease false
      else
        match W.expectedTools with
        | none => W.settleReading reading lease true
        | some expected =>
          if W.catalogMatches expected discovered then
            { W with
              catalogValidated := true
              matched := lease.transport :: W.matched }.settleReading reading lease true
          else W.settleReading reading lease false
  | _ => W

/-- `transport.call()` has answered, or it has rejected or timed out. -/
def callSettles (n : ℕ) (output : Option ω) : Registration ω σ :=
  match (W.operations n).stage with
  | .calling =>
    match output with
    | none => W.goTo n .failing
    | some output =>
      W.goTo n (.answered output ((W.operations n).lease.any fun lease ↦ decide (W.IsCurrent lease)))
  | _ => W

end Registration

/-- What happens to a server. -/
inductive RegistrationAction (ω : Type) where
  /-- `call` or `listTools` is called, under a number that no operation had. -/
  | start (n : ℕ) (kind : OperationKind ω) (now : ℕ) (aborted makes : Bool)
  | resume (n now : ℕ) (makes : Bool)
  | abort (n : ℕ)
  | startSettles (transport : ℕ) (started : Bool)
  | catalogSettles (reading : ℕ) (tools : Option ω)
  | callSettles (n : ℕ) (output : Option ω)
  | stop
  | stopSettles (stopped : Bool)
  | timerFires

namespace Registration

/-- One step on a server. -/
def step (limits : McpLimits) (W : Registration ω σ) : RegistrationAction ω → Registration ω σ
  | .start n kind now aborted makes =>
    match (W.operations n).stage with
    | .idle => W.start n kind now aborted makes
    | _ => W
  | .resume n now makes => W.resume limits n now makes
  | .abort n => W.abort n
  | .startSettles transport started => W.startSettles transport started
  | .catalogSettles reading tools => W.catalogSettles reading tools
  | .callSettles n output => W.callSettles n output
  | .stop => W.stopRegistration
  | .stopSettles stopped => W.stopSettles stopped
  | .timerFires => W.timerFires

end Registration

/-- What happens to the supervisor. -/
inductive McpAction (ω σ : Type) where
  | register (serverId : JsString) (policy : McpPolicy ω σ)
    (expectedTools : Option (List (McpToolDescriptor σ)))
  | on (serverId : JsString) (action : RegistrationAction ω)
  | stopAll

/-- `McpSupervisor`: the registrations, in the order of their map. -/
abbrev McpSupervisor (ω σ : Type) := List (JsString × Registration ω σ)

namespace McpSupervisor

/-- One step of the supervisor. What is said to a server that is not registered has no effect. -/
def step (limits : McpLimits) (W : McpSupervisor ω σ) : McpAction ω σ → McpSupervisor ω σ
  | .register serverId policy expectedTools =>
    if W.any fun entry ↦ entry.1 = serverId then W
    else W ++ [(serverId, { policy := policy, expectedTools := expectedTools })]
  | .on serverId action =>
    W.map fun entry ↦
      if entry.1 = serverId then (entry.1, entry.2.step limits action) else entry
  | .stopAll => W.map fun entry ↦ (entry.1, entry.2.stopRegistration)

/-- A run of the supervisor. -/
def run (limits : McpLimits) (W : McpSupervisor ω σ) (actions : List (McpAction ω σ)) :
    McpSupervisor ω σ :=
  actions.foldl (step limits) W

end McpSupervisor

/-! ## What is claimed of a run -/

namespace Registration

variable (W : Registration ω σ)

/-- **What the supervisor is for**, on one server. -/
structure Supervises (W : Registration ω σ) : Prop where
  /-- One transport at most was started and not successfully stopped. -/
  single : W.live.length ≤ 1
  /-- Every tool call was sent to a transport that had started, that nobody had begun to stop, and whose
  own tools matched the catalog, if there is one. -/
  sent : ∀ call ∈ W.sent, call.started = true ∧ call.stopped = false ∧ call.matched = true
  /-- Every result arrived while the transport was current. -/
  results : ∀ current ∈ W.results, current = true
  /-- `activeOperations` counts the operations that have begun and not ended. -/
  counted : W.activeOperations = W.unfinished.length ∧ W.unfinished.Nodup ∧
    ∀ n, n ∈ W.unfinished ↔ (W.operations n).stage.unfinished = true
  /-- The idle timer stops a transport only where no operation is under way. -/
  idle : W.timerFires.transport ≠ W.transport → W.unfinished = []

/-! ## The condition -/

/-- A call that has passed its last check and is about to be sent. -/
def InWindow (operation : Operation ω) : Prop :=
  operation.kind.isCall = true ∧ (∃ lease ∈ operation.lease, W.IsCurrent lease) ∧
    match operation.stage with
    | .started => W.expectedTools.isNone = true
    | .validated => True
    | _ => False

instance : DecidablePred W.InWindow := fun operation ↦ by
  unfold InWindow
  have : Decidable (match operation.stage with
    | .started => W.expectedTools.isNone = true
    | .validated => True
    | _ => False) := by split <;> infer_instance
  infer_instance

/-- No call is about to be sent. -/
def Quiet : Prop := ∀ n ∈ W.unfinished, ¬W.InWindow (W.operations n)

instance : Decidable W.Quiet := inferInstanceAs (Decidable (∀ n ∈ W.unfinished, _))

/-- **The condition on a step**: a transport is made while no other one is being stopped, and none could
not be stopped; and a stop begins while no call is about to be sent. -/
def Orderly : RegistrationAction ω → Prop
  | .start n kind now aborted makes =>
    match (W.operations n).stage with
    | .idle => W.denies kind now aborted = false → W.transport = none → W.stopPromise = none →
        makes = true → W.unstopped = []
    | _ => True
  | .resume n _ makes =>
    match (W.operations n).stage with
    | .resuming => W.transport = none → makes = true → W.stopPromise = none ∧ W.unstopped = []
    | .failing =>
      (W.operations n).aborted = false → (∃ lease ∈ (W.operations n).lease, W.IsCurrent lease) →
        W.Quiet
    | _ => True
  | .stop => W.Quiet
  | _ => True

instance : DecidablePred W.Orderly
  | .start _ _ _ _ _ | .resume _ _ _ => by
    unfold Orderly
    dsimp only
    split <;> infer_instance
  | .stop => inferInstanceAs (Decidable W.Quiet)
  | .abort _ | .startSettles _ _ | .catalogSettles _ _ | .callSettles _ _ | .stopSettles _
  | .timerFires => isTrue trivial

end Registration

namespace McpSupervisor

/-- The condition on a step of the supervisor. -/
def Orderly (W : McpSupervisor ω σ) : McpAction ω σ → Prop
  | .register _ _ _ => True
  | .on serverId action => ∀ entry ∈ W, entry.1 = serverId → entry.2.Orderly action
  | .stopAll => ∀ entry ∈ W, entry.2.Orderly .stop

instance (W : McpSupervisor ω σ) : DecidablePred W.Orderly
  | .register _ _ _ => isTrue trivial
  | .on _ _ => inferInstanceAs (Decidable (∀ entry ∈ W, _ → _))
  | .stopAll => inferInstanceAs (Decidable (∀ entry ∈ W, _))

end McpSupervisor

end LiteHarness.Mcp
