import LiteHarness.Foundation.BoundedMemo
import LiteHarness.Foundation.Ownership
import LiteHarness.Provider.Registry

/-!
# Gateways and their memos

`ConnectionAwareModelGateway` selects the gateway of a run attempt, and the selected gateway
(`RoutedModelGateway` or `CapabilityBoundModelGateway`) plans its route. Both keep what they chose in
a memo of 1024 attempts, which is filled after an `await`: so calls of any number of attempts
interleave between a look-up and the entry that answers it, while registries and provider connections
change.

Gateway objects are numbered; `0` is the installation's own, and `resolve` may return any of them, an
old or a fresh one. The hook `onRoutePlan` is the store's: it either persists the plan and returns, or
throws.
-/

namespace LiteHarness.Provider

open Foundation

/-- `${context.runId}\0${context.attemptId}`. -/
def attemptKey (context : ModelRunContext) : JsString :=
  context.runId ++ [0] ++ context.attemptId

/-- The capacity of a memo. -/
def memoCapacity : ℕ := 1024

/-- `RoutePlan | ModelRegistry`. -/
inductive Route where
  | fixed (plan : RoutePlan)
  | registry (registry : ModelRegistry)
  deriving DecidableEq

/-- The plan of a gateway that does not plan itself. -/
def Route.fixed? : Route → Option RoutePlan
  | .fixed plan => some plan
  | .registry _ => none

/-- A gateway that plans: its route and its memo `#plans`. -/
structure PlanningGateway where
  route : Route
  plans : List (JsString × RoutePlan) := []
  deriving DecidableEq

/-- A plan the hook has persisted for an attempt. -/
structure PersistedPlan where
  context : ModelRunContext
  gateway : ℕ
  plan : RoutePlan

/-- The state the calls share. -/
structure Gateways where
  gateway : ℕ → PlanningGateway
  /-- `#gateways`. -/
  gateways : List (JsString × ℕ) := []
  /-- All that was ever entered in `#gateways`. -/
  selected : List (JsString × ℕ) := []
  persisted : List PersistedPlan := []

inductive CallKind where
  | prepareRun | streamTurn
  deriving DecidableEq

structure GatewayCall where
  kind : CallKind
  context : ModelRunContext

/-- The promise a call of a gateway awaits. -/
inductive Stage where
  /-- `resolve(connectionId, context)`. -/
  | resolving (call : GatewayCall)
  /-- The gateway was selected. -/
  | routed (call : GatewayCall) (gateway : ℕ)
  /-- `onRoutePlan`. -/
  | persisting (call : GatewayCall) (gateway : ℕ) (plan : RoutePlan)
  /-- The plan is there. -/
  | planned (call : GatewayCall) (gateway : ℕ) (plan : RoutePlan)

/-- How a call ends: its gateway and its plan are in use, or it has thrown. -/
inductive Outcome where
  | uses (call : GatewayCall) (gateway : ℕ) (plan : RoutePlan)
  | throws (call : GatewayCall) (error : Thrown)

def providerConnectionUnavailable : Thrown :=
  .provider ⟨js "provider_connection_unavailable",
    js "The selected provider connection is not available", false⟩

def frozenRouteMismatch : Thrown :=
  .provider ⟨js "no_compatible_model", js "Frozen route does not satisfy the run capabilities",
    false⟩

namespace Gateways

variable (s : Gateways)

/-- `this.#gateways.set(key, gateway)`, and the oldest entries are dropped. -/
def select (call : GatewayCall) (gateway : ℕ) : Gateways × Ending Stage Outcome :=
  ({ s with
      gateways := Memo.enter memoCapacity (attemptKey call.context) gateway s.gateways
      selected := s.selected ++ [(attemptKey call.context, gateway)] },
    .suspends (.routed call gateway))

/-- `ConnectionAwareModelGateway.#gateway`, up to its first `await`. -/
def begin (call : GatewayCall) : Gateways × Ending Stage Outcome :=
  match Table.lookup Prod.fst (attemptKey call.context) s.gateways with
  | some (_, gateway) => (s, .suspends (.routed call gateway))
  | none =>
    if (truthy call.context.providerConnectionId).isSome then (s, .suspends (.resolving call))
    else s.select call 0

/-- `#gateway`, once `resolve` has settled. -/
def resolved (call : GatewayCall) : Except Thrown (Option ℕ) → Gateways × Ending Stage Outcome
  | .error e => (s, .answers (.throws call e))
  | .ok none => (s, .answers (.throws call providerConnectionUnavailable))
  | .ok (some gateway) => s.select call gateway

/-- `#plan` of the selected gateway, up to its first `await`. -/
def plan (call : GatewayCall) (gateway : ℕ) (id : JsString) (createdAt : ℤ) :
    Gateways × Ending Stage Outcome :=
  let requiredCapabilities := normalizedRequiredCapabilities call.context.requiredCapabilities
  match (s.gateway gateway).route with
  | .fixed plan =>
    if requiredCapabilities.all (plan.selected.capabilities.contains ·) then
      (s, .suspends (.planned call gateway plan))
    else (s, .answers (.throws call frozenRouteMismatch))
  | .registry registry =>
    match Table.lookup Prod.fst (attemptKey call.context) (s.gateway gateway).plans with
    | some (_, plan) => (s, .suspends (.planned call gateway plan))
    | none =>
      match registry.plan ⟨requiredCapabilities, none, none, none, none⟩ id createdAt with
      | .error e => (s, .answers (.throws call (.provider e)))
      | .ok plan => (s, .suspends (.persisting call gateway plan))

/-- `#plan`, once the hook has settled. -/
def stored (call : GatewayCall) (gateway : ℕ) (plan : RoutePlan) :
    Except Thrown Unit → Gateways × Ending Stage Outcome
  | .error e => (s, .answers (.throws call e))
  | .ok () =>
    ({ s with
        gateway := Function.update s.gateway gateway
          { s.gateway gateway with
            plans := Memo.enter memoCapacity (attemptKey call.context) plan
              (s.gateway gateway).plans }
        persisted := s.persisted ++ [⟨call.context, gateway, plan⟩] },
      .suspends (.planned call gateway plan))

/-- A model is registered at a gateway that has a registry. -/
def register (gateway : ℕ) (model : ModelDescriptor) : Gateways :=
  match (s.gateway gateway).route with
  | .fixed _ => s
  | .registry registry =>
    { s with
      gateway := Function.update s.gateway gateway
        { s.gateway gateway with route := .registry (registry.register model) } }

end Gateways

/-! ## Histories -/

/-- What happens next. A call is named by its number. -/
inductive GatewayInput where
  /-- `prepareRun(context)` or a turn of `streamTurn` begins. -/
  | call (call : GatewayCall)
  /-- `resolve` has settled. -/
  | resolved (n : ℕ) (result : Except Thrown (Option ℕ))
  /-- The call goes on; a plan it draws has this id and date. -/
  | goesOn (n : ℕ) (id : JsString) (createdAt : ℤ)
  /-- `onRoutePlan` has settled. -/
  | stored (n : ℕ) (result : Except Thrown Unit)
  | register (gateway : ℕ) (model : ModelDescriptor)

abbrev GatewayCalls := Calls Gateways Stage Outcome

/-- The stretch a call runs for an input. An input for another stage leaves the call waiting. -/
def stretch : GatewayInput → Stage → Gateways → Gateways × Ending Stage Outcome
  | .resolved _ result, .resolving call, s => s.resolved call result
  | .goesOn _ id createdAt, .routed call gateway, s => s.plan call gateway id createdAt
  | .goesOn _ _ _, .planned call gateway plan, s => (s, .answers (.uses call gateway plan))
  | .stored _ result, .persisting call gateway plan, s => s.stored call gateway plan result
  | _, stage, s => (s, .suspends stage)

namespace GatewayCalls

def step (c : GatewayCalls) : GatewayInput → GatewayCalls
  | .call call => c.start fun s ↦ s.begin call
  | .register gateway model => c.change fun s ↦ s.register gateway model
  | .resolved n result => c.resume n (stretch (.resolved n result))
  | .goesOn n id createdAt => c.resume n (stretch (.goesOn n id createdAt))
  | .stored n result => c.resume n (stretch (.stored n result))

/-- The gateways as they are built, with nothing in their memos. -/
def init (routes : ℕ → Route) : GatewayCalls := { shared := { gateway := fun n ↦ ⟨routes n, []⟩ } }

def run (routes : ℕ → Route) (history : List GatewayInput) : GatewayCalls :=
  history.foldl step (init routes)

end GatewayCalls

end LiteHarness.Provider
