import LiteHarness.ControlPlane.Service

/-!
# Models, routes and provider events

The records of the provider core, and the cost it puts on a usage event. Prices are rationals; the
rounding of floating-point arithmetic is not modelled. Left out are the fields of a model that
nothing here reads.
-/

namespace LiteHarness.Provider

/-- What a model can do. -/
inductive ModelCapability where
  | text | tools | vision | json | reasoning | delegatedAgent
  deriving DecidableEq

inductive Transport where
  | direct | delegated
  deriving DecidableEq

structure ModelDescriptor where
  id : JsString
  providerId : JsString
  transport : Transport := .direct
  credentialProfileId : JsString
  capabilities : List ModelCapability
  contextWindow : ℕ
  inputUsdPerMillion : Option ℚ := none
  outputUsdPerMillion : Option ℚ := none
  cachedInputUsdPerMillion : Option ℚ := none
  cacheWriteInputUsdPerMillion : Option ℚ := none
  imageInputUsdPerMillion : Option ℚ := none
  longContextThresholdTokens : Option ℕ := none
  longContextInputMultiplier : Option ℚ := none
  longContextOutputMultiplier : Option ℚ := none
  enabled : Bool := true
  deriving DecidableEq

structure RoutePlan where
  id : JsString
  registryGeneration : ℕ
  selected : ModelDescriptor
  fallbacks : List ModelDescriptor
  createdAt : ℤ
  deriving DecidableEq

/-- `[plan.selected, ...plan.fallbacks]`. -/
def RoutePlan.routes (plan : RoutePlan) : List ModelDescriptor := plan.selected :: plan.fallbacks

/-- What a gateway reads of the context of a run. -/
structure ModelRunContext where
  runId : JsString
  attemptId : JsString
  providerConnectionId : Option JsString := none
  maxCostUsd : Option ℚ := none
  requiredCapabilities : Option (List ModelCapability) := none
  deriving DecidableEq

structure ProviderError where
  code : JsString
  message : JsString
  retryable : Bool
  deriving DecidableEq

/-- A thrown value: a `ProviderError`, or anything else. -/
inductive Thrown where
  | provider (error : ProviderError)
  | other (message : JsString)
  deriving DecidableEq

/-- `error instanceof ProviderError && error.retryable`. -/
def Thrown.retryable : Thrown → Bool
  | .provider error => error.retryable
  | .other _ => false

structure UsageEvent where
  inputTokens : JsNumber
  outputTokens : JsNumber
  cachedInputTokens : Option JsNumber := none
  cacheWriteInputTokens : Option JsNumber := none
  imageInputTokens : Option JsNumber := none
  costUsd : Option JsNumber := none
  deriving DecidableEq

/-- What a model gateway yields. -/
inductive ModelEvent where
  | textDelta (delta : JsString)
  | toolCall (call : ToolCall)
  | usage (usage : UsageEvent)
  | completed (finishReason : FinishReason)

/-- What an adapter yields. -/
inductive ProviderAdapterEvent where
  | requestAccepted
  | event (event : ModelEvent)

/-- `providerRequestBecameVisible`. -/
def providerRequestBecameVisible : ProviderAdapterEvent → Bool
  | .requestAccepted | .event (.usage _) | .event (.toolCall _) | .event (.textDelta _) => true
  | .event (.completed _) => false

/-! ## The cost of a usage event -/

def hasKnownModelPricing (model : ModelDescriptor) : Bool :=
  model.inputUsdPerMillion.isSome && model.outputUsdPerMillion.isSome

/-- A finite number that is not negative. -/
def finiteNonNegative (n : JsNumber) : Option ℚ := n.rat?.filter fun q ↦ 0 ≤ q

/-- A safe integer that is not negative. -/
def safeCount (n : JsNumber) : Option ℚ :=
  n.rat?.filter fun q ↦ q.den = 1 ∧ 0 ≤ q ∧ q ≤ maxSafeInteger

def invalidUsage (what : String) : ProviderError :=
  ⟨js "invalid_usage", js "Provider returned invalid " ++ js what ++ js " usage", false⟩

/-- The price of the tokens of an event, long contexts at their rates. -/
def calculatedCost (model : ModelDescriptor) (inputRate outputRate input output cached cacheWrite
    image : ℚ) : ℚ :=
  let ordinary := input - cached - cacheWrite - image
  let long := ∃ threshold ∈ model.longContextThresholdTokens, (threshold : ℚ) < input
  let inputMultiplier := if long then model.longContextInputMultiplier.getD 1 else 1
  let outputMultiplier := if long then model.longContextOutputMultiplier.getD 1 else 1
  (inputMultiplier * (ordinary * inputRate
      + cached * model.cachedInputUsdPerMillion.getD inputRate
      + cacheWrite * model.cacheWriteInputUsdPerMillion.getD inputRate
      + image * model.imageInputUsdPerMillion.getD inputRate)
    + outputMultiplier * output * outputRate) / 1000000

/-- `withAuthoritativeCost`: the event with the calculated cost, where prices are known. -/
def withAuthoritativeCost (event : UsageEvent) (model : ModelDescriptor) :
    Except ProviderError UsageEvent :=
  match finiteNonNegative event.inputTokens, finiteNonNegative event.outputTokens with
  | some input, some output =>
    if ∃ cost ∈ event.costUsd, finiteNonNegative cost = none then .error (invalidUsage "cost")
    else
      match model.inputUsdPerMillion, model.outputUsdPerMillion with
      | some inputRate, some outputRate =>
        match safeCount (event.cachedInputTokens.getD (.finite 0)),
            safeCount (event.cacheWriteInputTokens.getD (.finite 0)),
            safeCount (event.imageInputTokens.getD (.finite 0)) with
        | some cached, some cacheWrite, some image =>
          if input < cached + cacheWrite + image then
            .error (invalidUsage "input-token category")
          else
            let reported := (event.costUsd.bind JsNumber.rat?).getD 0
            .ok
              { event with
                costUsd := some (.finite (max reported
                  (calculatedCost model inputRate outputRate input output cached cacheWrite
                    image))) }
        | _, _, _ => .error (invalidUsage "input-token category")
      | _, _ => .ok event
  | _, _ => .error (invalidUsage "token")

end LiteHarness.Provider
