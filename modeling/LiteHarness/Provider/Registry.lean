import LiteHarness.Foundation.Table
import LiteHarness.Provider.Models

/-!
# The model registry

A registry holds the enabled and disabled models by id, and plans the routes of a request: the models
that can serve it, cheapest first. A plan is a value; later changes of the registry leave it alone.
-/

namespace LiteHarness.Provider

open Foundation

structure RouteRequest where
  requiredCapabilities : List ModelCapability
  allowedProviders : Option (List JsString) := none
  allowedModels : Option (List JsString) := none
  preferredModel : Option JsString := none
  maxInputUsdPerMillion : Option ℚ := none

structure ModelRegistry where
  models : List ModelDescriptor := []
  generation : ℕ := 1
  deriving DecidableEq

/-- `validateModel`. That a rate is a finite number is in its type. -/
def validateModel (model : ModelDescriptor) : Except JsError Unit := do
  if model.id = [] ∨ model.providerId = [] ∨ model.credentialProfileId = [] then
    throw (.new (js "Model identity fields are required"))
  if model.contextWindow = 0 ∨ maxSafeInteger < model.contextWindow then
    throw (.new (js "Model contextWindow must be positive"))
  if .text ∉ model.capabilities then
    throw (.new (js "Every Lite model must declare text capability"))
  if model.inputUsdPerMillion.isSome ≠ model.outputUsdPerMillion.isSome then
    throw (.new (js "Model pricing must provide both input and output rates or neither"))
  for (name, value) in
      [("inputUsdPerMillion", model.inputUsdPerMillion),
        ("outputUsdPerMillion", model.outputUsdPerMillion),
        ("cachedInputUsdPerMillion", model.cachedInputUsdPerMillion),
        ("cacheWriteInputUsdPerMillion", model.cacheWriteInputUsdPerMillion),
        ("imageInputUsdPerMillion", model.imageInputUsdPerMillion)] do
    if ∃ rate ∈ value, rate < 0 then
      throw (.new (js "Model " ++ js name ++ js " must be a finite non-negative number"))
  for (name, value) in
      [("longContextInputMultiplier", model.longContextInputMultiplier),
        ("longContextOutputMultiplier", model.longContextOutputMultiplier)] do
    if ∃ multiplier ∈ value, multiplier < 1 then
      throw (.new (js "Model " ++ js name ++ js " must be at least one"))
  if ∃ threshold ∈ model.longContextThresholdTokens,
      threshold < 1 ∨ maxSafeInteger < threshold then
    throw (.new (js "Model longContextThresholdTokens must be a positive integer"))

def score (model : ModelDescriptor) (request : RouteRequest) : ℚ :=
  (if request.preferredModel = some model.id then -1000000 else 0)
    + (if model.transport = .delegated then 10000 else 0)
    + model.inputUsdPerMillion.getD 1000 + model.outputUsdPerMillion.getD 1000

namespace ModelRegistry

variable (R : ModelRegistry)

/-- `register`. An invalid model leaves the registry as it is. -/
def register (model : ModelDescriptor) : ModelRegistry :=
  match validateModel model with
  | .error _ => R
  | .ok () =>
    { models := Table.upsert ModelDescriptor.id model (fun _ ↦ model) R.models
      generation := R.generation + 1 }

/-- The model can serve the request, its price apart. -/
def compatible (request : RouteRequest) (model : ModelDescriptor) : Bool :=
  model.enabled && request.requiredCapabilities.all (model.capabilities.contains ·) &&
    request.allowedProviders.all (·.contains model.providerId) &&
    request.allowedModels.all (·.contains model.id)

/-- The model is known to cost no more than the request allows. -/
def affordable (request : RouteRequest) (model : ModelDescriptor) : Bool :=
  request.maxInputUsdPerMillion.all fun ceiling ↦
    model.inputUsdPerMillion.any fun rate ↦ decide (rate ≤ ceiling)

def noCompatibleModel : ProviderError :=
  ⟨js "no_compatible_model",
    js "No enabled model satisfies the required capabilities and policy", false⟩

/-- `plan`, with the id and the date of the plan. -/
def plan (request : RouteRequest) (id : JsString) (createdAt : ℤ) : Except ProviderError RoutePlan :=
  let compatible := R.models.filter (compatible request)
  let candidates := (compatible.filter (affordable request)).mergeSort
    fun left right ↦ decide (score left request ≤ score right request)
  match candidates with
  | selected :: fallbacks => .ok ⟨id, R.generation, selected, fallbacks, createdAt⟩
  | [] =>
    if request.maxInputUsdPerMillion.isSome ∧
        compatible.any (fun model ↦ model.inputUsdPerMillion.isNone) then
      .error ⟨js "unknown_model_price",
        js "A compatible model has unknown pricing under the requested cost ceiling", false⟩
    else .error noCompatibleModel

end ModelRegistry

/-- `normalizedRequiredCapabilities`. -/
def normalizedRequiredCapabilities (value : Option (List ModelCapability)) : List ModelCapability :=
  let given := value.getD []
  let capabilities := if given = [] then [.text] else given.reverse.dedup.reverse
  if .text ∈ capabilities then capabilities else .text :: capabilities

end LiteHarness.Provider
