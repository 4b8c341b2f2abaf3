import LiteHarness.Domain.Records

/-!
# The fields of a budget

Merging, completing and comparing budgets works field by field. `BudgetField` names the eight
fields, so that a statement about a budget is one statement about each of them.
-/

namespace LiteHarness

/-- The fields of a budget, in the order of the source. -/
inductive BudgetField where
  | maxTurns | maxToolCalls | maxInputTokens | maxOutputTokens | maxCostUsd
  | totalTimeoutMs | modelIdleTimeoutMs | commandTimeoutMs
  deriving DecidableEq

namespace BudgetField

/-- The limit a budget sets. -/
def of : BudgetField → RunBudget → ℚ
  | maxTurns => RunBudget.maxTurns
  | maxToolCalls => RunBudget.maxToolCalls
  | maxInputTokens => RunBudget.maxInputTokens
  | maxOutputTokens => RunBudget.maxOutputTokens
  | maxCostUsd => RunBudget.maxCostUsd
  | totalTimeoutMs => RunBudget.totalTimeoutMs
  | modelIdleTimeoutMs => RunBudget.modelIdleTimeoutMs
  | commandTimeoutMs => RunBudget.commandTimeoutMs

/-- The limit a partial budget gives, if it gives one. -/
def given : BudgetField → RunBudgetOverrides → Option ℚ
  | maxTurns => RunBudgetOverrides.maxTurns
  | maxToolCalls => RunBudgetOverrides.maxToolCalls
  | maxInputTokens => RunBudgetOverrides.maxInputTokens
  | maxOutputTokens => RunBudgetOverrides.maxOutputTokens
  | maxCostUsd => RunBudgetOverrides.maxCostUsd
  | totalTimeoutMs => RunBudgetOverrides.totalTimeoutMs
  | modelIdleTimeoutMs => RunBudgetOverrides.modelIdleTimeoutMs
  | commandTimeoutMs => RunBudgetOverrides.commandTimeoutMs

def all : List BudgetField :=
  [maxTurns, maxToolCalls, maxInputTokens, maxOutputTokens, maxCostUsd, totalTimeoutMs,
    modelIdleTimeoutMs, commandTimeoutMs]

theorem mem_all (f : BudgetField) : f ∈ all := by
  cases f <;> simp [all]

@[simp] theorem given_toOverrides (f : BudgetField) (b : RunBudget) :
    f.given b.toOverrides = some (f.of b) := by
  cases f <;> rfl

@[simp] theorem given_empty (f : BudgetField) : f.given {} = none := by
  cases f <;> rfl

/-- The fields given later win. -/
theorem given_spread (f : BudgetField) (base override : RunBudgetOverrides) :
    f.given (base.spread override) = (f.given override <|> f.given base) := by
  cases f <;> rfl

theorem of_normalizeBudget (f : BudgetField) (b : RunBudgetOverrides) :
    f.of (normalizeBudget b) = (f.given b).getD (f.of DEFAULT_RUN_BUDGET) := by
  cases f <;> rfl

end BudgetField

/-- `budgetWithin`: every field given is at most the ceiling, where the ceiling has the field. -/
def budgetWithin (requested ceiling : RunBudgetOverrides) : Bool :=
  BudgetField.all.all fun f ↦
    match f.given requested, f.given ceiling with
    | some value, some bound => value ≤ bound
    | _, _ => true

theorem budgetWithin_iff {requested ceiling : RunBudgetOverrides} :
    budgetWithin requested ceiling = true ↔ ∀ f : BudgetField, ∀ value ∈ f.given requested,
      ∀ bound ∈ f.given ceiling, value ≤ bound := by
  rw [budgetWithin, List.all_eq_true]
  constructor
  · intro h f value hvalue bound hbound
    have hf := h f f.mem_all
    rw [hvalue, hbound] at hf
    exact of_decide_eq_true hf
  · intro h f _
    split
    · rename_i value bound hvalue hbound
      exact decide_eq_true (h f value hvalue bound hbound)
    · rfl

/-! ## Principals -/

/-- The kinds of access tokens. -/
inductive TokenType where
  | app | run
  deriving DecidableEq

/-- How often a token may be presented. -/
inductive ReplayPolicy where
  | multiUse | resourceBoundMultiUse
  deriving DecidableEq

/-- An authenticated caller: whose resources it acts on, and what its token allows. -/
structure InternalPrincipal where
  owner : ResourceOwner
  scopes : List JsString := []
  tokenId : Option JsString := none
  tokenType : Option TokenType := none
  replayPolicy : Option ReplayPolicy := none
  agentId : Option JsString := none
  workspaceId : Option JsString := none
  budgetCeiling : Option RunBudgetOverrides := none
  deriving DecidableEq

end LiteHarness
