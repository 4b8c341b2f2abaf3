import LiteHarness.Storage.Rows
import Mathlib.Tactic.Linarith

/-!
# The budget of a child run

`remainingChildBudget` is what a parent has left for one more child; `boundedChildBudget` fills the
dimensions a request leaves open and checks the result against it. The five consumable dimensions
follow three rules: turns and tool calls are charged with the children alone, tokens and cost with
the parent's own usage as well, and where no usage was ever reported nothing is left.
-/

namespace LiteHarness

/-- The dimensions of a budget that children consume. -/
inductive BudgetDimension where
  | maxTurns | maxToolCalls | maxInputTokens | maxOutputTokens | maxCostUsd
  deriving DecidableEq

/-- The time limits of a budget. -/
inductive BudgetTimeout where
  | totalTimeoutMs | modelIdleTimeoutMs | commandTimeoutMs
  deriving DecidableEq

namespace BudgetDimension

/-- The field's name in the source. -/
def text : BudgetDimension → JsString
  | maxTurns => js "maxTurns"
  | maxToolCalls => js "maxToolCalls"
  | maxInputTokens => js "maxInputTokens"
  | maxOutputTokens => js "maxOutputTokens"
  | maxCostUsd => js "maxCostUsd"

/-- The limit a budget sets. -/
def limit : BudgetDimension → RunBudget → ℚ
  | maxTurns => RunBudget.maxTurns
  | maxToolCalls => RunBudget.maxToolCalls
  | maxInputTokens => RunBudget.maxInputTokens
  | maxOutputTokens => RunBudget.maxOutputTokens
  | maxCostUsd => RunBudget.maxCostUsd

/-- What a run has recorded of its own consumption; turns are not recorded. -/
def consumed : BudgetDimension → RunUsage → ℚ
  | maxTurns => fun _ ↦ 0
  | maxToolCalls => fun u ↦ u.toolCalls
  | maxInputTokens => fun u ↦ u.inputTokens.getD 0
  | maxOutputTokens => fun u ↦ u.outputTokens.getD 0
  | maxCostUsd => fun u ↦ u.costUsd.getD 0

end BudgetDimension

/-- The limit a budget sets. -/
def BudgetTimeout.limit : BudgetTimeout → RunBudget → ℚ
  | totalTimeoutMs => RunBudget.totalTimeoutMs
  | modelIdleTimeoutMs => RunBudget.modelIdleTimeoutMs
  | commandTimeoutMs => RunBudget.commandTimeoutMs

/-- The field's name in the source. -/
def BudgetTimeout.text : BudgetTimeout → JsString
  | totalTimeoutMs => js "totalTimeoutMs"
  | modelIdleTimeoutMs => js "modelIdleTimeoutMs"
  | commandTimeoutMs => js "commandTimeoutMs"

/-- The limits of all children in one dimension. -/
def allocated (d : BudgetDimension) (children : List RunRecord) : ℚ :=
  (children.map fun child ↦ d.limit child.budget).sum

def remainingChildBudget (parent : RunRecord) (children : List RunRecord) : RunBudget where
  maxTurns := max 0 (parent.budget.maxTurns - allocated .maxTurns children)
  maxToolCalls := max 0 (parent.budget.maxToolCalls - allocated .maxToolCalls children)
  maxInputTokens :=
    match parent.usage.inputTokens with
    | none => 0
    | some used => max 0 (parent.budget.maxInputTokens - used - allocated .maxInputTokens children)
  maxOutputTokens :=
    match parent.usage.outputTokens with
    | none => 0
    | some used =>
      max 0 (parent.budget.maxOutputTokens - used - allocated .maxOutputTokens children)
  maxCostUsd :=
    match parent.usage.costUsd with
    | none => 0
    | some used => max 0 (parent.budget.maxCostUsd - used - allocated .maxCostUsd children)
  totalTimeoutMs := parent.budget.totalTimeoutMs
  modelIdleTimeoutMs := parent.budget.modelIdleTimeoutMs
  commandTimeoutMs := parent.budget.commandTimeoutMs

/-- The requested limits, with the defaults where the request leaves them open. -/
def childBudget (requested : RunBudgetOverrides) (parent : RunRecord) (available : RunBudget) :
    RunBudget where
  maxTurns := requested.maxTurns.getD (min 4 available.maxTurns)
  maxToolCalls := requested.maxToolCalls.getD (min 8 available.maxToolCalls)
  maxInputTokens := requested.maxInputTokens.getD (min 64000 available.maxInputTokens)
  maxOutputTokens := requested.maxOutputTokens.getD (min 16000 available.maxOutputTokens)
  maxCostUsd := requested.maxCostUsd.getD (min 5 available.maxCostUsd)
  totalTimeoutMs := requested.totalTimeoutMs.getD (min 300000 parent.budget.totalTimeoutMs)
  modelIdleTimeoutMs := requested.modelIdleTimeoutMs.getD parent.budget.modelIdleTimeoutMs
  commandTimeoutMs := requested.commandTimeoutMs.getD parent.budget.commandTimeoutMs

/-- One check of a dimension: the limit may be zero only where the dimension allows it. -/
def requireWithin (available budget : RunBudget) (zeroAllowed : Bool) (d : BudgetDimension) :
    Except JsError PUnit :=
  if (if zeroAllowed then d.limit budget < 0 else d.limit budget ≤ 0) ∨
      d.limit available < d.limit budget then
    .error (.new (js "Child " ++ d.text ++ js " exceeds the remaining parent budget"))
  else .ok ⟨⟩

def requireTimeoutWithin (parent budget : RunBudget) (d : BudgetTimeout) : Except JsError PUnit :=
  if d.limit budget ≤ 0 ∨ d.limit parent < d.limit budget then
    .error (.new (js "Child " ++ d.text ++ js " exceeds the parent budget"))
  else .ok ⟨⟩

def boundedChildBudget (requested : RunBudgetOverrides) (parent : RunRecord)
    (available : RunBudget) : Except JsError RunBudget := do
  let budget := childBudget requested parent available
  for d in [BudgetDimension.maxTurns, .maxInputTokens, .maxOutputTokens] do
    requireWithin available budget false d
  for d in [BudgetDimension.maxToolCalls, .maxCostUsd] do
    requireWithin available budget true d
  for d in [BudgetTimeout.totalTimeoutMs, .modelIdleTimeoutMs, .commandTimeoutMs] do
    requireTimeoutWithin parent.budget budget d
  pure budget

/-! ## What a granted budget satisfies -/

theorem requireWithin_eq_ok_iff {available budget : RunBudget} {zeroAllowed : Bool}
    {d : BudgetDimension} {u : PUnit} : requireWithin available budget zeroAllowed d = .ok u ↔
      (if zeroAllowed then 0 ≤ d.limit budget else 0 < d.limit budget) ∧
        d.limit budget ≤ d.limit available := by
  rw [requireWithin]
  cases zeroAllowed <;> simp [not_or, not_lt, not_le]

theorem requireTimeoutWithin_eq_ok_iff {parent budget : RunBudget} {d : BudgetTimeout} {u : PUnit} :
    requireTimeoutWithin parent budget d = .ok u ↔
      0 < d.limit budget ∧ d.limit budget ≤ d.limit parent := by
  rw [requireTimeoutWithin]
  simp [not_or, not_lt, not_le]

/-- A granted budget is the completed request, and it passed every check. -/
theorem boundedChildBudget_eq_ok {requested : RunBudgetOverrides} {parent : RunRecord}
    {available budget : RunBudget} (h : boundedChildBudget requested parent available = .ok budget) :
    budget = childBudget requested parent available ∧
      (∀ d : BudgetDimension, 0 ≤ d.limit budget ∧ d.limit budget ≤ d.limit available) ∧
      (0 < budget.maxTurns ∧ 0 < budget.maxInputTokens ∧ 0 < budget.maxOutputTokens) ∧
      (∀ d : BudgetTimeout, d.limit budget ≤ d.limit parent.budget) := by
  have hbind : ∀ {x : Except JsError PUnit} {f : PUnit → Except JsError RunBudget},
      (x >>= f) = .ok budget → x = .ok ⟨⟩ ∧ f ⟨⟩ = .ok budget := by
    intro x f h
    cases x with
    | error e => exact absurd h (by simp [bind, Except.bind])
    | ok u => exact ⟨rfl, h⟩
  simp only [boundedChildBudget, List.forIn_cons, List.forIn_nil, pure_bind, bind_assoc] at h
  obtain ⟨hturns, h⟩ := hbind h
  obtain ⟨hinput, h⟩ := hbind h
  obtain ⟨houtput, h⟩ := hbind h
  obtain ⟨hcalls, h⟩ := hbind h
  obtain ⟨hcost, h⟩ := hbind h
  obtain ⟨htotal, h⟩ := hbind h
  obtain ⟨hidle, h⟩ := hbind h
  obtain ⟨hcommand, h⟩ := hbind h
  obtain rfl := Except.ok.inj h
  rw [requireWithin_eq_ok_iff] at hturns hinput houtput hcalls hcost
  rw [requireTimeoutWithin_eq_ok_iff] at htotal hidle hcommand
  simp only [Bool.false_eq_true, if_false, if_true] at hturns hinput houtput hcalls hcost
  refine ⟨rfl, fun d ↦ ?_, ⟨hturns.1, hinput.1, houtput.1⟩, fun d ↦ ?_⟩
  · cases d with
    | maxTurns => exact ⟨hturns.1.le, hturns.2⟩
    | maxToolCalls => exact hcalls
    | maxInputTokens => exact ⟨hinput.1.le, hinput.2⟩
    | maxOutputTokens => exact ⟨houtput.1.le, houtput.2⟩
    | maxCostUsd => exact hcost
  · cases d with
    | totalTimeoutMs => exact htotal.2
    | modelIdleTimeoutMs => exact hidle.2
    | commandTimeoutMs => exact hcommand.2

/-! ## What a grant leaves of the parent's budget -/

/-- The parent's own consumption and the limits of its children stay within its limit. -/
def WithinBudget (d : BudgetDimension) (parent : RunRecord) (children : List RunRecord) : Prop :=
  d.consumed parent.usage + allocated d children ≤ d.limit parent.budget

instance (d : BudgetDimension) (parent : RunRecord) (children : List RunRecord) :
    Decidable (WithinBudget d parent children) :=
  inferInstanceAs (Decidable (_ ≤ _))

/-- What the code does not check of a request: that the parent's own tool calls leave room for the
child's, and that the parent's cost and its children's had not passed the limit before. -/
def Affordable (requested : RunBudgetOverrides) (parent : RunRecord) (children : List RunRecord) :
    Prop :=
  WithinBudget .maxCostUsd parent children ∧
    match requested.maxToolCalls with
    | some a => parent.usage.toolCalls + allocated .maxToolCalls children + a
        ≤ parent.budget.maxToolCalls
    | none => allocated .maxToolCalls children ≤ parent.budget.maxToolCalls ∧
        (parent.usage.toolCalls = 0 ∨
          parent.usage.toolCalls + allocated .maxToolCalls children + 8
            ≤ parent.budget.maxToolCalls)

/-- A positive share of what is left, where something is left, is paid for. -/
theorem add_le_of_share {used total limit share : ℚ} (hpos : 0 < share)
    (h : share ≤ max 0 (limit - used - total)) : used + (total + share) ≤ limit := by
  rcases le_max_iff.mp h with h | h <;> linarith

/-- The default share of the tool calls ignores those the parent has made. -/
theorem default_calls_iff (used : ℕ) (total limit : ℚ) :
    used + total + min 8 (max 0 (limit - total)) ≤ limit ↔
      total ≤ limit ∧ (used = 0 ∨ used + total + 8 ≤ limit) := by
  have hused : (0 : ℚ) ≤ used := Nat.cast_nonneg used
  by_cases hroom : total ≤ limit
  · rw [max_eq_right (sub_nonneg.mpr hroom)]
    rcases le_total 8 (limit - total) with h | h
    · rw [min_eq_left h]
      refine ⟨fun hle ↦ ⟨hroom, Or.inr hle⟩, fun hle ↦ hle.2.elim (fun h0 ↦ ?_) id⟩
      rw [h0, Nat.cast_zero]
      linarith
    · rw [min_eq_right h]
      refine ⟨fun hle ↦ ⟨hroom, Or.inl ?_⟩, fun hle ↦ ?_⟩
      · have hzero : (used : ℚ) = 0 := by linarith
        exact_mod_cast hzero
      · rcases hle.2 with h0 | h8
        · rw [h0, Nat.cast_zero]
          linarith
        · linarith
  · have hzero : max 0 (limit - total) = 0 := max_eq_left (by linarith)
    rw [hzero, min_eq_right (by norm_num)]
    refine ⟨fun hle ↦ absurd ?_ hroom, fun hle ↦ absurd hle.1 hroom⟩
    linarith

/-- **A granted child stays within the parent's budget exactly when it is affordable.** Turns and
tokens always do. -/
theorem withinBudget_grant_iff {requested : RunBudgetOverrides} {parent child : RunRecord}
    {children : List RunRecord}
    (h : boundedChildBudget requested parent (remainingChildBudget parent children)
      = .ok child.budget) :
    (∀ d, WithinBudget d parent (children ++ [child])) ↔ Affordable requested parent children := by
  obtain ⟨hbudget, hwithin, ⟨hturns, hinput, houtput⟩, -⟩ := boundedChildBudget_eq_ok h
  have hsum : ∀ d : BudgetDimension,
      allocated d (children ++ [child]) = allocated d children + d.limit child.budget := by
    intro d
    simp [allocated]
  have hturnsOk : WithinBudget .maxTurns parent (children ++ [child]) := by
    rw [WithinBudget, hsum]
    refine add_le_of_share hturns ?_
    simpa [remainingChildBudget, BudgetDimension.limit, BudgetDimension.consumed] using
      (hwithin .maxTurns).2
  have hinputOk : WithinBudget .maxInputTokens parent (children ++ [child]) := by
    rw [WithinBudget, hsum]
    have hle := (hwithin .maxInputTokens).2
    simp only [remainingChildBudget, BudgetDimension.limit] at hle
    cases hused : parent.usage.inputTokens with
    | none =>
      simp only [hused] at hle
      exact absurd hle (not_le.mpr hinput)
    | some used =>
      simp only [hused] at hle
      simpa [BudgetDimension.consumed, BudgetDimension.limit, hused] using add_le_of_share hinput hle
  have houtputOk : WithinBudget .maxOutputTokens parent (children ++ [child]) := by
    rw [WithinBudget, hsum]
    have hle := (hwithin .maxOutputTokens).2
    simp only [remainingChildBudget, BudgetDimension.limit] at hle
    cases hused : parent.usage.outputTokens with
    | none =>
      simp only [hused] at hle
      exact absurd hle (not_le.mpr houtput)
    | some used =>
      simp only [hused] at hle
      simpa [BudgetDimension.consumed, BudgetDimension.limit, hused] using add_le_of_share houtput hle
  have hcost : WithinBudget .maxCostUsd parent (children ++ [child]) ↔
      WithinBudget .maxCostUsd parent children := by
    rw [WithinBudget, hsum, WithinBudget]
    obtain ⟨hnonneg, hle⟩ := hwithin .maxCostUsd
    simp only [remainingChildBudget, BudgetDimension.limit, BudgetDimension.consumed]
      at hnonneg hle ⊢
    cases hused : parent.usage.costUsd with
    | none =>
      simp only [hused] at hle
      rw [le_antisymm hle hnonneg, add_zero]
    | some used =>
      simp only [hused] at hle
      rcases le_max_iff.mp hle with hle | hle
      · rw [le_antisymm hle hnonneg, add_zero]
      · rw [Option.getD_some]
        constructor <;> intro <;> linarith
  have hcalls : WithinBudget .maxToolCalls parent (children ++ [child]) ↔
      match requested.maxToolCalls with
      | some a => parent.usage.toolCalls + allocated .maxToolCalls children + a
          ≤ parent.budget.maxToolCalls
      | none => allocated .maxToolCalls children ≤ parent.budget.maxToolCalls ∧
          (parent.usage.toolCalls = 0 ∨
            parent.usage.toolCalls + allocated .maxToolCalls children + 8
              ≤ parent.budget.maxToolCalls) := by
    have hlimit : BudgetDimension.maxToolCalls.limit child.budget =
        requested.maxToolCalls.getD
          (min 8 (max 0 (parent.budget.maxToolCalls - allocated .maxToolCalls children))) := by
      rw [hbudget]
      rfl
    rw [WithinBudget, hsum, hlimit, ← add_assoc]
    cases requested.maxToolCalls with
    | some a => exact Iff.rfl
    | none => exact default_calls_iff _ _ _
  rw [Affordable, ← hcost, ← hcalls]
  refine ⟨fun hall ↦ ⟨hall _, hall _⟩, fun hpaid d ↦ ?_⟩
  cases d with
  | maxTurns => exact hturnsOk
  | maxToolCalls => exact hpaid.2
  | maxInputTokens => exact hinputOk
  | maxOutputTokens => exact houtputOk
  | maxCostUsd => exact hpaid.1

end LiteHarness
