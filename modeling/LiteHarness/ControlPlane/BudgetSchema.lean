import LiteHarness.ControlPlane.BudgetTree
import LiteHarness.Domain.Budgets
import LiteHarness.Foundation.Suspension
import Mathlib.Algebra.Order.BigOperators.Group.List

/-!
# Budgets and their schema

The API checks budgets against a schema: counts and times are whole numbers within bounds. The
routes hold requests against it; a tool call that asks for a child run is held against
`boundedChildBudget` only, which looks at signs and at what the parent has left. Which grants
conform is an exact question of arithmetic, and what holds of every stored budget follows along the
history.
-/

namespace LiteHarness

open Foundation Foundation.Eff

/-! ## The schema -/

/-- A number without a fractional part. -/
def IsWhole (q : ℚ) : Prop := q.den = 1

instance (q : ℚ) : Decidable (IsWhole q) := inferInstanceAs (Decidable (_ = _))

theorem isWhole_iff {q : ℚ} : IsWhole q ↔ ∃ z : ℤ, q = z := by
  rw [IsWhole, Rat.den_eq_one_iff]
  constructor
  · intro h
    exact ⟨q.num, h.symm⟩
  · rintro ⟨z, rfl⟩
    rw [Rat.num_intCast]

theorem isWhole_natCast (n : ℕ) : IsWhole n := isWhole_iff.mpr ⟨n, by simp⟩

theorem IsWhole.sub {p q : ℚ} (hp : IsWhole p) (hq : IsWhole q) : IsWhole (p - q) := by
  obtain ⟨y, rfl⟩ := isWhole_iff.mp hp
  obtain ⟨z, rfl⟩ := isWhole_iff.mp hq
  exact isWhole_iff.mpr ⟨y - z, by push_cast; rfl⟩

theorem IsWhole.max {p q : ℚ} (hp : IsWhole p) (hq : IsWhole q) : IsWhole (max p q) := by
  rcases max_choice p q with h | h <;> rwa [h]

theorem IsWhole.min {p q : ℚ} (hp : IsWhole p) (hq : IsWhole q) : IsWhole (min p q) := by
  rcases min_choice p q with h | h <;> rwa [h]

theorem isWhole_sum {l : List ℚ} (h : ∀ q ∈ l, IsWhole q) : IsWhole l.sum := by
  induction l with
  | nil => exact isWhole_natCast 0
  | cons q l ih =>
    obtain ⟨y, hy⟩ := isWhole_iff.mp (h q List.mem_cons_self)
    obtain ⟨z, hz⟩ := isWhole_iff.mp (ih fun p hp ↦ h p (List.mem_cons_of_mem _ hp))
    rw [List.sum_cons, hy, hz]
    exact isWhole_iff.mpr ⟨y + z, by push_cast; rfl⟩

/-- A positive whole number is at least one. -/
theorem IsWhole.one_le {q : ℚ} (h : IsWhole q) (hpos : 0 < q) : 1 ≤ q := by
  obtain ⟨z, rfl⟩ := isWhole_iff.mp h
  exact_mod_cast Int.add_one_le_iff.mpr (Int.cast_pos.mp hpos)

/-- `Type.Integer` or `Type.Number`, with its bounds. -/
structure NumberSchema where
  integer : Bool := true
  minimum : ℚ
  maximum : Option ℚ := none

/-- `RunBudgetSchema`, field by field; in `RunBudgetOverridesSchema` the fields are optional. -/
def BudgetField.schema : BudgetField → NumberSchema
  | maxTurns => { minimum := 1, maximum := some 128 }
  | maxToolCalls => { minimum := 0, maximum := some 10000 }
  | maxInputTokens => { minimum := 1 }
  | maxOutputTokens => { minimum := 1 }
  | maxCostUsd => { integer := false, minimum := 0 }
  | totalTimeoutMs => { minimum := 100, maximum := some 86400000 }
  | modelIdleTimeoutMs => { minimum := 100, maximum := some 3600000 }
  | commandTimeoutMs => { minimum := 100, maximum := some 3600000 }

/-- The value passes the check of its schema. -/
structure NumberSchema.Admits (schema : NumberSchema) (value : ℚ) : Prop where
  whole : schema.integer = true → IsWhole value
  minimum_le : schema.minimum ≤ value
  le_maximum : ∀ m ∈ schema.maximum, value ≤ m

theorem NumberSchema.admits_iff {schema : NumberSchema} {value : ℚ} : schema.Admits value ↔
    (schema.integer = true → IsWhole value) ∧ schema.minimum ≤ value ∧
      ∀ m ∈ schema.maximum, value ≤ m :=
  ⟨fun h ↦ ⟨h.whole, h.minimum_le, h.le_maximum⟩, fun h ↦ ⟨h.1, h.2.1, h.2.2⟩⟩

instance (schema : NumberSchema) (value : ℚ) : Decidable (schema.Admits value) :=
  decidable_of_iff _ NumberSchema.admits_iff.symm

/-- A whole number below an admitted one and not below the minimum. -/
theorem NumberSchema.Admits.of_le {schema : NumberSchema} {value bound : ℚ}
    (h : schema.Admits bound) (hwhole : schema.integer = true → IsWhole value)
    (hmin : schema.minimum ≤ value) (hle : value ≤ bound) : schema.Admits value :=
  ⟨hwhole, hmin, fun m hm ↦ hle.trans (h.le_maximum m hm)⟩

/-- The budget passes the check of `RunBudgetSchema`. -/
def Conforms (budget : RunBudget) : Prop := ∀ f : BudgetField, f.schema.Admits (f.of budget)

theorem conforms_iff_all {budget : RunBudget} :
    Conforms budget ↔ ∀ f ∈ BudgetField.all, f.schema.Admits (f.of budget) :=
  ⟨fun h f _ ↦ h f, fun h f ↦ h f f.mem_all⟩

instance (budget : RunBudget) : Decidable (Conforms budget) :=
  decidable_of_iff _ conforms_iff_all.symm

/-- The program's own default passes. -/
theorem conforms_default : Conforms DEFAULT_RUN_BUDGET := by
  intro f
  cases f <;> decide +kernel

/-! ## Which merged budgets conform -/

/-- A merged budget conforms if every field that decides it does. -/
theorem conforms_normalizeBudget_iff (given : RunBudgetOverrides) :
    Conforms (normalizeBudget given) ↔
      ∀ f : BudgetField, ∀ value ∈ f.given given, f.schema.Admits value := by
  refine forall_congr' fun f ↦ ?_
  rw [BudgetField.of_normalizeBudget]
  cases hvalue : f.given given with
  | none => simpa using conforms_default f
  | some value => simp

/-! ## Which grants conform -/

/-- What a child gets of a field that its request leaves open. -/
def BudgetField.share (parent : RunRecord) (available : RunBudget) : BudgetField → ℚ
  | maxTurns => min 4 available.maxTurns
  | maxToolCalls => min 8 available.maxToolCalls
  | maxInputTokens => min 64000 available.maxInputTokens
  | maxOutputTokens => min 16000 available.maxOutputTokens
  | maxCostUsd => min 5 available.maxCostUsd
  | totalTimeoutMs => min 300000 parent.budget.totalTimeoutMs
  | modelIdleTimeoutMs => parent.budget.modelIdleTimeoutMs
  | commandTimeoutMs => parent.budget.commandTimeoutMs

theorem BudgetField.of_childBudget (f : BudgetField) (requested : RunBudgetOverrides)
    (parent : RunRecord) (available : RunBudget) :
    f.of (childBudget requested parent available)
      = (f.given requested).getD (f.share parent available) := by
  cases f <;> rfl

/-- The request is within the schema, and a number of tokens that it leaves open comes out whole:
the parent may have been charged with fractions of tokens. -/
structure RequestConforms (requested : RunBudgetOverrides) (parent : RunRecord)
    (available : RunBudget) : Prop where
  given : ∀ f : BudgetField, ∀ value ∈ f.given requested, f.schema.Admits value
  input : requested.maxInputTokens = none →
    IsWhole (BudgetField.maxInputTokens.share parent available)
  output : requested.maxOutputTokens = none →
    IsWhole (BudgetField.maxOutputTokens.share parent available)

theorem allocated_nonneg {d : BudgetDimension} {children : List RunRecord}
    (h : ∀ child ∈ children, 0 ≤ d.limit child.budget) : 0 ≤ allocated d children := by
  refine List.sum_nonneg fun q hq ↦ ?_
  obtain ⟨child, hchild, rfl⟩ := List.mem_map.mp hq
  exact h child hchild

theorem isWhole_allocated {d : BudgetDimension} {children : List RunRecord}
    (h : ∀ child ∈ children, IsWhole (d.limit child.budget)) : IsWhole (allocated d children) := by
  refine isWhole_sum fun q hq ↦ ?_
  obtain ⟨child, hchild, rfl⟩ := List.mem_map.mp hq
  exact h child hchild

/-- What is left of a limit is at most the limit. -/
theorem remaining_le {limit used : ℚ} (hlimit : 0 ≤ limit) (hused : 0 ≤ used) :
    max 0 (limit - used) ≤ limit :=
  max_le hlimit (by linarith)

theorem Conforms.limit_nonneg {budget : RunBudget} (h : Conforms budget) (d : BudgetDimension) :
    0 ≤ d.limit budget := by
  have hfield : ∀ f : BudgetField, 0 ≤ f.schema.minimum := fun f ↦ by
    cases f <;> simp [BudgetField.schema]
  cases d with
  | maxTurns => exact (hfield _).trans (h .maxTurns).minimum_le
  | maxToolCalls => exact (hfield _).trans (h .maxToolCalls).minimum_le
  | maxInputTokens => exact (hfield _).trans (h .maxInputTokens).minimum_le
  | maxOutputTokens => exact (hfield _).trans (h .maxOutputTokens).minimum_le
  | maxCostUsd => exact (hfield _).trans (h .maxCostUsd).minimum_le

/-- **When a grant conforms.** Under a parent and beside children whose budgets conform, a granted
budget conforms exactly when the request does. -/
theorem conforms_grant_iff {requested : RunBudgetOverrides} {parent : RunRecord}
    {children : List RunRecord} {budget : RunBudget}
    (h : boundedChildBudget requested parent (remainingChildBudget parent children) = .ok budget)
    (hparent : Conforms parent.budget) (hchildren : ∀ child ∈ children, Conforms child.budget) :
    Conforms budget ↔ RequestConforms requested parent (remainingChildBudget parent children) := by
  obtain ⟨rfl, hwithin, ⟨hturns, hinput, houtput⟩, -⟩ := boundedChildBudget_eq_ok h
  generalize havailable : remainingChildBudget parent children = available
    at hwithin hturns hinput houtput ⊢
  constructor
  · intro hconforms
    refine ⟨fun f value hvalue ↦ ?_, fun hopen ↦ ?_, fun hopen ↦ ?_⟩
    · have hf := hconforms f
      rwa [BudgetField.of_childBudget, hvalue] at hf
    · have hf := (hconforms .maxInputTokens).whole rfl
      rwa [BudgetField.of_childBudget, BudgetField.given, hopen] at hf
    · have hf := (hconforms .maxOutputTokens).whole rfl
      rwa [BudgetField.of_childBudget, BudgetField.given, hopen] at hf
  · intro hrequest f
    rw [BudgetField.of_childBudget]
    cases hvalue : f.given requested with
    | some value => exact hrequest.given f value hvalue
    | none =>
      have hshare : f.of (childBudget requested parent available) = f.share parent available := by
        rw [BudgetField.of_childBudget, hvalue, Option.getD_none]
      rw [Option.getD_none]
      -- what the checks of the grant and the budgets above it say of the open field
      cases f with
      | maxTurns =>
        have hwhole : IsWhole available.maxTurns := by
          rw [← havailable]
          exact (isWhole_natCast 0).max (((hparent .maxTurns).whole rfl).sub
            (isWhole_allocated fun child hchild ↦ (hchildren child hchild .maxTurns).whole rfl))
        have hle : available.maxTurns ≤ parent.budget.maxTurns := by
          rw [← havailable]
          exact remaining_le (hparent.limit_nonneg .maxTurns)
            (allocated_nonneg fun child hchild ↦ (hchildren child hchild).limit_nonneg _)
        have hwhole' : IsWhole (BudgetField.maxTurns.share parent available) :=
          (isWhole_natCast 4).min hwhole
        refine (hparent .maxTurns).of_le (fun _ ↦ hwhole') (hwhole'.one_le ?_)
          ((min_le_right _ _).trans hle)
        rw [← hshare]
        exact hturns
      | maxToolCalls =>
        have hwhole : IsWhole available.maxToolCalls := by
          rw [← havailable]
          exact (isWhole_natCast 0).max (((hparent .maxToolCalls).whole rfl).sub
            (isWhole_allocated fun child hchild ↦ (hchildren child hchild .maxToolCalls).whole rfl))
        have hle : available.maxToolCalls ≤ parent.budget.maxToolCalls := by
          rw [← havailable]
          exact remaining_le (hparent.limit_nonneg .maxToolCalls)
            (allocated_nonneg fun child hchild ↦ (hchildren child hchild).limit_nonneg _)
        refine (hparent .maxToolCalls).of_le (fun _ ↦ (isWhole_natCast 8).min hwhole) ?_
          ((min_le_right _ _).trans hle)
        rw [← hshare]
        exact (hwithin .maxToolCalls).1
      | maxInputTokens =>
        have hwhole := hrequest.input hvalue
        refine ⟨fun _ ↦ hwhole, hwhole.one_le ?_, nofun⟩
        rw [← hshare]
        exact hinput
      | maxOutputTokens =>
        have hwhole := hrequest.output hvalue
        refine ⟨fun _ ↦ hwhole, hwhole.one_le ?_, nofun⟩
        rw [← hshare]
        exact houtput
      | maxCostUsd =>
        refine ⟨nofun, ?_, nofun⟩
        rw [← hshare]
        exact (hwithin .maxCostUsd).1
      | totalTimeoutMs =>
        refine (hparent .totalTimeoutMs).of_le
          (fun _ ↦ (isWhole_natCast 300000).min ((hparent .totalTimeoutMs).whole rfl)) ?_
          (min_le_right _ _)
        exact le_min (by norm_num [BudgetField.schema]) (hparent .totalTimeoutMs).minimum_le
      | modelIdleTimeoutMs => exact hparent .modelIdleTimeoutMs
      | commandTimeoutMs => exact hparent .commandTimeoutMs

/-! ## The budget of a tool call -/

/-- The field's name in the source. -/
def BudgetField.text : BudgetField → JsString
  | maxTurns => js "maxTurns"
  | maxToolCalls => js "maxToolCalls"
  | maxInputTokens => js "maxInputTokens"
  | maxOutputTokens => js "maxOutputTokens"
  | maxCostUsd => js "maxCostUsd"
  | totalTimeoutMs => js "totalTimeoutMs"
  | modelIdleTimeoutMs => js "modelIdleTimeoutMs"
  | commandTimeoutMs => js "commandTimeoutMs"

def BudgetField.set (value : ℚ) (b : RunBudgetOverrides) : BudgetField → RunBudgetOverrides
  | maxTurns => { b with maxTurns := some value }
  | maxToolCalls => { b with maxToolCalls := some value }
  | maxInputTokens => { b with maxInputTokens := some value }
  | maxOutputTokens => { b with maxOutputTokens := some value }
  | maxCostUsd => { b with maxCostUsd := some value }
  | totalTimeoutMs => { b with totalTimeoutMs := some value }
  | modelIdleTimeoutMs => { b with modelIdleTimeoutMs := some value }
  | commandTimeoutMs => { b with commandTimeoutMs := some value }

/-- One entry of the budget of a tool call: a known field with a finite value that is not
negative. -/
def setToolLimit (output : RunBudgetOverrides) (entry : JsString × JsValue) :
    Except JsError RunBudgetOverrides :=
  match BudgetField.all.find? fun f ↦ f.text = entry.1, numberValue entry.2 with
  | some f, some item => .ok (f.set item output)
  | _, _ => .error (.new (js "Subagent budget is invalid"))

/-- `toolBudget`. -/
def toolBudget (value : List (JsString × JsValue)) : Except JsError RunBudgetOverrides :=
  value.foldlM setToolLimit {}

/-! ## Along a history -/

namespace Store

/-- Every stored budget passes the schema. -/
def BudgetsConform (S : Store) : Prop := ∀ row ∈ S.runs, Conforms row.budget

/-- A step that creates no run leaves the budgets as they are. -/
theorem LogStep.budgets_eq {L : Licence} {S S' : Store} (h : LogStep L S S')
    (hL : ∀ request, ¬L.creates request) :
    S'.runs.map RunRow.budget = S.runs.map RunRow.budget := by
  cases h with
  | silent hruns => rw [hruns]
  | created _ hlicence => exact absurd hlicence (hL _)
  | @event createdAt params row happend hcoherent hsets hstatus hruns hevents =>
    rw [hruns]
    exact Table.map_update (f := appended createdAt params) (fun _ ↦ rfl) S.runs

theorem budgetsConform_congr {S S' : Store}
    (h : S'.runs.map RunRow.budget = S.runs.map RunRow.budget) :
    S'.BudgetsConform ↔ S.BudgetsConform := by
  have hforall : ∀ T : Store, T.BudgetsConform ↔ ∀ b ∈ T.runs.map RunRow.budget, Conforms b := by
    intro T
    rw [BudgetsConform, List.forall_mem_map]
  rw [hforall, hforall, h]

/-- A creation adds one budget. -/
theorem Created.budgetsConform_iff {now : ℤ} {id : JsString} {request : InternalStartRunRequest}
    {row : RunRow} {S S' : Store} (h : Created now id request row S S') :
    S'.BudgetsConform ↔ S.BudgetsConform ∧ Conforms row.budget := by
  rw [BudgetsConform, h.runs, List.forall_mem_append, List.forall_mem_singleton]
  rfl

end Store

namespace Service

variable {H : Host} {O : Options}

/-- The budget a call may store is within the schema: for a root run what the request gives or else
the default of its agent, for a child what conforms by `conforms_grant_iff`. -/
def Admissible (s : Service) : Input → Prop
  | .createRun request =>
    s.store.existingRun request.principal
        (scopedIdempotencyKey request.principal.userId request.idempotencyKey) = none →
      ∀ f : BudgetField,
        ∀ value ∈ f.given ((s.store.agentBudget request).spread (request.budget.getD {})),
          f.schema.Admits value
  | .createChildRun request => ∀ row, s.store.run? request.parentRunId = some row →
      ∀ budget, boundedChildBudget (request.budget.getD {}) (toRunRecord row)
          (remainingChildBudget (toRunRecord row) (s.store.listChildRuns row.id)) = .ok budget →
        RequestConforms (request.budget.getD {}) (toRunRecord row)
          (remainingChildBudget (toRunRecord row) (s.store.listChildRuns row.id))
  | _ => True

/-- What a step does to the budgets: nothing, or one run is created whose budget conforms exactly
when the call was admissible. -/
inductive BudgetStep (s : Service) (input : Input) (S' : Store) : Prop
  | same (h : S'.runs.map RunRow.budget = s.store.runs.map RunRow.budget)
  | created (h : s.store.BudgetsConform →
      (S'.BudgetsConform ↔ s.Admissible input))

theorem createRun_budgetStep (request : InternalStartRunRequest) (s : Service) :
    BudgetStep s (.createRun request) ((createRun H request).run s).2.store := by
  have hcases := createRun_cases (H := H) request s
  rcases hrun : (createRun H request).run s with ⟨e | response, s'⟩
  · rw [hrun] at hcases
    exact .same (by rw [show s'.store = s.store from hcases])
  · rw [hrun] at hcases
    dsimp only at hcases ⊢
    split_ifs at hcases
    · exact .same (by rw [hcases])
    · obtain ⟨now, row, hcreated, hnone, hbudget⟩ := hcases
      refine .created fun hconform ↦ ?_
      rw [hcreated.budgetsConform_iff, and_iff_right hconform, hbudget, Store.draftBudget,
        conforms_normalizeBudget_iff]
      exact ⟨fun h _ ↦ h, fun h ↦ h hnone⟩

theorem Grant.budgetsConform_iff {request : ChildRunRequest} {childRunId : JsString}
    {S S' : Store} {row : RunRow} {budget : RunBudget}
    (h : Grant H O request childRunId S S' row budget) :
    S'.BudgetsConform ↔ S.BudgetsConform ∧ Conforms budget := by
  obtain ⟨now, createdAt, child, S₁, hcreated, rfl⟩ := h.created
  have hbudget : child.budget = budget := by
    obtain ⟨_, _, _, _, rfl⟩ := hcreated.row_eq
    rfl
  rw [← hbudget, ← hcreated.budgetsConform_iff]
  refine Store.budgetsConform_congr ?_
  exact Table.map_update (f := Store.appended createdAt _) (fun _ ↦ rfl) S₁.runs

theorem createChildRun_budgetStep (request : ChildRunRequest) {s : Service}
    (h : s.store.Logged) :
    BudgetStep s (.createChildRun request) ((createChildRun H O request).run s).2.store := by
  have hcases := createChildRun_cases (H := H) (O := O) request h
  rcases hrun : (createChildRun H O request).run s with ⟨e | response, s'⟩
  · rw [hrun] at hcases
    exact .same (by rw [show s'.store = s.store from hcases])
  · rw [hrun] at hcases
    dsimp only at hcases ⊢
    split_ifs at hcases
    · exact .same (by rw [hcases])
    · obtain ⟨row, budget, hgrant⟩ := hcases
      refine .created fun hconform ↦ ?_
      rw [hgrant.budgetsConform_iff, and_iff_right hconform]
      have hparent : Conforms (toRunRecord row).budget :=
        hconform row (Store.run?_mem hgrant.parent).1
      have hchildren : ∀ child ∈ s.store.listChildRuns row.id, Conforms child.budget := by
        intro child hchild
        obtain ⟨r, hr, rfl⟩ := List.mem_map.mp hchild
        exact hconform r (List.mem_filter.mp ((List.mem_insertionSort _).mp hr)).1
      rw [conforms_grant_iff hgrant.bounded hparent hchildren]
      refine ⟨fun hrequest r hr _ _ ↦ ?_, fun hadmissible ↦ ?_⟩
      · obtain rfl := Option.some.inj (hr.symm.trans hgrant.parent)
        exact hrequest
      · exact hadmissible row hgrant.parent budget hgrant.bounded

/-- The other inputs create no run. -/
theorem callLicence_creates {input : Input} (hrun : ∀ request, input ≠ .createRun request)
    (hchild : ∀ request, input ≠ .createChildRun request) (s : Service)
    (request : InternalStartRunRequest) : ¬(callLicence O s input).creates request := by
  cases input with
  | createRun request => exact absurd rfl (hrun request)
  | createChildRun request => exact absurd rfl (hchild request)
  | _ => exact id

theorem step_budgetStep {s : Service} (h : s.store.Logged) (input : Input) :
    BudgetStep s input (step H O s input).store := by
  have hsame : ∀ {L : Licence}, (∀ request, ¬L.creates request) →
      Store.Evolves H.toPlatform L s.store (step H O s input).store →
        BudgetStep s input (step H O s input).store := by
    intro L hL hevolves
    refine .same ?_
    exact hevolves.preserves_log (p := fun T ↦ T.runs.map RunRow.budget = s.store.runs.map _)
      (fun S S' hstep hS ↦ (hstep.budgets_eq hL).trans hS) rfl
  by_cases hrestart : input = .restart
  · subst hrestart
    have hevolves := (reconcileInterruptedRuns_effects (H := H) (s := restarted s) h).evolves
    rw [step_restart] at hsame ⊢
    exact hsame (fun _ ↦ id) hevolves
  cases hexec : input.execution? with
  | some r =>
    cases he : s.execution? r with
    | none =>
      rw [step_idle hexec he]
      exact .same rfl
    | some e =>
      exact hsame (L := executionLicence e) (fun _ ↦ id) (handle_execution hexec he).evolves
  | none =>
    by_cases hrun : ∃ request, input = .createRun request
    · obtain ⟨request, rfl⟩ := hrun
      rw [step, handle, run_discard]
      exact createRun_budgetStep request s
    by_cases hchild : ∃ request, input = .createChildRun request
    · obtain ⟨request, rfl⟩ := hchild
      rw [step, handle, run_discard]
      exact createChildRun_budgetStep request h
    · exact hsame (callLicence_creates (fun request heq ↦ hrun ⟨request, heq⟩)
        (fun request heq ↦ hchild ⟨request, heq⟩) s) (handle_call hexec hrestart s).evolves

theorem budgetsConform_of_admissible {s : Service} (hs : Reachable H O s)
    (hconform : s.store.BudgetsConform) {input : Input} (hinput : s.Admissible input) :
    (step H O s input).store.BudgetsConform := by
  cases step_budgetStep (H := H) (O := O) hs.logged input with
  | same h => exact (Store.budgetsConform_congr h).mpr hconform
  | created h => exact (h hconform).mpr hinput

/-- **Stored budgets and the schema.** Where every call is admissible, every run is stored with a
budget within the schema; and a call that is not admissible, if it creates a run beside runs whose
budgets are within the schema, stores one that is not. -/
theorem budgetsConform_of_throughout (H : Host) (O : Options) (history : List Input) :
    (Throughout (step H O) Admissible {} history →
      (after H O {} history).store.BudgetsConform) ∧
    ∀ input, (after H O {} history).store.BudgetsConform →
      (after H O {} history).store.runs.length
          < (after H O {} (history ++ [input])).store.runs.length →
        ((after H O {} (history ++ [input])).store.BudgetsConform ↔
          (after H O {} history).Admissible input) := by
  refine ⟨fun hadmissible ↦ ?_, fun input hconform hlength ↦ ?_⟩
  · induction history using List.reverseRecOn with
    | nil => exact fun row hrow ↦ absurd hrow List.not_mem_nil
    | append_singleton history input ih =>
      obtain ⟨hbefore, hinput, -⟩ := throughout_append.mp hadmissible
      rw [after_append]
      exact budgetsConform_of_admissible ⟨history, rfl⟩ (ih hbefore) hinput
  · rw [after_append] at hlength ⊢
    have hreach : Reachable H O (after H O {} history) := ⟨history, rfl⟩
    cases step_budgetStep (H := H) (O := O) hreach.logged input with
    | same h =>
      have hsame := congrArg List.length h
      rw [List.length_map, List.length_map] at hsame
      exact absurd hsame hlength.ne'
    | created h => exact h hconform

/-! ### Half a turn -/

/-- The arguments of a tool call that asks for a child with half a turn. -/
def halfATurn : List (JsString × JsValue) := [(js "maxTurns", .number (.finite (1 / 2)))]

/-- The request of that tool call. -/
def halfATurnChild (budget : RunBudgetOverrides) : ChildRunRequest where
  parentRunId := js "run_0"
  agent := js "agent"
  input := js "input"
  idempotencyKey := js "child"
  budget := some budget

/-- The tool call is taken, and its child is stored with half a turn. -/
theorem not_budgetsConform_halfATurn :
    ∃ budget, toolBudget halfATurn = .ok budget ∧
      ∃ row ∈ (after referenceHost referenceOptions {}
          (oneToolCall ++ [.createChildRun (halfATurnChild budget)])).store.runs,
        row.budget.maxTurns = 1 / 2 ∧ ¬Conforms row.budget := by
  exact ⟨{ maxTurns := some (1 / 2) }, by decide +kernel, by decide +kernel⟩

end Service

end LiteHarness
