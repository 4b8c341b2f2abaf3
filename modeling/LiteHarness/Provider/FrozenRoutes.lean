import LiteHarness.Foundation.SelfDelimiting
import LiteHarness.Provider.Gateways

/-!
# One gateway and one plan for an attempt

All turns of a run attempt should use one gateway and one plan, the one that was persisted for it.
They do in every history in which no attempt looks its entry up after 1024 others have pushed it out
of a memo, or while another call of its own is between the look-up and the entry
(`routesFrozen_of_inTime`).
-/

namespace LiteHarness.Provider

open Foundation

/-! ## The property -/

/-- Two contexts are of one run attempt. -/
def SameAttempt (a b : ModelRunContext) : Prop := a.runId = b.runId ∧ a.attemptId = b.attemptId

instance (a b : ModelRunContext) : Decidable (SameAttempt a b) :=
  inferInstanceAs (Decidable (_ ∧ _))

/-- Routes are frozen: one gateway and one plan for each attempt. -/
structure RoutesFrozen (c : GatewayCalls) : Prop where
  /-- The calls of an attempt use one gateway and one plan. -/
  same : ∀ m n call call' gateway gateway' plan plan',
    (m, .uses call gateway plan) ∈ c.answers → (n, .uses call' gateway' plan') ∈ c.answers →
      SameAttempt call.context call'.context → gateway = gateway' ∧ plan = plan'
  /-- No attempt persists two plans. -/
  once : c.shared.persisted.Pairwise fun p q ↦ ¬SameAttempt p.context q.context
  /-- A plan from a registry is the one persisted for the attempt. -/
  persisted : ∀ n call gateway plan, (n, .uses call gateway plan) ∈ c.answers →
    (c.shared.gateway gateway).route.fixed? = none →
      ∃ p ∈ c.shared.persisted, SameAttempt p.context call.context ∧ p.gateway = gateway ∧
        p.plan = plan

/-! ## The condition -/

/-- What the calls of an attempt enter in a memo. -/
inductive Slot where
  | gateway (key : JsString)
  | plan (key : JsString)
  deriving DecidableEq

/-- The slot a call is about to fill. -/
def Stage.fills : Stage → Option Slot
  | .resolving call => some (.gateway (attemptKey call.context))
  | .persisting call _ _ => some (.plan (attemptKey call.context))
  | .routed _ _ => none
  | .planned _ _ _ => none

/-- The slots calls are about to fill: a call owns its slot from the look-up to the entry. -/
def slots : Ownership Gateways Stage Slot where
  owns := Stage.fills
  free
    | .gateway key, s => key ∉ s.selected.map Prod.fst
    | .plan key, s => key ∉ s.persisted.map fun p ↦ attemptKey p.context

/-- All that was ever entered in the memo `#plans` of a gateway. -/
def Gateways.entered (s : Gateways) (gateway : ℕ) : List (JsString × RoutePlan) :=
  (s.persisted.filter fun p ↦ p.gateway = gateway).map fun p ↦ (attemptKey p.context, p.plan)

/-- If there was an entry for the key, it is among the newest 1024. -/
def Held {α : Type} (log : List (JsString × α)) (key : JsString) : Prop :=
  key ∈ log.map Prod.fst → key ∈ (log.rtake memoCapacity).map Prod.fst

instance {α : Type} (log : List (JsString × α)) (key : JsString) : Decidable (Held log key) :=
  inferInstanceAs (Decidable (_ → _))

/-- A call that is about to look its plan up: the entry of its attempt was not pushed out of the
memo, and no call is about to make it. -/
def PlanInTime (c : GatewayCalls) : Stage → Prop
  | .routed call gateway => Held (c.shared.entered gateway) (attemptKey call.context) ∧
      .plan (attemptKey call.context) ∉ slots.owned c.pending
  | _ => True

instance (c : GatewayCalls) : DecidablePred (PlanInTime c)
  | .routed _ _ => inferInstanceAs (Decidable (_ ∧ _))
  | .resolving _ => inferInstanceAs (Decidable True)
  | .persisting _ _ _ => inferInstanceAs (Decidable True)
  | .planned _ _ _ => inferInstanceAs (Decidable True)

/-- A call that looks up a memo: the entry of its attempt was not pushed out, and no call is about
to make it. A run id has no U+0000. -/
def InTime (c : GatewayCalls) : GatewayInput → Prop
  | .call call => 0 ∉ call.context.runId ∧
      Held c.shared.selected (attemptKey call.context) ∧
        .gateway (attemptKey call.context) ∉ slots.owned c.pending
  | .goesOn n _ _ => ∀ q ∈ c.pending, q.1 = n → PlanInTime c q.2
  | _ => True

instance (c : GatewayCalls) : DecidablePred (InTime c)
  | .call _ => inferInstanceAs (Decidable (_ ∧ _ ∧ _))
  | .goesOn _ _ _ => inferInstanceAs (Decidable (∀ q ∈ c.pending, _ → _))
  | .resolved _ _ => inferInstanceAs (Decidable True)
  | .stored _ _ => inferInstanceAs (Decidable True)
  | .register _ _ => inferInstanceAs (Decidable True)

/-! ## The invariant -/

/-- A gateway was selected for the attempt of a context. -/
def Gateways.Selected (s : Gateways) (context : ModelRunContext) (gateway : ℕ) : Prop :=
  0 ∉ context.runId ∧ (attemptKey context, gateway) ∈ s.selected

/-- A plan is the one of the attempt at its gateway. -/
def Gateways.Planned (s : Gateways) (context : ModelRunContext) (gateway : ℕ) (plan : RoutePlan) :
    Prop :=
  (s.gateway gateway).route.fixed? = some plan ∨
    ((s.gateway gateway).route.fixed? = none ∧ ∃ p ∈ s.persisted, SameAttempt p.context context ∧
      p.gateway = gateway ∧ p.plan = plan)

/-- Attempts are entered once, and memos are the ends of their logs. -/
structure Gateways.Wf (s : Gateways) : Prop where
  selected_nodup : (s.selected.map Prod.fst).Nodup
  gateways_eq : s.gateways = s.selected.rtake memoCapacity
  persisted_nodup : (s.persisted.map fun p ↦ attemptKey p.context).Nodup
  plans_eq : ∀ gateway, (s.gateway gateway).plans = (s.entered gateway).rtake memoCapacity
  persisted_selected : ∀ p ∈ s.persisted, s.Selected p.context p.gateway ∧
    (s.gateway p.gateway).route.fixed? = none

/-- What was entered and persisted stays, and no gateway changes its kind. -/
structure Gateways.Extends (s t : Gateways) : Prop where
  selected : s.selected ⊆ t.selected
  persisted : s.persisted ⊆ t.persisted
  fixed : ∀ gateway, (t.gateway gateway).route.fixed? = (s.gateway gateway).route.fixed?

theorem Gateways.Extends.refl (s : Gateways) : s.Extends s :=
  ⟨List.Subset.refl _, List.Subset.refl _, fun _ ↦ rfl⟩

theorem Gateways.Extends.trans {s t w : Gateways} (h : s.Extends t) (h' : t.Extends w) :
    s.Extends w :=
  ⟨List.Subset.trans h.selected h'.selected, List.Subset.trans h.persisted h'.persisted,
    fun gateway ↦ (h'.fixed gateway).trans (h.fixed gateway)⟩

theorem Gateways.Selected.extends {s t : Gateways} {context : ModelRunContext} {gateway : ℕ}
    (h : s.Selected context gateway) (hst : s.Extends t) : t.Selected context gateway :=
  ⟨h.1, hst.selected h.2⟩

theorem Gateways.Planned.extends {s t : Gateways} {context : ModelRunContext} {gateway : ℕ}
    {plan : RoutePlan} (h : s.Planned context gateway plan) (hst : s.Extends t) :
    t.Planned context gateway plan := by
  rw [Gateways.Planned, hst.fixed]
  rcases h with h | ⟨h, p, hp, hplan⟩
  · exact Or.inl h
  · exact Or.inr ⟨h, p, hst.persisted hp, hplan⟩

/-- What a call may count on while it is suspended. -/
def Stage.Counts (s : Gateways) : Stage → Prop
  | .resolving call => 0 ∉ call.context.runId
  | .routed call gateway => s.Selected call.context gateway
  | .persisting call gateway _ => s.Selected call.context gateway ∧
      (s.gateway gateway).route.fixed? = none
  | .planned call gateway plan => s.Selected call.context gateway ∧
      s.Planned call.context gateway plan

/-- What holds of an outcome ever after. -/
def Outcome.Counts (s : Gateways) : Outcome → Prop
  | .throws _ _ => True
  | .uses call gateway plan => s.Selected call.context gateway ∧
      s.Planned call.context gateway plan

/-- The stretches of the calls of gateways. -/
def frozen : Protocol Gateways Stage Outcome where
  inv := Gateways.Wf
  rely := Gateways.Extends
  suspended _ stage s := stage.Counts s
  answered _ outcome s := outcome.Counts s
  refl := Gateways.Extends.refl
  trans _ _ _ := Gateways.Extends.trans
  suspended_stable := by
    intro _ stage s t h hst
    cases stage with
    | resolving call => exact h
    | routed call gateway => exact h.extends hst
    | persisting call gateway plan => exact ⟨h.1.extends hst, (hst.fixed gateway).trans h.2⟩
    | planned call gateway plan => exact ⟨h.1.extends hst, h.2.extends hst⟩
  answered_stable := by
    intro _ outcome s t h hst
    cases outcome with
    | throws call error => exact h
    | uses call gateway plan => exact ⟨h.1.extends hst, h.2.extends hst⟩

/-! ## Stretches -/

/-- A stretch keeps the protocol and what other calls own. -/
structure Sound (n : ℕ) (taken : List Slot) (s : Gateways) (r : Gateways × Ending Stage Outcome) :
    Prop where
  protocol : frozen.Guarantee n s r
  ownership : slots.Guarantee taken s r

variable {s : Gateways} {n : ℕ} {taken : List Slot} {call : GatewayCall} {gateway : ℕ}

/-- A stretch that leaves the shared state alone and fills no slot. -/
theorem Sound.of_same (hs : s.Wf) {ending : Ending Stage Outcome}
    (hended : frozen.Ended n s ending)
    (htakes : ∀ stage slot, ending = .suspends stage → stage.fills = some slot →
      slot ∉ taken ∧ slots.free slot s) :
    Sound n taken s (s, ending) where
  protocol := ⟨hs, Gateways.Extends.refl s, hended⟩
  ownership := ⟨fun _ _ h ↦ h, htakes⟩

theorem Sound.answers (hs : s.Wf) {outcome : Outcome} (h : outcome.Counts s) :
    Sound n taken s (s, .answers outcome) :=
  Sound.of_same hs h fun _ _ hstage ↦ absurd hstage (by simp)

theorem Sound.waits (hs : s.Wf) {stage : Stage} (h : stage.Counts s) (hfills : stage.fills = none) :
    Sound n taken s (s, .suspends stage) := by
  refine Sound.of_same hs h fun stage' slot hstage hslot ↦ ?_
  rw [← Ending.suspends.inj hstage, hfills] at hslot
  exact absurd hslot (by simp)

/-- An attempt that was not entered is entered. -/
theorem Sound.select (hs : s.Wf) (hrun : 0 ∉ call.context.runId)
    (htaken : .gateway (attemptKey call.context) ∉ taken)
    (hfree : attemptKey call.context ∉ s.selected.map Prod.fst) (gateway : ℕ) :
    Sound n taken s (s.select call gateway) := by
  have hextends : s.Extends (s.select call gateway).1 :=
    ⟨List.subset_append_left _ _, List.Subset.refl _, fun _ ↦ rfl⟩
  refine ⟨⟨⟨?_, ?_, hs.persisted_nodup, hs.plans_eq, fun p hp ↦ ?_⟩, hextends, hrun, ?_⟩, ?_, ?_⟩
  · change ((s.selected ++ [_]).map Prod.fst).Nodup
    exact Table.nodup_append_fresh hs.selected_nodup fun q hq heq ↦
      hfree (List.mem_map.mpr ⟨q, hq, heq⟩)
  · change Memo.enter _ _ _ s.gateways = _
    rw [hs.gateways_eq, Memo.enter_rtake hfree]
    rfl
  · obtain ⟨hselected, hfixed⟩ := hs.persisted_selected p hp
    exact ⟨hselected.extends hextends, hfixed⟩
  · exact List.mem_append_right _ List.mem_cons_self
  · intro slot hslot hfreeSlot
    cases slot with
    | plan key => exact hfreeSlot
    | gateway key =>
      change key ∉ (s.selected ++ [_]).map Prod.fst
      rw [List.map_append, List.mem_append, List.map_singleton, List.mem_singleton]
      rintro (hkey | rfl)
      · exact hfreeSlot hkey
      · exact htaken hslot
  · intro stage slot hstage hslot
    rw [← Ending.suspends.inj hstage] at hslot
    exact absurd hslot (by simp [Stage.fills, slots])

/-- The first stretch of a call. -/
theorem Sound.begin (hs : s.Wf) (hrun : 0 ∉ call.context.runId)
    (htaken : .gateway (attemptKey call.context) ∉ taken)
    (hheld : Held s.selected (attemptKey call.context)) : Sound n taken s (s.begin call) := by
  rw [Gateways.begin]
  split
  case h_1 key gateway hlookup =>
    have hmem := Table.mem_of_lookup hlookup
    obtain rfl : key = attemptKey call.context := Table.key_of_lookup hlookup
    rw [hs.gateways_eq] at hmem
    exact Sound.waits hs ⟨hrun, Memo.mem_of_mem_rtake hmem⟩ rfl
  case h_2 hlookup =>
    have hfree : attemptKey call.context ∉ s.selected.map Prod.fst := by
      intro hentered
      have hfound := Table.lookup_isSome_iff.mpr (hheld hentered)
      rw [← hs.gateways_eq, hlookup] at hfound
      exact Bool.false_ne_true hfound
    split_ifs
    · refine Sound.of_same hs hrun fun stage slot hstage hslot ↦ ?_
      rw [← Ending.suspends.inj hstage] at hslot
      obtain rfl := Option.some.inj hslot
      exact ⟨htaken, hfree⟩
    · exact Sound.select hs hrun htaken hfree 0

/-- `resolve` has settled. -/
theorem Sound.resolved (hs : s.Wf) (hrun : 0 ∉ call.context.runId)
    (htaken : .gateway (attemptKey call.context) ∉ taken)
    (hfree : attemptKey call.context ∉ s.selected.map Prod.fst)
    (result : Except Thrown (Option ℕ)) : Sound n taken s (s.resolved call result) := by
  match result with
  | .error e => exact Sound.answers hs trivial
  | .ok none => exact Sound.answers hs trivial
  | .ok (some gateway) => exact Sound.select hs hrun htaken hfree gateway

/-- Two contexts of one key, whose run ids have no U+0000, are of one attempt. -/
theorem sameAttempt_of_key {a b : ModelRunContext} (ha : 0 ∉ a.runId) (hb : 0 ∉ b.runId)
    (h : attemptKey a = attemptKey b) : SameAttempt a b := by
  rw [attemptKey, attemptKey, List.append_assoc, List.append_assoc] at h
  have hfree : ∀ u : JsString, 0 ∉ u → ∀ c ∈ u, ¬c = 0 := by
    rintro u hu c hc rfl
    exact hu hc
  obtain ⟨hrun, hattempt⟩ := append_eq_append_of_free (D := (· = 0)) (hfree _ ha) (hfree _ hb)
    (startsIn_cons.mpr rfl) (startsIn_cons.mpr rfl) h
  exact ⟨hrun, (List.cons.inj hattempt).2⟩

/-- The plan of an attempt, up to the hook. -/
theorem Sound.plan (hs : s.Wf) (hselected : s.Selected call.context gateway)
    (htaken : .plan (attemptKey call.context) ∉ taken)
    (hheld : Held (s.entered gateway) (attemptKey call.context)) (id : JsString) (createdAt : ℤ) :
    Sound n taken s (s.plan call gateway id createdAt) := by
  rw [Gateways.plan]
  split
  case h_1 plan hroute =>
    split_ifs
    · exact Sound.waits hs ⟨hselected, Or.inl (by rw [hroute]; rfl)⟩ rfl
    · exact Sound.answers hs trivial
  case h_2 registry hroute =>
    have hfixed : (s.gateway gateway).route.fixed? = none := by rw [hroute]; rfl
    split
    case h_1 key plan hlookup =>
      have hmem := Table.mem_of_lookup hlookup
      obtain rfl : key = attemptKey call.context := Table.key_of_lookup hlookup
      rw [hs.plans_eq] at hmem
      obtain ⟨p, hp, heq⟩ := List.mem_map.mp (Memo.mem_of_mem_rtake hmem)
      obtain ⟨hp, hgateway⟩ := List.mem_filter.mp hp
      obtain ⟨hkey, rfl⟩ := Prod.mk.inj heq
      refine Sound.waits hs ⟨hselected, Or.inr ⟨hfixed, p, hp, ?_, of_decide_eq_true hgateway,
        rfl⟩⟩ rfl
      exact sameAttempt_of_key (hs.persisted_selected p hp).1.1 hselected.1 hkey
    case h_2 hlookup =>
      split
      case h_1 e => exact Sound.answers hs trivial
      case h_2 plan =>
        refine Sound.of_same hs ⟨hselected, hfixed⟩ fun stage slot hstage hslot ↦ ?_
        rw [← Ending.suspends.inj hstage] at hslot
        obtain rfl := Option.some.inj hslot
        refine ⟨htaken, fun hpersisted ↦ ?_⟩
        -- a plan persisted for the attempt is of this gateway, and was pushed out of its memo
        obtain ⟨p, hp, hkey⟩ := List.mem_map.mp hpersisted
        have hother := (hs.persisted_selected p hp).1.2
        rw [hkey] at hother
        have hgateway : p.gateway = gateway :=
          congrArg Prod.snd (List.inj_on_of_nodup_map hs.selected_nodup hother hselected.2 rfl)
        have hentered : attemptKey call.context ∈ (s.entered gateway).map Prod.fst := by
          refine List.mem_map.mpr ⟨(attemptKey p.context, p.plan), ?_, hkey⟩
          exact List.mem_map_of_mem (List.mem_filter.mpr ⟨hp, decide_eq_true hgateway⟩)
        have hfound := Table.lookup_isSome_iff.mpr (hheld hentered)
        rw [← hs.plans_eq, hlookup] at hfound
        exact Bool.false_ne_true hfound

/-- What a memo was ever given, once a plan is persisted. -/
theorem entered_append (s : Gateways) (p : PersistedPlan) (gateway : ℕ) :
    { s with persisted := s.persisted ++ [p] }.entered gateway
      = s.entered gateway ++ if p.gateway = gateway then [(attemptKey p.context, p.plan)] else [] := by
  rw [Gateways.entered, List.filter_append, List.map_append, Gateways.entered]
  by_cases h : p.gateway = gateway <;> simp [h]

/-- The hook has settled. -/
theorem Sound.stored (hs : s.Wf) (hselected : s.Selected call.context gateway)
    (hfixed : (s.gateway gateway).route.fixed? = none)
    (htaken : .plan (attemptKey call.context) ∉ taken)
    (hfree : attemptKey call.context ∉ s.persisted.map fun p ↦ attemptKey p.context)
    (plan : RoutePlan) (result : Except Thrown Unit) :
    Sound n taken s (s.stored call gateway plan result) := by
  match result with
  | .error e => exact Sound.answers hs trivial
  | .ok () =>
    have hroute : ∀ g, ((s.stored call gateway plan (.ok ())).1.gateway g).route.fixed?
        = (s.gateway g).route.fixed? := by
      intro g
      change (Function.update s.gateway gateway _ g).route.fixed? = _
      by_cases h : g = gateway
      · rw [h, Function.update_self]
      · rw [Function.update_of_ne h]
    have hextends : s.Extends (s.stored call gateway plan (.ok ())).1 :=
      ⟨List.Subset.refl _, List.subset_append_left _ _, hroute⟩
    have hentered : attemptKey call.context ∉ (s.entered gateway).map Prod.fst := by
      intro h
      obtain ⟨q, hq, hkey⟩ := List.mem_map.mp h
      obtain ⟨p, hp, rfl⟩ := List.mem_map.mp hq
      exact hfree (List.mem_map.mpr ⟨p, (List.mem_filter.mp hp).1, hkey⟩)
    refine ⟨⟨⟨hs.selected_nodup, hs.gateways_eq, ?_, fun g ↦ ?_, fun p hp ↦ ?_⟩, hextends,
      hselected.extends hextends, ?_⟩, ?_, ?_⟩
    · exact Table.nodup_append_fresh hs.persisted_nodup fun p hp heq ↦
        hfree (List.mem_map.mpr ⟨p, hp, heq⟩)
    · change (Function.update s.gateway gateway _ g).plans = _
      rw [show (s.stored call gateway plan (.ok ())).1.entered g = _ from
        entered_append s ⟨call.context, gateway, plan⟩ g]
      by_cases h : gateway = g
      · subst h
        rw [Function.update_self, hs.plans_eq, Memo.enter_rtake hentered, if_pos rfl]
      · rw [Function.update_of_ne (Ne.symm h), hs.plans_eq, if_neg h, List.append_nil]
    · rw [hroute]
      rcases List.mem_append.mp hp with hp | hp
      · obtain ⟨hselected, hfixed⟩ := hs.persisted_selected p hp
        exact ⟨hselected.extends hextends, hfixed⟩
      · rw [List.mem_singleton.mp hp]
        exact ⟨hselected.extends hextends, hfixed⟩
    · exact Or.inr ⟨(hroute gateway).trans hfixed, _,
        List.mem_append_right _ List.mem_cons_self, ⟨rfl, rfl⟩, rfl, rfl⟩
    · intro slot hslot hfreeSlot
      cases slot with
      | gateway key => exact hfreeSlot
      | plan key =>
        change key ∉ (s.persisted ++ [_]).map _
        rw [List.map_append, List.mem_append, List.map_singleton, List.mem_singleton]
        rintro (hkey | rfl)
        · exact hfreeSlot hkey
        · exact htaken hslot
    · intro stage slot hstage hslot
      rw [← Ending.suspends.inj hstage] at hslot
      exact absurd hslot (by simp [Stage.fills, slots])

/-- A registry changes between two stretches. -/
theorem register_sound (hs : s.Wf) (gateway : ℕ) (model : ModelDescriptor) :
    (s.register gateway model).Wf ∧ s.Extends (s.register gateway model) ∧
      ∀ slot, slots.free slot s → slots.free slot (s.register gateway model) := by
  rw [Gateways.register]
  split
  case h_1 => exact ⟨hs, Gateways.Extends.refl s, fun _ h ↦ h⟩
  case h_2 registry hroute =>
    have hgateway : ∀ g, (Function.update s.gateway gateway
        { s.gateway gateway with route := .registry (registry.register model) } g).route.fixed?
          = (s.gateway g).route.fixed? ∧
        (Function.update s.gateway gateway
          { s.gateway gateway with route := .registry (registry.register model) } g).plans
            = (s.gateway g).plans := by
      intro g
      by_cases h : g = gateway
      · rw [h, Function.update_self, hroute]
        exact ⟨rfl, rfl⟩
      · rw [Function.update_of_ne h]
        exact ⟨rfl, rfl⟩
    refine ⟨⟨hs.selected_nodup, hs.gateways_eq, hs.persisted_nodup,
      fun g ↦ (hgateway g).2.trans (hs.plans_eq g), fun p hp ↦ ?_⟩,
      ⟨List.Subset.refl _, List.Subset.refl _, fun g ↦ (hgateway g).1⟩, fun slot h ↦ ?_⟩
    · obtain ⟨hselected, hfixed⟩ := hs.persisted_selected p hp
      exact ⟨hselected, (hgateway _).1.trans hfixed⟩
    · cases slot with
      | gateway key => exact h
      | plan key => exact h

/-- The next stretch of a suspended call. -/
theorem stretch_sound (hs : s.Wf) (input : GatewayInput) {stage : Stage} (hcounts : stage.Counts s)
    (hslot : ∀ slot, stage.fills = some slot → slot ∉ taken ∧ slots.free slot s)
    (hheld : ∀ m id createdAt call gateway, input = .goesOn m id createdAt →
      stage = .routed call gateway → Held (s.entered gateway) (attemptKey call.context) ∧
        .plan (attemptKey call.context) ∉ taken) :
    Sound n taken s (stretch input stage s) := by
  have hwaits : Sound n taken s (s, .suspends stage) :=
    Sound.of_same hs hcounts fun stage' slot hstage hfills ↦
      hslot slot (Ending.suspends.inj hstage ▸ hfills)
  cases stage with
  | resolving call =>
    cases input with
    | resolved m result =>
      obtain ⟨htaken, hfree⟩ := hslot _ rfl
      exact Sound.resolved hs hcounts htaken hfree result
    | _ => exact hwaits
  | routed call gateway =>
    cases input with
    | goesOn m id createdAt =>
      obtain ⟨hheld, htaken⟩ := hheld m id createdAt call gateway rfl rfl
      exact Sound.plan hs hcounts htaken hheld id createdAt
    | _ => exact hwaits
  | persisting call gateway plan =>
    cases input with
    | stored m result =>
      obtain ⟨htaken, hfree⟩ := hslot _ rfl
      exact Sound.stored hs hcounts.1 hcounts.2 htaken hfree plan result
    | _ => exact hwaits
  | planned call gateway plan =>
    cases input with
    | goesOn m id createdAt => exact Sound.answers hs hcounts
    | _ => exact hwaits

/-! ## Runs -/

/-- The protocol holds, and calls about to fill a slot own it. -/
def GatewayCalls.Holds (c : GatewayCalls) : Prop := frozen.Holds c ∧ slots.Holds c

/-- A resumed call runs its stretch. -/
theorem GatewayCalls.Holds.resume {c : GatewayCalls} (h : c.Holds) (n : ℕ) (input : GatewayInput)
    (hheld : ∀ m id createdAt call gateway, input = .goesOn m id createdAt →
      (n, .routed call gateway) ∈ c.pending →
        Held (c.shared.entered gateway) (attemptKey call.context) ∧
          .plan (attemptKey call.context) ∉ slots.owned c.pending) :
    GatewayCalls.Holds (c.resume n (stretch input)) := by
  obtain ⟨hfrozen, hslots⟩ := h
  have hothers : ∀ slot, slot ∉ slots.owned c.pending →
      slot ∉ slots.owned (c.pending.filter fun q ↦ q.1 ≠ n) := fun slot hslot hmem ↦
    hslot ((List.filter_sublist.filterMap _).subset hmem)
  have hsound : ∀ stage, (n, stage) ∈ c.pending → stage.Counts c.shared →
      Sound n (slots.owned (c.pending.filter fun q ↦ q.1 ≠ n)) c.shared
        (stretch input stage c.shared) := by
    intro stage hmem hcounts
    refine stretch_sound hfrozen.inv input hcounts (fun slot hslot ↦ ?_) ?_
    · exact ⟨hslots.not_owned_by_others hmem hslot,
        hslots.free slot (Ownership.mem_owned.mpr ⟨_, hmem, hslot⟩)⟩
    · rintro m id createdAt call gateway hinput rfl
      obtain ⟨hheld, hslot⟩ := hheld m id createdAt call gateway hinput hmem
      exact ⟨hheld, hothers _ hslot⟩
  refine ⟨hfrozen.resume n fun stage hmem hcounts ↦ (hsound stage hmem hcounts).protocol, ?_⟩
  exact hslots.resume n fun stage hmem _ ↦
    (hsound stage hmem (hfrozen.suspended _ hmem)).ownership

/-- A step that is in time keeps the protocol. -/
theorem GatewayCalls.Holds.step {c : GatewayCalls} {input : GatewayInput} (h : c.Holds)
    (hin : InTime c input) : (c.step input).Holds := by
  cases input with
  | call call =>
    obtain ⟨hrun, hheld, hslot⟩ := hin
    have hsound : Sound c.started (slots.owned c.pending) c.shared (c.shared.begin call) :=
      Sound.begin h.1.inv hrun hslot hheld
    exact ⟨h.1.start (f := fun s ↦ s.begin call) hsound.protocol,
      h.2.start (f := fun s ↦ s.begin call) hsound.ownership⟩
  | register gateway model =>
    obtain ⟨hinv, hextends, hfree⟩ := register_sound h.1.inv gateway model
    exact ⟨h.1.change (f := fun s ↦ s.register gateway model) hinv hextends,
      h.2.change (f := fun s ↦ s.register gateway model) fun slot _ ↦ hfree slot⟩
  | resolved n result =>
    exact h.resume n _ fun m id createdAt call gateway hinput ↦ absurd hinput (by simp)
  | stored n result =>
    exact h.resume n _ fun m id createdAt call gateway hinput ↦ absurd hinput (by simp)
  | goesOn n id createdAt => exact h.resume n _ fun _ _ _ call gateway _ hmem ↦ hin _ hmem rfl

theorem GatewayCalls.holds_init (routes : ℕ → Route) : (GatewayCalls.init routes).Holds :=
  ⟨Protocol.holds_init ⟨List.nodup_nil, (List.rtake_nil _).symm, List.nodup_nil,
    fun _ ↦ (List.rtake_nil _).symm, fun _ hp ↦ absurd hp List.not_mem_nil⟩, Ownership.holds_init⟩

/-- Where the protocol holds, routes are frozen. -/
theorem GatewayCalls.Holds.routesFrozen {c : GatewayCalls} (h : c.Holds) : RoutesFrozen c where
  same := by
    intro m n call call' gateway gateway' plan plan' hm hn hattempt
    obtain ⟨hselected, hplanned⟩ := h.1.answered _ hm
    obtain ⟨hselected', hplanned'⟩ := h.1.answered _ hn
    have hkey : attemptKey call.context = attemptKey call'.context := by
      rw [attemptKey, attemptKey, hattempt.1, hattempt.2]
    have hgateway : gateway = gateway' :=
      congrArg Prod.snd
        (List.inj_on_of_nodup_map h.1.inv.selected_nodup hselected.2 hselected'.2 hkey)
    refine ⟨hgateway, ?_⟩
    rcases hplanned with hfixed | ⟨hfixed, p, hp, hsame, -, rfl⟩ <;>
      rcases hplanned' with hfixed' | ⟨hfixed', p', hp', hsame', -, rfl⟩
    · rw [hgateway] at hfixed
      exact Option.some.inj (hfixed.symm.trans hfixed')
    · rw [hgateway] at hfixed
      exact absurd (hfixed.symm.trans hfixed') (by simp)
    · rw [hgateway] at hfixed
      exact absurd (hfixed.symm.trans hfixed') (by simp)
    · refine congrArg PersistedPlan.plan
        (List.inj_on_of_nodup_map h.1.inv.persisted_nodup hp hp' ?_)
      rw [attemptKey, attemptKey, hsame.1, hsame.2, hsame'.1, hsame'.2, hattempt.1, hattempt.2]
  once := by
    refine (List.pairwise_map.mp h.1.inv.persisted_nodup).imp fun {p q} hne hsame ↦ hne ?_
    rw [attemptKey, attemptKey, hsame.1, hsame.2]
  persisted := by
    intro n call gateway plan hmem hfixed
    obtain ⟨-, hplanned | ⟨-, hpersisted⟩⟩ := h.1.answered _ hmem
    · exact absurd (hplanned.symm.trans hfixed) (by simp)
    · exact hpersisted

/-- **When routes are frozen.** They are in every history in which no attempt looks its entry up in
a memo after 1024 others have pushed it out, or while another call of its own is between the look-up
and the entry. -/
theorem routesFrozen_of_inTime (routes : ℕ → Route) (history : List GatewayInput)
    (h : Throughout GatewayCalls.step InTime (GatewayCalls.init routes) history) :
    RoutesFrozen (GatewayCalls.run routes history) :=
  (h.induction (fun _ _ hc hin ↦ hc.step hin) (GatewayCalls.holds_init routes)).routesFrozen

def plainModel : ModelDescriptor where
  id := js "m"
  providerId := js "p"
  credentialProfileId := js "c"
  capabilities := [.text]
  contextWindow := 1000

/-- A registry of one model. -/
def oneModel : Route := .registry ⟨[plainModel], 1⟩

/-- A call of one attempt. -/
def attemptCall (kind : CallKind) : GatewayCall := ⟨kind, { runId := js "r", attemptId := js "a" }⟩

/-- The run is prepared, and then has a turn. -/
theorem routesFrozen_prepared :
    RoutesFrozen (GatewayCalls.run (fun _ ↦ oneModel)
      [.call (attemptCall .prepareRun), .goesOn 0 (js "route_1") 0, .stored 0 (.ok ()),
        .goesOn 0 [] 0, .call (attemptCall .streamTurn), .goesOn 1 (js "route_2") 1,
        .goesOn 1 [] 1]) :=
  routesFrozen_of_inTime _ _ (by decide +kernel)

/-- A turn that begins while the run is being prepared: both calls miss the memo `#plans`, and both
persist a plan. -/
example :
    ¬RoutesFrozen (GatewayCalls.run (fun _ ↦ oneModel)
      [.call (attemptCall .prepareRun), .goesOn 0 (js "route_1") 0,
        .call (attemptCall .streamTurn), .goesOn 1 (js "route_2") 1, .stored 0 (.ok ()),
        .stored 1 (.ok ()), .goesOn 0 [] 0, .goesOn 1 [] 1]) :=
  fun h ↦ absurd h.once (by decide +kernel)

end LiteHarness.Provider
