import LiteHarness.Provider.FrozenRoutes

/-!
# An attempt that outlives a memo

A memo forgets an attempt as soon as 1024 others have been entered, whether or not the attempt still
has turns to run (`lookup_after_crowd`). Its next turn then selects a gateway and persists a plan
again.
-/

namespace LiteHarness.Provider

open Foundation Foundation.Calls

/-- What the installation's own gateway is entered with for a call. -/
def localEntry (call : GatewayCall) : JsString × ℕ := (attemptKey call.context, 0)

namespace GatewayCalls

/-- What many calls of other attempts, without a provider connection, leave behind. -/
structure AfterCrowd (c : GatewayCalls) (calls : List GatewayCall) (d : GatewayCalls) : Prop where
  gateways : d.shared.gateways
    = (c.shared.gateways ++ calls.map localEntry).rtake memoCapacity
  gateway : d.shared.gateway = c.shared.gateway
  persisted : d.shared.persisted = c.shared.persisted
  pending : ∀ q ∈ d.pending, q ∈ c.pending ∨ q.1 < d.started
  started : d.started = c.started + calls.length

/-- Calls of attempts that are not entered yet enter themselves, one after the other. -/
theorem afterCrowd {c : GatewayCalls} (hfull : c.shared.gateways.length ≤ memoCapacity)
    {calls : List GatewayCall}
    (hlocal : ∀ call ∈ calls, truthy call.context.providerConnectionId = none)
    (hfresh : ((c.shared.gateways ++ calls.map localEntry).map Prod.fst).Nodup) :
    AfterCrowd c calls ((calls.map GatewayInput.call).foldl step c) := by
  induction calls using List.reverseRecOn with
  | nil =>
    refine ⟨?_, rfl, rfl, fun q hq ↦ Or.inl hq, rfl⟩
    change c.shared.gateways = (c.shared.gateways ++ []).rtake memoCapacity
    rw [List.append_nil, List.rtake, Nat.sub_eq_zero_of_le hfull, List.drop_zero]
  | append_singleton calls call ih =>
    have hlist : c.shared.gateways ++ (calls ++ [call]).map localEntry
        = (c.shared.gateways ++ calls.map localEntry) ++ [localEntry call] := by
      rw [List.map_append, List.append_assoc]
      rfl
    rw [hlist, List.map_append] at hfresh
    have hbefore := ih (fun call' hcall ↦ hlocal call' (List.mem_append_left _ hcall))
      (List.nodup_append.mp hfresh).1
    have hkey : attemptKey call.context ∉
        (c.shared.gateways ++ calls.map localEntry).map Prod.fst := fun hmem ↦
      (List.nodup_append.mp hfresh).2.2 _ hmem _ List.mem_cons_self rfl
    rw [List.map_append, List.foldl_append]
    generalize (calls.map GatewayInput.call).foldl step c = d at hbefore ⊢
    -- the memo misses, and without a connection the entry is made at once
    have hmiss : Table.lookup Prod.fst (attemptKey call.context) d.shared.gateways = none := by
      rw [hbefore.gateways]
      refine Table.lookup_eq_none_iff.mpr fun q hq heq ↦ hkey ?_
      exact List.mem_map.mpr ⟨q, Memo.mem_of_mem_rtake hq, heq⟩
    have hbegin : d.shared.begin call = d.shared.select call 0 := by
      rw [Gateways.begin, hmiss, hlocal call (List.mem_append_right _ List.mem_cons_self)]
      rfl
    have hstep : [GatewayInput.call call].foldl step d
        = { d with started := d.started + 1 }.conclude d.started (d.shared.select call 0) := by
      rw [List.foldl_cons, List.foldl_nil, step, Calls.start, hbegin]
    rw [List.map_singleton, hstep]
    refine ⟨?_, hbefore.gateway, hbefore.persisted, fun q hq ↦ ?_, ?_⟩
    · change Memo.enter memoCapacity _ 0 d.shared.gateways = _
      rw [hbefore.gateways, Memo.enter_rtake hkey, hlist]
      rfl
    · rcases List.mem_append.mp hq with hq | hq
      · exact (hbefore.pending q hq).imp_right Nat.lt_succ_of_lt
      · rw [List.mem_singleton.mp hq]
        exact Or.inr (Nat.lt_succ_self _)
    · change d.started + 1 = _
      rw [hbefore.started, List.length_append, List.length_singleton, Nat.add_assoc]

/-- **A memo forgets an attempt** once 1024 others have been entered. -/
theorem lookup_after_crowd {c d : GatewayCalls} {calls : List GatewayCall}
    (h : AfterCrowd c calls d) (hcrowd : calls.length = memoCapacity) {key : JsString}
    (hkey : ∀ call ∈ calls, attemptKey call.context ≠ key) :
    Table.lookup Prod.fst key d.shared.gateways = none := by
  have hend : d.shared.gateways = calls.map localEntry := by
    rw [h.gateways, List.rtake, List.length_append, List.length_map, hcrowd,
      Nat.add_sub_cancel, List.drop_left]
  rw [hend]
  refine Table.lookup_eq_none_iff.mpr fun q hq ↦ ?_
  obtain ⟨call, hcall, rfl⟩ := List.mem_map.mp hq
  exact hkey call hcall

/-- A turn of an attempt that the memo does not know, on a connection whose gateway has never planned
for it, persists a plan. -/
theorem persisted_after_turn {c : GatewayCalls} {call : GatewayCall} {gateway : ℕ}
    (hmiss : Table.lookup Prod.fst (attemptKey call.context) c.shared.gateways = none)
    (hconnection : (truthy call.context.providerConnectionId).isSome = true)
    (hpending : ∀ q ∈ c.pending, q.1 ≠ c.started) {registry : ModelRegistry}
    (hgateway : c.shared.gateway gateway = ⟨.registry registry, []⟩) {id : JsString}
    {createdAt : ℤ} {plan : RoutePlan}
    (hplan : registry.plan
      ⟨normalizedRequiredCapabilities call.context.requiredCapabilities, none, none, none, none⟩
      id createdAt = .ok plan) :
    ([.call call, .resolved c.started (.ok (some gateway)), .goesOn c.started id createdAt,
      .stored c.started (.ok ())].foldl step c).shared.persisted
        = c.shared.persisted ++ [⟨call.context, gateway, plan⟩] := by
  have hbegin : c.shared.begin call = (c.shared, .suspends (.resolving call)) := by
    rw [Gateways.begin, hmiss]
    exact if_pos hconnection
  have hroute : stretch (.goesOn c.started id createdAt) (.routed call gateway)
      (c.shared.select call gateway).1
        = ((c.shared.select call gateway).1, .suspends (.persisting call gateway plan)) := by
    change Gateways.plan _ _ _ _ _ = _
    rw [Gateways.plan, show (c.shared.select call gateway).1.gateway gateway = _ from hgateway]
    dsimp only
    rw [show Table.lookup Prod.fst _ ([] : List (JsString × RoutePlan)) = none from rfl]
    dsimp only
    rw [hplan]
  -- each input resumes the newest call
  obtain ⟨e, he⟩ : ∃ e : GatewayCalls, e = { c with started := c.started + 1 } := ⟨_, rfl⟩
  have hnewest : ∀ q ∈ e.pending, q.1 ≠ c.started := by
    rw [he]
    exact hpending
  have hcall : step c (.call call)
      = e.conclude c.started (c.shared, .suspends (.resolving call)) := by
    rw [step, Calls.start, hbegin, he]
  have hresolved : step (e.conclude c.started (c.shared, .suspends (.resolving call)))
      (.resolved c.started (.ok (some gateway)))
        = e.conclude c.started (c.shared.select call gateway) :=
    resume_conclude e hnewest _ _ _
  have hplanned : step (e.conclude c.started (c.shared.select call gateway))
      (.goesOn c.started id createdAt)
        = e.conclude c.started
          ((c.shared.select call gateway).1, .suspends (.persisting call gateway plan)) :=
    (resume_conclude e hnewest _ _ _).trans (congrArg _ hroute)
  have hstored : step (e.conclude c.started
      ((c.shared.select call gateway).1, .suspends (.persisting call gateway plan)))
        (.stored c.started (.ok ()))
        = e.conclude c.started
          ((c.shared.select call gateway).1.stored call gateway plan (.ok ())) :=
    resume_conclude e hnewest _ _ _
  rw [List.foldl_cons, hcall, List.foldl_cons, hresolved, List.foldl_cons, hplanned,
    List.foldl_cons, hstored, List.foldl_nil, Protocol.conclude_shared]
  rfl

/-! ## An instance -/

/-- A call of an attempt that names a provider connection. -/
def connectedCall : GatewayCall :=
  ⟨.streamTurn, { runId := js "r", attemptId := js "a", providerConnectionId := some (js "c") }⟩

/-- A turn of `connectedCall`, the `n`-th call, on the gateway its connection resolves to. -/
def connectedTurn (n gateway : ℕ) (id : JsString) : List GatewayInput :=
  [.call connectedCall, .resolved n (.ok (some gateway)), .goesOn n id 0, .stored n (.ok ())]

/-- As many other attempts as a memo has room for. -/
def crowd : List GatewayCall :=
  (List.range memoCapacity).map fun i ↦ ⟨.prepareRun, { runId := decimal i, attemptId := js "a" }⟩

theorem crowd_keys : (crowd.map fun call ↦ attemptKey call.context).Nodup ∧
    ∀ call ∈ crowd, attemptKey call.context ≠ attemptKey connectedCall.context := by
  constructor
  · rw [crowd, List.map_map]
    refine List.nodup_range.map fun i j heq ↦ decimal_injective ?_
    exact List.append_cancel_right (List.append_cancel_right heq)
  · intro call hcall heq
    obtain ⟨i, -, rfl⟩ := List.mem_map.mp hcall
    -- the run id of the attempt is no numeral
    have hrun : decimal i = js "r" := List.append_cancel_right (List.append_cancel_right heq)
    have hunit : (114 : UInt16) ∈ decimal i := by
      rw [hrun]
      decide
    exact absurd (decimal_unit hunit).2 (by decide)

/-- A turn, the entries of 1024 other attempts, and the next turn of the attempt, whose connection
has been edited in between: two plans are persisted for it. -/
theorem not_routesFrozen_crowd :
    ¬RoutesFrozen (run (fun _ ↦ oneModel)
      (connectedTurn 0 1 (js "route_1") ++ crowd.map .call
        ++ connectedTurn (memoCapacity + 1) 2 (js "route_2"))) := by
  intro h
  rw [run, List.foldl_append, List.foldl_append, ← run] at h
  -- the first turn
  have hgateways : (run (fun _ ↦ oneModel) (connectedTurn 0 1 (js "route_1"))).shared.gateways
      = [(attemptKey connectedCall.context, 1)] := by decide +kernel
  have hpersisted : (run (fun _ ↦ oneModel)
      (connectedTurn 0 1 (js "route_1"))).shared.persisted.map PersistedPlan.context
        = [connectedCall.context] := by decide +kernel
  have hpending : (run (fun _ ↦ oneModel)
      (connectedTurn 0 1 (js "route_1"))).pending.map Prod.fst = [0] := by decide +kernel
  have hstarted : (run (fun _ ↦ oneModel) (connectedTurn 0 1 (js "route_1"))).started = 1 := by
    decide +kernel
  have hgateway : (run (fun _ ↦ oneModel) (connectedTurn 0 1 (js "route_1"))).shared.gateway 2
      = ⟨oneModel, []⟩ := by decide +kernel
  generalize run (fun _ ↦ oneModel) (connectedTurn 0 1 (js "route_1")) = c at *
  -- the crowd
  have hafter : AfterCrowd c crowd ((crowd.map .call).foldl step c) := afterCrowd
    (by rw [hgateways]; decide)
    (fun call hcall ↦ by obtain ⟨i, -, rfl⟩ := List.mem_map.mp hcall; rfl) (by
      rw [hgateways, List.singleton_append, List.map_cons, List.map_map, List.nodup_cons]
      refine ⟨fun hmem ↦ ?_, crowd_keys.1⟩
      obtain ⟨call, hcall, heq⟩ := List.mem_map.mp hmem
      exact crowd_keys.2 call hcall heq)
  generalize (crowd.map GatewayInput.call).foldl step c = d at *
  have hlength : crowd.length = memoCapacity := by rw [crowd, List.length_map, List.length_range]
  have hnext : memoCapacity + 1 = d.started := by
    rw [hafter.started, hstarted, hlength, Nat.add_comm]
  -- the next turn
  have hmiss := lookup_after_crowd hafter hlength crowd_keys.2
  have hwaiting : ∀ q ∈ d.pending, q.1 ≠ d.started := by
    intro q hq
    rcases hafter.pending q hq with hq | hq
    · have hzero := List.mem_map_of_mem (f := Prod.fst) hq
      rw [hpending, List.mem_singleton] at hzero
      rw [hzero, ← hnext]
      exact Nat.succ_ne_zero _ ∘ Eq.symm
    · exact hq.ne
  cases hplan : (⟨[plainModel], 1⟩ : ModelRegistry).plan
      ⟨normalizedRequiredCapabilities connectedCall.context.requiredCapabilities, none, none, none,
        none⟩ (js "route_2") 0 with
  | error e =>
    have hok : ((⟨[plainModel], 1⟩ : ModelRegistry).plan
      ⟨normalizedRequiredCapabilities connectedCall.context.requiredCapabilities, none, none, none,
        none⟩ (js "route_2") 0).isOk = true := by decide +kernel
    rw [hplan] at hok
    exact Bool.false_ne_true hok
  | ok plan =>
    have hturn := persisted_after_turn hmiss rfl hwaiting
      ((congrFun hafter.gateway 2).trans hgateway) hplan
    have honce := h.once
    rw [connectedTurn, hnext, hturn, hafter.persisted, List.pairwise_append] at honce
    obtain ⟨p, hp, hcontext⟩ := List.mem_map.mp
      (show connectedCall.context ∈ c.shared.persisted.map PersistedPlan.context by
        rw [hpersisted]; exact List.mem_singleton_self _)
    refine honce.2.2 p hp _ (List.mem_singleton_self _) ?_
    rw [hcontext]
    exact ⟨rfl, rfl⟩

end GatewayCalls

end LiteHarness.Provider
