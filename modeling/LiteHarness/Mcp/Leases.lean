import LiteHarness.Foundation.Suspension
import LiteHarness.Mcp.Registration

/-!
# One transport for each server

A lease names a transport and a generation. The generation grows with every transport that is made and
with every stop that begins, so that a lease is current where its generation is the one of the
registration, and a lease that is not current never becomes it again. What an operation has seen of its
transport therefore stays true for as long as its lease is current, and a call is sent on a current lease
as long as no stop begins after the last check.
-/

namespace LiteHarness.Mcp

namespace Registration

variable {ω σ : Type} {limits : McpLimits} {W W' : Registration ω σ} {n m t : ℕ}
  {operation : Operation ω} {lease : McpTransportLease}

/-! ## Operations -/

/-- A lease was given on a transport that is current as long as the generation is. -/
def LeaseOk (W : Registration ω σ) (lease : McpTransportLease) : Prop :=
  lease.startPromise = some lease.transport ∧ lease.generation ≤ W.generation ∧
    (lease.generation = W.generation → W.transport = some lease.transport)

/-- What is true of the lease of an operation at a stage. -/
def StageOk (W : Registration ω σ) (operation : Operation ω) (lease : McpTransportLease) : Prop :=
  match operation.stage with
  | .started =>
    W.starts lease.transport = .fulfilled ∧
      (operation.kind.isCall = true →
        W.IsCurrent lease ∨ W.expectedTools.isSome = true ∧ W.stopPromise.isSome = true)
  | .reading r =>
    W.starts lease.transport = .fulfilled ∧
      (operation.kind.isCall = true → W.expectedTools.isSome = true ∧
        ∃ reading, W.readings r = some reading ∧ reading.lease.transport = lease.transport ∧
          reading.lease.generation = lease.generation)
  | .validated =>
    W.starts lease.transport = .fulfilled ∧
      (operation.kind.isCall = true → W.IsCurrent lease ∧ lease.transport ∈ W.matched)
  | .answered _ current => current = false → lease.generation < W.generation
  | _ => True

/-- What is always true of an operation. -/
def OperationOk (W : Registration ω σ) (operation : Operation ω) : Prop :=
  ∀ lease ∈ operation.lease, W.LeaseOk lease ∧ W.StageOk operation lease

/-! ## The registration -/

/-- `activeOperations` counts the operations under way. -/
def Counted (W : Registration ω σ) : Prop :=
  W.activeOperations = W.unfinished.length ∧ W.unfinished.Nodup ∧
    ∀ n, n ∈ W.unfinished ↔ (W.operations n).stage.unfinished = true

/-- The transports that are live. -/
def held (W : Registration ω σ) : List ℕ :=
  W.transport.toList ++ W.stopPromise.toList ++ W.unstopped

/-- What is always true of the transports. -/
structure TransportsOk (W : Registration ω σ) : Prop where
  live : W.live = W.held
  single : W.held.length ≤ 1
  pending : ∀ t, W.made ≤ t → W.starts t = .pending
  current : ∀ t, W.transport = some t →
    W.startPromise = some t ∧ t < W.made ∧ t ∉ W.stopsBegun
  begun : ∀ t ∈ W.stopsBegun, t < W.made
  stopping : ∀ t, W.stopPromise = some t → t < W.made

/-- What is always true of the catalog. -/
structure CatalogOk (W : Registration ω σ) : Prop where
  validated : W.catalogValidated = true → ∃ t, W.transport = some t ∧ t ∈ W.matched
  promise : ∀ r, W.catalogPromise = some r →
    ∃ reading, W.readings r = some reading ∧ W.IsCurrent reading.lease
  readings : ∀ r, W.readingsMade ≤ r → W.readings r = none

/-- **What is true between two steps.** -/
structure Inv (W : Registration ω σ) : Prop where
  operations : ∀ n, W.OperationOk (W.operations n)
  counted : W.Counted
  transports : W.TransportsOk
  catalog : W.CatalogOk
  sent : ∀ call ∈ W.sent, call.started = true ∧ call.stopped = false ∧ call.matched = true
  results : ∀ current ∈ W.results, current = true

/-- Where there is a transport, none is being stopped, and every stop has succeeded. -/
theorem TransportsOk.alone (h : W.TransportsOk) (ht : W.transport = some t) :
    W.stopPromise = none ∧ W.unstopped = [] := by
  have hsingle := h.single
  rw [held, ht] at hsingle
  rcases hs : W.stopPromise with _ | s <;> rcases hu : W.unstopped with _ | ⟨u, rest⟩ <;>
    simp [hs, hu] at hsingle ⊢

/-- Where a transport is being stopped, there is no other one. -/
theorem TransportsOk.alone_stopping (h : W.TransportsOk) (ht : W.stopPromise = some t) :
    W.transport = none ∧ W.unstopped = [] := by
  have hsingle := h.single
  rw [held, ht] at hsingle
  rcases hs : W.transport with _ | s <;> rcases hu : W.unstopped with _ | ⟨u, rest⟩ <;>
    simp [hs, hu] at hsingle ⊢

/-- Without a transport no lease is current. -/
theorem not_isCurrent (hnone : W.transport = none) (lease : McpTransportLease) :
    ¬W.IsCurrent lease := fun hcurrent ↦
  absurd (hcurrent.1.symm.trans hnone) (Option.some_ne_none _)

theorem LeaseOk.isCurrent (h : W.LeaseOk lease) (hgeneration : lease.generation = W.generation) :
    W.IsCurrent lease := ⟨h.2.2 hgeneration, hgeneration.symm⟩

/-- A lease that is not current is of an earlier generation. -/
theorem LeaseOk.lt_of_not_isCurrent (h : W.LeaseOk lease) (hnot : ¬W.IsCurrent lease) :
    lease.generation < W.generation :=
  lt_of_le_of_ne h.2.1 fun hgeneration ↦ hnot (h.isCurrent hgeneration)

theorem goOn_self (n : ℕ) (operation : Operation ω) :
    (W.goOn n operation).operations n = operation := by
  show Function.update W.operations n operation n = operation
  rw [Function.update_self]

theorem goOn_of_ne (operation : Operation ω) (hne : m ≠ n) :
    (W.goOn n operation).operations m = W.operations m := by
  show Function.update W.operations n operation m = W.operations m
  rw [Function.update_of_ne hne]

/-- **One operation goes on**, and what is true of the others stays true. -/
theorem Inv.act (h : W.Inv) (n : ℕ)
    (hoperations : W'.operations = Function.update W.operations n operation)
    (hothers : ∀ m, m ≠ n → W.OperationOk (W.operations m) → W'.OperationOk (W.operations m))
    (hown : W'.OperationOk operation) (hcounted : W'.Counted) (htransports : W'.TransportsOk)
    (hcatalog : W'.CatalogOk)
    (hsent : ∀ call ∈ W'.sent, call.started = true ∧ call.stopped = false ∧ call.matched = true)
    (hresults : ∀ current ∈ W'.results, current = true) : W'.Inv where
  operations m := by
    rw [hoperations]
    by_cases hm : m = n
    · subst hm
      rw [Function.update_self]
      exact hown
    · rw [Function.update_of_ne hm]
      exact hothers m hm (h.operations m)
  counted := hcounted
  transports := htransports
  catalog := hcatalog
  sent := hsent
  results := hresults

/-! ## Counting -/

/-- An operation under way goes on and stays under way. -/
theorem Counted.goOn (h : W.Counted) (hbefore : (W.operations n).stage.unfinished = true)
    (hafter : operation.stage.unfinished = true) : (W.goOn n operation).Counted := by
  refine ⟨h.1, h.2.1, fun m ↦ ?_⟩
  by_cases hm : m = n
  · subst hm
    rw [goOn_self]
    exact (h.2.2 m).trans (iff_of_true hbefore hafter)
  · rw [goOn_of_ne operation hm]
    exact h.2.2 m

/-- An operation begins. -/
theorem Counted.begin (h : W.Counted) (hbefore : (W.operations n).stage.unfinished = false)
    (hafter : operation.stage.unfinished = true) (timer : Option McpTransportLease) :
    Counted ({ W with
      idleTimer := timer
      activeOperations := W.activeOperations + 1
      unfinished := n :: W.unfinished }.goOn n operation) := by
  have hnot : n ∉ W.unfinished := by
    rw [h.2.2, hbefore]
    exact Bool.false_ne_true
  refine ⟨congrArg (· + 1) h.1, List.nodup_cons.mpr ⟨hnot, h.2.1⟩, fun m ↦ ?_⟩
  by_cases hm : m = n
  · subst hm
    rw [goOn_self]
    exact iff_of_true List.mem_cons_self hafter
  · rw [goOn_of_ne operation hm]
    show m ∈ n :: W.unfinished ↔ _
    rw [List.mem_cons, or_iff_right hm]
    exact h.2.2 m

/-- An operation ends. -/
theorem Counted.finish (h : W.Counted) (hbefore : (W.operations n).stage.unfinished = true)
    (hafter : operation.stage.unfinished = false) (timer : Option McpTransportLease) :
    Counted ({ W with
      idleTimer := timer
      activeOperations := W.activeOperations - 1
      unfinished := W.unfinished.erase n }.goOn n operation) := by
  have hmem : n ∈ W.unfinished := (h.2.2 n).mpr hbefore
  refine ⟨?_, h.2.1.erase n, fun m ↦ ?_⟩
  · show W.activeOperations - 1 = (W.unfinished.erase n).length
    rw [List.length_erase_of_mem hmem, h.1]
  · by_cases hm : m = n
    · subst hm
      rw [goOn_self, hafter]
      refine iff_of_false (fun hmem' ↦ ?_) Bool.false_ne_true
      exact ((List.Nodup.mem_erase_iff h.2.1).mp hmem').1 rfl
    · rw [goOn_of_ne operation hm]
      show m ∈ W.unfinished.erase n ↔ _
      rw [List.mem_erase_of_ne hm]
      exact h.2.2 m

/-- An operation is denied before it begins. -/
theorem Counted.settle (h : W.Counted) (hbefore : (W.operations n).stage.unfinished = false)
    (hafter : operation.stage.unfinished = false) : (W.goOn n operation).Counted := by
  refine ⟨h.1, h.2.1, fun m ↦ ?_⟩
  by_cases hm : m = n
  · subst hm
    rw [goOn_self, hafter]
    exact (h.2.2 m).trans (by rw [hbefore])
  · rw [goOn_of_ne operation hm]
    exact h.2.2 m

/-! ## Steps of one operation -/

/-- Timers, the backoff and what is noted of calls do not matter to the transports. -/
theorem Inv.aside (h : W.Inv) (timer : Option McpTransportLease) (failures retryAt : ℕ) :
    Inv { W with idleTimer := timer, failures := failures, retryAt := retryAt } :=
  ⟨h.operations, h.counted, ⟨h.transports.live, h.transports.single, h.transports.pending,
    h.transports.current, h.transports.begun, h.transports.stopping⟩, ⟨h.catalog.validated,
    h.catalog.promise, h.catalog.readings⟩, h.sent, h.results⟩

/-- An operation under way goes on. -/
theorem Inv.goOn (h : W.Inv) (hbefore : (W.operations n).stage.unfinished = true)
    (hafter : operation.stage.unfinished = true) (hown : W.OperationOk operation) :
    (W.goOn n operation).Inv :=
  h.act n rfl (fun _ _ ↦ id) hown (h.counted.goOn hbefore hafter)
    ⟨h.transports.live, h.transports.single, h.transports.pending, h.transports.current,
      h.transports.begun, h.transports.stopping⟩
    ⟨h.catalog.validated, h.catalog.promise, h.catalog.readings⟩ h.sent h.results

/-- Where the stage says nothing of the lease, an operation may go there. -/
theorem OperationOk.restage {stage : OperationStage ω} (h : W.OperationOk operation)
    (hstage : ∀ lease ∈ operation.lease, W.StageOk { operation with stage := stage } lease) :
    W.OperationOk { operation with stage := stage } := fun lease hlease ↦
  ⟨(h lease hlease).1, hstage lease hlease⟩

theorem Inv.goTo (h : W.Inv) (hbefore : (W.operations n).stage.unfinished = true)
    (stage : OperationStage ω) (hafter : stage.unfinished = true)
    (hstage : ∀ lease ∈ (W.operations n).lease,
      W.StageOk { W.operations n with stage := stage } lease) : (W.goTo n stage).Inv :=
  h.goOn hbefore hafter ((h.operations n).restage hstage)

/-- An operation fails. -/
theorem Inv.goToFailing (h : W.Inv) (hbefore : (W.operations n).stage.unfinished = true) :
    (W.goTo n .failing).Inv :=
  h.goTo hbefore .failing rfl fun _ _ ↦ trivial

theorem Inv.awaitAt (h : W.Inv) (hbefore : (W.operations n).stage.unfinished = true)
    (stage : OperationStage ω) (hafter : stage.unfinished = true)
    (hstage : ∀ lease ∈ (W.operations n).lease,
      W.StageOk { W.operations n with stage := stage } lease) : (W.awaitAt n stage).Inv := by
  rw [Registration.awaitAt]
  split
  · exact h.goToFailing hbefore
  · exact h.goTo hbefore stage hafter hstage

theorem armIdle_eq (limits : McpLimits) (W : Registration ω σ) :
    ∃ timer, W.armIdle limits = { W with idleTimer := timer } := by
  rw [armIdle]
  split
  · exact ⟨W.idleTimer, rfl⟩
  · split
    · exact ⟨W.idleTimer, rfl⟩
    · exact ⟨_, rfl⟩

/-- What ends with the operation. -/
theorem endOperation_eq (limits : McpLimits) (W : Registration ω σ) (n : ℕ) :
    ∃ timer, W.endOperation limits n = { W with
      idleTimer := timer
      activeOperations := W.activeOperations - 1
      unfinished := W.unfinished.erase n }.goTo n .settled := by
  simp only [endOperation]
  split
  · obtain ⟨timer, heq⟩ := armIdle_eq limits { W with
      activeOperations := W.activeOperations - 1, unfinished := W.unfinished.erase n }
    exact ⟨timer, by rw [heq]⟩
  · exact ⟨W.idleTimer, rfl⟩

/-- **An operation ends.** -/
theorem Inv.endOperation (h : W.Inv) (hbefore : (W.operations n).stage.unfinished = true) :
    (W.endOperation limits n).Inv := by
  obtain ⟨timer, heq⟩ := endOperation_eq limits W n
  rw [heq]
  exact h.act n rfl (fun _ _ ↦ id) (fun lease hlease ↦ ⟨(h.operations n lease hlease).1, trivial⟩)
    (h.counted.finish hbefore rfl timer)
    ⟨h.transports.live, h.transports.single, h.transports.pending, h.transports.current,
      h.transports.begun, h.transports.stopping⟩
    ⟨h.catalog.validated, h.catalog.promise, h.catalog.readings⟩ h.sent h.results

/-! ## Stopping -/

/-- An operation that is not under way has nothing to lose. -/
theorem stageOk_of_finished (hfinished : operation.stage.unfinished = false) :
    W.StageOk operation lease := by
  rcases operation with ⟨kind, aborted, lease', stage⟩
  cases stage with
  | started | reading r | validated | answered output current => exact Bool.noConfusion hfinished
  | _ => trivial

/-- What an operation has seen stays true while a stop begins, unless it is about to send. -/
theorem OperationOk.beginStop (h : W.OperationOk operation) (hwindow : ¬W.InWindow operation)
    (t : ℕ) : (W.beginStop t).OperationOk operation := by
  intro lease hlease
  obtain ⟨hok, hstage⟩ := h lease hlease
  have hlt : lease.generation < (W.beginStop t).generation := Nat.lt_succ_of_le hok.2.1
  refine ⟨⟨hok.1, hlt.le, fun hgeneration ↦ absurd hgeneration hlt.ne⟩, ?_⟩
  rcases operation with ⟨kind, aborted, lease', stage⟩
  cases stage with
  | started =>
    refine ⟨hstage.1, fun hcall ↦ Or.inr ?_⟩
    rcases hstage.2 hcall with hcurrent | hexpected
    · -- Without a catalog it would be about to send.
      rcases hexpected : W.expectedTools with _ | expected
      · exact absurd ⟨hcall, ⟨lease, hlease, hcurrent⟩, by rw [hexpected]; rfl⟩ hwindow
      · exact ⟨congrArg Option.isSome hexpected, rfl⟩
    · exact ⟨hexpected.1, rfl⟩
  | reading r => exact hstage
  | validated =>
    exact ⟨hstage.1, fun hcall ↦
      absurd ⟨hcall, ⟨lease, hlease, (hstage.2 hcall).1⟩, trivial⟩ hwindow⟩
  | answered output current => exact fun hcurrent ↦ (hstage hcurrent).trans (Nat.lt_succ_self _)
  | _ => trivial

/-- **A stop begins**, while no call is about to be sent. -/
theorem Inv.beginStop (h : W.Inv) (ht : W.transport = some t) (hquiet : W.Quiet) :
    (W.beginStop t).Inv := by
  obtain ⟨hnone, hunstopped⟩ := h.transports.alone ht
  obtain ⟨-, hmade, -⟩ := h.transports.current t ht
  have hheld : W.held = [t] := by
    rw [held, ht, hnone, hunstopped]
    rfl
  have hheld' : (W.beginStop t).held = [t] := by
    show [] ++ [t] ++ W.unstopped = [t]
    rw [hunstopped]
    rfl
  refine {
    operations := fun n ↦ ?_
    counted := h.counted
    transports := {
      live := h.transports.live.trans (hheld.trans hheld'.symm)
      single := by rw [hheld']; exact le_rfl
      pending := h.transports.pending
      current := fun s hs ↦ absurd hs.symm (Option.some_ne_none s)
      begun := ?_
      stopping := fun s hs ↦ by obtain rfl := Option.some.inj hs; exact hmade }
    catalog := {
      validated := fun hfalse ↦ absurd hfalse Bool.false_ne_true
      promise := fun r hr ↦ absurd hr.symm (Option.some_ne_none r)
      readings := h.catalog.readings }
    sent := h.sent
    results := h.results }
  · by_cases hmem : n ∈ W.unfinished
    · exact (h.operations n).beginStop (hquiet n hmem) t
    · have hfinished : (W.operations n).stage.unfinished = false := by
        rw [h.counted.2.2] at hmem
        exact Bool.eq_false_iff.mpr hmem
      intro lease hlease
      have hlt : lease.generation < (W.beginStop t).generation :=
        Nat.lt_succ_of_le (h.operations n lease hlease).1.2.1
      exact ⟨⟨(h.operations n lease hlease).1.1, hlt.le, fun heq ↦ absurd heq hlt.ne⟩,
        stageOk_of_finished hfinished⟩
  · intro s hs
    rcases List.mem_cons.mp hs with rfl | hs
    · exact hmade
    · exact h.transports.begun s hs

theorem Inv.stopRegistration (h : W.Inv) (hquiet : W.Quiet) : W.stopRegistration.Inv := by
  rw [Registration.stopRegistration]
  split
  · exact h
  · split
    · exact h.aside none W.failures W.retryAt
    · rename_i t ht
      exact h.beginStop ht hquiet

theorem stopRegistration_operations (W : Registration ω σ) :
    W.stopRegistration.operations = W.operations := by
  rw [stopRegistration]
  split
  · rfl
  · split <;> rfl

theorem Counted.move (h : W.Counted) (f : Operation ω → Operation ω)
    (hf : ∀ operation, (f operation).stage.unfinished = operation.stage.unfinished) :
    (W.move f).Counted :=
  ⟨h.1, h.2.1, fun n ↦ (h.2.2 n).trans (by
    show _ ↔ (f (W.operations n)).stage.unfinished = true
    rw [hf])⟩

theorem unfinished_afterStop (stopped : Bool) (operation : Operation ω) :
    (afterStop stopped operation).stage.unfinished = operation.stage.unfinished := by
  rcases operation with ⟨kind, aborted, lease, stage⟩
  cases stage with
  | waiting => cases stopped <;> rfl
  | _ => rfl

theorem lease_afterStop (stopped : Bool) (operation : Operation ω) :
    (afterStop stopped operation).lease = operation.lease := by
  rcases operation with ⟨kind, aborted, lease, stage⟩
  cases stage <;> rfl

/-- **A stop is over**: what was due has gone on. -/
theorem Inv.stopSettles (h : W.Inv) (stopped : Bool) : (W.stopSettles stopped).Inv := by
  rw [Registration.stopSettles]
  split
  · exact h
  · rename_i t ht
    split
    · exact h
    · rename_i hdue
      obtain ⟨hnone, hunstopped⟩ := h.transports.alone_stopping ht
      have hlive : W.live = [t] := by
        rw [h.transports.live, held, hnone, ht, hunstopped]
        rfl
      refine {
        operations := fun n lease hlease ↦ ?_
        counted := h.counted.move _ (unfinished_afterStop stopped)
        transports := ?_
        catalog := ⟨h.catalog.validated, h.catalog.promise, h.catalog.readings⟩
        sent := h.sent
        results := h.results }
      · have hlease' : lease ∈ (W.operations n).lease := by
          rw [← lease_afterStop stopped]
          exact hlease
        obtain ⟨hok, hstage⟩ := h.operations n lease hlease'
        refine ⟨hok, ?_⟩
        have hcurrent : W.IsDue (W.operations n) → n ∉ W.unfinished := fun hd hn ↦ hdue ⟨n, hn, hd⟩
        show StageOk _ (afterStop stopped (W.operations n)) lease
        have hcounted := h.counted.2.2 n
        revert hstage hcurrent hcounted hlease'
        generalize W.operations n = operation
        rcases operation with ⟨kind, aborted, lease', stage⟩
        intro hlease' hstage hcurrent hcounted
        cases stage with
        | waiting => cases stopped <;> trivial
        | started =>
          refine ⟨hstage.1, fun hcall ↦ Or.inl ?_⟩
          by_contra hnot
          exact hcurrent ⟨lease, hlease', hnot⟩ (hcounted.mpr rfl)
        | reading r => exact hstage
        | validated => exact hstage
        | answered output current => exact hstage
        | _ => trivial
      · cases stopped with
        | true =>
          have hheld : held ({ W with
              stopPromise := none
              live := W.live.erase t
              unstopped := W.unstopped }.move (afterStop true)) = [] := by
            show W.transport.toList ++ [] ++ W.unstopped = []
            rw [hnone, hunstopped]
            rfl
          exact {
            live := by
              refine Eq.trans ?_ hheld.symm
              show W.live.erase t = []
              rw [hlive, List.erase_cons_head]
            single := by
              refine le_trans (le_of_eq (congrArg List.length hheld)) (Nat.zero_le 1)
            pending := h.transports.pending
            current := h.transports.current
            begun := h.transports.begun
            stopping := fun s hs ↦ absurd hs.symm (Option.some_ne_none s) }
        | false =>
          have hheld : held ({ W with
              stopPromise := none
              live := W.live
              unstopped := t :: W.unstopped }.move (afterStop false)) = [t] := by
            show W.transport.toList ++ [] ++ t :: W.unstopped = [t]
            rw [hnone, hunstopped]
            rfl
          exact {
            live := hlive.trans hheld.symm
            single := le_of_eq (congrArg List.length hheld)
            pending := h.transports.pending
            current := h.transports.current
            begun := h.transports.begun
            stopping := fun s hs ↦ absurd hs.symm (Option.some_ne_none s) }

/-! ## Acquiring -/

/-- Without a transport no operation has a current lease, so that one may be made. -/
theorem OperationOk.create (h : W.OperationOk operation) (hnone : W.transport = none)
    (hstop : W.stopPromise = none) : W.create.OperationOk operation := by
  intro lease hlease
  obtain ⟨hok, hstage⟩ := h lease hlease
  have hlt : lease.generation < W.create.generation := Nat.lt_succ_of_le hok.2.1
  refine ⟨⟨hok.1, hlt.le, fun hgeneration ↦ absurd hgeneration hlt.ne⟩, ?_⟩
  rcases operation with ⟨kind, aborted, lease', stage⟩
  cases stage with
  | started =>
    refine ⟨hstage.1, fun hcall ↦ ?_⟩
    rcases hstage.2 hcall with hcurrent | hstopping
    · exact absurd hcurrent (not_isCurrent hnone lease)
    · rw [hstop] at hstopping
      exact absurd hstopping.2 Bool.false_ne_true
  | reading r => exact hstage
  | validated =>
    exact ⟨hstage.1, fun hcall ↦ absurd (hstage.2 hcall).1 (not_isCurrent hnone lease)⟩
  | answered output current => exact fun hcurrent ↦ (hstage hcurrent).trans (Nat.lt_succ_self _)
  | _ => trivial

/-- **A transport is made**, while there is none that lives. -/
theorem Inv.create (h : W.Inv) (hnone : W.transport = none) (hstop : W.stopPromise = none)
    (hunstopped : W.unstopped = []) : W.create.Inv where
  operations n := (h.operations n).create hnone hstop
  counted := h.counted
  transports := {
    live := by
      show W.made :: W.live = [W.made] ++ W.stopPromise.toList ++ W.unstopped
      rw [h.transports.live, held, hnone, hstop, hunstopped]
      rfl
    single := by
      show ([W.made] ++ W.stopPromise.toList ++ W.unstopped).length ≤ 1
      rw [hstop, hunstopped]
      exact le_rfl
    pending := fun t ht ↦ h.transports.pending t (Nat.le_of_succ_le ht)
    current := fun t ht ↦ by
      obtain rfl := Option.some.inj ht
      exact ⟨rfl, Nat.lt_succ_self _, fun hbegun ↦ lt_irrefl _ (h.transports.begun _ hbegun)⟩
    begun := fun t ht ↦ Nat.lt_succ_of_lt (h.transports.begun t ht)
    stopping := fun t ht ↦ absurd (ht.symm.trans hstop) (Option.some_ne_none t) }
  catalog := {
    validated := fun hvalidated ↦ by
      obtain ⟨t, ht, -⟩ := h.catalog.validated hvalidated
      exact absurd (ht.symm.trans hnone) (Option.some_ne_none t)
    promise := fun r hr ↦ by
      obtain ⟨reading, -, hcurrent⟩ := h.catalog.promise r hr
      exact absurd hcurrent (not_isCurrent hnone _)
    readings := h.catalog.readings }
  sent := h.sent
  results := h.results

/-- An operation under way takes a lease. -/
theorem Inv.lend (h : W.Inv) (hbefore : (W.operations n).stage.unfinished = true)
    (hlease : W.LeaseOk lease) : (W.lend n lease).Inv := by
  refine h.goOn hbefore rfl fun other hother ↦ ?_
  obtain rfl := Option.some.inj hother
  exact ⟨hlease, trivial⟩

theorem Inv.acquireTransport (h : W.Inv) (hbefore : (W.operations n).stage.unfinished = true)
    {makes : Bool}
    (horderly : W.transport = none → makes = true → W.stopPromise = none ∧ W.unstopped = []) :
    (W.acquireTransport n makes).Inv := by
  rw [Registration.acquireTransport]
  split
  · rename_i t ht
    exact h.lend hbefore ⟨(h.transports.current t ht).1, le_rfl, fun _ ↦ ht⟩
  · rename_i hnone
    split
    · rename_i hmakes
      obtain ⟨hstop, hunstopped⟩ := horderly hnone hmakes
      exact (h.create hnone hstop hunstopped).lend hbefore ⟨rfl, le_rfl, fun _ ↦ rfl⟩
    · exact h.goToFailing hbefore

theorem Inv.start (h : W.Inv) {kind : OperationKind ω} {now : ℕ} {aborted makes : Bool}
    (hbefore : (W.operations n).stage.unfinished = false)
    (horderly : W.denies kind now aborted = false → W.transport = none → W.stopPromise = none →
      makes = true → W.unstopped = []) : (W.start n kind now aborted makes).Inv := by
  rw [Registration.start]
  split
  · exact h.act n rfl (fun _ _ ↦ id) (fun lease hlease ↦ ⟨(h.operations n lease hlease).1, trivial⟩)
      (h.counted.settle hbefore rfl)
      ⟨h.transports.live, h.transports.single, h.transports.pending, h.transports.current,
        h.transports.begun, h.transports.stopping⟩
      ⟨h.catalog.validated, h.catalog.promise, h.catalog.readings⟩ h.sent h.results
  · rename_i hdenies
    have hbegun : Inv ({ W with
        idleTimer := none
        activeOperations := W.activeOperations + 1
        unfinished := n :: W.unfinished }.goOn n { kind := kind, stage := .waiting }) :=
      h.act n rfl (fun _ _ ↦ id) nofun (h.counted.begin hbefore rfl none)
        ⟨h.transports.live, h.transports.single, h.transports.pending, h.transports.current,
          h.transports.begun, h.transports.stopping⟩
        ⟨h.catalog.validated, h.catalog.promise, h.catalog.readings⟩ h.sent h.results
    dsimp only
    split
    · exact hbegun
    · rename_i hstop
      have hnone : W.stopPromise = none := Option.not_isSome_iff_eq_none.mp hstop
      refine hbegun.acquireTransport ?_ fun htransport hmakes ↦ ⟨hnone, ?_⟩
      · rw [goOn_self]
        rfl
      · exact horderly (Bool.eq_false_iff.mpr hdenies) htransport hnone hmakes

/-! ## The catalog -/

/-- What the stage of an operation says of its lease, wherever the operation is. -/
theorem stageOk_reading {r : ℕ} (hstarted : W.starts lease.transport = .fulfilled)
    (hcall : operation.kind.isCall = true → W.expectedTools.isSome = true ∧
      ∃ reading, W.readings r = some reading ∧ reading.lease.transport = lease.transport ∧
        reading.lease.generation = lease.generation) :
    W.StageOk { operation with stage := .reading r } lease := ⟨hstarted, hcall⟩

/-- A reading begins. -/
def begunReading (W : Registration ω σ) (lease : McpTransportLease) (promise : Option ℕ) :
    Registration ω σ :=
  { W with
    catalogPromise := promise
    readings := Function.update W.readings W.readingsMade (some ⟨lease, .pending⟩)
    readingsMade := W.readingsMade + 1 }

theorem Inv.begunReading (h : W.Inv) {promise : Option ℕ}
    (hpromise : promise = W.catalogPromise ∨
      promise = some W.readingsMade ∧ W.IsCurrent lease) : (W.begunReading lease promise).Inv := by
  -- Readings that were begun before are other ones.
  have hold : ∀ r reading, W.readings r = some reading →
      (W.begunReading lease promise).readings r = some reading := by
    intro r reading hr
    have hne : r ≠ W.readingsMade := by
      rintro rfl
      exact absurd (hr.symm.trans (h.catalog.readings _ le_rfl)) (Option.some_ne_none _)
    exact (Function.update_of_ne hne _ _).trans hr
  refine {
    operations := fun n other hother ↦ ?_
    counted := h.counted
    transports := ⟨h.transports.live, h.transports.single, h.transports.pending,
      h.transports.current, h.transports.begun, h.transports.stopping⟩
    catalog := ⟨h.catalog.validated, fun r hr ↦ ?_, fun r hr ↦ ?_⟩
    sent := h.sent
    results := h.results }
  · obtain ⟨hok, hstage⟩ := h.operations n other hother
    refine ⟨hok, ?_⟩
    show StageOk (W.begunReading lease promise) (W.operations n) other
    revert hstage
    generalize W.operations n = operation
    rcases operation with ⟨kind, aborted, lease', stage⟩
    intro hstage
    cases stage with
    | reading r =>
      refine ⟨hstage.1, fun hcall ↦ ⟨(hstage.2 hcall).1, ?_⟩⟩
      obtain ⟨reading, hr, hsame⟩ := (hstage.2 hcall).2
      exact ⟨reading, hold r reading hr, hsame⟩
    | started => exact hstage
    | validated => exact hstage
    | answered output current => exact hstage
    | _ => trivial
  · rcases hpromise with hpromise | ⟨hpromise, hcurrent⟩
    · obtain ⟨reading, hreading, hcurrent⟩ := h.catalog.promise r (hpromise.symm.trans hr)
      exact ⟨reading, hold r reading hreading, hcurrent⟩
    · obtain rfl : r = W.readingsMade := Option.some.inj ((hpromise.symm.trans hr).symm)
      exact ⟨_, Function.update_self _ _ _, hcurrent⟩
  · have hne : r ≠ W.readingsMade := (Nat.lt_of_succ_le hr).ne'
    exact (Function.update_of_ne hne _ _).trans (h.catalog.readings r (Nat.le_of_succ_le hr))

/-- The operation awaits the reading that it has begun. -/
theorem Inv.awaitReading (h : W.Inv) {promise : Option ℕ}
    (hpromise : promise = W.catalogPromise ∨
      promise = some W.readingsMade ∧ W.IsCurrent lease)
    (hbefore : (W.operations n).stage.unfinished = true)
    (hlease : (W.operations n).lease = some lease)
    (hstarted : W.starts lease.transport = .fulfilled)
    (hexpected : (W.operations n).kind.isCall = true → W.expectedTools.isSome = true) :
    ((W.begunReading lease promise).awaitAt n (.reading W.readingsMade)).Inv := by
  refine (h.begunReading hpromise).awaitAt hbefore _ rfl fun other hother ↦ ?_
  obtain rfl := Option.some.inj (hlease.symm.trans hother)
  exact stageOk_reading hstarted fun hcall ↦
    ⟨hexpected hcall, _, Function.update_self _ _ _, rfl, rfl⟩

theorem Inv.ensureExpectedCatalog (h : W.Inv) (hbefore : (W.operations n).stage.unfinished = true)
    (hlease : (W.operations n).lease = some lease)
    (hstarted : W.starts lease.transport = .fulfilled) (hexpected : W.expectedTools.isSome = true)
    (hvalidated : (W.operations n).kind.isCall = true → W.catalogValidated = false) :
    (W.ensureExpectedCatalog n lease).Inv := by
  rw [Registration.ensureExpectedCatalog]
  split
  · exact h.goToFailing hbefore
  · rename_i hnot
    have hcurrent : W.IsCurrent lease := not_not.mp hnot
    split
    · rename_i htrue
      refine h.goTo hbefore _ rfl fun other hother ↦ ?_
      obtain rfl := Option.some.inj (hlease.symm.trans hother)
      refine ⟨hstarted, fun hcall ↦ ?_⟩
      rw [hvalidated hcall] at htrue
      exact absurd htrue Bool.false_ne_true
    · split
      · exact h.awaitReading (Or.inr ⟨rfl, hcurrent⟩) hbefore hlease hstarted fun _ ↦ hexpected
      · rename_i r hpromise
        split
        · exact h.goToFailing hbefore
        · -- Both leases are current, so that they are on the same transport.
          refine h.awaitAt hbefore _ rfl fun other hother ↦ ?_
          obtain rfl := Option.some.inj (hlease.symm.trans hother)
          obtain ⟨reading, hreading, hcurrent'⟩ := h.catalog.promise r hpromise
          exact stageOk_reading hstarted fun _ ↦ ⟨hexpected, reading, hreading,
            Option.some.inj (hcurrent'.1.symm.trans hcurrent.1),
            hcurrent'.2.symm.trans hcurrent.2⟩

/-- **A call is sent** on a current lease. -/
theorem Inv.send (h : W.Inv) (hbefore : (W.operations n).stage.unfinished = true)
    (hstarted : W.starts lease.transport = .fulfilled) (hcurrent : W.IsCurrent lease)
    (hmatched : W.expectedTools.isNone = true ∨ lease.transport ∈ W.matched) :
    (W.send n lease).Inv := by
  have hsent : Inv { W with
      sent := ⟨lease.transport, W.starts lease.transport = PromiseState.fulfilled,
        lease.transport ∈ W.stopsBegun,
        W.expectedTools.isNone ∨ lease.transport ∈ W.matched⟩ :: W.sent } := by
    refine ⟨h.operations, h.counted, ⟨h.transports.live, h.transports.single, h.transports.pending,
      h.transports.current, h.transports.begun, h.transports.stopping⟩, ⟨h.catalog.validated,
      h.catalog.promise, h.catalog.readings⟩, fun call hcall ↦ ?_, h.results⟩
    rcases List.mem_cons.mp hcall with rfl | hcall
    · obtain ⟨-, -, hbegun⟩ := h.transports.current _ hcurrent.1
      exact ⟨decide_eq_true hstarted, decide_eq_false hbegun, decide_eq_true hmatched⟩
    · exact h.sent call hcall
  exact hsent.awaitAt hbefore _ rfl fun _ _ ↦ trivial

/-! ## An operation goes on -/

/-- Where a call may be sent at once, its lease is current. -/
theorem Inv.current_of_started (h : W.Inv) (hok : W.OperationOk operation)
    (hlease : operation.lease = some lease) (hstage : operation.stage = .started)
    (hcall : operation.kind.isCall = true)
    (hready : ¬(W.expectedTools.isSome = true ∧ W.catalogValidated = false)) :
    W.IsCurrent lease ∧ (W.expectedTools.isNone = true ∨ lease.transport ∈ W.matched) := by
  obtain ⟨-, hseen⟩ := hok lease hlease
  simp only [StageOk, hstage] at hseen
  rcases hexpected : W.expectedTools with _ | expected
  · rcases hseen.2 hcall with hcurrent | ⟨hsome, -⟩
    · exact ⟨hcurrent, Or.inl rfl⟩
    · rw [hexpected] at hsome
      exact absurd hsome Bool.false_ne_true
  · have hvalidated : W.catalogValidated = true := by
      rcases hv : W.catalogValidated
      · exact absurd ⟨by rw [hexpected]; rfl, hv⟩ hready
      · rfl
    obtain ⟨t, ht, hmatched⟩ := h.catalog.validated hvalidated
    rcases hseen.2 hcall with hcurrent | ⟨-, hstopping⟩
    · obtain rfl := Option.some.inj (hcurrent.1.symm.trans ht)
      exact ⟨hcurrent, Or.inr hmatched⟩
    · rw [(h.transports.alone ht).1] at hstopping
      exact absurd hstopping Bool.false_ne_true

theorem Inv.succeed (h : W.Inv) (hbefore : (W.operations n).stage.unfinished = true) :
    (W.succeed limits n).Inv :=
  (h.aside W.idleTimer 0 0).endOperation hbefore

theorem Inv.proceed (h : W.Inv) (hlease : (W.operations n).lease = some lease) :
    (W.proceed limits n lease).Inv := by
  have hok := h.operations n
  rw [Registration.proceed]
  split
  · rename_i hstage
    have hbefore : (W.operations n).stage.unfinished = true := by rw [hstage]; rfl
    have hpromise := (hok lease hlease).1.1
    rw [hpromise]
    dsimp only
    split
    · exact h.goToFailing hbefore
    · split
      · exact h
      · exact h.goToFailing hbefore
      · rename_i hstarted
        split
        · rename_i hcurrent
          refine h.goTo hbefore _ rfl fun other hother ↦ ?_
          obtain rfl := Option.some.inj (hlease.symm.trans hother)
          exact ⟨hstarted, fun _ ↦ Or.inl hcurrent⟩
        · exact h.goToFailing hbefore
  · rename_i hstage
    have hbefore : (W.operations n).stage.unfinished = true := by rw [hstage]; rfl
    have hstarted : W.starts lease.transport = .fulfilled := by
      have hseen := (hok lease hlease).2
      simp only [StageOk, hstage] at hseen
      exact hseen.1
    split
    · rename_i hkind
      have hcall : (W.operations n).kind.isCall = true := by rw [hkind]; rfl
      split
      · rename_i hexpected
        exact h.ensureExpectedCatalog hbefore hlease hstarted hexpected.1 fun _ ↦ hexpected.2
      · rename_i hready
        obtain ⟨hcurrent, hmatched⟩ := h.current_of_started hok hlease hstage hcall hready
        exact h.send hbefore hstarted hcurrent hmatched
    · rename_i hkind
      have hlist : (W.operations n).kind.isCall = false := by rw [hkind]; rfl
      split
      · rename_i hexpected
        refine h.ensureExpectedCatalog hbefore hlease hstarted hexpected fun hcall ↦ ?_
        exact absurd (hcall.symm.trans hlist) (Bool.false_ne_true ·.symm)
      · refine h.awaitReading (Or.inl rfl) hbefore hlease hstarted fun hcall ↦ ?_
        exact absurd (hcall.symm.trans hlist) (Bool.false_ne_true ·.symm)
  · rename_i hstage
    have hbefore : (W.operations n).stage.unfinished = true := by rw [hstage]; rfl
    have hseen := (hok lease hlease).2
    simp only [StageOk, hstage] at hseen
    split
    · rename_i hkind
      obtain ⟨hcurrent, hmatched⟩ := hseen.2 (by rw [hkind]; rfl)
      exact h.send hbefore hseen.1 hcurrent (Or.inr hmatched)
    · split
      · exact h.succeed hbefore
      · exact h.goToFailing hbefore
  · rename_i output current hstage
    have hbefore : (W.operations n).stage.unfinished = true := by rw [hstage]; rfl
    have hseen := (hok lease hlease).2
    simp only [StageOk, hstage] at hseen
    split
    · rename_i hreturned
      have hnoted : Inv { W with results := current :: W.results } := by
        refine ⟨h.operations, h.counted, ⟨h.transports.live, h.transports.single,
          h.transports.pending, h.transports.current, h.transports.begun, h.transports.stopping⟩,
          ⟨h.catalog.validated, h.catalog.promise, h.catalog.readings⟩, h.sent, fun c hc ↦ ?_⟩
        rcases List.mem_cons.mp hc with rfl | hc
        · -- A lease that was not current then is not current now.
          rcases c
          · exact absurd hreturned.1.2 (hseen rfl).ne'
          · rfl
        · exact h.results c hc
      exact hnoted.succeed hbefore
    · exact h.goToFailing hbefore
  · exact h

/-- Where one operation only is under way, and it has failed, no call is about to be sent. -/
theorem Inv.quiet_of_alone (h : W.Inv) (hstage : (W.operations n).stage = .failing)
    (halone : W.activeOperations = 1) : W.Quiet := by
  have hmem : n ∈ W.unfinished := (h.counted.2.2 n).mpr (by rw [hstage]; rfl)
  obtain ⟨other, hother⟩ := List.length_eq_one_iff.mp (h.counted.1.symm.trans halone)
  intro m hm hwindow
  rw [hother, List.mem_singleton] at hm hmem
  rw [hm, ← hmem] at hwindow
  obtain ⟨-, -, hstage'⟩ := hwindow
  rw [hstage] at hstage'
  exact hstage'

/-- A stop begins, and the operation awaits it. -/
theorem Inv.stopAndAwait (h : W.Inv) (hbefore : (W.operations n).stage.unfinished = true)
    (hquiet : W.Quiet) : (W.stopRegistration.goTo n .stopping).Inv := by
  refine (h.stopRegistration hquiet).goTo ?_ _ rfl fun _ _ ↦ trivial
  rw [stopRegistration_operations]
  exact hbefore

theorem Inv.caught (h : W.Inv) (now : ℕ) (hstage : (W.operations n).stage = .failing)
    (horderly : (W.operations n).aborted = false →
      (∃ lease ∈ (W.operations n).lease, W.IsCurrent lease) → W.Quiet) :
    (W.caught limits n now).Inv := by
  have hbefore : (W.operations n).stage.unfinished = true := by rw [hstage]; rfl
  simp only [Registration.caught]
  split
  · split
    · rename_i hstop
      exact h.stopAndAwait hbefore (h.quiet_of_alone hstage hstop.2)
    · exact h.endOperation hbefore
  · rename_i haborted
    have hfailed := h.aside W.idleTimer (W.failures + 1)
      (now + min (2 ^ W.failures * 250) limits.maxBackoffMs)
    split
    · rename_i hcurrent
      obtain ⟨hsome, hcurrent⟩ := (Option.any_eq_true_iff_get _ _).mp hcurrent
      exact hfailed.stopAndAwait hbefore (horderly (Bool.eq_false_iff.mpr haborted)
        ⟨_, Option.get_mem hsome, of_decide_eq_true hcurrent⟩)
    · split
      · exact hfailed.endOperation hbefore
      · exact h.endOperation hbefore

/-- **An operation runs to its next `await`.** -/
theorem Inv.resume (h : W.Inv) {now : ℕ} {makes : Bool}
    (horderly : W.Orderly (.resume n now makes)) : (W.resume limits n now makes).Inv := by
  rw [Registration.resume]
  split
  · rename_i hstage
    simp only [Orderly, hstage] at horderly
    exact h.acquireTransport (by rw [hstage]; rfl) horderly
  · rename_i hstage
    simp only [Orderly, hstage] at horderly
    exact h.caught now hstage horderly
  · rename_i hstage
    exact h.endOperation (by rw [hstage]; rfl)
  · split
    · exact h
    · rename_i lease hlease
      exact h.proceed hlease

/-! ## Other steps -/

/-- The signal is noted on an operation. -/
theorem Inv.abort (h : W.Inv) (n : ℕ) : (W.abort n).Inv := by
  have hok := h.operations n
  simp only [Registration.abort]
  have hfail : (W.operations n).stage.unfinished = true →
      Inv (W.goOn n { W.operations n with aborted := true, stage := .failing }) := fun hbefore ↦
    h.goOn hbefore rfl fun lease hlease ↦ ⟨(hok lease hlease).1, trivial⟩
  split
  · rename_i hstage
    exact hfail (by rw [show _ = _ from hstage]; rfl)
  · rename_i hstage
    exact hfail (by rw [show _ = _ from hstage]; rfl)
  · rename_i hstage
    exact hfail (by rw [show _ = _ from hstage]; rfl)
  · rename_i hstage
    exact hfail (by rw [show _ = _ from hstage]; rfl)
  · refine h.act n rfl (fun _ _ ↦ id) (fun lease hlease ↦ hok lease hlease) ?_
      ⟨h.transports.live, h.transports.single, h.transports.pending, h.transports.current,
        h.transports.begun, h.transports.stopping⟩
      ⟨h.catalog.validated, h.catalog.promise, h.catalog.readings⟩ h.sent h.results
    rcases hstage : (W.operations n).stage.unfinished with _ | _
    · exact h.counted.settle hstage hstage
    · exact h.counted.goOn hstage hstage

/-- The start of a transport is over. -/
theorem Inv.startSettles (h : W.Inv) (t : ℕ) (started : Bool) : (W.startSettles t started).Inv := by
  rw [Registration.startSettles]
  split
  · rename_i hpending
    have hold : ∀ s, W.starts s = .fulfilled →
        Function.update W.starts t (if started then PromiseState.fulfilled else .rejected) s =
          .fulfilled := by
      intro s hs
      have hne : s ≠ t := by
        rintro rfl
        exact absurd (hs.symm.trans hpending.2) nofun
      rw [Function.update_of_ne hne]
      exact hs
    refine ⟨fun n lease hlease ↦ ?_, h.counted, ⟨h.transports.live, h.transports.single,
      fun s hs ↦ ?_, h.transports.current, h.transports.begun, h.transports.stopping⟩,
      ⟨h.catalog.validated, h.catalog.promise, h.catalog.readings⟩, h.sent, h.results⟩
    · obtain ⟨hok, hstage⟩ := h.operations n lease hlease
      refine ⟨hok, ?_⟩
      show StageOk _ (W.operations n) lease
      revert hstage
      generalize W.operations n = operation
      rcases operation with ⟨kind, aborted, lease', stage⟩
      intro hstage
      cases stage with
      | started => exact ⟨hold _ hstage.1, hstage.2⟩
      | reading r => exact ⟨hold _ hstage.1, hstage.2⟩
      | validated => exact ⟨hold _ hstage.1, hstage.2⟩
      | answered output current => exact hstage
      | _ => trivial
    · exact (Function.update_of_ne (hpending.1.trans_le hs).ne' _ _).trans
        (h.transports.pending s hs)
  · exact h

/-- What becomes of an operation when a reading is over. -/
def afterReading (reading : ℕ) (read : Bool) (operation : Operation ω) : Operation ω :=
  match operation.stage with
  | .reading r =>
    if r = reading then { operation with stage := if read then .validated else .failing }
    else operation
  | _ => operation

theorem unfinished_afterReading (r : ℕ) (read : Bool) (operation : Operation ω) :
    (afterReading r read operation).stage.unfinished = operation.stage.unfinished := by
  rcases operation with ⟨kind, aborted, lease, stage⟩
  cases stage with
  | reading s =>
    simp only [afterReading]
    split
    · cases read <;> rfl
    · rfl
  | _ => rfl

theorem lease_afterReading (r : ℕ) (read : Bool) (operation : Operation ω) :
    (afterReading r read operation).lease = operation.lease := by
  rcases operation with ⟨kind, aborted, lease, stage⟩
  cases stage with
  | reading s =>
    simp only [afterReading]
    split <;> rfl
  | _ => rfl

/-- **A reading is over.** Where it was read, a catalog is configured only if it has matched. -/
theorem Inv.settleReading (h : W.Inv) {r : ℕ} {read : Bool} {state : PromiseState}
    (hreading : W.readings r = some ⟨lease, state⟩)
    (hread : read = true → W.IsCurrent lease ∧
      (W.expectedTools.isSome = true → lease.transport ∈ W.matched)) :
    (W.settleReading r lease read).Inv := by
  have hlt : ¬W.readingsMade ≤ r := fun hle ↦
    absurd (hreading.symm.trans (h.catalog.readings r hle)) (Option.some_ne_none _)
  -- The lease of a reading does not change.
  have hold : ∀ s reading, W.readings s = some reading → ∃ reading',
      (W.settleReading r lease read).readings s = some reading' ∧
        reading'.lease = reading.lease := by
    intro s reading hs
    by_cases hsr : s = r
    · subst hsr
      obtain rfl := Option.some.inj (hreading.symm.trans hs)
      exact ⟨_, Function.update_self _ _ _, rfl⟩
    · exact ⟨reading, (Function.update_of_ne hsr _ _).trans hs, rfl⟩
  refine {
    operations := fun n other hother ↦ ?_
    counted := h.counted.move (afterReading r read) (unfinished_afterReading r read)
    transports := ⟨h.transports.live, h.transports.single, h.transports.pending,
      h.transports.current, h.transports.begun, h.transports.stopping⟩
    catalog := ⟨h.catalog.validated, fun s hs ↦ ?_, fun s hs ↦ ?_⟩
    sent := h.sent
    results := h.results }
  · have hother' : other ∈ (W.operations n).lease := by
      rw [← lease_afterReading r read]
      exact hother
    obtain ⟨hok, hstage⟩ := h.operations n other hother'
    refine ⟨hok, ?_⟩
    show StageOk _ (afterReading r read (W.operations n)) other
    revert hstage
    generalize W.operations n = operation
    rcases operation with ⟨kind, aborted, lease', stage⟩
    intro hstage
    cases stage with
    | reading s =>
      simp only [afterReading]
      by_cases hsr : s = r
      · rw [if_pos hsr]
        cases read with
        | false => trivial
        | true =>
          refine ⟨hstage.1, fun hcall ↦ ?_⟩
          obtain ⟨hexpected, reading, hs, htransport, hgeneration⟩ := hstage.2 hcall
          obtain ⟨hcurrent, hmatched⟩ := hread rfl
          subst hsr
          obtain rfl := Option.some.inj (hreading.symm.trans hs)
          refine ⟨⟨hcurrent.1.trans (congrArg some htransport),
            hcurrent.2.trans hgeneration⟩, ?_⟩
          rw [← htransport]
          exact hmatched hexpected
      · rw [if_neg hsr]
        refine ⟨hstage.1, fun hcall ↦ ⟨(hstage.2 hcall).1, ?_⟩⟩
        obtain ⟨reading, hs, hsame⟩ := (hstage.2 hcall).2
        obtain ⟨reading', hs', hlease⟩ := hold s reading hs
        exact ⟨reading', hs', by rw [hlease]; exact hsame⟩
    | started => exact hstage
    | validated => exact hstage
    | answered output current => exact hstage
    | _ => trivial
  · obtain ⟨reading, hs', hcurrent⟩ := h.catalog.promise s hs
    obtain ⟨reading', hs'', hlease⟩ := hold s reading hs'
    exact ⟨reading', hs'', by rw [hlease]; exact hcurrent⟩
  · have hne : s ≠ r := by
      rintro rfl
      exact hlt hs
    exact (Function.update_of_ne hne _ _).trans (h.catalog.readings s hs)

/-- The catalog of the current transport has matched. -/
theorem Inv.validate (h : W.Inv) (hcurrent : W.IsCurrent lease) :
    Inv { W with catalogValidated := true, matched := lease.transport :: W.matched } := by
  refine ⟨fun n other hother ↦ ?_, h.counted, ⟨h.transports.live, h.transports.single,
    h.transports.pending, h.transports.current, h.transports.begun, h.transports.stopping⟩,
    ⟨fun _ ↦ ⟨lease.transport, hcurrent.1, List.mem_cons_self⟩, h.catalog.promise,
      h.catalog.readings⟩, h.sent, h.results⟩
  obtain ⟨hok, hstage⟩ := h.operations n other hother
  refine ⟨hok, ?_⟩
  show StageOk _ (W.operations n) other
  revert hstage
  generalize W.operations n = operation
  rcases operation with ⟨kind, aborted, lease', stage⟩
  intro hstage
  cases stage with
  | validated =>
    exact ⟨hstage.1, fun hcall ↦ ⟨(hstage.2 hcall).1, List.mem_cons_of_mem _ (hstage.2 hcall).2⟩⟩
  | started => exact hstage
  | reading r => exact hstage
  | answered output current => exact hstage
  | _ => trivial

theorem Inv.catalogSettles (h : W.Inv) (r : ℕ) (tools : Option ω) :
    (W.catalogSettles r tools).Inv := by
  rw [Registration.catalogSettles]
  split
  · rename_i lease hreading
    split
    · exact h.settleReading hreading nofun
    · split
      · exact h.settleReading hreading nofun
      · rename_i hnot
        have hcurrent : W.IsCurrent lease := not_not.mp hnot
        split
        · rename_i hexpected
          refine h.settleReading hreading fun _ ↦ ⟨hcurrent, fun hsome ↦ ?_⟩
          rw [hexpected] at hsome
          exact absurd hsome Bool.false_ne_true
        · split
          · exact (h.validate hcurrent).settleReading hreading fun _ ↦
              ⟨hcurrent, fun _ ↦ List.mem_cons_self⟩
          · exact h.settleReading hreading nofun
  · exact h

theorem Inv.callSettles (h : W.Inv) (n : ℕ) (output : Option ω) :
    (W.callSettles n output).Inv := by
  rw [Registration.callSettles.eq_def]
  split
  · rename_i hstage
    have hbefore : (W.operations n).stage.unfinished = true := by rw [hstage]; rfl
    split
    · exact h.goToFailing hbefore
    · refine h.goTo hbefore _ rfl fun lease hlease hfalse ↦ ?_
      refine (h.operations n lease hlease).1.lt_of_not_isCurrent fun hcurrent ↦ ?_
      have htrue : ((W.operations n).lease.any fun lease ↦ decide (W.IsCurrent lease)) = true := by
        rw [show (W.operations n).lease = some lease from hlease]
        exact decide_eq_true hcurrent
      exact absurd (hfalse.symm.trans htrue) Bool.false_ne_true
  · exact h

/-- Where no operation is under way, no call is about to be sent. -/
theorem Inv.quiet_of_idle (h : W.Inv) (hidle : W.activeOperations = 0) : W.Quiet := by
  have hnil : W.unfinished = [] := List.length_eq_zero_iff.mp (h.counted.1.symm.trans hidle)
  intro n hn
  rw [hnil] at hn
  exact absurd hn List.not_mem_nil

theorem Inv.timerFires (h : W.Inv) : W.timerFires.Inv := by
  rw [Registration.timerFires]
  split
  · exact h
  · have hfired := h.aside none W.failures W.retryAt
    dsimp only
    split
    · exact hfired
    · rename_i hstop
      exact hfired.stopRegistration (hfired.quiet_of_idle (not_not.mp (not_or.mp hstop).1))

/-- **One step on a server.** -/
theorem Inv.step (h : W.Inv) (action : RegistrationAction ω) (horderly : W.Orderly action) :
    (W.step limits action).Inv := by
  cases action with
  | start n kind now aborted makes =>
    simp only [Registration.step]
    split
    · rename_i hstage
      simp only [Orderly, hstage] at horderly
      exact h.start (by rw [hstage]; rfl) horderly
    · exact h
  | resume n now makes => exact h.resume horderly
  | abort n => exact h.abort n
  | startSettles t started => exact h.startSettles t started
  | catalogSettles r tools => exact h.catalogSettles r tools
  | callSettles n output => exact h.callSettles n output
  | stop => exact h.stopRegistration horderly
  | stopSettles stopped => exact h.stopSettles stopped
  | timerFires => exact h.timerFires

theorem inv_register (policy : McpPolicy ω σ)
    (expectedTools : Option (List (McpToolDescriptor σ))) :
    Inv { policy := policy, expectedTools := expectedTools } where
  operations _ := nofun
  counted := ⟨rfl, List.nodup_nil, fun _ ↦ iff_of_false List.not_mem_nil Bool.false_ne_true⟩
  transports := ⟨rfl, Nat.zero_le 1, fun _ _ ↦ rfl, nofun, nofun, nofun⟩
  catalog := ⟨nofun, nofun, fun _ _ ↦ rfl⟩
  sent := nofun
  results := nofun

/-- **The invariant says what the supervisor is for.** -/
theorem Inv.supervises (h : W.Inv) : W.Supervises where
  single := by
    rw [h.transports.live]
    exact h.transports.single
  sent := h.sent
  results := h.results
  counted := h.counted
  idle hstopped := by
    rw [Registration.timerFires] at hstopped
    split at hstopped
    · exact absurd rfl hstopped
    · dsimp only at hstopped
      split at hstopped
      · exact absurd rfl hstopped
      · rename_i hstop
        exact List.length_eq_zero_iff.mp
          (h.counted.1.symm.trans (not_not.mp (not_or.mp hstop).1))

end Registration


/-! ## All servers -/

namespace McpSupervisor

open Foundation

variable {ω σ : Type} {limits : McpLimits} {W : McpSupervisor ω σ}

/-- What is true of every server between two steps. -/
def Inv (W : McpSupervisor ω σ) : Prop := ∀ entry ∈ W, entry.2.Inv

/-- **One step of the supervisor.** The servers do not concern each other. -/
theorem Inv.step (h : W.Inv) (action : McpAction ω σ) (horderly : W.Orderly action) :
    Inv (McpSupervisor.step limits W action) := by
  intro entry hentry
  cases action with
  | register serverId policy expectedTools =>
    simp only [McpSupervisor.step] at hentry
    split at hentry
    · exact h entry hentry
    · rcases List.mem_append.mp hentry with hentry | hentry
      · exact h entry hentry
      · obtain rfl := List.mem_singleton.mp hentry
        exact Registration.inv_register policy expectedTools
  | on serverId action =>
    obtain ⟨before, hbefore, rfl⟩ := List.mem_map.mp hentry
    by_cases hserver : before.1 = serverId
    · rw [if_pos hserver]
      exact (h before hbefore).step action (horderly before hbefore hserver)
    · rw [if_neg hserver]
      exact h before hbefore
  | stopAll =>
    obtain ⟨before, hbefore, rfl⟩ := List.mem_map.mp hentry
    exact (h before hbefore).stopRegistration (horderly before hbefore)

/-- **In every run whose steps meet the condition** the supervisor does what it is for, on every
server. -/
theorem transports_supervised (limits : McpLimits) (actions : List (McpAction ω σ))
    (horderly : Throughout (step limits) Orderly ([] : McpSupervisor ω σ) actions) :
    ∀ entry ∈ run limits [] actions, entry.2.Supervises := by
  have hinv : Inv (run limits ([] : McpSupervisor ω σ) actions) :=
    Throughout.induction (p := Inv) (fun _ action hinv ha ↦ Inv.step hinv action ha)
      (fun _ hentry ↦ absurd hentry List.not_mem_nil) horderly
  exact fun entry hentry ↦ (hinv entry hentry).supervises

/-- A policy that lets everything pass. -/
def anything : McpPolicy Unit Unit where
  assertCall _ _ := true
  assertOutput _ := true
  filterTools _ := some []
  sameSchema _ _ := true

/-- A tool is called on a server, and its answer is returned. -/
def oneCall (serverId : JsString) : List (McpAction Unit Unit) :=
  [.register serverId anything none, .on serverId (.start 0 (.call [] ()) 0 false true),
    .on serverId (.startSettles 0 true), .on serverId (.resume 0 0 true),
    .on serverId (.resume 0 0 true), .on serverId (.callSettles 0 (some ())),
    .on serverId (.resume 0 0 true), .stopAll]

/-- One call, and a stop that succeeds. -/
theorem supervises_oneCall :
    Throughout (step {}) Orderly ([] : McpSupervisor Unit Unit)
      (oneCall [] ++ [.on [] (.stopSettles true)]) ∧
    ∀ entry ∈ run {} [] (oneCall [] ++ [.on [] (.stopSettles true)]), entry.2.Supervises :=
  have horderly : Throughout (step {}) Orderly ([] : McpSupervisor Unit Unit)
      (oneCall [] ++ [.on [] (.stopSettles true)]) := by decide +kernel
  ⟨horderly, transports_supervised {} _ horderly⟩

/-- The transport cannot be stopped, and the next call starts another one beside it. -/
theorem two_transports_live :
    ¬∀ (limits : McpLimits) (actions : List (McpAction Unit Unit)),
      ∀ entry ∈ run limits [] actions, entry.2.Supervises := by
  intro h
  have hsingle : ∀ entry ∈ run {} [] (oneCall [] ++ [.on [] (.stopSettles false),
      .on [] (.start 1 (.call [] ()) 0 false true)]), entry.2.live.length ≤ 1 :=
    fun entry hentry ↦ (h {} _ entry hentry).single
  exact absurd hsingle (by decide +kernel)

end McpSupervisor

end LiteHarness.Mcp
