import LiteHarness.Foundation.Suspension
import LiteHarness.Integrations.Router

/-!
# Deliveries and their runs

A receipt is inserted once, so that there is one call for a delivery and one run at most. From the
claim on, everything depends on that call: no later one takes it up again. As long as none of its
statements fails, the run is written into the receipt as soon as there is one (`Inv.linked`).
-/

namespace LiteHarness.Integrations

open Foundation

variable {H : RouterHost}

/-! ## Keys and sessions -/

/-- Two texts of an account and a delivery id are the same in three ways. -/
theorem overlaps_of_append_eq {a d a' d' : JsString} (h : a ++ 58 :: d = a' ++ 58 :: d') :
    (a = a' ∧ d = d') ∨ (∃ part, a' = a ++ 58 :: part ∧ d = part ++ 58 :: d') ∨
      ∃ part, a = a' ++ 58 :: part ∧ d' = part ++ 58 :: d := by
  rcases List.append_eq_append_iff.mp h with ⟨rest, ha, hd⟩ | ⟨rest, ha, hd⟩
  · rcases rest with _ | ⟨u, part⟩
    · exact Or.inl ⟨by rw [ha, List.append_nil], (List.cons.inj hd).2⟩
    · obtain ⟨rfl, hrest⟩ := List.cons.inj hd
      exact Or.inr (Or.inl ⟨part, ha, hrest⟩)
  · rcases rest with _ | ⟨u, part⟩
    · exact Or.inl ⟨by rw [ha, List.append_nil], (List.cons.inj hd).2.symm⟩
    · obtain ⟨rfl, hrest⟩ := List.cons.inj hd
      exact Or.inr (Or.inr ⟨part, ha, hrest⟩)

/-- **Deliveries share a key** only where they are confused. -/
theorem InboundEnvelope.key_eq_of_idempotencyKey_eq {e e' : InboundEnvelope}
    (h : e.idempotencyKey = e'.idempotencyKey) (hne : ¬e.Confused e') : e.key = e'.key := by
  by_contra hkey
  refine hne ⟨hkey, ?_⟩
  exact overlaps_of_append_eq (List.append_cancel_left h)

/-- **Requests share a session** only where they are mingled. -/
theorem StartRunRequest.place_eq_of_sharesSession {r r' : StartRunRequest}
    (hr : r = startRunRequest H r.binding r.envelope)
    (hr' : r' = startRunRequest H r'.binding r'.envelope) (h : r.SharesSession r')
    (hne : ¬StartRunRequest.Mingled H r r') : r.envelope.place = r'.envelope.place := by
  by_contra hplace
  obtain ⟨howner, hsession⟩ := h
  rw [hr, hr'] at hsession
  -- The digits of the digest start behind the last underscore.
  have hreversed := congrArg List.reverse hsession
  simp only [startRunRequest, List.reverse_append, List.reverse_cons, List.append_assoc] at hreversed
  obtain ⟨hdigest, hrest⟩ := append_eq_append_of_free (D := (· = 95))
    (fun u hu ↦ H.shortDigest_unit _ u (List.mem_reverse.mp hu))
    (fun u hu ↦ H.shortDigest_unit _ u (List.mem_reverse.mp hu)) (startsIn_cons.mpr rfl)
    (startsIn_cons.mpr rfl) hreversed
  refine hne ⟨hplace, howner, List.reverse_injective (List.cons.inj hrest).2,
    List.reverse_injective hdigest⟩

theorem InboundEnvelope.Confused.symm {e e' : InboundEnvelope} (h : e.Confused e') :
    e'.Confused e :=
  ⟨h.1.symm, h.2.imp (And.imp Eq.symm Eq.symm) Or.symm⟩

theorem StartRunRequest.Mingled.symm {r r' : StartRunRequest} (h : StartRunRequest.Mingled H r r') :
    StartRunRequest.Mingled H r' r :=
  ⟨h.1.symm, h.2.1.symm, h.2.2.1.symm, h.2.2.2.symm⟩

namespace Inbound

variable {W W' : Inbound}

/-! ## The invariant -/

/-- No run was started for the delivery. -/
def Fresh (W : Inbound) (key : DeliveryKey) : Prop := ∀ s ∈ W.started, s.1 ≠ key

/-- What is known of a call at its stage. -/
def StageOk (H : RouterHost) (W : Inbound) (c : RouteCall) : Prop :=
  match c.stage with
  | .starting request =>
    request = startRunRequest H request.binding c.envelope ∧ W.Fresh c.envelope.key
  | .marking runId => ∀ s ∈ W.started, s.1 = c.envelope.key → s.2 = runId
  | _ => W.Fresh c.envelope.key

/-- The run is in the receipt, or its call is about to write it. -/
def Linked (W : Inbound) (s : DeliveryKey × JsString) : Prop :=
  (∃ row ∈ W.receipts.row? s.1, row.runId = some s.2) ∨
    ∃ c ∈ W.calls, c.envelope.key = s.1 ∧ c.stage = .marking s.2

/-- **The invariant.** -/
structure Inv (H : RouterHost) (W : Inbound) : Prop where
  begun : ∀ c ∈ W.calls, c.id < W.begun
  distinct : ∀ c ∈ W.calls, ∀ c' ∈ W.calls,
    c.id = c'.id ∨ c.envelope.key = c'.envelope.key → c = c'
  claimed : ∀ c ∈ W.calls, (W.receipts.row? c.envelope.key).isSome
  stages : ∀ c ∈ W.calls, StageOk H W c
  known : ∀ s ∈ W.started, (W.receipts.row? s.1).isSome
  once : (W.started.map Prod.fst).Nodup
  linked : ∀ s ∈ W.started, W.Linked s
  paid : W.owed = []
  answered : ∀ a ∈ W.answers, ∀ runId ∈ a.existing, a.runId = some runId
  requested : ∀ r ∈ W.requests, r = startRunRequest H r.binding r.envelope
  apart : ∀ r ∈ W.requests, ∀ r' ∈ W.requests,
    r = r' ∨ ¬r.envelope.Confused r'.envelope ∧ ¬StartRunRequest.Mingled H r r'

theorem inv_init : Inv H {} where
  begun _ h := absurd h List.not_mem_nil
  distinct _ h := absurd h List.not_mem_nil
  claimed _ h := absurd h List.not_mem_nil
  stages _ h := absurd h List.not_mem_nil
  known _ h := absurd h List.not_mem_nil
  once := List.nodup_nil
  linked _ h := absurd h List.not_mem_nil
  paid := rfl
  answered _ h := absurd h List.not_mem_nil
  requested _ h := absurd h List.not_mem_nil
  apart _ h := absurd h List.not_mem_nil

/-! ## Calls -/

theorem mem_goOn {c c' : RouteCall} (h : c' ∈ (W.goOn c).calls) :
    c' = c ∨ (c' ∈ W.calls ∧ c'.id ≠ c.id) := by
  obtain ⟨c'', hc'', heq⟩ := Table.mem_update.mp h
  split_ifs at heq with hid
  · exact Or.inl heq.symm
  · exact Or.inr ⟨heq ▸ hc'', heq ▸ fun h ↦ hid (decide_eq_true h)⟩

theorem mem_goOn_of_ne {c c' : RouteCall} (h : c' ∈ W.calls) (hne : c'.id ≠ c.id) :
    c' ∈ (W.goOn c).calls :=
  Table.mem_update.mpr ⟨c', h, if_neg (by simpa using hne)⟩

theorem mem_goOn_self {c c' : RouteCall} (h : c' ∈ W.calls) (hid : c'.id = c.id) :
    c ∈ (W.goOn c).calls :=
  Table.mem_update.mpr ⟨c', h, if_pos (decide_eq_true hid)⟩

theorem mem_finish {c c' : RouteCall} : c' ∈ (W.finish c).calls ↔ c' ∈ W.calls ∧ c'.id ≠ c.id := by
  rw [finish, List.mem_filter, decide_eq_true_iff]

/-- **A call goes on**, with a stage of which enough is known, and possibly with its run. -/
theorem Inv.goOn (h : Inv H W) {c : RouteCall} (hc : c ∈ W.calls) (stage : RouteStage)
    (runs : Store) {started : List (DeliveryKey × JsString)}
    (hstarted : ∀ s ∈ started, s ∈ W.started ∨ s.1 = c.envelope.key ∧ stage = .marking s.2)
    (hnew : ∀ s ∈ W.started, s.1 = c.envelope.key → stage = .marking s.2)
    (honce : (started.map Prod.fst).Nodup)
    (hstage : StageOk H { W with started := started } { c with stage := stage }) :
    Inv H ({ W with runs := runs, started := started }.goOn { c with stage := stage }) where
  begun c' hc' := by
    rcases mem_goOn hc' with rfl | ⟨hmem, -⟩
    · exact h.begun c hc
    · exact h.begun c' hmem
  distinct c' hc' c'' hc'' heq := by
    rcases mem_goOn hc' with rfl | ⟨hmem, hne⟩ <;> rcases mem_goOn hc'' with rfl | ⟨hmem', hne'⟩
    · rfl
    · exact absurd (congrArg RouteCall.id (h.distinct c hc c'' hmem' heq)) hne'.symm
    · exact absurd (congrArg RouteCall.id (h.distinct c' hmem c hc heq)) hne
    · exact h.distinct c' hmem c'' hmem' heq
  claimed c' hc' := by
    rcases mem_goOn hc' with rfl | ⟨hmem, -⟩
    · exact h.claimed c hc
    · exact h.claimed c' hmem
  stages c' hc' := by
    rcases mem_goOn hc' with rfl | ⟨hmem, hne⟩
    · exact hstage
    · -- What is started is of the other call's delivery.
      have hother : ∀ s ∈ started, s.1 = c'.envelope.key → s ∈ W.started := by
        intro s hs hkey
        refine (hstarted s hs).resolve_right fun hself ↦ hne ?_
        show c'.id = c.id
        rw [h.distinct c' hmem c hc (Or.inr (hkey.symm.trans hself.1))]
      have hok := h.stages c' hmem
      rw [StageOk] at hok ⊢
      split at hok
      · exact ⟨hok.1, fun s hs hkey ↦ hok.2 s (hother s hs hkey) hkey⟩
      · exact fun s hs hkey ↦ hok s (hother s hs hkey) hkey
      · exact fun s hs hkey ↦ hok s (hother s hs hkey) hkey
  known s hs := by
    rcases hstarted s hs with hs | ⟨hself, -⟩
    · exact h.known s hs
    · exact hself ▸ h.claimed c hc
  once := honce
  linked s hs := by
    rcases hstarted s hs with hmem | ⟨hself, hmarking⟩
    · rcases h.linked s hmem with hrow | ⟨c', hc', hkey, hmarking⟩
      · exact Or.inl hrow
      · by_cases hid : c'.id = c.id
        · obtain rfl := h.distinct c' hc' c hc (Or.inl hid)
          exact Or.inr ⟨_, mem_goOn_self hc' rfl, hkey, hnew s hmem hkey.symm⟩
        · exact Or.inr ⟨c', mem_goOn_of_ne hc' hid, hkey, hmarking⟩
    · exact Or.inr ⟨_, mem_goOn_self hc rfl, hself.symm, hmarking⟩
  paid := h.paid
  answered := h.answered
  requested := h.requested
  apart := h.apart

/-- A call goes on without a run. -/
theorem Inv.restage (h : Inv H W) {c : RouteCall} (hc : c ∈ W.calls) (hfresh : W.Fresh c.envelope.key)
    (stage : RouteStage) (hstage : StageOk H W { c with stage := stage }) :
    Inv H (W.goOn { c with stage := stage }) :=
  h.goOn hc stage W.runs (fun _ hs ↦ Or.inl hs) (fun s hs hkey ↦ absurd hkey (hfresh s hs)) h.once
    hstage

/-- What the change of one receipt does to the others. -/
structure KeepsRuns (key : DeliveryKey) (T T' : ReceiptTables) : Prop where
  other : ∀ key', key' ≠ key → T'.row? key' = T.row? key'
  isSome : (T.row? key).isSome = true → (T'.row? key).isSome = true

/-- **A call is over**, and its receipt may have changed. -/
theorem Inv.finish (h : Inv H W) {c : RouteCall} (hc : c ∈ W.calls) {receipts : ReceiptTables}
    (hkeeps : KeepsRuns c.envelope.key W.receipts receipts) {answers : List RouteAnswer}
    (hanswered : ∀ a ∈ answers, ∀ runId ∈ a.existing, a.runId = some runId)
    (hlinked : ∀ s ∈ W.started, s.1 = c.envelope.key →
      ∃ row ∈ receipts.row? s.1, row.runId = some s.2) :
    Inv H { W.finish c with receipts := receipts, answers := answers } where
  begun c' hc' := h.begun c' (mem_finish.mp hc').1
  distinct c' hc' c'' hc'' := h.distinct c' (mem_finish.mp hc').1 c'' (mem_finish.mp hc'').1
  claimed c' hc' := by
    obtain ⟨hmem, hne⟩ := mem_finish.mp hc'
    have hkey : c'.envelope.key ≠ c.envelope.key := fun heq ↦
      hne (congrArg RouteCall.id (h.distinct c' hmem c hc (Or.inr heq)))
    show (receipts.row? c'.envelope.key).isSome = true
    rw [hkeeps.other _ hkey]
    exact h.claimed c' hmem
  stages c' hc' := h.stages c' (mem_finish.mp hc').1
  known s hs := by
    show (receipts.row? s.1).isSome = true
    by_cases hkey : s.1 = c.envelope.key
    · obtain ⟨row, hrow, -⟩ := hlinked s hs hkey
      rw [hrow]
      rfl
    · rw [hkeeps.other _ hkey]
      exact h.known s hs
  once := h.once
  linked s hs := by
    by_cases hkey : s.1 = c.envelope.key
    · exact Or.inl (hlinked s hs hkey)
    · rcases h.linked s hs with hrow | ⟨c', hc', hkey', hmarking⟩
      · refine Or.inl ?_
        rw [show receipts.row? s.1 = W.receipts.row? s.1 from hkeeps.other _ hkey]
        exact hrow
      · refine Or.inr ⟨c', mem_finish.mpr ⟨hc', fun hid ↦ hkey ?_⟩, hkey', hmarking⟩
        rw [← hkey', h.distinct c' hc' c hc (Or.inl hid)]
  paid := h.paid
  answered := hanswered
  requested := h.requested
  apart := h.apart

theorem keepsRuns_update {T : ReceiptTables} (key : DeliveryKey) (status : DeliveryStatus)
    (fields : ReceiptTables.ReceiptFields) (now : ℤ) :
    KeepsRuns key T (T.update key status fields now) where
  other key' hne := by rw [ReceiptTables.row?_markOf, if_neg hne]
  isSome h := by
    rw [ReceiptTables.row?_markOf, if_pos rfl, Option.isSome_map]
    exact h

theorem existing_some {key : DeliveryKey} {runId : JsString} (h : runId ∈ W.existing key) :
    (key, runId) ∈ W.started := by
  obtain ⟨s, hs, rfl⟩ := Option.map_eq_some_iff.mp h
  have hfound := List.find?_some hs
  obtain rfl : s.1 = key := of_decide_eq_true hfound
  exact List.mem_of_find?_eq_some hs

/-! ## Steps -/

/-- **A delivery comes in**: it is answered with its run, or a call for it begins. -/
theorem Inv.deliver (h : Inv H W) {envelope : InboundEnvelope} (now : ℤ)
    (hidle : ∀ c ∈ W.calls, c.envelope.key = envelope.key → ∀ runId, c.stage ≠ .marking runId) :
    Inv H (W.deliver envelope now) := by
  by_cases hrow : (W.receipts.row? envelope.key).isSome = true
  · rw [Inbound.deliver, ReceiptTables.claim, if_pos hrow]
    refine ⟨h.begun, h.distinct, h.claimed, h.stages, h.known, h.once, h.linked, h.paid, ?_,
      h.requested, h.apart⟩
    intro a ha runId hrun
    rcases List.mem_append.mp ha with ha | ha
    · exact h.answered a ha runId hrun
    · obtain rfl := List.mem_singleton.mp ha
      -- The run is in the receipt: the call that is about to write it is excluded.
      rcases h.linked _ (existing_some hrun) with ⟨row, hmem, hid⟩ | ⟨c, hc, hkey, hmarking⟩
      · exact (congrArg (Option.bind · DeliveryRow.runId) hmem).trans hid
      · exact absurd hmarking (hidle c hc hkey _)
  · have hnone : W.receipts.row? envelope.key = none := Option.not_isSome_iff_eq_none.mp hrow
    have hfresh : W.Fresh envelope.key := fun s hs hkey ↦ hrow (hkey ▸ h.known s hs)
    have hapart : ∀ c ∈ W.calls, c.envelope.key ≠ envelope.key :=
      fun c hc hkey ↦ hrow (hkey ▸ h.claimed c hc)
    have hclaim : ∀ key, (W.receipts.claim envelope now).1.row? key = _ :=
      ReceiptTables.row?_claim_new hnone
    have hsplit : W.receipts.claim envelope now = ((W.receipts.claim envelope now).1, true) := by
      rw [ReceiptTables.claim, if_neg hrow]
    rw [Inbound.deliver, hsplit]
    dsimp only
    have hkept : ∀ key, (W.receipts.row? key).isSome = true →
        ((W.receipts.claim envelope now).1.row? key).isSome = true := by
      intro key hkey
      rw [hclaim]
      split_ifs
      · rfl
      · exact hkey
    constructor
    · intro c hc
      rcases List.mem_append.mp hc with hc | hc
      · exact Nat.lt_succ_of_lt (h.begun c hc)
      · obtain rfl := List.mem_singleton.mp hc
        exact Nat.lt_succ_self W.begun
    · intro c hc c' hc' heq
      rcases List.mem_append.mp hc with hc | hc <;> rcases List.mem_append.mp hc' with hc' | hc'
      · exact h.distinct c hc c' hc' heq
      · obtain rfl := List.mem_singleton.mp hc'
        exact absurd heq (not_or.mpr ⟨(h.begun c hc).ne, hapart c hc⟩)
      · obtain rfl := List.mem_singleton.mp hc
        exact absurd heq (not_or.mpr ⟨(h.begun c' hc').ne', (hapart c' hc').symm⟩)
      · rw [List.mem_singleton.mp hc, List.mem_singleton.mp hc']
    · intro c hc
      rcases List.mem_append.mp hc with hc | hc
      · exact hkept _ (h.claimed c hc)
      · obtain rfl := List.mem_singleton.mp hc
        show ((W.receipts.claim envelope now).1.row? envelope.key).isSome = true
        rw [hclaim, if_pos rfl]
        rfl
    · intro c hc
      rcases List.mem_append.mp hc with hc | hc
      · exact h.stages c hc
      · obtain rfl := List.mem_singleton.mp hc
        exact hfresh
    · exact fun s hs ↦ hkept _ (h.known s hs)
    · exact h.once
    · intro s hs
      rcases h.linked s hs with ⟨row, hmem, hid⟩ | ⟨c, hc, hmarking⟩
      · refine Or.inl ⟨row, ?_, hid⟩
        show (W.receipts.claim envelope now).1.row? s.1 = some row
        rw [hclaim, if_neg (hfresh s hs)]
        exact hmem
      · exact Or.inr ⟨c, List.mem_append_left _ hc, hmarking⟩
    · exact h.paid
    · exact h.answered
    · exact h.requested
    · exact h.apart

/-- A request is made. -/
theorem Inv.request (h : Inv H W) {request : StartRunRequest}
    (hmade : request = startRunRequest H request.binding request.envelope)
    (hapart : ∀ r ∈ W.requests,
      ¬request.envelope.Confused r.envelope ∧ ¬StartRunRequest.Mingled H request r) :
    Inv H { W with requests := W.requests ++ [request] } := by
  refine ⟨h.begun, h.distinct, h.claimed, h.stages, h.known, h.once, h.linked, h.paid, h.answered,
    ?_, ?_⟩
  · intro r hr
    rcases List.mem_append.mp hr with hr | hr
    · exact h.requested r hr
    · exact List.mem_singleton.mp hr ▸ hmade
  · intro r hr r' hr'
    rcases List.mem_append.mp hr with hmem | hself <;>
      rcases List.mem_append.mp hr' with hmem' | hself'
    · exact h.apart r hmem r' hmem'
    · obtain rfl := List.mem_singleton.mp hself'
      exact Or.inr ⟨fun hc ↦ (hapart r hmem).1 hc.symm, fun hm ↦ (hapart r hmem).2 hm.symm⟩
    · obtain rfl := List.mem_singleton.mp hself
      exact Or.inr (hapart r' hmem')
    · exact Or.inl ((List.mem_singleton.mp hself).trans (List.mem_singleton.mp hself').symm)

/-- **The manager is asked for the run** of a delivery that has none. -/
theorem Inv.startRun (h : Inv H W) {c : RouteCall} (hc : c ∈ W.calls)
    (hfresh : W.Fresh c.envelope.key) (request : StartRunRequest) {e : Encounter}
    (hlost : e.lost = false) : Inv H (W.startRun H c request e) := by
  rw [Inbound.startRun]
  rcases hcall : (Store.createOrGetRun H.toPlatform e.now e.fresh e.runId request.run).run W.runs with
    ⟨_ | ⟨run, created⟩, runs⟩
  · exact h.restage hc hfresh .failing hfresh
  · dsimp only
    rw [hlost, if_neg Bool.false_ne_true]
    have hnone : ∀ s ∈ W.started, s.1 = c.envelope.key →
        RouteStage.marking run.id = .marking s.2 := fun s hs hkey ↦ absurd hkey (hfresh s hs)
    rcases created
    · refine h.goOn hc (.marking run.id) runs (fun _ hs ↦ Or.inl hs) hnone h.once ?_
      exact fun s hs hkey ↦ absurd hkey (hfresh s hs)
    · refine h.goOn hc (.marking run.id) runs ?_ hnone ?_ ?_
      · intro s hs
        rcases List.mem_append.mp hs with hs | hs
        · exact Or.inl hs
        · exact Or.inr (List.mem_singleton.mp hs ▸ ⟨rfl, rfl⟩)
      · rw [if_pos rfl, List.map_append]
        refine List.nodup_append.mpr ⟨h.once, List.nodup_singleton _, ?_⟩
        rintro key hkey _ hself rfl
        obtain ⟨s, hs, hskey⟩ := List.mem_map.mp hkey
        exact hfresh s hs (hskey.trans (List.mem_singleton.mp hself))
      · intro s hs hkey
        rcases List.mem_append.mp hs with hs | hs
        · exact absurd hkey (hfresh s hs)
        · rw [List.mem_singleton.mp hs]

/-- A call is over without a run. -/
theorem Inv.close (h : Inv H W) {c : RouteCall} (hc : c ∈ W.calls) (hfresh : W.Fresh c.envelope.key)
    {receipts : ReceiptTables} (hkeeps : KeepsRuns c.envelope.key W.receipts receipts) :
    Inv H { W.finish c with receipts := receipts } :=
  h.finish hc hkeeps h.answered fun s hs hkey ↦ absurd hkey (hfresh s hs)

/-- **A call writes its run** into the receipt. -/
theorem Inv.mark (h : Inv H W) {c : RouteCall} (hc : c ∈ W.calls) {runId : JsString} (now : ℤ)
    (hruns : ∀ s ∈ W.started, s.1 = c.envelope.key → s.2 = runId) :
    Inv H { W.finish c with
      receipts := W.receipts.markRun c.envelope.key runId now
      answers := W.answers ++
        [⟨c.envelope.key, false, some runId, W.existing c.envelope.key⟩] } := by
  refine h.finish hc (keepsRuns_update _ _ _ _) ?_ ?_
  · intro a ha runId' hrun
    rcases List.mem_append.mp ha with ha | ha
    · exact h.answered a ha runId' hrun
    · obtain rfl := List.mem_singleton.mp ha
      exact congrArg some (hruns _ (existing_some hrun) rfl).symm
  · intro s hs hkey
    obtain ⟨row, hrow⟩ := Option.isSome_iff_exists.mp (h.claimed c hc)
    refine ⟨ReceiptTables.updatedRow .runStarted { runId := some runId } now row, ?_, ?_⟩
    · show (W.receipts.update c.envelope.key .runStarted { runId := some runId } now).row? s.1 = _
      rw [ReceiptTables.row?_markOf, if_pos hkey, hrow]
      rfl
    · rw [hruns s hs hkey]
      rfl

/-- **The next statement of a call** keeps the invariant. -/
theorem Inv.advance (h : Inv H W) {c : RouteCall} (hc : c ∈ W.calls) {e : Encounter}
    (ha : W.OrderlyAt H c e) : Inv H (W.advance H c e) := by
  have hsame : KeepsRuns c.envelope.key W.receipts W.receipts := ⟨fun _ _ ↦ rfl, id⟩
  have hstage := h.stages c hc
  rw [OrderlyAt] at ha
  rw [StageOk] at hstage
  rw [Inbound.advance]
  rcases hcase : c.stage with _ | _ | request | runId | _ <;>
    simp only [hcase] at ha hstage <;> dsimp only
  · rw [ha]
    rcases W.receipts.getBinding c.envelope with _ | binding
    · exact h.restage hc hstage .unbound hstage
    · exact h.restage hc hstage (.starting (startRunRequest H binding c.envelope)) ⟨rfl, hstage⟩
  · rcases e.outcome
    · exact h.close hc hstage (keepsRuns_update _ _ _ _)
    · exact h.close hc hstage hsame
    · exact h.close hc hstage hsame
  · obtain ⟨hsucceeds, hlost, hapart⟩ := ha
    rw [hsucceeds]
    have hmade : request = startRunRequest H request.binding request.envelope := by
      rw [hstage.1]
      rfl
    exact (h.request hmade hapart).startRun hc hstage.2 request hlost
  · rw [ha]
    exact h.mark hc e.now hstage
  · rcases e.outcome
    · exact h.close hc hstage (keepsRuns_update _ _ _ _)
    · exact h.close hc hstage hsame
    · exact h.close hc hstage hsame

theorem Inv.step (h : Inv H W) (a : InboundAction) (ha : W.Orderly H a) :
    Inv H (Inbound.step H W a) := by
  rcases a with binding | ⟨envelope, now, _ | _ | _⟩ | ⟨call, e⟩ | op
  · exact ⟨h.begun, h.distinct, h.claimed, h.stages, h.known, h.once, h.linked, h.paid, h.answered,
      h.requested, h.apart⟩
  · exact h.deliver now ha
  · exact h
  · exact h
  · rw [Inbound.step]
    rcases hlookup : Table.lookup RouteCall.id call W.calls with _ | c
    · exact h
    · exact h.advance (Table.mem_of_lookup hlookup) (ha c hlookup)
  · exact ⟨h.begun, h.distinct, h.claimed, h.stages, h.known, h.once, h.linked, h.paid, h.answered,
      h.requested, h.apart⟩

end Inbound

/-! ## Runs of the router -/

instance (e e' : InboundEnvelope) : Decidable (e.Overlaps e') :=
  let part := e'.accountId.drop (e.accountId.length + 1)
  decidable_of_iff
    (e'.accountId = e.accountId ++ 58 :: part ∧ e.deliveryId = part ++ 58 :: e'.deliveryId)
    ⟨fun h ↦ ⟨part, h⟩, fun ⟨part', haccount, hdelivery⟩ ↦ by
      have hpart : part = part' := by
        show e'.accountId.drop (e.accountId.length + 1) = part'
        rw [haccount, List.drop_length_add_append]
        rfl
      exact hpart ▸ ⟨haccount, hdelivery⟩⟩

instance (e e' : InboundEnvelope) : Decidable (e.Confused e') :=
  inferInstanceAs (Decidable (e.key ≠ e'.key ∧ ((_ ∧ _) ∨ e.Overlaps e' ∨ e'.Overlaps e)))

instance (r r' : StartRunRequest) : Decidable (StartRunRequest.Mingled H r r') :=
  inferInstanceAs (Decidable (_ ≠ _ ∧ _ = _ ∧ _ = _ ∧ _ = _))

instance : (stage : RouteStage) → Decidable (∀ runId, stage ≠ .marking runId)
  | .marking runId => isFalse fun h ↦ h runId rfl
  | .binding => isTrue nofun
  | .unbound => isTrue nofun
  | .starting _ => isTrue nofun
  | .failing => isTrue nofun

namespace Inbound

variable (W : Inbound)

instance (c : RouteCall) (e : Encounter) : Decidable (W.OrderlyAt H c e) :=
  match h : c.stage with
  | .binding => decidable_of_iff (e.outcome = .succeeds) (by rw [OrderlyAt, h])
  | .marking _ => decidable_of_iff (e.outcome = .succeeds) (by rw [OrderlyAt, h])
  | .starting request =>
    decidable_of_iff (e.outcome = .succeeds ∧ e.lost = false ∧ ∀ r ∈ W.requests,
      ¬request.envelope.Confused r.envelope ∧ ¬StartRunRequest.Mingled H request r)
      (by rw [OrderlyAt, h])
  | .unbound => decidable_of_iff True (by rw [OrderlyAt, h])
  | .failing => decidable_of_iff True (by rw [OrderlyAt, h])

instance (a : InboundAction) : Decidable (W.Orderly H a) :=
  match a with
  | .deliver envelope _ _ => inferInstanceAs (Decidable (∀ c ∈ W.calls,
      c.envelope.key = envelope.key → ∀ runId, c.stage ≠ .marking runId))
  | .next call e => inferInstanceAs (Decidable (∀ c ∈ Table.lookup RouteCall.id call W.calls,
      W.OrderlyAt H c e))
  | .bind _ => inferInstanceAs (Decidable True)
  | .other _ => inferInstanceAs (Decidable True)

/-- **Orderly deliveries are routed**: to one run each, to which a duplicate is answered, under a key
and in a session of their own. -/
theorem deliveries_once (actions : List InboundAction)
    (hactions : Throughout (Inbound.step H) (Orderly H) {} actions) :
    (run H {} actions).Routes := by
  have h : Inv H (run H {} actions) :=
    Throughout.induction (fun _ a hinv ha ↦ hinv.step a ha) inv_init hactions
  refine ⟨h.once, ?_, h.linked, h.answered, ?_, ?_⟩
  · intro envelope now howed
    rw [h.paid] at howed
    exact absurd howed List.not_mem_nil
  · intro r hr r' hr' hkey
    rcases h.apart r hr r' hr' with rfl | ⟨hne, -⟩
    · rfl
    · exact InboundEnvelope.key_eq_of_idempotencyKey_eq hkey hne
  · intro r hr r' hr' hsession
    rcases h.apart r hr r' hr' with rfl | ⟨-, hne⟩
    · rfl
    · exact StartRunRequest.place_eq_of_sharesSession (h.requested r hr) (h.requested r' hr')
        hsession hne

/-! ## One delivery -/

/-- A host whose digests are empty. -/
def plainHost : RouterHost :=
  { referencePlatform with shortDigest := fun _ ↦ [], shortDigest_unit := nofun }

/-- All senders of an account act for one user. -/
def supportBinding : IntegrationBinding where
  connectorId := js "slack"
  accountId := js "team"
  senderExternalId := js "*"
  appId := js "app"
  tenantId := js "local"
  userId := js "support"
  agentId := js "coder"
  workspaceId := js "ops"
  sessionPrefix := js "slack"

def question : InboundEnvelope where
  connectorId := js "slack"
  accountId := js "team"
  deliveryId := js "1"
  senderExternalId := js "ada"
  text := js "hello"
  receivedAt := js "2024-01-01"

/-- The delivery is claimed, and its binding is found. -/
def asking : List InboundAction :=
  [.bind supportBinding, .deliver question 0 .succeeds, .next 0 {}]

theorem deliveries_once_asking : (run plainHost {} (asking ++
    [.next 0 { runId := js "run_1", fresh := ⟨js "1", js "2", js "3"⟩ }, .next 0 {},
      .deliver question 1 .succeeds])).Routes :=
  deliveries_once _ (by decide +kernel)

/-- `startRun` fails, and when the delivery comes again it is taken for a duplicate. -/
theorem not_routes_failed :
    ¬(run plainHost {} (asking ++ [.next 0 { outcome := .fails }, .next 0 {}])).Routes :=
  fun h ↦ absurd (h.retried question 1 (by decide +kernel)) (by decide +kernel)

end Inbound

end LiteHarness.Integrations
