import LiteHarness.Foundation.Progress
import LiteHarness.ProcessRpc.Client
import Mathlib.Data.List.Induction

/-!
# Every request settles once

An identifier that the client has given out is in one place: settled, pending, or with a
cancellation that waits for a stop. No history moves it back, and the timers of the client alone
move it on: the timer of the request, the two waits of the stop, and the rest of the cancellation.
-/

namespace LiteHarness.ProcessRpc

open Foundation

/-! ## Stages -/

/-- How many due steps are left when a stop stands here, with the one that rejects the request. -/
def StopStage.remaining : StopStage → ℕ
  | waits => 3
  | killed => 2
  | done => 1
  | failed => 1

theorem StopStage.one_le_remaining (stage : StopStage) : 1 ≤ stage.remaining := by
  cases stage <;> decide

theorem StopStage.remaining_le (stage : StopStage) : stage.remaining ≤ 3 := by
  cases stage <;> decide

theorem StopStage.lt_remaining {stage stage' : StopStage} (h : stage.over = false)
    (h' : stage'.over = true ∨ stage = .waits) (hne : stage' ≠ .waits) :
    stage'.remaining < stage.remaining := by
  cases stage <;> cases stage' <;> simp_all [StopStage.over, StopStage.remaining]

namespace JsonLineRpcClient

variable {R : RpcHost} {O : RpcOptions} {s t u : JsonLineRpcClient}

/-! ## Places -/

variable (s) in
/-- The identifiers that are settled, pending or being cancelled. -/
def places : List ℕ :=
  s.settlements.map Prod.fst ++ (s.pending ++ s.cancellations.map Cancellation.id)

/-- Each identifier given out is in one place, and what waits for a stop waits for one that has
begun. Identifiers begin with `1`. -/
structure Accounted (s : JsonLineRpcClient) : Prop where
  places : (0 :: s.places).Perm (List.range s.nextId)
  cancellations : ∀ c ∈ s.cancellations, c.operation < s.operations.length
  stopPromise : ∀ number, s.stopPromise = some number → number < s.operations.length
  /-- A stop without a child has come to its end. -/
  idle : ∀ operation ∈ s.operations, operation.child = none → operation.stage.over = true

theorem accounted_init : Accounted {} := ⟨List.Perm.refl _, nofun, nofun, nofun⟩

theorem Accounted.nodup (h : s.Accounted) : s.places.Nodup :=
  (List.nodup_cons.mp (h.places.nodup_iff.mpr List.nodup_range)).2

theorem Accounted.nodup_settled (h : s.Accounted) : (s.settlements.map Prod.fst).Nodup :=
  (List.nodup_append.mp h.nodup).1

theorem Accounted.nodup_pending (h : s.Accounted) : s.pending.Nodup :=
  (List.nodup_append.mp (List.nodup_append.mp h.nodup).2.1).1

theorem Accounted.nodup_cancellations (h : s.Accounted) :
    (s.cancellations.map Cancellation.id).Nodup :=
  (List.nodup_append.mp (List.nodup_append.mp h.nodup).2.1).2.1

theorem Accounted.not_cancelled (h : s.Accounted) {id : ℕ} (hid : id ∈ s.pending) :
    id ∉ s.cancellations.map Cancellation.id := fun hc ↦
  (List.nodup_append.mp (List.nodup_append.mp h.nodup).2.1).2.2 id hid id hc rfl

theorem Accounted.mem_places (h : s.Accounted) {id : ℕ} :
    id ∈ s.places ∧ id ≠ 0 ↔ 1 ≤ id ∧ id < s.nextId := by
  have hmem := h.places.mem_iff (a := id)
  rw [List.mem_cons, List.mem_range] at hmem
  have hzero : 0 ∉ s.places :=
    (List.nodup_cons.mp (h.places.nodup_iff.mpr List.nodup_range)).1
  constructor
  · rintro ⟨hid, hne⟩
    exact ⟨by omega, hmem.mp (Or.inr hid)⟩
  · rintro ⟨hpos, hlt⟩
    exact ⟨(hmem.mpr hlt).resolve_left (by omega), by omega⟩

theorem Accounted.lt_nextId (h : s.Accounted) {id : ℕ} (hid : id ∈ s.places) : id < s.nextId :=
  List.mem_range.mp (h.places.mem_iff.mp (List.mem_cons_of_mem _ hid))

/-- Taking one out of a list without repetitions. -/
theorem perm_cons_filter_ne {id : ℕ} {l : List ℕ} (hid : id ∈ l) (hnodup : l.Nodup) :
    (id :: l.filter (· ≠ id)).Perm l := by
  have hfilter : l.filter (· ≠ id) = l.erase id := by
    rw [hnodup.erase_eq_filter]
    exact List.filter_congr fun a _ ↦ Bool.eq_iff_iff.mpr (by simp)
  rw [hfilter]
  exact (List.perm_cons_erase hid).symm

/-! ## What a step can do -/

variable (s) in
/-- How many due steps a cancellation that waits for this stop has left. -/
def remaining (number : ℕ) : ℕ :=
  ((s.operations[number]?).map fun operation ↦ operation.stage.remaining).getD 1

theorem one_le_remaining (number : ℕ) : 1 ≤ s.remaining number := by
  unfold remaining
  cases s.operations[number]? with
  | none => exact Nat.le_refl 1
  | some operation => exact operation.stage.one_le_remaining

theorem remaining_le (number : ℕ) : s.remaining number ≤ 3 := by
  unfold remaining
  cases s.operations[number]? with
  | none => exact (by decide : 1 ≤ 3)
  | some operation => exact operation.stage.remaining_le

/-- Identifiers move on only: a settled one stays so, a pending one is settled or cancelled, and a
stop comes closer to its end. -/
structure Advances (s t : JsonLineRpcClient) : Prop where
  accounted : s.Accounted → t.Accounted
  nextId : s.nextId ≤ t.nextId
  pending : ∀ id ∈ t.pending, id ∈ s.pending ∨ s.nextId ≤ id
  cancellations : ∀ c ∈ t.cancellations, c ∈ s.cancellations ∨ c.id ∈ s.pending ∨ s.nextId ≤ c.id
  operations : s.operations.length ≤ t.operations.length
  remaining : ∀ number < s.operations.length, t.remaining number ≤ s.remaining number

theorem Advances.refl : Advances s s where
  accounted := id
  nextId := Nat.le_refl _
  pending := fun _ ↦ Or.inl
  cancellations := fun _ ↦ Or.inl
  operations := Nat.le_refl _
  remaining := fun _ _ ↦ Nat.le_refl _

theorem Advances.trans (h : Advances s t) (h' : Advances t u) : Advances s u where
  accounted := h'.accounted ∘ h.accounted
  nextId := h.nextId.trans h'.nextId
  pending := fun id hid ↦ (h'.pending id hid).elim (h.pending id) fun hle ↦
    Or.inr (h.nextId.trans hle)
  cancellations := fun c hc ↦ by
    rcases h'.cancellations c hc with hc | hc | hc
    · exact h.cancellations c hc
    · exact Or.inr (h.pending c.id hc)
    · exact Or.inr (Or.inr (h.nextId.trans hc))
  operations := h.operations.trans h'.operations
  remaining := fun number hlt ↦
    (h'.remaining number (Nat.lt_of_lt_of_le hlt h.operations)).trans (h.remaining number hlt)

/-- A step that only works on the process instances. -/
theorem advances_of_same (hsettlements : t.settlements = s.settlements)
    (hpending : t.pending = s.pending) (hcancellations : t.cancellations = s.cancellations)
    (hoperations : t.operations = s.operations) (hnextId : t.nextId = s.nextId)
    (hstopPromise : t.stopPromise = s.stopPromise) : Advances s t := by
  have hplaces : t.places = s.places := by
    rw [places, places, hsettlements, hpending, hcancellations]
  refine ⟨fun h ↦ ⟨?_, ?_, ?_, ?_⟩, hnextId.ge, ?_, ?_, ?_, ?_⟩
  · rw [hplaces, hnextId]
    exact h.places
  · rw [hcancellations, hoperations]
    exact h.cancellations
  · rw [hstopPromise, hoperations]
    exact h.stopPromise
  · rw [hoperations]
    exact h.idle
  · rw [hpending]
    exact fun _ ↦ Or.inl
  · rw [hcancellations]
    exact fun _ ↦ Or.inl
  · rw [hoperations]
  · intro number _
    rw [JsonLineRpcClient.remaining, JsonLineRpcClient.remaining, hoperations]

theorem start_advances : Advances s s.start := by
  unfold start
  split_ifs
  · exact Advances.refl
  · exact advances_of_same rfl rfl rfl rfl rfl rfl

theorem releaseEnvironment_advances (n : ℕ) : Advances s (s.releaseEnvironment O n) :=
  advances_of_same rfl rfl rfl rfl rfl rfl

theorem settle_advances (id : ℕ) (value : Settlement) : Advances s (s.settle id value) := by
  unfold settle
  split_ifs with hid
  · refine ⟨fun h ↦ ⟨?_, h.cancellations, h.stopPromise, h.idle⟩, Nat.le_refl _,
      fun _ hid' ↦ Or.inl (List.mem_of_mem_filter hid'), fun _ ↦ Or.inl, Nat.le_refl _,
      fun _ _ ↦ Nat.le_refl _⟩
    refine List.Perm.trans (List.Perm.cons 0 ?_) h.places
    have hmove := perm_cons_filter_ne hid h.nodup_pending
    refine List.perm_iff_count.mpr fun a ↦ ?_
    have hcount := hmove.count_eq a
    simp only [places, List.map_append, List.map_cons, List.map_nil, List.count_append,
      List.count_cons, List.count_nil] at hcount ⊢
    omega
  · exact Advances.refl

theorem fail_advances (error : RpcFailure) (dueTo : Option ℕ) :
    Advances s (s.fail error dueTo) := by
  refine ⟨fun h ↦ ⟨?_, h.cancellations, h.stopPromise, h.idle⟩, Nat.le_refl _,
    fun _ hid ↦ absurd hid List.not_mem_nil, fun _ ↦ Or.inl, Nat.le_refl _,
    fun _ _ ↦ Nat.le_refl _⟩
  have hplaces : (s.fail error dueTo).places = s.places := by
    simp [places, fail, List.map_map, Function.comp_def]
  rw [hplaces]
  exact h.places

/-- An operation is added to those that have begun. -/
theorem append_advances {operation : StopOperation}
    (hidle : operation.child = none → operation.stage.over = true)
    (hsettlements : t.settlements = s.settlements)
    (hpending : t.pending = s.pending) (hcancellations : t.cancellations = s.cancellations)
    (hoperations : t.operations = s.operations ++ [operation]) (hnextId : t.nextId = s.nextId)
    (hstopPromise : t.stopPromise = some s.operations.length) : Advances s t := by
  have hlength : t.operations.length = s.operations.length + 1 := by
    rw [hoperations, List.length_append, List.length_singleton]
  refine ⟨fun h ↦ ⟨?_, ?_, ?_, ?_⟩, hnextId.ge, ?_, ?_, ?_, ?_⟩
  · rw [places, hsettlements, hpending, hcancellations, hnextId]
    exact h.places
  · rw [hcancellations, hlength]
    exact fun c hc ↦ Nat.lt_succ_of_lt (h.cancellations c hc)
  · intro number hnumber
    rw [hstopPromise] at hnumber
    rw [hlength, ← Option.some.inj hnumber]
    exact Nat.lt_succ_self _
  · rw [hoperations]
    intro operation' hmem
    rcases List.mem_append.mp hmem with hmem | hmem
    · exact h.idle operation' hmem
    · rw [List.mem_singleton.mp hmem]
      exact hidle
  · rw [hpending]
    exact fun _ ↦ Or.inl
  · rw [hcancellations]
    exact fun _ ↦ Or.inl
  · rw [hlength]
    exact Nat.le_succ _
  · intro number hlt
    rw [JsonLineRpcClient.remaining, JsonLineRpcClient.remaining, hoperations,
      List.getElem?_append_left hlt]

/-- What `stop` does up to its suspension: it joins the stop under way, finds nothing to stop, or
begins to stop the child. -/
theorem stop_cases (s : JsonLineRpcClient) :
    s.stop.1 = s ∨
    (s.child = none ∧ s.stop.1 = { s with
      stopPromise := some s.operations.length
      operations := s.operations ++ [⟨none, .done⟩] }) ∨
    ∃ n, s.child = some n ∧ s.stop.1 = { s with
      stopping := true
      stopPromise := some s.operations.length
      instances := s.instances.modify n fun c ↦ { c with writable := false }
      operations := s.operations ++ [⟨some n, .waits⟩] } := by
  rcases s with ⟨pending, child, stdout, nextId, stopping, cleanup, stopPromise⟩
  cases stopPromise with
  | some number => exact Or.inl rfl
  | none =>
    cases child with
    | none => exact Or.inr (Or.inl ⟨rfl, rfl⟩)
    | some n => exact Or.inr (Or.inr ⟨n, rfl, rfl⟩)

theorem stop_advances : Advances s s.stop.1 := by
  obtain heq | ⟨hchild, heq⟩ | ⟨n, hchild, heq⟩ := stop_cases s
  · rw [heq]
    exact Advances.refl
  · rw [heq]
    exact append_advances (fun _ ↦ rfl) rfl rfl rfl rfl rfl rfl
  · rw [heq]
    exact append_advances (fun h ↦ absurd h (Option.some_ne_none n)) rfl rfl rfl rfl rfl rfl

/-- A call of `stop` waits for an operation that has begun. -/
theorem stop_lt (h : s.Accounted) : s.stop.2 < s.stop.1.operations.length := by
  unfold stop
  cases hstop : s.stopPromise with
  | some number => exact h.stopPromise number hstop
  | none =>
    cases s.child with
    | none => simp
    | some n => simp

theorem stop_pending : s.stop.1.pending = s.pending := by
  obtain heq | ⟨-, heq⟩ | ⟨n, -, heq⟩ := stop_cases s <;> rw [heq]

theorem setStage_operation {number other : ℕ} {stage : StopStage} :
    (s.setStage number stage).operations[other]? =
      if number = other then (s.operations[other]?).map fun operation ↦ { operation with stage }
      else s.operations[other]? := by
  rw [setStage, List.getElem?_modify]
  split_ifs
  · rfl
  · exact congrFun Option.map_id_fun _

theorem setStage_remaining {number : ℕ} {operation : StopOperation} {stage : StopStage}
    (h : s.operations[number]? = some operation) :
    (s.setStage number stage).remaining number = stage.remaining := by
  rw [remaining, setStage_operation, if_pos rfl, h]
  rfl

/-- A stop moves towards its end. -/
theorem setStage_advances {number : ℕ} {operation : StopOperation} {stage : StopStage}
    (h : s.operations[number]? = some operation)
    (hover : operation.child = none → stage.over = true)
    (hle : stage.remaining ≤ operation.stage.remaining) :
    Advances s (s.setStage number stage) := by
  have hlength : (s.setStage number stage).operations.length = s.operations.length :=
    List.length_modify _ _ _
  refine ⟨fun hs ↦ ⟨hs.places, ?_, ?_, ?_⟩, Nat.le_refl _, fun _ ↦ Or.inl, fun _ ↦ Or.inl,
    hlength.ge, fun other _ ↦ ?_⟩
  · rw [hlength]
    exact hs.cancellations
  · rw [hlength]
    exact hs.stopPromise
  · intro operation' hmem
    obtain ⟨other, hother⟩ := List.mem_iff_getElem?.mp hmem
    rw [setStage_operation] at hother
    split_ifs at hother with heq
    · obtain rfl := heq
      rw [h] at hother
      obtain rfl := Option.some.inj hother
      exact hover
    · exact hs.idle operation' (List.mem_of_getElem? hother)
  · by_cases heq : number = other
    · obtain rfl := heq
      rw [setStage_remaining h, remaining, h]
      exact hle
    · rw [remaining, remaining, setStage_operation, if_neg heq]

theorem finishStop_advances {number n : ℕ} {operation : StopOperation}
    (h : s.operations[number]? = some operation) : Advances s (s.finishStop O number n) := by
  have hchild : Advances s { s with child := if s.child = some n then none else s.child } :=
    advances_of_same rfl rfl rfl rfl rfl rfl
  unfold finishStop
  dsimp only
  have hreleased := hchild.trans (releaseEnvironment_advances (O := O) n)
  have hfailed := hreleased.trans (fail_advances
    (.process ⟨js "process_stopped", js "RPC process stopped", .undefined⟩) (some n))
  exact hfailed.trans (setStage_advances h (fun _ ↦ rfl) operation.stage.one_le_remaining)

theorem stopGoesOn_advances (number : ℕ) (timedOut : Bool) :
    Advances s (s.stopGoesOn O number timedOut) := by
  unfold stopGoesOn
  split
  · rename_i n stage h
    split_ifs with hover hended htimedOut hwaits
    · exact Advances.refl
    · exact finishStop_advances h
    · refine setStage_advances h (fun hnone ↦ absurd hnone (by simp)) ?_
      rw [hwaits]
      exact (by decide : StopStage.killed.remaining ≤ StopStage.waits.remaining)
    · exact setStage_advances h (fun _ ↦ rfl) stage.one_le_remaining
    · exact Advances.refl
  · exact Advances.refl

theorem stopSettled_advances (number : ℕ) : Advances s (s.stopSettled number) := by
  unfold stopSettled
  split
  · split_ifs
    · exact ⟨fun h ↦ ⟨h.places, h.cancellations, nofun, h.idle⟩, Nat.le_refl _, fun _ ↦ Or.inl,
        fun _ ↦ Or.inl, Nat.le_refl _, fun _ _ ↦ Nat.le_refl _⟩
    · exact Advances.refl
  · exact Advances.refl

/-- Stopping does not look at the table. -/
theorem stop_of_pending (l : List ℕ) :
    { s with pending := l }.stop = ({ s.stop.1 with pending := l }, s.stop.2) := by
  rcases s with ⟨pending, child, stdout, nextId, stopping, cleanup, stopPromise⟩
  cases stopPromise with
  | some number => rfl
  | none => cases child <;> rfl

/-- A cancellation begins or joins a stop, and takes its request from the table. -/
theorem cancelAndStop_eq {id : ℕ} (error : RpcFailure) (hid : id ∈ s.pending) :
    s.cancelAndStop id error = { s.stop.1 with
      pending := s.stop.1.pending.filter (· ≠ id)
      cancellations := s.stop.1.cancellations ++ [⟨id, error, s.stop.2⟩] } := by
  rw [cancelAndStop, if_pos hid, stop_of_pending, stop_pending]

theorem moved_advances {id number : ℕ} {error : RpcFailure} (hid : id ∈ s.pending)
    (hnumber : s.Accounted → number < s.operations.length) :
    Advances s { s with
      pending := s.pending.filter (· ≠ id)
      cancellations := s.cancellations ++ [⟨id, error, number⟩] } := by
  refine ⟨fun h ↦ ⟨?_, ?_, h.stopPromise, h.idle⟩, Nat.le_refl _,
    fun _ hid' ↦ Or.inl (List.mem_of_mem_filter hid'), ?_, Nat.le_refl _,
    fun _ _ ↦ Nat.le_refl _⟩
  · refine List.Perm.trans (List.Perm.cons 0 ?_) h.places
    have hmove := perm_cons_filter_ne hid h.nodup_pending
    refine List.perm_iff_count.mpr fun a ↦ ?_
    have hcount := hmove.count_eq a
    simp only [places, List.map_append, List.map_cons, List.map_nil, List.count_append,
      List.count_cons, List.count_nil] at hcount ⊢
    omega
  · intro c hc
    rcases List.mem_append.mp hc with hc | hc
    · exact h.cancellations c hc
    · rw [List.mem_singleton.mp hc]
      exact hnumber h
  · intro c hc
    rcases List.mem_append.mp hc with hc | hc
    · exact Or.inl hc
    · rw [List.mem_singleton.mp hc]
      exact Or.inr (Or.inl hid)

theorem cancelAndStop_advances (id : ℕ) (error : RpcFailure) :
    Advances s (s.cancelAndStop id error) := by
  by_cases hid : id ∈ s.pending
  · rw [cancelAndStop_eq error hid]
    have hid' : id ∈ s.stop.1.pending := stop_pending.symm ▸ hid
    refine ⟨fun h ↦ ?_, stop_advances.nextId, ?_, ?_, stop_advances.operations,
      stop_advances.remaining⟩
    · exact (moved_advances hid' fun _ ↦ stop_lt h).accounted (stop_advances.accounted h)
    · exact fun id'' hid'' ↦ stop_advances.pending id'' (List.mem_of_mem_filter hid'')
    · intro c hc
      rcases List.mem_append.mp hc with hc | hc
      · exact stop_advances.cancellations c hc
      · rw [List.mem_singleton.mp hc]
        exact Or.inr (Or.inl hid)
  · rw [cancelAndStop, if_neg hid]
    exact Advances.refl

theorem cancelGoesOn_advances (id : ℕ) : Advances s (s.cancelGoesOn id) := by
  unfold cancelGoesOn
  split
  swap
  · exact Advances.refl
  rename_i c hc
  split
  swap
  · exact Advances.refl
  rename_i operation hoperation
  split_ifs with hover
  swap
  · exact Advances.refl
  refine ⟨fun h ↦ ⟨?_, fun c hc ↦ h.cancellations c (List.mem_of_mem_filter hc), h.stopPromise,
    h.idle⟩, Nat.le_refl _, fun _ ↦ Or.inl, fun c hc ↦ Or.inl (List.mem_of_mem_filter hc),
    Nat.le_refl _, fun _ _ ↦ Nat.le_refl _⟩
  refine List.Perm.trans (List.Perm.cons 0 ?_) h.places
  have hcid : c.id = id := by simpa using List.find?_some hc
  have hid : id ∈ s.cancellations.map Cancellation.id :=
    List.mem_map.mpr ⟨c, List.mem_of_find?_eq_some hc, hcid⟩
  have hmove := perm_cons_filter_ne hid h.nodup_cancellations
  rw [List.filter_map] at hmove
  refine List.perm_iff_count.mpr fun a ↦ ?_
  have hcount := hmove.count_eq a
  simp only [places, List.map_append, List.map_cons, List.map_nil, List.count_append,
    List.count_cons, List.count_nil, Function.comp_def] at hcount ⊢
  omega

/-- A request gets the next identifier. -/
theorem issue_advances :
    Advances s { s with nextId := s.nextId + 1, pending := s.pending ++ [s.nextId] } := by
  refine ⟨fun h ↦ ⟨?_, h.cancellations, h.stopPromise, h.idle⟩, Nat.le_succ _, ?_, fun _ ↦ Or.inl,
    Nat.le_refl _, fun _ _ ↦ Nat.le_refl _⟩
  · rw [List.range_succ]
    refine List.Perm.trans ?_ (h.places.append_right [s.nextId])
    refine List.perm_iff_count.mpr fun a ↦ ?_
    simp only [places, List.count_append, List.count_cons, List.count_nil]
    omega
  · intro id hid
    rcases List.mem_append.mp hid with hid | hid
    · exact Or.inl hid
    · exact Or.inr (List.mem_singleton.mp hid).ge

theorem request_advances (call : RequestCall) : Advances s (s.request call) := by
  unfold request
  split_ifs with haborted
  · exact Advances.refl
  · refine start_advances.trans (issue_advances.trans ?_)
    cases call.abortedMeanwhile with
    | some error => exact cancelAndStop_advances _ _
    | none =>
      dsimp only
      split
      · exact advances_of_same rfl rfl rfl rfl rfl rfl
      · exact settle_advances _ _

theorem errored_advances (n : ℕ) (exitCode : Option ℤ) (message : JsString) :
    Advances s (s.errored O n exitCode message) := by
  cases exitCode with
  | none => exact (releaseEnvironment_advances n).trans (fail_advances _ _)
  | some code =>
    have hstatus : Advances s { s with
        instances := s.instances.modify n fun _ ↦ ⟨some (.code code), false⟩ } :=
      advances_of_same rfl rfl rfl rfl rfl rfl
    exact hstatus.trans ((releaseEnvironment_advances n).trans (fail_advances _ _))

theorem exited_advances (n : ℕ) (status : ExitStatus) (stderr : Option JsString) :
    Advances s (s.exited O n status stderr) := by
  have hstatus : Advances s { s with
      child := none
      instances := s.instances.modify n fun _ ↦ ⟨some status, false⟩ } :=
    advances_of_same rfl rfl rfl rfl rfl rfl
  unfold exited
  dsimp only
  split_ifs
  · exact hstatus.trans (releaseEnvironment_advances n)
  · exact hstatus.trans ((releaseEnvironment_advances n).trans (fail_advances _ _))

theorem tooLarge_advances (message : String) : Advances s (s.tooLarge message) :=
  (fail_advances _ _).trans stop_advances

theorem acceptStdout_advances (n : ℕ) (chunk : JsString) :
    Advances s (s.acceptStdout O n chunk) := by
  have hstdout : Advances s { s with stdout := s.stdout ++ chunk.map fun u ↦ (u, n) } :=
    advances_of_same rfl rfl rfl rfl rfl rfl
  unfold acceptStdout
  dsimp only
  split_ifs
  · exact hstdout.trans (tooLarge_advances _)
  · exact hstdout

theorem acceptMessage_advances (line : List Written) : Advances s (s.acceptMessage R line) := by
  unfold acceptMessage
  split
  · exact (fail_advances _ _).trans stop_advances
  · split
    · exact Advances.refl
    · dsimp only
      split_ifs
      · exact settle_advances _ _
      · exact settle_advances _ _

theorem acceptLine_advances : Advances s (s.acceptLine R O) := by
  unfold acceptLine
  split
  · rename_i complete rest _
    have hstdout : Advances s { s with stdout := rest } :=
      advances_of_same rfl rfl rfl rfl rfl rfl
    dsimp only
    split_ifs
    · exact hstdout.trans (tooLarge_advances _)
    · exact hstdout
    · exact hstdout.trans (acceptMessage_advances _)
  · split_ifs
    · exact tooLarge_advances _
    · exact Advances.refl

/-- **One step.** Whatever happens, identifiers move on only. -/
theorem step_advances (i : RpcInput) : Advances s (step R O s i) := by
  cases i with
  | start => exact start_advances
  | notify => exact start_advances
  | request call => exact request_advances call
  | stop => exact stop_advances
  | cancel id error => exact cancelAndStop_advances id error
  | stopGoesOn number timedOut => exact stopGoesOn_advances number timedOut
  | stopSettled number => exact stopSettled_advances number
  | cancelGoesOn id => exact cancelGoesOn_advances id
  | exited n status stderr =>
    dsimp only [step]
    split_ifs
    · exact exited_advances n status stderr
    · exact Advances.refl
  | errored n exitCode message =>
    dsimp only [step]
    split_ifs
    · exact errored_advances n exitCode message
    · exact Advances.refl
  | data n chunk =>
    dsimp only [step]
    split_ifs
    · exact acceptStdout_advances n chunk
    · exact Advances.refl
  | line => exact acceptLine_advances
  | unwritable n => exact advances_of_same rfl rfl rfl rfl rfl rfl

/-! ## Timers -/

variable (s) in
/-- The client's own next step for a request: its timer, the end of a wait of the stop its
cancellation waits for, or the rest of the cancellation. -/
def due (id : ℕ) : RpcInput → Bool
  | .cancel id' _ => id' = id ∧ id ∈ s.pending
  | .stopGoesOn number timedOut =>
    timedOut && (s.operations[number]?).any fun operation ↦
      operation.stage.over = false ∧ ∃ c ∈ s.cancellations, c.id = id ∧ c.operation = number
  | .cancelGoesOn id' =>
    (s.cancellations.find? fun c ↦ c.id = id').any fun c ↦
      id' = id ∧ (s.operations[c.operation]?).any fun operation ↦ operation.stage.over
  | _ => false

/-- At most `k` steps that are due are left until the request is settled. -/
structure Within (id : ℕ) (s : JsonLineRpcClient) (k : ℕ) : Prop where
  pending : id ∈ s.pending → 4 ≤ k
  cancelled : ∀ c ∈ s.cancellations, c.id = id → s.remaining c.operation ≤ k

theorem within_four (id : ℕ) : Within id s 4 :=
  ⟨fun _ ↦ Nat.le_refl _, fun c _ _ ↦ (remaining_le c.operation).trans (Nat.le_succ 3)⟩

/-- No step leaves more to do. -/
theorem Within.advances {id k : ℕ} (h : Within id s k) (hs : s.Accounted) (hid : id < s.nextId)
    (hst : Advances s t) : Within id t k := by
  refine ⟨fun hpending ↦ h.pending ((hst.pending id hpending).resolve_right (by omega)), ?_⟩
  rintro c hc rfl
  rcases hst.cancellations c hc with hc | hc | hc
  · exact (hst.remaining _ (hs.cancellations c hc)).trans (h.cancelled c hc rfl)
  · exact (remaining_le _).trans ((Nat.le_succ 3).trans (h.pending hc))
  · omega

/-- The wait of a stop has timed out. -/
theorem remaining_stopGoesOn {number : ℕ} {operation : StopOperation} (hs : s.Accounted)
    (h : s.operations[number]? = some operation) (hover : operation.stage.over = false) :
    (s.stopGoesOn O number true).remaining number < s.remaining number := by
  have hnow : s.remaining number = operation.stage.remaining := by
    rw [remaining, h]
    rfl
  obtain ⟨child, stage⟩ := operation
  cases child with
  | none =>
    exact absurd (hs.idle _ (List.mem_of_getElem? h) rfl) (by rw [hover]; exact Bool.false_ne_true)
  | some n =>
    rw [hnow, stopGoesOn, h]
    dsimp only at hover ⊢
    rw [if_neg (by rw [hover]; exact Bool.false_ne_true)]
    by_cases hended : s.Ended n
    · rw [if_pos hended]
      have hdone : (s.finishStop O number n).remaining number = StopStage.done.remaining :=
        setStage_remaining h
      rw [hdone]
      exact StopStage.lt_remaining hover (Or.inl rfl) (by decide)
    · rw [if_neg hended, if_pos rfl]
      split_ifs with hwaits
      · rw [setStage_remaining h]
        exact StopStage.lt_remaining hover (Or.inr hwaits) (by decide)
      · rw [setStage_remaining h]
        exact StopStage.lt_remaining hover (Or.inl rfl) (by decide)

/-- A step that is due leaves less to do. -/
theorem within_of_due {id k : ℕ} {i : RpcInput} (hs : s.Accounted) (hid : id < s.nextId)
    (hdue : s.due id i = true) (h : Within id s (k + 1)) : Within id (step R O s i) k := by
  have hst : Advances s (step R O s i) := step_advances i
  cases i with
  | cancel id' error =>
    obtain ⟨rfl, hmem⟩ := of_decide_eq_true hdue
    have hk := h.pending hmem
    refine ⟨fun hpending ↦ ?_, fun c _ _ ↦ (remaining_le _).trans (by omega)⟩
    rw [step, cancelAndStop_eq error hmem] at hpending
    exact absurd (List.of_mem_filter hpending) (by simp)
  | stopGoesOn number timedOut =>
    obtain ⟨rfl, hany⟩ := Bool.and_eq_true_iff.mp hdue
    obtain ⟨operation, hoperation, hbusy⟩ := (Option.any_eq_true _ _).mp hany
    obtain ⟨hover, c, hc, rfl, rfl⟩ := of_decide_eq_true hbusy
    refine ⟨fun hpending ↦ ?_, fun c' hc' hid' ↦ ?_⟩
    · -- A request that is being cancelled is not in the table.
      have hold := (hst.pending _ hpending).resolve_right (by omega)
      exact absurd (List.mem_map_of_mem hc) (hs.not_cancelled hold)
    · rcases hst.cancellations c' hc' with hc' | hc' | hc'
      · obtain rfl := List.inj_on_of_nodup_map hs.nodup_cancellations hc' hc hid'
        have hlt := remaining_stopGoesOn (O := O) hs hoperation hover
        have hk := h.cancelled c' hc rfl
        rw [step]
        omega
      · rw [hid'] at hc'
        exact absurd (List.mem_map_of_mem hc) (hs.not_cancelled hc')
      · omega
  | cancelGoesOn id' =>
    obtain ⟨c, hfind, hbusy⟩ := (Option.any_eq_true _ _).mp hdue
    obtain ⟨rfl, hany⟩ := of_decide_eq_true hbusy
    obtain ⟨operation, hoperation, hover⟩ := (Option.any_eq_true _ _).mp hany
    have hc := List.mem_of_find?_eq_some hfind
    have hcid : c.id = id' := by simpa using List.find?_some hfind
    have hstep : (step R O s (.cancelGoesOn id')).cancellations =
        s.cancellations.filter fun c ↦ c.id ≠ id' := by
      rw [step, cancelGoesOn, hfind]
      dsimp only
      rw [hoperation]
      dsimp only
      rw [if_pos hover]
    refine ⟨fun hpending ↦ ?_, fun c' hc' hid' ↦ ?_⟩
    · have hold := (hst.pending _ hpending).resolve_right (by omega)
      exact absurd (hcid ▸ List.mem_map_of_mem hc) (hs.not_cancelled hold)
    · rw [hstep] at hc'
      exact absurd hid' (by simpa using List.of_mem_filter hc')
  | start => exact absurd hdue Bool.false_ne_true
  | notify => exact absurd hdue Bool.false_ne_true
  | request call => exact absurd hdue Bool.false_ne_true
  | stop => exact absurd hdue Bool.false_ne_true
  | stopSettled number => exact absurd hdue Bool.false_ne_true
  | exited n status stderr => exact absurd hdue Bool.false_ne_true
  | errored n exitCode message => exact absurd hdue Bool.false_ne_true
  | data n chunk => exact absurd hdue Bool.false_ne_true
  | line => exact absurd hdue Bool.false_ne_true
  | unwritable n => exact absurd hdue Bool.false_ne_true

/-- A request that is not settled has a step that is due. -/
theorem exists_due {id : ℕ} (hs : s.Accounted) (hpos : 1 ≤ id) (hid : id < s.nextId)
    (hopen : id ∉ s.settlements.map Prod.fst) : ∃ i, s.due id i = true := by
  rcases List.mem_append.mp (hs.mem_places.mpr ⟨hpos, hid⟩).1 with hplace | hplace
  · exact absurd hplace hopen
  · rcases List.mem_append.mp hplace with hplace | hplace
    · exact ⟨.cancel id (.thrown []), decide_eq_true ⟨rfl, hplace⟩⟩
    · obtain ⟨c, hc, rfl⟩ := List.mem_map.mp hplace
      obtain ⟨operation, hoperation⟩ :
          ∃ operation, s.operations[c.operation]? = some operation :=
        ⟨_, List.getElem?_eq_getElem (hs.cancellations c hc)⟩
      by_cases hover : operation.stage.over = true
      · -- The stop is over: the cancellation goes on.
        obtain ⟨c', hfind⟩ : ∃ c', s.cancellations.find? (fun c' ↦ c'.id = c.id) = some c' :=
          Option.isSome_iff_exists.mp (List.find?_isSome.mpr ⟨c, hc, decide_eq_true rfl⟩)
        have hc' := List.mem_of_find?_eq_some hfind
        obtain rfl : c' = c := List.inj_on_of_nodup_map hs.nodup_cancellations hc' hc
          (by simpa using List.find?_some hfind)
        refine ⟨.cancelGoesOn c'.id, ?_⟩
        rw [due, hfind, Option.any_some, decide_eq_true_eq, hoperation, Option.any_some]
        exact ⟨rfl, hover⟩
      · refine ⟨.stopGoesOn c.operation true, ?_⟩
        rw [due, hoperation, Option.any_some, Bool.true_and, decide_eq_true_eq]
        exact ⟨Bool.eq_false_iff.mpr hover, c, hc, rfl, rfl⟩

/-- **Every request settles.** After every history the request is settled, or its next step is due
and fewer than four such steps have been taken, whatever else has happened between them. -/
theorem settled_or_due {id : ℕ} (hs : s.Accounted) (hpos : 1 ≤ id) (hid : id < s.nextId)
    (later : List RpcInput) :
    id ∈ (later.foldl (step R O) s).settlements.map Prod.fst ∨
      (∃ i, (later.foldl (step R O) s).due id i = true) ∧
        dueSteps (step R O) (fun s ↦ s.due id) s later < 4 := by
  have hkeeps : ∀ (s : JsonLineRpcClient) (i : RpcInput), s.Accounted ∧ id < s.nextId →
      (step R O s i).Accounted ∧ id < (step R O s i).nextId := fun s i hs ↦
    ⟨(step_advances i).accounted hs.1, Nat.lt_of_lt_of_le hs.2 (step_advances i).nextId⟩
  obtain ⟨hend, hlt⟩ : (later.foldl (step R O) s).Accounted ∧
      id < (later.foldl (step R O) s).nextId :=
    List.foldlRecOn later (step R O) ⟨hs, hid⟩ fun s hs i _ ↦ hkeeps s i hs
  by_cases hopen : id ∈ (later.foldl (step R O) s).settlements.map Prod.fst
  · exact Or.inl hopen
  refine Or.inr ⟨exists_due hend hpos hlt hopen, Nat.lt_of_not_le fun hfour ↦ hopen ?_⟩
  have hzero : Within id (later.foldl (step R O) s) 0 :=
    within_of_dueSteps (p := fun s ↦ s.Accounted ∧ id < s.nextId) hkeeps
      (fun s i k hs h ↦ h.advances hs.1 hs.2 (step_advances i))
      (fun s i k hs hdue h ↦ within_of_due hs.1 hs.2 hdue h) later s 4 ⟨hs, hid⟩ hfour
      (within_four id)
  rcases List.mem_append.mp (hend.mem_places.mpr ⟨hpos, hlt⟩).1 with hplace | hplace
  · exact hplace
  · rcases List.mem_append.mp hplace with hplace | hplace
    · exact absurd (hzero.pending hplace) (by decide)
    · obtain ⟨c, hc, hcid⟩ := List.mem_map.mp hplace
      exact absurd ((one_le_remaining c.operation).trans (hzero.cancelled c hc hcid)) (by decide)

end JsonLineRpcClient

end LiteHarness.ProcessRpc
