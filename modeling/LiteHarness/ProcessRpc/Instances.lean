import LiteHarness.ProcessRpc.Settling

/-!
# One process instance after another

What one process instance does should reach its own requests only. Every request settles once in
every history (`settled_or_due`), but the callbacks of an instance work on what all instances share:
`exit`, `error` and the end of a stop remove whichever home is current and reject whatever is
pending, output that is left over is read as the output of the next instance, and a stop that fails
leaves the `#stopping` flag behind. So the rest holds of the histories in which an instance is
started only when nothing of the one before is left (`rpcSound_of_orderly`).
-/

namespace LiteHarness.ProcessRpc

open Foundation

namespace JsonLineRpcClient

variable (R : RpcHost) (O : RpcOptions) (s : JsonLineRpcClient)

/-! ## The property -/

/-- The line is a response to the request, with this result. -/
def Answers (id : ℕ) (result : JsValue) (line : JsString) : Prop :=
  ∃ message n, R.parse line = some message ∧ property message "id" = .number n ∧
    n.rat? = some (id : ℚ) ∧
    (hasProperty message "result" = true ∨ hasProperty message "error" = true) ∧
    isTruthy (property message "error") = false ∧ property message "result" = result

/-- A stop of the instance is under way. -/
def Stopping (n : ℕ) : Prop :=
  ∃ operation ∈ s.operations, operation.child = some n ∧ operation.stage.over = false

structure RpcSound : Prop where
  /-- A request settles at most once. -/
  once : (s.settlements.map Prod.fst).Nodup
  /-- A request settles: after any further steps it has, or its next step is due and fewer than
  four such steps have been taken. -/
  settles : ∀ id, 1 ≤ id → id < s.nextId → ∀ later : List RpcInput,
    id ∈ (later.foldl (step R O) s).settlements.map Prod.fst ∨
      (∃ i, (later.foldl (step R O) s).due id i = true) ∧
        dueSteps (step R O) (fun s ↦ s.due id) s later < 4
  /-- What a request resolves with is the result of a response to it, on a line that was written by
  the instance the request was sent to. -/
  own : ∀ id result line, (id, Settlement.resolved result line) ∈ s.settlements →
    Answers R id result (unitsOf line) ∧ ∃ n, (id, n) ∈ s.sent ∧ ∀ w ∈ line, w.2 = n
  /-- A request is not rejected because an earlier instance was stopped or has exited. -/
  spared : ∀ id error m, (id, Settlement.rejected error (some m)) ∈ s.settlements →
    ∀ n, (id, n) ∈ s.sent → ¬m < n
  /-- The home of an instance is not removed because an earlier one was stopped or has exited. -/
  homes : ∀ home m, (home, m) ∈ s.released → ¬m < home
  /-- No request stays pending on an instance that has ended, once no stop of the instance is under
  way. -/
  stranded : ∀ id ∈ s.pending, ∀ n, (id, n) ∈ s.sent → s.Ended n → s.Stopping n

/-! ## The condition -/

/-- Nothing of an earlier instance is left: no stop is under way, and no output. -/
def Cleared : Prop := (∀ operation ∈ s.operations, operation.stage.over = true) ∧ s.stdout = []

instance : Decidable s.Cleared := inferInstanceAs (Decidable ((∀ _ ∈ s.operations, _) ∧ _))

/-- The instance is the last one. -/
def Latest (n : ℕ) : Prop := n + 1 = s.instances.length

instance (n : ℕ) : Decidable (s.Latest n) := inferInstanceAs (Decidable (_ = _))

/-- An instance is started only when nothing of an earlier one is left, no event comes from an
earlier one, and no exit is taken for the end of a stop that is no longer under way while requests
are pending. -/
def Orderly : RpcInput → Prop
  | .start => s.running = true ∨ s.Cleared
  | .notify => s.running = true ∨ s.Cleared
  | .request call => call.aborted = true ∨ s.running = true ∨ s.Cleared
  | .exited n _ _ => s.Latest n ∧ (s.stopping = true → s.pending = [] ∨
      ∃ operation ∈ s.operations, operation.stage.over = false)
  | .errored n _ _ => s.Latest n
  | .data n _ => s.Latest n
  | _ => True

instance : DecidablePred s.Orderly
  | .start => inferInstanceAs (Decidable (_ ∨ _))
  | .notify => inferInstanceAs (Decidable (_ ∨ _))
  | .request _ => inferInstanceAs (Decidable (_ ∨ _ ∨ _))
  | .exited _ _ _ => inferInstanceAs (Decidable (_ ∧ (_ → _ ∨ ∃ _ ∈ s.operations, _)))
  | .errored _ _ _ => inferInstanceAs (Decidable (_ = _))
  | .data _ _ => inferInstanceAs (Decidable (_ = _))
  | .stop => inferInstanceAs (Decidable True)
  | .cancel _ _ => inferInstanceAs (Decidable True)
  | .stopGoesOn _ _ => inferInstanceAs (Decidable True)
  | .stopSettled _ => inferInstanceAs (Decidable True)
  | .cancelGoesOn _ => inferInstanceAs (Decidable True)
  | .line => inferInstanceAs (Decidable True)
  | .unwritable _ => inferInstanceAs (Decidable True)

/-! ## The invariant -/

/-- All that the client shares between instances is about the last one. -/
structure Tidy (R : RpcHost) (s : JsonLineRpcClient) : Prop where
  child : ∀ n, s.child = some n → s.Latest n
  cleanup : ∀ n, s.cleanupEnvironment = some n → s.Latest n
  operations : ∀ operation ∈ s.operations, operation.stage.over = false →
    ∃ n, operation.child = some n ∧ s.Latest n
  stdout : ∀ w ∈ s.stdout, s.Latest w.2
  pending : ∀ id ∈ s.pending, ∃ n, s.Latest n ∧ (id, n) ∈ s.sent
  sent : (s.sent.map Prod.fst).Nodup
  sentIds : ∀ q ∈ s.sent, q.1 < s.nextId
  writable : ∀ c ∈ s.instances, Instance.status c ≠ none → Instance.writable c = false
  own : ∀ id result line, (id, Settlement.resolved result line) ∈ s.settlements →
    Answers R id result (unitsOf line) ∧ ∃ n, (id, n) ∈ s.sent ∧ ∀ w ∈ line, w.2 = n
  spared : ∀ id error m, (id, Settlement.rejected error (some m)) ∈ s.settlements →
    ∀ n, (id, n) ∈ s.sent → n = m
  homes : ∀ home m, (home, m) ∈ s.released → home = m

/-- When the last instance has ended, nothing is pending that no stop will reject. -/
structure Quiet (s : JsonLineRpcClient) : Prop where
  idle : s.child = none → ∀ n, s.Latest n → s.Ended n
  pending : ∀ n, s.Latest n → s.Ended n → s.pending = [] ∨ s.Stopping n

variable {R O} {s t : JsonLineRpcClient}

theorem latest_inj {m n : ℕ} (hm : s.Latest m) (hn : s.Latest n) : m = n :=
  Nat.succ_injective (hm.trans hn.symm)

theorem tidy_init : Tidy R {} where
  child := nofun
  cleanup := nofun
  operations := nofun
  stdout := nofun
  pending := nofun
  sent := List.nodup_nil
  sentIds := nofun
  writable := nofun
  own := nofun
  spared := nofun
  homes := nofun

theorem quiet_init : Quiet {} := ⟨fun _ n h ↦ absurd h (Nat.succ_ne_zero n), fun _ _ _ ↦ Or.inl rfl⟩

theorem Tidy.sent_unique (h : Tidy R s) {id m n : ℕ} (hm : (id, m) ∈ s.sent)
    (hn : (id, n) ∈ s.sent) : m = n :=
  congrArg Prod.snd (List.inj_on_of_nodup_map h.sent hm hn rfl)

/-! ## What keeps the shared state tidy -/

/-- The state of an instance changes; none that has ended can be written to. -/
theorem Tidy.modify (h : Tidy R s) {n : ℕ} {f : Instance → Instance}
    (hf : ∀ c, (f c).writable = false) :
    Tidy R { s with instances := s.instances.modify n f } := by
  have hlatest : ∀ m, s.Latest m → Latest { s with instances := s.instances.modify n f } m :=
    fun m hm ↦ hm.trans (List.length_modify _ _ _).symm
  refine ⟨fun m hm ↦ hlatest m (h.child m hm), fun m hm ↦ hlatest m (h.cleanup m hm), ?_,
    fun w hw ↦ hlatest w.2 (h.stdout w hw), ?_, h.sent, h.sentIds, ?_, h.own, h.spared, h.homes⟩
  · intro operation hmem hover
    obtain ⟨m, hchild, hm⟩ := h.operations operation hmem hover
    exact ⟨m, hchild, hlatest m hm⟩
  · intro id hid
    obtain ⟨m, hm, hsent⟩ := h.pending id hid
    exact ⟨m, hlatest m hm, hsent⟩
  · intro c hc hstatus
    obtain ⟨m, hm⟩ := List.mem_iff_getElem?.mp hc
    rw [List.getElem?_modify] at hm
    obtain ⟨c', hc', rfl⟩ := Option.map_eq_some_iff.mp hm
    split_ifs at hstatus ⊢ with hn
    · exact hf c'
    · exact h.writable c' (List.mem_of_getElem? hc') hstatus

theorem Tidy.setChild (h : Tidy R s) (child : Option ℕ)
    (hchild : ∀ n, child = some n → s.Latest n) : Tidy R { s with child := child } :=
  ⟨hchild, h.cleanup, h.operations, h.stdout, h.pending, h.sent, h.sentIds, h.writable, h.own,
    h.spared, h.homes⟩

theorem Tidy.releaseEnvironment (h : Tidy R s) {n : ℕ} (hn : s.Latest n) :
    Tidy R (s.releaseEnvironment O n) := by
  refine ⟨h.child, nofun, h.operations, h.stdout, h.pending, h.sent, h.sentIds, h.writable, h.own,
    h.spared, fun home m hmem ↦ ?_⟩
  rcases List.mem_append.mp hmem with hmem | hmem
  · exact h.homes home m hmem
  · split_ifs at hmem
    · exact absurd hmem List.not_mem_nil
    · obtain ⟨home', hhome, heq⟩ := List.mem_map.mp hmem
      obtain ⟨rfl, rfl⟩ := Prod.mk.inj heq
      exact latest_inj (h.cleanup home' (Option.mem_toList.mp hhome)) hn

/-- Requests leave the table, and settle. -/
theorem Tidy.conclude (h : Tidy R s) {pending : List ℕ} {l : List (ℕ × Settlement)}
    (hpending : ∀ id ∈ pending, id ∈ s.pending)
    (hown : ∀ id result line, (id, Settlement.resolved result line) ∈ l →
      Answers R id result (unitsOf line) ∧ ∃ n, (id, n) ∈ s.sent ∧ ∀ w ∈ line, w.2 = n)
    (hspared : ∀ id error m, (id, Settlement.rejected error (some m)) ∈ l →
      ∀ n, (id, n) ∈ s.sent → n = m) :
    Tidy R { s with pending := pending, settlements := s.settlements ++ l } := by
  refine ⟨h.child, h.cleanup, h.operations, h.stdout, fun id hid ↦ h.pending id (hpending id hid),
    h.sent, h.sentIds, h.writable, ?_, ?_, h.homes⟩
  · intro id result line hmem
    exact (List.mem_append.mp hmem).elim (h.own id result line) (hown id result line)
  · intro id error m hmem
    exact (List.mem_append.mp hmem).elim (h.spared id error m) (hspared id error m)

theorem Tidy.fail (h : Tidy R s) (error : RpcFailure) {dueTo : Option ℕ}
    (hdueTo : ∀ m, dueTo = some m → s.Latest m) : Tidy R (s.fail error dueTo) := by
  refine h.conclude (fun _ ↦ nofun) ?_ ?_
  · intro id result line hmem
    obtain ⟨id', -, heq⟩ := List.mem_map.mp hmem
    exact absurd (Prod.mk.inj heq).2 nofun
  · intro id error' m hmem n hsent
    obtain ⟨id', hid', heq⟩ := List.mem_map.mp hmem
    obtain ⟨rfl, hvalue⟩ := Prod.mk.inj heq
    obtain ⟨m', hm', hsent'⟩ := h.pending id' hid'
    rw [h.sent_unique hsent hsent']
    exact latest_inj hm' (hdueTo m (Settlement.rejected.inj hvalue).2)

/-- One request settles: with a rejection that no instance is to blame for, or with a response. -/
theorem Tidy.settle (h : Tidy R s) {id : ℕ} {value : Settlement}
    (hvalue : (∃ error, value = .rejected error none) ∨ ∃ result line,
      value = .resolved result line ∧ Answers R id result (unitsOf line) ∧
        ∀ w ∈ line, s.Latest w.2) : Tidy R (s.settle id value) := by
  unfold JsonLineRpcClient.settle
  split_ifs with hid
  swap
  · exact h
  refine h.conclude (fun _ ↦ List.mem_of_mem_filter) ?_ ?_
  · intro id' result line hmem
    obtain ⟨rfl, rfl⟩ := Prod.mk.inj (List.mem_singleton.mp hmem)
    obtain ⟨error, herror⟩ | ⟨result', line', heq, hanswers, hline⟩ := hvalue
    · exact absurd herror nofun
    · obtain ⟨rfl, rfl⟩ := Settlement.resolved.inj heq
      obtain ⟨n, hn, hsent⟩ := h.pending id' hid
      exact ⟨hanswers, n, hsent, fun w hw ↦ latest_inj (hline w hw) hn⟩
  · intro id' error m hmem
    obtain ⟨rfl, rfl⟩ := Prod.mk.inj (List.mem_singleton.mp hmem)
    obtain ⟨error', heq⟩ | ⟨result', line', heq, -⟩ := hvalue
    · exact absurd (Settlement.rejected.inj heq).2 (Option.some_ne_none m)
    · exact absurd heq nofun

theorem Tidy.stop (h : Tidy R s) : Tidy R s.stop.1 := by
  obtain heq | ⟨hchild, heq⟩ | ⟨n, hchild, heq⟩ := stop_cases s
  · rw [heq]
    exact h
  · rw [heq]
    refine ⟨h.child, h.cleanup, ?_, h.stdout, h.pending, h.sent, h.sentIds, h.writable, h.own,
      h.spared, h.homes⟩
    intro operation hmem hover
    rcases List.mem_append.mp hmem with hmem | hmem
    · exact h.operations operation hmem hover
    · rw [List.mem_singleton.mp hmem] at hover
      exact absurd hover (by decide)
  · rw [heq]
    have h' := h.modify (n := n) (f := fun c ↦ { c with writable := false }) fun _ ↦ rfl
    refine ⟨h'.child, h'.cleanup, ?_, h'.stdout, h'.pending, h'.sent, h'.sentIds, h'.writable,
      h'.own, h'.spared, h'.homes⟩
    intro operation hmem hover
    rcases List.mem_append.mp hmem with hmem | hmem
    · exact h'.operations operation hmem hover
    · rw [List.mem_singleton.mp hmem]
      exact ⟨n, rfl, h'.child n hchild⟩

/-- A stop moves on. -/
theorem Tidy.setStage (h : Tidy R s) {number : ℕ} {operation : StopOperation} {stage : StopStage}
    (hoperation : s.operations[number]? = some operation)
    (hover : stage.over = false → operation.stage.over = false) :
    Tidy R (s.setStage number stage) := by
  refine ⟨h.child, h.cleanup, ?_, h.stdout, h.pending, h.sent, h.sentIds, h.writable, h.own,
    h.spared, h.homes⟩
  intro operation' hmem hover'
  obtain ⟨other, hother⟩ := List.mem_iff_getElem?.mp hmem
  rw [setStage_operation] at hother
  split_ifs at hother with heq
  · obtain rfl := heq
    rw [hoperation] at hother
    obtain rfl := Option.some.inj hother
    exact h.operations operation (List.mem_of_getElem? hoperation) (hover hover')
  · exact h.operations operation' (List.mem_of_getElem? hother) hover'

theorem Tidy.cancelAndStop (h : Tidy R s) (id : ℕ) (error : RpcFailure) :
    Tidy R (s.cancelAndStop id error) := by
  by_cases hid : id ∈ s.pending
  · rw [cancelAndStop_eq error hid]
    exact ⟨h.stop.child, h.stop.cleanup, h.stop.operations, h.stop.stdout,
      fun id' hid' ↦ h.stop.pending id' (List.mem_of_mem_filter hid'), h.stop.sent, h.stop.sentIds,
      h.stop.writable, h.stop.own, h.stop.spared, h.stop.homes⟩
  · rw [JsonLineRpcClient.cancelAndStop, if_neg hid]
    exact h

theorem Tidy.finishStop (h : Tidy R s) {number n : ℕ} {stage : StopStage} (hn : s.Latest n)
    (hoperation : s.operations[number]? = some ⟨some n, stage⟩) :
    Tidy R (s.finishStop O number n) := by
  have hchild := h.setChild (if s.child = some n then none else s.child) (by
    intro m hm
    split_ifs at hm
    exact h.child m hm)
  have hreleased := hchild.releaseEnvironment (O := O) (n := n) hn
  have hdueTo : ∀ m, some n = some m → s.Latest m := fun m hm ↦ Option.some.inj hm ▸ hn
  have hfailed := hreleased.fail
    (.process ⟨js "process_stopped", js "RPC process stopped", .undefined⟩) hdueTo
  exact hfailed.setStage hoperation fun hover ↦ absurd hover (by decide)

theorem Tidy.stopGoesOn (h : Tidy R s) (number : ℕ) (timedOut : Bool) :
    Tidy R (s.stopGoesOn O number timedOut) := by
  unfold JsonLineRpcClient.stopGoesOn
  split
  swap
  · exact h
  rename_i n stage hoperation
  split_ifs with hover hended htimedOut hwaits
  · exact h
  · obtain ⟨n', hchild, hn⟩ := h.operations _ (List.mem_of_getElem? hoperation)
      (Bool.eq_false_iff.mpr hover)
    obtain rfl := Option.some.inj hchild
    exact h.finishStop hn hoperation
  · exact h.setStage hoperation fun _ ↦ Bool.eq_false_iff.mpr hover
  · exact h.setStage hoperation fun hnot ↦ absurd hnot (by decide)
  · exact h

theorem Tidy.stopSettled (h : Tidy R s) (number : ℕ) : Tidy R (s.stopSettled number) := by
  unfold JsonLineRpcClient.stopSettled
  split
  · split_ifs
    · exact ⟨h.child, h.cleanup, h.operations, h.stdout, h.pending, h.sent, h.sentIds, h.writable,
        h.own, h.spared, h.homes⟩
    · exact h
  · exact h

theorem Tidy.cancelGoesOn (h : Tidy R s) (id : ℕ) : Tidy R (s.cancelGoesOn id) := by
  unfold JsonLineRpcClient.cancelGoesOn
  split
  swap
  · exact h
  rename_i c hc
  split
  swap
  · exact h
  rename_i operation hoperation
  split_ifs
  swap
  · exact h
  refine ⟨h.child, h.cleanup, h.operations, h.stdout, h.pending, h.sent, h.sentIds, h.writable, ?_,
    ?_, h.homes⟩
  · intro id' result line hmem
    rcases List.mem_append.mp hmem with hmem | hmem
    · exact h.own id' result line hmem
    · exact absurd (Prod.mk.inj (List.mem_singleton.mp hmem)).2 nofun
  · intro id' error m hmem
    rcases List.mem_append.mp hmem with hmem | hmem
    · exact h.spared id' error m hmem
    · exact absurd (Settlement.rejected.inj (Prod.mk.inj (List.mem_singleton.mp hmem)).2).2
        (Option.some_ne_none m)

/-! ## Starting an instance -/

theorem ended_of_exitCode {n : ℕ} (h : s.hasExitCode n = true) : s.Ended n := by
  obtain ⟨c, hc, hcode⟩ := (Option.any_eq_true _ _).mp h
  refine ⟨c, hc, ?_⟩
  rcases c with ⟨status, writable⟩
  cases status with
  | none => exact absurd hcode (by simp [Instance.exitCode])
  | some status => rfl

/-- The last instance has ended when another one is started. -/
theorem Quiet.ended_of_not_running (hq : Quiet s) (h : Tidy R s) (hrunning : s.running = false)
    {n : ℕ} (hn : s.Latest n) : s.Ended n := by
  cases hchild : s.child with
  | none => exact hq.idle hchild n hn
  | some m =>
    rw [running, hchild, Option.any_some, Bool.not_eq_false'] at hrunning
    obtain rfl := latest_inj (h.child m hchild) hn
    exact ended_of_exitCode hrunning

/-- No request is pending when another instance is started in order. -/
theorem Quiet.nothing_pending (hq : Quiet s) (h : Tidy R s) (hrunning : s.running = false)
    (hclear : s.Cleared) : s.pending = [] := by
  refine List.eq_nil_iff_forall_not_mem.mpr fun id hid ↦ ?_
  obtain ⟨n, hn, -⟩ := h.pending id hid
  rcases hq.pending n hn (hq.ended_of_not_running h hrunning hn) with hnil | hstopping
  · rw [hnil] at hid
    exact List.not_mem_nil hid
  · obtain ⟨operation, hmem, -, hover⟩ := hstopping
    rw [hclear.1 operation hmem] at hover
    exact Bool.noConfusion hover

/-- An instance is started in order. -/
theorem start_tidy (h : Tidy R s) (hq : Quiet s) (hordered : s.running = true ∨ s.Cleared) :
    Tidy R s.start ∧ Quiet s.start := by
  unfold start
  split_ifs with hrunning
  · exact ⟨h, hq⟩
  have hclear := hordered.resolve_left hrunning
  have hnil := hq.nothing_pending h (Bool.eq_false_iff.mpr hrunning) hclear
  have hlength : (s.instances ++ [({} : Instance)]).length = s.instances.length + 1 := by
    rw [List.length_append, List.length_singleton]
  constructor
  · refine ⟨?_, ?_, ?_, ?_, ?_, h.sent, h.sentIds, ?_, h.own, h.spared, h.homes⟩
    · rintro n hn
      obtain rfl := Option.some.inj hn
      exact hlength.symm
    · rintro n hn
      obtain rfl := Option.some.inj hn
      exact hlength.symm
    · intro operation hmem hover
      rw [hclear.1 operation hmem] at hover
      exact Bool.noConfusion hover
    · rw [hclear.2]
      nofun
    · rw [hnil]
      nofun
    · intro c hc hstatus
      rcases List.mem_append.mp hc with hc | hc
      · exact h.writable c hc hstatus
      · rw [List.mem_singleton.mp hc] at hstatus
        exact absurd rfl hstatus
  · refine ⟨fun hnone ↦ absurd hnone (Option.some_ne_none _), fun n _ _ ↦ Or.inl hnil⟩

/-! ## What keeps the last instance accounted for -/

/-- A step that starts no instance, and lets none of the pending requests stay. -/
theorem Quiet.mono (hq : Quiet s) (hchild : t.child = s.child)
    (hlatest : ∀ n, t.Latest n → s.Latest n) (hended : ∀ n, t.Ended n ↔ s.Ended n)
    (hpending : s.pending = [] → t.pending = []) (hstopping : ∀ n, s.Stopping n → t.Stopping n) :
    Quiet t where
  idle := fun hnone n hn ↦ (hended n).mpr (hq.idle (hchild ▸ hnone) n (hlatest n hn))
  pending := fun n hn hend ↦
    (hq.pending n (hlatest n hn) ((hended n).mp hend)).imp hpending (hstopping n)

/-- A state in which nothing is pending. -/
theorem quiet_of_nil (hidle : s.child = none → ∀ n, s.Latest n → s.Ended n)
    (hnil : s.pending = []) : Quiet s := ⟨hidle, fun _ _ _ ↦ Or.inl hnil⟩

theorem latest_modify {m n : ℕ} {f : Instance → Instance} :
    Latest { s with instances := s.instances.modify m f } n ↔ s.Latest n := by
  rw [Latest, Latest, List.length_modify]

/-- Closing the input of an instance does not end it. -/
theorem ended_modify {m n : ℕ} {f : Instance → Instance}
    (hf : ∀ c, (f c).status.isSome = c.status.isSome) :
    Ended { s with instances := s.instances.modify m f } n ↔ s.Ended n := by
  rw [Ended, Ended, List.getElem?_modify]
  constructor
  · rintro ⟨c, hc, hstatus⟩
    obtain ⟨c', hc', rfl⟩ := Option.map_eq_some_iff.mp hc
    refine ⟨c', hc', ?_⟩
    split_ifs at hstatus with hn
    · exact (hf c').symm.trans hstatus
    · exact hstatus
  · rintro ⟨c, hc, hstatus⟩
    refine ⟨_, Option.map_eq_some_iff.mpr ⟨c, hc, rfl⟩, ?_⟩
    split_ifs with hn
    · exact (hf c).trans hstatus
    · exact hstatus

/-- An instance that ends has ended. -/
theorem ended_modify_self {n : ℕ} {status : ExitStatus} (hn : n < s.instances.length) :
    Ended { s with instances := s.instances.modify n fun _ ↦ ⟨some status, false⟩ } n := by
  refine ⟨⟨some status, false⟩, ?_, rfl⟩
  rw [List.getElem?_modify, List.getElem?_eq_getElem hn]
  exact congrArg some (if_pos rfl)

theorem Quiet.stop (hq : Quiet s) : Quiet s.stop.1 := by
  obtain heq | ⟨-, heq⟩ | ⟨n, -, heq⟩ := stop_cases s
  · rw [heq]
    exact hq
  · rw [heq]
    refine hq.mono rfl (fun _ ↦ id) (fun _ ↦ Iff.rfl) id ?_
    rintro m ⟨operation, hmem, hop⟩
    exact ⟨operation, List.mem_append_left _ hmem, hop⟩
  · rw [heq]
    refine hq.mono rfl (fun m hm ↦ latest_modify.mp hm) (fun m ↦ ended_modify fun _ ↦ rfl) id ?_
    rintro m ⟨operation, hmem, hop⟩
    exact ⟨operation, List.mem_append_left _ hmem, hop⟩

theorem Quiet.fail (hq : Quiet s) (error : RpcFailure) (dueTo : Option ℕ) :
    Quiet (s.fail error dueTo) :=
  quiet_of_nil hq.idle rfl

theorem Quiet.settle (hq : Quiet s) (id : ℕ) (value : Settlement) : Quiet (s.settle id value) := by
  unfold JsonLineRpcClient.settle
  split_ifs
  · refine hq.mono rfl (fun _ h ↦ h) (fun _ ↦ Iff.rfl) (fun hnil ↦ ?_) fun _ h ↦ h
    dsimp only
    rw [hnil, List.filter_nil]
  · exact hq

theorem Quiet.cancelAndStop (hq : Quiet s) (id : ℕ) (error : RpcFailure) :
    Quiet (s.cancelAndStop id error) := by
  by_cases hid : id ∈ s.pending
  · rw [cancelAndStop_eq error hid]
    refine hq.stop.mono rfl (fun _ h ↦ h) (fun _ ↦ Iff.rfl) (fun hnil ↦ ?_) fun _ h ↦ h
    dsimp only
    rw [hnil, List.filter_nil]
  · rw [JsonLineRpcClient.cancelAndStop, if_neg hid]
    exact hq

theorem Quiet.stopGoesOn (hq : Quiet s) (h : Tidy R s) (number : ℕ) (timedOut : Bool) :
    Quiet (s.stopGoesOn O number timedOut) := by
  unfold JsonLineRpcClient.stopGoesOn
  split
  swap
  · exact hq
  rename_i n stage hoperation
  split_ifs with hover hended htimedOut hwaits
  · exact hq
  all_goals
    obtain ⟨n', hchild, hn⟩ := h.operations _ (List.mem_of_getElem? hoperation)
      (Bool.eq_false_iff.mpr hover)
    obtain rfl := Option.some.inj hchild
  · exact quiet_of_nil (fun _ m hm ↦ latest_inj hn hm ▸ hended) rfl
  · refine hq.mono rfl (fun _ h ↦ h) (fun _ ↦ Iff.rfl) (fun h ↦ h) ?_
    rintro m ⟨operation, hmem, hop, hbusy⟩
    obtain ⟨other, hother⟩ := List.mem_iff_getElem?.mp hmem
    by_cases heq : number = other
    · obtain rfl := heq
      obtain rfl := Option.some.inj (hoperation.symm.trans hother)
      refine ⟨⟨some n, .killed⟩, List.mem_of_getElem? (i := number) ?_, hop, rfl⟩
      rw [setStage_operation, if_pos rfl, hoperation]
      rfl
    · refine ⟨operation, List.mem_of_getElem? (i := other) ?_, hop, hbusy⟩
      rw [setStage_operation, if_neg heq, hother]
  · -- The process could not be reaped: it is the last instance, and it has not ended.
    exact ⟨hq.idle, fun m hm hend ↦ absurd (latest_inj hn hm ▸ hend) hended⟩
  · exact hq

theorem Quiet.stopSettled (hq : Quiet s) (number : ℕ) : Quiet (s.stopSettled number) := by
  unfold JsonLineRpcClient.stopSettled
  split
  · split_ifs
    · exact hq.mono rfl (fun _ h ↦ h) (fun _ ↦ Iff.rfl) (fun h ↦ h) fun _ h ↦ h
    · exact hq
  · exact hq

theorem Quiet.cancelGoesOn (hq : Quiet s) (id : ℕ) : Quiet (s.cancelGoesOn id) := by
  unfold JsonLineRpcClient.cancelGoesOn
  split
  swap
  · exact hq
  split
  swap
  · exact hq
  split_ifs
  · exact hq.mono rfl (fun _ h ↦ h) (fun _ ↦ Iff.rfl) (fun h ↦ h) fun _ h ↦ h
  · exact hq

/-! ## Requests -/

/-- A request is written to the child only, and the child has not ended. -/
theorem send_ok {encodes : Except JsString Unit} {n : ℕ} (h : Tidy R s)
    (hsend : s.send encodes = .ok n) : s.Latest n ∧ ¬s.Ended n := by
  unfold send at hsend
  cases hchild : s.child with
  | none =>
    rw [hchild] at hsend
    exact absurd hsend nofun
  | some m =>
    rw [hchild] at hsend
    dsimp only at hsend
    split_ifs at hsend with hopen
    cases encodes with
    | error message => exact absurd hsend nofun
    | ok u =>
      obtain rfl := Except.ok.inj hsend
      refine ⟨h.child m hchild, ?_⟩
      rintro ⟨c, hc, hstatus⟩
      obtain ⟨c', hc', hwritable⟩ := (Option.any_eq_true _ _).mp hopen.2
      obtain rfl := Option.some.inj (hc.symm.trans hc')
      have hclosed := h.writable c (List.mem_of_getElem? hc) (Option.isSome_iff_ne_none.mp hstatus)
      rw [hwritable] at hclosed
      exact Bool.noConfusion hclosed

/-- The request is in the table, and has not been written yet. -/
theorem request_tidy (ha : s.Accounted) (h : Tidy R s) (hq : Quiet s) (call : RequestCall)
    (hordered : call.aborted = true ∨ s.running = true ∨ s.Cleared) :
    Tidy R (s.request call) ∧ Quiet (s.request call) := by
  unfold request
  split_ifs with haborted
  · exact ⟨h, hq⟩
  obtain ⟨ht, hqt⟩ := start_tidy h hq (hordered.resolve_left haborted)
  have hat : s.start.Accounted := start_advances.accounted ha
  generalize s.start = t at ht hqt hat ⊢
  have hcounted : Tidy R { t with nextId := t.nextId + 1 } :=
    ⟨ht.child, ht.cleanup, ht.operations, ht.stdout, ht.pending, ht.sent,
      fun q hq ↦ Nat.lt_succ_of_lt (ht.sentIds q hq), ht.writable, ht.own, ht.spared, ht.homes⟩
  have hqcounted : Quiet { t with nextId := t.nextId + 1 } :=
    hqt.mono rfl (fun _ h ↦ h) (fun _ ↦ Iff.rfl) (fun h ↦ h) fun _ h ↦ h
  have hmem : t.nextId ∈ t.pending ++ [t.nextId] :=
    List.mem_append_right _ (List.mem_singleton_self _)
  have hfilter : ∀ id ∈ (t.pending ++ [t.nextId]).filter (· ≠ t.nextId), id ∈ t.pending := by
    intro id hid
    obtain ⟨hid, hne⟩ := List.mem_filter.mp hid
    exact (List.mem_append.mp hid).resolve_right fun heq ↦
      of_decide_eq_true hne (List.mem_singleton.mp heq)
  have hempty : t.pending = [] → (t.pending ++ [t.nextId]).filter (· ≠ t.nextId) = [] := by
    intro hnil
    rw [hnil]
    simp
  cases call.abortedMeanwhile with
  | some error =>
    dsimp only
    rw [cancelAndStop_eq error hmem, stop_of_pending (s := { t with nextId := t.nextId + 1 })]
    have hstop := hcounted.stop
    refine ⟨⟨hstop.child, hstop.cleanup, hstop.operations, hstop.stdout, fun id hid ↦ ?_,
      hstop.sent, hstop.sentIds, hstop.writable, hstop.own, hstop.spared, hstop.homes⟩, ?_⟩
    · exact hstop.pending id (stop_pending.symm ▸ hfilter id hid)
    · refine hqcounted.stop.mono rfl (fun _ h ↦ h) (fun _ ↦ Iff.rfl) (fun hnil ↦ ?_) fun _ h ↦ h
      rw [stop_pending] at hnil
      exact hempty hnil
  | none =>
    dsimp only
    split
    · rename_i n hsend
      obtain ⟨hn, hopen⟩ := send_ok (s := { t with nextId := t.nextId + 1 }) hcounted hsend
      have hfresh : ∀ m, (t.nextId, m) ∉ t.sent := fun m hsent ↦
        Nat.lt_irrefl _ (ht.sentIds _ hsent)
      refine ⟨⟨ht.child, ht.cleanup, ht.operations, ht.stdout, ?_, ?_, ?_, ht.writable, ?_, ?_,
        ht.homes⟩, hqt.idle, fun m hm hend ↦ absurd (latest_inj hn hm ▸ hend) hopen⟩
      · intro id hid
        rcases List.mem_append.mp hid with hid | hid
        · obtain ⟨m, hm, hsent⟩ := ht.pending id hid
          exact ⟨m, hm, List.mem_append_left _ hsent⟩
        · rw [List.mem_singleton.mp hid]
          exact ⟨n, hn, List.mem_append_right _ (List.mem_singleton_self _)⟩
      · rw [List.map_append, List.nodup_append]
        refine ⟨ht.sent, List.nodup_singleton _, fun id hid id' hid' ↦ ?_⟩
        obtain ⟨q, hsent, rfl⟩ := List.mem_map.mp hid
        rw [List.mem_singleton.mp hid']
        exact Nat.ne_of_lt (ht.sentIds q hsent)
      · intro q hsent
        rcases List.mem_append.mp hsent with hsent | hsent
        · exact Nat.lt_succ_of_lt (ht.sentIds q hsent)
        · rw [List.mem_singleton.mp hsent]
          exact Nat.lt_succ_self _
      · intro id result line hresolved
        obtain ⟨hanswers, m, hsent, hline⟩ := ht.own id result line hresolved
        exact ⟨hanswers, m, List.mem_append_left _ hsent, hline⟩
      · intro id error m hrejected m' hsent
        rcases List.mem_append.mp hsent with hsent | hsent
        · exact ht.spared id error m hrejected m' hsent
        · -- The new request has not settled yet.
          obtain ⟨rfl, -⟩ := Prod.mk.inj (List.mem_singleton.mp hsent)
          exact absurd (hat.lt_nextId (List.mem_append_left _ (List.mem_map_of_mem hrejected)))
            (Nat.lt_irrefl _)
    · rename_i error hsend
      rw [JsonLineRpcClient.settle, if_pos hmem]
      refine ⟨hcounted.conclude hfilter ?_ ?_, ?_⟩
      · intro id result line hresolved
        exact absurd (Prod.mk.inj (List.mem_singleton.mp hresolved)).2 nofun
      · intro id error' m hrejected
        exact absurd
          (Settlement.rejected.inj (Prod.mk.inj (List.mem_singleton.mp hrejected)).2).2
          (Option.some_ne_none m)
      · exact hqt.mono rfl (fun _ h ↦ h) (fun _ ↦ Iff.rfl) hempty fun _ h ↦ h

/-! ## Events of the last instance -/

theorem errored_tidy (h : Tidy R s) (hq : Quiet s) {n : ℕ} (hn : s.Latest n) (halive : s.Alive n)
    (exitCode : Option ℤ) (message : JsString) :
    Tidy R (s.errored O n exitCode message) ∧ Quiet (s.errored O n exitCode message) := by
  have hdueTo : ∀ m, some n = some m → s.Latest m := fun m hm ↦ Option.some.inj hm ▸ hn
  cases exitCode with
  | none =>
    exact ⟨(h.releaseEnvironment hn).fail _ hdueTo, quiet_of_nil hq.idle rfl⟩
  | some code =>
    have hstatus := h.modify (n := n) (f := fun _ ↦ ⟨some (.code code), false⟩) fun _ ↦ rfl
    have hlast := latest_modify (m := n) (f := fun _ ↦ ⟨some (.code code), false⟩).mpr hn
    refine ⟨(hstatus.releaseEnvironment hlast).fail _ fun m hm ↦ Option.some.inj hm ▸ hlast,
      quiet_of_nil (fun _ m hm ↦ ?_) rfl⟩
    obtain rfl := latest_inj (latest_modify.mp hm) hn
    exact ended_modify_self halive.1

theorem exited_tidy (h : Tidy R s) {n : ℕ} (hn : s.Latest n) (halive : s.Alive n)
    (hexpected : s.stopping = true → s.pending = [] ∨
      ∃ operation ∈ s.operations, operation.stage.over = false)
    (status : ExitStatus) (stderr : Option JsString) :
    Tidy R (s.exited O n status stderr) ∧ Quiet (s.exited O n status stderr) := by
  have hstatus := h.modify (n := n) (f := fun _ ↦ ⟨some status, false⟩) fun _ ↦ rfl
  have hlast := latest_modify (m := n) (f := fun _ ↦ ⟨some status, false⟩).mpr hn
  have hreleased := (hstatus.setChild none nofun).releaseEnvironment (O := O) hlast
  have hended : ∀ m, Latest { s with
      instances := s.instances.modify n fun _ ↦ ⟨some status, false⟩ } m →
      Ended { s with instances := s.instances.modify n fun _ ↦ ⟨some status, false⟩ } m := by
    intro m hm
    obtain rfl := latest_inj (latest_modify.mp hm) hn
    exact ended_modify_self halive.1
  unfold exited
  dsimp only
  split_ifs with hstopping
  · refine ⟨hreleased, fun _ ↦ hended, fun m hm _ ↦ (hexpected hstopping).imp id ?_⟩
    rintro ⟨operation, hmem, hover⟩
    obtain ⟨m', hchild, hm'⟩ := h.operations operation hmem hover
    exact ⟨operation, hmem, hchild.trans (congrArg some (latest_inj hm' (latest_modify.mp hm))),
      hover⟩
  · exact ⟨hreleased.fail _ fun m hm ↦ Option.some.inj hm ▸ hlast, quiet_of_nil (fun _ ↦ hended) rfl⟩

/-! ## Output of the last instance -/

theorem tooLarge_tidy (h : Tidy R s) (hq : Quiet s) (message : String) :
    Tidy R (s.tooLarge message) ∧ Quiet (s.tooLarge message) :=
  ⟨(h.fail _ fun _ hm ↦ absurd hm.symm (Option.some_ne_none _)).stop, (hq.fail _ _).stop⟩

theorem acceptStdout_tidy (h : Tidy R s) (hq : Quiet s) {n : ℕ} (hn : s.Latest n)
    (chunk : JsString) :
    Tidy R (s.acceptStdout O n chunk) ∧ Quiet (s.acceptStdout O n chunk) := by
  have hread : Tidy R { s with stdout := s.stdout ++ chunk.map fun u ↦ (u, n) } := by
    refine ⟨h.child, h.cleanup, h.operations, fun w hw ↦ ?_, h.pending, h.sent, h.sentIds,
      h.writable, h.own, h.spared, h.homes⟩
    rcases List.mem_append.mp hw with hw | hw
    · exact h.stdout w hw
    · obtain ⟨u, -, rfl⟩ := List.mem_map.mp hw
      exact hn
  have hqread : Quiet { s with stdout := s.stdout ++ chunk.map fun u ↦ (u, n) } :=
    hq.mono rfl (fun _ h ↦ h) (fun _ ↦ Iff.rfl) (fun h ↦ h) fun _ h ↦ h
  unfold acceptStdout
  dsimp only
  split_ifs
  · exact tooLarge_tidy hread hqread _
  · exact ⟨hread, hqread⟩

/-- The line and the rest are parts of the output. -/
theorem mem_of_nextLine {stdout complete rest : List Written}
    (h : nextLine? stdout = some (complete, rest)) :
    (∀ w ∈ complete, w ∈ stdout) ∧ ∀ w ∈ rest, w ∈ stdout := by
  unfold nextLine? at h
  split at h
  · exact absurd h nofun
  · rename_i _ w tail heq
    obtain ⟨rfl, rfl⟩ := Prod.mk.inj (Option.some.inj h)
    refine ⟨fun w hw ↦ (List.takeWhile_prefix inLine).subset hw, fun w' hw ↦ ?_⟩
    have hsub : w' ∈ stdout.dropWhile inLine := heq ▸ List.mem_cons_of_mem _ hw
    exact (List.dropWhile_suffix inLine).subset hsub

theorem mem_of_withoutReturn {line : List Written} {w : Written} (h : w ∈ withoutReturn line) :
    w ∈ line := by
  unfold withoutReturn at h
  split_ifs at h
  · exact List.dropLast_subset line h
  · exact h

/-- A message that answers a pending request is a response with its identifier. -/
theorem answered_spec {message : JsValue} {id : ℕ} (h : s.answered? message = some id) :
    ∃ n, property message "id" = .number n ∧ n.rat? = some (id : ℚ) ∧
      (hasProperty message "result" = true ∨ hasProperty message "error" = true) := by
  unfold answered? at h
  split at h
  · rename_i n hid
    split_ifs at h with hkind
    exact ⟨n, hid, by simpa using List.find?_some h, hkind⟩
  · exact absurd h nofun

theorem acceptMessage_tidy (h : Tidy R s) (hq : Quiet s) {line : List Written}
    (hline : ∀ w ∈ line, s.Latest w.2) :
    Tidy R (s.acceptMessage R line) ∧ Quiet (s.acceptMessage R line) := by
  unfold acceptMessage
  split
  · exact ⟨(h.fail _ fun _ hm ↦ absurd hm.symm (Option.some_ne_none _)).stop, (hq.fail _ _).stop⟩
  · rename_i message hparse
    split
    · exact ⟨h, hq⟩
    · rename_i id hanswered
      obtain ⟨n, hid, hn, hkind⟩ := answered_spec hanswered
      dsimp only
      split_ifs with herror
      · exact ⟨h.settle (Or.inl ⟨_, rfl⟩), hq.settle _ _⟩
      · refine ⟨h.settle (Or.inr ⟨_, _, rfl, ?_, hline⟩), hq.settle _ _⟩
        exact ⟨message, n, hparse, hid, hn, hkind, Bool.eq_false_iff.mpr herror, rfl⟩

theorem acceptLine_tidy (h : Tidy R s) (hq : Quiet s) :
    Tidy R (s.acceptLine R O) ∧ Quiet (s.acceptLine R O) := by
  unfold acceptLine
  split
  · rename_i complete rest hnext
    obtain ⟨hcomplete, hrest⟩ := mem_of_nextLine hnext
    have hread : Tidy R { s with stdout := rest } :=
      ⟨h.child, h.cleanup, h.operations, fun w hw ↦ h.stdout w (hrest w hw), h.pending, h.sent,
        h.sentIds, h.writable, h.own, h.spared, h.homes⟩
    have hqread : Quiet { s with stdout := rest } :=
      hq.mono rfl (fun _ h ↦ h) (fun _ ↦ Iff.rfl) (fun h ↦ h) fun _ h ↦ h
    dsimp only
    split_ifs
    · exact tooLarge_tidy hread hqread _
    · exact ⟨hread, hqread⟩
    · exact acceptMessage_tidy hread hqread fun w hw ↦
        h.stdout w (hcomplete w (mem_of_withoutReturn hw))
  · split_ifs
    · exact tooLarge_tidy h hq _
    · exact ⟨h, hq⟩

/-! ## Orderly histories -/

/-- One orderly step. -/
theorem step_tidy (ha : s.Accounted) (h : Tidy R s) (hq : Quiet s) {i : RpcInput}
    (hordered : s.Orderly i) : Tidy R (step R O s i) ∧ Quiet (step R O s i) := by
  cases i with
  | start => exact start_tidy h hq hordered
  | notify => exact start_tidy h hq hordered
  | request call => exact request_tidy ha h hq call hordered
  | stop => exact ⟨h.stop, hq.stop⟩
  | cancel id error => exact ⟨h.cancelAndStop id error, hq.cancelAndStop id error⟩
  | stopGoesOn number timedOut => exact ⟨h.stopGoesOn number timedOut, hq.stopGoesOn h _ _⟩
  | stopSettled number => exact ⟨h.stopSettled number, hq.stopSettled number⟩
  | cancelGoesOn id => exact ⟨h.cancelGoesOn id, hq.cancelGoesOn id⟩
  | exited n status stderr =>
    dsimp only [step]
    split_ifs with halive
    · exact exited_tidy h hordered.1 halive hordered.2 status stderr
    · exact ⟨h, hq⟩
  | errored n exitCode message =>
    dsimp only [step]
    split_ifs with halive
    · exact errored_tidy h hq hordered halive exitCode message
    · exact ⟨h, hq⟩
  | data n chunk =>
    dsimp only [step]
    split_ifs
    · exact acceptStdout_tidy h hq hordered chunk
    · exact ⟨h, hq⟩
  | line => exact acceptLine_tidy h hq
  | unwritable n =>
    exact ⟨h.modify fun _ ↦ rfl, hq.mono rfl (fun _ hm ↦ latest_modify.mp hm)
      (fun _ ↦ ended_modify fun _ ↦ rfl) (fun h ↦ h) fun _ h ↦ h⟩

/-- What a tidy client has promised so far. -/
theorem rpcSound_of_tidy (ha : s.Accounted) (h : Tidy R s) (hq : Quiet s) : RpcSound R O s where
  once := ha.nodup_settled
  settles := fun _ hpos hid later ↦ settled_or_due ha hpos hid later
  own := h.own
  spared := fun id error m hrejected n hsent hlt ↦
    Nat.lt_irrefl m (h.spared id error m hrejected n hsent ▸ hlt)
  homes := fun home m hmem hlt ↦ Nat.lt_irrefl m (h.homes home m hmem ▸ hlt)
  stranded := by
    intro id hid n hsent hend
    obtain ⟨m, hm, hsent'⟩ := h.pending id hid
    obtain rfl := h.sent_unique hsent' hsent
    refine (hq.pending m hm hend).resolve_left fun hnil ↦ ?_
    rw [hnil] at hid
    exact List.not_mem_nil hid

/-- **One instance after another.** In every history in which an instance is started only when
nothing of the one before is left, every request settles once, with an answer of its own instance or
for a reason of its own, no home is removed because of another instance, and no request is left on
an instance that has ended. -/
theorem rpcSound_of_orderly {history : List RpcInput}
    (h : Throughout (step R O) Orderly {} history) : RpcSound R O (after R O history) := by
  obtain ⟨ha, htidy, hquiet⟩ : (after R O history).Accounted ∧ Tidy R (after R O history) ∧
      Quiet (after R O history) :=
    Throughout.induction (p := fun s ↦ s.Accounted ∧ Tidy R s ∧ Quiet s)
      (fun s i hs hi ↦ ⟨(step_advances i).accounted hs.1, step_tidy hs.1 hs.2.1 hs.2.2 hi⟩)
      ⟨accounted_init, tidy_init, quiet_init⟩ h
  exact rpcSound_of_tidy ha htidy hquiet

/-! ## Two histories -/

/-- A response to the first request. -/
def firstResponse : JsString := js "\x7b\"id\":1,\"result\":true\x7d"

/-- `JSON.parse` on the lines of the histories below. -/
def firstPeer : RpcHost where
  parse := fun line ↦ if line = firstResponse then
    some (.object [(js "id", .number (.finite 1)), (js "result", .bool true)]) else none
  text := fun _ ↦ []

/-- A process answers its first request and exits; the next one does not answer, and is stopped
when its request times out. -/
def restarted : List RpcInput :=
  [.request {}, .data 0 (firstResponse ++ [10]), .line, .exited 0 (.code 0) none, .request {},
    .cancel 2 (.thrown (js "timeout")), .exited 1 (.signal (js "SIGTERM")) none,
    .stopGoesOn 0 false, .stopSettled 0, .cancelGoesOn 2]

theorem rpcSound_restarted : Throughout (step firstPeer {}) Orderly {} restarted ∧
    RpcSound firstPeer {} (after firstPeer {} restarted) :=
  have hordered : Throughout (step firstPeer {}) Orderly {} restarted := by decide +kernel
  ⟨hordered, rpcSound_of_orderly hordered⟩

/-- The command cannot be spawned, and the client is stopped. Before the stop goes on, a request
starts another instance. -/
def stoppedLate : List RpcInput :=
  [.start, .errored 0 (some (-2)) (js "spawn ENOENT"), .stop, .request {}, .stopGoesOn 0 false]

/-- The stop of the first instance removes the home of the second one, and rejects the request that
was sent to it. -/
theorem not_rpcSound_stoppedLate :
    ¬RpcSound firstPeer {} (after firstPeer {} stoppedLate) := by
  intro h
  have hreleased : (1, 0) ∈ (after firstPeer {} stoppedLate).released := by decide +kernel
  exact h.homes 1 0 hreleased (by decide)

end JsonLineRpcClient

end LiteHarness.ProcessRpc
