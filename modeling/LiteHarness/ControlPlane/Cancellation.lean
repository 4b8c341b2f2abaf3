import LiteHarness.ControlPlane.Settlement
import LiteHarness.Storage.Tree

/-!
# Cancelling a run and its children

`cancelRun` enters the tree below a run through runs that have not ended, children first. It aborts
the controllers of active runs and writes `CANCELLED` for the others, which the table refuses for a
run that is being checkpointed: such a run is not active once its lease has been released. What the
traversal does to one run leaves the others alone, so each subtree can be followed by itself.
-/

namespace LiteHarness

open Foundation Foundation.Eff Foundation.Forest

namespace Service

variable {H : Host} {O : Options}

/-! ## What a cancellation leaves alone -/

/-- The reason a run's controller was aborted with. -/
def reason? (s : Service) (r : JsString) : Option JsError :=
  (s.execution? r).bind Execution.abortReason

/-- The run has ended, or its controller has been aborted. -/
def Handled (s : Service) (r : JsString) : Prop :=
  (∃ row, s.store.run? r = some row ∧ row.status.isTerminalRunStatus = true) ∨
    (s.reason? r).isSome = true

/-- The run holds a controller, or its status may be set to `CANCELLED`. -/
def Cancellable (s : Service) (r : JsString) : Prop :=
  r ∈ s.active ∨ ∀ row, s.store.run? r = some row → row.status ≠ .checkpointing

/-- The runs keep their status and their controllers, but for those of `V`, which may have ended or
been aborted. -/
structure Spares (V : JsString → Prop) (s s' : Service) : Prop where
  active : s'.active = s.active
  runs : Store.SameRuns s.store s'.store
  status : ∀ x, (s'.store.run? x).map RunRow.status = (s.store.run? x).map RunRow.status ∨
    V x ∧ ∃ row, s'.store.run? x = some row ∧ row.status.isTerminalRunStatus = true
  reason : ∀ x, s'.reason? x = s.reason? x ∨ V x ∧ (s'.reason? x).isSome = true

theorem Spares.refl (V : JsString → Prop) (s : Service) : Spares V s s :=
  ⟨rfl, rfl, fun _ ↦ Or.inl rfl, fun _ ↦ Or.inl rfl⟩

theorem Spares.mono {V V' : JsString → Prop} {s s' : Service} (h : Spares V s s')
    (hV : ∀ x, V x → V' x) : Spares V' s s' :=
  ⟨h.active, h.runs, fun x ↦ (h.status x).imp_right (And.imp_left (hV x)),
    fun x ↦ (h.reason x).imp_right (And.imp_left (hV x))⟩

theorem isTerminal_of_map_eq {S S' : Store} {x : JsString}
    (h : (S'.run? x).map RunRow.status = (S.run? x).map RunRow.status)
    (hS : ∃ row, S.run? x = some row ∧ row.status.isTerminalRunStatus = true) :
    ∃ row, S'.run? x = some row ∧ row.status.isTerminalRunStatus = true := by
  obtain ⟨row, hrow, ht⟩ := hS
  rw [hrow, Option.map_some] at h
  obtain ⟨row', hrow', hstatus⟩ := Option.map_eq_some_iff.mp h
  exact ⟨row', hrow', hstatus ▸ ht⟩

section Spares

variable {V : JsString → Prop} {s t w : Service}

theorem Spares.trans (h : Spares V s t) (h' : Spares V t w) : Spares V s w := by
  refine ⟨h'.active.trans h.active, h'.runs.trans h.runs, fun x ↦ ?_, fun x ↦ ?_⟩
  · rcases h'.status x with hsame | hended
    · refine (h.status x).imp hsame.trans fun ⟨hV, hended⟩ ↦ ⟨hV, ?_⟩
      exact isTerminal_of_map_eq hsame hended
    · exact Or.inr hended
  · rcases h'.reason x with hsame | haborted
    · rw [hsame]
      exact h.reason x
    · exact Or.inr haborted

/-- What is handled stays handled. -/
theorem Spares.handled (h : Spares V s t) {x : JsString} (hx : s.Handled x) : t.Handled x := by
  rcases hx with hended | haborted
  · rcases h.status x with hsame | ⟨-, hended'⟩
    · exact Or.inl (isTerminal_of_map_eq hsame hended)
    · exact Or.inl hended'
  · rcases h.reason x with hsame | ⟨-, haborted'⟩
    · exact Or.inr (hsame ▸ haborted)
    · exact Or.inr haborted'

theorem Spares.handled_iff (h : Spares V s t) {x : JsString} (hx : ¬V x) :
    t.Handled x ↔ s.Handled x := by
  refine ⟨fun ht ↦ ?_, h.handled⟩
  have hstatus := (h.status x).resolve_right fun hV ↦ hx hV.1
  have hreason := (h.reason x).resolve_right fun hV ↦ hx hV.1
  rcases ht with hended | haborted
  · exact Or.inl (isTerminal_of_map_eq hstatus.symm hended)
  · exact Or.inr (hreason ▸ haborted)

theorem Spares.isOpen (h : Spares V s t) {x : JsString} (hx : t.store.IsOpen x) :
    s.store.IsOpen x := by
  obtain ⟨row, hrow, hopen⟩ := hx
  rcases h.status x with hsame | ⟨-, row', hrow', ht⟩
  · rw [hrow, Option.map_some] at hsame
    obtain ⟨row₀, hrow₀, hstatus⟩ := Option.map_eq_some_iff.mp hsame.symm
    exact ⟨row₀, hrow₀, hstatus ▸ hopen⟩
  · obtain rfl := Option.some.inj (hrow.symm.trans hrow')
    exact absurd (hopen.symm.trans ht) Bool.false_ne_true

theorem Spares.isOpen_iff (h : Spares V s t) {x : JsString} (hx : ¬V x) :
    t.store.IsOpen x ↔ s.store.IsOpen x := by
  refine ⟨h.isOpen, fun ⟨row, hrow, hopen⟩ ↦ ?_⟩
  have hsame := (h.status x).resolve_right fun hV ↦ hx hV.1
  rw [hrow, Option.map_some] at hsame
  obtain ⟨row', hrow', hstatus⟩ := Option.map_eq_some_iff.mp hsame
  exact ⟨row', hrow', hstatus ▸ hopen⟩

theorem Spares.cancellable (h : Spares V s t) {x : JsString} (hx : s.Cancellable x) :
    t.Cancellable x := by
  rcases hx with hactive | hstatus
  · exact Or.inl (h.active ▸ hactive)
  refine Or.inr fun row hrow heq ↦ ?_
  rcases h.status x with hsame | ⟨-, row', hrow', ht⟩
  · rw [hrow, Option.map_some] at hsame
    obtain ⟨row₀, hrow₀, hstatus₀⟩ := Option.map_eq_some_iff.mp hsame.symm
    exact hstatus row₀ hrow₀ (hstatus₀.trans heq)
  · obtain rfl := Option.some.inj (hrow.symm.trans hrow')
    rw [heq] at ht
    exact Bool.false_ne_true ht

theorem Spares.cancellable_iff (h : Spares V s t) {x : JsString} (hx : ¬V x) :
    t.Cancellable x ↔ s.Cancellable x := by
  refine ⟨fun ht ↦ ?_, h.cancellable⟩
  rcases ht with hactive | hstatus
  · exact Or.inl (h.active ▸ hactive)
  refine Or.inr fun row hrow heq ↦ ?_
  have hsame := (h.status x).resolve_right fun hV ↦ hx hV.1
  rw [hrow, Option.map_some] at hsame
  obtain ⟨row', hrow', hstatus'⟩ := Option.map_eq_some_iff.mp hsame
  exact hstatus row' hrow' (hstatus'.trans heq)

/-- Effects that end no runs but those of `V`. -/
theorem Spares.of_effects {L : Licence} (h : Effects H L s t)
    (hcreates : ∀ request, ¬L.creates request) (hcontrols : ∀ x, ¬L.controls x)
    (hends : ∀ x, L.ends x → V x)
    (hreason : ∀ x, t.reason? x = s.reason? x ∨ V x ∧ (t.reason? x).isSome = true) :
    Spares V s t := by
  have hruns := h.evolves.sameRuns hcreates
  refine ⟨h.active_eq hcontrols, hruns, fun x ↦ ?_, hreason⟩
  cases hrow : s.store.run? x with
  | none =>
    have hsame := hruns.run? x
    rw [hrow, Option.map_none, Option.map_eq_none_iff] at hsame
    exact Or.inl (by rw [hsame])
  | some row =>
    obtain ⟨row', hrow', -, hstatus⟩ := h.status_eq_or (hcontrols x) hrow
    rcases hstatus with hsame | ⟨hended, ht⟩
    · exact Or.inl (by rw [hrow', Option.map_some, hsame, Option.map_some])
    · exact Or.inr ⟨hends x hended, row', hrow', ht⟩

end Spares

/-! ## One abort -/

theorem reason?_congr {s s' : Service} (h : s'.executions = s.executions) (x : JsString) :
    s'.reason? x = s.reason? x := by
  rw [reason?, execution?, h, reason?, execution?]

theorem reason?_update {s : Service} {r : JsString} {f : Execution → Execution}
    (hid : ∀ e, (f e).runId = e.runId) (x : JsString) :
    reason? { s with executions := Table.update (fun e ↦ e.runId = r) f s.executions } x =
      if x = r then ((s.execution? x).map f).bind Execution.abortReason else s.reason? x := by
  rw [reason?]
  change (Table.lookup Execution.runId x (Table.update (fun e ↦ e.runId = r) f s.executions)).bind
    Execution.abortReason = _
  rw [execution?_update hid x]
  cases he : s.execution? x with
  | none => rw [reason?, he]; split_ifs <;> rfl
  | some e =>
    rw [Option.map_some, execution?_runId he, reason?, he]
    split_ifs <;> rfl

theorem Execution.settle_abortReason (approvalId : JsString) (value : Bool) (e : Execution) :
    (e.settle approvalId value).abortReason = e.abortReason := by
  unfold Execution.settle
  split
  · split_ifs <;> rfl
  · rfl

theorem settle_reason? (approvalId : JsString) (value : Bool) :
    Evolves (fun s s' : Service ↦ ∀ x, s'.reason? x = s.reason? x) (settle approvalId value) := by
  refine Evolves.gets fun s ↦ ?_
  cases s.approvalWaiters.find? fun w ↦ w.approvalId = approvalId with
  | none => exact fun _ _ ↦ rfl
  | some waiter =>
    intro s x
    dsimp only
    rw [run_modify_bind, updateExecution_run]
    refine (reason?_update (Execution.settle_runId approvalId value) x).trans ?_
    split_ifs
    · rw [reason?]
      change ((s.execution? x).map _).bind _ = _
      cases s.execution? x with
      | none => rfl
      | some e => exact Execution.settle_abortReason approvalId value e
    · exact reason?_congr rfl x

theorem refuse_reason? (status : ApprovalResolution) (waiter : ApprovalWaiter) :
    Evolves (fun s s' : Service ↦ ∀ x, s'.reason? x = s.reason? x) (refuse H status waiter) := by
  have htrans : ∀ s t w : Service, (∀ x, t.reason? x = s.reason? x) →
      (∀ x, w.reason? x = t.reason? x) → ∀ x, w.reason? x = s.reason? x :=
    fun _ _ _ h h' x ↦ (h' x).trans (h x)
  refine Evolves.bind htrans (fun s x ↦ ?_) fun _ ↦ settle_reason? _ _
  have hstill : Evolves Still (resolveWithEvent H waiter.approvalId status waiter.executionDigest) :=
    Evolves.bind Still.trans now_still fun _ ↦ Evolves.bind Still.trans now_still fun _ ↦
      onStore_still _
  exact reason?_congr (hstill s).executions x

/-- The listeners of an abort leave every controller alone. -/
theorem abortListeners_reason? (waiters : List ApprovalWaiter) :
    Evolves (fun s s' : Service ↦ ∀ x, s'.reason? x = s.reason? x)
      (forEach (fun w ↦ tryCatch (refuse H ⟨.denied, by decide⟩ w) fun _ ↦ pure ⟨⟩) waiters) := by
  have htrans : ∀ s t w : Service, (∀ x, t.reason? x = s.reason? x) →
      (∀ x, w.reason? x = t.reason? x) → ∀ x, w.reason? x = s.reason? x :=
    fun _ _ _ h h' x ↦ (h' x).trans (h x)
  have hrefl : ∀ s : Service, ∀ x, s.reason? x = s.reason? x := fun _ _ ↦ rfl
  exact Evolves.forEach hrefl htrans fun w _ ↦
    Evolves.tryCatch htrans (refuse_reason? _ _) fun _ ↦ Evolves.pure hrefl _

/-- An exception of a listener goes no further. -/
theorem abortListeners_returns (waiters : List ApprovalWaiter) :
    Returns (forEach (fun w ↦ tryCatch (refuse H ⟨.denied, by decide⟩ w) fun _ ↦ pure ⟨⟩) waiters) :=
  Returns.forEach fun _ ↦ Returns.tryCatch fun _ ↦ Returns.pure _

/-! ## One run -/

/-- The outcome of cancelling the runs of `V`: they are handled if all of them can be cancelled, and
otherwise the cancellation throws. Other runs are spared. -/
structure Cancelled (V : JsString → Prop) (s : Service)
    (result : Except JsError PUnit × Service) : Prop where
  spares : Spares V s result.2
  handles : (∀ x, V x → s.Cancellable x) → result.1 = .ok ⟨⟩ ∧ ∀ x, V x → result.2.Handled x
  fails : (∃ x, V x ∧ ¬s.Cancellable x) → ∃ error, result.1 = .error error

/-- Nothing to cancel. -/
theorem Cancelled.idle {V : JsString → Prop} {s : Service} (hV : ∀ x, ¬V x) :
    Cancelled V s (.ok ⟨⟩, s) :=
  ⟨.refl V s, fun _ ↦ ⟨rfl, fun x hx ↦ absurd hx (hV x)⟩, fun ⟨x, hx, _⟩ ↦ absurd hx (hV x)⟩

/-- One run that can be cancelled. -/
theorem Cancelled.one {s : Service} {r : JsString} {result : Except JsError PUnit × Service}
    (hcancellable : s.Cancellable r) (hok : result.1 = .ok ⟨⟩) (hhandled : result.2.Handled r)
    (hspares : Spares (· = r) s result.2) : Cancelled (· = r) s result := by
  refine ⟨hspares, fun _ ↦ ⟨hok, ?_⟩, ?_⟩
  · rintro _ rfl
    exact hhandled
  · rintro ⟨_, rfl, h⟩
    exact absurd hcancellable h

/-- An active run is aborted. -/
theorem abort_cancelled {s : Service} {r : JsString} {reason : JsError} (hactive : r ∈ s.active)
    {e : Execution} (he : s.execution? r = some e) :
    Cancelled (· = r) s ((abort H r reason).run s) := by
  have heffects : Effects H { resolves := True } s ((abort H r reason).run s).2 :=
    abort_effects (Or.inl hactive) trivial
  have hspares := Spares.of_effects (V := (· = r)) heffects (fun _ ↦ id) (fun _ ↦ id)
    (fun _ ↦ False.elim)
  rw [abort, run_get_bind] at hspares ⊢
  cases hreason : (s.execution? r).bind Execution.abortReason with
  | some previous =>
    rw [hreason] at hspares
    refine .one (Or.inl hactive) rfl (Or.inr ?_) (hspares fun _ ↦ Or.inl rfl)
    change (s.reason? r).isSome = true
    rw [reason?, hreason, Option.isSome_some]
  | none =>
    rw [hreason] at hspares
    dsimp only at hspares ⊢
    rw [run_bind, updateExecution_run, andThen_ok] at hspares ⊢
    generalize hs₁ : ({ s with executions := _ } : Service) = s₁ at hspares ⊢
    have hupdate : ∀ x, s₁.reason? x = if x = r then
        ((s.execution? x).map fun e ↦ { e with abortReason := some reason }).bind
          Execution.abortReason else s.reason? x :=
      fun x ↦ hs₁ ▸ reason?_update (f := fun e ↦ { e with abortReason := some reason })
        (fun _ ↦ rfl) x
    have hlisteners := abortListeners_reason? (H := H)
      (s.approvalWaiters.filter fun w ↦ w.runId = r) s₁
    obtain ⟨u, s', hrun⟩ := abortListeners_returns (H := H)
      (s.approvalWaiters.filter fun w ↦ w.runId = r) s₁
    rw [hrun] at hlisteners hspares ⊢
    have haborted : (s'.reason? r).isSome = true := by
      rw [hlisteners, hupdate, if_pos rfl, he]
      rfl
    refine .one (Or.inl hactive) rfl (Or.inr haborted) (hspares fun x ↦ ?_)
    by_cases hx : x = r
    · exact Or.inr ⟨hx, hx ▸ haborted⟩
    · exact Or.inl (by rw [hlisteners, hupdate, if_neg hx])

/-- The parent of a run that has just ended takes its summary. -/
theorem appendSubagentSummary_returns {s : Service} (run : RunRecord) (payload : TransitionPayload)
    (hlogged : s.store.Logged) (hrooted : s.store.Rooted) {row : RunRow} {p : JsString} (hrow : s.store.run? run.id = some row)
    (hparent : truthy row.parentRunId = some p) (ht : row.status.isTerminalRunStatus = true) :
    ((appendSubagentSummary H run p row.status payload).run s).1 = .ok ⟨⟩ := by
  obtain ⟨hid, hsound⟩ := hrooted _ row hrow
  rw [hparent] at hsound
  obtain ⟨parent, hfound, -⟩ := hsound
  rw [appendSubagentSummary, run_get_bind]
  set summary := (s.store.getLastEvent run.id .agentMessageCompleted).bind fun e ↦
    e.payload.content
  have hdetached : s.store.DetachedSubagentSummary
      { runId := p, type := .subagentCompleted
        payload := .subagentCompleted run.id row.status summary payload.code } := by
    refine ⟨rfl, rfl, rfl, rfl, rfl, row, ?_, eq_some_of_truthy hparent, ht, rfl⟩
    change (truthy run.id).bind _ = _
    rw [truthy_of_ne_nil hid]
    exact hrow
  have happend : s.store.Appendable
      { runId := p, type := .subagentCompleted
        payload := .subagentCompleted run.id row.status summary payload.code } parent :=
    ⟨hfound, fun _ ↦ hdetached, fun _ ↦ hdetached, hlogged.fresh hfound⟩
  dsimp only
  rw [run_tryCatch, run_bind_of_ok (appendEvent_run happend), run_pure, orElse_ok]

/-- The event of a transition the table allows is issued. -/
theorem recorded_effects {L : Licence} {s : Service} (hlogged : s.store.Logged) {r : JsString}
    {row : RunRow} {status : RunStatus} {type : RunEventType} (payload : TransitionPayload)
    (hrow : s.store.run? r = some row) (htype : type.changesStatus = true)
    (hallowed : RunStatus.Allowed row.status status) (hsets : L.Sets r status) :
    Effects H L s (recorded H s (transitionEvent r status type payload) row) := by
  have hissued : (transitionEvent r status type payload).Issued L s.store := by
    refine issued_of_status hsets htype rfl rfl rfl fun row' hrow' ↦ Or.inl ?_
    obtain rfl := Option.some.inj (hrow.symm.trans hrow')
    exact hallowed
  have heffects := appendEvent_effects (H := H) hissued
  rw [appendEvent_run (transitionEvent_appendable payload hlogged hrow htype hallowed)] at heffects
  exact heffects

/-- The status of a run that is not being checkpointed is set. -/
theorem transition_cancelled {s : Service} (hlogged : s.store.Logged) (hrooted : s.store.Rooted)
    {r : JsString} {row : RunRow} {payload : TransitionPayload} (hrow : s.store.run? r = some row)
    (hopen : row.status.isTerminalRunStatus = false) (hstatus : row.status ≠ .checkpointing) :
    Cancelled (· = r) s ((transition H r .cancelled .runCancelled payload).run s) := by
  have hallowed : RunStatus.Allowed row.status .cancelled := by
    generalize row.status = status at hopen hstatus
    cases status <;> first | decide | exact absurd rfl hstatus | exact absurd hopen (by decide)
  have heffects : Effects H { ends := (· = r) } s
      ((transition H r .cancelled .runCancelled payload).run s).2 :=
    transition_performs (Or.inr ⟨rfl, rfl⟩) rfl s
  have hreason := reason?_congr (transition_still (H := H) r .cancelled .runCancelled payload s).1
  have hspares := Spares.of_effects (V := (· = r)) heffects (fun _ ↦ id) (fun _ ↦ id)
    (fun _ ↦ id) fun x ↦ Or.inl (hreason x)
  have hevent : Effects H { ends := (· = r) } s
      (recorded H s (transitionEvent r .cancelled .runCancelled payload) row) :=
    recorded_effects hlogged payload hrow rfl hallowed (Or.inr ⟨rfl, rfl⟩)
  have hrow₁ :=
    recorded_run? (H := H) (transitionEvent r .cancelled .runCancelled payload) hrow
  have hended : (Store.appended (H.clock s.readings)
      (transitionEvent r .cancelled .runCancelled payload) row).status = .cancelled :=
    transitioned_status _ _
  have hparent : (Store.appended (H.clock s.readings)
      (transitionEvent r .cancelled .runCancelled payload) row).parentRunId = row.parentRunId := rfl
  rw [transition_run payload hlogged hrow rfl hallowed] at hspares ⊢
  generalize recorded H s (transitionEvent r .cancelled .runCancelled payload) row = s₁ at *
  generalize Store.appended _ _ row = row₁ at *
  have hlogged₁ := hevent.evolves.logged hlogged
  have hrooted₁ := hevent.evolves.rooted hrooted
  have hid : (toRunRecord row).id = r := (Store.run?_mem hrow).2
  have ht : row₁.status.isTerminalRunStatus = true := by rw [hended]; rfl
  rw [run_ite, if_pos (by rfl)] at hspares ⊢
  cases hp : truthy row.parentRunId with
  | none =>
    rw [hp] at hspares
    exact .one (Or.inr fun row' hrow' ↦ Option.some.inj (hrow.symm.trans hrow') ▸ hstatus) rfl
      (Or.inl ⟨row₁, hrow₁, ht⟩) hspares
  | some p =>
    rw [hp] at hspares
    have hok := appendSubagentSummary_returns (H := H) (toRunRecord row) payload hlogged₁ hrooted₁
      (hid ▸ hrow₁) (hparent ▸ hp) ht
    rw [hended] at hok
    obtain ⟨row₂, hrow₂, -, hstatus₂⟩ := (appendSubagentSummary_performs (H := H) (L := {})
      (toRunRecord row) p .cancelled payload s₁).status_eq id id hrow₁
    exact .one (Or.inr fun row' hrow' ↦ Option.some.inj (hrow.symm.trans hrow') ▸ hstatus) hok
      (Or.inl ⟨row₂, hrow₂, hstatus₂ ▸ ht⟩) hspares

/-! ## The tree below a run -/

/-- What a cancellation relies on. -/
structure Sound (O : Options) (s : Service) : Prop where
  consistent : s.Consistent O
  logged : s.store.Logged
  rooted : s.store.Rooted

/-- A cancellation leaves the process sound. -/
theorem Sound.cancels {s s' : Service} (h : s.Sound O)
    (heffects : Effects H (cancelling s.active) s s') : s'.Sound O where
  consistent := h.consistent.effects heffects (fun _ ↦ id) (fun _ ↦ id) (fun _ ↦ id) id
  logged := heffects.evolves.logged h.logged
  rooted := heffects.evolves.rooted h.rooted

/-- A traversal from `r` that enters runs that have not ended only reaches the run. -/
def Reaches (s : Service) : JsString → JsString → Prop :=
  Visited s.store.parentOf s.store.IsOpen

/-- The run itself, once its children have been dealt with. -/
theorem cancelSelf_cancelled {s : Service} (h : s.Sound O) {r : JsString} {row : RunRow}
    (hrow : s.store.run? r = some row) (hopen : row.status.isTerminalRunStatus = false) :
    Cancelled (· = r) s ((do
      let s ← get
      if r ∈ s.active then abort H r runCancelledError
      else transition H r .cancelled .runCancelled { reason := js "requested" } :
        ServiceM PUnit).run s) := by
  rw [run_get_bind, run_ite]
  split_ifs with hactive
  · obtain ⟨e, he⟩ := h.consistent.active r hactive
    exact abort_cancelled hactive he
  by_cases hstatus : row.status = .checkpointing
  · -- the table refuses to end a run that is being checkpointed
    obtain ⟨error, hrun⟩ := transition_rejected (H := H) (r := r) .runCancelled
      { reason := js "requested" } hrow (show ¬RunStatus.Allowed row.status .cancelled by
        rw [hstatus]; decide)
    rw [hrun]
    refine ⟨.refl _ s, fun hall ↦ ?_, fun _ ↦ ⟨error, rfl⟩⟩
    rcases hall r rfl with hmem | hother
    · exact absurd hmem hactive
    · exact absurd hstatus (hother row hrow)
  · exact transition_cancelled h.logged h.rooted hrow hopen hstatus

/-- Two cancellations one after the other, of which the second meets what the first one left. -/
theorem Cancelled.andThen {V W : JsString → Prop} {s : Service}
    {result : Except JsError PUnit × Service} {f : PUnit → ServiceM PUnit}
    (h : Cancelled V s result)
    (hf : ∀ s₁, result = (.ok ⟨⟩, s₁) → Spares V s s₁ → ∃ W' : JsString → Prop,
      Cancelled W' s₁ ((f ⟨⟩).run s₁) ∧ (∀ x, W' x → W x) ∧ ∀ x, W x → W' x ∨ V x) :
    Cancelled (fun x ↦ V x ∨ W x) s (andThen result f) := by
  obtain ⟨hspares, hhandles, hfails⟩ := h
  rcases result with ⟨error | u, s₁⟩
  · refine ⟨hspares.mono fun _ ↦ Or.inl, fun hall ↦ ?_, fun _ ↦ ⟨error, rfl⟩⟩
    exact absurd (hhandles fun x hx ↦ hall x (Or.inl hx)).1 (by simp)
  rw [andThen_ok]
  obtain ⟨W', ⟨hspares', hhandles', hfails'⟩, hsub, hcover⟩ := hf s₁ rfl hspares
  refine ⟨(hspares.mono fun _ ↦ Or.inl).trans (hspares'.mono fun x hx ↦ Or.inr (hsub x hx)),
    fun hall ↦ ?_, fun ⟨x, hx, hnot⟩ ↦ ?_⟩
  · have hfirst := (hhandles fun x hx ↦ hall x (Or.inl hx)).2
    obtain ⟨hok, hsecond⟩ := hhandles' fun x hx ↦
      hspares.cancellable (hall x (Or.inr (hsub x hx)))
    refine ⟨hok, fun x hx ↦ ?_⟩
    have hx' : W' x ∨ V x := hx.elim Or.inr (hcover x)
    exact hx'.elim (hsecond x) fun hV ↦ hspares'.handled (hfirst x hV)
  · by_cases hV : V x
    · obtain ⟨error, herror⟩ := hfails ⟨x, hV, hnot⟩
      exact absurd herror (by simp)
    · have hW' := (hcover x (hx.resolve_left hV)).resolve_right hV
      exact hfails' ⟨x, hW', fun hc ↦ hnot ((hspares.cancellable_iff hV).mp hc)⟩

/-- What a traversal reaches once others have been cancelled, it reached before. -/
theorem Spares.reaches {V : JsString → Prop} {s t : Service} (h : Spares V s t) {r x : JsString}
    (hx : t.Reaches r x) : s.Reaches r x := by
  rw [Reaches, h.runs.parentOf] at hx
  exact hx.congr fun y hy _ ↦ h.isOpen hy.open_of

/-- It still reaches what the others do not reach. -/
theorem Spares.reaches_or {c r x : JsString} {s t : Service} (h : Spares (s.Reaches c) s t)
    (hx : s.Reaches r x) : t.Reaches r x ∨ s.Reaches c x := by
  by_cases hc : s.Reaches c x
  · exact Or.inr hc
  refine Or.inl ?_
  rw [Reaches, h.runs.parentOf]
  refine hx.congr fun y hy hyx ↦ (h.isOpen_iff fun hcy ↦ hc ?_).mpr hy.open_of
  exact Visited.trans hcy hyx

/-- Cancelling one run after the other. -/
theorem cancelEach_cancelled {f : JsString → ServiceM PUnit} (hf : ∀ c, Cancels H (f c))
    {runs : List JsString} {s : Service} (h : s.Sound O)
    (hone : ∀ t, t.Sound O → Store.SameRuns s.store t.store → ∀ c ∈ runs,
      Cancelled (t.Reaches c) t ((f c).run t)) :
    Cancelled (fun x ↦ ∃ c ∈ runs, s.Reaches c x) s ((forEach f runs).run s) := by
  induction runs generalizing s with
  | nil => exact .idle fun x ⟨c, hc, _⟩ ↦ absurd hc List.not_mem_nil
  | cons c runs ih =>
    have hcons : ∀ x, (∃ d ∈ c :: runs, s.Reaches d x) ↔
        s.Reaches c x ∨ ∃ d ∈ runs, s.Reaches d x := fun x ↦ by
      simp only [List.mem_cons, exists_eq_or_imp]
    simp only [hcons]
    rw [forEach_cons, run_bind]
    refine (hone s h rfl c List.mem_cons_self).andThen fun s₁ hrun hspares ↦
      ⟨fun x ↦ ∃ d ∈ runs, s₁.Reaches d x, ih ?_ ?_, ?_, ?_⟩
    · have heffects := hf c s
      rw [hrun] at heffects
      exact h.cancels heffects
    · exact fun t ht hruns d hd ↦ hone t ht (hruns.trans hspares.runs) d (List.mem_cons_of_mem _ hd)
    · exact fun x ⟨d, hd, hx⟩ ↦ ⟨d, hd, hspares.reaches hx⟩
    · rintro x ⟨d, hd, hx⟩
      exact (hspares.reaches_or hx).imp_left fun hx' ↦ ⟨d, hd, hx'⟩

/-- **A cancellation deals with the runs it reaches.** The stack is deep enough for the levels below
the run. -/
theorem cancelRunWithin_cancelled (n : ℕ) {s : Service} (h : s.Sound O) {r : JsString}
    (hdepth : s.store.deeperThan (s.store.depthOf r) < n) :
    Cancelled (s.Reaches r) s ((cancelRunWithin H n r).run s) := by
  induction n generalizing s r with
  | zero => exact absurd hdepth (Nat.not_lt_zero _)
  | succ n ih =>
    have hidle : ¬s.store.IsOpen r → Cancelled (s.Reaches r) s (.ok ⟨⟩, s) :=
      fun hclosed ↦ .idle fun x hx ↦ hclosed hx.1
    rw [cancelRunWithin, getRun_bind_run, Store.getRun]
    cases hrow : s.store.run? r with
    | none => exact hidle (by
        rintro ⟨row, hrow', -⟩
        exact absurd (hrow.symm.trans hrow') (by simp))
    | some row =>
      simp only [Option.map_some, toRunRecord_status]
      by_cases ht : row.status.isTerminalRunStatus = true
      · simp only [ht, if_true]
        refine hidle ?_
        rintro ⟨row', hrow', hopen⟩
        obtain rfl := Option.some.inj (hrow.symm.trans hrow')
        exact Bool.false_ne_true (hopen.symm.trans ht)
      have hopen := Bool.eq_false_iff.mpr ht
      simp only [hopen, Bool.false_eq_true, if_false]
      obtain ⟨hne, -⟩ := h.rooted r row hrow
      have hlevel := h.rooted.levelled
      rw [run_get_bind, run_bind]
      set children := (s.store.listChildRuns r).map RunRecord.id
      have hchild : ∀ c, c ∈ children ↔ s.store.parentOf c = some r := fun c ↦
        Store.mem_listChildRuns h.logged hne
      -- the children's trees, and then the run
      have hreaches : s.Reaches r = fun x ↦ (∃ c ∈ children, s.Reaches c x) ∨ x = r := by
        funext x
        refine propext (visited_iff.trans ?_)
        simp only [hchild]
        exact ⟨fun hx ↦ hx.2.symm, fun hx ↦ ⟨⟨row, hrow, hopen⟩, hx.symm⟩⟩
      rw [hreaches]
      have hnotself : ¬∃ c ∈ children, s.Reaches c r := by
        rintro ⟨c, hc, hx⟩
        have hle := hx.below.depth_le hlevel
        rw [hlevel c r ((hchild c).mp hc)] at hle
        omega
      have hbelow : Cancelled (fun x ↦ ∃ c ∈ children, s.Reaches c x) s
          ((forEach (cancelRunWithin H n) children).run s) := by
        refine cancelEach_cancelled (fun c ↦ cancelRunWithin_cancels n c) h fun t ht hruns c hc ↦ ?_
        refine ih ht ?_
        rw [hruns.deeperThan, hruns.depthOf]
        have hparent := (hchild c).mp hc
        obtain ⟨child, hfound, -⟩ := Store.parentOf_eq_some hparent
        have hdepthOf : s.store.depthOf c = child.depth := by rw [Store.depthOf, hfound]; rfl
        have hdeeper : s.store.depthOf r < child.depth := by
          rw [← hdepthOf, hlevel c r hparent]
          omega
        have hlower := Store.deeperThan_lt (Store.run?_mem hfound).1 hdeeper
        rw [hdepthOf]
        omega
      refine hbelow.andThen fun s₁ hrun hspares ↦
        ⟨(· = r), ?_, fun _ ↦ id, fun _ ↦ Or.inl⟩
      have heffects : Effects H (cancelling s.active) s s₁ := by
        have hall : Cancels H (forEach (cancelRunWithin H n) children) :=
          Cancels.forEach fun c ↦ cancelRunWithin_cancels n c
        have hchildren := hall s
        rwa [hrun] at hchildren
      obtain ⟨row₁, hrow₁, hopen₁⟩ := (hspares.isOpen_iff hnotself).mpr ⟨row, hrow, hopen⟩
      exact cancelSelf_cancelled (h.cancels heffects) hrow₁ hopen₁

/-! ## The public operations -/

theorem Reachable.sound {s : Service} (h : Reachable H O s) : s.Sound O :=
  ⟨h.consistent, h.logged, h.rooted⟩

/-- The stack of `cancelRun` is deep enough. -/
theorem cancelRun_cancelled {s : Service} (h : s.Sound O) (r : JsString) :
    Cancelled (s.Reaches r) s ((cancelRunWithin H (s.store.runs.length + 1) r).run s) :=
  cancelRunWithin_cancelled _ h (Nat.lt_succ_of_le (Store.deeperThan_le _ _))

/-- The loop of a shutdown. -/
theorem cancelPending_cancelled {s : Service} (h : s.Sound O) (pending : List JsString) :
    Cancelled (fun x ↦ ∃ p ∈ pending, s.Reaches p x) s
      ((forEach (fun p ↦ do let _ ← cancelRun H p) pending).run s) := by
  have hcancels : ∀ p, Cancels H (do let _ ← cancelRun H p : ServiceM PUnit) := fun p ↦
    Cancels.bind (cancelRun_cancels p) fun _ ↦ Cancels.refl
  refine cancelEach_cancelled hcancels h fun t ht _ p _ ↦ ?_
  have hone := cancelRun_cancelled (H := H) ht p
  have hrun : ((do let _ ← cancelRun H p : ServiceM PUnit).run t) =
      (cancelRunWithin H (t.store.runs.length + 1) p).run t := by
    change andThen (andThen _ fun _ ↦ getRun p) _ = _
    rcases (cancelRunWithin H (t.store.runs.length + 1) p).run t with ⟨error | u, t'⟩ <;> rfl
  rw [hrun]
  exact hone

theorem Cancelled.returns_iff {V : JsString → Prop} {s : Service}
    {result : Except JsError PUnit × Service} (h : Cancelled V s result) :
    result.1 = .ok ⟨⟩ ↔ ∀ x, V x → s.Cancellable x := by
  refine ⟨fun hok x hx ↦ ?_, fun hall ↦ (h.handles hall).1⟩
  by_contra hnot
  obtain ⟨error, herror⟩ := h.fails ⟨x, hx, hnot⟩
  exact absurd (hok.symm.trans herror) (by simp)

/-- The existing runs below `r` have ended or been aborted. -/
def TreeHandled (s s' : Service) (r : JsString) : Prop :=
  ∀ x, Below s.store.parentOf r x → (s.store.run? x).isSome = true → s'.Handled x

/-- Nothing is left for a shutdown to wait for. -/
def Drained (s : Service) : Prop :=
  s.accepting = false ∧ (s.executions.filter fun e ↦ !e.drained) = []

instance (s : Service) : Decidable s.Drained := inferInstanceAs (Decidable (_ ∧ _))

/-- The approvals that are refused at the end of a shutdown leave the runs alone. -/
theorem settleWaiters_spares (H : Host) (waiters : List ApprovalWaiter) (s : Service) :
    ((forEach (fun w ↦ settle w.approvalId false) waiters).run s).1 = .ok ⟨⟩ ∧
      Spares (fun _ ↦ False) s
        ((forEach (fun w ↦ settle w.approvalId false) waiters).run s).2 := by
  have hreturns : Returns (forEach (fun w ↦ settle w.approvalId false) waiters) := by
    refine Returns.forEach fun w s ↦ ?_
    rw [settle, run_get_bind]
    cases s.approvalWaiters.find? fun v ↦ v.approvalId = w.approvalId with
    | none => exact Returns.pure _ s
    | some waiter => exact (Returns.modify _).bind (fun _ ↦ Returns.modify _) s
  have hreason : Evolves (fun s s' : Service ↦ ∀ x, s'.reason? x = s.reason? x)
      (forEach (fun w ↦ settle w.approvalId false) waiters) :=
    Evolves.forEach (fun _ _ ↦ rfl) (fun _ _ _ h h' x ↦ (h' x).trans (h x))
      fun w _ ↦ settle_reason? _ _
  have heffects : Effects H {} s
      ((forEach (fun w : ApprovalWaiter ↦ settle w.approvalId false) waiters).run s).2 :=
    Performs.forEach (fun w : ApprovalWaiter ↦ settle_performs w.approvalId false) s
  obtain ⟨u, s', hrun⟩ := hreturns s
  refine ⟨congrArg Prod.fst hrun, Spares.of_effects heffects (fun _ ↦ id) (fun _ ↦ id)
    (fun _ ↦ id) fun x ↦ Or.inl (hreason s x)⟩

/-- **When a cancellation keeps its promise.** It returns with the whole tree below the run ended or
aborted exactly when every run it reaches through runs that have not ended can be cancelled, and
the runs it does not reach needed nothing. A shutdown deals with every pending run under the same
condition on all of them. -/
theorem cancelRun_covers_iff (H : Host) (O : Options) (history : List Input) :
    let s := after H O {} history
    (∀ r, (∃ run, ((cancelRun H r).run s).1 = .ok run) ∧
        TreeHandled s ((cancelRun H r).run s).2 r ↔
      (∀ x, s.Reaches r x → s.Cancellable x) ∧ ∀ x, Below s.store.parentOf r x →
        (s.store.run? x).isSome = true → ¬s.Reaches r x → s.Handled x) ∧
    (((shutdown H).run s).1 = .ok ⟨⟩ ∧ (∀ p ∈ pendingRunIds s,
        (s.store.run? p).isSome = true → ((shutdown H).run s).2.Handled p) ↔
      if s.Drained then ∀ p ∈ pendingRunIds s, (s.store.run? p).isSome = true → s.Handled p
      else ∀ p ∈ pendingRunIds s, ∀ x, s.Reaches p x → s.Cancellable x) := by
  intro s
  have h : Reachable H O s := ⟨history, rfl⟩
  generalize s = s at h
  refine ⟨fun r ↦ ?_, ?_⟩
  · have hcancelled := cancelRun_cancelled (H := H) h.sound r
    have hreturns := hcancelled.returns_iff
    rw [cancelRun, run_get_bind, run_bind]
    rcases hrun : (cancelRunWithin H (s.store.runs.length + 1) r).run s with ⟨error | u, s'⟩
    all_goals rw [hrun] at hcancelled hreturns
    · refine ⟨fun ⟨⟨run, hok⟩, _⟩ ↦ absurd hok (by simp), fun ⟨hall, _⟩ ↦ ?_⟩
      exact absurd (hreturns.mpr hall) (by simp)
    · have hall := hreturns.mp rfl
      have hhandled := (hcancelled.handles hall).2
      refine ⟨fun ⟨_, htree⟩ ↦ ⟨hall, fun x hx hexists hnot ↦ ?_⟩,
        fun ⟨_, hrest⟩ ↦ ⟨⟨s'.store.getRun r, rfl⟩, fun x hx hexists ↦ ?_⟩⟩
      · exact (hcancelled.spares.handled_iff hnot).mp (htree x hx hexists)
      · by_cases hreached : s.Reaches r x
        · exact hhandled x hreached
        · exact hcancelled.spares.handled (hrest x hx hexists hreached)
  · rw [shutdown, run_get_bind, run_ite]
    split_ifs with hdrained hd hd
    · exact ⟨fun h ↦ h.2, fun h ↦ ⟨rfl, h⟩⟩
    · exact absurd hdrained hd
    · exact absurd hd hdrained
    · rw [run_modify_bind]
      set s₀ : Service := { s with accepting := false } with hs₀
      have hsound : s₀.Sound O := ⟨⟨h.consistent.nodup, h.consistent.staged, h.consistent.active,
        h.consistent.calm⟩, h.logged, h.rooted⟩
      have hcancelled := cancelPending_cancelled (H := H) hsound (pendingRunIds s)
      have hreturns := hcancelled.returns_iff
      rw [run_bind]
      rcases hrun : (forEach (fun p ↦ do let _ ← cancelRun H p) (pendingRunIds s)).run s₀ with
        ⟨error | u, s₁⟩
      all_goals rw [hrun] at hcancelled hreturns
      · refine ⟨fun ⟨hok, _⟩ ↦ absurd hok (by simp), fun hall ↦ ?_⟩
        exact absurd (hreturns.mpr fun x ⟨p, hp, hx⟩ ↦ hall p hp x hx) (by simp)
      · have hall := hreturns.mp rfl
        have hhandled := (hcancelled.handles hall).2
        obtain ⟨hok, hspares⟩ := settleWaiters_spares H s₁.approvalWaiters s₁
        rw [andThen_ok, run_get_bind]
        refine ⟨fun _ p hp x hx ↦ hall x ⟨p, hp, hx⟩, fun _ ↦ ⟨hok, fun p hp hexists ↦ ?_⟩⟩
        refine hspares.handled ?_
        obtain ⟨row, hrow⟩ := Option.isSome_iff_exists.mp hexists
        cases ht : row.status.isTerminalRunStatus with
        | true => exact hcancelled.spares.handled (Or.inl ⟨row, hrow, ht⟩)
        | false => exact hhandled p ⟨p, hp, ⟨row, hrow, ht⟩, .refl⟩

/-- A run that has been checkpointed, cancelled while it is being released. -/
def cancelledRelease : List Input :=
  let r := js "run_0"
  [.createRun rootRequest, .immediate r, .predecessorsSettled r, .resume r,
    .workspacePrepared r (.ok ⟨false, false⟩), .agentPrepared r (.ok ⟨[], []⟩),
    .modelEvent r (.completed .stop), .modelDone r, .resume r,
    .checkpointed r (.ok ⟨false, false⟩)]

/-- The table refuses the cancellation. -/
theorem not_cancelled_cancelledRelease :
    ¬∀ (H : Host) (O : Options) (history : List Input) (r : JsString),
      ∃ run, ((cancelRun H r).run (after H O {} history)).1 = .ok run := by
  intro h
  obtain ⟨run, hrun⟩ := h referenceHost referenceOptions cancelledRelease (js "run_0")
  have hthrown : ((cancelRun referenceHost (js "run_0")).run
      (after referenceHost referenceOptions {} cancelledRelease)).1.isOk = false := by
    decide +kernel
  rw [hrun] at hthrown
  exact absurd hthrown (by simp [Except.isOk, Except.toBool])

end Service

end LiteHarness
