import LiteHarness.ControlPlane.Terminal

/-!
# Tool calls and their approvals

A call reaches the tools from one point of the agent loop only. Where the call needs an approval,
its record is read again at that point: it is approved, has not expired, and its binding is that
of the call under the present policy and route. A record becomes approved by the operator's
decision only, and never changes after it has left `PENDING`.
-/

namespace LiteHarness

open Foundation Foundation.Eff

namespace Store

/-! ## The records along a step -/

variable {P : Platform} {L : Licence} {S S' : Store} {id : JsString} {a : ApprovalRow}

/-- A record that has left `PENDING` never changes. -/
theorem Evolves.approval_decided (h : Evolves P L S S') (ha : S.approval? id = some a)
    (hdecided : a.status ≠ .pending) : S'.approval? id = some a := by
  induction h with
  | refl => exact ha
  | tail _ hstep ih =>
    obtain ⟨op, hissued, rfl⟩ := hstep
    cases ApprovalStep.of_issued hissued id with
    | same hsame => exact hsame.trans ih
    | created hnone => exact absurd (hnone.symm.trans ih) (by simp)
    | resolved ha₀ hpending =>
      obtain rfl := Option.some.inj (ih.symm.trans ha₀)
      exact absurd hpending hdecided

/-- Without the licence to approve, an approved record was approved before. -/
theorem Evolves.approval_approved (h : Evolves P L S S') (hL : ¬L.approves)
    (ha : S'.approval? id = some a) (happroved : a.status = .approved) :
    S.approval? id = some a := by
  induction h with
  | refl => exact ha
  | tail _ hstep ih =>
    obtain ⟨op, hissued, rfl⟩ := hstep
    cases ApprovalStep.of_issued hissued id with
    | same hsame => exact ih (hsame.symm.trans ha)
    | created _ hrecord hstatus =>
      obtain rfl := Option.some.inj (hrecord.symm.trans ha)
      exact absurd (hstatus.symm.trans happroved) (by decide)
    | resolved _ _ _ _ hrecord _ happroves =>
      obtain rfl := Option.some.inj (hrecord.symm.trans ha)
      exact absurd (happroves happroved) hL

/-- The licence of the operator's decision. -/
def deciding : Licence := { resolves := True, approves := True }

/-- A decision files nothing: what it leaves pending was pending before. -/
theorem Evolves.approval_pending (h : Evolves P deciding S S') (ha : S'.approval? id = some a)
    (hpending : a.status = .pending) : S.approval? id = some a := by
  induction h with
  | refl => exact ha
  | tail _ hstep ih =>
    obtain ⟨op, hissued, rfl⟩ := hstep
    cases ApprovalStep.of_issued hissued id with
    | same hsame => exact ih (hsame.symm.trans ha)
    | created _ _ _ _ hfiles => exact hfiles.elim
    | @resolved _ status _ _ _ _ _ hrecord =>
      obtain rfl := Option.some.inj (hrecord.symm.trans ha)
      exact absurd hpending status.2

/-- The status of a run before a decision, which leaves it alone. -/
theorem Evolves.status_before (h : Evolves P deciding S S') {r : JsString} {row' : RunRow}
    (hrow' : S'.run? r = some row') : ∃ row, S.run? r = some row ∧ row.status = row'.status := by
  induction h generalizing row' with
  | refl => exact ⟨row', hrow', rfl⟩
  | @tail S₁ S₂ _ hstep ih =>
    obtain ⟨op, hissued, rfl⟩ := hstep
    cases hrow₁ : S₁.run? r with
    | none =>
      obtain ⟨_, _, _, -, hcreates, -⟩ := (LogStep.of_issued hissued).run?_none hrow₁ hrow'
      exact hcreates.elim
    | some row₁ =>
      obtain ⟨row₂, hrow₂, hkept⟩ := (LogStep.of_issued hissued).keeps hrow₁
      obtain rfl := Option.some.inj (hrow'.symm.trans hrow₂)
      obtain ⟨row, hrow, hstatus⟩ := ih hrow₁
      exact ⟨row, hrow, hstatus.trans ((hkept.status id).resolve_right fun h ↦ h.1).symm⟩

/-- The record was approved by a decision made in this store: it was pending, it had not expired,
and its run had not ended. -/
structure Approves (S : Store) (id : JsString) (a : ApprovalRow) : Prop where
  pending : ∃ a₀ t, S.approval? id = some a₀ ∧ a₀.status = .pending ∧
    a = a₀.resolve .approved t ∧ t < a.expiresAt
  active : ∃ row, S.run? a.runId = some row ∧ row.status.isTerminalRunStatus = false

/-- An approved record was approved before the decision, or by it. -/
theorem Evolves.approves (h : Evolves P deciding S S') (ha : S'.approval? id = some a)
    (happroved : a.status = .approved) : S.approval? id = some a ∨ S.Approves id a := by
  induction h with
  | refl => exact Or.inl ha
  | @tail S₁ S₂ hfirst hstep ih =>
    obtain ⟨op, hissued, rfl⟩ := hstep
    have hS₁ : Evolves P deciding S S₁ := hfirst
    cases ApprovalStep.of_issued hissued id with
    | same hsame => exact ih (hsame.symm.trans ha)
    | created _ hrecord hstatus =>
      obtain rfl := Option.some.inj (hrecord.symm.trans ha)
      exact absurd (hstatus.symm.trans happroved) (by decide)
    | @resolved a₀ status t ha₀ hpending hexpiry hactive hrecord =>
      obtain rfl := Option.some.inj (hrecord.symm.trans ha)
      obtain ⟨status, hresolution⟩ := status
      obtain rfl : status = .approved := happroved
      obtain ⟨row₁, hrow₁, hopen⟩ := hactive
      obtain ⟨row, hrow, hstatus⟩ := hS₁.status_before hrow₁
      exact Or.inr ⟨⟨a₀, t, hS₁.approval_pending ha₀ hpending, hpending, rfl, hexpiry rfl⟩,
        row, hrow, hstatus ▸ hopen⟩

end Store

namespace Service

variable {H : Host} {O : Options}

/-- A step leaves a record that has left `PENDING` as it is. -/
theorem step_approval_decided {s : Service} (h : Reachable H O s) {id : JsString}
    {a : ApprovalRow} (ha : s.store.approval? id = some a) (hdecided : a.status ≠ .pending)
    (input : Input) : (step H O s input).store.approval? id = some a := by
  obtain ⟨L, hevolves⟩ := step_evolves O h.logged input
  exact hevolves.approval_decided ha hdecided

theorem after_approval_decided {s : Service} (h : Reachable H O s) {id : JsString}
    {a : ApprovalRow} (ha : s.store.approval? id = some a) (hdecided : a.status ≠ .pending)
    (later : List Input) : (after H O s later).store.approval? id = some a := by
  induction later using List.reverseRecOn with
  | nil => exact ha
  | append_singleton later input ih =>
    rw [after_append]
    exact step_approval_decided (h.after later) ih hdecided input

/-- A record becomes approved by the operator's decision only. -/
theorem step_approves {s : Service} (h : Reachable H O s) (input : Input) {id : JsString}
    {a : ApprovalRow} (ha : (step H O s input).store.approval? id = some a)
    (happroved : a.status = .approved) :
    s.store.approval? id = some a ∨ s.store.Approves id a := by
  by_cases hrestart : input = .restart
  · subst hrestart
    rw [step_restart] at ha
    exact Or.inl ((reconcileInterruptedRuns_effects (s := restarted s) h.logged).evolves.approval_approved
      (fun h ↦ h) ha happroved)
  cases hexec : input.execution? with
  | none =>
    have heffects := handle_call (H := H) (O := O) hexec hrestart s
    cases input with
    | resolveApproval =>
      have hevolves : Store.Evolves H.toPlatform Store.deciding s.store _ := heffects.evolves
      exact hevolves.approves ha happroved
    | _ => exact Or.inl (heffects.evolves.approval_approved (fun h ↦ h) ha happroved)
  | some r =>
    cases he : s.execution? r with
    | none =>
      rw [step_idle hexec he] at ha
      exact Or.inl ha
    | some e =>
      exact Or.inl ((handle_execution (H := H) (O := O) hexec he).evolves.approval_approved
        (fun h ↦ h) ha happroved)

/-- In the course of the history the record was approved, once: it was pending at every earlier
moment, one input approved it in time and while its run had not ended, and it stayed as it was at
every later moment. -/
def ApprovedDuring (H : Host) (O : Options) (history : List Input) (id : JsString)
    (a : ApprovalRow) : Prop :=
  ∃ before decision later, history = before ++ decision :: later ∧
    (∀ earlier, earlier <+: before → ∀ a', (after H O {} earlier).store.approval? id = some a' →
      a'.status = .pending) ∧
    (after H O {} before).store.Approves id a ∧
    ∀ since, since <+: later →
      (after H O {} (before ++ decision :: since)).store.approval? id = some a

theorem ApprovedDuring.of_approved (history : List Input) {id : JsString} {a : ApprovalRow}
    (ha : (after H O {} history).store.approval? id = some a) (happroved : a.status = .approved) :
    ApprovedDuring H O history id a := by
  have hdecided : a.status ≠ .pending := fun h ↦ absurd (h.symm.trans happroved) (by decide)
  induction history using List.reverseRecOn with
  | nil => exact absurd ha (by simp [after, Store.approval?, Table.lookup])
  | append_singleton history input ih =>
    have hafter := ha
    rw [after_append] at ha
    rcases step_approves ⟨history, rfl⟩ input ha happroved with hbefore | happroves
    · obtain ⟨before, decision, later, rfl, hearlier, happroves, hlater⟩ := ih hbefore
      refine ⟨before, decision, later ++ [input], by simp, hearlier, happroves,
        fun since hsince ↦ ?_⟩
      rcases List.prefix_concat_iff.mp hsince with rfl | hsince
      · simpa using hafter
      · exact hlater since hsince
    · refine ⟨history, input, [], rfl, fun earlier hearlier a' ha' ↦ ?_, happroves,
        fun since hsince ↦ ?_⟩
      · -- what had left `PENDING` earlier would not be pending now
        by_contra hne
        obtain ⟨rest, rfl⟩ := hearlier
        obtain ⟨a₀, t, ha₀, hpending, -⟩ := happroves.pending
        rw [after_concat] at ha₀
        have hsame := after_approval_decided (H := H) (O := O) ⟨earlier, rfl⟩ ha' hne rest
        obtain rfl := Option.some.inj (hsame.symm.trans ha₀)
        exact hne hpending
      · rw [List.prefix_nil.mp hsince]
        exact hafter

/-! ## The call -/

/-- Only a stretch with the licence to do so hands calls to the tools. -/
theorem Effects.executed_eq {L : Licence} {s s' : Service} (h : Effects H L s s')
    (hL : ¬L.executes) : s'.executed = s.executed := by
  induction h with
  | refl => rfl
  | tail _ heffect ih =>
    cases heffect with
    | executed _ hexecutes => exact absurd hexecutes hL
    | _ => exact ih

theorem fromExcept_eq_ok {α : Type} {x : Except JsError α} {s s' : Service} {a : α}
    (h : (fromExcept x : ServiceM α).run s = (.ok a, s')) : x = .ok a ∧ s' = s := by
  obtain ⟨rfl, rfl⟩ := Prod.mk.inj h
  exact ⟨rfl, rfl⟩

theorem digest_eq_ok {x : Except CanonicalJsonError JsString} {s s' : Service} {d : JsString}
    (h : (digest x).run s = (.ok d, s')) : x = .ok d ∧ s' = s := by
  obtain ⟨hx, rfl⟩ := fromExcept_eq_ok h
  refine ⟨?_, rfl⟩
  cases x with
  | error e => exact absurd hx (by simp [Except.mapError])
  | ok d' => exact congrArg _ (Except.ok.inj hx)

theorem approvalRouteGeneration_eq_ok {run : RunRecord} {s s' : Service} {g : JsString}
    (h : (approvalRouteGeneration run).run s = (.ok g, s')) :
    g = s.routeGeneration run ∧ s' = s := by
  rw [approvalRouteGeneration, run_get_bind, run_ite] at h
  split_ifs at h
  · exact absurd h not_throw_eq_ok
  · exact pure_eq_ok_iff.mp h

/-- The binding of the call, as it is in this state, is the one the record was filed with. -/
def BindingHolds (H : Host) (s : Service) (record : ApprovalRow) (call : ToolCall) : Prop :=
  ∃ run profile argumentsDigest, s.store.getRun record.runId = some run ∧
    s.store.getAgentProfile run.agentId run.owner = some profile ∧
    H.approvalArgumentsDigest call.arguments = .ok argumentsDigest ∧
    record.binding H.toPlatform = bindingOf H run call.id call.name argumentsDigest
      profile.version (s.routeGeneration run) record.expiresAt

/-- The check of a call compares the two bindings, under a collision-free hash. -/
theorem approvalBindingIsCurrent_eq_true {record : ApprovalRow} {call : ToolCall} {s s' : Service}
    (hdigest : H.approvalExecutionDigest (record.binding H.toPlatform) =
      .ok record.executionDigest)
    (h : (approvalBindingIsCurrent H record (some call)).run s = (.ok true, s')) :
    s.BindingHolds H record call := by
  rw [approvalBindingIsCurrent, getRun_bind_run] at h
  cases hrun : s.store.getRun record.runId with
  | none =>
    rw [hrun] at h
    exact absurd (pure_eq_ok_iff.mp h).1 Bool.true_eq_false_eq_False
  | some run =>
    rw [hrun] at h
    dsimp only at h
    rw [run_get_bind] at h
    cases hprofile : s.store.getAgentProfile run.agentId run.owner with
    | none =>
      rw [hprofile] at h
      exact absurd (pure_eq_ok_iff.mp h).1 Bool.true_eq_false_eq_False
    | some profile =>
      rw [hprofile] at h
      obtain ⟨route, s₁, hroute, h⟩ := bind_eq_ok_iff.mp h
      obtain ⟨rfl, rfl⟩ := approvalRouteGeneration_eq_ok hroute
      rw [run_ite] at h
      split_ifs at h with hchanged
      · exact absurd (pure_eq_ok_iff.mp h).1 Bool.true_eq_false_eq_False
      obtain ⟨d, s₂, hrun₂, h₂⟩ := bind_eq_ok_iff.mp h
      obtain ⟨d', s₃, hrun₃, h₃⟩ := bind_eq_ok_iff.mp h₂
      obtain ⟨hd, rfl⟩ := digest_eq_ok hrun₂
      obtain ⟨hd', rfl⟩ := digest_eq_ok hrun₃
      have hsame : d' = record.executionDigest := of_decide_eq_true (pure_eq_ok_iff.mp h₃).1.symm
      refine ⟨run, profile, d, hrun, hprofile, hd, ?_⟩
      exact (H.approvalExecutionDigest_eq_iff _ _).mp (hdigest.trans (hsame ▸ hd'.symm))

/-- The arguments the approval was requested for are those of the call, up to key order. -/
theorem BindingHolds.sameArguments {s : Service} {record : ApprovalRow} {call : ToolCall}
    (h : s.BindingHolds H record call) {requested called : JsonObject}
    (hcalled : called.1 = call.arguments)
    (hrequested : H.approvalArgumentsDigest requested = .ok record.toolArgumentsDigest) :
    SameJson (.object requested) (.object called) := by
  obtain ⟨run, profile, d, -, -, hd, hbinding⟩ := h
  refine (H.approvalArgumentsDigest_eq_iff requested called).mp ?_
  have hsame : record.toolArgumentsDigest = d :=
    congrArg ApprovalExecutionBinding.toolArgumentsDigest hbinding
  rw [hrequested, hsame, hcalled, hd]

/-- The approval authorizes the call in this state. -/
structure Authorizes (H : Host) (s : Service) (a : ApprovalRow) (runId : JsString)
    (call : ToolCall) : Prop where
  approved : a.status = .approved
  run : a.runId = runId
  expiry : H.clock s.readings < a.expiresAt
  binding : s.BindingHolds H a call
  arguments : ∀ requested called : JsonObject, called.1 = call.arguments →
    H.approvalArgumentsDigest requested = .ok a.toolArgumentsDigest →
    SameJson (.object requested) (.object called)

theorem assertApprovalExecutable_eq_ok {id : JsString} {run : RunRecord} {call : ToolCall}
    {s s' : Service} {u : PUnit} (hfiled : s.store.Filed H.toPlatform)
    (h : (assertApprovalExecutable H id run call).run s = (.ok u, s')) :
    ∃ a, s.store.approval? id = some a ∧ s.Authorizes H a run.id call := by
  rw [assertApprovalExecutable, run_get_bind] at h
  cases ha : s.store.approval? id with
  | none =>
    rw [ha] at h
    exact absurd h not_throw_eq_ok
  | some a =>
    rw [ha] at h
    dsimp only at h
    rw [run_ite] at h
    by_cases happroved : a.status = .approved
    rotate_left
    · rw [if_pos happroved] at h
      exact absurd h not_throw_eq_ok
    rw [if_neg (not_not.mpr happroved), run_bind, now_run, andThen_ok, run_ite] at h
    split_ifs at h with hexpired hrun
    · exact absurd h not_throw_eq_ok
    · exact absurd h not_throw_eq_ok
    obtain ⟨current, s₁, hcurrent, h⟩ := bind_eq_ok_iff.mp h
    cases current with
    | false => exact absurd h not_throw_eq_ok
    | true =>
      have hbinding := approvalBindingIsCurrent_eq_true (hfiled.records id a ha).digest hcurrent
      exact ⟨a, rfl, happroved, not_not.mp hrun, not_le.mp hexpired, hbinding,
        fun _ _ ↦ hbinding.sameArguments⟩

/-- What a call that reaches the tools has passed: its agent loop was at the point before the
call, and an approval that was required authorizes it. -/
structure Passed (H : Host) (O : Options) (s : Service) (x : ToolExecution) : Prop where
  waiting : ∃ e rest a, s.execution? x.runId = some e ∧
    e.point = .agent (.authorized x.call rest x.approval) a ∧
    (O.requiresApproval x.call e.run = true → ∃ id, x.approval = some id)
  authorized : ∀ id ∈ x.approval, ∃ a, s.store.approval? id = some a ∧
    s.Authorizes H a x.runId x.call

theorem executeTool_executed (e : Execution) (a : AgentState) (call : ToolCall)
    (rest : List ToolCall) (approval : Option JsString) {s : Service}
    (hfiled : s.store.Filed H.toPlatform) :
    ((executeTool H e a call rest approval).run s).2.executed = s.executed ∨
      ((executeTool H e a call rest approval).run s).2.executed =
          s.executed ++ [⟨e.runId, call, approval⟩] ∧
        ∀ id ∈ approval, ∃ a, s.store.approval? id = some a ∧ s.Authorizes H a e.run.id call := by
  let check : ServiceM PUnit := approval.elim (pure ⟨⟩) fun approvalId ↦
    assertApprovalExecutable H approvalId e.run call
  have hcheck : (check.run s).2.executed = s.executed := by
    refine Effects.executed_eq (H := H) (L := {}) ?_ id
    cases approval with
    | none => exact .refl
    | some id => exact assertApprovalExecutable_performs _ _ _ s
  have hsplit : executeTool H e a call rest approval = check >>= fun _ ↦
      if commandTimeoutValid e.run.budget.commandTimeoutMs then do
        modify fun s ↦ { s with executed := s.executed ++ [⟨e.runId, call, approval⟩] }
        pure (.agent (.executing call rest) a)
      else throw (.new (js "Command timeout must be between 100 and 3600000 milliseconds")) := by
    cases approval <;> rfl
  rw [hsplit, run_bind]
  rcases hrun : check.run s with ⟨error | u, s'⟩
  · rw [hrun] at hcheck
    exact Or.inl hcheck
  · rw [hrun] at hcheck
    dsimp only at hcheck
    rw [andThen_ok, run_ite]
    split_ifs
    · refine Or.inr ⟨?_, fun id hid ↦ ?_⟩
      · rw [← hcheck]
        rfl
      · obtain rfl := Option.mem_def.mp hid
        exact assertApprovalExecutable_eq_ok hfiled hrun
    · exact Or.inl hcheck

theorem agentStretch_executed (runId : JsString) (m : ServiceM Point) (s : Service) :
    ((agentStretch runId m).run s).2.executed = (m.run s).2.executed := by
  rw [agentStretch, run_bind, run_tryCatch]
  rcases m.run s with ⟨error | point, s'⟩ <;> rfl

/-- **A step hands at most one call to the tools**, and that call has passed its checks. -/
theorem step_executed {s : Service} (h : Reachable H O s) (input : Input) :
    (step H O s input).executed = s.executed ∨
      ∃ x, (step H O s input).executed = s.executed ++ [x] ∧ s.Passed H O x := by
  by_cases hrestart : input = .restart
  · subst hrestart
    rw [step_restart]
    exact Or.inl
      ((reconcileInterruptedRuns_effects (s := restarted s) h.logged).executed_eq fun h ↦ h)
  cases hexec : input.execution? with
  | none =>
    refine Or.inl ((handle_call (H := H) (O := O) hexec hrestart s).executed_eq ?_)
    cases input <;> exact fun h ↦ h
  | some r =>
    cases he : s.execution? r with
    | none => exact Or.inl (congrArg executed (step_idle hexec he))
    | some e =>
      obtain rfl := execution?_runId he
      obtain ⟨row, -, hstaged⟩ := h.consistent.staged _ e he
      have hwoken := step_woken (H := H) (O := O) hexec he
      generalize step H O s input = s' at hwoken ⊢
      let L : Licence := { files := fun _ ↦ True, controls := fun _ ↦ True, resolves := True
                           drains := True }
      have hquiet : ∀ {m : ServiceM PUnit}, Performs H L m → (m.run s).2.executed = s.executed :=
        fun hm ↦ (hm s).executed_eq fun h ↦ h
      cases hwoken with
      | idle => exact Or.inl rfl
      | queueTimeout => exact Or.inl (hquiet (timeoutQueuedRun_performs _ (Or.inl trivial)))
      | totalTimeout => exact Or.inl (hquiet fun s ↦ abort_effects (Or.inr trivial) trivial)
      | leaseRenewal => exact Or.inl (hquiet (renewLease_performs trivial trivial))
      | wake =>
        by_cases hpoint : e.point.IsAuthorized
        · obtain ⟨call, rest, approval, a, hagent⟩ := hpoint.eq
          rw [hagent]
          cases input with
          | resume k =>
            have hplace := hstaged.place
            unfold Execution.Place at hplace
            rw [hagent] at hplace
            have hexecuted := agentStretch_executed e.runId
              (executeTool H e a call rest approval) s
            rcases executeTool_executed e a call rest approval h.filed with
              hsame | ⟨happend, hauthorized⟩
            · exact Or.inl (hexecuted.trans hsame)
            · refine Or.inr ⟨⟨e.runId, call, approval⟩, hexecuted.trans happend,
                ⟨e, rest, a, he, hagent, fun hrequired ↦ ?_⟩, fun id hid ↦ ?_⟩
              · cases approval with
                | some id => exact ⟨id, rfl⟩
                | none => exact absurd (hplace.2.2.2.symm.trans hrequired) (by simp)
              · obtain ⟨record, hrecord, hauth⟩ := hauthorized id hid
                exact ⟨record, hrecord, hstaged.run ▸ hauth⟩
          | _ => exact Or.inl rfl
        · exact Or.inl (hquiet (wake_performs e.point input trivial trivial trivial trivial
            (fun h ↦ absurd h hpoint) fun _ ↦ trivial))

/-- One step of the history handed the call to the tools. If the call needs an approval, then at
that moment there was a record that had been approved in the course of the history before and
authorized the call. -/
def GuardedDuring (H : Host) (O : Options) (history : List Input) (x : ToolExecution) : Prop :=
  ∃ before input later, history = before ++ input :: later ∧
    (after H O {} (before ++ [input])).executed = (after H O {} before).executed ++ [x] ∧
    ∃ e rest a, (after H O {} before).execution? x.runId = some e ∧
      e.point = .agent (.authorized x.call rest x.approval) a ∧
      (O.requiresApproval x.call e.run = true → ∃ id record, x.approval = some id ∧
        (after H O {} before).store.approval? id = some record ∧
        ApprovedDuring H O before id record ∧
        (after H O {} before).Authorizes H record x.runId x.call)

theorem GuardedDuring.append {history : List Input} {x : ToolExecution}
    (h : GuardedDuring H O history x) (input : Input) :
    GuardedDuring H O (history ++ [input]) x := by
  obtain ⟨before, input', later, rfl, hrest⟩ := h
  exact ⟨before, input', later ++ [input], by simp, hrest⟩

/-- **Approvals guard the tools.** Every call that was ever handed to the tools was guarded: if it
needs an approval, a record exists that was moved from pending to approved before, once, in time
and while its run had not ended; the record has not expired, and the binding it was filed with is
that of the call under the run, policy and route of that moment. A record that has left `PENDING`
never changes again, and exactly one event announces its status. -/
theorem approvals_guard_tools (history : List Input) :
    (∀ x ∈ (after H O {} history).executed, GuardedDuring H O history x) ∧
    ∀ id record, (after H O {} history).store.approval? id = some record →
      record.status ≠ .pending →
      (∀ later, (after H O {} (history ++ later)).store.approval? id = some record) ∧
      (after H O {} history).store.resolutions id = [(record.runId, record.status)] := by
  constructor
  · induction history using List.reverseRecOn with
    | nil => exact fun _ hx ↦ absurd hx List.not_mem_nil
    | append_singleton history input ih =>
      intro x hx
      rw [after_append] at hx
      rcases step_executed (H := H) (O := O) ⟨history, rfl⟩ input with hsame | ⟨y, happend, hpassed⟩
      · exact (ih x (hsame ▸ hx)).append input
      · rw [happend] at hx
        rcases List.mem_append.mp hx with hx | hx
        · exact (ih x hx).append input
        obtain rfl := List.mem_singleton.mp hx
        obtain ⟨e, rest, a, he, hpoint, hrequired⟩ := hpassed.waiting
        refine ⟨history, input, [], rfl, ?_, e, rest, a, he, hpoint, fun h ↦ ?_⟩
        · rw [after_append, happend]
        · obtain ⟨id, hid⟩ := hrequired h
          obtain ⟨record, hrecord, hauthorizes⟩ := hpassed.authorized id hid
          exact ⟨id, record, hid, hrecord, .of_approved history hrecord hauthorizes.approved,
            hauthorizes⟩
  · intro id record hrecord hdecided
    refine ⟨fun later ↦ ?_, ?_⟩
    · rw [after_concat]
      exact after_approval_decided ⟨history, rfl⟩ hrecord hdecided later
    · have hfiled := (Reachable.filed (H := H) (O := O) ⟨history, rfl⟩).records id record hrecord
      rw [← (Store.approval?_mem hrecord).2, hfiled.log, if_neg hdecided]

end Service

end LiteHarness
