import LiteHarness.Storage.ApprovalLog

/-!
# Runs that have ended

A run with a terminal status is sealed: its row keeps its status, errors and usage, its approvals,
attempts and messages stay as they are, and its log only takes the summaries of children that have
ended themselves. Each operation guards this in its own way. The one operation without a guard of
its own, the creation of approvals and attempts, is left to whoever files them.
-/

namespace LiteHarness

open Foundation

namespace Store

/-! ## No attempt outlives its run -/

/-- Once the run has ended, none of its attempts is running. -/
def Calm (r : JsString) (S : Store) : Prop :=
  ∀ row, S.run? r = some row → row.status.isTerminalRunStatus = true →
    ∀ a ∈ S.attempts, a.runId = r → a.status ≠ .running

theorem Calm.empty (r : JsString) : Calm r {} := fun _ _ _ _ ha ↦ absurd ha List.not_mem_nil

/-- A run that has not ended is calm whatever its attempts do. -/
theorem Calm.of_active {r : JsString} {S : Store} {row : RunRow} (hrow : S.run? r = some row)
    (h : row.status.isTerminalRunStatus = false) : S.Calm r := by
  intro row' hrow' ht
  obtain rfl := Option.some.inj (hrow.symm.trans hrow')
  exact absurd (h.symm.trans ht) Bool.false_ne_true

theorem Calm.congr {r : JsString} {S T : Store} (h : S.Calm r) (hruns : T.runs = S.runs)
    (hattempts : T.attempts = S.attempts) : T.Calm r := by
  intro row hrow ht
  rw [hattempts]
  exact h row ((run?_congr hruns r).symm.trans hrow) ht

theorem mem_endAttempts {now : ℤ} {runId : JsString} {status : RunStatus} {S : Store}
    {a : AttemptRow} (ha : a ∈ (endAttempts now runId status S).attempts) :
    a ∈ S.attempts ∧ (a.runId = runId → a.status ≠ .running) ∨
      a.status = status ∧ a.runId = runId := by
  obtain ⟨a₀, ha₀, rfl⟩ := Table.mem_update.mp ha
  by_cases h : a₀.runId = runId ∧ a₀.status = .running
  · refine Or.inr ?_
    rw [if_pos (decide_eq_true h)]
    exact ⟨rfl, h.1⟩
  · refine Or.inl ?_
    rw [if_neg (by simpa using h)]
    exact ⟨ha₀, fun hid hrunning ↦ h ⟨hid, hrunning⟩⟩

theorem ne_running_of_isTerminal {status : RunStatus} (h : status.isTerminalRunStatus = true) :
    status ≠ .running := by
  rintro rfl
  exact absurd h Bool.false_ne_true

theorem Calm.endAttempts {r : JsString} {S : Store} (h : S.Calm r) {now : ℤ} {runId : JsString}
    {status : RunStatus} (hstatus : status.isTerminalRunStatus = true) :
    (Store.endAttempts now runId status S).Calm r := by
  intro row hrow ht a ha hid
  rcases mem_endAttempts ha with ⟨ha, -⟩ | ⟨hend, -⟩
  · exact h row hrow ht a ha hid
  · rw [hend]
    exact ne_running_of_isTerminal hstatus

/-- An event that ends a run ends its attempts with it. -/
theorem Calm.recorded {r : JsString} {S : Store} (h : S.Calm r) {createdAt : ℤ}
    {params : AppendRunEvent} {row : RunRow} : (S.recorded createdAt params row).Calm r := by
  intro row' hrow' ht a ha hid
  rw [run?_recorded] at hrow'
  obtain ⟨row₀, hrow₀, rfl⟩ := Option.map_eq_some_iff.mp hrow'
  obtain ⟨-, hid₀⟩ := run?_mem hrow₀
  simp only [Store.recorded] at ha
  cases hstatus : params.status with
  | none =>
    rw [hstatus] at ha
    refine h row₀ hrow₀ ?_ a ha hid
    split_ifs at ht
    · simpa [appended, hstatus] using ht
    · exact ht
  | some status =>
    simp only [hstatus] at ha
    by_cases hr : row₀.id = params.runId
    · rw [if_pos hr] at ht
      replace ht : status.isTerminalRunStatus = true := by simpa [appended, hstatus] using ht
      rw [if_pos ht] at ha
      rcases mem_endAttempts ha with ⟨-, hended⟩ | ⟨hended, -⟩
      · exact hended (hid.trans (hid₀.symm.trans hr))
      · rw [hended]
        exact ne_running_of_isTerminal ht
    · rw [if_neg hr] at ht
      split_ifs at ha with hterminal
      · exact h.endAttempts hterminal row₀ hrow₀ ht a ha hid
      · exact h row₀ hrow₀ ht a ha hid

/-- Only filing an attempt for a run that has ended would disturb it. -/
theorem Calm.issued {P : Platform} {L : Licence} {S : Store} {r : JsString} (h : S.Calm r)
    (hr : ¬L.files r) {op : StoreOp} (hop : op.Issued P L S) : (op.apply P S).Calm r := by
  rcases op.cases P S with heq | hchange
  · rwa [heq]
  · generalize op.apply P S = S' at hchange
    cases hchange with
    | created hcreated =>
      intro row hrow ht
      rw [hcreated.attempts]
      rw [hcreated.run?_eq] at hrow
      split_ifs at hrow with hk
      · obtain rfl := Option.some.inj hrow
        obtain ⟨_, _, _, _, rfl⟩ := hcreated.row_eq
        exact absurd ht Bool.false_ne_true
      · exact h row hrow ht
    | appended => exact h.recorded
    | usage => exact absurd hop id
    | acquired hacquired =>
      rw [hacquired.store]
      exact h.congr rfl rfl
    | approvalResolved => exact absurd hop id
    | approvalRecorded => exact (h.congr (T := setApproval _ _ _ S) rfl rfl).recorded
    | attemptCreated hid hattempt hstatus hfresh hrun =>
      intro row hrow ht a ha hrunId
      rcases List.mem_append.mp ha with ha | ha
      · exact h row hrow ht a ha hrunId
      · obtain rfl := List.mem_singleton.mp ha
        exact absurd (hrunId ▸ hattempt ▸ hop) hr
    | attemptCompleted => exact absurd hop id
    | @attemptsCompleted now runId status => exact h.endAttempts status.2
    | _ => exact h.congr rfl rfl

theorem Evolves.calm {P : Platform} {L : Licence} {S S' : Store} (h : Evolves P L S S')
    {r : JsString} (hr : ¬L.files r) (hS : S.Calm r) : S'.Calm r := by
  induction h with
  | refl => exact hS
  | tail _ hstep ih =>
    obtain ⟨op, hissued, rfl⟩ := hstep
    exact ih.issued hr hissued

/-! ## What still happens to a run that has ended -/

/-- The event is the summary of a child of the run that has ended with the status it names. -/
structure IsChildSummary (S : Store) (r : JsString) (e : EventRow) : Prop where
  type : e.type = .subagentCompleted
  child : ∃ id child, truthy e.payload.childRunId = some id ∧ S.run? id = some child ∧
    child.parentRunId = some r ∧ child.status.isTerminalRunStatus = true ∧
    e.payload.runStatus = some child.status

/-- From `S` to `S'` nothing has changed about the run but the summaries of its children. -/
structure Sealed (r : JsString) (S S' : Store) : Prop where
  row : ∀ row, S.run? r = some row → ∃ row', S'.run? r = some row' ∧
    row'.identity = row.identity ∧ row'.status = row.status ∧ row'.errorCode = row.errorCode ∧
    row'.errorMessage = row.errorMessage ∧ row'.usage = row.usage
  approvals : S'.approvals.filter (fun a ↦ a.runId = r) = S.approvals.filter fun a ↦ a.runId = r
  attempts : S'.attempts.filter (fun a ↦ a.runId = r) = S.attempts.filter fun a ↦ a.runId = r
  messages : S'.messages.filter (fun m ↦ m.runId = some r) =
    S.messages.filter fun m ↦ m.runId = some r
  log : ∃ added, S'.eventsOf r = S.eventsOf r ++ added ∧ ∀ e ∈ added, S'.IsChildSummary r e

theorem Sealed.refl (r : JsString) (S : Store) : Sealed r S S where
  row row hrow := ⟨row, hrow, rfl, rfl, rfl, rfl, rfl⟩
  approvals := rfl
  attempts := rfl
  messages := rfl
  log := ⟨[], (List.append_nil _).symm, fun _ h ↦ absurd h List.not_mem_nil⟩

/-- A child that has ended stays as its summary describes it. -/
theorem IsChildSummary.evolves {P : Platform} {L : Licence} {S S' : Store} {r : JsString}
    {e : EventRow} (h : S.IsChildSummary r e) (hS : Evolves P L S S') : S'.IsChildSummary r e := by
  obtain ⟨id, child, hid, hchild, hparent, ht, hstatus⟩ := h.child
  obtain ⟨child', hchild', hkept⟩ := hS.keeps hchild
  have hsame := hkept.terminal ht
  refine ⟨h.type, id, child', hid, hchild', ?_, hsame ▸ ht, hsame ▸ hstatus⟩
  exact (congrArg RunIdentity.parentRunId hkept.identity).trans hparent

theorem Sealed.trans {P : Platform} {L : Licence} {r : JsString} {S S' S'' : Store}
    (h : Sealed r S S') (h' : Sealed r S' S'') (hS : Evolves P L S' S'') : Sealed r S S'' := by
  obtain ⟨added, hadded, hsummary⟩ := h.log
  obtain ⟨added', hadded', hsummary'⟩ := h'.log
  refine ⟨fun row hrow ↦ ?_, h'.approvals.trans h.approvals, h'.attempts.trans h.attempts,
    h'.messages.trans h.messages, added ++ added', ?_, fun e he ↦ ?_⟩
  · obtain ⟨row₁, hrow₁, hid₁, hst₁, hcode₁, hmsg₁, hus₁⟩ := h.row row hrow
    obtain ⟨row₂, hrow₂, hid₂, hst₂, hcode₂, hmsg₂, hus₂⟩ := h'.row row₁ hrow₁
    exact ⟨row₂, hrow₂, hid₂.trans hid₁, hst₂.trans hst₁, hcode₂.trans hcode₁,
      hmsg₂.trans hmsg₁, hus₂.trans hus₁⟩
  · rw [hadded', hadded, List.append_assoc]
  · rcases List.mem_append.mp he with he | he
    · exact (hsummary e he).evolves hS
    · exact hsummary' e he

theorem filter_append_of_not {α : Type} {p : α → Bool} {x : α} (h : p x = false) (l : List α) :
    (l ++ [x]).filter p = l.filter p := by
  rw [List.filter_append, List.filter_singleton, h, cond_false, List.append_nil]

theorem filter_update_of_not {α : Type} {p q : α → Bool} {f : α → α}
    (hf : ∀ a, q (f a) = q a) {l : List α} (h : ∀ a ∈ l, q a = true → p a = false) :
    (Table.update p f l).filter q = l.filter q := by
  induction l with
  | nil => rfl
  | cons a l ih =>
    have ih := ih fun b hb ↦ h b (List.mem_cons_of_mem _ hb)
    rw [Table.update] at ih ⊢
    rw [List.map_cons, List.filter_cons, List.filter_cons, ih]
    cases hq : q a with
    | true => rw [h a List.mem_cons_self hq]; simp [hq]
    | false => cases hp : p a <;> simp [hf, hq]

/-- The attempts of a run that has ended are left alone. -/
theorem Calm.filter_endAttempts {r : JsString} {S : Store} (h : S.Calm r) {row : RunRow}
    (hrow : S.run? r = some row) (ht : row.status.isTerminalRunStatus = true) (now : ℤ)
    (runId : JsString) (status : RunStatus) :
    (Store.endAttempts now runId status S).attempts.filter (fun a ↦ a.runId = r) =
      S.attempts.filter fun a ↦ a.runId = r := by
  refine filter_update_of_not
    (f := fun a : AttemptRow ↦ { a with status := status, endedAt := some now }) (fun _ ↦ rfl)
    fun a ha hid ↦ ?_
  have hcalm := h row hrow ht a ha (by simpa using hid)
  simp [hcalm]

/-- An event, on whatever run, leaves a run that has ended sealed. -/
theorem Sealed.recorded {r : JsString} {S : Store} (createdAt : ℤ) (hcalm : S.Calm r)
    {row : RunRow} (hrow : S.run? r = some row) (ht : row.status.isTerminalRunStatus = true)
    {params : AppendRunEvent} {target : RunRow} (happend : S.Appendable params target) :
    Sealed r S (S.recorded createdAt params target) := by
  have hlog : ∃ added, (S.recorded createdAt params target).eventsOf r = S.eventsOf r ++ added ∧
      ∀ e ∈ added, (S.recorded createdAt params target).IsChildSummary r e := by
    rw [eventsOf_recorded]
    split_ifs with hr
    · subst hr
      obtain rfl := Option.some.inj (hrow.symm.trans happend.row_eq)
      obtain ⟨htype, hstatus, -, -, -, child, hchild, hparent, htc, hpayload⟩ := happend.terminal ht
      obtain ⟨id, hid, hfound⟩ := Option.bind_eq_some_iff.mp hchild
      refine ⟨_, rfl, fun e he ↦ ?_⟩
      obtain rfl := List.mem_singleton.mp he
      have hchild' : (S.recorded createdAt params row).run? id = some
          (if child.id = params.runId then appended createdAt params child else child) := by
        rw [run?_recorded, hfound, Option.map_some]
      refine ⟨htype, id, _, hid, hchild', ?_⟩
      split_ifs
      · simp only [appended, hstatus, Option.getD_none]
        exact ⟨hparent, htc, hpayload⟩
      · exact ⟨hparent, htc, hpayload⟩
    · exact ⟨[], (List.append_nil _).symm, fun _ h ↦ absurd h List.not_mem_nil⟩
  refine ⟨fun row' hrow' ↦ ?_, rfl, ?_, rfl, hlog⟩
  · obtain rfl := Option.some.inj (hrow.symm.trans hrow')
    rw [run?_recorded, hrow, Option.map_some]
    refine ⟨_, rfl, ?_⟩
    split_ifs with hid
    · have hfound : S.run? params.runId = some row := by rw [← hid, (run?_mem hrow).2, hrow]
      obtain rfl := Option.some.inj (hfound.symm.trans happend.row_eq)
      obtain ⟨-, hstatus, hcode, hmessage, husage, -⟩ := happend.terminal ht
      refine ⟨rfl, ?_, ?_, ?_, ?_⟩ <;>
        simp [appended, hstatus, hcode, hmessage, husage, withUsage, RunRow.usage]
    · exact ⟨rfl, rfl, rfl, rfl, rfl⟩
  · simp only [Store.recorded]
    split
    · split_ifs
      · exact hcalm.filter_endAttempts hrow ht _ _ _
      · rfl
    · rfl

/-- **An issued call leaves a run that has ended sealed**, unless it files something for it. -/
theorem Sealed.issued {P : Platform} {L : Licence} {S : Store} {r : JsString}
    (hlogged : S.Logged) (hfiled : S.Filed P) (hcalm : S.Calm r) {row : RunRow}
    (hrow : S.run? r = some row) (ht : row.status.isTerminalRunStatus = true) (hr : ¬L.files r)
    {op : StoreOp} (hop : op.Issued P L S) : Sealed r S (op.apply P S) := by
  rcases op.cases P S with heq | hchange
  · rw [heq]
    exact .refl r S
  · generalize op.apply P S = S' at hchange
    have hother : ∀ {run : RunRow} {k : JsString}, S.run? k = some run →
        run.status.isTerminalRunStatus = false → k ≠ r := by
      rintro run k hrun hactive rfl
      obtain rfl := Option.some.inj (hrow.symm.trans hrun)
      exact absurd (hactive.symm.trans ht) Bool.false_ne_true
    have hsame : ∀ {S' : Store}, S'.runs = S.runs → S'.events = S.events →
        S'.approvals.filter (fun a ↦ a.runId = r) = S.approvals.filter (fun a ↦ a.runId = r) →
        S'.attempts.filter (fun a ↦ a.runId = r) = S.attempts.filter (fun a ↦ a.runId = r) →
        S'.messages.filter (fun m ↦ m.runId = some r) =
          S.messages.filter (fun m ↦ m.runId = some r) → Sealed r S S' := by
      intro S' hruns hevents happrovals hattempts hmessages
      refine ⟨fun row hrow ↦ ⟨row, (run?_congr hruns r).trans hrow, rfl, rfl, rfl, rfl, rfl⟩,
        happrovals, hattempts, hmessages, [], ?_, fun _ h ↦ absurd h List.not_mem_nil⟩
      rw [eventsOf_congr hevents, List.append_nil]
    cases hchange with
    | created hcreated =>
      have hne : ∀ {id : JsString}, (∀ row ∈ S.runs, row.id ≠ id) → id ≠ r := by
        rintro id hfresh rfl
        exact hfresh row (run?_mem hrow).1 (run?_mem hrow).2
      have hne := hne hcreated.fresh
      obtain ⟨m, hm, hmessages⟩ := hcreated.messages
      refine ⟨fun row hrow ↦ ⟨row, ?_, rfl, rfl, rfl, rfl, rfl⟩, ?_, ?_, ?_, [], ?_,
        fun _ h ↦ absurd h List.not_mem_nil⟩
      · rw [hcreated.run?_eq, if_neg hne, hrow]
      · rw [hcreated.approvals]
      · rw [hcreated.attempts]
      · rw [hmessages]
        exact filter_append_of_not (by simp [hm, hne]) _
      · rw [hcreated.eventsOf_eq hlogged, if_neg hne, List.append_nil]
    | appended happend => exact .recorded _ hcalm hrow ht happend
    | message hid hrun hactive =>
      refine hsame rfl rfl rfl rfl (filter_append_of_not ?_ _)
      simp [hid, hother hrun hactive]
    | usage => exact absurd hop id
    | acquired hacquired =>
      rw [hacquired.store]
      exact hsame rfl rfl rfl rfl rfl
    | approvalCreated =>
      refine hsame rfl rfl (filter_append_of_not ?_ _) rfl rfl
      exact decide_eq_false fun hid ↦ hr (hid ▸ hop.1)
    | approvalResolved => exact absurd hop id
    | @approvalRecorded resolvedAt createdAt id a run digest payload status ha hres happend =>
      obtain ⟨-, -, rfl⟩ := hop
      obtain ⟨run', hrun', hactive⟩ := hres.2.2.2
      have hne : a.runId ≠ r := hother hrun' hactive
      have hset : (setApproval id status resolvedAt S).approvals.filter (fun a ↦ a.runId = r) =
          S.approvals.filter fun a ↦ a.runId = r := by
        refine filter_update_of_not (f := ApprovalRow.resolve status resolvedAt) (fun _ ↦ rfl)
          fun a' ha' hid ↦ decide_eq_false ?_
        -- the record of that id is the one of the other run
        rintro rfl
        have hfound := (approval?_of_mem hfiled.ids ha').symm.trans ha
        exact hne (Option.some.inj hfound ▸ of_decide_eq_true hid)
      have hsealed := Sealed.recorded createdAt (S := setApproval id status resolvedAt S)
        (hcalm.congr rfl rfl) hrow ht happend
      exact ⟨hsealed.row, hsealed.approvals.trans hset, hsealed.attempts, hsealed.messages,
        hsealed.log⟩
    | attemptCreated hid hattempt hstatus hfresh hrun =>
      refine hsame rfl rfl rfl (filter_append_of_not ?_ _) rfl
      exact decide_eq_false fun hid ↦ hr (hid ▸ hattempt ▸ hop)
    | attemptCompleted => exact absurd hop id
    | attemptsCompleted => exact hsame rfl rfl rfl (hcalm.filter_endAttempts hrow ht _ _ _) rfl
    | _ => exact hsame rfl rfl rfl rfl rfl

end Store

end LiteHarness
