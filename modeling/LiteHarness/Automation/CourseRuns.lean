import LiteHarness.Automation.Courses
import LiteHarness.Automation.Occurrences

/-!
# Triggers keep their course

A completion and a failure are the only calls that move the time of a row (`TriggerTables.Puts`),
and both move it on: the lease is its owner's only as long as the time is not later than the tick.
Each of them adds one time to the course (`Engines.Timely.extend`), the completion on the grid of
the stretch and the failure at the start of another.
-/

namespace LiteHarness.Automation

open Foundation

variable {H : ScheduleHost}

/-! ## The next time -/

section NextOccurrence

variable {trigger : IntervalTrigger} {firedAt next : ℤ}

/-- A trigger of an interval is no daily one. -/
theorem nextOccurrence_interval (h : trigger.Interval) :
    nextOccurrence H trigger firedAt =
      if trigger.missedRunPolicy = .catchUp then .ok (trigger.nextFireAt + trigger.intervalMs)
      else
        let missed := max 1 ((firedAt - trigger.nextFireAt) / trigger.intervalMs + 1)
        let base := trigger.nextFireAt + missed * trigger.intervalMs
        if trigger.jitterMs = 0 then .ok base
        else .ok (base + H.digestWord (trigger.id ++ 58 :: intLiteral base) %
          (trigger.jitterMs + 1)) := by
  rw [nextOccurrence]
  split
  · rename_i hzone hlocal
    rcases h.2 with hnone | hnone
    · exact absurd (hzone.symm.trans hnone) (Option.some_ne_none _)
    · exact absurd (hlocal.symm.trans hnone) (Option.some_ne_none _)
  · rfl

theorem nextOccurrence_catchUp (hinterval : trigger.Interval)
    (hcatchUp : trigger.missedRunPolicy = .catchUp)
    (h : nextOccurrence H trigger firedAt = .ok next) :
    next = trigger.nextFireAt + trigger.intervalMs := by
  rw [nextOccurrence_interval hinterval, if_pos hcatchUp] at h
  exact (Except.ok.inj h).symm

/-- The next occurrence after what was missed, and the delay. -/
theorem nextOccurrence_skip (hvalid : trigger.Valid) (hinterval : trigger.Interval)
    (hskip : trigger.missedRunPolicy = .skip) (h : nextOccurrence H trigger firedAt = .ok next) :
    ∃ delay, 0 ≤ delay ∧ delay ≤ trigger.jitterMs ∧ next = trigger.nextFireAt +
      max 1 ((firedAt - trigger.nextFireAt) / trigger.intervalMs + 1) * trigger.intervalMs +
        delay := by
  have hjitter := hvalid.jitter
  have hne : ¬trigger.missedRunPolicy = .catchUp := by rw [hskip]; nofun
  rw [nextOccurrence_interval hinterval, if_neg hne] at h
  by_cases hzero : trigger.jitterMs = 0
  · rw [if_pos hzero] at h
    exact ⟨0, le_rfl, hjitter, by rw [add_zero]; exact (Except.ok.inj h).symm⟩
  · rw [if_neg hzero] at h
    refine ⟨_, Int.emod_nonneg _ (by omega), ?_, (Except.ok.inj h).symm⟩
    exact Int.lt_add_one_iff.mp (Int.emod_lt_of_pos _ (by omega))

/-- The next occurrence is some intervals later, and at most the jitter behind that. -/
theorem nextOccurrence_window (hvalid : trigger.Valid) (hinterval : trigger.Interval)
    (h : nextOccurrence H trigger firedAt = .ok next) :
    ∃ m : ℤ, 1 ≤ m ∧ trigger.nextFireAt + m * trigger.intervalMs ≤ next ∧
      next ≤ trigger.nextFireAt + m * trigger.intervalMs + trigger.jitterMs := by
  rcases hpolicy : trigger.missedRunPolicy with _ | _
  · obtain ⟨delay, hnonneg, hle, rfl⟩ := nextOccurrence_skip hvalid hinterval hpolicy h
    refine ⟨_, le_max_left 1 ((firedAt - trigger.nextFireAt) / trigger.intervalMs + 1), ?_, ?_⟩
    · omega
    · omega
  · have hjitter := hvalid.jitter
    rw [nextOccurrence_catchUp hinterval hpolicy h]
    exact ⟨1, le_rfl, by omega, by omega⟩

/-- What was missed is skipped: the next occurrence is later than the tick. -/
theorem nextOccurrence_gt_tick (hvalid : trigger.Valid) (hinterval : trigger.Interval)
    (hskip : trigger.missedRunPolicy = .skip) (h : nextOccurrence H trigger firedAt = .ok next) :
    firedAt < next := by
  have hpos : 0 < trigger.intervalMs := by
    have := hvalid.interval hinterval.1
    omega
  obtain ⟨delay, hnonneg, -, rfl⟩ := nextOccurrence_skip hvalid hinterval hskip h
  -- The tick lies before the end of the last interval that was missed.
  have hend := Int.lt_ediv_add_one_mul_self (firedAt - trigger.nextFireAt) hpos
  have hle : ((firedAt - trigger.nextFireAt) / trigger.intervalMs + 1) * trigger.intervalMs ≤
      max 1 ((firedAt - trigger.nextFireAt) / trigger.intervalMs + 1) * trigger.intervalMs :=
    mul_le_mul_of_nonneg_right (le_max_right _ _) hpos.le
  omega

end NextOccurrence

/-! ## What a call does to its row -/

namespace TriggerTables

variable {T T' : TriggerTables} {id owner : JsString}

/-- **A call of the owner of a lease replaces the row** and leaves the others and the times of the
records as they are. -/
structure Puts (owner id : JsString) (row row' : TriggerRow) (T T' : TriggerTables) : Prop where
  before : T.row? id = some row
  held : row.leaseOwner = some owner
  keyed : T'.Keyed
  rows : ∀ id', T'.row? id' = if id' = id then some row' else T.row? id'
  firings : ∀ f ∈ T'.firings, ∃ f' ∈ T.firings, f'.key = f.key

theorem firings_update {p : TriggerFiring → Bool} {g : TriggerFiring → TriggerFiring}
    (hg : ∀ f, (g f).key = f.key) {f : TriggerFiring} (hf : f ∈ Table.update p g T.firings) :
    ∃ f' ∈ T.firings, f'.key = f.key := by
  obtain ⟨f', hmem, heq⟩ := Table.mem_update.mp hf
  refine ⟨f', hmem, ?_⟩
  rw [← heq]
  split_ifs
  · exact (hg f').symm
  · rfl

/-- The query of a call finds the row of a lease. -/
theorem row?_of_leased (h : T.Keyed) {row : TriggerRow}
    (hfound : T.triggers.find? (leasedBy id owner) = some row) :
    T.row? id = some row ∧ row.leaseOwner = some owner ∧ row.id = id := by
  rw [find?_leasedBy h] at hfound
  rcases hrow : T.row? id with _ | r
  · rw [hrow] at hfound
    exact absurd hfound nofun
  · rw [hrow, Option.filter_some] at hfound
    split_ifs at hfound with howner
    obtain rfl := Option.some.inj hfound
    exact ⟨rfl, of_decide_eq_true howner, id_of_row? hrow⟩

theorem complete_puts (h : T.Keyed) {firedAt : ℤ}
    (hcomplete : T.complete H id owner firedAt = .ok (T', true)) :
    ∃ row next, Puts owner id row (completedRow next firedAt row.oneShot row) T T' ∧
      (row.oneShot = false → nextOccurrence H (toTrigger row) firedAt = .ok next) := by
  rw [complete, completeQuery] at hcomplete
  rcases hfound : T.triggers.find? (leasedBy id owner) with _ | row
  · rw [hfound] at hcomplete
    cases hcomplete
  obtain ⟨hrow, howner, hid⟩ := row?_of_leased h hfound
  have hput : ∀ next, T.completeUpdate row next owner firedAt = (T', true) →
      Puts owner id row (completedRow next firedAt row.oneShot row) T T' := by
    intro next hupdate
    obtain ⟨-, hkeyed, hrows, -⟩ :=
      completeUpdate_of_leased owner h next firedAt (hid.symm ▸ hrow) howner
    rw [hupdate, hid] at hrows
    rw [hupdate] at hkeyed
    refine ⟨hrow, howner, hkeyed, hrows, fun f hf ↦ ?_⟩
    rw [completeUpdate] at hupdate
    split_ifs at hupdate
    · rw [← (Prod.mk.inj hupdate).1] at hf
      exact firings_update (g := completedFiring firedAt) (fun _ ↦ rfl) hf
    · exact absurd (Prod.mk.inj hupdate).2 Bool.false_ne_true
  rw [hfound] at hcomplete
  dsimp only at hcomplete
  split_ifs at hcomplete with hshot
  · exact ⟨row, _, hput _ (Except.ok.inj hcomplete), fun h ↦ absurd hshot (h ▸ Bool.false_ne_true)⟩
  · rcases hnext : nextOccurrence H (toTrigger row) firedAt with error | next
    · rw [hnext] at hcomplete
      cases hcomplete
    · rw [hnext] at hcomplete
      exact ⟨row, next, hput _ (Except.ok.inj hcomplete), fun _ ↦ hnext⟩

/-- A call that changes no row changes nothing. -/
theorem complete_eq_self {firedAt : ℤ}
    (hcomplete : T.complete H id owner firedAt = .ok (T', false)) : T' = T := by
  rw [complete] at hcomplete
  rcases hquery : T.completeQuery H id owner firedAt with error | found
  · rw [hquery] at hcomplete
    cases hcomplete
  rw [hquery] at hcomplete
  have hresult := Except.ok.inj hcomplete
  rcases found with _ | ⟨row, next⟩
  · exact (Prod.mk.inj hresult).1.symm
  · dsimp only [completeUpdate] at hresult
    split_ifs at hresult
    · exact absurd (Prod.mk.inj hresult).2 nofun
    · exact (Prod.mk.inj hresult).1.symm

theorem fail_puts (h : T.Keyed) {retryAt now : ℤ} {errorCode : JsString}
    (hfail : T.fail id owner retryAt now errorCode = (T', true)) :
    ∃ row, Puts owner id row (failedRow retryAt errorCode row) T T' := by
  rw [fail, failQuery] at hfail
  rcases hfound : T.triggers.find? (leasedBy id owner) with _ | row
  · rw [hfound] at hfail
    exact absurd (Prod.mk.inj hfail).2 Bool.false_ne_true
  obtain ⟨hrow, howner, -⟩ := row?_of_leased h hfound
  obtain ⟨hchanged, hkeyed, hrows, -⟩ := failUpdate_of_leased owner h retryAt errorCode hrow howner
  rw [hfound, Option.map_some] at hfail
  have hfirings : (T.failUpdate id owner retryAt errorCode).1.firings = T.firings := by
    rw [failUpdate]
    split_ifs <;> rfl
  dsimp only at hfail
  generalize T.failUpdate id owner retryAt errorCode = r at hfail hchanged hkeyed hrows hfirings
  obtain ⟨tables, changed⟩ := r
  subst hchanged
  rw [← (Prod.mk.inj hfail).1]
  refine ⟨row, hrow, howner, hkeyed, hrows, fun f hf ↦ ?_⟩
  obtain ⟨f', hf', hkey⟩ := firings_update (T := tables) (g := failedFiring now errorCode) (fun _ ↦ rfl) hf
  exact ⟨f', hfirings ▸ hf', hkey⟩

theorem fail_eq_self {retryAt now : ℤ} {errorCode : JsString}
    (hfail : T.fail id owner retryAt now errorCode = (T', false)) : T' = T := by
  rw [fail] at hfail
  split at hfail
  · exact (Prod.mk.inj hfail).1.symm
  · rw [failUpdate] at hfail
    split_ifs at hfail
    · exact absurd (Prod.mk.inj hfail).2.symm Bool.false_ne_true
    · exact (Prod.mk.inj hfail).1.symm

theorem mem_insertFiring {firing f : TriggerFiring} (hf : f ∈ T.insertFiring firing) :
    f ∈ T.firings ∨ f = firing := by
  rw [insertFiring, Table.upsert] at hf
  split_ifs at hf
  · obtain ⟨f', hmem, heq⟩ := Table.mem_update.mp hf
    rw [id, ite_self] at heq
    exact Or.inl (heq ▸ hmem)
  · rcases List.mem_append.mp hf with hold | hnew
    · exact Or.inl hold
    · exact Or.inr (List.mem_singleton.mp hnew)

/-- One turn of the loop of `claimDue` inserts at most the record of its row. -/
theorem firings_claimRow {now leaseMs : ℤ} {s : TriggerTables × List IntervalTrigger}
    {row : TriggerRow} {f : TriggerFiring}
    (hf : f ∈ (claimRow now owner leaseMs s row).1.firings) :
    f ∈ s.1.firings ∨ f.key = (row.id, row.nextFireAt) := by
  rw [claimRow] at hf
  split_ifs at hf
  · rcases mem_insertFiring hf with hold | rfl
    · exact Or.inl hold
    · exact Or.inr rfl
  · exact Or.inl hf

/-- A record after `claimDue` was there before, or is that of the time of a row. -/
theorem firings_claimDue (h : T.Keyed) {now leaseMs : ℤ} {f : TriggerFiring}
    (hf : f ∈ (T.claimDue now owner leaseMs).1.firings) :
    f ∈ T.firings ∨ ∃ row, T.row? f.triggerId = some row ∧ row.nextFireAt = f.scheduledAt := by
  have hloop : ∀ (rows : List TriggerRow) (s : TriggerTables × List IntervalTrigger),
      f ∈ (rows.foldl (claimRow now owner leaseMs) s).1.firings →
        f ∈ s.1.firings ∨ ∃ row ∈ rows, f.key = (row.id, row.nextFireAt) := by
    intro rows
    induction rows with
    | nil => exact fun s hf ↦ Or.inl hf
    | cons row rows ih =>
      intro s hf
      rcases ih _ hf with hf | ⟨r, hr, hkey⟩
      · rcases firings_claimRow hf with hold | hkey
        · exact Or.inl hold
        · exact Or.inr ⟨row, List.mem_cons_self, hkey⟩
      · exact Or.inr ⟨r, List.mem_cons_of_mem _ hr, hkey⟩
  rcases hloop _ _ hf with hold | ⟨row, hrow, hkey⟩
  · exact Or.inl hold
  · obtain ⟨hid, htime⟩ := Prod.mk.inj hkey
    have hmem : row ∈ T.triggers := (List.mem_filter.mp (List.mem_mergeSort.mp hrow)).1
    exact Or.inr ⟨row, hid ▸ h.row?_of_mem hmem, htime.symm⟩

end TriggerTables

/-! ## Courses -/

namespace Course

variable {c : Course} {time : ℤ}

theorem times_eq (c : Course) : c.times = c.past.flatten ++ c.stretch := by
  rw [times, stretches, List.flatten_append, List.flatten_singleton]

@[simp] theorem times_next : (c.next time).times = c.times ++ [time] := by
  rw [times_eq, times_eq, next, List.append_assoc]

@[simp] theorem times_retry : (c.retry time).times = c.times ++ [time] := by
  rw [times_eq, retry, times]

theorem mem_stretches_next {s : List ℤ} (h : s ∈ (c.next time).stretches) :
    s ∈ c.stretches ∨ s = c.stretch ++ [time] := by
  rcases List.mem_append.mp h with hpast | hlast
  · exact Or.inl (List.mem_append_left _ hpast)
  · exact Or.inr (List.mem_singleton.mp hlast)

theorem mem_stretches_retry {s : List ℤ} (h : s ∈ (c.retry time).stretches) :
    s ∈ c.stretches ∨ s = [time] := by
  rcases List.mem_append.mp h with hpast | hlast
  · exact Or.inl hpast
  · exact Or.inr (List.mem_singleton.mp hlast)

theorem stretch_mem : c.stretch ∈ c.stretches :=
  List.mem_append_right _ (List.mem_singleton.mpr rfl)

end Course

/-! ## A row and its course -/

namespace Engines

variable {W W' : Engines} {row row' : TriggerRow}

/-- What is known of a row is known of a row that has its definition and its time, as long as its
course is the same. -/
theorem Timely.congr (h : W.Timely row) (hdefinition : row'.toTriggerDefinition = row.toTriggerDefinition)
    (htime : row'.nextFireAt = row.nextFireAt) (hcourse : W'.course row.id = W.course row.id)
    (hclaimed : ∀ f ∈ W'.tables.firings, f.triggerId = row.id →
      f.scheduledAt ∈ (W.course row.id).times)
    (hcompletions : ∀ c ∈ W'.completions, c.id = row.id → c ∈ W.completions) : W'.Timely row' := by
  have hid : row'.id = row.id := congrArg (·.id) hdefinition
  refine ⟨?_, ?_, ?_, ?_, ?_, ?_⟩ <;> rw [hid, hcourse]
  · exact htime ▸ h.pending
  · exact h.increasing
  · exact hclaimed
  · rw [hdefinition]
    exact h.onGrid
  · rw [hdefinition]
    exact fun hskip c hc heq ↦ h.skipped hskip c (hcompletions c hc heq) heq
  · rw [hdefinition]
    exact h.caughtUp

/-- The last time is the latest one. -/
theorem Timely.le_pending (h : W.Timely row) {time : ℤ} (htime : time ∈ (W.course row.id).times) :
    time ≤ row.nextFireAt := by
  obtain ⟨earlier, hstretch⟩ := List.getLast?_eq_some_iff.mp h.pending
  have hincreasing := h.increasing
  rw [Course.times_eq, hstretch, ← List.append_assoc] at htime hincreasing
  rcases List.mem_append.mp htime with hearlier | hlast
  · exact ((List.pairwise_append.mp hincreasing).2.2 time hearlier _ (List.mem_singleton.mpr rfl)).le
  · exact (List.mem_singleton.mp hlast).le

theorem Timely.pending_mem (h : W.Timely row) : row.nextFireAt ∈ (W.course row.id).times := by
  rw [Course.times_eq]
  exact List.mem_append_right _ (List.mem_of_getLast? h.pending)

/-- **A later time keeps the order**, and what was skipped stays so. -/
theorem Timely.extend (h : W.Timely row) {time : ℤ} (hlater : row.nextFireAt < time) :
    ((W.course row.id).times ++ [time]).Pairwise (· < ·) ∧
      (row.missedRunPolicy = .skip → ∀ c ∈ W.completions, c.id = row.id →
        c.firedAt < c.next ∧ c.next ∈ (W.course row.id).times ++ [time] ∧
          ∀ t ∈ (W.course row.id).times ++ [time], t ≤ c.scheduledAt ∨ c.next ≤ t) := by
  constructor
  · refine List.pairwise_append.mpr ⟨h.increasing, List.pairwise_singleton _ _, fun t ht t' ht' ↦ ?_⟩
    rw [List.mem_singleton.mp ht']
    exact (h.le_pending ht).trans_lt hlater
  · intro hskip c hc hid
    obtain ⟨hfired, hnext, hskipped⟩ := h.skipped hskip c hc hid
    refine ⟨hfired, List.mem_append_left _ hnext, fun t ht ↦ ?_⟩
    rcases List.mem_append.mp ht with hold | hnew
    · exact hskipped t hold
    · rw [List.mem_singleton.mp hnew]
      exact Or.inr ((h.le_pending hnext).trans hlater.le)

/-- The trigger is put off. -/
theorem Timely.retry (h : W.Timely row) {time : ℤ} (hlater : row.nextFireAt < time)
    (hdefinition : row'.toTriggerDefinition = row.toTriggerDefinition) (htime : row'.nextFireAt = time)
    (hcourse : W'.course row.id = (W.course row.id).retry time)
    (hclaimed : ∀ f ∈ W'.tables.firings, f.triggerId = row.id →
      f.scheduledAt ∈ (W.course row.id).times)
    (hcompletions : W'.completions = W.completions) : W'.Timely row' := by
  obtain ⟨hincreasing, hskipped⟩ := h.extend hlater
  have hid : row'.id = row.id := congrArg (·.id) hdefinition
  refine ⟨?_, ?_, ?_, ?_, ?_, ?_⟩ <;> rw [hid, hcourse]
  · rw [htime]
    rfl
  · rw [Course.times_retry]
    exact hincreasing
  · rw [Course.times_retry]
    exact fun f hf heq ↦ List.mem_append_left _ (hclaimed f hf heq)
  · intro s hs
    rw [hdefinition]
    rcases Course.mem_stretches_retry hs with hold | rfl
    · exact h.onGrid s hold
    · exact ⟨time, rfl, onGrid_singleton⟩
  · rw [hdefinition, hcompletions, Course.times_retry]
    exact hskipped
  · intro hcatchUp s hs
    rw [hdefinition] at hcatchUp ⊢
    rcases Course.mem_stretches_retry hs with hold | rfl
    · exact h.caughtUp hcatchUp s hold
    · exact ⟨time, rfl, consecutive_singleton⟩

/-- An occurrence is completed. -/
theorem Timely.next (h : W.Timely row) (hvalid : row.Valid) (hinterval : row.Interval)
    {firedAt time : ℤ} (hdue : row.nextFireAt ≤ firedAt)
    (hnext : nextOccurrence H (toTrigger row) firedAt = .ok time)
    (hdefinition : row'.toTriggerDefinition = row.toTriggerDefinition) (htime : row'.nextFireAt = time)
    (hcourse : W'.course row.id = (W.course row.id).next time)
    (hclaimed : ∀ f ∈ W'.tables.firings, f.triggerId = row.id →
      f.scheduledAt ∈ (W.course row.id).times)
    (hcompletions : W'.completions = W.completions ++ [⟨row.id, row.nextFireAt, firedAt, time⟩]) :
    W'.Timely row' := by
  have hlater : row.nextFireAt < time := nextOccurrence_gt hvalid hinterval.1 hdue hnext
  obtain ⟨hincreasing, hskipped⟩ := h.extend hlater
  have hid : row'.id = row.id := congrArg (·.id) hdefinition
  refine ⟨?_, ?_, ?_, ?_, ?_, ?_⟩ <;> rw [hid, hcourse]
  · rw [htime]
    exact List.getLast?_concat
  · rw [Course.times_next]
    exact hincreasing
  · rw [Course.times_next]
    exact fun f hf heq ↦ List.mem_append_left _ (hclaimed f hf heq)
  · intro s hs
    rw [hdefinition]
    rcases Course.mem_stretches_next hs with hold | rfl
    · exact h.onGrid s hold
    · obtain ⟨c, hc, hgrid⟩ := h.onGrid _ Course.stretch_mem
      obtain ⟨m, hm, hlow, hhigh⟩ := nextOccurrence_window hvalid hinterval hnext
      exact ⟨c, List.mem_head?_append_of_mem_head? hc, hgrid.append h.pending hm hlow hhigh⟩
  · rw [hdefinition, hcompletions, Course.times_next]
    intro hskip c hc heq
    rcases List.mem_append.mp hc with hold | hnew
    · exact hskipped hskip c hold heq
    · rw [List.mem_singleton.mp hnew]
      refine ⟨nextOccurrence_gt_tick hvalid hinterval hskip hnext,
        List.mem_append_right _ (List.mem_singleton.mpr rfl), fun t ht ↦ ?_⟩
      rcases List.mem_append.mp ht with hold | hnew
      · exact Or.inl (h.le_pending hold)
      · exact Or.inr (List.mem_singleton.mp hnew).ge
  · intro hcatchUp s hs
    rw [hdefinition] at hcatchUp ⊢
    rcases Course.mem_stretches_next hs with hold | rfl
    · exact h.caughtUp hcatchUp s hold
    · obtain ⟨c, hc, hconsecutive⟩ := h.caughtUp hcatchUp _ Course.stretch_mem
      rw [nextOccurrence_catchUp hinterval hcatchUp hnext]
      exact ⟨c, List.mem_head?_append_of_mem_head? hc, hconsecutive.append h.pending⟩

/-! ## The invariant -/

/-- **The invariant.** -/
structure Inv (W : Engines) : Prop where
  keyed : W.tables.Keyed
  valid : ∀ id row, W.tables.row? id = some row → row.Valid
  /-- A trigger that is leased to the owner of a tick was due at the tick. -/
  held : ∀ t ∈ W.ticks, ∀ c ∈ t.due, ∀ row, W.tables.row? c.id = some row →
    row.leaseOwner = some t.owner → row.nextFireAt ≤ t.now
  firings : ∀ f ∈ W.tables.firings, (W.tables.row? f.triggerId).isSome
  completions : ∀ c ∈ W.completions, (W.tables.row? c.id).isSome
  timely : ∀ id row, W.tables.row? id = some row → row.Interval → W.Timely row

theorem inv_init : ({} : Engines).Inv where
  keyed := List.nodup_nil
  valid _ _ h := absurd h nofun
  held _ h := absurd h List.not_mem_nil
  firings _ h := absurd h List.not_mem_nil
  completions _ h := absurd h List.not_mem_nil
  timely _ _ h := absurd h nofun

/-- Ticks may end, and leave triggers out. -/
theorem Inv.of_ticks (h : W.Inv) {ticks : List EngineTick}
    (hticks : ∀ t ∈ ticks, ∃ t' ∈ W.ticks, t.owner = t'.owner ∧ t.now = t'.now ∧ t.due ⊆ t'.due) :
    { W with ticks := ticks }.Inv where
  keyed := h.keyed
  valid := h.valid
  held t ht c hc row hrow howner := by
    obtain ⟨t', ht', hsame, hnow, hdue⟩ := hticks t ht
    rw [hnow]
    exact h.held t' ht' c (hdue hc) row hrow (hsame ▸ howner)
  firings := h.firings
  completions := h.completions
  timely id row hrow hinterval :=
    have ht := h.timely id row hrow hinterval
    ⟨ht.pending, ht.increasing, ht.claimed, ht.onGrid, ht.skipped, ht.caughtUp⟩

theorem Inv.stop (h : W.Inv) (owner : JsString) : (W.stop owner).Inv :=
  h.of_ticks fun t ht ↦ ⟨t, (List.mem_filter.mp ht).1, rfl, rfl, List.Subset.refl _⟩

theorem Inv.nextTrigger (h : W.Inv) {t : EngineTick} (ht : t ∈ W.ticks) (t' : EngineTick)
    (howner : t'.owner = t.owner) (hnow : t'.now = t.now) {due : List IntervalTrigger}
    (hdue : due ⊆ t.due) : (W.nextTrigger t' due).Inv := by
  rw [Engines.nextTrigger]
  split_ifs
  · exact h.stop _
  · refine h.of_ticks fun t'' ht'' ↦ ?_
    obtain ⟨u, hu, rfl⟩ := Table.mem_update.mp ht''
    split_ifs
    · exact ⟨t, ht, howner, hnow, hdue⟩
    · exact ⟨u, hu, rfl, rfl, List.Subset.refl _⟩

/-! ## Calls of the owner of a lease -/

/-- The times at which a trigger was claimed, after a call. -/
theorem Timely.claimed_of_puts (h : W.Timely row) {owner id : JsString} {r r' : TriggerRow}
    {T' : TriggerTables} (hput : TriggerTables.Puts owner id r r' W.tables T') {f : TriggerFiring}
    (hf : f ∈ T'.firings) (hid : f.triggerId = row.id) :
    f.scheduledAt ∈ (W.course row.id).times := by
  obtain ⟨f', hf', hkey⟩ := hput.firings f hf
  obtain ⟨hid', htime⟩ := Prod.mk.inj hkey
  exact htime ▸ h.claimed f' hf' (hid'.trans hid)

/-- A row that is there stays there. -/
theorem isSome_of_puts {owner id id' : JsString} {r r' : TriggerRow} {T T' : TriggerTables}
    (hput : TriggerTables.Puts owner id r r' T T') (h : (T.row? id').isSome) :
    (T'.row? id').isSome := by
  rw [hput.rows]
  split_ifs
  · rfl
  · exact h

/-- **A call of the owner of a lease keeps the invariant** where the row keeps its course. -/
theorem Inv.put (h : W.Inv) {owner id : JsString}
    (hput : TriggerTables.Puts owner id row row' W.tables W'.tables)
    (hdefinition : row'.toTriggerDefinition = row.toTriggerDefinition)
    (hfree : row'.leaseOwner = none) (hticks : W'.ticks = W.ticks)
    (hcourse : ∀ id', id' ≠ id → W'.course id' = W.course id')
    (hcompletions : ∀ c ∈ W'.completions, c ∈ W.completions ∨ c.id = id)
    (htimely : row.Interval → W'.Timely row') : W'.Inv where
  keyed := hput.keyed
  valid id' r hr := by
    rw [hput.rows] at hr
    split_ifs at hr
    · obtain rfl := Option.some.inj hr
      exact hdefinition ▸ h.valid _ _ hput.before
    · exact h.valid id' r hr
  held t ht c hc r hr howner := by
    rw [hput.rows] at hr
    split_ifs at hr
    · obtain rfl := Option.some.inj hr
      exact absurd (hfree.symm.trans howner) nofun
    · exact h.held t (hticks ▸ ht) c hc r hr howner
  firings f hf := by
    obtain ⟨f', hf', hkey⟩ := hput.firings f hf
    exact (Prod.mk.inj hkey).1 ▸ isSome_of_puts hput (h.firings f' hf')
  completions c hc := by
    rcases hcompletions c hc with hold | rfl
    · exact isSome_of_puts hput (h.completions c hold)
    · rw [hput.rows, if_pos rfl]
      rfl
  timely id' r hr hinterval := by
    rw [hput.rows] at hr
    split_ifs at hr with hid
    · obtain rfl := Option.some.inj hr
      exact htimely (hdefinition ▸ hinterval)
    · have hold := h.timely id' r hr hinterval
      have hne : r.id ≠ id := (TriggerTables.id_of_row? hr).symm ▸ hid
      refine hold.congr rfl rfl (hcourse _ hne) (fun f hf heq ↦ hold.claimed_of_puts hput hf heq)
        fun c hc heq ↦ (hcompletions c hc).resolve_right fun hcid ↦ hne (heq.symm.trans hcid)

/-- The `catch` block keeps the invariant. -/
theorem Inv.fail (h : W.Inv) {t : EngineTick} (ht : t ∈ W.ticks) {trigger : IntervalTrigger}
    {due : List IntervalTrigger} (hdue : t.due = trigger :: due) (now : ℤ) (errorName : JsString) :
    (W.fail t trigger due now errorName).Inv := by
  have hsub : due ⊆ t.due := hdue ▸ List.subset_cons_self _ _
  rw [Engines.fail]
  rcases hfail : W.tables.fail trigger.id t.owner (t.now + retryMs) now errorName
    with ⟨tables, _ | _⟩
  · obtain rfl := TriggerTables.fail_eq_self hfail
    exact h.nextTrigger ht t rfl rfl hsub
  · obtain ⟨row, hput⟩ := TriggerTables.fail_puts h.keyed hfail
    have hid : row.id = trigger.id := TriggerTables.id_of_row? hput.before
    -- The lease shows that the trigger was due at the tick.
    have hlater : row.nextFireAt < t.now + retryMs :=
      (h.held t ht trigger (hdue ▸ List.mem_cons_self) row hput.before hput.held).trans_lt
        (lt_add_of_pos_right _ (by decide))
    have hafter : Inv { W with
        tables := tables
        course := Function.update W.course trigger.id
          ((W.course trigger.id).retry (t.now + retryMs)) } := by
      refine h.put hput rfl rfl rfl (fun id' hne ↦ Function.update_of_ne hne _ _)
        (fun c hc ↦ Or.inl hc) fun hinterval ↦ ?_
      have hold := h.timely _ row hput.before hinterval
      refine hold.retry hlater rfl rfl ?_ (fun f hf heq ↦ hold.claimed_of_puts hput hf heq) rfl
      rw [hid]
      exact Function.update_self _ _ _
    exact hafter.nextTrigger ht t rfl rfl hsub

/-- The time of a row. -/
theorem timeOf_of_row? {T : TriggerTables} {id : JsString} {r : TriggerRow}
    (h : T.row? id = some r) : T.timeOf id = r.nextFireAt := by
  rw [TriggerTables.timeOf, h]
  rfl

/-- The rest of the `try` block keeps the invariant. -/
theorem Inv.complete (h : W.Inv) {t : EngineTick} (ht : t ∈ W.ticks) {trigger : IntervalTrigger}
    {due : List IntervalTrigger} (hdue : t.due = trigger :: due) (now : ℤ) (errorName : JsString) :
    (W.complete H t trigger due now errorName).Inv := by
  have hsub : due ⊆ t.due := hdue ▸ List.subset_cons_self _ _
  rw [Engines.complete]
  rcases hcomplete : W.tables.complete H trigger.id t.owner t.now with error | ⟨tables, _ | _⟩
  · exact h.fail ht hdue now errorName
  · obtain rfl := TriggerTables.complete_eq_self hcomplete
    exact h.nextTrigger ht t rfl rfl hsub
  · obtain ⟨row, next, hput, hnext⟩ := TriggerTables.complete_puts h.keyed hcomplete
    have hid : row.id = trigger.id := TriggerTables.id_of_row? hput.before
    have htime : W.tables.timeOf trigger.id = row.nextFireAt := timeOf_of_row? hput.before
    have htime' : tables.timeOf trigger.id = next := by
      refine timeOf_of_row? (r := TriggerTables.completedRow next t.now row.oneShot row) ?_
      rw [hput.rows, if_pos rfl]
    dsimp only
    rw [htime, htime']
    have hafter : Inv { W with
        tables := tables
        course := Function.update W.course trigger.id ((W.course trigger.id).next next)
        completions := W.completions ++ [⟨trigger.id, row.nextFireAt, t.now, next⟩] } := by
      refine h.put hput rfl rfl rfl (fun id' hne ↦ Function.update_of_ne hne _ _) (fun c hc ↦ ?_)
        fun hinterval ↦ ?_
      · exact (List.mem_append.mp hc).imp id fun hnew ↦ by rw [List.mem_singleton.mp hnew]
      · have hold := h.timely _ row hput.before hinterval
        refine hold.next (h.valid _ _ hput.before) hinterval
          (h.held t ht trigger (hdue ▸ List.mem_cons_self) row hput.before hput.held)
          (hnext hinterval.1) rfl rfl ?_ (fun f hf heq ↦ hold.claimed_of_puts hput hf heq) ?_
        · rw [hid]
          exact Function.update_self _ _ _
        · rw [hid]
    exact hafter.nextTrigger ht { t with completed := t.completed + 1 } rfl rfl hsub

/-! ## Claims and new triggers -/

theorem Inv.startTick (h : W.Inv) {owner : JsString} (now : ℤ) (hnone : W.tick? owner = none) :
    (W.startTick owner now).Inv := by
  have hclaims := TriggerTables.claimDue_claims now leaseMs owner h.keyed
  have hfirings : ∀ f ∈ (W.tables.claimDue now owner leaseMs).1.firings, f ∈ W.tables.firings ∨
      ∃ row, W.tables.row? f.triggerId = some row ∧ row.nextFireAt = f.scheduledAt :=
    fun f hf ↦ TriggerTables.firings_claimDue h.keyed hf
  rw [Engines.startTick]
  generalize W.tables.claimDue now owner leaseMs = r at hclaims hfirings ⊢
  obtain ⟨tables, due⟩ := r
  dsimp only at hclaims hfirings ⊢
  -- A row before the claim, for each row after it.
  have hbefore : ∀ id row, tables.row? id = some row → ∃ row₀, W.tables.row? id = some row₀ ∧
      row = if TriggerTables.isDue now row₀ then TriggerTables.leaseTo owner (now + leaseMs) row₀
        else row₀ := by
    intro id row hrow
    rw [show tables.row? id = _ from hclaims.row id] at hrow
    obtain ⟨row₀, hrow₀, rfl⟩ := Option.map_eq_some_iff.mp hrow
    exact ⟨row₀, hrow₀, rfl⟩
  have hsame : ∀ row₀ : TriggerRow, ((if TriggerTables.isDue now row₀ then
      TriggerTables.leaseTo owner (now + leaseMs) row₀ else row₀).toTriggerDefinition =
        row₀.toTriggerDefinition) ∧ (if TriggerTables.isDue now row₀ then
      TriggerTables.leaseTo owner (now + leaseMs) row₀ else row₀).nextFireAt = row₀.nextFireAt := by
    intro row₀
    split_ifs <;> exact ⟨rfl, rfl⟩
  have hkept : ∀ id, (W.tables.row? id).isSome → (tables.row? id).isSome := by
    intro id hsome
    rw [show tables.row? id = _ from hclaims.row id, Option.isSome_map]
    exact hsome
  refine ⟨hclaims.keyed, fun id row hrow ↦ ?_, fun t ht c hc row hrow howner ↦ ?_, fun f hf ↦ ?_,
    fun c hc ↦ hkept _ (h.completions c hc), fun id row hrow hinterval ↦ ?_⟩
  · obtain ⟨row₀, hrow₀, rfl⟩ := hbefore id row hrow
    exact (hsame row₀).1 ▸ h.valid id row₀ hrow₀
  · rcases List.mem_append.mp ht with hold | hnew
    · -- The lease of an older tick is one the claim left alone.
      have hne : t.owner ≠ owner := Table.lookup_eq_none_iff.mp hnone t hold
      obtain ⟨row₀, hrow₀, rfl⟩ := hbefore c.id row hrow
      split_ifs at howner ⊢
      · exact absurd (Option.some.inj howner).symm hne
      · exact h.held t hold c hc row₀ hrow₀ howner
    · split_ifs at hnew
      · exact absurd hnew List.not_mem_nil
      · obtain rfl := List.mem_singleton.mp hnew
        obtain ⟨row₀, hmem, hdue, rfl⟩ := hclaims.claimed c hc
        have hrow₀ : W.tables.row? row₀.id = some row₀ := h.keyed.row?_of_mem hmem
        obtain ⟨row₁, hrow₁, rfl⟩ := hbefore row₀.id row hrow
        rw [hrow₀] at hrow₁
        rw [← Option.some.inj hrow₁, (hsame row₀).2]
        rw [TriggerTables.isDue, Bool.and_eq_true, Bool.and_eq_true] at hdue
        exact of_decide_eq_true hdue.1.2
  · rcases hfirings f hf with hold | ⟨row, hrow, -⟩
    · exact hkept _ (h.firings f hold)
    · exact hkept _ (by rw [hrow]; rfl)
  · obtain ⟨row₀, hrow₀, rfl⟩ := hbefore id row hrow
    have hold := h.timely id row₀ hrow₀ ((hsame row₀).1 ▸ hinterval)
    refine hold.congr (hsame row₀).1 (hsame row₀).2 rfl (fun f hf heq ↦ ?_) fun c hc _ ↦ hc
    rcases hfirings f hf with hfiring | ⟨row, hrow, htime⟩
    · exact hold.claimed f hfiring heq
    · rw [heq, TriggerTables.id_of_row? hrow₀, hrow₀] at hrow
      rw [← htime, ← Option.some.inj hrow]
      exact hold.pending_mem

theorem Inv.ensure (h : W.Inv) (trigger : IntervalTrigger) : (W.ensure H trigger).Inv := by
  rw [Engines.ensure]
  rcases hvalid : validateTrigger H trigger with e | ⟨⟨⟩⟩
  · exact h
  dsimp only
  split_ifs with hsome
  · exact h
  have hnone : W.tables.row? trigger.id = none := Option.not_isSome_iff_eq_none.mp hsome
  have hrows := TriggerTables.row?_ensure hnone
  have hfirings : (W.tables.ensure trigger).firings = W.tables.firings := by
    rw [TriggerTables.ensure, if_neg hsome]
  -- Nothing is noted of a trigger that was not there.
  have hne : ∀ {id : JsString}, (W.tables.row? id).isSome → id ≠ trigger.id :=
    fun hthere heq ↦ hsome (heq ▸ hthere)
  have hkept : ∀ {id : JsString}, (W.tables.row? id).isSome →
      ((W.tables.ensure trigger).row? id).isSome := by
    intro id hthere
    rw [hrows, if_neg (hne hthere)]
    exact hthere
  refine ⟨?_, fun id row hrow ↦ ?_, fun t ht c hc row hrow howner ↦ ?_, fun f hf ↦ ?_,
    fun c hc ↦ hkept (h.completions c hc), fun id row hrow hinterval ↦ ?_⟩
  · have hkeys : ((W.tables.triggers ++ [TriggerTables.newRow trigger]).map TriggerRow.key).Nodup :=
      Table.nodup_append_fresh h.keyed fun r hr heq ↦ Table.lookup_eq_none_iff.mp hnone r hr heq
    rw [TriggerTables.ensure, if_neg hsome]
    exact hkeys
  · rw [hrows] at hrow
    split_ifs at hrow
    · obtain rfl := Option.some.inj hrow
      exact (valid_of_validate hvalid).1
    · exact h.valid id row hrow
  · rw [hrows] at hrow
    split_ifs at hrow
    · obtain rfl := Option.some.inj hrow
      exact absurd howner (Option.some_ne_none _).symm
    · exact h.held t ht c hc row hrow howner
  · exact hkept (h.firings f (hfirings ▸ hf))
  · rw [hrows] at hrow
    split_ifs at hrow with hid
    · obtain rfl := Option.some.inj hrow
      have hcourse : Function.update W.course trigger.id (⟨[], [trigger.nextFireAt]⟩ : Course)
          trigger.id = ⟨[], [trigger.nextFireAt]⟩ := Function.update_self _ _ _
      have hstretch : ∀ s ∈ (Function.update W.course trigger.id
          (⟨[], [trigger.nextFireAt]⟩ : Course) trigger.id).stretches, s = [trigger.nextFireAt] := by
        rw [hcourse]
        exact fun s hs ↦ List.mem_singleton.mp hs
      refine ⟨?_, ?_, fun f hf heq ↦ ?_, fun s hs ↦ ?_, fun _ c hc heq ↦ ?_, fun _ s hs ↦ ?_⟩
      · exact congrArg (·.stretch.getLast?) hcourse
      · exact (congrArg Course.times hcourse).symm ▸ List.pairwise_singleton _ _
      · exact absurd heq (hne (h.firings f (hfirings ▸ hf)))
      · obtain rfl := hstretch s hs
        exact ⟨_, rfl, onGrid_singleton⟩
      · exact absurd heq (hne (h.completions c hc))
      · obtain rfl := hstretch s hs
        exact ⟨_, rfl, consecutive_singleton⟩
    · have hold := h.timely id row hrow hinterval
      have hid' : row.id ≠ trigger.id := (TriggerTables.id_of_row? hrow).symm ▸ hid
      exact hold.congr rfl rfl (Function.update_of_ne hid' _ _)
        (fun f hf ↦ hold.claimed f (hfirings ▸ hf)) fun c hc _ ↦ hc

/-! ## Runs -/

/-- **A step keeps the invariant.** -/
theorem Inv.step (h : W.Inv) (a : EngineAction) : (W.step H a).Inv := by
  -- A step of a tick is one with the first of its triggers.
  have hfirst : ∀ (owner : JsString)
      (f : EngineTick → IntervalTrigger → List IntervalTrigger → Engines),
      (∀ t ∈ W.ticks, ∀ trigger due, t.due = trigger :: due → (f t trigger due).Inv) →
        (W.forFirst owner f).Inv := by
    intro owner f hf
    rw [forFirst]
    rcases htick : W.tick? owner with _ | t
    · exact h
    · dsimp only
      rcases hdue : t.due with _ | ⟨trigger, due⟩
      · exact h
      · exact hf t (Table.mem_of_lookup htick) trigger due hdue
  rcases a with trigger | ⟨owner, now⟩ | ⟨owner, now, errorName⟩ | ⟨owner, now, errorName⟩ | owner
  · exact h.ensure trigger
  · rw [Engines.step]
    split_ifs with hbusy
    · exact h
    · exact h.startTick now (Option.not_isSome_iff_eq_none.mp hbusy)
  · exact hfirst owner _ fun t ht trigger due hdue ↦ h.complete ht hdue now errorName
  · exact hfirst owner _ fun t ht trigger due hdue ↦ h.fail ht hdue now errorName
  · exact h.stop owner

theorem Inv.run (h : W.Inv) (actions : List EngineAction) : (W.run H actions).Inv := by
  induction actions generalizing W with
  | nil => exact h
  | cons a actions ih => exact ih (h.step a)

/-- **A trigger keeps its course**: however many engines tick at whatever times, and whatever
succeeds or fails, a trigger of an interval has times that follow a grid, anew after each failure,
and what it missed is skipped or caught up. -/
theorem triggers_timely (actions : List EngineAction) {id : JsString} {row : TriggerRow}
    (hrow : (Engines.run H {} actions).tables.row? id = some row) (hinterval : row.Interval) :
    (Engines.run H {} actions).Timely row :=
  (inv_init.run actions).timely id row hrow hinterval

/-! ## A trigger of every minute -/

/-- The trigger of every minute, up to half a minute late. -/
def lateTrigger : IntervalTrigger :=
  { Schedulers.minuteTrigger with jitterMs := 30000 }

/-- The first four bytes of the digests that its first two completions take. -/
def digestHost : ScheduleHost :=
  { Schedulers.plainHost with
    digestWord := fun text ↦
      if text = js "minute:60000" then 3880923702
      else if text = js "minute:144343" then 165834697 else 0 }

/-- An occurrence is completed at once. -/
def fired (now : ℤ) : List EngineAction :=
  [.tick (js "a") now, .created (js "a") now (js "Error")]

/-- An occurrence is missed three times, and the fourth time it fails. -/
def missedThenFailed : List EngineAction :=
  .ensure lateTrigger :: fired 200000 ++ [.tick (js "a") 300000,
    .throws (js "a") 300001 (js "Error")]

theorem triggers_timely_missedThenFailed :
    ∃ row, (Engines.run digestHost {} missedThenFailed).tables.row? (js "minute") = some row ∧
      (Engines.run digestHost {} missedThenFailed).Timely row := by
  obtain ⟨row, hrow⟩ := Option.isSome_iff_exists.mp (show
    ((Engines.run digestHost {} missedThenFailed).tables.row? (js "minute")).isSome by decide +kernel)
  refine ⟨row, hrow, triggers_timely missedThenFailed hrow ?_⟩
  have hinterval : ((Engines.run digestHost {} missedThenFailed).tables.row? (js "minute")).all
      fun row ↦ row.oneShot = false ∧ truthy row.timeZone = none := by decide +kernel
  rw [hrow] at hinterval
  have hboth := of_decide_eq_true hinterval
  exact ⟨hboth.1, Or.inl hboth.2⟩

/-- The delays of two completions add up to more than half a minute, and a failure puts the trigger
off to the middle of its minute. -/
theorem not_inWindow :
    (∃ time ∈ ((Engines.run digestHost {} (.ensure lateTrigger :: fired 0 ++ fired 84343)).course
        (js "minute")).times, ¬∃ k : ℤ, 0 + k * 60000 ≤ time ∧ time ≤ 0 + k * 60000 + 30000) ∧
      ∃ time ∈ ((Engines.run digestHost {} [.ensure Schedulers.minuteTrigger, .tick (js "a") 0,
          .throws (js "a") 0 (js "Error")]).course (js "minute")).times,
        ¬∃ k : ℤ, 0 + k * 60000 ≤ time ∧ time ≤ 0 + k * 60000 + 0 := by
  refine ⟨⟨163513, by decide +kernel, ?_⟩, 30000, by decide +kernel, ?_⟩
  · rintro ⟨k, hlow, hhigh⟩
    omega
  · rintro ⟨k, hlow, hhigh⟩
    omega

end Engines

end LiteHarness.Automation
