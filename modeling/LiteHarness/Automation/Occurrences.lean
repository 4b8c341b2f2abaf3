import LiteHarness.Automation.Scheduler
import LiteHarness.Foundation.Suspension

/-!
# Occurrences fire once

The lease of a trigger is worth what its row is: as long as the row names an owner, the tick of that
owner sees the time and the occurrence it claimed. Everything another owner can do to the row first
takes the name away (`Moves`). What is left is the key of the run, which is made from the time. All
that was or may be started for one occurrence has one time (`Inv.oneTime`), as long as no failure
moves an occurrence that is in use.
-/

namespace LiteHarness.Automation.Schedulers

open Foundation

variable {P : Platform} {H : ScheduleHost} {W W' : Schedulers}

/-! ## The invariant -/

/-- The row of a trigger is there and has a property. -/
def Sees (T : TriggerTables) (id : JsString) (p : TriggerRow → Prop) : Prop :=
  ∃ row, T.row? id = some row ∧ p row

theorem Sees.mono {T : TriggerTables} {id : JsString} {p q : TriggerRow → Prop} (h : Sees T id p)
    (hpq : ∀ row, T.row? id = some row → p row → q row) : Sees T id q := by
  obtain ⟨row, hrow, hp⟩ := h
  exact ⟨row, hrow, hpq row hrow hp⟩

theorem Sees.of_row? {T : TriggerTables} {id : JsString} {p : TriggerRow → Prop} (h : Sees T id p)
    {row : TriggerRow} (hrow : T.row? id = some row) : p row := by
  obtain ⟨row', hrow', hp⟩ := h
  exact Option.some.inj (hrow'.symm.trans hrow) ▸ hp

/-- A property of a row where one row was replaced. -/
theorem Sees.replace {T T' : TriggerTables} {id id' : JsString} {row row' : TriggerRow}
    {p q : TriggerRow → Prop} (h : Sees T id' p) (hrow : T.row? id = some row)
    (hrows : ∀ id', T'.row? id' = if id' = id then some row' else T.row? id')
    (hself : id' = id → p row → q row') (hother : id' ≠ id → ∀ r, p r → q r) : Sees T' id' q := by
  obtain ⟨r, hr, hp⟩ := h
  by_cases hne : id' = id
  · subst hne
    obtain rfl := Option.some.inj (hrow.symm.trans hr)
    exact ⟨row', by rw [hrows, if_pos rfl], hself rfl hp⟩
  · exact ⟨r, by rw [hrows, if_neg hne, hr], hother hne r hp⟩

/-- A row is never behind its pending occurrence. -/
structure RowOk (W : Schedulers) (row : TriggerRow) : Prop where
  valid : row.Valid
  behind : W.occurrence row.id ≤ row.nextFireAt
  bounded : row.oneShot = true → row.enabled = true → W.occurrence row.id ≤ maxSafeInteger

/-- A claim of a tick, against the row of the trigger. -/
structure ClaimOk (W : Schedulers) (t : Tick) (c : Claimed) (row : TriggerRow) : Prop where
  definition : row.toTriggerDefinition = c.trigger.toTriggerDefinition
  due : c.trigger.nextFireAt ≤ t.now
  /-- As long as the row names the owner, it is as it was claimed. -/
  live : row.leaseOwner = some t.owner → row.nextFireAt = c.trigger.nextFireAt ∧
    W.occurrence c.trigger.id = c.occurrence ∧ row.enabled = true

/-- A clock has read a time at which the claim was over. -/
def Expired (W : Schedulers) (expiry : Option ℤ) : Prop := ∃ r ∈ W.readings, ∀ e ∈ expiry, e ≤ r

/-- A claim that the tick did not give back. -/
def HeldOk (W : Schedulers) (t : Tick) (c : Claimed) (row : TriggerRow) : Prop :=
  (row.leaseOwner = some t.owner ∧ row.leaseExpiresAt = c.trigger.leaseExpiresAt) ∨
    W.Expired c.trigger.leaseExpiresAt

/-- What a tick knows at its stage. -/
def StageOk (W : Schedulers) (t : Tick) (c : Claimed) (row : TriggerRow) : Prop :=
  match t.stage with
  | .completing read next =>
    read.id = c.trigger.id ∧ read.nextFireAt = c.trigger.nextFireAt ∧
      read.oneShot = c.trigger.oneShot ∧
      if c.trigger.oneShot then next = maxSafeInteger else c.trigger.nextFireAt < next
  | .failing scheduledAt _ => scheduledAt = c.trigger.nextFireAt
  | .recording scheduledAt _ =>
    row.leaseOwner ≠ some t.owner ∧ scheduledAt < row.nextFireAt ∧
      (c.trigger.id, scheduledAt) ∉ W.completed
  | _ => True

/-- A tick against the rows of its triggers. -/
structure TickOk (W : Schedulers) (t : Tick) : Prop where
  nodup : (t.due.map fun c ↦ c.trigger.id).Nodup
  claims : ∀ c ∈ t.due, Sees W.tables c.trigger.id (W.ClaimOk t c)
  kept : ∀ c ∈ held t, Sees W.tables c.trigger.id (W.HeldOk t c)
  stage : ∀ c ∈ t.due.head?, Sees W.tables c.trigger.id (W.StageOk t c)

/-- The run of an occurrence was started under a time, or may be. -/
def Uses (W : Schedulers) (key : JsString × ℤ) (time : ℤ) : Prop :=
  (∃ s ∈ W.started, s.key = key ∧ s.scheduledAt = time) ∨
    ∃ t ∈ W.ticks, ∃ c ∈ startable t, c.key = key ∧ c.trigger.nextFireAt = time

/-- An occurrence in use is over, or it is pending and its time is that of the row. -/
def UseOk (W : Schedulers) (key : JsString × ℤ) (time : ℤ) : Prop :=
  Sees W.tables key.1 fun row ↦
    key.2 ≤ W.occurrence key.1 ∧ (key.2 = W.occurrence key.1 → time = row.nextFireAt)

/-- What a started run is found by. -/
def StartedRun.scope (s : StartedRun) : JsString × JsString × JsString :=
  (s.principal.appId, s.principal.tenantId, scopedIdempotencyKey s.principal.userId
    (js "schedule:" ++ s.triggerId ++ 58 :: intLiteral s.scheduledAt))

/-- A started run is in the store, under the principal of its trigger. -/
def StartedOk (W : Schedulers) (s : StartedRun) : Prop :=
  W.runs.Taken (StartedRun.scope s) ∧
    Sees W.tables s.triggerId fun row ↦ row.payload.principal = s.principal

/-- A completed occurrence is recorded and is not claimed again. -/
def CompletedOk (W : Schedulers) (key : JsString × ℤ) : Prop :=
  (Sees W.tables key.1 fun row ↦ key.2 < row.nextFireAt ∨ row.enabled = false) ∧
    ∃ f, W.tables.firing? key = some f ∧ f.status = .completed

/-- **The invariant.** -/
structure Inv (W : Schedulers) : Prop where
  keyed : W.tables.Keyed
  owners : (W.ticks.map Tick.owner).Nodup
  rows : ∀ id row, W.tables.row? id = some row → W.RowOk row
  ticks : ∀ t ∈ W.ticks, W.TickOk t
  uses : ∀ key time, W.Uses key time → W.UseOk key time
  oneTime : ∀ key time time', W.Uses key time → W.Uses key time' → time = time'
  started : ∀ s ∈ W.started, W.StartedOk s
  once : (W.started.map StartedRun.key).Nodup
  completed : ∀ key ∈ W.completed, W.CompletedOk key

theorem inv_init : ({} : Schedulers).Inv where
  keyed := List.nodup_nil
  owners := List.nodup_nil
  rows _ _ h := absurd h nofun
  ticks _ h := absurd h List.not_mem_nil
  uses _ _ h := h.elim (fun ⟨_, h, _⟩ ↦ absurd h List.not_mem_nil)
    fun ⟨_, h, _⟩ ↦ absurd h List.not_mem_nil
  oneTime _ _ _ h := h.elim (fun ⟨_, h, _⟩ ↦ absurd h List.not_mem_nil)
    fun ⟨_, h, _⟩ ↦ absurd h List.not_mem_nil
  started _ h := absurd h List.not_mem_nil
  once := List.nodup_nil
  completed _ h := absurd h List.not_mem_nil

/-! ## What others do to a row -/

/-- What somebody may do to a row, as the others see it. -/
structure RowMoves (who : Option JsString) (W W' : Schedulers) (row row' : TriggerRow) : Prop where
  definition : row'.toTriggerDefinition = row.toTriggerDefinition
  later : row.nextFireAt ≤ row'.nextFireAt
  live : ∀ o, some o ≠ who → row'.leaseOwner = some o →
    row' = row ∧ W'.occurrence row.id = W.occurrence row.id
  held : ∀ o, some o ≠ who → row.leaseOwner = some o → row' = row ∨ W'.Expired row.leaseExpiresAt

/-- What somebody may do to the rows, as the others see it. -/
structure Moves (who : Option JsString) (W W' : Schedulers) : Prop where
  rows : ∀ id row, W.tables.row? id = some row →
    ∃ row', W'.tables.row? id = some row' ∧ RowMoves who W W' row row'
  readings : ∀ r ∈ W.readings, r ∈ W'.readings
  completed : ∀ key ∈ W'.completed, key ∈ W.completed ∨
    Sees W.tables key.1 fun row ↦ key.2 = row.nextFireAt

theorem RowMoves.refl {who : Option JsString} {row : TriggerRow}
    (h : W'.occurrence row.id = W.occurrence row.id) : RowMoves who W W' row row where
  definition := rfl
  later := le_rfl
  live _ _ _ := ⟨rfl, h⟩
  held _ _ _ := Or.inl rfl

/-- Nobody moves what does not change. -/
theorem Moves.of_same {who : Option JsString}
    (hrows : ∀ id row, W.tables.row? id = some row →
      W'.tables.row? id = some row ∧ W'.occurrence id = W.occurrence id)
    (hreadings : ∀ r ∈ W.readings, r ∈ W'.readings)
    (hcompleted : ∀ key ∈ W'.completed, key ∈ W.completed) : Moves who W W' where
  rows id row hrow := by
    obtain ⟨hrow', hoccurrence⟩ := hrows id row hrow
    exact ⟨row, hrow', .refl (TriggerTables.id_of_row? hrow ▸ hoccurrence)⟩
  readings := hreadings
  completed key hkey := Or.inl (hcompleted key hkey)

theorem Expired.mono {expiry : Option ℤ} (h : W.Expired expiry)
    (hreadings : ∀ r ∈ W.readings, r ∈ W'.readings) : W'.Expired expiry := by
  obtain ⟨r, hr, hle⟩ := h
  exact ⟨r, hreadings r hr, hle⟩

/-- **A tick keeps what it knows while others move.** -/
theorem TickOk.moves {who : Option JsString} {t : Tick} (h : W.TickOk t) (hmoves : Moves who W W')
    (hne : some t.owner ≠ who) : W'.TickOk t where
  nodup := h.nodup
  claims c hc := by
    obtain ⟨row, hrow, hclaim⟩ := h.claims c hc
    obtain ⟨row', hrow', hmove⟩ := hmoves.rows _ _ hrow
    refine ⟨row', hrow', hmove.definition.trans hclaim.definition, hclaim.due, fun howner ↦ ?_⟩
    obtain ⟨rfl, hoccurrence⟩ := hmove.live _ hne howner
    obtain ⟨htime, hpending, henabled⟩ := hclaim.live howner
    rw [TriggerTables.id_of_row? hrow] at hoccurrence
    exact ⟨htime, hoccurrence.trans hpending, henabled⟩
  kept c hc := by
    obtain ⟨row, hrow, hheld⟩ := h.kept c hc
    obtain ⟨row', hrow', hmove⟩ := hmoves.rows _ _ hrow
    refine ⟨row', hrow', ?_⟩
    rcases hheld with ⟨howner, hexpiry⟩ | hexpired
    · rcases hmove.held _ hne howner with rfl | hexpired
      · exact Or.inl ⟨howner, hexpiry⟩
      · exact Or.inr (hexpiry ▸ hexpired)
    · exact Or.inr (hexpired.mono hmoves.readings)
  stage c hc := by
    obtain ⟨row, hrow, hstage⟩ := h.stage c hc
    obtain ⟨row', hrow', hmove⟩ := hmoves.rows _ _ hrow
    refine ⟨row', hrow', ?_⟩
    rw [StageOk] at hstage ⊢
    split at hstage
    · exact hstage
    · exact hstage
    · obtain ⟨howner, hlater, hcompleted⟩ := hstage
      refine ⟨fun howner' ↦ ?_, hlater.trans_le hmove.later, fun hkey ↦ ?_⟩
      · exact howner ((hmove.live _ hne howner').1 ▸ howner')
      · -- A completion since then was of the time of the row, which was later already.
        rcases hmoves.completed _ hkey with hkey | hsees
        · exact hcompleted hkey
        · exact hlater.ne (hsees.of_row? hrow)
    · trivial

/-- What is known does not depend on the other ticks and the runs. -/
theorem TickOk.of_shared {t : Tick} (h : W.TickOk t) (htables : W'.tables = W.tables)
    (hoccurrence : W'.occurrence = W.occurrence) (hreadings : W'.readings = W.readings)
    (hcompleted : W'.completed = W.completed) : W'.TickOk t := by
  have hmoves : Moves none W W' := .of_same
    (fun id row hrow ↦ ⟨by rw [htables, hrow], by rw [hoccurrence]⟩) (fun r hr ↦ hreadings ▸ hr)
    fun key hkey ↦ hcompleted ▸ hkey
  exact h.moves hmoves (Option.some_ne_none _)

/-! ## What a tick does to itself -/

/-- A step of a tick that changes at most one trigger. -/
structure OnlyAt (id : JsString) (W W' : Schedulers) : Prop where
  rows : ∀ id', id' ≠ id → W'.tables.row? id' = W.tables.row? id' ∧
    W'.occurrence id' = W.occurrence id'
  readings : W'.readings = W.readings

theorem OnlyAt.refl {id : JsString} (htables : W'.tables = W.tables)
    (hoccurrence : W'.occurrence = W.occurrence) (hreadings : W'.readings = W.readings) :
    OnlyAt id W W' :=
  ⟨fun _ _ ↦ ⟨by rw [htables], by rw [hoccurrence]⟩, hreadings⟩

theorem held_of_tail {t : Tick} {c : Claimed} {due : List Claimed} (hdue : t.due = c :: due)
    {c' : Claimed} (hc' : c' ∈ due) : c' ∈ held t := by
  rw [held, hdue]
  split
  · exact hc'
  · exact List.mem_cons_of_mem _ hc'

/-- The tick goes on with the next trigger. -/
theorem TickOk.next {t : Tick} (h : W.TickOk t) {c : Claimed} {due : List Claimed}
    (hdue : t.due = c :: due) (honly : OnlyAt c.trigger.id W W') (n : ℕ) :
    W'.TickOk { t with due := due, stage := .creating, completed := n } := by
  have hnodup := h.nodup
  rw [hdue, List.map_cons, List.nodup_cons] at hnodup
  have hne : ∀ c' ∈ due, c'.trigger.id ≠ c.trigger.id := fun c' hc' heq ↦
    hnodup.1 (List.mem_map.mpr ⟨c', hc', heq⟩)
  have hclaims : ∀ c' ∈ due, Sees W'.tables c'.trigger.id (W'.ClaimOk t c') := by
    intro c' hc'
    obtain ⟨row, hrow, hclaim⟩ := h.claims c' (hdue ▸ List.mem_cons_of_mem _ hc')
    obtain ⟨hrows, hoccurrence⟩ := honly.rows _ (hne c' hc')
    refine ⟨row, hrows.trans hrow, hclaim.definition, hclaim.due, fun howner ↦ ?_⟩
    rw [hoccurrence]
    exact hclaim.live howner
  refine ⟨hnodup.2, fun c' hc' ↦ (hclaims c' hc').mono fun _ _ hc ↦ ⟨hc.1, hc.2, hc.3⟩,
    fun c' hc' ↦ ?_, fun c' hc' ↦ ?_⟩
  · obtain ⟨row, hrow, hheld⟩ := h.kept c' (held_of_tail hdue hc')
    refine ⟨row, (honly.rows _ (hne c' hc')).1.trans hrow, hheld.imp id fun hexpired ↦ ?_⟩
    exact hexpired.mono (honly.readings ▸ fun _ hr ↦ hr)
  · exact (hclaims c' (List.mem_of_mem_head? hc')).mono fun _ _ _ ↦ trivial

/-- The tick gave the lease of its first trigger back and has to record why. -/
theorem TickOk.record {t : Tick} (h : W.TickOk t) {c : Claimed} {due : List Claimed}
    (hdue : t.due = c :: due) (honly : OnlyAt c.trigger.id W W') (row : TriggerRow)
    (hrow : W'.tables.row? c.trigger.id = some row)
    (hdefinition : row.toTriggerDefinition = c.trigger.toTriggerDefinition)
    (howner : row.leaseOwner = none) {scheduledAt : ℤ} (hlater : scheduledAt < row.nextFireAt)
    (hcompleted : (c.trigger.id, scheduledAt) ∉ W'.completed) (errorCode : JsString) :
    W'.TickOk { t with stage := .recording scheduledAt errorCode } := by
  have hnext := h.next hdue honly t.completed
  have hnotOwner : row.leaseOwner ≠ some t.owner := howner ▸ nofun
  refine ⟨h.nodup, fun c' hc' ↦ ?_, fun c' hc' ↦ ?_, fun c' hc' ↦ ?_⟩
  · rcases List.mem_cons.mp (hdue ▸ hc' : c' ∈ c :: due) with rfl | hc'
    · obtain ⟨_, -, hclaim⟩ := h.claims c' (hdue ▸ List.mem_cons_self)
      exact ⟨row, hrow, hdefinition, hclaim.due, fun ho ↦ absurd ho hnotOwner⟩
    · exact (hnext.claims c' hc').mono fun _ _ hc ↦ ⟨hc.1, hc.2, hc.3⟩
  · have htail : c' ∈ due := by
      have hc'' : c' ∈ t.due.tail := hc'
      rwa [hdue] at hc''
    exact hnext.kept c' htail
  · obtain rfl : c = c' := by
      have hc'' : c' ∈ t.due.head? := hc'
      rw [hdue] at hc''
      exact Option.some.inj hc''
    exact ⟨row, hrow, hnotOwner, hlater, hcompleted⟩

/-- The tick goes on with the same trigger. -/
theorem TickOk.restage {t : Tick} (h : W.TickOk t) (hheld : held t = t.due) {s : TickStage}
    (hstage : ∀ c ∈ t.due.head?, Sees W.tables c.trigger.id (W.StageOk { t with stage := s } c)) :
    W.TickOk { t with stage := s } where
  nodup := h.nodup
  claims c hc := (h.claims c hc).mono fun _ _ hc ↦ ⟨hc.1, hc.2, hc.3⟩
  kept c hc := by
    have hmem : c ∈ t.due := by
      rw [held] at hc
      split at hc
      · exact List.mem_of_mem_tail hc
      · exact hc
    exact h.kept c (hheld ▸ hmem)
  stage := hstage

/-- Without anything to know at its new stage. -/
theorem TickOk.restage_of_true {t : Tick} (h : W.TickOk t) (hheld : held t = t.due) {s : TickStage}
    (hs : ∀ c row, W.StageOk { t with stage := s } c row) : W.TickOk { t with stage := s } :=
  h.restage hheld fun c hc ↦
    (h.claims c (List.mem_of_mem_head? hc)).mono fun row _ _ ↦ hs c row

/-! ## Steps of a tick -/

/-- The tick of a manager is replaced, or over. -/
def withTick (W : Schedulers) (owner : JsString) : Option Tick → Schedulers
  | none => W.stop owner
  | some t => W.goOn { t with owner := owner }

theorem goOn_eq (t : Tick) : W.goOn t = W.withTick t.owner (some t) := rfl

theorem mem_withTick {owner : JsString} {t? : Option Tick} {t : Tick}
    (h : t ∈ (W.withTick owner t?).ticks) :
    (∃ t' ∈ t?, t = { t' with owner := owner }) ∨ (t ∈ W.ticks ∧ t.owner ≠ owner) := by
  rcases t? with _ | t'
  · obtain ⟨hmem, hne⟩ := List.mem_filter.mp h
    exact Or.inr ⟨hmem, of_decide_eq_true hne⟩
  · obtain ⟨t'', hmem, heq⟩ := Table.mem_update.mp h
    split_ifs at heq with howner
    · exact Or.inl ⟨t', rfl, heq.symm⟩
    · exact Or.inr ⟨heq ▸ hmem, heq ▸ fun h ↦ howner (decide_eq_true h)⟩

theorem owners_withTick {owner : JsString} {t? : Option Tick} (h : (W.ticks.map Tick.owner).Nodup) :
    ((W.withTick owner t?).ticks.map Tick.owner).Nodup := by
  rcases t? with _ | t'
  · exact h.sublist (List.filter_sublist.map _)
  · have hsame : (W.withTick owner (some t')).ticks.map Tick.owner = W.ticks.map Tick.owner := by
      rw [withTick, goOn, Table.update, List.map_map]
      refine List.map_congr_left fun t _ ↦ ?_
      rw [Function.comp_apply]
      split_ifs with howner
      · exact (of_decide_eq_true howner).symm
      · rfl
    rw [hsame]
    exact h

/-- **A step of one tick keeps the invariant** where the changed rows do, the other ticks keep what
they know, and nothing comes into use. -/
theorem Inv.replace (h : W.Inv) {t : Tick} (ht : t ∈ W.ticks) (V : Schedulers) (t? : Option Tick)
    (hticks : V.ticks = W.ticks) (hkeyed : V.tables.Keyed)
    (hrows : ∀ id row, V.tables.row? id = some row → V.RowOk row)
    (hmoves : Moves (some t.owner) W V)
    (hnew : ∀ t' ∈ t?, V.TickOk { t' with owner := t.owner } ∧
      ∀ c ∈ startable { t' with owner := t.owner }, c ∈ startable t)
    (hstarted : ∀ s ∈ V.started, W.Uses s.key s.scheduledAt ∧ V.StartedOk s)
    (honce : (V.started.map StartedRun.key).Nodup)
    (huses : ∀ key time, W.Uses key time → V.UseOk key time)
    (hcompleted : ∀ key ∈ V.completed, V.CompletedOk key) :
    (V.withTick t.owner t?).Inv := by
  have hshared : (V.withTick t.owner t?) = { V with ticks := (V.withTick t.owner t?).ticks } := by
    rcases t? with _ | t' <;> rfl
  have hsub : ∀ key time, (V.withTick t.owner t?).Uses key time → W.Uses key time := by
    rintro key time (⟨s, hs, rfl, rfl⟩ | ⟨t'', ht'', c, hc, hkey, htime⟩)
    · rw [hshared] at hs
      exact (hstarted s hs).1
    · rcases mem_withTick ht'' with ⟨t', ht', rfl⟩ | ⟨hmem, -⟩
      · exact Or.inr ⟨t, ht, c, (hnew t' ht').2 c hc, hkey, htime⟩
      · exact Or.inr ⟨t'', hticks ▸ hmem, c, hc, hkey, htime⟩
  have howners : ((V.withTick t.owner t?).ticks.map Tick.owner).Nodup :=
    owners_withTick (hticks ▸ h.owners)
  have hticks' : ∀ t'' ∈ (V.withTick t.owner t?).ticks, V.TickOk t'' := by
    intro t'' ht''
    rcases mem_withTick ht'' with ⟨t', ht', rfl⟩ | ⟨hmem, hne⟩
    · exact (hnew t' ht').1
    · exact (h.ticks t'' (hticks ▸ hmem)).moves hmoves fun heq ↦ hne (Option.some.inj heq)
  rw [hshared] at howners hsub ⊢
  exact
    { keyed := hkeyed
      owners := howners
      rows := fun id row hrow ↦
        have hok := hrows id row hrow
        ⟨hok.valid, hok.behind, hok.bounded⟩
      ticks := fun t'' ht'' ↦ (hticks' t'' ht'').of_shared rfl rfl rfl rfl
      uses := fun key time huse ↦ huses key time (hsub key time huse)
      oneTime := fun key time time' huse huse' ↦
        h.oneTime key time time' (hsub _ _ huse) (hsub _ _ huse')
      started := fun s hs ↦ (hstarted s hs).2
      once := honce
      completed := hcompleted }

/-- A step of a tick that leaves the triggers alone. -/
theorem Inv.quiet (h : W.Inv) {t : Tick} (ht : t ∈ W.ticks) (t? : Option Tick)
    (hnew : ∀ t' ∈ t?, W.TickOk { t' with owner := t.owner } ∧
      ∀ c ∈ startable { t' with owner := t.owner }, c ∈ startable t) :
    (W.withTick t.owner t?).Inv :=
  h.replace ht W t? rfl h.keyed h.rows (.of_same (fun _ _ hrow ↦ ⟨hrow, rfl⟩) (fun _ hr ↦ hr)
    fun _ hkey ↦ hkey) hnew (fun s hs ↦ ⟨Or.inl ⟨s, hs, rfl, rfl⟩, h.started s hs⟩) h.once h.uses
    h.completed

theorem nextTrigger_eq {t : Tick} {c : Claimed} {due : List Claimed} (hdue : t.due = c :: due) :
    W.nextTrigger t = W.withTick t.owner
      (if due = [] then none else some { t with due := due, stage := .creating }) := by
  rw [nextTrigger, hdue, List.tail_cons]
  rcases due with _ | ⟨c', due⟩ <;> rfl

theorem startable_of_tail {t : Tick} {c : Claimed} {due : List Claimed} (hdue : t.due = c :: due)
    {c' : Claimed} (hc' : c' ∈ due) : c' ∈ startable t := by
  rw [startable, hdue]
  split
  · exact List.mem_cons_of_mem _ hc'
  · exact hc'

/-- What the tick that goes on with the next trigger has to meet. -/
theorem nextTrigger_new {t : Tick} (h : W.TickOk t) {c : Claimed} {due : List Claimed}
    (hdue : t.due = c :: due) (honly : OnlyAt c.trigger.id W W') (n : ℕ) :
    ∀ t' ∈ (if due = [] then none else
        some ({ t with due := due, stage := .creating, completed := n } : Tick)),
      W'.TickOk { t' with owner := t.owner } ∧
        ∀ c' ∈ startable { t' with owner := t.owner }, c' ∈ startable t := by
  intro t' ht'
  split_ifs at ht' with hnil
  · exact absurd ht' nofun
  · obtain rfl := Option.some.inj ht'
    exact ⟨h.next hdue honly n, fun c' hc' ↦ startable_of_tail hdue hc'⟩

theorem Inv.nextTrigger (h : W.Inv) {t : Tick} (ht : t ∈ W.ticks) {c : Claimed}
    {due : List Claimed} (hdue : t.due = c :: due) : (W.nextTrigger t).Inv := by
  rw [nextTrigger_eq hdue]
  exact h.quiet ht _ (nextTrigger_new (h.ticks t ht) hdue (.refl rfl rfl rfl) t.completed)

theorem Inv.stop (h : W.Inv) {t : Tick} (ht : t ∈ W.ticks) : (W.stop t.owner).Inv :=
  h.quiet ht none fun _ h ↦ absurd h nofun

/-- A stage at which the run of the first trigger is not started any more. -/
theorem startable_restage {t : Tick} {s : TickStage} (hs : s ≠ .creating) {c : Claimed}
    (hc : c ∈ startable { t with stage := s }) : c ∈ startable t := by
  have htail : c ∈ t.due.tail := by
    rcases s with _ | _ | _ | _ | _ | _
    · exact absurd rfl hs
    all_goals exact hc
  rw [startable]
  split
  · exact List.mem_of_mem_tail htail
  · exact htail

theorem Inv.goOn (h : W.Inv) {t : Tick} (ht : t ∈ W.ticks) {s : TickStage} (hs : s ≠ .creating)
    (hok : W.TickOk { t with stage := s }) : (W.goOn { t with stage := s }).Inv := by
  refine h.quiet ht (some { t with stage := s }) fun t' ht' ↦ ?_
  obtain rfl := Option.some.inj ht'
  exact ⟨hok, fun c hc ↦ startable_restage hs hc⟩

/-! ## Starting a run -/

/-- A run is created for an occurrence that has none. -/
theorem Inv.fresh (h : W.Inv) {t : Tick} (ht : t ∈ W.ticks) {c : Claimed} (hc : c ∈ t.due)
    (hcreating : t.stage = .creating)
    (hfree : ¬W.runs.Taken (Store.requestScope (runRequest c.trigger))) :
    ∀ s ∈ W.started, s.key ≠ c.key := by
  intro s hs hkey
  obtain ⟨hid, -⟩ := Prod.mk.inj hkey
  have hstartable : c ∈ startable t := by
    rw [startable, hcreating]
    exact hc
  -- One time, and one principal, so that the run of `s` has the key of the request.
  have htime : s.scheduledAt = c.trigger.nextFireAt :=
    h.oneTime c.key _ _ (Or.inl ⟨s, hs, hkey, rfl⟩) (Or.inr ⟨t, ht, c, hstartable, rfl, rfl⟩)
  obtain ⟨htaken, hsees⟩ := h.started s hs
  obtain ⟨row, hrow, hclaim⟩ := (h.ticks t ht).claims c hc
  rw [hid] at hsees
  have hprincipal : c.trigger.payload.principal = s.principal := by
    rw [← hsees.of_row? hrow, hclaim.definition]
  rw [StartedRun.scope, hid, htime, ← hprincipal] at htaken
  exact hfree htaken

theorem Inv.createRun (h : W.Inv) {t : Tick} (ht : t ∈ W.ticks) {c : Claimed} {due : List Claimed}
    (hdue : t.due = c :: due) (hcreating : t.stage = .creating) (e : Circumstances) :
    (W.createRun P t c e).Inv := by
  have hc : c ∈ t.due := hdue ▸ List.mem_cons_self
  have hheld : held t = t.due := by rw [held, hcreating]
  rw [Schedulers.createRun]
  rcases hcall : (Store.createOrGetRun P e.now e.fresh e.runId (runRequest c.trigger)).run W.runs
    with ⟨error | ⟨run, created⟩, runs⟩
  · exact h.goOn ht nofun ((h.ticks t ht).restage_of_true hheld fun _ _ ↦ trivial)
  · have hstarted := Store.createOrGetRun_started hcall
    obtain ⟨row, hrow, hclaim⟩ := (h.ticks t ht).claims c hc
    dsimp only
    rw [goOn_eq]
    refine h.replace ht _ (some _) rfl h.keyed
      (fun id row hrow ↦ ⟨(h.rows id row hrow).1, (h.rows id row hrow).2, (h.rows id row hrow).3⟩)
      (.of_same (fun _ _ hrow ↦ ⟨hrow, rfl⟩) (fun _ hr ↦ hr) fun _ hkey ↦ hkey) (fun t' ht' ↦ ?_)
      (fun s hs ↦ ?_) ?_ h.uses h.completed
    · obtain rfl := Option.some.inj ht'
      constructor
      · refine TickOk.of_shared ((h.ticks t ht).restage_of_true hheld fun _ _ ↦ ?_) rfl rfl rfl rfl
        rcases e.lost <;> trivial
      · refine fun c' hc' ↦ startable_restage ?_ hc'
        rcases e.lost <;> nofun
    · have hold : ∀ s ∈ W.started, W.Uses s.key s.scheduledAt ∧
          (runs.Taken (StartedRun.scope s) ∧
            Sees W.tables s.triggerId fun row ↦ row.payload.principal = s.principal) := fun s hs ↦
        ⟨Or.inl ⟨s, hs, rfl, rfl⟩, hstarted.keeps (h.started s hs).1, (h.started s hs).2⟩
      rcases created
      · exact hold s hs
      · rcases List.mem_append.mp hs with hs | hs
        · exact hold s hs
        · obtain rfl := List.mem_singleton.mp hs
          refine ⟨Or.inr ⟨t, ht, c, ?_, rfl, rfl⟩, hstarted.taken, row, hrow, ?_⟩
          · rw [startable, hcreating]
            exact hc
          · exact congrArg (·.payload.principal) hclaim.definition
    · rcases created
      · exact h.once
      · obtain ⟨-⟩ | ⟨_, hfree, -, -, -⟩ := hstarted
        refine Table.nodup_append_fresh h.once fun s hs ↦ ?_
        exact h.fresh ht hc hcreating hfree s hs

/-! ## Completing and failing -/

/-- What a tick that still has the lease of its first trigger knows of the row. -/
theorem Inv.live (h : W.Inv) {t : Tick} (ht : t ∈ W.ticks) {c : Claimed} (hc : c ∈ t.due)
    {row : TriggerRow} (hrow : W.tables.row? c.trigger.id = some row)
    (howner : row.leaseOwner = some t.owner) :
    row.toTriggerDefinition = c.trigger.toTriggerDefinition ∧ row.nextFireAt = c.trigger.nextFireAt ∧
      W.occurrence c.trigger.id = c.occurrence ∧ row.enabled = true := by
  have hclaim := ((h.ticks t ht).claims c hc).of_row? hrow
  exact ⟨hclaim.definition, hclaim.live howner⟩

/-- Somebody who has the lease takes nothing from the others by giving it back. -/
theorem RowMoves.of_release {who : JsString} {row : TriggerRow} (row' : TriggerRow)
    (howner : row.leaseOwner = some who) (hreleased : row'.leaseOwner = none)
    (hdefinition : row'.toTriggerDefinition = row.toTriggerDefinition)
    (hlater : row.nextFireAt ≤ row'.nextFireAt) : RowMoves (some who) W W' row row' where
  definition := hdefinition
  later := hlater
  live _ _ ho := absurd (hreleased.symm.trans ho) nofun
  held _ hne ho := absurd (ho.symm.trans howner) hne

/-- One row is given back and the others are left alone. -/
theorem Moves.of_release {who : JsString} {id : JsString} {row row' : TriggerRow}
    (hrow : W.tables.row? id = some row) (hmove : RowMoves (some who) W W' row row')
    (hrows : ∀ id', W'.tables.row? id' = if id' = id then some row' else W.tables.row? id')
    (hoccurrence : ∀ id', id' ≠ id → W'.occurrence id' = W.occurrence id')
    (hreadings : W'.readings = W.readings)
    (hcompleted : ∀ key ∈ W'.completed, key ∈ W.completed ∨
      Sees W.tables key.1 fun row ↦ key.2 = row.nextFireAt) : Moves (some who) W W' where
  rows id' r hr := by
    rw [hrows]
    by_cases hid : id' = id
    · subst hid
      obtain rfl := Option.some.inj (hrow.symm.trans hr)
      rw [if_pos rfl]
      exact ⟨row', rfl, hmove⟩
    · rw [if_neg hid]
      exact ⟨r, hr, .refl (TriggerTables.id_of_row? hr ▸ hoccurrence id' hid)⟩
  readings r hr := hreadings ▸ hr
  completed := hcompleted

theorem Inv.complete (h : W.Inv) {t : Tick} (ht : t ∈ W.ticks) {c : Claimed} {due : List Claimed}
    (hdue : t.due = c :: due) {read : TriggerRow} {next : ℤ}
    (hcompleting : t.stage = .completing read next) (horderly : W.Holds t c → W.Matches t c) :
    (W.complete t c read next).Inv := by
  have hc : c ∈ t.due := hdue ▸ List.mem_cons_self
  obtain ⟨hid, htime, hshot, hnext⟩ : read.id = c.trigger.id ∧
      read.nextFireAt = c.trigger.nextFireAt ∧ read.oneShot = c.trigger.oneShot ∧
      if c.trigger.oneShot then next = maxSafeInteger else c.trigger.nextFireAt < next := by
    obtain ⟨row, -, hstage⟩ := (h.ticks t ht).stage c (hdue ▸ rfl)
    rw [StageOk, hcompleting] at hstage
    exact hstage
  rw [Schedulers.complete]
  by_cases hleased : ∃ row, W.tables.row? read.id = some row ∧ row.leaseOwner = some t.owner
  swap
  · rw [TriggerTables.completeUpdate, if_neg]
    · exact h.nextTrigger ht hdue
    · rwa [TriggerTables.any_leasedBy h.keyed]
  obtain ⟨row, hrow, howner⟩ := hleased
  obtain ⟨hchanged, hkeyed, hrows, hfirings⟩ :=
    TriggerTables.completeUpdate_of_leased t.owner h.keyed next t.now hrow howner
  rw [hid] at hrow
  obtain ⟨hdefinition, hpresent, hpending, henabled⟩ := h.live ht hc hrow howner
  obtain ⟨hfirst, firing, hfiring, hfiringOwner⟩ := horderly ⟨row, hrow, howner⟩
  have hrowid : row.id = c.trigger.id := TriggerTables.id_of_row? hrow
  have hrowshot : row.oneShot = c.trigger.oneShot := congrArg (·.oneShot) hdefinition
  -- The new time is not earlier than the old one, which is the time of the occurrence.
  have hle : c.trigger.nextFireAt ≤ next := by
    split_ifs at hnext with hone
    · have hbounded := (h.rows _ _ hrow).bounded (hrowshot.trans hone) henabled
      rw [hrowid, hpending, ← hfirst] at hbounded
      exact hnext ▸ hbounded
    · exact hnext.le
  rcases hupdate : W.tables.completeUpdate read next t.owner t.now with ⟨tables, changed⟩
  rw [hupdate] at hchanged hkeyed hrows hfirings
  dsimp only at hchanged hkeyed hrows hfirings
  subst hchanged
  rw [hid] at hrows hfirings
  dsimp only
  rw [hid, nextTrigger_eq (t := { t with completed := t.completed + 1 }) hdue]
  have hrow' : tables.row? c.trigger.id =
      some (TriggerTables.completedRow next t.now read.oneShot row) := by rw [hrows, if_pos rfl]
  have hother : ∀ id', id' ≠ c.trigger.id → tables.row? id' = W.tables.row? id' :=
    fun id' hne ↦ by rw [hrows, if_neg hne]
  refine h.replace ht _ _ rfl hkeyed (fun id r hr ↦ ?_) (.of_release hrow (.of_release
    (TriggerTables.completedRow next t.now read.oneShot row) howner rfl rfl (hpresent.trans_le hle))
    hrows (fun id' hne ↦ Function.update_of_ne hne _ _) rfl fun key hkey ↦ ?_)
    (nextTrigger_new (h.ticks t ht) hdue ?_ _) (fun s hs ↦ ⟨Or.inl ⟨s, hs, rfl, rfl⟩,
      (h.started s hs).1, ?_⟩) h.once (fun key time huse ↦ ?_) fun key hkey ↦ ?_
  · by_cases hne : id = c.trigger.id
    · obtain rfl := Option.some.inj (hrow'.symm.trans (hne ▸ hr))
      have hok := h.rows _ _ hrow
      refine ⟨hok.valid, ?_, fun hone hon ↦ ?_⟩
      · show Function.update W.occurrence c.trigger.id next row.id ≤ next
        rw [hrowid, Function.update_self]
      · have hone' : read.oneShot = true := hshot.trans (hrowshot.symm.trans hone)
        exact absurd (hone' ▸ hon : (!true) = true) (by decide)
    · have hok := h.rows id r ((hother id hne).symm.trans hr)
      have hne' : r.id ≠ c.trigger.id :=
        (TriggerTables.id_of_row? ((hother id hne).symm.trans hr)).symm ▸ hne
      refine ⟨hok.valid, ?_, fun hone hon ↦ ?_⟩
      · show Function.update W.occurrence c.trigger.id next r.id ≤ r.nextFireAt
        rw [Function.update_of_ne hne']
        exact hok.behind
      · show Function.update W.occurrence c.trigger.id next r.id ≤ maxSafeInteger
        rw [Function.update_of_ne hne']
        exact hok.bounded hone hon
  · rcases List.mem_append.mp hkey with hkey | hkey
    · exact Or.inl hkey
    · obtain rfl := List.mem_singleton.mp hkey
      exact Or.inr ⟨row, hrow, hfirst.symm.trans hpresent.symm⟩
  · exact ⟨fun id' hne ↦ ⟨hother id' hne, Function.update_of_ne hne _ _⟩, rfl⟩
  · exact (h.started s hs).2.replace hrow hrows (fun _ hp ↦ hp) fun _ _ hp ↦ hp
  · refine (h.uses key time huse).replace hrow hrows (fun hid' hok ↦ ?_) fun hne r hr ↦ ?_
    · obtain ⟨hbefore, htimes⟩ := hok
      rw [hid', hpending] at hbefore htimes
      show key.2 ≤ Function.update W.occurrence c.trigger.id next key.1 ∧
        (key.2 = Function.update W.occurrence c.trigger.id next key.1 → time = next)
      rw [hid', Function.update_self]
      refine ⟨hbefore.trans (hfirst ▸ hle), fun heq ↦ ?_⟩
      -- An occurrence at the new time was the pending one, and the time did not change.
      have hsame : key.2 = c.occurrence := le_antisymm hbefore (heq ▸ hfirst ▸ hle)
      rw [htimes hsame, hpresent, hfirst, ← hsame, heq]
    · show key.2 ≤ Function.update W.occurrence c.trigger.id next key.1 ∧
        (key.2 = Function.update W.occurrence c.trigger.id next key.1 → time = r.nextFireAt)
      rw [Function.update_of_ne hne]
      exact hr
  · rcases List.mem_append.mp hkey with hkey | hkey
    · obtain ⟨hsees, f, hf, hstatus⟩ := h.completed key hkey
      refine ⟨hsees.replace hrow hrows (fun _ hover ↦ Or.inl ?_) fun _ _ hover ↦ hover, ?_⟩
      · have hlt := hover.resolve_right (by rw [henabled]; decide)
        exact hlt.trans_le (hpresent.trans_le hle)
      · refine ⟨_, (hfirings key).trans (by rw [hf, Option.map_some]), ?_⟩
        split_ifs
        · rfl
        · exact hstatus
    · obtain rfl := List.mem_singleton.mp hkey
      refine ⟨⟨_, hrow', ?_⟩, ?_⟩
      · rcases hone : c.trigger.oneShot
        · rw [hone, if_neg Bool.false_ne_true, hfirst] at hnext
          exact Or.inl hnext
        · exact Or.inr (by rw [TriggerTables.completedRow, hshot, hone]; rfl)
      · refine ⟨_, (hfirings c.key).trans (by rw [hfiring, Option.map_some]), ?_⟩
        rw [if_pos]
        · rfl
        · have hkey' : firing.key = c.key := Table.key_of_lookup hfiring
          rw [TriggerTables.firedBy, hkey', htime, hfirst, hfiringOwner, decide_eq_true rfl,
            Bool.and_true]
          exact decide_eq_true rfl

/-! ## Failing -/

theorem Inv.fail (h : W.Inv) {t : Tick} (ht : t ∈ W.ticks) {c : Claimed} {due : List Claimed}
    (hdue : t.due = c :: due) {scheduledAt : ℤ} {errorCode : JsString}
    (hfailing : t.stage = .failing scheduledAt errorCode) (horderly : W.Holds t c → W.Unstarted c) :
    (W.fail t c scheduledAt errorCode).Inv := by
  have hc : c ∈ t.due := hdue ▸ List.mem_cons_self
  have htime : scheduledAt = c.trigger.nextFireAt := by
    obtain ⟨row, -, hstage⟩ := (h.ticks t ht).stage c (hdue ▸ rfl)
    rw [StageOk, hfailing] at hstage
    exact hstage
  rw [Schedulers.fail]
  by_cases hleased : ∃ row, W.tables.row? c.trigger.id = some row ∧ row.leaseOwner = some t.owner
  swap
  · rw [TriggerTables.failUpdate, if_neg]
    · exact h.nextTrigger ht hdue
    · rwa [TriggerTables.any_leasedBy h.keyed]
  obtain ⟨row, hrow, howner⟩ := hleased
  obtain ⟨hchanged, hkeyed, hrows, hfirings⟩ :=
    TriggerTables.failUpdate_of_leased t.owner h.keyed (t.now + retryMs) errorCode hrow howner
  obtain ⟨hdefinition, hpresent, hpending, henabled⟩ := h.live ht hc hrow howner
  obtain ⟨hunstarted, hunclaimed⟩ := horderly ⟨row, hrow, howner⟩
  -- The new time is later than the reading of the claim, and so than the old time.
  have hlt : row.nextFireAt < t.now + retryMs := by
    have hdue' := (((h.ticks t ht).claims c hc).of_row? hrow).due
    rw [hpresent]
    exact hdue'.trans_lt (lt_add_of_pos_right _ (by decide))
  rcases hupdate : W.tables.failUpdate c.trigger.id t.owner (t.now + retryMs) errorCode
    with ⟨tables, changed⟩
  rw [hupdate] at hchanged hkeyed hrows hfirings
  dsimp only at hchanged hkeyed hrows hfirings
  subst hchanged
  dsimp only
  rw [goOn_eq]
  have hrow' : tables.row? c.trigger.id =
      some (TriggerTables.failedRow (t.now + retryMs) errorCode row) := by rw [hrows, if_pos rfl]
  have hother : ∀ id', id' ≠ c.trigger.id → tables.row? id' = W.tables.row? id' :=
    fun id' hne ↦ by rw [hrows, if_neg hne]
  refine h.replace ht _ (some _) rfl hkeyed (fun id r hr ↦ ?_) (.of_release hrow (.of_release
    (TriggerTables.failedRow (t.now + retryMs) errorCode row) howner rfl rfl hlt.le) hrows
    (fun _ _ ↦ rfl) rfl fun key hkey ↦ Or.inl hkey) (fun t' ht' ↦ ?_)
    (fun s hs ↦ ⟨Or.inl ⟨s, hs, rfl, rfl⟩, (h.started s hs).1, ?_⟩) h.once (fun key time huse ↦ ?_)
    fun key hkey ↦ ?_
  · by_cases hne : id = c.trigger.id
    · obtain rfl := Option.some.inj (hrow'.symm.trans (hne ▸ hr))
      have hok := h.rows _ _ hrow
      exact ⟨hok.valid, hok.behind.trans hlt.le, hok.bounded⟩
    · have hok := h.rows id r ((hother id hne).symm.trans hr)
      exact ⟨hok.valid, hok.behind, hok.bounded⟩
  · obtain rfl := Option.some.inj ht'
    refine ⟨(h.ticks t ht).record hdue ?_ (TriggerTables.failedRow _ errorCode row) hrow'
      hdefinition rfl ?_ (fun hkey ↦ ?_) errorCode,
      fun c' hc' ↦ startable_restage (s := .recording scheduledAt errorCode) (by simp) hc'⟩
    · exact ⟨fun id' hne ↦ ⟨hother id' hne, rfl⟩, rfl⟩
    · rw [htime, ← hpresent]
      exact hlt
    · have hover := (h.completed _ hkey).1.of_row? hrow
      rw [htime, henabled, hpresent] at hover
      exact hover.elim (lt_irrefl _) (by decide)
  · exact (h.started s hs).2.replace hrow hrows (fun _ hp ↦ hp) fun _ _ hp ↦ hp
  · refine (h.uses key time huse).replace hrow hrows (fun hid' hok ↦ ?_) fun _ _ hr ↦ hr
    refine ⟨hok.1, fun heq ↦ ?_⟩
    have hkey : key = c.key := Prod.ext hid' (heq.trans (hid' ▸ hpending))
    rcases huse with ⟨s, hs, hs', -⟩ | ⟨t', ht', c', hc', hs', -⟩
    · exact absurd (hs'.trans hkey) (hunstarted s hs)
    · exact absurd (hs'.trans hkey) (hunclaimed t' ht' c' hc')
  · obtain ⟨hsees, f, hf, hstatus⟩ := h.completed key hkey
    refine ⟨hsees.replace hrow hrows (fun _ hover ↦ Or.inl ?_) fun _ _ hover ↦ hover,
      f, (hfirings key).trans hf, hstatus⟩
    exact (hover.resolve_right (by rw [henabled]; decide)).trans hlt

/-- The failure is recorded under the time of the claim, which was not completed. -/
theorem Inv.record (h : W.Inv) {t : Tick} (ht : t ∈ W.ticks) {c : Claimed} {due : List Claimed}
    (hdue : t.due = c :: due) {scheduledAt : ℤ} {errorCode : JsString}
    (hrecording : t.stage = .recording scheduledAt errorCode) (now : ℤ) :
    ({ W with
      tables := W.tables.failRecord (c.trigger.id, scheduledAt) t.owner now errorCode
      }.nextTrigger t).Inv := by
  obtain ⟨row, hrow, hstage⟩ := (h.ticks t ht).stage c (hdue ▸ rfl)
  rw [StageOk, hrecording] at hstage
  rw [nextTrigger_eq hdue]
  refine h.replace ht _ _ rfl h.keyed
    (fun id row hrow ↦ ⟨(h.rows id row hrow).1, (h.rows id row hrow).2, (h.rows id row hrow).3⟩)
    (.of_same (fun _ _ hrow ↦ ⟨hrow, rfl⟩) (fun _ hr ↦ hr) fun _ hkey ↦ hkey)
    (nextTrigger_new (h.ticks t ht) hdue ?_ _) (fun s hs ↦ ⟨Or.inl ⟨s, hs, rfl, rfl⟩, h.started s hs⟩)
    h.once h.uses fun key hkey ↦ ?_
  · exact ⟨fun _ _ ↦ ⟨rfl, rfl⟩, rfl⟩
  · obtain ⟨hsees, f, hf, hstatus⟩ := h.completed key hkey
    refine ⟨hsees, f, ?_, hstatus⟩
    have hne : key ≠ (c.trigger.id, scheduledAt) := fun heq ↦ hstage.2.2 (heq ▸ hkey)
    refine (TriggerTables.firing?_failRecord now t.owner _ _ _).trans ?_
    have hkey' : f.key = key := Table.key_of_lookup hf
    rw [hf, Option.map_some, if_neg]
    rw [TriggerTables.firedBy, hkey', decide_eq_false hne]
    exact Bool.false_ne_true

/-! ## The next statement of a tick -/

theorem Inv.completeQuery (h : W.Inv) {t : Tick} (ht : t ∈ W.ticks) {c : Claimed}
    {due : List Claimed} (hdue : t.due = c :: due) (hstage : t.stage = .completeQuery)
    {read : TriggerRow} {next : ℤ}
    (hquery : W.tables.completeQuery H c.trigger.id t.owner t.now = .ok (some (read, next))) :
    (W.goOn { t with stage := .completing read next }).Inv := by
  have hc : c ∈ t.due := hdue ▸ List.mem_cons_self
  have hheld : held t = t.due := by rw [held, hstage]
  rw [TriggerTables.completeQuery, TriggerTables.find?_leasedBy h.keyed] at hquery
  obtain ⟨row, hrow, hclaim⟩ := (h.ticks t ht).claims c hc
  rw [hrow, Option.filter_some] at hquery
  split_ifs at hquery with howner
  swap
  · exact absurd hquery nofun
  obtain ⟨hdefinition, hpresent, -, -⟩ := h.live ht hc hrow (of_decide_eq_true howner)
  have hshot : row.oneShot = c.trigger.oneShot := congrArg (·.oneShot) hdefinition
  have hid : row.id = c.trigger.id := TriggerTables.id_of_row? hrow
  refine h.goOn ht nofun ((h.ticks t ht).restage hheld fun c' hc' ↦ ?_)
  obtain rfl : c = c' := by
    rw [hdue] at hc'
    exact Option.some.inj hc'
  refine ⟨row, hrow, ?_⟩
  dsimp only at hquery
  split_ifs at hquery with hone
  · obtain ⟨rfl, rfl⟩ := Prod.mk.inj (Option.some.inj (Except.ok.inj hquery))
    exact ⟨hid, hpresent, hshot, by rw [if_pos (hshot ▸ hone)]⟩
  · rcases hnext : nextOccurrence H (toTrigger row) t.now with error | next'
    · rw [hnext] at hquery
      exact absurd hquery nofun
    · rw [hnext] at hquery
      obtain ⟨rfl, rfl⟩ := Prod.mk.inj (Option.some.inj (Except.ok.inj hquery))
      have hshot' : row.oneShot = false := Bool.eq_false_iff.mpr hone
      have hgt : row.nextFireAt < next' := nextOccurrence_gt (h.rows _ _ hrow).valid hshot'
        (hpresent.trans_le hclaim.due) hnext
      refine ⟨hid, hpresent, hshot, ?_⟩
      rw [← hshot, hshot', if_neg Bool.false_ne_true, ← hpresent]
      exact hgt

theorem Inv.failQuery (h : W.Inv) {t : Tick} (ht : t ∈ W.ticks) {c : Claimed}
    {due : List Claimed} (hdue : t.due = c :: due) {errorCode : JsString}
    (hstage : t.stage = .failQuery errorCode) {scheduledAt : ℤ}
    (hquery : W.tables.failQuery c.trigger.id t.owner = some scheduledAt) :
    (W.goOn { t with stage := .failing scheduledAt errorCode }).Inv := by
  have hc : c ∈ t.due := hdue ▸ List.mem_cons_self
  have hheld : held t = t.due := by rw [held, hstage]
  rw [TriggerTables.failQuery, TriggerTables.find?_leasedBy h.keyed] at hquery
  obtain ⟨row, hrow, -⟩ := (h.ticks t ht).claims c hc
  rw [hrow, Option.filter_some] at hquery
  split_ifs at hquery with howner
  swap
  · exact absurd hquery nofun
  obtain ⟨-, hpresent, -, -⟩ := h.live ht hc hrow (of_decide_eq_true howner)
  refine h.goOn ht nofun ((h.ticks t ht).restage hheld fun c' hc' ↦ ?_)
  obtain rfl : c = c' := by
    rw [hdue] at hc'
    exact Option.some.inj hc'
  exact ⟨row, hrow, (Option.some.inj hquery).symm.trans hpresent⟩

/-- **The statement of a tick keeps the invariant**, by the stages. -/
theorem Inv.perform (h : W.Inv) {t : Tick} (ht : t ∈ W.ticks) {c : Claimed} {due : List Claimed}
    (hdue : t.due = c :: due) (horderly : W.OrderlyAt t c) (e : Circumstances) :
    (W.perform P H t c e).Inv := by
  rw [OrderlyAt] at horderly
  rw [Schedulers.perform]
  split
  · rename_i hstage
    exact h.createRun ht hdue hstage e
  · rename_i hstage
    have hheld : held t = t.due := by rw [held, hstage]
    split
    · exact h.goOn ht nofun ((h.ticks t ht).restage_of_true hheld fun _ _ ↦ trivial)
    · exact h.nextTrigger ht hdue
    · rename_i hquery
      exact h.completeQuery ht hdue hstage hquery
  · rename_i hstage
    rw [hstage] at horderly
    exact h.complete ht hdue hstage horderly
  · rename_i hstage
    split
    · exact h.nextTrigger ht hdue
    · rename_i hquery
      exact h.failQuery ht hdue hstage hquery
  · rename_i hstage
    rw [hstage] at horderly
    exact h.fail ht hdue hstage horderly
  · rename_i hstage
    exact h.record ht hdue hstage e.now

theorem Inv.throws (h : W.Inv) {t : Tick} (ht : t ∈ W.ticks) (e : Circumstances) :
    (W.throws t e).Inv := by
  have htry : held t = t.due →
      (W.goOn { t with stage := .failQuery e.errorName }).Inv := fun hheld ↦
    h.goOn ht nofun ((h.ticks t ht).restage_of_true hheld fun _ _ ↦ trivial)
  rw [Schedulers.throws]
  rcases hstage : t.stage with _ | _ | _ | _ | _ | _
  · exact htry (by rw [held, hstage])
  · exact htry (by rw [held, hstage])
  · exact htry (by rw [held, hstage])
  all_goals exact h.stop ht

theorem Inv.advance (h : W.Inv) {t : Tick} (ht : t ∈ W.ticks) {c : Claimed} {due : List Claimed}
    (hdue : t.due = c :: due) (e : Circumstances)
    (horderly : e.outcome = .succeeds → W.OrderlyAt t c) : (W.advance P H t c e).Inv := by
  rw [Schedulers.advance]
  split
  · rename_i hsucceeds
    exact h.perform ht hdue (horderly hsucceeds) e
  · exact h.throws ht e
  · exact h.stop ht

/-! ## Claiming -/

section Claim

variable {owner : JsString} {now : ℤ}

/-- The claims of a new tick. -/
def claimsOf (W : Schedulers) (due : List IntervalTrigger) : List Claimed :=
  due.map fun trigger ↦ ⟨trigger, W.occurrence trigger.id⟩

/-- A claim, the row it was made of and the row it left. -/
theorem mem_claimsOf {tables : TriggerTables} {due : List IntervalTrigger} (h : W.tables.Keyed)
    (hclaims : TriggerTables.Claims now owner leaseMs W.tables (tables, due)) {c : Claimed}
    (hc : c ∈ W.claimsOf due) :
    ∃ row, W.tables.row? c.trigger.id = some row ∧ TriggerTables.isDue now row = true ∧
      tables.row? c.trigger.id = some (TriggerTables.leaseTo owner (now + leaseMs) row) ∧
      c.trigger = toTrigger (TriggerTables.leaseTo owner (now + leaseMs) row) ∧
      c.occurrence = W.occurrence c.trigger.id := by
  obtain ⟨trigger, htrigger, rfl⟩ := List.mem_map.mp hc
  obtain ⟨row, hmem, hdue, rfl⟩ := hclaims.claimed trigger htrigger
  have hrow : W.tables.row? row.id = some row := h.row?_of_mem hmem
  refine ⟨row, hrow, hdue, (hclaims.row row.id).trans ?_, rfl, rfl⟩
  rw [hrow, Option.map_some, if_pos hdue]

theorem isDue_iff {row : TriggerRow} : TriggerTables.isDue now row = true ↔
    row.enabled = true ∧ row.nextFireAt ≤ now ∧ TriggerTables.unleased now row = true := by
  rw [TriggerTables.isDue, Bool.and_eq_true, Bool.and_eq_true, decide_eq_true_iff, and_assoc]

/-- A row that is due loses no lease that has not expired. -/
theorem RowMoves.of_claim (row : TriggerRow) (hnow : now ∈ W'.readings)
    (hoccurrence : W'.occurrence = W.occurrence) :
    RowMoves (some owner) W W' row (if TriggerTables.isDue now row then
      TriggerTables.leaseTo owner (now + leaseMs) row else row) := by
  split_ifs with hdue
  · refine ⟨rfl, le_rfl, fun o hne ho ↦ absurd ho.symm hne, fun o hne ho ↦ Or.inr ⟨now, hnow, ?_⟩⟩
    obtain ⟨-, -, hfree⟩ := isDue_iff.mp hdue
    rw [TriggerTables.unleased, ho, Option.isNone_some, Bool.false_or] at hfree
    rintro e he
    rw [Option.mem_def.mp he] at hfree
    exact of_decide_eq_true hfree
  · exact .refl (by rw [hoccurrence])

/-- The managers after a claim, with the tick that was started. -/
def claimedBy (W : Schedulers) (tables : TriggerTables) (start : List Tick) (now : ℤ) : Schedulers :=
  { W with tables := tables, readings := W.readings ++ [now], ticks := W.ticks ++ start }

variable {tables : TriggerTables} {due : List IntervalTrigger} {start : List Tick}

/-- The rows that others hold do not move. -/
theorem claimedBy_moves (hclaims : TriggerTables.Claims now owner leaseMs W.tables (tables, due)) :
    Moves (some owner) W (W.claimedBy tables start now) where
  rows id row hrow := ⟨_, (hclaims.row id).trans (by rw [hrow, Option.map_some]),
    .of_claim row (List.mem_append_right _ (List.mem_singleton.mpr rfl)) rfl⟩
  readings r hr := List.mem_append_left _ hr
  completed key hkey := Or.inl hkey

/-- A claim changes nothing of a row but its lease. -/
theorem Sees.claimed {id : JsString} {p : TriggerRow → Prop} (h : Sees W.tables id p)
    (hclaims : TriggerTables.Claims now owner leaseMs W.tables (tables, due))
    (hstable : ∀ row row' : TriggerRow, row'.toTriggerDefinition = row.toTriggerDefinition →
      row'.nextFireAt = row.nextFireAt → row'.enabled = row.enabled → p row → p row') :
    Sees tables id p := by
  obtain ⟨row, hrow, hp⟩ := h
  refine ⟨_, (hclaims.row id).trans (by rw [hrow, Option.map_some]), hstable row _ ?_ ?_ ?_ hp⟩
  all_goals split_ifs <;> rfl

/-- What a new tick knows. -/
theorem claimedBy_tick (h : W.Inv)
    (hclaims : TriggerTables.Claims now owner leaseMs W.tables (tables, due)) :
    (W.claimedBy tables start now).TickOk { owner := owner, now := now, due := W.claimsOf due } := by
  refine ⟨?_, fun c hc ↦ ?_, fun c hc ↦ ?_, fun c hc ↦ ?_⟩
  · have hids : (W.claimsOf due).map (fun c ↦ c.trigger.id) = due.map (·.id) := by
      rw [claimsOf, List.map_map]
      rfl
    rw [hids]
    exact hclaims.nodup
  · obtain ⟨row, -, hdue, hrow', htrigger, hoccurrence⟩ := mem_claimsOf h.keyed hclaims hc
    obtain ⟨henabled, htime, -⟩ := isDue_iff.mp hdue
    refine ⟨_, hrow', ?_, ?_, fun _ ↦ ⟨?_, hoccurrence.symm, henabled⟩⟩
    · rw [htrigger]
      rfl
    · rw [htrigger]
      exact htime
    · rw [htrigger]
      rfl
  · obtain ⟨row, -, -, hrow', htrigger, -⟩ := mem_claimsOf h.keyed hclaims hc
    exact ⟨_, hrow', Or.inl ⟨rfl, by rw [htrigger]; rfl⟩⟩
  · obtain ⟨row, -, -, hrow', -, -⟩ := mem_claimsOf h.keyed hclaims (List.mem_of_mem_head? hc)
    exact ⟨_, hrow', trivial⟩

/-- What comes into use is the pending occurrence, at the time of the row. -/
theorem uses_claimedBy (h : W.Inv)
    (hclaims : TriggerTables.Claims now owner leaseMs W.tables (tables, due))
    (hstart : ∀ t ∈ start, t = { owner := owner, now := now, due := W.claimsOf due })
    {key : JsString × ℤ} {time : ℤ} (hused : (W.claimedBy tables start now).Uses key time) :
    W.Uses key time ∨ key.2 = W.occurrence key.1 ∧ Sees W.tables key.1 fun row ↦
      time = row.nextFireAt := by
  rcases hused with hstarted | ⟨t, ht, c, hc, hkey, htime⟩
  · exact Or.inl (Or.inl hstarted)
  · rcases List.mem_append.mp ht with ht | ht
    · exact Or.inl (Or.inr ⟨t, ht, c, hc, hkey, htime⟩)
    · rw [hstart t ht] at hc
      obtain ⟨row, hrow, -, -, htrigger, hoccurrence⟩ := mem_claimsOf h.keyed hclaims hc
      subst hkey htime
      exact Or.inr ⟨hoccurrence, row, hrow, congrArg (·.nextFireAt) htrigger⟩

/-- Two times of one occurrence are the same after a claim. -/
theorem oneTime_claimedBy (h : W.Inv)
    (hclaims : TriggerTables.Claims now owner leaseMs W.tables (tables, due))
    (hstart : ∀ t ∈ start, t = { owner := owner, now := now, due := W.claimsOf due })
    {key : JsString × ℤ} {time time' : ℤ} (hused : (W.claimedBy tables start now).Uses key time)
    (hused' : (W.claimedBy tables start now).Uses key time') : time = time' := by
  have hboth : (Sees W.tables key.1 fun row ↦ time = row.nextFireAt) →
      (Sees W.tables key.1 fun row ↦ time' = row.nextFireAt) → time = time' := by
    rintro ⟨row, hrow, htime⟩ hsees'
    exact htime.trans (hsees'.of_row? hrow).symm
  -- An occurrence that was in use and is pending has the time of the row.
  have hpending : ∀ time, W.Uses key time → key.2 = W.occurrence key.1 →
      Sees W.tables key.1 fun row ↦ time = row.nextFireAt := fun time hused heq ↦
    (h.uses key time hused).mono fun _ _ hrow ↦ hrow.2 heq
  rcases uses_claimedBy h hclaims hstart hused with hold | ⟨heq, hnow⟩ <;>
    rcases uses_claimedBy h hclaims hstart hused' with hold' | ⟨heq', hnow'⟩
  · exact h.oneTime key time time' hold hold'
  · exact hboth (hpending time hold heq') hnow'
  · exact hboth hnow (hpending time' hold' heq)
  · exact hboth hnow hnow'

theorem Inv.claimedBy (h : W.Inv) (hnone : W.tick? owner = none)
    (hclaims : TriggerTables.Claims now owner leaseMs W.tables (tables, due))
    (hstart : ∀ t ∈ start, t = { owner := owner, now := now, due := W.claimsOf due })
    (hone : start.length ≤ 1) : (W.claimedBy tables start now).Inv where
  keyed := hclaims.keyed
  owners := by
    show ((W.ticks ++ start).map Tick.owner).Nodup
    rw [List.map_append, List.nodup_append]
    refine ⟨h.owners, ?_, fun o ho o' ho' heq ↦ ?_⟩
    · rcases start with _ | ⟨t, _ | ⟨t', rest⟩⟩
      · exact List.nodup_nil
      · exact List.nodup_singleton _
      · exact absurd hone (by simp)
    · obtain ⟨t, ht, rfl⟩ := List.mem_map.mp ho
      obtain ⟨t', ht', rfl⟩ := List.mem_map.mp ho'
      rw [hstart t' ht'] at heq
      exact Table.lookup_eq_none_iff.mp hnone t ht heq
  rows id row hrow := by
    have hrow' := (hclaims.row id).symm.trans hrow
    rcases hold : W.tables.row? id with _ | r
    · rw [hold] at hrow'
      exact absurd hrow' nofun
    · rw [hold, Option.map_some] at hrow'
      have hok := h.rows id r hold
      split_ifs at hrow'
      all_goals exact Option.some.inj hrow' ▸ ⟨hok.valid, hok.behind, hok.bounded⟩
  ticks t ht := by
    rcases List.mem_append.mp ht with ht | ht
    · refine (h.ticks t ht).moves (claimedBy_moves hclaims) fun heq ↦ ?_
      exact Table.lookup_eq_none_iff.mp hnone t ht (Option.some.inj heq)
    · rw [hstart t ht]
      exact claimedBy_tick h hclaims
  uses key time hused := by
    rcases uses_claimedBy h hclaims hstart hused with hused | ⟨heq, hnow⟩
    · exact (h.uses key time hused).claimed hclaims fun _ _ _ htime _ hok ↦
        ⟨hok.1, fun heq ↦ (hok.2 heq).trans htime.symm⟩
    · exact (hnow.mono fun _ _ htime ↦ ⟨heq.le, fun _ ↦ htime⟩ : W.UseOk key time).claimed hclaims
        fun _ _ _ htime _ hok ↦ ⟨hok.1, fun heq ↦ (hok.2 heq).trans htime.symm⟩
  oneTime key time time' hused hused' := oneTime_claimedBy h hclaims hstart hused hused'
  started s hs := ⟨(h.started s hs).1, (h.started s hs).2.claimed hclaims
    fun _ _ hdefinition _ _ hp ↦ (congrArg (·.payload.principal) hdefinition).trans hp⟩
  once := h.once
  completed key hkey := by
    obtain ⟨hover, f, hf, hstatus⟩ := h.completed key hkey
    refine ⟨hover.claimed hclaims fun _ _ _ htime henabled hp ↦ ?_, f, hclaims.firing key f hf,
      hstatus⟩
    rw [htime, henabled]
    exact hp

theorem Inv.startTick (h : W.Inv) (hnone : W.tick? owner = none) : (W.startTick owner now).Inv := by
  have hclaims := TriggerTables.claimDue_claims now leaseMs owner h.keyed
  rw [Schedulers.startTick]
  generalize W.tables.claimDue now owner leaseMs = r at hclaims ⊢
  obtain ⟨tables, due⟩ := r
  refine h.claimedBy hnone hclaims (fun t ht ↦ ?_) ?_
  · split_ifs at ht
    · exact absurd ht List.not_mem_nil
    · exact List.mem_singleton.mp ht
  · split_ifs
    · exact Nat.zero_le 1
    · exact le_rfl

end Claim

/-! ## Configuring a trigger -/

theorem Inv.ensure (h : W.Inv) (trigger : IntervalTrigger) : (W.ensure H trigger).Inv := by
  rw [Schedulers.ensure]
  rcases hvalid : validateTrigger H trigger with e | ⟨⟨⟩⟩
  · exact h
  dsimp only
  split_ifs with hsome
  · exact h
  have hnone : W.tables.row? trigger.id = none := Option.not_isSome_iff_eq_none.mp hsome
  obtain ⟨hdefinition, htime⟩ := valid_of_validate hvalid
  have hrows := TriggerTables.row?_ensure hnone
  have hfirings : (W.tables.ensure trigger).firings = W.tables.firings := by
    rw [TriggerTables.ensure, if_neg hsome]
  have hne : ∀ {id : JsString} {row : TriggerRow}, W.tables.row? id = some row → id ≠ trigger.id :=
    fun hrow heq ↦ Option.some_ne_none _ (hrow.symm.trans (heq ▸ hnone))
  -- What is known of an earlier trigger stays.
  have hsees : ∀ {id : JsString} {p : TriggerRow → Prop}, Sees W.tables id p →
      id ≠ trigger.id ∧ Sees (W.tables.ensure trigger) id p := by
    rintro id p ⟨row, hrow, hp⟩
    exact ⟨hne hrow, row, by rw [hrows, if_neg (hne hrow), hrow], hp⟩
  have hoccurrence : ∀ {id : JsString}, id ≠ trigger.id →
      Function.update W.occurrence trigger.id trigger.nextFireAt id = W.occurrence id :=
    fun hid ↦ Function.update_of_ne hid _ _
  have hmoves : Moves none W { W with
      tables := W.tables.ensure trigger
      occurrence := Function.update W.occurrence trigger.id trigger.nextFireAt } :=
    .of_same (fun id row hrow ↦ ⟨by rw [hrows, if_neg (hne hrow), hrow], hoccurrence (hne hrow)⟩)
      (fun _ hr ↦ hr) fun _ hkey ↦ hkey
  exact
    { keyed := by
        have hkeys : ((W.tables.triggers ++ [TriggerTables.newRow trigger]).map
            TriggerRow.key).Nodup :=
          Table.nodup_append_fresh h.keyed fun r hr heq ↦
            Table.lookup_eq_none_iff.mp hnone r hr heq
        rw [TriggerTables.ensure, if_neg hsome]
        exact hkeys
      owners := h.owners
      rows := fun id row hrow ↦ by
        rw [hrows] at hrow
        split_ifs at hrow with hid
        · obtain rfl := Option.some.inj hrow
          have hself : Function.update W.occurrence trigger.id trigger.nextFireAt trigger.id =
            trigger.nextFireAt := Function.update_self _ _ _
          exact ⟨hdefinition, hself.le, fun _ _ ↦ hself.le.trans htime⟩
        · have hok := h.rows id row hrow
          have hrowid : row.id ≠ trigger.id := (TriggerTables.id_of_row? hrow).symm ▸ hid
          exact ⟨hok.valid, (hoccurrence hrowid).le.trans hok.behind,
            fun hone hon ↦ (hoccurrence hrowid).le.trans (hok.bounded hone hon)⟩
      ticks := fun t ht ↦ (h.ticks t ht).moves hmoves (Option.some_ne_none _)
      uses := fun key time hused ↦ by
        obtain ⟨hid, hsees'⟩ := hsees (h.uses key time hused)
        refine hsees'.mono fun row _ hok ↦ ?_
        show key.2 ≤ Function.update W.occurrence trigger.id trigger.nextFireAt key.1 ∧
          (key.2 = Function.update W.occurrence trigger.id trigger.nextFireAt key.1 →
            time = row.nextFireAt)
        rw [hoccurrence hid]
        exact hok
      oneTime := h.oneTime
      started := fun s hs ↦ ⟨(h.started s hs).1, (hsees (h.started s hs).2).2⟩
      once := h.once
      completed := fun key hkey ↦ by
        obtain ⟨hover, f, hf, hstatus⟩ := h.completed key hkey
        refine ⟨(hsees hover).2, f, ?_, hstatus⟩
        rw [TriggerTables.firing?, hfirings]
        exact hf }

/-! ## Runs of the managers -/

/-- **A step keeps the invariant** where it is orderly. -/
theorem Inv.step (h : W.Inv) (a : SchedulerAction) (ha : W.Orderly a) : (W.step P H a).Inv := by
  rcases a with trigger | ⟨owner, now, outcome⟩ | ⟨owner, e⟩ | op
  · exact h.ensure trigger
  · rcases htick : W.tick? owner with _ | t <;> rcases outcome <;>
      simp only [Schedulers.step, htick]
    · exact h.startTick htick
    all_goals exact h
  · rw [Schedulers.step]
    rcases htick : W.tick? owner with _ | t
    · exact h
    · dsimp only
      split
      · exact h
      · rename_i c due hdue
        refine h.advance (Table.mem_of_lookup htick) hdue e fun hsucceeds ↦ ?_
        exact ha hsucceeds t htick c (by rw [hdue]; rfl)
  · refine { h with
      started := fun s hs ↦ ⟨Store.taken_apply op (h.started s hs).1, (h.started s hs).2⟩
      rows := fun id row hrow ↦ ⟨(h.rows id row hrow).1, (h.rows id row hrow).2,
        (h.rows id row hrow).3⟩
      ticks := fun t ht ↦ (h.ticks t ht).of_shared rfl rfl rfl rfl }

theorem Inv.run (h : W.Inv) {actions : List SchedulerAction}
    (hactions : Throughout (Schedulers.step P H) Orderly W actions) : (W.run P H actions).Inv :=
  Throughout.induction (fun _ a hinv ha ↦ hinv.step a ha) h hactions

/-! ## What follows -/

/-- Of two claims, the row names the owner of one at most. -/
theorem Inv.claimedByOne (h : W.Inv) : W.ClaimedByOne := by
  rintro t ht t' ht' hne c hc c' hc' hid now hnow ⟨⟨e, he, hlt⟩, e', he', hlt'⟩
  have hexpired : ∀ {expiry : Option ℤ} {e : ℤ}, W.Expired expiry → e ∈ expiry → now < e → False :=
    fun ⟨r, hr, hle⟩ he hlt ↦ absurd (hle _ he) (not_le.mpr ((hnow r hr).trans_lt hlt))
  obtain ⟨row, hrow, hheld⟩ := (h.ticks t ht).kept c hc
  have hheld' := ((h.ticks t' ht').kept c' hc').of_row? (hid ▸ hrow)
  rcases hheld with ⟨howner, -⟩ | hover
  · rcases hheld' with ⟨howner', -⟩ | hover'
    · exact hne (Option.some.inj (howner.symm.trans howner'))
    · exact hexpired hover' he' hlt'
  · exact hexpired hover he hlt

theorem tables_nextTrigger (t : Tick) : (W.nextTrigger t).tables = W.tables ∧
    (W.nextTrigger t).completed = W.completed := by
  rw [nextTrigger]
  split <;> exact ⟨rfl, rfl⟩

/-- Without the lease of its trigger a tick changes no row, in any state. -/
theorem Inv.fenced (h : W.Inv) : W.Fenced P H := by
  intro t ht c hc hheld hlost e
  obtain ⟨due, hdue⟩ : ∃ due, t.due = c :: due := by
    rcases hlist : t.due with _ | ⟨c', due⟩
    · rw [hlist] at hc
      exact absurd hc nofun
    · rw [hlist] at hc
      exact ⟨due, by rw [Option.some.inj hc]⟩
  have hany : W.tables.triggers.any (TriggerTables.leasedBy c.trigger.id t.owner) ≠ true := by
    rw [Ne, TriggerTables.any_leasedBy h.keyed]
    rintro ⟨row, hrow, howner⟩
    exact hlost row hrow howner
  rw [Schedulers.advance]
  rcases hout : e.outcome <;> dsimp only
  · rw [Schedulers.perform]
    rcases hstage : t.stage with _ | _ | ⟨read, next⟩ | errorCode | ⟨scheduledAt, errorCode⟩ |
      ⟨scheduledAt, errorCode⟩ <;> dsimp only
    · rw [Schedulers.createRun]
      split <;> exact ⟨rfl, rfl⟩
    · split
      · exact ⟨rfl, rfl⟩
      · exact tables_nextTrigger t
      · exact ⟨rfl, rfl⟩
    · obtain ⟨row, -, hok⟩ := (h.ticks t ht).stage c hc
      rw [StageOk, hstage] at hok
      rw [Schedulers.complete, TriggerTables.completeUpdate, if_neg (hok.1 ▸ hany)]
      exact tables_nextTrigger t
    · split
      · exact tables_nextTrigger t
      · exact ⟨rfl, rfl⟩
    · rw [Schedulers.fail, TriggerTables.failUpdate, if_neg hany]
      exact tables_nextTrigger t
    · -- The tick gave the lease back itself.
      rw [held, hstage, hdue] at hheld
      have hnodup := (h.ticks t ht).nodup
      rw [hdue, List.map_cons, List.nodup_cons] at hnodup
      exact absurd (List.mem_map_of_mem hheld) hnodup.1
  · rw [Schedulers.throws]
    split <;> exact ⟨rfl, rfl⟩
  · exact ⟨rfl, rfl⟩

instance (t : Tick) (c : Claimed) : Decidable (W.Holds t c) :=
  inferInstanceAs (Decidable (∃ row ∈ W.tables.row? c.trigger.id, row.leaseOwner = some t.owner))

instance (t : Tick) (c : Claimed) : Decidable (W.Matches t c) :=
  inferInstanceAs (Decidable (_ ∧ ∃ f ∈ W.tables.firing? c.key, f.owner = t.owner))

instance (c : Claimed) : Decidable (W.Unstarted c) :=
  inferInstanceAs (Decidable ((∀ s ∈ W.started, s.key ≠ c.key) ∧
    ∀ t ∈ W.ticks, ∀ c' ∈ startable t, c'.key ≠ c.key))

instance (t : Tick) (c : Claimed) : Decidable (W.OrderlyAt t c) :=
  match h : t.stage with
  | .completing _ _ => decidable_of_iff (W.Holds t c → W.Matches t c) (by rw [OrderlyAt, h])
  | .failing _ _ => decidable_of_iff (W.Holds t c → W.Unstarted c) (by rw [OrderlyAt, h])
  | .creating | .completeQuery | .failQuery _ | .recording _ _ =>
    decidable_of_iff True (by rw [OrderlyAt, h])

instance (a : SchedulerAction) : Decidable (W.Orderly a) :=
  match a with
  | .next owner e => inferInstanceAs (Decidable (e.outcome = .succeeds →
      ∀ t ∈ W.tick? owner, ∀ c ∈ t.due.head?, W.OrderlyAt t c))
  | .ensure _ => inferInstanceAs (Decidable True)
  | .tick _ _ _ => inferInstanceAs (Decidable True)
  | .other _ => inferInstanceAs (Decidable True)

/-- **Occurrences fire once**: in every run whose steps are orderly, whatever fails, whenever a
process dies and whatever the clocks read, each occurrence starts at most one run, each trigger is
held by one owner, an owner that was taken over changes nothing, and what was completed is recorded. -/
theorem occurrences_once (actions : List SchedulerAction)
    (hactions : Throughout (step P H) Orderly {} actions) :
    (Schedulers.run P H {} actions).FiresOnce P H := by
  have h : (Schedulers.run P H {} actions).Inv := inv_init.run hactions
  exact ⟨h.once, h.claimedByOne, h.fenced, fun key hkey ↦ (h.completed key hkey).2⟩

/-! ## One trigger -/

/-- A host where every zone is the first hour of the epoch. -/
def plainHost : ScheduleHost where
  knows _ := true
  zonedParts _ _ := .ok ⟨1970, 1, 1, 0, 0⟩
  digestWord _ := 0

/-- A trigger of every minute. -/
def minuteTrigger : IntervalTrigger where
  id := js "minute"
  intervalMs := 60000
  payload := ⟨js "minute", js "coder", js "ops", none, js "look", ⟨js "app", js "local", js "cron"⟩⟩
  nextFireAt := 0

/-- The trigger is claimed and its run is started. -/
def firing : List SchedulerAction :=
  [.ensure minuteTrigger, .tick (js "a") 0 .succeeds,
    .next (js "a") { runId := js "run_1" }, .next (js "a") {}]

theorem occurrences_once_firing :
    (Schedulers.run referencePlatform plainHost {} (firing ++ [.next (js "a") {}])).FiresOnce
      referencePlatform plainHost :=
  occurrences_once _ (by decide +kernel)

/-- The transaction of `complete` fails, the failure is recorded, and the next tick starts the run of
the occurrence again, under another key. -/
theorem not_firesOnce_failed :
    ¬(Schedulers.run referencePlatform plainHost {} (firing ++
      [.next (js "a") { outcome := .fails }, .next (js "a") {}, .next (js "a") {},
        .next (js "a") {}, .tick (js "a") 30000 .succeeds,
        .next (js "a") { runId := js "run_2", fresh := ⟨js "1", js "2", js "3"⟩ }])).FiresOnce
      referencePlatform plainHost :=
  fun h ↦ absurd h.once (by decide +kernel)

end LiteHarness.Automation.Schedulers
