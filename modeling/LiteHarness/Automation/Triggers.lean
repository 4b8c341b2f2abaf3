import LiteHarness.Automation.Calendar
import LiteHarness.Foundation.Checks
import LiteHarness.Foundation.Table
import LiteHarness.Domain.Records
import LiteHarness.Platform.Runtime

/-!
# The store of triggers

`SqliteTriggerStore` keeps one row for each trigger, with the time of its next occurrence and a
lease, and one row for each time at which a trigger was claimed. `claimDue` is one transaction;
`complete` reads its row before its transaction, and `fail` is a query and two updates of their own.
-/

namespace LiteHarness.Automation

open Foundation

/-! ## Triggers -/

/-- `ConfiguredSchedule`, the payload of a trigger. -/
structure ConfiguredSchedule where
  id : JsString
  agent : JsString
  workspace : JsString
  session : Option JsString
  input : JsString
  principal : ResourceOwner
  deriving DecidableEq

/-- `missedRunPolicy`. -/
inductive MissedRunPolicy where
  | skip
  | catchUp
  deriving DecidableEq

/-- What a trigger is defined by. -/
structure TriggerDefinition where
  id : JsString
  intervalMs : ℤ
  payload : ConfiguredSchedule
  oneShot : Bool := false
  jitterMs : ℤ := 0
  missedRunPolicy : MissedRunPolicy := .skip
  timeZone : Option JsString := none
  localTime : Option JsString := none
  deriving DecidableEq

/-- `IntervalTrigger`. -/
structure IntervalTrigger extends TriggerDefinition where
  nextFireAt : ℤ
  leaseOwner : Option JsString := none
  leaseExpiresAt : Option ℤ := none
  deriving DecidableEq

/-- A row of `triggers`. -/
structure TriggerRow extends IntervalTrigger where
  enabled : Bool := true
  lastFiredAt : Option ℤ := none
  lastErrorCode : Option JsString := none
  deriving DecidableEq

/-- The primary key of a trigger. -/
def TriggerRow.key (row : TriggerRow) : JsString := row.id

/-- The status of a firing. -/
inductive FiringStatus where
  | claimed
  | completed
  | failed
  deriving DecidableEq

/-- A row of `trigger_firings`. -/
structure TriggerFiring where
  triggerId : JsString
  scheduledAt : ℤ
  owner : JsString
  status : FiringStatus
  completedAt : Option ℤ := none
  errorCode : Option JsString := none
  deriving DecidableEq

/-- The primary key of a firing. -/
def TriggerFiring.key (f : TriggerFiring) : JsString × ℤ := (f.triggerId, f.scheduledAt)

/-- The database of the store. -/
structure TriggerTables where
  triggers : List TriggerRow := []
  firings : List TriggerFiring := []

/-- `Number.MAX_SAFE_INTEGER`. -/
def maxSafeInteger : ℤ := 9007199254740991

/-- What the store takes from the host. -/
structure ScheduleHost extends ZoneHost where
  /-- The first four bytes of the SHA-256 digest, as a number. -/
  digestWord : JsString → ℕ

variable (H : ScheduleHost)

/-! ## Checks and times -/

/-- `validateTrigger`. -/
def validateTrigger (trigger : IntervalTrigger) : Except JsError Unit := do
  (if trigger.oneShot = false ∧ trigger.intervalMs < 1000 then
    .error (.new (js "Trigger interval must be at least one second")) else .ok ())
  (if trigger.oneShot = true ∧ trigger.intervalMs < 0 then
    .error (.new (js "One-shot trigger interval cannot be negative")) else .ok ())
  (if maxSafeInteger < trigger.nextFireAt ∨ trigger.nextFireAt < 0 then
    .error (.new (js "Trigger nextFireAt is invalid")) else .ok ())
  (if trigger.jitterMs < 0 ∨ max trigger.intervalMs dayMs < trigger.jitterMs then
    .error (.new (js "Trigger jitter is invalid")) else .ok ())
  (if trigger.timeZone.isNone ≠ trigger.localTime.isNone then
    .error (.new (js "Trigger timeZone and localTime must be configured together")) else .ok ())
  (match truthy trigger.timeZone, truthy trigger.localTime with
  | some timeZone, some localTime => do
    (if localTime? localTime = none then
      .error (.new (js "Trigger localTime must be HH:mm")) else .ok ())
    (if H.knows timeZone = false then .error (.new (js "Trigger timeZone is invalid")) else .ok ())
  | _, _ => .ok ())

/-- `nextOccurrence`. -/
def nextOccurrence (trigger : IntervalTrigger) (firedAt : ℤ) : Except ScheduleError ℤ :=
  match truthy trigger.timeZone, truthy trigger.localTime with
  | some timeZone, some localTime =>
    let after := if trigger.missedRunPolicy = .catchUp then trigger.nextFireAt else firedAt
    nextDailyOccurrence H.toZoneHost timeZone localTime after
  | _, _ =>
    if trigger.missedRunPolicy = .catchUp then .ok (trigger.nextFireAt + trigger.intervalMs)
    else
      let missed := max 1 ((firedAt - trigger.nextFireAt) / trigger.intervalMs + 1)
      let base := trigger.nextFireAt + missed * trigger.intervalMs
      if trigger.jitterMs = 0 then .ok base
      else
        let value := H.digestWord (trigger.id ++ 58 :: intLiteral base)
        .ok (base + value % (trigger.jitterMs + 1))

/-! ## The times of a trigger -/

variable {H}

/-- What `validateTrigger` makes sure of. -/
structure TriggerDefinition.Valid (d : TriggerDefinition) : Prop where
  interval : d.oneShot = false → 1000 ≤ d.intervalMs
  jitter : 0 ≤ d.jitterMs

theorem valid_of_validate {trigger : IntervalTrigger} (h : validateTrigger H trigger = .ok ()) :
    trigger.Valid ∧ trigger.nextFireAt ≤ maxSafeInteger := by
  obtain ⟨_, hinterval, h₁⟩ := except_bind_eq_ok_iff.mp h
  obtain ⟨_, -, h₂⟩ := except_bind_eq_ok_iff.mp h₁
  obtain ⟨_, htime, h₃⟩ := except_bind_eq_ok_iff.mp h₂
  obtain ⟨_, hjitter, -⟩ := except_bind_eq_ok_iff.mp h₃
  have hinterval' := check_eq_ok_iff.mp hinterval
  have htime' := check_eq_ok_iff.mp htime
  have hjitter' := check_eq_ok_iff.mp hjitter
  refine ⟨⟨fun hshot ↦ ?_, ?_⟩, ?_⟩
  · exact not_lt.mp fun hlt ↦ hinterval' ⟨hshot, hlt⟩
  · exact not_lt.mp fun hlt ↦ hjitter' (Or.inl hlt)
  · exact not_lt.mp fun hlt ↦ htime' (Or.inl hlt)

/-- **The next occurrence of a trigger that is due comes later.** -/
theorem nextOccurrence_gt {trigger : IntervalTrigger} {firedAt next : ℤ} (hvalid : trigger.Valid)
    (hshot : trigger.oneShot = false) (hdue : trigger.nextFireAt ≤ firedAt)
    (h : nextOccurrence H trigger firedAt = .ok next) : trigger.nextFireAt < next := by
  have hinterval := hvalid.interval hshot
  rw [nextOccurrence] at h
  split at h
  · have hafter := nextDailyOccurrence_gt h
    split_ifs at hafter
    · exact hafter
    · exact hdue.trans_lt hafter
  · split_ifs at h with hpolicy hjitter
    · rw [← Except.ok.inj h]
      omega
    all_goals
      have hmissed : trigger.intervalMs ≤
          max 1 ((firedAt - trigger.nextFireAt) / trigger.intervalMs + 1) * trigger.intervalMs :=
        le_mul_of_one_le_left (by omega) (le_max_left _ _)
    · rw [← Except.ok.inj h]
      omega
    · rw [← Except.ok.inj h]
      have hvalue := Int.emod_nonneg
        (H.digestWord (trigger.id ++ 58 :: intLiteral (trigger.nextFireAt +
          max 1 ((firedAt - trigger.nextFireAt) / trigger.intervalMs + 1) * trigger.intervalMs)) : ℤ)
        (show trigger.jitterMs + 1 ≠ 0 by have := hvalid.jitter; omega)
      omega

variable (H)

/-! ## The store -/

/-- `toTrigger`. -/
def toTrigger (row : TriggerRow) : IntervalTrigger := row.toIntervalTrigger

namespace TriggerTables

variable (T : TriggerTables)

/-- The row of a trigger. -/
def row? (id : JsString) : Option TriggerRow := Table.lookup TriggerRow.key id T.triggers

/-- The record of a time at which a trigger was claimed. -/
def firing? (key : JsString × ℤ) : Option TriggerFiring :=
  Table.lookup TriggerFiring.key key T.firings

/-- The row that is inserted for a trigger. -/
def newRow (trigger : IntervalTrigger) : TriggerRow :=
  ⟨⟨trigger.toTriggerDefinition, trigger.nextFireAt, none, none⟩, true, none, none⟩

/-- `ensure`, once the trigger is valid. -/
def ensure (trigger : IntervalTrigger) : TriggerTables :=
  if (T.row? trigger.id).isSome then T else { T with triggers := T.triggers ++ [newRow trigger] }

/-- `lease_owner IS NULL OR lease_expires_at <= now`. -/
def unleased (now : ℤ) (row : TriggerRow) : Bool :=
  row.leaseOwner.isNone || row.leaseExpiresAt.any fun expiry ↦ expiry ≤ now

/-- The condition of the query of `claimDue`. -/
def isDue (now : ℤ) (row : TriggerRow) : Bool :=
  row.enabled && row.nextFireAt ≤ now && unleased now row

/-- The row with the lease of a claim. -/
def leaseTo (owner : JsString) (expiry : ℤ) (row : TriggerRow) : TriggerRow :=
  { row with leaseOwner := some owner, leaseExpiresAt := some expiry }

/-- `INSERT OR IGNORE INTO trigger_firings`. -/
def insertFiring (firing : TriggerFiring) : List TriggerFiring :=
  Table.upsert TriggerFiring.key firing id T.firings

/-- The body of the loop of `claimDue`. -/
def claimRow (now : ℤ) (owner : JsString) (leaseMs : ℤ)
    (s : TriggerTables × List IntervalTrigger) (row : TriggerRow) :
    TriggerTables × List IntervalTrigger :=
  let picked := fun r : TriggerRow ↦ decide (r.id = row.id) && unleased now r
  if s.1.triggers.any picked then
    ({ triggers := Table.update picked (leaseTo owner (now + leaseMs)) s.1.triggers
       firings := s.1.insertFiring ⟨row.id, row.nextFireAt, owner, .claimed, none, none⟩ },
      s.2 ++ [toTrigger (leaseTo owner (now + leaseMs) row)])
  else s

/-- `claimDue`. -/
def claimDue (now : ℤ) (owner : JsString) (leaseMs : ℤ) : TriggerTables × List IntervalTrigger :=
  let rows := (T.triggers.filter (isDue now)).mergeSort fun r r' ↦ r.nextFireAt ≤ r'.nextFireAt
  rows.foldl (claimRow now owner leaseMs) (T, [])

/-- `id = ? AND lease_owner = ?`. -/
def leasedBy (id owner : JsString) (row : TriggerRow) : Bool :=
  row.id = id && row.leaseOwner = some owner

/-- The query of `complete`, with the time of the next occurrence. -/
def completeQuery (id owner : JsString) (firedAt : ℤ) :
    Except ScheduleError (Option (TriggerRow × ℤ)) :=
  match T.triggers.find? (leasedBy id owner) with
  | none => .ok none
  | some row =>
    if row.oneShot then .ok (some (row, maxSafeInteger))
    else (nextOccurrence H (toTrigger row) firedAt).map fun next ↦ some (row, next)

/-- A row after `complete`. -/
def completedRow (next firedAt : ℤ) (oneShot : Bool) (row : TriggerRow) : TriggerRow :=
  { row with
    nextFireAt := next, enabled := !oneShot, leaseOwner := none, leaseExpiresAt := none
    lastFiredAt := some firedAt, lastErrorCode := none }

/-- `trigger_id=? AND scheduled_at=? AND owner=?`. -/
def firedBy (key : JsString × ℤ) (owner : JsString) (firing : TriggerFiring) : Bool :=
  firing.key = key && firing.owner = owner

/-- A record after `complete`. -/
def completedFiring (firedAt : ℤ) (firing : TriggerFiring) : TriggerFiring :=
  { firing with status := .completed, completedAt := some firedAt }

/-- A record after `fail`. -/
def failedFiring (now : ℤ) (errorCode : JsString) (firing : TriggerFiring) : TriggerFiring :=
  { firing with status := .failed, completedAt := some now, errorCode := some errorCode }

/-- The transaction of `complete`: whether it changed a row. -/
def completeUpdate (row : TriggerRow) (next : ℤ) (owner : JsString) (firedAt : ℤ) :
    TriggerTables × Bool :=
  if T.triggers.any (leasedBy row.id owner) then
    ({ triggers :=
        Table.update (leasedBy row.id owner) (completedRow next firedAt row.oneShot) T.triggers
       firings := Table.update (firedBy (row.id, row.nextFireAt) owner)
        (completedFiring firedAt) T.firings }, true)
  else (T, false)

/-- The query of `fail`. -/
def failQuery (id owner : JsString) : Option ℤ :=
  (T.triggers.find? (leasedBy id owner)).map (·.nextFireAt)

/-- A row after `fail`. -/
def failedRow (retryAt : ℤ) (errorCode : JsString) (row : TriggerRow) : TriggerRow :=
  { row with
    nextFireAt := retryAt, leaseOwner := none, leaseExpiresAt := none
    lastErrorCode := some errorCode }

/-- The first update of `fail`: whether it changed a row. -/
def failUpdate (id owner : JsString) (retryAt : ℤ) (errorCode : JsString) : TriggerTables × Bool :=
  if T.triggers.any (leasedBy id owner) then
    ({ T with triggers := Table.update (leasedBy id owner) (failedRow retryAt errorCode) T.triggers },
      true)
  else (T, false)

/-- The second update of `fail`. -/
def failRecord (key : JsString × ℤ) (owner : JsString) (now : ℤ) (errorCode : JsString) :
    TriggerTables :=
  { T with
    firings := Table.update (firedBy key owner) (failedFiring now errorCode) T.firings }

/-! ## What a query sees afterwards -/

variable {T}

/-- The identifiers of the rows are unique. -/
def Keyed (T : TriggerTables) : Prop := (T.triggers.map TriggerRow.key).Nodup

theorem Keyed.row?_of_mem (h : T.Keyed) {row : TriggerRow} (hrow : row ∈ T.triggers) :
    T.row? row.id = some row := Table.lookup_of_mem h hrow

theorem mem_of_row? {id : JsString} {row : TriggerRow} (h : T.row? id = some row) :
    row ∈ T.triggers := Table.mem_of_lookup h

theorem id_of_row? {id : JsString} {row : TriggerRow} (h : T.row? id = some row) : row.id = id :=
  show row.key = id from Table.key_of_lookup h

/-- The query by identifier and owner is the query by identifier with a check of the owner. -/
theorem find?_leasedBy (h : T.Keyed) (id owner : JsString) :
    T.triggers.find? (leasedBy id owner) =
      (T.row? id).filter fun row ↦ decide (row.leaseOwner = some owner) := by
  rcases hfound : T.triggers.find? (leasedBy id owner) with _ | row
  · rcases hrow : T.row? id with _ | row
    · rfl
    · have hnot := List.find?_eq_none.mp hfound row (mem_of_row? hrow)
      rw [leasedBy, id_of_row? hrow, decide_eq_true rfl, Bool.true_and] at hnot
      rw [Option.filter_some, if_neg hnot]
  · have htest := List.find?_some hfound
    rw [leasedBy, Bool.and_eq_true, decide_eq_true_iff] at htest
    rw [← htest.1, h.row?_of_mem (List.mem_of_find?_eq_some hfound), Option.filter_some,
      if_pos htest.2]

theorem any_leasedBy (h : T.Keyed) (id owner : JsString) :
    T.triggers.any (leasedBy id owner) = true ↔
      ∃ row, T.row? id = some row ∧ row.leaseOwner = some owner := by
  rw [List.any_eq_true]
  constructor
  · rintro ⟨row, hrow, htest⟩
    rw [leasedBy, Bool.and_eq_true, decide_eq_true_iff, decide_eq_true_iff] at htest
    exact ⟨row, htest.1 ▸ h.row?_of_mem hrow, htest.2⟩
  · rintro ⟨row, hrow, howner⟩
    refine ⟨row, mem_of_row? hrow, ?_⟩
    rw [leasedBy, id_of_row? hrow, howner, decide_eq_true rfl, decide_eq_true rfl]
    rfl

theorem keyed_update {p : TriggerRow → Bool} {f : TriggerRow → TriggerRow}
    (hf : ∀ r, (f r).key = r.key) (h : T.Keyed) {firings : List TriggerFiring} :
    Keyed ⟨Table.update p f T.triggers, firings⟩ := by
  rw [Keyed, Table.map_update hf]
  exact h

theorem row?_update {p : TriggerRow → Bool} {f : TriggerRow → TriggerRow}
    (hf : ∀ r, (f r).key = r.key) (id : JsString) {firings : List TriggerFiring} :
    row? ⟨Table.update p f T.triggers, firings⟩ id =
      (T.row? id).map fun r ↦ if p r then f r else r :=
  Table.lookup_update hf id T.triggers

/-- The rows once a trigger is there that was not. -/
theorem row?_ensure {trigger : IntervalTrigger} (hnone : T.row? trigger.id = none)
    (id : JsString) : (T.ensure trigger).row? id =
      if id = trigger.id then some (newRow trigger) else T.row? id := by
  have hsome : ¬(T.row? trigger.id).isSome = true := by simp [hnone]
  have hkey : (newRow trigger).key = trigger.id := rfl
  rw [ensure, if_neg hsome]
  refine (Table.lookup_append TriggerRow.key id T.triggers _).trans ?_
  rw [Table.lookup_singleton, hkey]
  by_cases hid : id = trigger.id
  · subst hid
    rw [if_pos rfl, if_pos rfl, show Table.lookup TriggerRow.key trigger.id T.triggers = none
      from hnone, Option.none_or]
  · rw [if_neg hid, if_neg (Ne.symm hid), Option.or_none]
    rfl

/-- An update of the row of a lease, as a query sees it. -/
theorem leasedBy_map {id owner : JsString} {current : TriggerRow} {f : TriggerRow → TriggerRow}
    (hcurrent : T.row? id = some current) (howner : current.leaseOwner = some owner)
    (id' : JsString) :
    (T.row? id').map (fun r ↦ if leasedBy id owner r then f r else r) =
      if id' = id then some (f current) else T.row? id' := by
  by_cases hid : id' = id
  · rw [hid, hcurrent, Option.map_some, if_pos rfl, if_pos]
    rw [leasedBy, id_of_row? hcurrent, howner, decide_eq_true rfl, decide_eq_true rfl]
    rfl
  · rw [if_neg hid]
    rcases hrow : T.row? id' with _ | r
    · rfl
    · rw [Option.map_some, if_neg]
      rw [leasedBy, id_of_row? hrow, decide_eq_false hid]
      exact Bool.false_ne_true

/-- A record stays when another is inserted. -/
theorem firing?_insert {key : JsString × ℤ} {firing f : TriggerFiring} {triggers : List TriggerRow}
    (h : T.firing? key = some f) : firing? ⟨triggers, T.insertFiring firing⟩ key = some f := by
  have hkey : ∀ r : TriggerFiring, (id r).key = r.key := fun _ ↦ rfl
  refine (Table.lookup_upsert hkey key T.firings).trans ?_
  split_ifs
  · rw [show Table.lookup TriggerFiring.key key T.firings = some f from h]
    rfl
  · exact h

/-- **What `claimDue` does**: the rows that are due get the lease and are returned with it. -/
structure Claims (now : ℤ) (owner : JsString) (leaseMs : ℤ) (T : TriggerTables)
    (r : TriggerTables × List IntervalTrigger) : Prop where
  keyed : r.1.Keyed
  row : ∀ id, r.1.row? id = (T.row? id).map fun row ↦
    if isDue now row then leaseTo owner (now + leaseMs) row else row
  firing : ∀ key f, T.firing? key = some f → r.1.firing? key = some f
  claimed : ∀ trigger ∈ r.2, ∃ row ∈ T.triggers, isDue now row = true ∧
    trigger = toTrigger (leaseTo owner (now + leaseMs) row)
  nodup : (r.2.map (·.id)).Nodup

variable (now leaseMs : ℤ) (owner : JsString)

/-- One turn of the loop, at a row that has not changed. -/
theorem claimRow_eq {s : TriggerTables × List IntervalTrigger} {row : TriggerRow}
    (hrow : s.1.row? row.id = some row) (hfree : unleased now row = true) :
    claimRow now owner leaseMs s row =
      (⟨Table.update (fun r ↦ decide (r.id = row.id) && unleased now r)
          (leaseTo owner (now + leaseMs)) s.1.triggers,
        s.1.insertFiring ⟨row.id, row.nextFireAt, owner, .claimed, none, none⟩⟩,
      s.2 ++ [toTrigger (leaseTo owner (now + leaseMs) row)]) := by
  rw [claimRow, if_pos]
  refine List.any_eq_true.mpr ⟨row, mem_of_row? hrow, ?_⟩
  rw [hfree, decide_eq_true rfl]
  rfl

/-- The loop over rows that have not changed. -/
theorem foldl_claimRow {rows : List TriggerRow} {s : TriggerTables × List IntervalTrigger}
    (hs : s.1.Keyed) (hrows : ∀ r ∈ rows, s.1.row? r.id = some r ∧ unleased now r = true)
    (hnodup : (rows.map TriggerRow.key).Nodup) :
    let s' := rows.foldl (claimRow now owner leaseMs) s
    s'.1.Keyed ∧ s'.2 = s.2 ++ rows.map (toTrigger ∘ leaseTo owner (now + leaseMs)) ∧
      (∀ r ∈ rows, s'.1.row? r.id = some (leaseTo owner (now + leaseMs) r)) ∧
      (∀ id, (∀ r ∈ rows, r.id ≠ id) → s'.1.row? id = s.1.row? id) ∧
      ∀ key f, s.1.firing? key = some f → s'.1.firing? key = some f := by
  induction rows generalizing s with
  | nil => exact ⟨hs, (List.append_nil _).symm, fun _ h ↦ absurd h List.not_mem_nil,
      fun _ _ ↦ rfl, fun _ _ h ↦ h⟩
  | cons row rows ih =>
    obtain ⟨hrow, hfree⟩ := hrows row List.mem_cons_self
    obtain ⟨hnot, hnodup'⟩ := List.nodup_cons.mp hnodup
    have hid : ∀ r, (leaseTo owner (now + leaseMs) r).key = r.key := fun _ ↦ rfl
    have hne : ∀ r ∈ rows, r.id ≠ row.id := fun r hr heq ↦
      hnot (List.mem_map.mpr ⟨r, hr, heq⟩)
    -- The turn for `row` leaves the rows that come after it as they are.
    have hother : ∀ id, row.id ≠ id →
        (claimRow now owner leaseMs s row).1.row? id = s.1.row? id := by
      intro id hidne
      rw [claimRow_eq now leaseMs owner hrow hfree, row?_update hid]
      rcases hfound : s.1.row? id with _ | r
      · rfl
      · rw [Option.map_some, if_neg]
        rw [id_of_row? hfound, decide_eq_false hidne.symm]
        exact Bool.false_ne_true
    have hkeyed : (claimRow now owner leaseMs s row).1.Keyed := by
      rw [claimRow_eq now leaseMs owner hrow hfree]
      exact keyed_update hid hs
    obtain ⟨hkeyed', hclaimed, hdone, hsame, hfiring⟩ := ih hkeyed
      (fun r hr ↦ ⟨(hother r.id (hne r hr).symm).trans (hrows r (List.mem_cons_of_mem _ hr)).1,
        (hrows r (List.mem_cons_of_mem _ hr)).2⟩) hnodup'
    refine ⟨hkeyed', ?_, fun r hr ↦ ?_, fun id hid' ↦ ?_, fun key f hf ↦ hfiring key f ?_⟩
    · rw [List.foldl_cons, hclaimed, claimRow_eq now leaseMs owner hrow hfree, List.append_assoc]
      rfl
    · rw [List.foldl_cons]
      rcases List.mem_cons.mp hr with rfl | hr
      · rw [hsame r.id hne, claimRow_eq now leaseMs owner hrow hfree, row?_update hid, hrow, Option.map_some, hfree,
          decide_eq_true rfl]
        rfl
      · exact hdone r hr
    · rw [List.foldl_cons, hsame id fun r hr ↦ hid' r (List.mem_cons_of_mem _ hr),
        hother id (hid' row List.mem_cons_self)]
    · rw [claimRow_eq now leaseMs owner hrow hfree]
      exact firing?_insert hf

theorem claimDue_claims (h : T.Keyed) : Claims now owner leaseMs T (T.claimDue now owner leaseMs) := by
  have hmem : ∀ r, r ∈ (T.triggers.filter (isDue now)).mergeSort
      (fun r r' ↦ decide (r.nextFireAt ≤ r'.nextFireAt)) ↔ r ∈ T.triggers ∧ isDue now r = true :=
    fun r ↦ List.mem_mergeSort.trans List.mem_filter
  have hnodup : (((T.triggers.filter (isDue now)).mergeSort
      fun r r' ↦ decide (r.nextFireAt ≤ r'.nextFireAt)).map TriggerRow.key).Nodup :=
    ((List.mergeSort_perm _ _).map _).nodup_iff.mpr (h.sublist (List.filter_sublist.map _))
  have hloop := foldl_claimRow now leaseMs owner (s := (T, [])) h (fun r hr ↦ ?_) hnodup
  · obtain ⟨hkeyed, hclaimed, hdone, hsame, hfiring⟩ := hloop
    refine ⟨hkeyed, fun id ↦ ?_, hfiring, fun trigger htrigger ↦ ?_, ?_⟩
    · rcases hrow : T.row? id with _ | row
      · refine (hsame id fun r hr heq ↦ ?_).trans hrow
        rw [← heq, h.row?_of_mem ((hmem r).mp hr).1] at hrow
        exact absurd hrow (Option.some_ne_none r)
      · obtain rfl := id_of_row? hrow
        rw [Option.map_some]
        split_ifs with hdue
        · exact hdone row ((hmem row).mpr ⟨mem_of_row? hrow, hdue⟩)
        · refine (hsame row.id fun r hr heq ↦ hdue ?_).trans hrow
          have hr' := h.row?_of_mem ((hmem r).mp hr).1
          rw [heq, hrow] at hr'
          exact Option.some.inj hr' ▸ ((hmem r).mp hr).2
    · rw [claimDue, hclaimed, List.nil_append] at htrigger
      obtain ⟨row, hrow, rfl⟩ := List.mem_map.mp htrigger
      exact ⟨row, ((hmem row).mp hrow).1, ((hmem row).mp hrow).2, rfl⟩
    · rw [claimDue, hclaimed, List.nil_append, List.map_map]
      exact hnodup
  · obtain ⟨hrow, hdue⟩ := (hmem r).mp hr
    rw [isDue, Bool.and_eq_true] at hdue
    exact ⟨h.row?_of_mem hrow, hdue.2⟩

/-- What `complete` does where the lease is the owner's. -/
theorem completeUpdate_of_leased (h : T.Keyed) {row current : TriggerRow} (next firedAt : ℤ)
    (hcurrent : T.row? row.id = some current) (howner : current.leaseOwner = some owner) :
    (T.completeUpdate row next owner firedAt).2 = true ∧
      (T.completeUpdate row next owner firedAt).1.Keyed ∧
      (∀ id, (T.completeUpdate row next owner firedAt).1.row? id =
        if id = row.id then some (completedRow next firedAt row.oneShot current) else T.row? id) ∧
      ∀ key, (T.completeUpdate row next owner firedAt).1.firing? key =
        (T.firing? key).map fun f ↦
          if firedBy (row.id, row.nextFireAt) owner f then completedFiring firedAt f else f := by
  have hkey : ∀ r, (completedRow next firedAt row.oneShot r).key = r.key := fun _ ↦ rfl
  rw [completeUpdate, if_pos ((any_leasedBy h _ _).mpr ⟨current, hcurrent, howner⟩)]
  have hfiring : ∀ f, (completedFiring firedAt f).key = f.key := fun _ ↦ rfl
  refine ⟨rfl, keyed_update hkey h, fun id ↦ ?_, fun key ↦ Table.lookup_update hfiring _ _⟩
  rw [row?_update hkey, leasedBy_map hcurrent howner]

/-- What the first update of `fail` does where the lease is the owner's. -/
theorem failUpdate_of_leased (h : T.Keyed) {id : JsString} {current : TriggerRow} (retryAt : ℤ)
    (errorCode : JsString) (hcurrent : T.row? id = some current)
    (howner : current.leaseOwner = some owner) :
    (T.failUpdate id owner retryAt errorCode).2 = true ∧
      (T.failUpdate id owner retryAt errorCode).1.Keyed ∧
      (∀ id', (T.failUpdate id owner retryAt errorCode).1.row? id' =
        if id' = id then some (failedRow retryAt errorCode current) else T.row? id') ∧
      ∀ key, (T.failUpdate id owner retryAt errorCode).1.firing? key = T.firing? key := by
  have hkey : ∀ r, (failedRow retryAt errorCode r).key = r.key := fun _ ↦ rfl
  rw [failUpdate, if_pos ((any_leasedBy h _ _).mpr ⟨current, hcurrent, howner⟩)]
  refine ⟨rfl, keyed_update hkey h, fun id' ↦ ?_, fun key ↦ rfl⟩
  rw [row?_update hkey, leasedBy_map hcurrent howner]

theorem firing?_failRecord (key key' : JsString × ℤ) (errorCode : JsString) :
    (T.failRecord key owner now errorCode).firing? key' = (T.firing? key').map fun f ↦
      if firedBy key owner f then failedFiring now errorCode f else f :=
  Table.lookup_update (f := failedFiring now errorCode) (fun _ ↦ rfl) _ _

end TriggerTables

end LiteHarness.Automation
