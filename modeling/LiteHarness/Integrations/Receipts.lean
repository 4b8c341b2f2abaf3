import LiteHarness.Domain.Records
import LiteHarness.Foundation.Table

/-!
# Receipts of deliveries

`SqliteIntegrationStore` keeps one row for each delivery, by connector, account and delivery, and the
bindings that say whom the senders of an account act for. Every operation is one statement, except
`markReply`, which is two.
-/

namespace LiteHarness.Integrations

open Foundation

/-! ## Data -/

/-- `InboundEnvelope`. -/
structure InboundEnvelope where
  connectorId : JsString
  accountId : JsString
  deliveryId : JsString
  senderExternalId : JsString
  threadExternalId : Option JsString := none
  conversationExternalId : Option JsString := none
  text : JsString
  attachmentUrls : List JsString := []
  receivedAt : JsString
  rawDigest : Option JsString := none
  deriving DecidableEq

/-- What a delivery is known by. -/
abbrev DeliveryKey : Type := JsString × JsString × JsString

/-- The delivery of an envelope. -/
def InboundEnvelope.key (envelope : InboundEnvelope) : DeliveryKey :=
  (envelope.connectorId, envelope.accountId, envelope.deliveryId)

/-- `IntegrationBinding`. -/
structure IntegrationBinding where
  connectorId : JsString
  accountId : JsString
  senderExternalId : JsString
  appId : JsString
  tenantId : JsString
  userId : JsString
  agentId : JsString
  workspaceId : JsString
  sessionPrefix : JsString
  deriving DecidableEq

/-- The primary key of a binding. -/
def IntegrationBinding.key (binding : IntegrationBinding) : JsString × JsString × JsString :=
  (binding.connectorId, binding.accountId, binding.senderExternalId)

/-- The status of a receipt. -/
inductive DeliveryStatus where
  | received
  | runStarted
  | delivering
  | replied
  | failed
  deriving DecidableEq

/-- A row of `integration_deliveries`. -/
structure DeliveryRow where
  envelope : InboundEnvelope
  status : DeliveryStatus := .received
  runId : Option JsString := none
  replyExternalId : Option JsString := none
  errorCode : Option JsString := none
  deliveryOwner : Option JsString := none
  leaseExpiresAt : Option ℤ := none
  updatedAt : ℤ
  deriving DecidableEq

/-- The primary key of a receipt. -/
def DeliveryRow.key (row : DeliveryRow) : DeliveryKey := row.envelope.key

/-- The database of the store. -/
structure ReceiptTables where
  bindings : List IntegrationBinding := []
  deliveries : List DeliveryRow := []

namespace ReceiptTables

variable (T : ReceiptTables)

/-! ## Operations -/

/-- The row of a delivery. -/
def row? (key : DeliveryKey) : Option DeliveryRow := Table.lookup DeliveryRow.key key T.deliveries

/-- `bind`. -/
def bind (binding : IntegrationBinding) : ReceiptTables :=
  { T with bindings := Table.upsert IntegrationBinding.key binding (fun _ ↦ binding) T.bindings }

/-- `getBinding`: the binding of the sender, or that of all senders. -/
def getBinding (envelope : InboundEnvelope) : Option IntegrationBinding :=
  let find := fun sender ↦ Table.lookup IntegrationBinding.key
    (envelope.connectorId, envelope.accountId, sender) T.bindings
  (find envelope.senderExternalId).or (find (js "*"))

/-- `claim`: whether the delivery is new. -/
def claim (envelope : InboundEnvelope) (now : ℤ) : ReceiptTables × Bool :=
  if (T.row? envelope.key).isSome then (T, false)
  else ({ T with deliveries := T.deliveries ++ [{ envelope := envelope, updatedAt := now }] }, true)

/-- The fields `#update` sets where they are given. -/
structure ReceiptFields where
  runId : Option JsString := none
  replyExternalId : Option JsString := none
  errorCode : Option JsString := none

/-- A row after `#update`. -/
def updatedRow (status : DeliveryStatus) (fields : ReceiptFields) (now : ℤ) (row : DeliveryRow) :
    DeliveryRow :=
  { row with
    status := status
    runId := fields.runId.or row.runId
    replyExternalId := fields.replyExternalId.or row.replyExternalId
    errorCode := fields.errorCode.or row.errorCode
    updatedAt := now }

/-- `#update`, whose query for the receipt throws where there is none. -/
def update (key : DeliveryKey) (status : DeliveryStatus) (fields : ReceiptFields) (now : ℤ) :
    ReceiptTables :=
  { T with
    deliveries := Table.update (fun row ↦ row.key = key) (updatedRow status fields now) T.deliveries }

/-- `markRun`. -/
def markRun (key : DeliveryKey) (runId : JsString) (now : ℤ) : ReceiptTables :=
  T.update key .runStarted { runId := some runId } now

/-- The first statement of `markReply`. -/
def markReply (key : DeliveryKey) (replyExternalId : JsString) (now : ℤ) : ReceiptTables :=
  T.update key .replied { replyExternalId := some replyExternalId } now

/-- A row without a lease. -/
def clearedRow (row : DeliveryRow) : DeliveryRow :=
  { row with deliveryOwner := none, leaseExpiresAt := none }

/-- The second statement of `markReply`. -/
def clearLease (key : DeliveryKey) : ReceiptTables :=
  { T with deliveries := Table.update (fun row ↦ row.key = key) clearedRow T.deliveries }

/-- `markFailed`. -/
def markFailed (key : DeliveryKey) (errorCode : JsString) (now : ℤ) : ReceiptTables :=
  T.update key .failed { errorCode := some errorCode } now

/-- A reply may be claimed: it is pending, or its lease is over. -/
def isClaimable (now : ℤ) (row : DeliveryRow) : Bool :=
  row.status = .runStarted ||
    (row.status = .delivering && row.leaseExpiresAt.any fun expiry ↦ expiry ≤ now)

/-- A row after `claimReply`. -/
def leasedRow (owner : JsString) (now leaseMs : ℤ) (row : DeliveryRow) : DeliveryRow :=
  { row with
    status := .delivering, deliveryOwner := some owner, leaseExpiresAt := some (now + leaseMs)
    updatedAt := now }

/-- `claimReply`: whether it changed a row. -/
def claimReply (key : DeliveryKey) (owner : JsString) (now leaseMs : ℤ) : ReceiptTables × Bool :=
  let picked := fun row : DeliveryRow ↦ decide (row.key = key) && isClaimable now row
  if T.deliveries.any picked then
    ({ T with deliveries := Table.update picked (leasedRow owner now leaseMs) T.deliveries }, true)
  else (T, false)

/-- The condition of `releaseReply` on the row. -/
def isLeasedTo (owner : JsString) (row : DeliveryRow) : Bool :=
  row.status = .delivering && row.deliveryOwner = some owner

/-- A row after `releaseReply`. -/
def releasedRow (errorCode : JsString) (now : ℤ) (row : DeliveryRow) : DeliveryRow :=
  { row with
    status := .runStarted, errorCode := some errorCode, deliveryOwner := none
    leaseExpiresAt := none, updatedAt := now }

/-- `releaseReply`: whether it changed a row. -/
def releaseReply (key : DeliveryKey) (owner errorCode : JsString) (now : ℤ) :
    ReceiptTables × Bool :=
  let picked := fun row : DeliveryRow ↦ decide (row.key = key) && isLeasedTo owner row
  if T.deliveries.any picked then
    ({ T with deliveries := Table.update picked (releasedRow errorCode now) T.deliveries }, true)
  else (T, false)

/-- `listPendingReplies`: the first hundred receipts that have a run and no reply. -/
def listPendingReplies : List DeliveryRow :=
  ((T.deliveries.filter fun row ↦
    row.runId.isSome && (row.status = .runStarted || row.status = .delivering)).insertionSort
      fun row row' ↦ keyLe row.envelope.receivedAt row'.envelope.receivedAt).take 100

/-! ## What a query sees afterwards -/

variable {T}

theorem key_of_row? {key : DeliveryKey} {row : DeliveryRow} (h : T.row? key = some row) :
    row.key = key := Table.key_of_lookup h

theorem row?_claim_new {envelope : InboundEnvelope} {now : ℤ} (h : T.row? envelope.key = none)
    (key : DeliveryKey) : (T.claim envelope now).1.row? key = if key = envelope.key then
      some { envelope := envelope, updatedAt := now } else T.row? key := by
  have hsome : ¬(T.row? envelope.key).isSome = true := by simp [h]
  rw [claim, if_neg hsome]
  refine (Table.lookup_append DeliveryRow.key key T.deliveries _).trans ?_
  rw [Table.lookup_singleton]
  by_cases hkey : key = envelope.key
  · subst hkey
    rw [if_pos rfl, show Table.lookup DeliveryRow.key envelope.key T.deliveries = none from h,
      Option.none_or]
    exact if_pos rfl
  · have hne : ¬DeliveryRow.key { envelope := envelope, updatedAt := now } = key :=
      fun heq ↦ hkey heq.symm
    rw [if_neg hkey, if_neg hne, Option.or_none]
    rfl

/-- A change of the row of one delivery, as a query sees it. -/
theorem row?_update {p : DeliveryRow → Bool} {f : DeliveryRow → DeliveryRow}
    (hf : ∀ row, (f row).key = row.key) (key : DeliveryKey) {bindings : List IntegrationBinding} :
    row? ⟨bindings, Table.update p f T.deliveries⟩ key =
      (T.row? key).map fun row ↦ if p row then f row else row :=
  Table.lookup_update hf key T.deliveries

theorem map_picked (key : DeliveryKey) (p : DeliveryRow → Bool) (f : DeliveryRow → DeliveryRow)
    (key' : DeliveryKey) :
    (T.row? key').map (fun row ↦ if decide (row.key = key) && p row then f row else row) =
      if key' = key then (T.row? key).map fun row ↦ if p row then f row else row
      else T.row? key' := by
  by_cases hkey : key' = key
  · subst hkey
    rw [if_pos rfl]
    refine Option.map_congr fun row hrow ↦ ?_
    rw [key_of_row? hrow, decide_eq_true rfl, Bool.true_and]
  · rw [if_neg hkey]
    rcases hrow : T.row? key' with _ | row
    · rfl
    · rw [Option.map_some, key_of_row? hrow, decide_eq_false hkey, Bool.false_and,
        if_neg Bool.false_ne_true]

theorem row?_markOf (key : DeliveryKey) (status : DeliveryStatus) (fields : ReceiptFields) (now : ℤ)
    (key' : DeliveryKey) : (T.update key status fields now).row? key' =
      if key' = key then (T.row? key).map (updatedRow status fields now) else T.row? key' := by
  have hkey : ∀ row, (updatedRow status fields now row).key = row.key := fun _ ↦ rfl
  have hpicked := map_picked (T := T) key (fun _ ↦ true) (updatedRow status fields now) key'
  simp only [Bool.and_true, if_true] at hpicked
  exact (row?_update hkey key').trans hpicked

theorem row?_clearLease (key key' : DeliveryKey) : (T.clearLease key).row? key' =
    if key' = key then (T.row? key).map clearedRow else T.row? key' := by
  have hkey : ∀ row, (clearedRow row).key = row.key := fun _ ↦ rfl
  have hpicked := map_picked (T := T) key (fun _ ↦ true) clearedRow key'
  simp only [Bool.and_true, if_true] at hpicked
  exact (row?_update hkey key').trans hpicked

/-! ## Changes of one receipt -/

/-- The receipts are told apart by their keys. -/
def Keyed (T : ReceiptTables) : Prop := (T.deliveries.map DeliveryRow.key).Nodup

/-- One receipt changes. -/
structure Changes (key : DeliveryKey) (f : DeliveryRow → DeliveryRow) (T T' : ReceiptTables) :
    Prop where
  keyed : T.Keyed → T'.Keyed
  row? : ∀ key', T'.row? key' = if key' = key then (T.row? key).map f else T.row? key'

theorem changes_update (T : ReceiptTables) (key : DeliveryKey) (status : DeliveryStatus)
    (fields : ReceiptFields) (now : ℤ) :
    Changes key (updatedRow status fields now) T (T.update key status fields now) where
  keyed h := by
    have hkey : ∀ row, (updatedRow status fields now row).key = row.key := fun _ ↦ rfl
    rw [Keyed, update, Table.map_update hkey]
    exact h
  row? := row?_markOf key status fields now

theorem changes_clearLease (T : ReceiptTables) (key : DeliveryKey) :
    Changes key clearedRow T (T.clearLease key) where
  keyed h := by
    have hkey : ∀ row, (clearedRow row).key = row.key := fun _ ↦ rfl
    rw [Keyed, clearLease, Table.map_update hkey]
    exact h
  row? := row?_clearLease key

theorem keyed_claim (h : T.Keyed) (envelope : InboundEnvelope) (now : ℤ) :
    (T.claim envelope now).1.Keyed := by
  rw [claim]
  split_ifs with hrow
  · exact h
  · refine Table.nodup_append_fresh h ?_
    intro row hmem heq
    exact hrow (Table.lookup_isSome_iff.mpr (List.mem_map.mpr ⟨row, hmem, heq⟩))

/-- A statement on one receipt under a condition, where no two receipts have one key. -/
theorem any_picked (h : T.Keyed) (key : DeliveryKey) (p : DeliveryRow → Bool) :
    (T.deliveries.any fun row ↦ decide (row.key = key) && p row) = true ↔
      ∃ row, T.row? key = some row ∧ p row = true := by
  rw [List.any_eq_true]
  constructor
  · rintro ⟨row, hmem, hrow⟩
    obtain ⟨hkey, hp⟩ := (Bool.and_eq_true _ _).mp hrow
    have hlookup := Table.lookup_of_mem h hmem
    rw [of_decide_eq_true hkey] at hlookup
    exact ⟨row, hlookup, hp⟩
  · rintro ⟨row, hrow, hp⟩
    refine ⟨row, Table.mem_of_lookup hrow, ?_⟩
    rw [key_of_row? hrow, decide_eq_true rfl, hp]
    rfl

theorem changes_picked {key : DeliveryKey} {p : DeliveryRow → Bool} {f : DeliveryRow → DeliveryRow}
    (hf : ∀ row, (f row).key = row.key) {row : DeliveryRow} (hrow : T.row? key = some row)
    (hp : p row = true) : Changes key f T
      { T with deliveries := Table.update (fun row ↦ decide (row.key = key) && p row) f T.deliveries }
    where
  keyed h := by
    rw [Keyed, Table.map_update hf]
    exact h
  row? key' := by
    rw [row?_update hf, map_picked, hrow, Option.map_some, if_pos hp]
    rfl

/-- `claimReply` leases a receipt that is pending or whose lease is over. -/
theorem claimReply_cases (h : T.Keyed) (key : DeliveryKey) (owner : JsString) (now leaseMs : ℤ) :
    (∃ row T', T.row? key = some row ∧ isClaimable now row = true ∧
      T.claimReply key owner now leaseMs = (T', true) ∧
      Changes key (leasedRow owner now leaseMs) T T') ∨
    T.claimReply key owner now leaseMs = (T, false) := by
  rw [claimReply]
  split_ifs with hany
  · obtain ⟨row, hrow, hp⟩ := (any_picked h key _).mp hany
    exact Or.inl ⟨row, _, hrow, hp, rfl, changes_picked (fun _ ↦ rfl) hrow hp⟩
  · exact Or.inr rfl

/-- `releaseReply` gives back a receipt that is still leased to the owner. -/
theorem releaseReply_cases (h : T.Keyed) (key : DeliveryKey) (owner errorCode : JsString) (now : ℤ) :
    (∃ row, T.row? key = some row ∧ isLeasedTo owner row = true ∧
      Changes key (releasedRow errorCode now) T (T.releaseReply key owner errorCode now).1) ∨
    (T.releaseReply key owner errorCode now).1 = T := by
  rw [releaseReply]
  split_ifs with hany
  · obtain ⟨row, hrow, hp⟩ := (any_picked h key _).mp hany
    exact Or.inl ⟨row, hrow, hp, changes_picked (fun _ ↦ rfl) hrow hp⟩
  · exact Or.inr rfl

end ReceiptTables

end LiteHarness.Integrations
