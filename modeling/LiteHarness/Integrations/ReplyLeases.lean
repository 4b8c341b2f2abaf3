import LiteHarness.Foundation.Suspension
import LiteHarness.Integrations.Replies

/-!
# Leases of replies

A reply that is being sent is leased to the tick that sends it, until thirty seconds after the tick
began, unless the receipt was given up as `FAILED` (`Sent`). So a tick that takes the lease either
finds nobody sending, or began thirty seconds later. Afterwards a receipt is changed only by who has
its lease: a tick whose lease was taken over is not the one that is named there, because no two
ticks of a coordinator are at one reply (`Inv.apart`).
-/

namespace LiteHarness.Integrations

open Foundation

/-- The reply a tick takes the lease off. -/
def ReplyTick.clears (t : ReplyTick) : Option DeliveryKey :=
  match t.stage with
  | .clearing => t.items.head?.map DeliveryRow.key
  | _ => none

theorem ReplyTick.flight_of_sends {t : ReplyTick} {key : DeliveryKey} (h : t.sends = some key) :
    t.flight = some key := by
  rw [ReplyTick.sends] at h
  split at h
  · rename_i text hstage
    rw [ReplyTick.flight, hstage]
    exact h
  · exact absurd h nofun

namespace Replies

variable {W W' : Replies}

/-! ## The invariant -/

/-- The receipt of a reply the tick is sending. -/
def Sent (t : ReplyTick) (row : DeliveryRow) : Prop :=
  (ReceiptTables.isLeasedTo t.owner row = true ∧
    row.leaseExpiresAt = some (t.start + replyLeaseMs)) ∨ row.status = .failed

/-- What is known of a receipt. -/
structure RowOk (W : Replies) (key : DeliveryKey) (row : DeliveryRow) : Prop where
  leased : row.status = .delivering →
    ∃ c ∈ W.claimant key, row.deliveryOwner = some c.owner ∧ row.leaseExpiresAt.isSome
  hasRun : row.status = .runStarted ∨ row.status = .delivering → row.runId.isSome
  ended : row.status = .replied ∨ row.status = .failed → (key, row.status) ∈ W.finals

/-- What is known of a tick. -/
structure TickOk (W : Replies) (t : ReplyTick) : Prop where
  items : ∀ item ∈ t.items, (W.receipts.row? item.key).isSome
  own : ∀ key, t.flight = some key → ∀ c ∈ W.claimant key, c.owner = t.owner → c.tick = t.id
  sending : ∀ key, t.sends = some key → ∃ row, W.receipts.row? key = some row ∧ Sent t row
  clearing : ∀ key, t.clears = some key → (∃ row, W.receipts.row? key = some row ∧
    row.status = .replied) ∧ ∃ c ∈ W.claimant key, c.tick = t.id

/-- **The invariant.** -/
structure Inv (W : Replies) : Prop where
  keyed : W.receipts.Keyed
  begun : ∀ t ∈ W.ticks, t.id < W.begun
  distinct : ∀ t ∈ W.ticks, ∀ t' ∈ W.ticks, t.id = t'.id → t = t'
  rows : ∀ key row, W.receipts.row? key = some row → RowOk W key row
  finals : ∀ f ∈ W.finals, (f.2 = .replied ∨ f.2 = .failed) ∧
    ∃ row, W.receipts.row? f.1 = some row ∧ row.status = f.2
  retried : ∀ key ∈ W.retryable, ∃ row, W.receipts.row? key = some row ∧ row.status ≠ .received
  ticks : ∀ t ∈ W.ticks, TickOk W t
  alone : ∀ t ∈ W.ticks, ∀ t' ∈ W.ticks, t.id ≠ t'.id → ∀ key, t.sends = some key →
    t'.sends ≠ some key
  apart : ∀ t ∈ W.ticks, ∀ t' ∈ W.ticks, t.id ≠ t'.id → ∀ key, t.flight = some key →
    t'.flight = some key → t.owner ≠ t'.owner
  fenced : W.overwritten = []

theorem inv_init : Inv {} where
  keyed := List.nodup_nil
  begun _ h := absurd h List.not_mem_nil
  distinct _ h := absurd h List.not_mem_nil
  rows _ _ h := absurd h (by simp [ReceiptTables.row?, Table.lookup])
  finals _ h := absurd h List.not_mem_nil
  retried _ h := absurd h List.not_mem_nil
  ticks _ h := absurd h List.not_mem_nil
  alone _ h := absurd h List.not_mem_nil
  apart _ h := absurd h List.not_mem_nil
  fenced := rfl

/-! ## Receipts change -/

/-- What becomes of the receipt a tick works on: where it is sending or clearing, enough stays. -/
structure Spares (t : ReplyTick) (key : DeliveryKey) (row row' : DeliveryRow) : Prop where
  sending : t.sends = some key → Sent t row → Sent t row'
  replied : row.status = .replied → row'.status = .replied

theorem Spares.refl (t : ReplyTick) (key : DeliveryKey) (row : DeliveryRow) : Spares t key row row :=
  ⟨fun _ h ↦ h, id⟩

theorem TickOk.of_spares {t : ReplyTick} (h : W.TickOk t)
    (hrows : ∀ key row, W.receipts.row? key = some row →
      ∃ row', W'.receipts.row? key = some row' ∧ Spares t key row row')
    (hown : ∀ key, t.flight = some key → ∀ c ∈ W'.claimant key,
      c ∈ W.claimant key ∨ c.owner ≠ t.owner)
    (hclears : ∀ key, t.clears = some key → W'.claimant key = W.claimant key) : W'.TickOk t where
  items item hitem := by
    obtain ⟨row, hrow⟩ := Option.isSome_iff_exists.mp (h.items item hitem)
    obtain ⟨row', hrow', -⟩ := hrows _ row hrow
    exact Option.isSome_iff_exists.mpr ⟨row', hrow'⟩
  own key hflight c hc howner :=
    h.own key hflight c ((hown key hflight c hc).resolve_right fun hne ↦ hne howner) howner
  sending key hsends := by
    obtain ⟨row, hrow, hsent⟩ := h.sending key hsends
    obtain ⟨row', hrow', hspares⟩ := hrows key row hrow
    exact ⟨row', hrow', hspares.sending hsends hsent⟩
  clearing key hclearing := by
    obtain ⟨⟨row, hrow, hreplied⟩, hclaimant⟩ := h.clearing key hclearing
    obtain ⟨row', hrow', hspares⟩ := hrows key row hrow
    exact ⟨⟨row', hrow', hspares.replied hreplied⟩, (hclears key hclearing).symm ▸ hclaimant⟩

/-- **One receipt changes**, and possibly who has its lease. -/
theorem Inv.change (h : W.Inv) {key : DeliveryKey} {f : DeliveryRow → DeliveryRow}
    {receipts : ReceiptTables} (hchanges : ReceiptTables.Changes key f W.receipts receipts)
    {row : DeliveryRow} (hrow : W.receipts.row? key = some row)
    {claims : List ReplyClaim} {ends : List (DeliveryKey × DeliveryStatus)}
    (hclaims : ∀ key', key' ≠ key → { W with claims := claims }.claimant key' = W.claimant key')
    (hends : ∀ p ∈ ends, p = (key, (f row).status) ∧ (p.2 = .replied ∨ p.2 = .failed))
    (hok : RowOk { W with receipts := receipts, claims := claims, finals := W.finals ++ ends } key
      (f row))
    (hfinal : row.status = .replied ∨ row.status = .failed → (f row).status = row.status)
    (hreceived : (f row).status ≠ .received)
    (hspares : ∀ t ∈ W.ticks, Spares t key row (f row))
    (hown : ∀ t ∈ W.ticks, t.flight = some key → ∀ c ∈ { W with claims := claims }.claimant key,
      c ∈ W.claimant key ∨ c.owner ≠ t.owner)
    (hclears : ∀ t ∈ W.ticks, t.clears = some key →
      { W with claims := claims }.claimant key = W.claimant key) :
    Inv { W with receipts := receipts, claims := claims, finals := W.finals ++ ends } := by
  have hself : receipts.row? key = some (f row) := by
    rw [hchanges.row?, if_pos rfl, hrow, Option.map_some]
  have hother : ∀ key', key' ≠ key → receipts.row? key' = W.receipts.row? key' :=
    fun key' hne ↦ by rw [hchanges.row?, if_neg hne]
  refine ⟨hchanges.keyed h.keyed, h.begun, h.distinct, ?_, ?_, ?_, ?_, h.alone, h.apart, h.fenced⟩
  · intro key' row' hrow'
    by_cases hkey : key' = key
    · subst hkey
      obtain rfl := Option.some.inj (hself.symm.trans hrow')
      exact hok
    · have hold := h.rows key' row' ((hother key' hkey).symm.trans hrow')
      refine ⟨fun hdelivering ↦ ?_, hold.hasRun, fun hended ↦ ?_⟩
      · obtain ⟨c, hc, hleased⟩ := hold.leased hdelivering
        exact ⟨c, (hclaims key' hkey).symm ▸ hc, hleased⟩
      · exact List.mem_append_left _ (hold.ended hended)
  · intro p hp
    rcases List.mem_append.mp hp with hp | hp
    · obtain ⟨hstatus, row', hrow', heq⟩ := h.finals p hp
      refine ⟨hstatus, ?_⟩
      by_cases hkey : p.1 = key
      · obtain rfl := Option.some.inj (hrow.symm.trans (hkey ▸ hrow'))
        exact ⟨f row, hkey ▸ hself, (hfinal (heq ▸ hstatus)).trans heq⟩
      · exact ⟨row', (hother _ hkey).trans hrow', heq⟩
    · obtain ⟨rfl, hstatus⟩ := hends p hp
      exact ⟨hstatus, f row, hself, rfl⟩
  · intro key' hkey'
    obtain ⟨row', hrow', hne⟩ := h.retried key' hkey'
    by_cases hkey : key' = key
    · exact ⟨f row, hkey ▸ hself, hreceived⟩
    · exact ⟨row', (hother _ hkey).trans hrow', hne⟩
  · intro t ht
    refine (h.ticks t ht).of_spares ?_ ?_ ?_
    · intro key' row' hrow'
      by_cases hkey : key' = key
      · subst hkey
        obtain rfl := Option.some.inj (hrow.symm.trans hrow')
        exact ⟨f row, hself, hspares t ht⟩
      · exact ⟨row', (hother _ hkey).trans hrow', .refl t key' row'⟩
    · intro key' hflight c hc
      by_cases hkey : key' = key
      · subst hkey
        exact hown t ht hflight c hc
      · exact Or.inl ((hclaims key' hkey) ▸ hc)
    · intro key' hclearing
      by_cases hkey : key' = key
      · subst hkey
        exact hclears t ht hclearing
      · exact hclaims key' hkey

/-! ## Ticks go on -/

theorem mem_goOn {t t' : ReplyTick} (h : t' ∈ (W.goOn t).ticks) :
    t' = t ∨ (t' ∈ W.ticks ∧ t'.id ≠ t.id) := by
  obtain ⟨t'', ht'', heq⟩ := Table.mem_update.mp h
  split_ifs at heq with hid
  · exact Or.inl heq.symm
  · exact Or.inr ⟨heq ▸ ht'', heq ▸ fun h ↦ hid (decide_eq_true h)⟩

/-- **A tick goes on**, at a stage of which enough is known. -/
theorem Inv.goOn (h : W.Inv) {t t' : ReplyTick} (ht : t ∈ W.ticks) (hid : t'.id = t.id)
    (hok : W.TickOk t')
    (hsends : ∀ key, t'.sends = some key → ∀ t'' ∈ W.ticks, t''.id ≠ t.id → t''.sends ≠ some key)
    (hflight : ∀ key, t'.flight = some key → ∀ t'' ∈ W.ticks, t''.id ≠ t.id →
      t''.flight = some key → t'.owner ≠ t''.owner) : (W.goOn t').Inv := by
  refine ⟨h.keyed, ?_, ?_, fun key row hrow ↦ ?_, h.finals, h.retried, ?_, ?_, ?_, h.fenced⟩
  · intro u hu
    rcases mem_goOn hu with rfl | ⟨hmem, -⟩
    · exact hid ▸ h.begun t ht
    · exact h.begun u hmem
  · intro u hu v hv heq
    rcases mem_goOn hu with rfl | ⟨hmem, hne⟩ <;> rcases mem_goOn hv with rfl | ⟨hmem', hne'⟩
    · rfl
    · exact absurd heq.symm hne'
    · exact absurd heq hne
    · exact h.distinct u hmem v hmem' heq
  · exact ⟨(h.rows key row hrow).leased, (h.rows key row hrow).hasRun, (h.rows key row hrow).ended⟩
  · intro u hu
    have hsame : ∀ {u}, W.TickOk u → (W.goOn t').TickOk u := fun hu ↦ ⟨hu.1, hu.2, hu.3, hu.4⟩
    rcases mem_goOn hu with rfl | ⟨hmem, -⟩
    · exact hsame hok
    · exact hsame (h.ticks u hmem)
  · intro u hu v hv hne key hsending hsending'
    rcases mem_goOn hu with rfl | ⟨hmem, hne'⟩ <;> rcases mem_goOn hv with rfl | ⟨hmem', hne''⟩
    · exact hne rfl
    · exact hsends key hsending v hmem' (hid ▸ hne'') hsending'
    · exact hsends key hsending' u hmem (hid ▸ hne') hsending
    · exact h.alone u hmem v hmem' hne key hsending hsending'
  · intro u hu v hv hne key hflying hflying'
    rcases mem_goOn hu with rfl | ⟨hmem, hne'⟩ <;> rcases mem_goOn hv with rfl | ⟨hmem', hne''⟩
    · exact absurd rfl hne
    · exact hflight key hflying v hmem' (hid ▸ hne'') hflying'
    · exact (hflight key hflying' u hmem (hid ▸ hne') hflying).symm
    · exact h.apart u hmem v hmem' hne key hflying hflying'

/-- A tick goes on with a receipt, which it is not sending. -/
theorem Inv.restage (h : W.Inv) {t : ReplyTick} (ht : t ∈ W.ticks) (stage : ReplyStage)
    (hflight : ∀ key, { t with stage := stage }.flight = some key → t.flight = some key)
    (hsends : { t with stage := stage }.sends = none)
    (hclears : ∀ key, { t with stage := stage }.clears = some key →
      (∃ row, W.receipts.row? key = some row ∧ row.status = .replied) ∧
        ∃ c ∈ W.claimant key, c.tick = t.id) :
    (W.goOn { t with stage := stage }).Inv := by
  have hok := h.ticks t ht
  refine h.goOn ht rfl ⟨hok.items, ?_, ?_, hclears⟩ ?_ ?_
  · exact fun key hflying ↦ hok.own key (hflight key hflying)
  · intro key hsending
    exact absurd (hsends.symm.trans hsending) (Option.some_ne_none key).symm
  · intro key hsending
    exact absurd (hsends.symm.trans hsending) (Option.some_ne_none key).symm
  · intro key hflying t' ht' hne hflying'
    exact h.apart t ht t' ht' hne.symm key (hflight key hflying) hflying'

theorem Inv.nextItem (h : W.Inv) {t : ReplyTick} (ht : t ∈ W.ticks) : (W.nextItem t).Inv := by
  have hok := h.ticks t ht
  refine h.goOn ht rfl ⟨fun item hitem ↦ hok.items item (List.mem_of_mem_tail hitem), ?_, ?_, ?_⟩
    ?_ ?_
  all_goals exact fun key hkey ↦ absurd hkey (Option.some_ne_none key).symm

theorem Inv.leave (h : W.Inv) (t : ReplyTick) : (W.leave t).Inv := by
  have hmem : ∀ {u}, u ∈ (W.leave t).ticks → u ∈ W.ticks := fun hu ↦ (List.mem_filter.mp hu).1
  refine ⟨h.keyed, fun u hu ↦ h.begun u (hmem hu), fun u hu v hv ↦ h.distinct u (hmem hu) v (hmem hv),
    fun key row hrow ↦ ?_, h.finals, h.retried, fun u hu ↦ ?_,
    fun u hu v hv ↦ h.alone u (hmem hu) v (hmem hv), fun u hu v hv ↦ h.apart u (hmem hu) v (hmem hv),
    h.fenced⟩
  · exact ⟨(h.rows key row hrow).leased, (h.rows key row hrow).hasRun, (h.rows key row hrow).ended⟩
  · have hok := h.ticks u (hmem hu)
    exact ⟨hok.items, hok.own, hok.sending, hok.clearing⟩

theorem Inv.startTick (h : W.Inv) (owner : JsString) (connectors : List JsString) (now : ℤ) :
    (W.startTick owner connectors now).Inv := by
  have hnew : ∀ t ∈ W.ticks, t.id ≠ W.begun := fun t ht ↦ (h.begun t ht).ne
  refine ⟨h.keyed, ?_, ?_, fun key row hrow ↦ ?_, h.finals, h.retried, ?_, ?_, ?_, h.fenced⟩
  · intro t ht
    rcases List.mem_append.mp ht with ht | ht
    · exact Nat.lt_succ_of_lt (h.begun t ht)
    · obtain rfl := List.mem_singleton.mp ht
      exact Nat.lt_succ_self W.begun
  · intro t ht t' ht' heq
    rcases List.mem_append.mp ht with hold | hself <;>
      rcases List.mem_append.mp ht' with hold' | hself'
    · exact h.distinct t hold t' hold' heq
    · obtain rfl := List.mem_singleton.mp hself'
      exact absurd heq (hnew t hold)
    · obtain rfl := List.mem_singleton.mp hself
      exact absurd heq.symm (hnew t' hold')
    · rw [List.mem_singleton.mp hself, List.mem_singleton.mp hself']
  · exact ⟨(h.rows key row hrow).leased, (h.rows key row hrow).hasRun, (h.rows key row hrow).ended⟩
  · intro t ht
    rcases List.mem_append.mp ht with hold | hself
    · have hok := h.ticks t hold
      exact ⟨hok.items, hok.own, hok.sending, hok.clearing⟩
    · obtain rfl := List.mem_singleton.mp hself
      refine ⟨fun item hitem ↦ ?_, fun key hkey ↦ absurd hkey (Option.some_ne_none key).symm,
        fun key hkey ↦ absurd hkey (Option.some_ne_none key).symm,
        fun key hkey ↦ absurd hkey (Option.some_ne_none key).symm⟩
      have hlisted := (List.mem_insertionSort _).mp (List.mem_of_mem_take hitem)
      exact Table.lookup_isSome_iff.mpr (List.mem_map_of_mem (List.mem_filter.mp hlisted).1)
  · intro t ht t' ht' hne key hsends hsends'
    rcases List.mem_append.mp ht with hold | hself <;>
      rcases List.mem_append.mp ht' with hold' | hself'
    · exact h.alone t hold t' hold' hne key hsends hsends'
    · obtain rfl := List.mem_singleton.mp hself'
      exact absurd hsends' (Option.some_ne_none key).symm
    · obtain rfl := List.mem_singleton.mp hself
      exact absurd hsends (Option.some_ne_none key).symm
    · obtain rfl := List.mem_singleton.mp hself
      exact absurd hsends (Option.some_ne_none key).symm
  · intro t ht t' ht' hne key hflight hflight'
    rcases List.mem_append.mp ht with hold | hself <;>
      rcases List.mem_append.mp ht' with hold' | hself'
    · exact h.apart t hold t' hold' hne key hflight hflight'
    · obtain rfl := List.mem_singleton.mp hself'
      exact absurd hflight' (Option.some_ne_none key).symm
    · obtain rfl := List.mem_singleton.mp hself
      exact absurd hflight (Option.some_ne_none key).symm
    · obtain rfl := List.mem_singleton.mp hself
      exact absurd hflight (Option.some_ne_none key).symm

/-! ## The router -/

theorem Inv.receive (h : W.Inv) (envelope : InboundEnvelope) (now : ℤ) :
    Inv { W with receipts := (W.receipts.claim envelope now).1 } := by
  rcases hrow : W.receipts.row? envelope.key with _ | row
  swap
  · rw [ReceiptTables.claim, if_pos (by rw [hrow]; rfl)]
    exact h
  have hkept : ∀ {key row}, W.receipts.row? key = some row →
      (W.receipts.claim envelope now).1.row? key = some row := by
    intro key row hkey
    rw [ReceiptTables.row?_claim_new hrow, if_neg]
    · exact hkey
    · rintro rfl
      exact Option.some_ne_none _ (hkey.symm.trans hrow)
  refine ⟨ReceiptTables.keyed_claim h.keyed envelope now, h.begun, h.distinct, ?_, ?_, ?_, ?_, h.alone,
    h.apart, h.fenced⟩
  · intro key row hnew
    have hcases := (ReceiptTables.row?_claim_new hrow key).symm.trans hnew
    split_ifs at hcases with hkey
    · obtain rfl := Option.some.inj hcases
      refine ⟨fun hstatus ↦ ?_, fun hstatus ↦ ?_, fun hstatus ↦ ?_⟩
      · exact DeliveryStatus.noConfusion hstatus
      · exact hstatus.elim DeliveryStatus.noConfusion DeliveryStatus.noConfusion
      · exact hstatus.elim DeliveryStatus.noConfusion DeliveryStatus.noConfusion
    · have hold := h.rows key row hcases
      exact ⟨hold.leased, hold.hasRun, hold.ended⟩
  · intro f hf
    obtain ⟨hstatus, row, hfound, heq⟩ := h.finals f hf
    exact ⟨hstatus, row, hkept hfound, heq⟩
  · intro key hkey
    obtain ⟨row, hfound, hne⟩ := h.retried key hkey
    exact ⟨row, hkept hfound, hne⟩
  · intro t ht
    exact (h.ticks t ht).of_spares (fun key row hfound ↦ ⟨row, hkept hfound, .refl t key row⟩)
      (fun _ _ _ hc ↦ Or.inl hc) fun _ _ ↦ rfl

/-- No tick minds what becomes of a receipt that has no run. -/
theorem spares_received {t : ReplyTick} {key : DeliveryKey} {row row' : DeliveryRow}
    (hreceived : row.status = .received) : Spares t key row row' where
  sending _ hsent := by
    rcases hsent with ⟨hleased, -⟩ | hfailed
    · rw [ReceiptTables.isLeasedTo, hreceived] at hleased
      exact absurd hleased Bool.false_ne_true
    · exact absurd (hreceived.symm.trans hfailed) (by decide)
  replied hreplied := absurd (hreceived.symm.trans hreplied) (by decide)

/-- One receipt changes, and nobody takes its lease. -/
theorem Inv.changeRow (h : W.Inv) {key : DeliveryKey} {f : DeliveryRow → DeliveryRow}
    {receipts : ReceiptTables} (hchanges : ReceiptTables.Changes key f W.receipts receipts)
    {row : DeliveryRow} (hrow : W.receipts.row? key = some row)
    {ends : List (DeliveryKey × DeliveryStatus)}
    (hends : ∀ p ∈ ends, p = (key, (f row).status) ∧ (p.2 = .replied ∨ p.2 = .failed))
    (hok : RowOk { W with receipts := receipts, finals := W.finals ++ ends } key (f row))
    (hfinal : row.status = .replied ∨ row.status = .failed → (f row).status = row.status)
    (hreceived : (f row).status ≠ .received)
    (hspares : ∀ t ∈ W.ticks, Spares t key row (f row)) :
    Inv { W with receipts := receipts, finals := W.finals ++ ends } :=
  h.change hchanges hrow (fun _ _ ↦ rfl) hends hok hfinal hreceived hspares
    (fun _ _ _ _ hc ↦ Or.inl hc) fun _ _ _ ↦ rfl

/-- A receipt reaches `REPLIED` or `FAILED`, once. -/
theorem Inv.reach (h : W.Inv) {key : DeliveryKey} {status : DeliveryStatus}
    (hstatus : status = .replied ∨ status = .failed) (fields : ReceiptTables.ReceiptFields) (now : ℤ)
    {row : DeliveryRow} (hrow : W.receipts.row? key = some row)
    (hfinal : row.status = .replied ∨ row.status = .failed → status = row.status)
    (hspares : ∀ t ∈ W.ticks, Spares t key row (ReceiptTables.updatedRow status fields now row)) :
    Inv ({ W with receipts := W.receipts.update key status fields now }.reach key status) := by
  refine h.changeRow (ReceiptTables.changes_update _ key status fields now) hrow (fun p hp ↦ ?_)
    ⟨fun hdelivering ↦ ?_, fun hpending ↦ ?_, fun _ ↦ ?_⟩ hfinal (fun hreceived ↦ ?_) hspares
  · obtain rfl := List.mem_singleton.mp hp
    exact ⟨rfl, hstatus⟩
  · have heq : status = .delivering := hdelivering
    rcases heq ▸ hstatus with hno | hno <;> exact absurd hno (by decide)
  · have heq : status = .runStarted ∨ status = .delivering := hpending
    rcases hstatus with rfl | rfl <;> exact absurd heq (by decide)
  · exact List.mem_append_right _ (List.mem_singleton.mpr rfl)
  · have heq : status = .received := hreceived
    rcases heq ▸ hstatus with hno | hno <;> exact absurd hno (by decide)

theorem Inv.markRun (h : W.Inv) {key : DeliveryKey} (runId : JsString) (now : ℤ) {row : DeliveryRow}
    (hrow : W.receipts.row? key = some row) (hreceived : row.status = .received) :
    Inv { W with receipts := W.receipts.markRun key runId now } := by
  have hinv : Inv { W with
      receipts := W.receipts.markRun key runId now, finals := W.finals ++ [] } := by
    refine h.changeRow (ReceiptTables.changes_update W.receipts key .runStarted
      { runId := some runId } now) hrow nofun ⟨nofun, fun _ ↦ rfl, fun hfinal ↦ ?_⟩ ?_ nofun
      fun _ _ ↦ spares_received hreceived
    · exact hfinal.elim nofun nofun
    · rw [hreceived]
      exact fun hfinal ↦ hfinal.elim nofun nofun
  rw [List.append_nil] at hinv
  exact hinv

/-! ## Who has the lease -/

theorem isLeasedTo_iff {owner : JsString} {row : DeliveryRow} :
    ReceiptTables.isLeasedTo owner row = true ↔
      row.status = .delivering ∧ row.deliveryOwner = some owner := by
  rw [ReceiptTables.isLeasedTo, Bool.and_eq_true, decide_eq_true_iff, decide_eq_true_iff]

theorem isClaimable_iff {now : ℤ} {row : DeliveryRow} :
    ReceiptTables.isClaimable now row = true ↔ row.status = .runStarted ∨
      row.status = .delivering ∧ ∃ expiry ∈ row.leaseExpiresAt, expiry ≤ now := by
  rw [ReceiptTables.isClaimable, Bool.or_eq_true, Bool.and_eq_true, decide_eq_true_iff,
    decide_eq_true_iff, Option.any_eq_true]
  simp only [decide_eq_true_iff, Option.mem_def]

/-- The tick whose coordinator is named took the lease last. -/
theorem Inv.claimant_eq (h : W.Inv) {t : ReplyTick} (ht : t ∈ W.ticks) {key : DeliveryKey}
    (hflight : t.flight = some key) {row : DeliveryRow} (hrow : W.receipts.row? key = some row)
    (hleased : ReceiptTables.isLeasedTo t.owner row = true) :
    ∃ c ∈ W.claimant key, c.tick = t.id := by
  obtain ⟨hdelivering, howner⟩ := isLeasedTo_iff.mp hleased
  obtain ⟨c, hc, hcowner, -⟩ := (h.rows key row hrow).leased hdelivering
  exact ⟨c, hc, (h.ticks t ht).own key hflight c hc (Option.some.inj (hcowner.symm.trans howner))⟩

/-- No other tick minds what becomes of a receipt that is leased to the coordinator of the tick. -/
theorem Inv.spares_leased (h : W.Inv) {t : ReplyTick} (ht : t ∈ W.ticks) {key : DeliveryKey}
    (hflight : t.flight = some key) (hsends : t.sends = none) {row : DeliveryRow}
    (hleased : ReceiptTables.isLeasedTo t.owner row = true) (row' : DeliveryRow) :
    ∀ t' ∈ W.ticks, Spares t' key row row' := by
  obtain ⟨hdelivering, howner⟩ := isLeasedTo_iff.mp hleased
  intro t' ht'
  refine ⟨fun hsending hsent ↦ ?_, fun hreplied ↦ ?_⟩
  · have hne : t.id ≠ t'.id := by
      intro hid
      rw [← h.distinct t ht t' ht' hid, hsends] at hsending
      exact Option.some_ne_none _ hsending.symm
    have hother := h.apart t ht t' ht' hne key hflight (ReplyTick.flight_of_sends hsending)
    rcases hsent with ⟨hleased', -⟩ | hfailed
    · have howner' := (isLeasedTo_iff.mp hleased').2
      exact absurd (Option.some.inj (howner.symm.trans howner')) hother
    · exact absurd (hdelivering.symm.trans hfailed) (by decide)
  · exact absurd (hdelivering.symm.trans hreplied) (by decide)

/-- The tick that took the lease last writes over nobody. -/
theorem write_eq {t : ReplyTick} {key : DeliveryKey} {receipts : ReceiptTables}
    (h : ∃ c ∈ W.claimant key, c.tick = t.id) :
    W.write t key receipts = { W with receipts := receipts } := by
  obtain ⟨c, hc, hid⟩ := h
  have htick : (W.claimant key).map (·.tick) = some t.id := by
    rw [show W.claimant key = some c from hc, Option.map_some, hid]
  rw [write, if_neg fun hne ↦ hne.1 htick]

/-! ## Statements of a tick -/

/-- `markReply` and `markFailed` write about a receipt that is leased to the coordinator. -/
theorem Inv.conclude (h : W.Inv) {t : ReplyTick} (ht : t ∈ W.ticks) {key : DeliveryKey}
    (hflight : t.flight = some key) (hsends : t.sends = none) (hleased : W.Leased t key)
    {status : DeliveryStatus} (hstatus : status = .replied ∨ status = .failed)
    (fields : ReceiptTables.ReceiptFields) (now : ℤ) :
    Inv ((W.write t key (W.receipts.update key status fields now)).reach key status) := by
  obtain ⟨row, hrow, hleased⟩ := hleased
  rw [write_eq (h.claimant_eq ht hflight hrow hleased)]
  refine h.reach hstatus fields now hrow (fun hfinal ↦ ?_) (h.spares_leased ht hflight hsends hleased _)
  rw [(isLeasedTo_iff.mp hleased).1] at hfinal
  exact hfinal.elim nofun nofun

/-- The receipt cannot be answered. -/
theorem Inv.undeliverable (h : W.Inv) {key : DeliveryKey} {row : DeliveryRow}
    (hrow : W.receipts.row? key = some row) (hreplied : row.status ≠ .replied)
    (errorCode : JsString) (now : ℤ) :
    Inv ({ W with receipts := W.receipts.markFailed key errorCode now }.reach key .failed) := by
  refine h.reach (Or.inr rfl) _ now hrow (fun hfinal ↦ ?_) fun t _ ↦ ⟨fun _ _ ↦ Or.inr rfl, ?_⟩
  · exact (hfinal.resolve_left hreplied).symm
  · exact fun hno ↦ absurd hno hreplied

theorem Inv.clear (h : W.Inv) {t : ReplyTick} (ht : t ∈ W.ticks) {key : DeliveryKey}
    (hclears : t.clears = some key) : Inv (W.write t key (W.receipts.clearLease key)) := by
  obtain ⟨⟨row, hrow, hreplied⟩, hclaimant⟩ := (h.ticks t ht).clearing key hclears
  rw [write_eq hclaimant]
  have hold := h.rows key row hrow
  have hinv : Inv { W with
      receipts := W.receipts.clearLease key, finals := W.finals ++ [] } := by
    refine h.changeRow (ReceiptTables.changes_clearLease W.receipts key) hrow nofun
      ⟨fun hdelivering ↦ ?_, hold.hasRun, fun hended ↦ ?_⟩ (fun _ ↦ rfl) (fun hreceived ↦ ?_)
      fun t' _ ↦ ⟨fun _ hsent ↦ ?_, id⟩
    · exact absurd (hreplied.symm.trans hdelivering) (by decide)
    · exact List.mem_append_left _ (hold.ended hended)
    · exact absurd (hreplied.symm.trans hreceived) (by decide)
    · rcases hsent with ⟨hleased, -⟩ | hfailed
      · exact absurd (hreplied.symm.trans (isLeasedTo_iff.mp hleased).1) (by decide)
      · exact absurd (hreplied.symm.trans hfailed) (by decide)
  rw [List.append_nil] at hinv
  exact hinv

/-- **`releaseReply` asks for the lease**, and without it changes nothing. -/
theorem Inv.release (h : W.Inv) {t : ReplyTick} (ht : t ∈ W.ticks) {key : DeliveryKey}
    (hflight : t.flight = some key) (hsends : t.sends = none) (errorCode : JsString) (now : ℤ) :
    Inv (W.write t key (W.receipts.releaseReply key t.owner errorCode now).1) := by
  rcases ReceiptTables.releaseReply_cases h.keyed key t.owner errorCode now with
    ⟨row, hrow, hleased, hchanges⟩ | hsame
  · rw [write_eq (h.claimant_eq ht hflight hrow hleased)]
    have hinv : Inv { W with
        receipts := (W.receipts.releaseReply key t.owner errorCode now).1
        finals := W.finals ++ [] } := by
      refine h.changeRow hchanges hrow nofun ⟨nofun, fun _ ↦ ?_, fun hended ↦ hended.elim nofun nofun⟩
        (fun hfinal ↦ ?_) nofun (h.spares_leased ht hflight hsends hleased _)
      · exact (h.rows key row hrow).hasRun (Or.inr (isLeasedTo_iff.mp hleased).1)
      · rw [(isLeasedTo_iff.mp hleased).1] at hfinal
        exact hfinal.elim nofun nofun
    rw [List.append_nil] at hinv
    exact hinv
  · rw [write, if_neg fun hne ↦ hne.2 (by rw [hsame]), hsame]
    exact h

/-- **A tick takes a lease**, and nobody else is sending. -/
theorem Inv.lease (h : W.Inv) {t : ReplyTick} (ht : t ∈ W.ticks) {item : DeliveryRow}
    {items : List DeliveryRow} (hitems : t.items = item :: items) {text : JsString}
    (hstage : t.stage = .claiming text) (horderly : W.OrderlyAt t item.key) {row : DeliveryRow}
    (hrow : W.receipts.row? item.key = some row)
    (hclaimable : ReceiptTables.isClaimable t.start row = true) {receipts : ReceiptTables}
    (hchanges : ReceiptTables.Changes item.key
      (ReceiptTables.leasedRow t.owner t.start replyLeaseMs) W.receipts receipts) :
    Inv ({ W with receipts := receipts, claims := ⟨item.key, t.id, t.owner⟩ :: W.claims }.goOn
      { t with stage := .sending text }) := by
  rw [OrderlyAt, hstage] at horderly
  dsimp only at horderly
  have hfree : row.status ≠ .replied ∧ row.status ≠ .failed := by
    rcases isClaimable_iff.mp hclaimable with hstatus | ⟨hstatus, -⟩ <;> rw [hstatus] <;> decide
  have hidle : t.flight = none ∧ t.sends = none := by
    rw [ReplyTick.flight, ReplyTick.sends, hstage]
    exact ⟨rfl, rfl⟩
  have hne : ∀ t' ∈ W.ticks, t'.flight = some item.key → t'.id ≠ t.id := by
    intro t' ht' hflight hid
    rw [h.distinct t' ht' t ht hid, hidle.1] at hflight
    exact Option.some_ne_none _ hflight.symm
  -- Who is sending has the lease for longer than the tick knows.
  have hsilent : ∀ t' ∈ W.ticks, t'.sends ≠ some item.key := by
    intro t' ht' hsending
    have hflight := ReplyTick.flight_of_sends hsending
    have hlater := (horderly t' ht' (hne t' ht' hflight) hflight).2 hsending
    obtain ⟨row', hrow', hsent⟩ := (h.ticks t' ht').sending item.key hsending
    obtain rfl := Option.some.inj (hrow.symm.trans hrow')
    rcases hsent with ⟨hleased, hexpiry⟩ | hfailed
    · rcases isClaimable_iff.mp hclaimable with hstatus | ⟨-, expiry, hmem, hover⟩
      · exact absurd (hstatus.symm.trans (isLeasedTo_iff.mp hleased).1) (by decide)
      · obtain rfl := Option.some.inj (hexpiry.symm.trans hmem)
        exact absurd hover (not_le.mpr hlater)
    · exact hfree.2 hfailed
  have hnew : { W with claims := ⟨item.key, t.id, t.owner⟩ :: W.claims }.claimant item.key =
      some ⟨item.key, t.id, t.owner⟩ :=
    List.find?_cons_of_pos (decide_eq_true rfl)
  have hinv : Inv { W with
      receipts := receipts, claims := ⟨item.key, t.id, t.owner⟩ :: W.claims
      finals := W.finals ++ [] } := by
    refine h.change hchanges hrow (fun key' hkey ↦ ?_) nofun ⟨fun _ ↦ ?_, fun _ ↦ ?_, ?_⟩
      (fun hfinal ↦ ?_) nofun (fun t' ht' ↦ ⟨fun hsending ↦ ?_, fun hreplied ↦ ?_⟩)
      (fun t' ht' hflight c hc ↦ ?_) fun t' ht' hclears ↦ ?_
    · exact List.find?_cons_of_neg (by simpa using hkey.symm)
    · exact ⟨_, hnew, rfl, rfl⟩
    · refine (h.rows _ row hrow).hasRun ?_
      exact (isClaimable_iff.mp hclaimable).imp_right And.left
    · exact fun hended ↦ hended.elim nofun nofun
    · exact (hfinal.elim hfree.1 hfree.2).elim
    · exact absurd hsending (hsilent t' ht')
    · exact absurd hreplied hfree.1
    · obtain rfl := Option.some.inj (hnew.symm.trans hc)
      exact Or.inr (horderly t' ht' (hne t' ht' hflight) hflight).1.symm
    · obtain ⟨⟨row', hrow', hreplied⟩, -⟩ := (h.ticks t' ht').clearing item.key hclears
      exact absurd (Option.some.inj (hrow.symm.trans hrow') ▸ hreplied) hfree.1
  rw [List.append_nil] at hinv
  have hhead : ∀ {key}, { t with stage := .sending text }.flight = some key → key = item.key := by
    intro key hkey
    rw [ReplyTick.flight, hitems] at hkey
    exact (Option.some.inj hkey).symm
  refine hinv.goOn ht rfl ⟨(hinv.ticks t ht).items, ?_, ?_, ?_⟩ ?_ ?_
  · intro key hflight c hc _
    obtain rfl := hhead hflight
    obtain rfl := Option.some.inj (hnew.symm.trans hc)
    rfl
  · intro key hsending
    obtain rfl := hhead (ReplyTick.flight_of_sends hsending)
    refine ⟨ReceiptTables.leasedRow t.owner t.start replyLeaseMs row, ?_, Or.inl ⟨?_, rfl⟩⟩
    · show receipts.row? item.key = _
      rw [hchanges.row?, if_pos rfl, hrow, Option.map_some]
    · exact isLeasedTo_iff.mpr ⟨rfl, rfl⟩
  · exact fun key hkey ↦ absurd hkey (Option.some_ne_none key).symm
  · intro key hsending t' ht' _ hsending'
    obtain rfl := hhead (ReplyTick.flight_of_sends hsending)
    exact hsilent t' ht' hsending'
  · intro key hflight t' ht' hid hflight'
    obtain rfl := hhead hflight
    exact (horderly t' ht' hid hflight').1.symm

/-- A reply may be sent again. -/
theorem Inv.retry (h : W.Inv) {t : ReplyTick} (ht : t ∈ W.ticks) {key : DeliveryKey}
    (hsends : t.sends = some key) : Inv { W with retryable := W.retryable ++ [key] } := by
  refine ⟨h.keyed, h.begun, h.distinct, fun key row hrow ↦ ?_, h.finals, fun key' hkey ↦ ?_,
    fun t ht ↦ ?_, h.alone, h.apart, h.fenced⟩
  · exact ⟨(h.rows key row hrow).leased, (h.rows key row hrow).hasRun, (h.rows key row hrow).ended⟩
  · rcases List.mem_append.mp hkey with hold | hself
    · exact h.retried key' hold
    · obtain rfl := List.mem_singleton.mp hself
      obtain ⟨row, hrow, hsent⟩ := (h.ticks t ht).sending _ hsends
      refine ⟨row, hrow, fun hreceived ↦ ?_⟩
      rcases hsent with ⟨hleased, -⟩ | hfailed
      · exact absurd (hreceived.symm.trans (isLeasedTo_iff.mp hleased).1) (by decide)
      · exact absurd (hreceived.symm.trans hfailed) (by decide)
  · have hok := h.ticks t ht
    exact ⟨hok.items, hok.own, hok.sending, hok.clearing⟩

/-- A tick has sent its reply, or failed to. -/
theorem Inv.sent (h : W.Inv) {t : ReplyTick} (ht : t ∈ W.ticks) {item : DeliveryRow}
    {items : List DeliveryRow} (hitems : t.items = item :: items) {text : JsString}
    (hstage : t.stage = .sending text) (result : SendResult) :
    Inv (match result with
      | .sent externalId => W.goOn { t with stage := .marking externalId }
      | .rejected code true =>
        { W with retryable := W.retryable ++ [item.key] }.goOn { t with stage := .releasing code }
      | .rejected code false => W.goOn { t with stage := .failing code }
      | .threw => W.goOn { t with stage := .failing (js "delivery_failed") }) := by
  have hflight : t.flight = t.items.head?.map DeliveryRow.key := by
    rw [ReplyTick.flight, hstage]
  have hsends : t.sends = some item.key := by
    rw [ReplyTick.sends, hstage, hitems]
    rfl
  rcases result with externalId | ⟨code, _ | _⟩ | _
  · exact h.restage ht (.marking externalId) (fun _ hkey ↦ hflight.trans hkey) rfl nofun
  · exact h.restage ht (.failing code) (fun _ hkey ↦ hflight.trans hkey) rfl nofun
  · exact (h.retry ht hsends).restage ht (.releasing code) (fun _ hkey ↦ hflight.trans hkey) rfl nofun
  · exact h.restage ht (.failing _) (fun _ hkey ↦ hflight.trans hkey) rfl nofun

/-- **The next statement of a tick** keeps the invariant. -/
theorem Inv.perform (h : W.Inv) {t : ReplyTick} (ht : t ∈ W.ticks) {item : DeliveryRow}
    {items : List DeliveryRow} (hitems : t.items = item :: items) (e : ReplyEncounter)
    (horderly : W.OrderlyAt t item.key) : (W.perform t item e).Inv := by
  have hcase := horderly
  rw [OrderlyAt] at hcase
  rw [Replies.perform]
  rcases hstage : t.stage with _ | errorCode | text | text | externalId | _ | errorCode | errorCode <;>
    simp only [hstage] at hcase <;> dsimp only
  · -- The next stage is no flight.
    have hidle : ∀ stage, { t with stage := stage }.flight = none →
        { t with stage := stage }.sends = none → { t with stage := stage }.clears = none →
        (W.goOn { t with stage := stage }).Inv := by
      intro stage hflight hsends hclears
      refine h.restage ht stage (fun key hkey ↦ ?_) hsends fun key hkey ↦ ?_
      · exact absurd (hflight.symm.trans hkey) (Option.some_ne_none key).symm
      · exact absurd (hclears.symm.trans hkey) (Option.some_ne_none key).symm
    split_ifs
    · exact h.nextItem ht
    · rcases truthy e.reply.text with _ | text
      · exact hidle _ rfl rfl rfl
      · exact hidle (.claiming text) rfl rfl rfl
    · rcases truthy e.reply.text with _ | text
      · exact hidle _ rfl rfl rfl
      · exact hidle (.undeliverable _) rfl rfl rfl
  · obtain ⟨row, hrow⟩ := Option.isSome_iff_exists.mp
      ((h.ticks t ht).items item (hitems ▸ List.mem_cons_self))
    exact (h.undeliverable hrow (hcase row hrow) errorCode e.now).nextItem ht
  · rcases ReceiptTables.claimReply_cases h.keyed item.key t.owner t.start replyLeaseMs with
      ⟨row, receipts, hrow, hclaimable, hgranted, hchanges⟩ | hrefused
    · rw [hgranted]
      exact h.lease ht hitems hstage horderly hrow hclaimable hchanges
    · rw [hrefused]
      exact h.nextItem ht
  · exact h.sent ht hitems hstage e.result
  all_goals
    have hflight : t.flight = some item.key := by
      rw [ReplyTick.flight, hstage, hitems]
      rfl
    have hsends : t.sends = none := by rw [ReplyTick.sends, hstage]
  · have hconcluded := h.conclude ht hflight hsends hcase (Or.inl rfl)
      { replyExternalId := some externalId } e.now
    obtain ⟨row, hrow, hleased⟩ := hcase
    refine hconcluded.restage ht .clearing (fun key hkey ↦ ?_) rfl fun key hkey ↦ ?_
    · rw [ReplyTick.flight, hstage]
      exact hkey
    · obtain rfl : item.key = key := by
        rw [ReplyTick.clears, hitems] at hkey
        exact Option.some.inj hkey
      refine ⟨⟨ReceiptTables.updatedRow .replied { replyExternalId := some externalId } e.now row, ?_,
        rfl⟩, h.claimant_eq ht hflight hrow hleased⟩
      show (W.receipts.update item.key .replied _ e.now).row? item.key = _
      rw [ReceiptTables.row?_markOf, if_pos rfl, show W.receipts.row? item.key = some row from hrow,
        Option.map_some]
  · refine (h.clear ht ?_).nextItem ht
    rw [ReplyTick.clears, hstage, hitems]
    rfl
  · exact (h.release ht hflight hsends errorCode e.now).nextItem ht
  · exact (h.conclude ht hflight hsends hcase (Or.inr rfl) _ e.now).nextItem ht

theorem Inv.throws (h : W.Inv) {t : ReplyTick} (ht : t ∈ W.ticks) : (W.throws t).Inv := by
  rw [Replies.throws]
  have hfailing : t.flight = t.items.head?.map DeliveryRow.key →
      (W.goOn { t with stage := .failing (js "delivery_failed") }).Inv := fun hflight ↦
    h.restage ht (.failing _) (fun _ hkey ↦ hflight.trans hkey) rfl nofun
  split
  · rename_i hstage
    exact hfailing (by rw [ReplyTick.flight, hstage])
  · rename_i hstage
    exact hfailing (by rw [ReplyTick.flight, hstage])
  · rename_i hstage
    exact hfailing (by rw [ReplyTick.flight, hstage])
  · exact h.leave t

theorem Inv.step (h : W.Inv) (a : ReplyAction) (ha : W.Orderly a) : (W.step a).Inv := by
  rcases a with ⟨envelope, now⟩ | ⟨key, runId, now⟩ | ⟨key, errorCode, now⟩ |
    ⟨owner, connectors, now⟩ | ⟨tick, e⟩
  · exact h.receive envelope now
  · rw [Replies.step]
    split_ifs with hreceived
    · obtain ⟨row, hrow, hstatus⟩ := hreceived
      exact h.markRun runId now hrow hstatus
    · exact h
  · rw [Replies.step]
    split_ifs with hreceived
    · obtain ⟨row, hrow, hstatus⟩ := hreceived
      refine h.undeliverable hrow ?_ errorCode now
      rw [hstatus]
      decide
    · exact h
  · exact h.startTick owner connectors now
  · rw [Replies.step]
    rcases hlookup : Table.lookup ReplyTick.id tick W.ticks with _ | t
    · exact h
    · have ht := Table.mem_of_lookup hlookup
      dsimp only
      rw [Replies.advance]
      rcases hitems : t.items with _ | ⟨item, items⟩
      · exact h.leave t
      · rcases houtcome : e.outcome
        · exact h.perform ht hitems e (ha houtcome t hlookup item (by rw [hitems]; rfl))
        · exact h.throws ht
        · exact h.leave t

/-! ## Runs of the coordinators -/

/-- A receipt with a run that is no final one is sent again. -/
theorem Inv.pending (h : W.Inv) {key : DeliveryKey} {row : DeliveryRow}
    (hrow : W.receipts.row? key = some row) (hreceived : row.status ≠ .received) :
    row.Pending ∨ (key, row.status) ∈ W.finals := by
  have hok := h.rows key row hrow
  rcases hstatus : row.status
  · exact absurd hstatus hreceived
  · refine Or.inl ⟨hok.hasRun (Or.inl hstatus), Or.inl hstatus, 0, fun now _ ↦ ?_⟩
    exact isClaimable_iff.mpr (Or.inl hstatus)
  · obtain ⟨c, -, -, hexpiry⟩ := hok.leased hstatus
    obtain ⟨expiry, hexpiry⟩ := Option.isSome_iff_exists.mp hexpiry
    refine Or.inl ⟨hok.hasRun (Or.inr hstatus), Or.inr hstatus, expiry, fun now hle ↦ ?_⟩
    exact isClaimable_iff.mpr (Or.inr ⟨hstatus, expiry, hexpiry, hle⟩)
  · exact Or.inr (hstatus ▸ hok.ended (Or.inl hstatus))
  · exact Or.inr (hstatus ▸ hok.ended (Or.inr hstatus))

/-- **Orderly replies are delivered**: by one tick at a time, to an end that stays, and as often as it
takes. -/
theorem replies_delivered (actions : List ReplyAction)
    (hactions : Throughout Replies.step Orderly {} actions) : (run {} actions).Delivers := by
  have h : (run {} actions).Inv :=
    Throughout.induction (fun _ a hinv ha ↦ hinv.step a ha) inv_init hactions
  refine ⟨fun t ht t' ht' heq hsends ↦ ?_, fun f hf ↦ (h.finals f hf).2, h.fenced, fun key hkey ↦ ?_⟩
  · by_contra hne
    obtain ⟨key, hkey⟩ := Option.isSome_iff_exists.mp hsends
    exact h.alone t ht t' ht' hne key hkey (heq ▸ hkey)
  · obtain ⟨row, hrow, hreceived⟩ := h.retried key hkey
    exact ⟨row, hrow, h.pending hrow hreceived⟩

instance (t : ReplyTick) (key : DeliveryKey) : Decidable (W.Leased t key) :=
  inferInstanceAs (Decidable (∃ row ∈ W.receipts.row? key,
    ReceiptTables.isLeasedTo t.owner row = true))

instance (t : ReplyTick) (key : DeliveryKey) : Decidable (W.OrderlyAt t key) :=
  match h : t.stage with
  | .undeliverable _ =>
    decidable_of_iff (∀ row ∈ W.receipts.row? key, row.status ≠ .replied) (by rw [OrderlyAt, h])
  | .claiming _ =>
    decidable_of_iff (∀ t' ∈ W.ticks, t'.id ≠ t.id → t'.flight = some key →
      t'.owner ≠ t.owner ∧ (t'.sends = some key → t.start < t'.start + replyLeaseMs))
      (by rw [OrderlyAt, h])
  | .marking _ => decidable_of_iff (W.Leased t key) (by rw [OrderlyAt, h])
  | .failing _ => decidable_of_iff (W.Leased t key) (by rw [OrderlyAt, h])
  | .asking => decidable_of_iff True (by rw [OrderlyAt, h])
  | .sending _ => decidable_of_iff True (by rw [OrderlyAt, h])
  | .clearing => decidable_of_iff True (by rw [OrderlyAt, h])
  | .releasing _ => decidable_of_iff True (by rw [OrderlyAt, h])

instance (a : ReplyAction) : Decidable (W.Orderly a) :=
  match a with
  | .next tick e => inferInstanceAs (Decidable (e.outcome = .succeeds →
      ∀ t ∈ Table.lookup ReplyTick.id tick W.ticks, ∀ item ∈ t.items.head?, W.OrderlyAt t item.key))
  | .receive _ _ => inferInstanceAs (Decidable True)
  | .markRun _ _ _ => inferInstanceAs (Decidable True)
  | .markFailed _ _ _ => inferInstanceAs (Decidable True)
  | .tick _ _ _ => inferInstanceAs (Decidable True)

/-! ## Three replies -/

/-- A message of one sender. -/
def message (deliveryId : JsString) : InboundEnvelope where
  connectorId := js "webhook"
  accountId := js "primary"
  deliveryId := deliveryId
  senderExternalId := js "ada"
  text := js "hello"
  receivedAt := deliveryId

/-- A message comes in, and its run is written. -/
def received (deliveryId : JsString) : List ReplyAction :=
  [.receive (message deliveryId) 0, .markRun (message deliveryId).key deliveryId 0]

/-- A tick asks for the reply of a receipt, takes its lease, and calls `send`. -/
def sending (tick : ℕ) : List ReplyAction :=
  [.next tick { reply := ⟨true, some (js "done"), none⟩ }, .next tick {}]

/-- `send` returns, and the receipt is marked. -/
def sentAt (tick : ℕ) (now : ℤ) : List ReplyAction :=
  [.next tick { now := now, result := .sent (js "42") }, .next tick { now := now },
    .next tick { now := now }]

/-- Three replies are pending, and a tick sends two of them, for fifteen seconds each. -/
def thirtySeconds : List ReplyAction :=
  received (js "1") ++ received (js "2") ++ received (js "3") ++ [.tick (js "a") [js "webhook"] 0] ++
    sending 0 ++ sentAt 0 15000 ++ sending 0 ++ sentAt 0 30000

theorem replies_delivered_thirtySeconds :
    (run {} (thirtySeconds ++ sending 0 ++ sentAt 0 45000)).Delivers :=
  replies_delivered _ (by decide +kernel)

/-- The lease of the third reply is over when it is taken, and another coordinator takes it while the
reply is sent. -/
theorem not_delivers_expired :
    ¬(run {} (thirtySeconds ++ sending 0 ++ [.tick (js "b") [js "webhook"] 30000] ++
      sending 1)).Delivers := by
  intro h
  have hshared : ∃ t ∈ (run {} (thirtySeconds ++ sending 0 ++
      [.tick (js "b") [js "webhook"] 30000] ++ sending 1)).ticks,
      ∃ t' ∈ (run {} (thirtySeconds ++ sending 0 ++
        [.tick (js "b") [js "webhook"] 30000] ++ sending 1)).ticks,
      t.sends = t'.sends ∧ t.sends.isSome ∧ t.id ≠ t'.id := by
    decide +kernel
  obtain ⟨t, ht, t', ht', heq, hsends, hne⟩ := hshared
  exact hne (h.alone t ht t' ht' heq hsends)

end Replies

end LiteHarness.Integrations
