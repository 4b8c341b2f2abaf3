import LiteHarness.Manager.ProviderConnections
import LiteHarness.Storage.Changes

/-!
# Runs of the provider connections

The service is sound in every state that a run reaches whose steps are orderly. The invariant ties a
secret to the row it was written for as long as that row is there, and to the request that wrote it
as long as that request is in progress.
-/

namespace LiteHarness

open Foundation Foundation.Eff

namespace ConnectionService

variable {U : Uuids} {s : ConnectionService}

/-! ## The invariant -/

/-- What the unique key of a row is made of. -/
def rowKey (c : ProviderConnectionRow) : ResourceOwner × JsString := (c.owner, c.id)

/-- The login in progress has stored its secret under the profile. -/
def HasStored (s : ConnectionService) (profile : JsString) : Prop :=
  ∃ r ∈ s.inProgress, r.call ≠ .delete ∧ r.effected = true ∧
    r.connection.credentialProfileId = profile

/-- A stored secret is that of a login in progress, or that of the last login that was answered. -/
def Written (s : ConnectionService) (profile : JsString) (stored : StoredSecret) : Prop :=
  (∃ r ∈ s.inProgress, r.number = stored.writer ∧ r.call = .set stored.secret ∧
      r.effected = true ∧ r.connection.credentialProfileId = profile) ∨
    (∀ r ∈ s.inProgress, r.number ≠ stored.writer) ∧ s.lastLogin profile = some stored.secret

/-- The invariant of an orderly run. -/
structure Inv (U : Uuids) (s : ConnectionService) : Prop where
  keys : (s.store.connections.map rowKey).Nodup
  profiles : (s.store.connections.map ProviderConnectionRow.credentialProfileId).Nodup
  drawnRows : ∀ c ∈ s.store.connections, ∃ k < s.drawn,
    c.credentialProfileId = credentialProfileId U k
  drawnRequests : ∀ r ∈ s.inProgress, ∃ k < s.drawn,
    r.connection.credentialProfileId = credentialProfileId U k
  numbers : (s.inProgress.map ConnectionRequest.number).Nodup
  numbered : ∀ r ∈ s.inProgress, r.number < s.requests
  same : ∀ r ∈ s.inProgress, ∀ c ∈ s.store.connections,
    c.credentialProfileId = r.connection.credentialProfileId →
      rowKey c = rowKey r.connection ∧ c.internalId = r.connection.internalId
  owned : ∀ profile, ∀ stored ∈ s.secrets profile, ∃ c ∈ s.store.connections,
    c.credentialProfileId = profile ∧ c.internalId = stored.internalId
  removed : ∀ profile, s.Removed profile → s.secrets profile = none
  present : ∀ c ∈ s.store.connections, c.status = .ready ∨ s.HasStored c.credentialProfileId →
    s.secrets c.credentialProfileId ≠ none ∨ s.Removed c.credentialProfileId
  writers : ∀ profile, ∀ stored ∈ s.secrets profile, stored.writer < s.requests
  written : ∀ profile, ∀ stored ∈ s.secrets profile, s.Written profile stored
  removals : ∀ r ∈ s.removals, r.1 = r.2

theorem inv_init : Inv U {} where
  keys := List.nodup_nil
  profiles := List.nodup_nil
  drawnRows _ h := absurd h List.not_mem_nil
  drawnRequests _ h := absurd h List.not_mem_nil
  numbers := List.nodup_nil
  numbered _ h := absurd h List.not_mem_nil
  same _ h := absurd h List.not_mem_nil
  owned _ _ h := absurd h (Option.not_mem_none _)
  removed _ _ := rfl
  present _ h := absurd h List.not_mem_nil
  writers _ _ h := absurd h (Option.not_mem_none _)
  written _ _ h := absurd h (Option.not_mem_none _)
  removals _ h := absurd h List.not_mem_nil

theorem Inv.eq_of_profile (h : Inv U s) {c c' : ProviderConnectionRow}
    (hc : c ∈ s.store.connections) (hc' : c' ∈ s.store.connections)
    (heq : c.credentialProfileId = c'.credentialProfileId) : c = c' :=
  List.inj_on_of_nodup_map h.profiles hc hc' heq

theorem Inv.eq_of_number (h : Inv U s) {r r' : ConnectionRequest} (hr : r ∈ s.inProgress)
    (hr' : r' ∈ s.inProgress) (heq : r.number = r'.number) : r = r' :=
  List.inj_on_of_nodup_map h.numbers hr hr' heq

/-- The row under a key is the one a query finds. -/
theorem Inv.connection_of_mem (h : Inv U s) {c : ProviderConnectionRow}
    (hc : c ∈ s.store.connections) : s.store.connection? c.owner c.id = some c :=
  Table.lookup_of_mem h.keys hc

theorem Inv.sound (h : Inv U s) : Sound s where
  ready hidle c hc hready := by
    refine (h.present c hc (Or.inl hready)).resolve_right ?_
    rintro ⟨r, hr, -⟩
    rw [hidle] at hr
    exact absurd hr List.not_mem_nil
  owned _ profile hstored := by
    obtain ⟨stored, hstored⟩ := Option.ne_none_iff_exists'.mp hstored
    obtain ⟨c, hc, hprofile, -⟩ := h.owned profile stored hstored
    exact ⟨c, hc, hprofile⟩
  last hidle profile stored hstored := by
    rcases h.written profile stored hstored with ⟨r, hr, -⟩ | ⟨-, hlast⟩
    · rw [hidle] at hr
      exact absurd hr List.not_mem_nil
    · exact hlast
  own c hc stored hstored := by
    obtain ⟨c', hc', hprofile, hid⟩ := h.owned _ stored hstored
    rw [← hid, h.eq_of_profile hc' hc hprofile]
  removals := h.removals

/-! ## Creating a connection -/

theorem credentialProfileId_inj {j k : ℕ}
    (h : credentialProfileId U j = credentialProfileId U k) : j = k :=
  U.uuid_injective (List.append_cancel_left h)

/-- An insert either fails and changes nothing, or finds the key free and appends the row. -/
theorem createProviderConnection_cases (internalId : JsString) (record : ProviderConnectionRecord)
    (S : Store) :
    (∃ e, (Store.createProviderConnection internalId record).run S = (.error e, S)) ∨
      S.connection? record.owner record.id = none ∧
        (Store.createProviderConnection internalId record).run S = (.ok ⟨⟩, { S with
          connections := S.connections ++
            [{ internalId, id := record.id, owner := record.owner, providerId := record.providerId
               credentialProfileId := record.credentialProfileId, modelIds := record.modelIds
               status := record.status, lastErrorCode := record.lastErrorCode
               createdAt := record.createdAt, updatedAt := record.updatedAt }] }) := by
  rcases hrun : (Store.createProviderConnection internalId record).run S with ⟨e | u, S'⟩
  · have hatomic : Atomic (Store.createProviderConnection internalId record) :=
      ReadOnly.get.bind_atomic fun S ↦ Store.require_bind_atomic fun _ ↦
        Store.require_bind_atomic fun _ ↦ Store.require_bind_atomic fun _ ↦
          (Returns.modify _).atomic
    rw [hatomic S e S' hrun]
    exact Or.inl ⟨e, rfl⟩
  · simp only [Store.createProviderConnection, run_get_bind, Store.require_bind_eq_ok_iff,
      modify_eq_ok_iff] at hrun
    obtain ⟨-, hfree, -, rfl⟩ := hrun
    exact Or.inr ⟨hfree, rfl⟩

/-- The invariant does not speak of answers. -/
theorem Inv.answer (h : Inv U s) (number : ℕ) (a : ConnectionAnswer) :
    Inv U (s.answer number a) := by
  obtain ⟨h₁, h₂, h₃, h₄, h₅, h₆, h₇, h₈, h₉, h₁₀, h₁₁, h₁₂, h₁₃⟩ := h
  exact ⟨h₁, h₂, h₃, h₄, h₅, h₆, h₇, h₈, h₉, h₁₀, h₁₁, h₁₂, h₁₃⟩

/-- More identifiers are drawn, and more requests taken in. -/
theorem Inv.mono (h : Inv U s) (drawn requests : ℕ) (hdrawn : s.drawn ≤ drawn)
    (hrequests : s.requests ≤ requests) : Inv U { s with drawn, requests } where
  keys := h.keys
  profiles := h.profiles
  drawnRows c hc := by
    obtain ⟨k, hk, hprofile⟩ := h.drawnRows c hc
    exact ⟨k, hk.trans_le hdrawn, hprofile⟩
  drawnRequests r hr := by
    obtain ⟨k, hk, hprofile⟩ := h.drawnRequests r hr
    exact ⟨k, hk.trans_le hdrawn, hprofile⟩
  numbers := h.numbers
  numbered r hr := (h.numbered r hr).trans_le hrequests
  same := h.same
  owned := h.owned
  removed := h.removed
  present := h.present
  writers profile stored hstored := (h.writers profile stored hstored).trans_le hrequests
  written := h.written
  removals := h.removals

/-- A row with a fresh profile is added. -/
theorem Inv.addRow (h : Inv U s) {c : ProviderConnectionRow} {k : ℕ} (hk : s.drawn ≤ k)
    (hprofile : c.credentialProfileId = credentialProfileId U k) (hstatus : c.status ≠ .ready)
    (hfree : s.store.connection? c.owner c.id = none) :
    Inv U { s with
      store := { s.store with connections := s.store.connections ++ [c] }
      drawn := k + 1 } := by
  have hnew : ∀ j < s.drawn, credentialProfileId U j ≠ c.credentialProfileId := by
    intro j hj heq
    have := credentialProfileId_inj (heq.trans hprofile)
    omega
  have hrow : ∀ c' ∈ s.store.connections, c'.credentialProfileId ≠ c.credentialProfileId := by
    intro c' hc'
    obtain ⟨j, hj, heq⟩ := h.drawnRows c' hc'
    rw [heq]
    exact hnew j hj
  have hrequest : ∀ r ∈ s.inProgress,
      r.connection.credentialProfileId ≠ c.credentialProfileId := by
    intro r hr
    obtain ⟨j, hj, heq⟩ := h.drawnRequests r hr
    rw [heq]
    exact hnew j hj
  have hmem {c' : ProviderConnectionRow} (hc' : c' ∈ s.store.connections ++ [c]) :
      c' ∈ s.store.connections ∨ c' = c :=
    (List.mem_append.mp hc').imp_right List.mem_singleton.mp
  refine ⟨?_, ?_, ?_, ?_, h.numbers, h.numbered, ?_, ?_, h.removed, ?_, h.writers, h.written,
    h.removals⟩
  · rw [List.map_append]
    refine h.keys.append (List.nodup_singleton _) ?_
    rw [List.map_singleton, List.disjoint_singleton]
    intro hkey
    obtain ⟨c', hc', heq⟩ := List.mem_map.mp hkey
    exact Table.lookup_eq_none_iff.mp hfree c' hc' heq
  · rw [List.map_append]
    refine h.profiles.append (List.nodup_singleton _) ?_
    rw [List.map_singleton, List.disjoint_singleton]
    intro hkey
    obtain ⟨c', hc', heq⟩ := List.mem_map.mp hkey
    exact hrow c' hc' heq
  · intro c' hc'
    rcases hmem hc' with hc' | rfl
    · obtain ⟨j, hj, heq⟩ := h.drawnRows c' hc'
      exact ⟨j, (hj.trans_le hk).trans_le (Nat.le_succ k), heq⟩
    · exact ⟨k, Nat.lt_succ_self k, hprofile⟩
  · intro r hr
    obtain ⟨j, hj, heq⟩ := h.drawnRequests r hr
    exact ⟨j, (hj.trans_le hk).trans_le (Nat.le_succ k), heq⟩
  · intro r hr c' hc' heq
    rcases hmem hc' with hc' | rfl
    · exact h.same r hr c' hc' heq
    · exact absurd heq.symm (hrequest r hr)
  · intro profile stored hstored
    obtain ⟨c', hc', hfound⟩ := h.owned profile stored hstored
    exact ⟨c', List.mem_append_left _ hc', hfound⟩
  · intro c' hc' hready
    rcases hmem hc' with hc' | rfl
    · exact h.present c' hc' hready
    · rcases hready with hready | ⟨r, hr, -, -, heq⟩
      · exact absurd hready hstatus
      · exact absurd heq (hrequest r hr)

theorem Inv.create (h : Inv U s) (now : ℤ) (owner : ResourceOwner)
    (body : CreateProviderConnectionRequest) : Inv U (s.create U now owner body) := by
  rw [ConnectionService.create]
  rcases createProviderConnection_cases (js "pc_" ++ U.uuid (s.drawn + 2))
    { id := body.id.getD (js "pc_" ++ U.uuid s.drawn)
      owner
      providerId := body.providerId
      credentialProfileId := credentialProfileId U (s.drawn + 1)
      modelIds := body.modelIds.getD []
      status := .needsLogin
      createdAt := now
      updatedAt := now } s.store with ⟨e, hrun⟩ | ⟨hfree, hrun⟩
  · rw [hrun]
    exact (h.mono _ _ (Nat.le_add_right _ 3) (Nat.le_succ _)).answer _ _
  · rw [hrun]
    have hrow := h.addRow (k := s.drawn + 1) (Nat.le_succ _)
      (c := { internalId := js "pc_" ++ U.uuid (s.drawn + 2)
              id := body.id.getD (js "pc_" ++ U.uuid s.drawn)
              owner
              providerId := body.providerId
              credentialProfileId := credentialProfileId U (s.drawn + 1)
              modelIds := body.modelIds.getD []
              status := .needsLogin
              lastErrorCode := none
              createdAt := now
              updatedAt := now })
      rfl ProviderConnectionStatus.noConfusion hfree
    exact (hrow.mono (s.drawn + 3) _ (Nat.le_succ _) (Nat.le_succ _)).answer _ _

/-! ## Requests -/

theorem Inv.takeIn (h : Inv U s) (call : SecretCall) (owner : ResourceOwner)
    (connectionId : JsString) : Inv U (s.takeIn call owner connectionId) := by
  rw [ConnectionService.takeIn]
  rcases hfound : s.store.connection? owner connectionId with _ | c
  · exact (h.mono _ _ (Nat.le_refl s.drawn) (Nat.le_succ s.requests)).answer _ _
  have hc : c ∈ s.store.connections := Table.mem_of_lookup hfound
  have hmem {r : ConnectionRequest}
      (hr : r ∈ s.inProgress ++ [⟨s.requests, call, c, false⟩]) :
      r ∈ s.inProgress ∨ r = ⟨s.requests, call, c, false⟩ :=
    (List.mem_append.mp hr).imp_right List.mem_singleton.mp
  -- the new request has had no effect yet, so it counts for nothing
  have hold {r : ConnectionRequest}
      (hr : r ∈ s.inProgress ++ [⟨s.requests, call, c, false⟩]) (heffected : r.effected = true) :
      r ∈ s.inProgress := by
    rcases hmem hr with hr | rfl
    · exact hr
    · exact absurd heffected Bool.false_ne_true
  refine ⟨h.keys, h.profiles, h.drawnRows, ?_, ?_, ?_, ?_, h.owned, ?_, ?_, ?_, ?_, h.removals⟩
  · intro r hr
    rcases hmem hr with hr | rfl
    · exact h.drawnRequests r hr
    · exact h.drawnRows c hc
  · rw [List.map_append]
    refine h.numbers.append (List.nodup_singleton _) ?_
    rw [List.map_singleton, List.disjoint_singleton]
    intro hnumber
    obtain ⟨r, hr, heq⟩ := List.mem_map.mp hnumber
    exact (h.numbered r hr).ne heq
  · intro r hr
    rcases hmem hr with hr | rfl
    · exact Nat.lt_succ_of_lt (h.numbered r hr)
    · exact Nat.lt_succ_self _
  · intro r hr c' hc' heq
    rcases hmem hr with hr | rfl
    · exact h.same r hr c' hc' heq
    · rw [h.eq_of_profile hc' hc heq]
      exact ⟨rfl, rfl⟩
  · rintro profile ⟨r, hr, hdelete, heffected, heq⟩
    exact h.removed profile ⟨r, hold hr heffected, hdelete, heffected, heq⟩
  · intro c' hc' hready
    have hbefore : c'.status = .ready ∨ s.HasStored c'.credentialProfileId := by
      refine hready.imp_right ?_
      rintro ⟨r, hr, hset, heffected, heq⟩
      exact ⟨r, hold hr heffected, hset, heffected, heq⟩
    refine (h.present c' hc' hbefore).imp_right ?_
    rintro ⟨r, hr, hremoved⟩
    exact ⟨r, List.mem_append_left _ hr, hremoved⟩
  · intro profile stored hstored
    exact Nat.lt_succ_of_lt (h.writers profile stored hstored)
  · intro profile stored hstored
    rcases h.written profile stored hstored with ⟨r, hr, hwrote⟩ | ⟨hnone, hlast⟩
    · exact Or.inl ⟨r, List.mem_append_left _ hr, hwrote⟩
    · refine Or.inr ⟨fun r hr ↦ ?_, hlast⟩
      rcases hmem hr with hr | rfl
      · exact hnone r hr
      · exact (h.writers profile stored hstored).ne'

/-- The requests in progress when the call of one has taken effect. -/
theorem Inv.mem_effected (h : Inv U s) {request : ConnectionRequest}
    (hrequest : request ∈ s.inProgress) {r : ConnectionRequest} :
    r ∈ Table.update (fun r ↦ r.number = request.number)
        (fun r ↦ { r with effected := true }) s.inProgress ↔
      r ∈ s.inProgress ∧ r.number ≠ request.number ∨ r = { request with effected := true } := by
  rw [Table.mem_update]
  constructor
  · rintro ⟨r', hr', rfl⟩
    by_cases heq : r'.number = request.number
    · rw [h.eq_of_number hr' hrequest heq]
      exact Or.inr (if_pos (decide_eq_true rfl))
    · rw [if_neg (by simpa using heq)]
      exact Or.inl ⟨hr', heq⟩
  · rintro (⟨hr, hne⟩ | rfl)
    · exact ⟨r, hr, if_neg (by simpa using hne)⟩
    · exact ⟨request, hrequest, if_pos (decide_eq_true rfl)⟩

/-- What a call of the secret store does is seen under the profile of its request alone. -/
theorem Inv.effect (h : Inv U s) {request : ConnectionRequest} (hrequest : request ∈ s.inProgress)
    (heffected : request.effected = false) {secrets : JsString → Option StoredSecret}
    {removals : List (JsString × JsString)} {t : ConnectionService}
    (ht : t = { s with
      inProgress := Table.update (fun r ↦ r.number = request.number)
        (fun r ↦ { r with effected := true }) s.inProgress
      secrets, removals })
    (helse : ∀ profile ≠ request.connection.credentialProfileId,
      secrets profile = s.secrets profile)
    (howned : ∀ stored ∈ secrets request.connection.credentialProfileId,
      ∃ c ∈ s.store.connections,
        c.credentialProfileId = request.connection.credentialProfileId ∧
          c.internalId = stored.internalId)
    (hremoved : t.Removed request.connection.credentialProfileId →
      secrets request.connection.credentialProfileId = none)
    (hpresent : secrets request.connection.credentialProfileId ≠ none ∨
      t.Removed request.connection.credentialProfileId)
    (hwriters : ∀ stored ∈ secrets request.connection.credentialProfileId,
      stored.writer < s.requests)
    (hwritten : ∀ stored ∈ secrets request.connection.credentialProfileId,
      t.Written request.connection.credentialProfileId stored)
    (hremovals : ∀ r ∈ removals, r.1 = r.2) : Inv U t := by
  subst ht
  have hmem {r : ConnectionRequest} := h.mem_effected hrequest (r := r)
  -- a request that has had its effect before is another one, and still there
  have hstill {r : ConnectionRequest} (hr : r ∈ s.inProgress) (hr' : r.effected = true) :
      r ∈ Table.update (fun r ↦ r.number = request.number)
        (fun r : ConnectionRequest ↦ { r with effected := true }) s.inProgress := by
    refine hmem.mpr (Or.inl ⟨hr, fun heq ↦ ?_⟩)
    rw [h.eq_of_number hr hrequest heq, heffected] at hr'
    exact absurd hr' Bool.false_ne_true
  have horigin {r : ConnectionRequest}
      (hr : r ∈ Table.update (fun r ↦ r.number = request.number)
        (fun r : ConnectionRequest ↦ { r with effected := true }) s.inProgress) :
      ∃ r' ∈ s.inProgress, r'.number = r.number ∧ r'.connection = r.connection := by
    rcases hmem.mp hr with ⟨hr, -⟩ | rfl
    · exact ⟨r, hr, rfl, rfl⟩
    · exact ⟨request, hrequest, rfl, rfl⟩
  refine ⟨h.keys, h.profiles, h.drawnRows, ?_, ?_, ?_, ?_, ?_, ?_, ?_, ?_, ?_, hremovals⟩
  · intro r hr
    obtain ⟨r', hr', -, hconnection⟩ := horigin hr
    exact hconnection ▸ h.drawnRequests r' hr'
  · rw [Table.map_update (f := fun r : ConnectionRequest ↦ { r with effected := true })
      (fun _ ↦ rfl) s.inProgress]
    exact h.numbers
  · intro r hr
    obtain ⟨r', hr', hnumber, -⟩ := horigin hr
    exact hnumber ▸ h.numbered r' hr'
  · intro r hr
    obtain ⟨r', hr', -, hconnection⟩ := horigin hr
    exact hconnection ▸ h.same r' hr'
  · intro profile stored hstored
    by_cases heq : profile = request.connection.credentialProfileId
    · exact heq ▸ howned stored (heq ▸ hstored)
    · exact h.owned profile stored (helse profile heq ▸ hstored)
  · intro profile hgone
    by_cases heq : profile = request.connection.credentialProfileId
    · exact heq ▸ hremoved (heq ▸ hgone)
    · obtain ⟨r, hr, hdelete, hr', hprofile⟩ := hgone
      refine (helse profile heq).trans ?_
      rcases hmem.mp hr with ⟨hr, -⟩ | rfl
      · exact h.removed profile ⟨r, hr, hdelete, hr', hprofile⟩
      · exact absurd hprofile.symm heq
  · intro c hc hready
    by_cases heq : c.credentialProfileId = request.connection.credentialProfileId
    · exact heq ▸ hpresent
    · have hbefore : c.status = .ready ∨ s.HasStored c.credentialProfileId := by
        refine hready.imp_right ?_
        rintro ⟨r, hr, hset, hr', hprofile⟩
        rcases hmem.mp hr with ⟨hr, -⟩ | rfl
        · exact ⟨r, hr, hset, hr', hprofile⟩
        · exact absurd hprofile.symm heq
      refine (h.present c hc hbefore).imp
        (fun hsome hnone ↦ hsome ((helse _ heq).symm.trans hnone)) ?_
      rintro ⟨r, hr, hdelete, hr', hprofile⟩
      exact ⟨r, hstill hr hr', hdelete, hr', hprofile⟩
  · intro profile stored hstored
    by_cases heq : profile = request.connection.credentialProfileId
    · exact hwriters stored (heq ▸ hstored)
    · exact h.writers profile stored (helse profile heq ▸ hstored)
  · intro profile stored hstored
    by_cases heq : profile = request.connection.credentialProfileId
    · exact heq ▸ hwritten stored (heq ▸ hstored)
    · rcases h.written profile stored (helse profile heq ▸ hstored) with
        ⟨r, hr, hnumber, hset, hr', hprofile⟩ | ⟨hnone, hlast⟩
      · exact Or.inl ⟨r, hstill hr hr', hnumber, hset, hr', hprofile⟩
      · refine Or.inr ⟨fun r hr ↦ ?_, hlast⟩
        obtain ⟨r', hr', hnumber, -⟩ := horigin hr
        exact hnumber ▸ hnone r' hr'

theorem Inv.takeEffect (h : Inv U s) {request : ConnectionRequest}
    (hrequest : request ∈ s.inProgress) (heffected : request.effected = false)
    (hstores : s.Stores request) : Inv U (s.takeEffect request) := by
  have hmem {r : ConnectionRequest} := h.mem_effected hrequest (r := r)
  rw [ConnectionService.takeEffect]
  rcases hcall : request.call with secret | _
  · obtain ⟨⟨c, hc, hprofile⟩, hnone⟩ := hstores (hcall ▸ SecretCall.noConfusion)
    have hself {stored : StoredSecret} (hstored : stored ∈ Function.update s.secrets
        request.connection.credentialProfileId
          (some ⟨secret, request.number, request.connection.internalId⟩)
        request.connection.credentialProfileId) :
        ⟨secret, request.number, request.connection.internalId⟩ = stored := by
      rwa [Function.update_self, Option.mem_some_iff] at hstored
    refine h.effect hrequest heffected rfl (fun _ hne ↦ Function.update_of_ne hne ..) ?_ ?_ ?_ ?_ ?_
      h.removals
    · intro stored hstored
      rw [← hself hstored]
      exact ⟨c, hc, hprofile, (h.same request hrequest c hc hprofile).2⟩
    · -- a deletion that has removed the secret would have done so before
      rintro ⟨r, hr, hdelete, hr', heq⟩
      rcases hmem.mp hr with ⟨hr, -⟩ | rfl
      · exact absurd ⟨r, hr, hdelete, hr', heq⟩ hnone
      · exact absurd (hcall.symm.trans hdelete) SecretCall.noConfusion
    · rw [Function.update_self]
      exact Or.inl (Option.some_ne_none _)
    · intro stored hstored
      rw [← hself hstored]
      exact h.numbered request hrequest
    · intro stored hstored
      rw [← hself hstored]
      exact Or.inl ⟨_, hmem.mpr (Or.inr rfl), rfl, hcall, rfl, rfl⟩
  · have hself (stored : StoredSecret) : stored ∉ Function.update s.secrets
        request.connection.credentialProfileId none request.connection.credentialProfileId := by
      rw [Function.update_self]
      exact Option.not_mem_none stored
    refine h.effect hrequest heffected rfl (fun _ hne ↦ Function.update_of_ne hne ..)
      (fun stored hstored ↦ absurd hstored (hself stored))
      (fun _ ↦ Function.update_self ..)
      (Or.inr ⟨_, hmem.mpr (Or.inr rfl), hcall, rfl, rfl⟩)
      (fun stored hstored ↦ absurd hstored (hself stored))
      (fun stored hstored ↦ absurd hstored (hself stored)) ?_
    intro r hr
    rcases List.mem_append.mp hr with hr | hr
    · exact h.removals r hr
    · obtain ⟨stored, hstored, rfl⟩ := List.mem_map.mp hr
      obtain ⟨c, hc, hprofile, hid⟩ := h.owned _ stored (Option.mem_toList.mp hstored)
      rw [← hid]
      exact (h.same request hrequest c hc hprofile).2.symm

/-- A request goes on and may change the rows. -/
theorem Inv.goOn (h : Inv U s) (request : ConnectionRequest)
    (rows : List ProviderConnectionRow) (lastLogin : JsString → Option JsString)
    {t : ConnectionService}
    (ht : t = { s with
      store := { s.store with connections := rows }
      inProgress := s.inProgress.filter fun r ↦ r.number ≠ request.number
      lastLogin })
    (hkeys : (rows.map rowKey).Nodup)
    (hprofiles : (rows.map ProviderConnectionRow.credentialProfileId).Nodup)
    (hrows : ∀ c ∈ rows, ∃ c' ∈ s.store.connections, rowKey c = rowKey c' ∧
      c.credentialProfileId = c'.credentialProfileId ∧ c.internalId = c'.internalId)
    (howned : ∀ profile, ∀ stored ∈ s.secrets profile, ∃ c ∈ rows,
      c.credentialProfileId = profile ∧ c.internalId = stored.internalId)
    (hpresent : ∀ c ∈ rows, c.status = .ready ∨ t.HasStored c.credentialProfileId →
      s.secrets c.credentialProfileId ≠ none ∨ t.Removed c.credentialProfileId)
    (hwritten : ∀ profile, ∀ stored ∈ s.secrets profile, t.Written profile stored) : Inv U t := by
  subst ht
  have hmem {r : ConnectionRequest}
      (hr : r ∈ s.inProgress.filter fun r ↦ r.number ≠ request.number) : r ∈ s.inProgress :=
    List.mem_of_mem_filter hr
  refine ⟨hkeys, hprofiles, ?_, fun r hr ↦ h.drawnRequests r (hmem hr),
    h.numbers.sublist (List.filter_sublist.map _), fun r hr ↦ h.numbered r (hmem hr), ?_, howned,
    ?_, hpresent, h.writers, hwritten, h.removals⟩
  · intro c hc
    obtain ⟨c', hc', -, hprofile, -⟩ := hrows c hc
    exact hprofile ▸ h.drawnRows c' hc'
  · intro r hr c hc heq
    obtain ⟨c', hc', hkey, hprofile, hid⟩ := hrows c hc
    rw [hkey, hid]
    exact h.same r (hmem hr) c' hc' (hprofile ▸ heq)
  · rintro profile ⟨r, hr, hremoved⟩
    exact h.removed profile ⟨r, hmem hr, hremoved⟩

/-- The rows when the status of one was set. -/
theorem mem_setStatus {now : ℤ} {c₀ : ProviderConnectionRow} {status : ProviderConnectionStatus}
    {lastErrorCode : Option JsString} {c : ProviderConnectionRow} :
    c ∈ (s.setStatus now c₀ status lastErrorCode).store.connections ↔
      (∃ c' ∈ s.store.connections, rowKey c' = rowKey c₀ ∧
        { c' with status, lastErrorCode, updatedAt := now } = c) ∨
      c ∈ s.store.connections ∧ rowKey c ≠ rowKey c₀ := by
  have hkey (c' : ProviderConnectionRow) :
      (c'.owner = c₀.owner ∧ c'.id = c₀.id) ↔ rowKey c' = rowKey c₀ := Prod.mk.injEq .. ▸ Iff.rfl
  refine Table.mem_update.trans ⟨?_, ?_⟩
  · rintro ⟨c', hc', rfl⟩
    by_cases heq : rowKey c' = rowKey c₀
    · rw [if_pos (decide_eq_true ((hkey c').mpr heq))]
      exact Or.inl ⟨c', hc', heq, rfl⟩
    · rw [if_neg (by simpa using mt (hkey c').mp heq)]
      exact Or.inr ⟨hc', heq⟩
  · rintro (⟨c', hc', heq, rfl⟩ | ⟨hc, hne⟩)
    · exact ⟨c', hc', if_pos (decide_eq_true ((hkey c').mpr heq))⟩
    · exact ⟨c, hc, if_neg (by simpa using mt (hkey c).mp hne)⟩

/-- A login goes on and sets the status of its row. -/
theorem Inv.goOn_login (h : Inv U s) {request : ConnectionRequest}
    (hrequest : request ∈ s.inProgress) (hcall : request.call ≠ .delete) {now : ℤ}
    {status : ProviderConnectionStatus} {lastErrorCode : Option JsString}
    {lastLogin : JsString → Option JsString} {t : ConnectionService}
    (ht : t = { (s.finish request.number).setStatus now request.connection status lastErrorCode with
      lastLogin })
    (hready : status = .ready → ∀ c ∈ s.store.connections,
      rowKey c = rowKey request.connection → s.HasStored c.credentialProfileId)
    (hwritten : ∀ profile, ∀ stored ∈ s.secrets profile, t.Written profile stored) : Inv U t := by
  have hstore : t.store =
      ((s.finish request.number).setStatus now request.connection status lastErrorCode).store :=
    ht ▸ rfl
  have hrows {c : ProviderConnectionRow} : c ∈ t.store.connections ↔
      (∃ c' ∈ s.store.connections, rowKey c' = rowKey request.connection ∧
        { c' with status, lastErrorCode, updatedAt := now } = c) ∨
      c ∈ s.store.connections ∧ rowKey c ≠ rowKey request.connection := by
    rw [hstore]
    exact mem_setStatus
  have hkeys : t.store.connections.map rowKey = s.store.connections.map rowKey :=
    ht ▸ Table.map_update (f := fun c : ProviderConnectionRow ↦
      { c with status, lastErrorCode, updatedAt := now }) (fun _ ↦ rfl) _
  have hprofiles : t.store.connections.map ProviderConnectionRow.credentialProfileId =
      s.store.connections.map ProviderConnectionRow.credentialProfileId :=
    ht ▸ Table.map_update (f := fun c : ProviderConnectionRow ↦
      { c with status, lastErrorCode, updatedAt := now }) (fun _ ↦ rfl) _
  have hinProgress : t.inProgress = s.inProgress.filter fun r ↦ r.number ≠ request.number :=
    ht ▸ rfl
  have hstored {profile : JsString} (hhas : t.HasStored profile) : s.HasStored profile := by
    obtain ⟨r, hr, hset⟩ := hhas
    exact ⟨r, List.mem_of_mem_filter (hinProgress ▸ hr), hset⟩
  have hremoved {profile : JsString} (hgone : s.Removed profile) : t.Removed profile := by
    obtain ⟨r, hr, hdelete, hr'⟩ := hgone
    refine ⟨r, ?_, hdelete, hr'⟩
    rw [hinProgress, List.mem_filter, decide_eq_true_iff]
    refine ⟨hr, fun heq ↦ hcall ?_⟩
    rw [← h.eq_of_number hr hrequest heq, hdelete]
  refine h.goOn request t.store.connections lastLogin
    (ht ▸ rfl) (hkeys ▸ h.keys) (hprofiles ▸ h.profiles) ?_ ?_ ?_ hwritten
  · intro c hc
    rcases hrows.mp hc with ⟨c', hc', -, rfl⟩ | ⟨hc, -⟩
    · exact ⟨c', hc', rfl, rfl, rfl⟩
    · exact ⟨c, hc, rfl, rfl, rfl⟩
  · intro profile stored hstored
    obtain ⟨c, hc, hprofile, hid⟩ := h.owned profile stored hstored
    by_cases heq : rowKey c = rowKey request.connection
    · exact ⟨_, hrows.mpr (Or.inl ⟨c, hc, heq, rfl⟩), hprofile, hid⟩
    · exact ⟨c, hrows.mpr (Or.inr ⟨hc, heq⟩), hprofile, hid⟩
  · intro c hc hc'
    rcases hrows.mp hc with ⟨c', hmem, heq, rfl⟩ | ⟨hmem, -⟩
    · have hhas : s.HasStored c'.credentialProfileId :=
        hc'.elim (fun hstatus ↦ hready hstatus c' hmem heq) hstored
      exact (h.present c' hmem (Or.inr hhas)).imp_right hremoved
    · exact (h.present c hmem (hc'.imp_right hstored)).imp_right hremoved

/-- What is written stays so when a request goes on that did not write it. -/
theorem Inv.written_of_ne (h : Inv U s) (request : ConnectionRequest) {t : ConnectionService}
    (hinProgress : t.inProgress = s.inProgress.filter fun r ↦ r.number ≠ request.number)
    {profile : JsString} {stored : StoredSecret} (hstored : stored ∈ s.secrets profile)
    (hne : ∀ r ∈ s.inProgress, r.call = .set stored.secret → r.effected = true →
      r.connection.credentialProfileId = profile → r.number ≠ request.number)
    (hlast : (∀ r ∈ s.inProgress, r.number ≠ stored.writer) →
      t.lastLogin profile = s.lastLogin profile) : t.Written profile stored := by
  rcases h.written profile stored hstored with ⟨r, hr, hnumber, hset, hr', heq⟩ | ⟨hnone, hwas⟩
  · refine Or.inl ⟨r, ?_, hnumber, hset, hr', heq⟩
    rw [hinProgress, List.mem_filter, decide_eq_true_iff]
    exact ⟨hr, hne r hr hset hr' heq⟩
  · refine Or.inr ⟨fun r hr ↦ hnone r ?_, (hlast hnone).trans hwas⟩
    exact List.mem_of_mem_filter (hinProgress ▸ hr)

theorem Inv.fail (h : Inv U s) {request : ConnectionRequest} (hrequest : request ∈ s.inProgress)
    (heffected : request.effected = false) (now : ℤ) (message : JsString) :
    Inv U (s.fail now request message) := by
  have hne {r : ConnectionRequest} (hr : r ∈ s.inProgress) (hr' : r.effected = true) :
      r.number ≠ request.number := by
    intro heq
    rw [h.eq_of_number hr hrequest heq, heffected] at hr'
    exact absurd hr' Bool.false_ne_true
  rw [ConnectionService.fail]
  rcases hcall : request.call with secret | _
  · refine Inv.answer ?_ _ _
    refine h.goOn_login hrequest (hcall ▸ SecretCall.noConfusion) rfl
      ProviderConnectionStatus.noConfusion ?_
    intro profile stored hstored
    exact h.written_of_ne request rfl hstored (fun r hr _ hr' _ ↦ hne hr hr')
      fun _ ↦ rfl
  · refine Inv.answer ?_ _ _
    refine h.goOn request _ _ rfl h.keys h.profiles
      (fun c hc ↦ ⟨c, hc, rfl, rfl, rfl⟩) h.owned ?_ ?_
    · intro c hc hready
      have hbefore : c.status = .ready ∨ s.HasStored c.credentialProfileId := by
        refine hready.imp_right ?_
        rintro ⟨r, hr, hset⟩
        exact ⟨r, List.mem_of_mem_filter hr, hset⟩
      refine (h.present c hc hbefore).imp_right ?_
      rintro ⟨r, hr, hdelete, hr', hprofile⟩
      exact ⟨r, List.mem_filter.mpr ⟨hr, decide_eq_true (hne hr hr')⟩, hdelete, hr', hprofile⟩
    · intro profile stored hstored
      exact h.written_of_ne request rfl hstored (fun r hr _ hr' _ ↦ hne hr hr')
        fun _ ↦ rfl

/-- The row that a request which goes on finds has the profile it has read. -/
theorem Inv.profile_of_goesOn (h : Inv U s) {request : ConnectionRequest}
    (hgoes : s.GoesOn request) {c : ProviderConnectionRow} (hc : c ∈ s.store.connections)
    (hkey : rowKey c = rowKey request.connection) :
    c.credentialProfileId = request.connection.credentialProfileId := by
  obtain ⟨howner, hid⟩ := Prod.mk.inj hkey
  exact hgoes.1 c (howner ▸ hid ▸ h.connection_of_mem hc)

theorem Inv.succeed_set (h : Inv U s) {request : ConnectionRequest} {secret : JsString}
    (hrequest : request ∈ s.inProgress) (hcall : request.call = .set secret)
    (heffected : request.effected = true) (hgoes : s.GoesOn request) (now : ℤ)
    {t : ConnectionService}
    (ht : t = { (s.finish request.number).setStatus now request.connection .ready none with
      lastLogin := Function.update s.lastLogin request.connection.credentialProfileId
        (some secret) }) : Inv U t := by
  have hinProgress : t.inProgress = s.inProgress.filter fun r ↦ r.number ≠ request.number :=
    ht ▸ rfl
  have hlast : t.lastLogin = Function.update s.lastLogin
      request.connection.credentialProfileId (some secret) := ht ▸ rfl
  have hset : request.call ≠ .delete := hcall ▸ SecretCall.noConfusion
  refine h.goOn_login hrequest hset ht ?_ ?_
  · intro _ c hc hkey
    exact ⟨request, hrequest, hset, heffected, (h.profile_of_goesOn hgoes hc hkey).symm⟩
  intro profile stored hstored
  by_cases heq : profile = request.connection.credentialProfileId
  · -- the writer is this request or another one that is still in progress
    subst heq
    obtain ⟨r', hr', hwriter⟩ := hgoes.2 hset stored hstored
    by_cases hself : stored.writer = request.number
    · refine Or.inr ⟨fun r hr ↦ ?_, ?_⟩
      · rw [hinProgress, List.mem_filter, decide_eq_true_iff] at hr
        exact hself ▸ hr.2
      · rcases h.written _ stored hstored with ⟨r, hr, hnumber, hset', -⟩ | ⟨hnone, -⟩
        · rw [h.eq_of_number hr hrequest (hnumber.trans hself), hcall] at hset'
          rw [hlast, Function.update_self, SecretCall.set.inj hset']
        · exact absurd hwriter (hnone r' hr')
    · rcases h.written _ stored hstored with ⟨r, hr, hnumber, hwrote⟩ | ⟨hnone, -⟩
      · refine Or.inl ⟨r, ?_, hnumber, hwrote⟩
        rw [hinProgress, List.mem_filter, decide_eq_true_iff]
        exact ⟨hr, hnumber ▸ hself⟩
      · exact absurd hwriter (hnone r' hr')
  · refine h.written_of_ne request hinProgress hstored ?_ fun _ ↦ ?_
    · intro r hr _ _ hprofile hnumber
      rw [h.eq_of_number hr hrequest hnumber] at hprofile
      exact heq hprofile.symm
    · rw [hlast, Function.update_of_ne heq]

theorem Inv.succeed_delete (h : Inv U s) {request : ConnectionRequest}
    (hrequest : request ∈ s.inProgress) (hcall : request.call = .delete)
    (heffected : request.effected = true) (hgoes : s.GoesOn request) {t : ConnectionService}
    (ht : t = { s.finish request.number with
      store := { s.store with
        connections := s.store.connections.filter fun c ↦
          ¬(c.owner = request.connection.owner ∧ c.id = request.connection.id) } }) : Inv U t := by
  have hkey {c : ProviderConnectionRow} :
      (c.owner = request.connection.owner ∧ c.id = request.connection.id) ↔
        rowKey c = rowKey request.connection := Prod.mk.injEq .. ▸ Iff.rfl
  have hinProgress : t.inProgress = s.inProgress.filter fun r ↦ r.number ≠ request.number :=
    ht ▸ rfl
  have hgone : s.Removed request.connection.credentialProfileId :=
    ⟨request, hrequest, hcall, heffected, rfl⟩
  refine h.goOn request _ _ ht (h.keys.sublist (List.filter_sublist.map _))
    (h.profiles.sublist (List.filter_sublist.map _))
    (fun c hc ↦ ⟨c, List.mem_of_mem_filter hc, rfl, rfl, rfl⟩) ?_ ?_ ?_
  · intro profile stored hstored
    obtain ⟨c, hc, hprofile, hid⟩ := h.owned profile stored hstored
    refine ⟨c, List.mem_filter.mpr ⟨hc, decide_eq_true fun heq ↦ ?_⟩, hprofile, hid⟩
    rw [← hprofile, h.profile_of_goesOn hgoes hc (hkey.mp heq), h.removed _ hgone] at hstored
    exact Option.not_mem_none _ hstored
  · intro c hc hready
    obtain ⟨hc, hne⟩ := List.mem_filter.mp hc
    have hbefore : c.status = .ready ∨ s.HasStored c.credentialProfileId := by
      refine hready.imp_right ?_
      rintro ⟨r, hr, hset⟩
      exact ⟨r, List.mem_of_mem_filter (hinProgress ▸ hr), hset⟩
    refine (h.present c hc hbefore).imp_right ?_
    rintro ⟨r, hr, hdelete, hr', hprofile⟩
    refine ⟨r, ?_, hdelete, hr', hprofile⟩
    rw [hinProgress, List.mem_filter, decide_eq_true_iff]
    refine ⟨hr, fun heq ↦ ?_⟩
    -- had this deletion removed the secret of the row, the row would have been its own
    rw [h.eq_of_number hr hrequest heq] at hprofile
    exact of_decide_eq_true hne (hkey.mpr (h.same request hrequest c hc hprofile.symm).1)
  · intro profile stored hstored
    refine h.written_of_ne request hinProgress hstored ?_ fun _ ↦ ht ▸ rfl
    intro r hr hset _ _ heq
    rw [h.eq_of_number hr hrequest heq, hcall] at hset
    exact SecretCall.noConfusion hset

theorem Inv.succeed (h : Inv U s) {request : ConnectionRequest} (hrequest : request ∈ s.inProgress)
    (heffected : request.effected = true) (hgoes : s.GoesOn request) (now : ℤ) :
    Inv U (s.succeed now request) := by
  rw [ConnectionService.succeed]
  rcases hcall : request.call with secret | _
  · exact (h.succeed_set hrequest hcall heffected hgoes now rfl).answer request.number .loggedIn
  · exact (h.succeed_delete hrequest hcall heffected hgoes rfl).answer request.number _

/-! ## Runs -/

/-- An orderly step keeps the invariant. -/
theorem Inv.step (h : Inv U s) {input : ConnectionInput} (horderly : s.Orderly input) :
    Inv U (s.step U input) := by
  have hmem {number : ℕ} {request : ConnectionRequest} (hfound : s.request? number = some request) :
      request ∈ s.inProgress := Table.mem_of_lookup hfound
  rcases input with ⟨now, owner, body⟩ | ⟨owner, connectionId, secret⟩ | ⟨owner, connectionId⟩ |
    number | ⟨now, number⟩ | ⟨now, number, message⟩
  · exact h.create now owner body
  · exact h.takeIn _ owner connectionId
  · exact h.takeIn _ owner connectionId
  · rw [ConnectionService.step]
    rcases hfound : s.request? number with _ | request
    · exact h
    · dsimp only
      by_cases heffected : request.effected = true
      · rw [if_pos heffected]
        exact h
      · rw [if_neg heffected]
        rw [Bool.not_eq_true] at heffected
        exact h.takeEffect (hmem hfound) heffected (horderly request hfound heffected)
  · rw [ConnectionService.step]
    rcases hfound : s.request? number with _ | request
    · exact h
    · dsimp only
      by_cases heffected : request.effected = true
      · rw [if_pos heffected]
        exact h.succeed (hmem hfound) heffected (horderly request hfound heffected) now
      · rw [if_neg heffected]
        exact h
  · rw [ConnectionService.step]
    rcases hfound : s.request? number with _ | request
    · exact h
    · exact h.fail (hmem hfound) (horderly request hfound) now message

/-- Identifiers that are numbers. -/
def numberedUuids : Uuids := ⟨decimal, decimal_injective⟩

/-- The owner of the runs below. -/
def someone : ResourceOwner := ⟨js "app", js "tenant", js "user"⟩

/-- Two connections, one login after another, and a deletion. -/
def oneAfterAnother : List ConnectionInput :=
  [.create 1 someone { id := some (js "a"), providerId := js "openai" },
   .create 2 someone { id := some (js "b"), providerId := js "openai" },
   .login someone (js "a") (js "first"), .takesEffect 2, .succeeds 3 2,
   .login someone (js "b") (js "second"), .login someone (js "a") (js "third"),
   .takesEffect 4, .takesEffect 3, .succeeds 4 4, .fails 5 9 (js "lost"), .succeeds 5 3,
   .delete someone (js "b"), .takesEffect 5, .succeeds 6 5,
   .delete someone (js "a"), .fails 7 6 (js "locked")]

/-- A deletion removes the secret before a login in progress stores it, and the row after. -/
def overtaken : List ConnectionInput :=
  [.create 1 someone { id := some (js "a"), providerId := js "openai" },
   .login someone (js "a") (js "secret"), .delete someone (js "a"),
   .takesEffect 2, .takesEffect 1, .succeeds 2 2, .succeeds 3 1]

/-- While a login is in progress its connection is deleted and one created under the same id. -/
def reused : List ConnectionInput :=
  [.create 1 someone { id := some (js "a"), providerId := js "openai" },
   .login someone (js "a") (js "secret"), .delete someone (js "a"), .takesEffect 2, .succeeds 2 2,
   .create 3 someone { id := some (js "a"), providerId := js "openai" },
   .takesEffect 1, .succeeds 4 1]

/-- Of two logins the one whose secret was overwritten is answered last. -/
def overwritten : List ConnectionInput :=
  [.create 1 someone { id := some (js "a"), providerId := js "openai" },
   .login someone (js "a") (js "first"), .login someone (js "a") (js "second"),
   .takesEffect 1, .takesEffect 2, .succeeds 2 2, .succeeds 3 1]

/-- A deletion fails after the secret is gone. -/
def halfDeleted : List ConnectionInput :=
  [.create 1 someone { id := some (js "a"), providerId := js "openai" },
   .login someone (js "a") (js "secret"), .takesEffect 1, .succeeds 2 1,
   .delete someone (js "a"), .takesEffect 2, .fails 3 2 (js "timeout")]

end ConnectionService

end LiteHarness
