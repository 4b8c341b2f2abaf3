import LiteHarness.Auth.AccessTokens

/-!
# What a token may do, over every history

An authority is whose resources a token acts on and what it may do to them; authorities are ordered
by narrowing. Every run token is narrower than the caller it was minted for. Whether it is also
narrower than the row its caller stands for *at that time*, and whether that row is still active
then, depends on the wait for the key: `Settles` says for which settlements it is.
-/

namespace LiteHarness

open Foundation

/-! ## Authorities -/

/-- What a token is good for. -/
structure Authority where
  owner : ResourceOwner
  scopes : List JsString
  agentId : Option JsString
  workspaceId : Option JsString
  budgetCeiling : Option RunBudgetOverrides

/-- A ceiling with every limit of another one, none of them higher. -/
def CeilingAtMost (ceiling bound : RunBudgetOverrides) : Prop :=
  ∀ f : BudgetField, ∀ limit ∈ f.given bound, ∃ value ∈ f.given ceiling, value ≤ limit

namespace Authority

/-- Narrowing: the same owner, no further scope, and every restriction kept. -/
structure AtMost (a b : Authority) : Prop where
  owner : a.owner = b.owner
  scopes : a.scopes ⊆ b.scopes
  agentId : ∀ agentId ∈ b.agentId, a.agentId = some agentId
  workspaceId : ∀ workspaceId ∈ b.workspaceId, a.workspaceId = some workspaceId
  budgetCeiling : ∀ bound ∈ b.budgetCeiling, ∃ ceiling ∈ a.budgetCeiling,
    CeilingAtMost ceiling bound

end Authority

def StoredAccessToken.authority (record : StoredAccessToken) : Authority where
  owner := record.owner
  scopes := record.scopes
  agentId := truthy record.agentId
  workspaceId := truthy record.workspaceId
  budgetCeiling := record.budgetCeiling

def InternalPrincipal.authority (principal : InternalPrincipal) : Authority where
  owner := principal.owner
  scopes := principal.scopes
  agentId := truthy principal.agentId
  workspaceId := truthy principal.workspaceId
  budgetCeiling := principal.budgetCeiling

@[simp] theorem truthy_truthy (s : Option JsString) : truthy (truthy s) = truthy s := by
  rcases s with _ | _ | _ <;> rfl

/-! ## A row, later -/

/-- A row as it is later: it may have been revoked, and the scopes of an app token may have changed;
in `strict` histories they have only grown. -/
structure Later (strict : Prop) (r r' : StoredAccessToken) : Prop where
  id_eq : r'.id = r.id
  lookupHash_eq : r'.lookupHash = r.lookupHash
  type_eq : r'.type = r.type
  owner_eq : r'.owner = r.owner
  agentId_eq : r'.agentId = r.agentId
  workspaceId_eq : r'.workspaceId = r.workspaceId
  budgetCeiling_eq : r'.budgetCeiling = r.budgetCeiling
  expiresAt_eq : r'.expiresAt = r.expiresAt
  revoked : r'.revokedAt = none → r.revokedAt = none
  scopes_run : r.type = .run → r'.scopes = r.scopes
  scopes : strict → r.scopes ⊆ r'.scopes

variable {strict : Prop}

theorem Later.refl (r : StoredAccessToken) : Later strict r r :=
  ⟨rfl, rfl, rfl, rfl, rfl, rfl, rfl, rfl, id, fun _ ↦ rfl, fun _ ↦ List.Subset.refl _⟩

theorem Later.trans {r r' r'' : StoredAccessToken} (h : Later strict r r')
    (h' : Later strict r' r'') : Later strict r r'' where
  id_eq := h'.id_eq.trans h.id_eq
  lookupHash_eq := h'.lookupHash_eq.trans h.lookupHash_eq
  type_eq := h'.type_eq.trans h.type_eq
  owner_eq := h'.owner_eq.trans h.owner_eq
  agentId_eq := h'.agentId_eq.trans h.agentId_eq
  workspaceId_eq := h'.workspaceId_eq.trans h.workspaceId_eq
  budgetCeiling_eq := h'.budgetCeiling_eq.trans h.budgetCeiling_eq
  expiresAt_eq := h'.expiresAt_eq.trans h.expiresAt_eq
  revoked hrevoked := h.revoked (h'.revoked hrevoked)
  scopes_run hrun := (h'.scopes_run (h.type_eq.trans hrun)).trans (h.scopes_run hrun)
  scopes hstrict := List.Subset.trans (h.scopes hstrict) (h'.scopes hstrict)

theorem Later.revokedAt (r : StoredAccessToken) (revokedAt : ℤ) :
    Later strict r { r with revokedAt := some revokedAt } :=
  ⟨rfl, rfl, rfl, rfl, rfl, rfl, rfl, rfl, nofun, fun _ ↦ rfl, fun _ ↦ List.Subset.refl _⟩

theorem Later.authority_eq {r r' : StoredAccessToken} (h : Later strict r r')
    (hrun : r.type = .run) : r'.authority = r.authority := by
  rw [StoredAccessToken.authority, StoredAccessToken.authority, h.owner_eq, h.scopes_run hrun,
    h.agentId_eq, h.workspaceId_eq, h.budgetCeiling_eq]

/-- An inactive token stays inactive. -/
theorem Later.isActive_eq_false {r r' : StoredAccessToken} (h : Later strict r r') {now now' : ℤ}
    (hnow : now ≤ now') (hr : isActive now r = false) : isActive now' r' = false := by
  rw [Bool.eq_false_iff] at hr ⊢
  intro hactive
  obtain ⟨hrevoked, hexpiry⟩ := isActive_eq_true_iff.mp hactive
  rw [h.expiresAt_eq] at hexpiry
  exact hr (isActive_eq_true_iff.mpr
    ⟨h.revoked hrevoked, fun expiry he ↦ hnow.trans_lt (hexpiry expiry he)⟩)

/-! ## What the table keeps -/

/-- The caller's token is an app token of the caller's owner; in `strict` histories it has all the
scopes the caller has. -/
def Backed (strict : Prop) (parent : InternalPrincipal) (S : TokenStore) : Prop :=
  ∃ app ∈ S.rows, parent.tokenId = some app.id ∧ app.type = .app ∧ app.owner = parent.owner ∧
    (strict → parent.scopes ⊆ app.scopes)

/-- A run token is no more than its caller, and administers nothing. -/
structure Granted (record : StoredAccessToken) (parent : InternalPrincipal) : Prop where
  atMost : record.authority.AtMost parent.authority
  runScopes : record.scopes ⊆ RUN_TOKEN_SCOPES

/-- An app token is bound to nothing but its owner. -/
structure Unbound (record : StoredAccessToken) : Prop where
  agentId : record.agentId = none
  workspaceId : record.workspaceId = none
  budgetCeiling : record.budgetCeiling = none

/-- The app tokens of an owner that have not been revoked. -/
def unrevokedApp (owner : ResourceOwner) (r : StoredAccessToken) : Bool :=
  r.type = .app ∧ r.owner = owner ∧ r.revokedAt = none

/-- The invariant of the table. -/
structure Registered (strict : Prop) (S : TokenStore) : Prop where
  ids : (S.rows.map StoredAccessToken.id).Nodup
  hashes : (S.rows.map StoredAccessToken.lookupHash).Nodup
  oneApp : ∀ owner, S.rows.countP (unrevokedApp owner) ≤ 1
  unbound : ∀ r ∈ S.rows, r.type = .app → Unbound r
  minted : ∀ r ∈ S.rows, r.type = .run → ∃ m ∈ S.mintings, m.tokenId = r.id ∧ Granted r m.parent
  backed : ∀ m ∈ S.mintings, Backed strict m.parent S

/-- The mintings on the authority of a token. -/
def TokenStore.mintingsOf (S : TokenStore) (id : JsString) : List Minting :=
  S.mintings.filter fun m ↦ m.parent.tokenId = some id

/-- What every change of the table keeps; in `strict` histories a token that is inactive mints
nothing any more. -/
structure Kept (strict : Prop) (S S' : TokenStore) : Prop where
  now : S.now ≤ S'.now
  rows : ∀ r ∈ S.rows, ∃ r' ∈ S'.rows, Later strict r r'
  mintings : strict → ∀ r ∈ S.rows, isActive S.now r = false →
    S'.mintingsOf r.id = S.mintingsOf r.id

theorem Kept.refl (S : TokenStore) : Kept strict S S :=
  ⟨le_rfl, fun r hr ↦ ⟨r, hr, .refl r⟩, fun _ _ _ _ ↦ rfl⟩

theorem Kept.trans {S T U : TokenStore} (h : Kept strict S T) (h' : Kept strict T U) :
    Kept strict S U where
  now := h.now.trans h'.now
  rows r hr := by
    obtain ⟨r', hr', hlater⟩ := h.rows r hr
    obtain ⟨r'', hr'', hlater'⟩ := h'.rows r' hr'
    exact ⟨r'', hr'', hlater.trans hlater'⟩
  mintings hstrict r hr hinactive := by
    obtain ⟨r', hr', hlater⟩ := h.rows r hr
    have hinactive' := hlater.isActive_eq_false h.now hinactive
    rw [← h.mintings hstrict r hr hinactive, ← hlater.id_eq]
    exact h'.mintings hstrict r' hr' hinactive'

theorem Backed.kept {parent : InternalPrincipal} {S S' : TokenStore} (h : Backed strict parent S)
    (hkept : Kept strict S S') : Backed strict parent S' := by
  obtain ⟨app, happ, hid, htype, howner, hscopes⟩ := h
  obtain ⟨app', happ', hlater⟩ := hkept.rows app happ
  exact ⟨app', happ', by rw [hid, hlater.id_eq], hlater.type_eq.trans htype,
    hlater.owner_eq.trans howner,
    fun hstrict ↦ List.Subset.trans (hscopes hstrict) (hlater.scopes hstrict)⟩

section Changes

variable {S : TokenStore}

/-- Updates that only revoke rows or change the scopes of app tokens. -/
theorem Registered.update (h : Registered strict S) {p : StoredAccessToken → Bool}
    {f : StoredAccessToken → StoredAccessToken}
    (hf : ∀ r ∈ S.rows, p r = true → Later strict r (f r)) :
    Registered strict { S with rows := Table.update p f S.rows } ∧
      Kept strict S { S with rows := Table.update p f S.rows } := by
  have hlater : ∀ r ∈ S.rows, Later strict r (if p r then f r else r) := by
    intro r hr
    by_cases hp : p r = true
    · rw [if_pos hp]
      exact hf r hr hp
    · rw [if_neg hp]
      exact .refl r
  have hkept : Kept strict S { S with rows := Table.update p f S.rows } :=
    { now := le_rfl
      rows := fun r hr ↦ ⟨_, Table.mem_update.mpr ⟨r, hr, rfl⟩, hlater r hr⟩
      mintings := fun _ _ _ _ ↦ rfl }
  have hcolumn : ∀ {γ : Type} (g : StoredAccessToken → γ),
      (∀ r ∈ S.rows, g (if p r then f r else r) = g r) →
        (Table.update p f S.rows).map g = S.rows.map g := by
    intro γ g hg
    rw [Table.update, List.map_map]
    exact List.map_congr_left hg
  refine ⟨?_, hkept⟩
  constructor
  · rw [hcolumn _ fun r hr ↦ (hlater r hr).id_eq]
    exact h.ids
  · rw [hcolumn _ fun r hr ↦ (hlater r hr).lookupHash_eq]
    exact h.hashes
  · intro owner
    refine le_trans ?_ (h.oneApp owner)
    rw [Table.update, List.countP_map]
    refine List.countP_mono_left fun r hr hunrevoked ↦ ?_
    have hr' := hlater r hr
    simp only [Function.comp_apply, unrevokedApp, decide_eq_true_eq] at hunrevoked ⊢
    exact ⟨hr'.type_eq ▸ hunrevoked.1, hr'.owner_eq ▸ hunrevoked.2.1, hr'.revoked hunrevoked.2.2⟩
  · rintro r' hr' happ
    obtain ⟨r, hr, rfl⟩ := Table.mem_update.mp hr'
    have hr' := hlater r hr
    obtain ⟨hagent, hworkspace, hceiling⟩ := h.unbound r hr (hr'.type_eq ▸ happ)
    exact ⟨hr'.agentId_eq.trans hagent, hr'.workspaceId_eq.trans hworkspace,
      hr'.budgetCeiling_eq.trans hceiling⟩
  · rintro r' hr' hrun
    obtain ⟨r, hr, rfl⟩ := Table.mem_update.mp hr'
    have hr' := hlater r hr
    have hrun' : r.type = .run := hr'.type_eq ▸ hrun
    obtain ⟨m, hm, hid, hgranted⟩ := h.minted r hr hrun'
    refine ⟨m, hm, hid.trans hr'.id_eq.symm, ?_, ?_⟩
    · rw [hr'.authority_eq hrun']
      exact hgranted.atMost
    · rw [hr'.scopes_run hrun']
      exact hgranted.runScopes
  · intro m hm
    exact (h.backed m hm).kept hkept

theorem put_eq_ok_iff {record : StoredAccessToken} {S' : TokenStore} :
    S.put record = .ok S' ↔ record.id ∉ S.rows.map StoredAccessToken.id ∧
      record.lookupHash ∉ S.rows.map StoredAccessToken.lookupHash ∧
        S' = { S with rows := S.rows ++ [record] } := by
  rw [TokenStore.put]
  split_ifs with hid hhash
  · simp [hid]
  · simp [hhash]
  · simp [hid, hhash, eq_comm]

theorem Kept.append (record : StoredAccessToken) (mintings : List Minting)
    (hmintings : strict → ∀ r ∈ S.rows, isActive S.now r = false →
      mintings.filter (fun m ↦ m.parent.tokenId = some r.id) = []) :
    Kept strict S
      { S with rows := S.rows ++ [record], mintings := S.mintings ++ mintings } where
  now := le_rfl
  rows r hr := ⟨r, List.mem_append_left _ hr, .refl r⟩
  mintings hstrict r hr hinactive := by
    rw [TokenStore.mintingsOf, List.filter_append, hmintings hstrict r hr hinactive,
      List.append_nil]
    rfl

/-- A run token is stored, and its minting recorded. -/
theorem Registered.mint (h : Registered strict S) {record : StoredAccessToken}
    {parent : InternalPrincipal} {S' : TokenStore} (hput : S.put record = .ok S')
    (hrun : record.type = .run) (hgranted : Granted record parent)
    (hbacked : Backed strict parent S)
    (hactive : strict → ∃ row ∈ S.rows, parent.tokenId = some row.id ∧
      isActive S.now row = true) :
    Registered strict { S' with mintings := S'.mintings ++ [⟨record.id, parent⟩] } ∧
      Kept strict S { S' with mintings := S'.mintings ++ [⟨record.id, parent⟩] } := by
  obtain ⟨hid, hhash, rfl⟩ := put_eq_ok_iff.mp hput
  have hkept : Kept strict S
      { S with rows := S.rows ++ [record], mintings := S.mintings ++ [⟨record.id, parent⟩] } := by
    refine .append record _ fun hstrict r hr hinactive ↦ ?_
    refine List.filter_eq_nil_iff.mpr fun m hm hparent ↦ ?_
    obtain rfl := List.mem_singleton.mp hm
    -- the row of the parent is the active one
    obtain ⟨row, hrow, htokenId, hrow_active⟩ := hactive hstrict
    have hids : row.id = r.id :=
      Option.some.inj (htokenId.symm.trans (of_decide_eq_true hparent))
    obtain rfl := List.inj_on_of_nodup_map h.ids hrow hr hids
    exact Bool.false_ne_true (hinactive.symm.trans hrow_active)
  refine ⟨?_, hkept⟩
  constructor
  · exact Table.nodup_append_fresh h.ids fun r hr heq ↦ hid (heq ▸ List.mem_map_of_mem hr)
  · exact Table.nodup_append_fresh h.hashes fun r hr heq ↦ hhash (heq ▸ List.mem_map_of_mem hr)
  · intro owner
    rw [List.countP_append, List.countP_singleton]
    simpa [unrevokedApp, hrun] using h.oneApp owner
  · intro r hr happ
    rcases List.mem_append.mp hr with hr | hr
    · exact h.unbound r hr happ
    · rw [List.mem_singleton.mp hr, hrun] at happ
      exact absurd happ nofun
  · intro r hr hr_run
    rcases List.mem_append.mp hr with hr | hr
    · obtain ⟨m, hm, hm'⟩ := h.minted r hr hr_run
      exact ⟨m, List.mem_append_left _ hm, hm'⟩
    · obtain rfl := List.mem_singleton.mp hr
      exact ⟨⟨r.id, parent⟩, List.mem_append_right _ (List.mem_singleton.mpr rfl), rfl, hgranted⟩
  · intro m hm
    rcases List.mem_append.mp hm with hm | hm
    · exact (h.backed m hm).kept hkept
    · rw [List.mem_singleton.mp hm]
      exact hbacked.kept hkept

/-- An app token is stored for an owner without one. -/
theorem Registered.append (h : Registered strict S) {record : StoredAccessToken}
    (hid : record.id ∉ S.rows.map StoredAccessToken.id)
    (hhash : record.lookupHash ∉ S.rows.map StoredAccessToken.lookupHash)
    (happ : record.type = .app) (hunbound : Unbound record)
    (hnone : ∀ r ∈ S.rows, unrevokedApp record.owner r = false) :
    Registered strict { S with rows := S.rows ++ [record] } ∧
      Kept strict S { S with rows := S.rows ++ [record] } := by
  have hkept : Kept strict S { S with rows := S.rows ++ [record] } :=
    { now := le_rfl
      rows := fun r hr ↦ ⟨r, List.mem_append_left _ hr, .refl r⟩
      mintings := fun _ _ _ _ ↦ rfl }
  refine ⟨?_, hkept⟩
  constructor
  · exact Table.nodup_append_fresh h.ids fun r hr heq ↦ hid (heq ▸ List.mem_map_of_mem hr)
  · exact Table.nodup_append_fresh h.hashes fun r hr heq ↦ hhash (heq ▸ List.mem_map_of_mem hr)
  · intro owner
    rw [List.countP_append, List.countP_singleton]
    by_cases howner : record.owner = owner
    · have hzero : S.rows.countP (unrevokedApp owner) = 0 :=
        List.countP_eq_zero.mpr fun r hr ↦ Bool.eq_false_iff.mp (howner ▸ hnone r hr)
      rw [hzero]
      split_ifs <;> simp
    · simpa [unrevokedApp, howner] using h.oneApp owner
  · intro r hr hr_app
    rcases List.mem_append.mp hr with hr | hr
    · exact h.unbound r hr hr_app
    · rw [List.mem_singleton.mp hr]
      exact hunbound
  · intro r hr hrun
    rcases List.mem_append.mp hr with hr | hr
    · exact h.minted r hr hrun
    · rw [List.mem_singleton.mp hr, happ] at hrun
      exact absurd hrun nofun
  · intro m hm
    exact (h.backed m hm).kept hkept

/-- A new app token is stored, and the others of its owner are revoked. -/
theorem Registered.rotate (h : Registered strict S) {record : StoredAccessToken} {revokedAt : ℤ}
    {S' : TokenStore} (hrotate : S.rotateApp record revokedAt = .ok S')
    (hunbound : Unbound record) : Registered strict S' ∧ Kept strict S S' := by
  rw [TokenStore.rotateApp] at hrotate
  by_cases happ : record.type = .app
  swap
  · rw [if_pos happ] at hrotate
    exact absurd hrotate nofun
  rw [if_neg (not_not.mpr happ)] at hrotate
  cases hput : S.put record with
  | error e =>
    rw [hput] at hrotate
    exact absurd hrotate nofun
  | ok S₁ =>
    rw [hput, Except.map] at hrotate
    obtain rfl := Except.ok.inj hrotate
    obtain ⟨hid, hhash, rfl⟩ := put_eq_ok_iff.mp hput
    -- revoking first and inserting then comes to the same: the new row is not among the revoked
    have hrows : ∀ f : StoredAccessToken → StoredAccessToken,
        Table.update (TokenStore.supersededBy record) f (S.rows ++ [record])
          = Table.update (TokenStore.supersededBy record) f S.rows ++ [record] := by
      intro f
      rw [Table.update, List.map_append]
      simp [Table.update, TokenStore.supersededBy]
    rw [hrows]
    obtain ⟨hrevoked, hkept⟩ := h.update (p := TokenStore.supersededBy record)
      fun r _ _ ↦ Later.revokedAt r revokedAt
    refine (hrevoked.append ?_ ?_ happ hunbound ?_).imp_right hkept.trans
    · have hcolumn := Table.map_update (p := TokenStore.supersededBy record)
        (f := fun r ↦ { r with revokedAt := some revokedAt }) (g := StoredAccessToken.id)
        (fun _ ↦ rfl) S.rows
      exact fun hmem ↦ hid (hcolumn ▸ hmem)
    · have hcolumn := Table.map_update (p := TokenStore.supersededBy record)
        (f := fun r ↦ { r with revokedAt := some revokedAt }) (g := StoredAccessToken.lookupHash)
        (fun _ ↦ rfl) S.rows
      exact fun hmem ↦ hhash (hcolumn ▸ hmem)
    · intro r' hr'
      obtain ⟨r, hr, rfl⟩ := Table.mem_update.mp hr'
      have hne : r.id ≠ record.id := fun heq ↦ hid (heq ▸ List.mem_map_of_mem hr)
      by_cases hsuperseded : TokenStore.supersededBy record r = true
      · rw [if_pos hsuperseded]
        simp [unrevokedApp]
      · rw [if_neg hsuperseded]
        simpa [unrevokedApp, TokenStore.supersededBy, hne] using hsuperseded

/-- The scopes of an app token change; in `strict` histories none is lost. -/
theorem Registered.rescope (h : Registered strict S) {id : JsString} {scopes : List JsString}
    {S' : TokenStore} (hupdate : S.updateAppScopes id scopes = .ok S')
    (hscopes : strict → ∀ r ∈ S.rows, r.id = id → r.scopes ⊆ scopes) :
    Registered strict S' ∧ Kept strict S S' := by
  rw [TokenStore.updateAppScopes] at hupdate
  split_ifs at hupdate
  obtain rfl := Except.ok.inj hupdate
  refine h.update fun r hr hr' ↦ ?_
  obtain ⟨hid, happ, -⟩ := of_decide_eq_true hr'
  refine ⟨rfl, rfl, rfl, rfl, rfl, rfl, rfl, rfl, fun hrevoked ↦ hrevoked, ?_, ?_⟩
  · intro hrun
    exact absurd (happ.symm.trans hrun) nofun
  · intro hstrict scope hscope
    exact List.mem_eraseDups.mpr (hscopes hstrict r hr hid hscope)

theorem Registered.revoke (h : Registered strict S) (id : JsString) (revokedAt : ℤ) :
    Registered strict (S.revoke id revokedAt).1 ∧ Kept strict S (S.revoke id revokedAt).1 :=
  h.update fun r _ _ ↦ .revokedAt r revokedAt

theorem Registered.tick (h : Registered strict S) (d : ℕ) :
    Registered strict { S with now := S.now + d } ∧ Kept strict S { S with now := S.now + d } where
  left := ⟨h.ids, h.hashes, h.oneApp, h.unbound, h.minted, h.backed⟩
  right := ⟨by simp, fun r hr ↦ ⟨r, hr, .refl r⟩, fun _ _ _ _ ↦ rfl⟩

end Changes

/-! ## What the stretches keep -/

namespace AccessTokenService

variable (C : Crypto)

/-- What a suspended call has checked, as far as it stays true. -/
def Ready (strict : Prop) : TokenPromise → TokenStore → Prop
  | .createBootstrap record, _ => Unbound record
  | .mint _ parent record, S => record.type = .run ∧ Granted record parent ∧ Backed strict parent S
  | _, _ => True

theorem Ready.kept {promise : TokenPromise} {S S' : TokenStore} (h : Ready strict promise S)
    (hkept : Kept strict S S') : Ready strict promise S' := by
  cases promise with
  | mint token parent record => exact ⟨h.1, h.2.1, h.2.2.kept hkept⟩
  | createBootstrap record => exact h
  | _ => trivial

/-- The token is in the table, and inactive. -/
def Dead (row : StoredAccessToken) (S : TokenStore) : Prop :=
  ∃ r ∈ S.rows, r.id = row.id ∧ r.lookupHash = row.lookupHash ∧ isActive S.now r = false

theorem Dead.kept {row : StoredAccessToken} {S S' : TokenStore} (h : Dead row S)
    (hkept : Kept strict S S') : Dead row S' := by
  obtain ⟨r, hr, hid, hhash, hinactive⟩ := h
  obtain ⟨r', hr', hlater⟩ := hkept.rows r hr
  exact ⟨r', hr', hlater.id_eq.trans hid, hlater.lookupHash_eq.trans hhash,
    hlater.isActive_eq_false hkept.now hinactive⟩

/-- The call does not authenticate with the token. -/
def Spares (row : StoredAccessToken) : TokenPromise → Prop
  | .authenticate token record => C.lookup token ≠ row.lookupHash ∧ record.id ≠ row.id
  | _ => True

/-- Nobody was authenticated with the token. -/
def Refuses (row : StoredAccessToken) : TokenAnswer → Prop
  | .authenticate token (some principal) =>
    C.lookup token ≠ row.lookupHash ∧ principal.tokenId ≠ some row.id
  | _ => True

/-- The invariant of the table across the waits. A token may be known to be dead since the call
with a given number. -/
def protocol (strict : Prop) (dead : Option (ℕ × StoredAccessToken)) :
    Protocol TokenStore TokenPromise TokenAnswer where
  inv S := Registered strict S ∧ ∀ d ∈ dead, Dead d.2 S
  rely := Kept strict
  suspended n promise S := Ready strict promise S ∧ ∀ d ∈ dead, d.1 ≤ n → Spares C d.2 promise
  answered n answer _ := ∀ d ∈ dead, d.1 ≤ n → Refuses C d.2 answer
  refl := .refl
  trans _ _ _ := .trans
  suspended_stable _ _ _ _ h hkept := ⟨h.1.kept hkept, h.2⟩
  answered_stable _ _ _ _ h _ := h

/-- The branch of `ensureBootstrapAppToken` that updates the scopes. -/
def ExpandsScopes (token : JsString) (binding : BootstrapBinding) (allowScopeExpansion : Bool)
    (existing : StoredAccessToken) (derived : Derived) : Prop :=
  (verifySecret C token existing derived = true ∧ existing.type = .app ∧
    existing.owner = binding.owner) ∧ sameStrings existing.scopes binding.scopes = false ∧
      allowScopeExpansion = true ∧ ∀ scope ∈ existing.scopes, scope ∈ binding.scopes.eraseDups

/-- What a call checked before it waited for its key still holds when the key is there: the caller
of a minting is still active, and a scope expansion leaves out no scope the token has by now. -/
def StillHolds (derived : Derived) (S : TokenStore) : TokenPromise → Prop
  | .mint _ parent record => derived.isOk = true → (S.put record).isOk = true →
      ∃ row ∈ S.rows, parent.tokenId = some row.id ∧ isActive S.now row = true
  | .verifyBootstrap token binding allowScopeExpansion existing =>
      ExpandsScopes C token binding allowScopeExpansion existing derived →
        ∀ row ∈ S.rows, row.id = existing.id → row.scopes ⊆ binding.scopes
  | _ => True

/-- The step settles no wait too late. -/
def Settles (s : State) : Input → Prop
  | .derived call derived => ∀ promise, (call, promise) ∈ s.pending →
      StillHolds C derived s.shared promise
  | _ => True

variable {C} {dead : Option (ℕ × StoredAccessToken)} {S : TokenStore} {n : ℕ}

/-- A stretch that leaves the table alone. -/
theorem guarantee_same (h : (protocol C strict dead).inv S) {ending : Ending TokenPromise TokenAnswer}
    (hending : (protocol C strict dead).Ended n S ending) :
    (protocol C strict dead).Guarantee n S (S, ending) :=
  ⟨h, .refl S, hending⟩

/-- A stretch that changes the table, and does not authenticate anybody. -/
theorem guarantee_changed (h : (protocol C strict dead).inv S) {S' : TokenStore}
    (hchanged : Registered strict S' ∧ Kept strict S S') {answer : TokenAnswer}
    (hanswer : ∀ row, Refuses C row answer) :
    (protocol C strict dead).Guarantee n S (S', .answers answer) :=
  ⟨⟨hchanged.1, fun d hd ↦ (h.2 d hd).kept hchanged.2⟩, hchanged.2, fun _ _ _ ↦ hanswer _⟩

theorem ensureBootstrapAppToken_guarantee (h : (protocol C strict dead).inv S) (token : JsString)
    (binding : BootstrapBinding) (allowScopeExpansion : Bool) (id salt : JsString) :
    (protocol C strict dead).Guarantee n S
      (ensureBootstrapAppToken C token binding allowScopeExpansion id salt S) := by
  rw [ensureBootstrapAppToken]
  split_ifs
  · exact guarantee_same h fun _ _ _ ↦ trivial
  · cases S.getByLookupHash (C.lookup token) with
    | none => exact guarantee_same h ⟨⟨rfl, rfl, rfl⟩, fun _ _ _ ↦ trivial⟩
    | some existing =>
      dsimp only
      split_ifs
      · exact guarantee_same h fun _ _ _ ↦ trivial
      · exact guarantee_same h ⟨trivial, fun _ _ _ ↦ trivial⟩

theorem bootstrapVerified_guarantee (h : (protocol C strict dead).inv S) {token : JsString}
    {binding : BootstrapBinding} {allowScopeExpansion : Bool} {existing : StoredAccessToken}
    {derived : Derived} (hsettles : strict → StillHolds C derived S
      (.verifyBootstrap token binding allowScopeExpansion existing)) :
    (protocol C strict dead).Guarantee n S
      (bootstrapVerified C token binding allowScopeExpansion existing derived S) := by
  rw [bootstrapVerified]
  split_ifs with hconflict hsame hrefused
  · exact guarantee_same h fun _ _ _ ↦ trivial
  · exact guarantee_same h fun _ _ _ ↦ trivial
  · exact guarantee_same h fun _ _ _ ↦ trivial
  · push Not at hconflict hrefused
    have hexpands : ExpandsScopes C token binding allowScopeExpansion existing derived :=
      ⟨⟨Bool.not_eq_false _ ▸ hconflict.1, hconflict.2⟩, Bool.eq_false_iff.mpr hsame,
        Bool.not_eq_false _ ▸ hrefused.1, hrefused.2⟩
    cases hupdate : S.updateAppScopes existing.id binding.scopes.eraseDups with
    | error e => exact guarantee_same h fun _ _ _ ↦ trivial
    | ok S' =>
      refine guarantee_changed h (h.1.rescope hupdate fun hstrict r hr hid scope hscope ↦ ?_)
        fun _ ↦ trivial
      exact List.mem_eraseDups.mpr (hsettles hstrict hexpands r hr hid hscope)

theorem bootstrapCreated_guarantee (h : (protocol C strict dead).inv S) {record : StoredAccessToken}
    (hunbound : Unbound record) (derived : Derived) :
    (protocol C strict dead).Guarantee n S (bootstrapCreated record derived S) := by
  rcases derived with message | _
  · exact guarantee_same h fun _ _ _ ↦ trivial
  · rw [bootstrapCreated]
    cases hrotate : S.rotateApp record record.issuedAt with
    | error e => exact guarantee_same h fun _ _ _ ↦ trivial
    | ok S' => exact guarantee_changed h (h.1.rotate hrotate hunbound) fun _ ↦ trivial

/-- A row found active is not the dead one. -/
theorem Dead.ne {row record : StoredAccessToken} (h : Dead row S) (hregistered : Registered strict S)
    (hrecord : record ∈ S.rows) (hactive : isActive S.now record = true) :
    record.lookupHash ≠ row.lookupHash ∧ record.id ≠ row.id := by
  obtain ⟨r, hr, hid, hhash, hinactive⟩ := h
  have hne : r ≠ record := by
    rintro rfl
    exact Bool.false_ne_true (hinactive.symm.trans hactive)
  constructor
  · intro heq
    exact hne (List.inj_on_of_nodup_map hregistered.hashes hr hrecord (hhash.trans heq.symm))
  · intro heq
    exact hne (List.inj_on_of_nodup_map hregistered.ids hr hrecord (hid.trans heq.symm))

theorem authenticate_guarantee (h : (protocol C strict dead).inv S) (token : JsString) :
    (protocol C strict dead).Guarantee n S (authenticate C token S) := by
  rw [authenticate]
  split_ifs
  · exact guarantee_same h fun _ _ _ ↦ trivial
  · cases hlookup : S.getByLookupHash (C.lookup token) with
    | none => exact guarantee_same h fun _ _ _ ↦ trivial
    | some record =>
      dsimp only
      split_ifs with hactive
      · refine guarantee_same h ⟨trivial, fun d hd _ ↦ ?_⟩
        have hne := (h.2 d hd).ne h.1 (Table.mem_of_lookup hlookup) hactive
        rw [Table.key_of_lookup hlookup] at hne
        exact hne
      · exact guarantee_same h fun _ _ _ ↦ trivial

theorem authenticated_guarantee (h : (protocol C strict dead).inv S) {token : JsString}
    {record : StoredAccessToken} (derived : Derived)
    (hspares : ∀ d ∈ dead, d.1 ≤ n → Spares C d.2 (.authenticate token record)) :
    (protocol C strict dead).Guarantee n S (authenticated C token record derived S) := by
  rw [authenticated]
  split_ifs
  · refine guarantee_same h fun d hd hn ↦ ?_
    obtain ⟨hhash, hid⟩ := hspares d hd hn
    exact ⟨hhash, fun heq ↦ hid (Option.some.inj heq)⟩
  · exact guarantee_same h fun _ _ _ ↦ trivial

/-- A binding that the request does not expand binds the run token. -/
theorem bound_of_not_expands {bound requested : Option JsString} (hrequested : requested ≠ some [])
    (h : ¬Expands bound requested) :
    ∀ b ∈ truthy bound, truthy (truthy (requested <|> bound)) = some b := by
  intro b hb
  rw [truthy_truthy]
  rcases requested with _ | r
  · exact hb
  · have hr : truthy (some r) = some r := truthy_of_ne_nil fun hnil ↦ hrequested (hnil ▸ rfl)
    change truthy (some r) = some b
    rw [hr]
    by_contra hne
    exact h ⟨b, hb, r, hr, fun heq ↦ hne (congrArg some heq)⟩

/-- What the checks of `mintRunToken` establish. -/
theorem granted_runToken {parent : InternalPrincipal} {request : MintRunTokenRequest}
    (hscopes : ∀ scope ∈ runTokenScopes request, scope ∈ parent.scopes)
    (hrun : ∀ scope ∈ runTokenScopes request, scope ∈ RUN_TOKEN_SCOPES)
    (hagent : ¬Expands parent.agentId request.agentId)
    (hworkspace : ¬Expands parent.workspaceId request.workspaceId)
    (hceiling : ¬∃ requested ∈ request.budgetCeiling, ∃ ceiling ∈ parent.budgetCeiling,
      budgetWithin requested ceiling = false) (token id salt : JsString) (now : ℤ) :
    Granted (runToken C parent request token id salt now) parent := by
  refine ⟨⟨rfl, hscopes, bound_of_not_expands request.agentId_ne hagent,
    bound_of_not_expands request.workspaceId_ne hworkspace, ?_⟩, hrun⟩
  intro bound hbound
  change parent.budgetCeiling = some bound at hbound
  refine ⟨bound.spread (request.budgetCeiling.getD {}), ?_, fun f limit hlimit ↦ ?_⟩
  · change (runToken C parent request token id salt now).budgetCeiling = _
    rw [runToken, hbound]
  · rw [BudgetField.given_spread]
    cases hvalue : f.given (request.budgetCeiling.getD {}) with
    | none => exact ⟨limit, hlimit, le_rfl⟩
    | some value =>
      refine ⟨value, rfl, ?_⟩
      -- the request gives a limit of its own, which was compared with the caller's
      cases hrequested : request.budgetCeiling with
      | none =>
        rw [hrequested, Option.getD_none, BudgetField.given_empty] at hvalue
        exact absurd hvalue nofun
      | some requested =>
        rw [hrequested, Option.getD_some] at hvalue
        have hwithin : budgetWithin requested bound = true := by
          by_contra hexceeds
          exact hceiling ⟨requested, hrequested, bound, hbound, Bool.eq_false_iff.mpr hexceeds⟩
        exact budgetWithin_iff.mp hwithin f value hvalue limit hlimit

theorem eq_some_of_mem_truthy_bind {α : Type} {s : Option JsString} {f : JsString → Option α}
    {a : α} (h : a ∈ (truthy s).bind f) : ∃ t, s = some t ∧ f t = some a := by
  obtain ⟨t, ht, hf⟩ := Option.bind_eq_some_iff.mp h
  exact ⟨t, eq_some_of_truthy ht, hf⟩

/-- A caller whose binding is active has its row in the table. -/
theorem BindingActive.backed {parent : InternalPrincipal} (h : BindingActive parent S) :
    Backed strict parent S := by
  obtain ⟨persisted, hpersisted, htype, -, howner, hscopes⟩ := h
  obtain ⟨id, hid, hlookup⟩ := eq_some_of_mem_truthy_bind hpersisted
  refine ⟨persisted, Table.mem_of_lookup hlookup, ?_, htype, howner, fun _ scope hscope ↦ ?_⟩
  · rw [hid, Table.key_of_lookup hlookup]
  · exact (perm_of_sameStrings hscopes).mem_iff.mpr hscope

theorem mintRunToken_guarantee (h : (protocol C strict dead).inv S) (parent : InternalPrincipal)
    (request : MintRunTokenRequest) (secret id salt : JsString) :
    (protocol C strict dead).Guarantee n S (mintRunToken C parent request secret id salt S) := by
  rw [mintRunToken]
  split_ifs with hcaller hbinding hscopes hrun hagent hworkspace hceiling
  · exact guarantee_same h fun _ _ _ ↦ trivial
  · exact guarantee_same h fun _ _ _ ↦ trivial
  · exact guarantee_same h fun _ _ _ ↦ trivial
  · exact guarantee_same h fun _ _ _ ↦ trivial
  · have hgranted := granted_runToken (C := C) hscopes hrun hagent hworkspace hceiling
      (js "lhr_" ++ secret) id salt S.now
    exact guarantee_same h
      ⟨⟨rfl, hgranted, BindingActive.backed hbinding⟩, fun _ _ _ ↦ trivial⟩
  · exact guarantee_same h fun _ _ _ ↦ trivial
  · exact guarantee_same h fun _ _ _ ↦ trivial
  · exact guarantee_same h fun _ _ _ ↦ trivial

theorem minted_guarantee (h : (protocol C strict dead).inv S) {token : JsString}
    {parent : InternalPrincipal} {record : StoredAccessToken} {derived : Derived}
    (hready : Ready strict (.mint token parent record) S)
    (hsettles : strict → StillHolds C derived S (.mint token parent record)) :
    (protocol C strict dead).Guarantee n S (minted token parent record derived S) := by
  rcases derived with message | _
  · exact guarantee_same h fun _ _ _ ↦ trivial
  · rw [minted]
    cases hput : S.put record with
    | error e => exact guarantee_same h fun _ _ _ ↦ trivial
    | ok S' =>
      obtain ⟨hrun, hgranted, hbacked⟩ := hready
      refine guarantee_changed h (h.1.mint hput hrun hgranted hbacked fun hstrict ↦ ?_)
        fun _ ↦ trivial
      exact hsettles hstrict rfl (by rw [hput]; rfl)

theorem revoke_guarantee (h : (protocol C strict dead).inv S) (parent : InternalPrincipal)
    (tokenId : JsString) : (protocol C strict dead).Guarantee n S (revoke parent tokenId S) := by
  rw [revoke]
  by_cases hcaller : parent.tokenType ≠ some .app ∨ truthy parent.tokenId = none
  · rw [if_pos hcaller]
    exact guarantee_same h fun _ _ _ ↦ trivial
  rw [if_neg hcaller]
  by_cases hbinding : BindingActive parent S
  swap
  · rw [if_pos hbinding]
    exact guarantee_same h fun _ _ _ ↦ trivial
  rw [if_neg (not_not.mpr hbinding)]
  cases S.getById tokenId with
  | none => exact guarantee_same h fun _ _ _ ↦ trivial
  | some target =>
    dsimp only
    split_ifs
    · exact guarantee_same h fun _ _ _ ↦ trivial
    · exact guarantee_changed h (h.1.revoke tokenId S.now) fun _ ↦ trivial
    · exact guarantee_changed h (h.1.revoke tokenId S.now) fun _ ↦ trivial

/-- A suspended call goes on, in time or not. -/
theorem resumed_guarantee (h : (protocol C strict dead).inv S) {promise : TokenPromise} {derived : Derived}
    (hready : (protocol C strict dead).suspended n promise S)
    (hsettles : strict → StillHolds C derived S promise) :
    (protocol C strict dead).Guarantee n S (resumed C derived promise S) := by
  cases promise with
  | verifyBootstrap token binding allowScopeExpansion existing =>
    exact bootstrapVerified_guarantee h hsettles
  | createBootstrap record => exact bootstrapCreated_guarantee h hready.1 derived
  | authenticate token record => exact authenticated_guarantee h derived hready.2
  | mint token parent record => exact minted_guarantee h hready.1 hsettles

/-! ## Whole histories -/

/-- One step keeps the invariant, in `strict` histories where it settles no wait too late. -/
theorem step_holds {s : State} (h : (protocol C strict dead).Holds s) {i : Input}
    (hsettles : strict → Settles C s i) :
    (protocol C strict dead).Holds (step C s i) ∧ Kept strict s.shared (step C s i).shared := by
  cases i with
  | tick d =>
    obtain ⟨hinv, hkept⟩ := Registered.tick h.inv.1 d
    exact ⟨h.change (f := fun S ↦ { S with now := S.now + d })
      ⟨hinv, fun row hrow ↦ (h.inv.2 row hrow).kept hkept⟩ hkept, hkept⟩
  | ensureBootstrapAppToken token binding allowScopeExpansion id salt =>
    have hg := ensureBootstrapAppToken_guarantee (n := s.started) h.inv token binding
      allowScopeExpansion id salt
    exact ⟨h.start hg, hg.rely_start⟩
  | authenticate token =>
    have hg := authenticate_guarantee (n := s.started) h.inv token
    exact ⟨h.start hg, hg.rely_start⟩
  | mintRunToken parent request secret id salt =>
    have hg := mintRunToken_guarantee (n := s.started) h.inv parent request secret id salt
    exact ⟨h.start hg, hg.rely_start⟩
  | revoke parent tokenId =>
    have hg := revoke_guarantee (n := s.started) h.inv parent tokenId
    exact ⟨h.start hg, hg.rely_start⟩
  | derived call derived =>
    have hg : ∀ promise, (call, promise) ∈ s.pending →
        (protocol C strict dead).suspended call promise s.shared →
          (protocol C strict dead).Guarantee call s.shared (resumed C derived promise s.shared) :=
      fun promise hmem hready ↦ resumed_guarantee h.inv hready fun hstrict ↦
        hsettles hstrict promise hmem
    exact ⟨h.resume call hg, Protocol.rely_resume h call hg⟩

theorem run_holds {s : State} (h : (protocol C strict dead).Holds s) {history : List Input}
    (hsettles : strict → Throughout (step C) (Settles C) s history) :
    (protocol C strict dead).Holds (history.foldl (step C) s) ∧
      Kept strict s.shared (history.foldl (step C) s).shared := by
  have hthroughout : Throughout (step C) (fun s i ↦ strict → Settles C s i) s history := by
    clear h
    induction history generalizing s with
    | nil => trivial
    | cons i history ih => exact ⟨fun hstrict ↦ (hsettles hstrict).1,
        ih fun hstrict ↦ (hsettles hstrict).2⟩
  exact h.run (fun s i h hi ↦ step_holds h hi) hthroughout

theorem registered_init (strict : Prop) : Registered strict {} := by
  constructor <;> simp

/-- A token that is inactive now is known to be dead for the calls to come. -/
theorem holds_dead {s : State} (h : (protocol C strict none).Holds s) {row : StoredAccessToken}
    (hrow : row ∈ s.shared.rows) (hinactive : isActive s.shared.now row = false) :
    (protocol C strict (some (s.started, row))).Holds s where
  inv := by
    refine ⟨h.inv.1, fun d hd ↦ ?_⟩
    obtain rfl := Option.some.inj hd
    exact ⟨row, hrow, rfl, rfl, hinactive⟩
  begun := h.begun
  suspended q hq := by
    refine ⟨(h.suspended q hq).1, fun d hd hn ↦ ?_⟩
    obtain rfl := Option.some.inj hd
    exact absurd (h.begun q hq) hn.not_gt
  replied := h.replied
  answered q hq d hd hn := by
    obtain rfl := Option.some.inj hd
    exact absurd (h.replied q hq) hn.not_gt

theorem after_append (history later : List Input) :
    after C (history ++ later) = later.foldl (step C) (after C history) :=
  List.foldl_append

theorem after_holds {history : List Input}
    (hsettles : strict → Throughout (step C) (Settles C) { shared := {} } history) :
    (protocol C strict none).Holds (after C history) :=
  (run_holds (Protocol.holds_init ⟨registered_init strict, by simp⟩) hsettles).1

/-- What a history and a later one leave: the invariant, every row, and no answer to a later call
with a token that was dead in between. -/
theorem after_append_holds (strict : Prop) (history later : List Input)
    (hsettles : strict → Throughout (step C) (Settles C) { shared := {} } (history ++ later)) :
    Registered strict (after C (history ++ later)).shared ∧
      Kept strict (after C history).shared (after C (history ++ later)).shared ∧
      ∀ row ∈ (after C history).shared.rows,
        isActive (after C history).shared.now row = false →
          ∀ q ∈ (after C (history ++ later)).answers, (after C history).started ≤ q.1 →
            Refuses C row q.2 := by
  have hbefore : (protocol C strict none).Holds (after C history) :=
    after_holds fun hstrict ↦ (throughout_append.mp (hsettles hstrict)).1
  have hlater : strict → Throughout (step C) (Settles C) (after C history) later :=
    fun hstrict ↦ (throughout_append.mp (hsettles hstrict)).2
  rw [after_append]
  obtain ⟨hholds, hkept⟩ := run_holds hbefore hlater
  refine ⟨hholds.inv.1, hkept, fun row hrow hinactive q hq hn ↦ ?_⟩
  exact (run_holds (holds_dead hbefore hrow hinactive) hlater).1.answered q hq _ rfl hn

/-- The run token and the app token it was minted with: same owner, no scope and no leave beyond
the app token's or the caller's, and nothing but scopes of runs. -/
structure Narrowed (token app : StoredAccessToken) (parent : InternalPrincipal) : Prop where
  type_eq : app.type = .app
  tokenId_eq : parent.tokenId = some app.id
  atMost : token.authority.AtMost app.authority
  atMostParent : token.authority.AtMost parent.authority
  runScopes : token.scopes ⊆ RUN_TOKEN_SCOPES

theorem Registered.narrowed (h : Registered True S) {token : StoredAccessToken}
    (htoken : token ∈ S.rows) (hrun : token.type = .run) :
    ∃ m ∈ S.mintings, m.tokenId = token.id ∧ ∃ app ∈ S.rows, Narrowed token app m.parent := by
  obtain ⟨m, hm, hid, hgranted⟩ := h.minted token htoken hrun
  obtain ⟨app, happ, hparent, htype, howner, hscopes⟩ := h.backed m hm
  obtain ⟨hagent, hworkspace, hceiling⟩ := h.unbound app happ htype
  refine ⟨m, hm, hid, app, happ, htype, hparent, ?_, hgranted.atMost, hgranted.runScopes⟩
  exact
    { owner := hgranted.atMost.owner.trans howner.symm
      scopes := List.Subset.trans hgranted.atMost.scopes (hscopes trivial)
      agentId := by simp [StoredAccessToken.authority, hagent, truthy]
      workspaceId := by simp [StoredAccessToken.authority, hworkspace, truthy]
      budgetCeiling := by simp [StoredAccessToken.authority, hceiling] }

/-- **Tokens over every history.** An owner never has two active app tokens, and a token that was
inactive at some point authenticates no call that begins later. Where no wait is settled too late,
every run token is narrower than the app token it was minted with, and a token that is inactive
mints nothing any more. -/
theorem tokens_sound (C : Crypto) (history later : List Input) :
    (∀ owner, (after C (history ++ later)).shared.rows.countP (fun r ↦
        r.type = .app ∧ r.owner = owner ∧
          isActive (after C (history ++ later)).shared.now r = true) ≤ 1) ∧
    (∀ row ∈ (after C history).shared.rows,
      isActive (after C history).shared.now row = false →
        ∀ n token principal,
          (n, .authenticate token (some principal)) ∈ (after C (history ++ later)).answers →
            (after C history).started ≤ n →
              C.lookup token ≠ row.lookupHash ∧ principal.tokenId ≠ some row.id) ∧
    (Throughout (step C) (Settles C) { shared := {} } (history ++ later) →
      (∀ token ∈ (after C (history ++ later)).shared.rows, token.type = .run →
        ∃ m ∈ (after C (history ++ later)).shared.mintings, m.tokenId = token.id ∧
          ∃ app ∈ (after C (history ++ later)).shared.rows, Narrowed token app m.parent) ∧
      ∀ row ∈ (after C history).shared.rows,
        isActive (after C history).shared.now row = false →
          (after C (history ++ later)).shared.mintingsOf row.id
            = (after C history).shared.mintingsOf row.id) := by
  obtain ⟨hregistered, -, hrefuses⟩ :=
    after_append_holds (C := C) False history later nofun
  refine ⟨fun owner ↦ ?_, fun row hrow hinactive n token principal hanswer hn ↦
    hrefuses row hrow hinactive _ hanswer hn, fun hsettles ↦ ?_⟩
  · refine le_trans (List.countP_mono_left fun r _ hr ↦ ?_) (hregistered.oneApp owner)
    simp only [unrevokedApp, decide_eq_true_eq] at hr ⊢
    exact ⟨hr.1, hr.2.1, (isActive_eq_true_iff.mp hr.2.2).1⟩
  · obtain ⟨hstrict, hkept, -⟩ := after_append_holds True history later fun _ ↦ hsettles
    exact ⟨fun token htoken hrun ↦ Registered.narrowed hstrict htoken hrun,
      fun row hrow hinactive ↦ hkept.mintings trivial row hrow hinactive⟩

/-! ### A minting that outlives its token -/

def referenceCrypto : Crypto where
  lookup := id
  derive token _ := token

/-- The caller that the first of two app tokens authenticates. -/
def firstApp : InternalPrincipal where
  owner := ⟨js "app-a", js "tenant-a", js "user-a"⟩
  scopes := [js "runs:create"]
  tokenId := some (js "tok_1")
  tokenType := some .app
  replayPolicy := some .multiUse

/-- A minting with the first app token begins. -/
def mintBegun : List Input :=
  [.ensureBootstrapAppToken (js "bootstrap-app-token-first") ⟨firstApp.owner, firstApp.scopes⟩ false
      (js "tok_1") [],
    .derived 0 (.ok ()),
    .mintRunToken firstApp { scopes := [js "runs:create"] } (js "secret") (js "tok_2") []]

/-- The second app token is there before the key of the minting. -/
def rotated : List Input :=
  [.ensureBootstrapAppToken (js "bootstrap-app-token-second") ⟨firstApp.owner, firstApp.scopes⟩
      false (js "tok_3") [],
    .derived 2 (.ok ())]

/-- After the rotation the first token is inactive, and the key of the minting stores a run token
on its authority. -/
theorem mints_after_rotation :
    (∃ row ∈ (after referenceCrypto (mintBegun ++ rotated)).shared.rows,
      firstApp.tokenId = some row.id ∧
        isActive (after referenceCrypto (mintBegun ++ rotated)).shared.now row = false) ∧
    (after referenceCrypto (mintBegun ++ rotated)).shared.mintingsOf (js "tok_1") = [] ∧
    (after referenceCrypto ((mintBegun ++ rotated) ++ [.derived 1 (.ok ())])).shared.mintingsOf
        (js "tok_1") = [⟨js "tok_2", firstApp⟩] := by
  decide +kernel

end AccessTokenService

end LiteHarness
