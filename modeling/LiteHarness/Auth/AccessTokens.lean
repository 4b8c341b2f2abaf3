import LiteHarness.Domain.Budgets
import LiteHarness.Foundation.Suspension
import LiteHarness.Platform.JsValue

/-!
# Access tokens

The token service of the gateway and the table it keeps. Bootstrapping, authenticating and minting
each await one key derivation; what a call checked before the wait may have changed after it. A
revocation does not wait.

Timestamps are milliseconds. The identifiers, salts and secrets that calls draw are inputs, and so
are the passing of time and the order in which derivations settle. A gateway that stops leaves its
calls suspended; another gateway on the same table is further calls.
-/

namespace LiteHarness

open Foundation

/-- The two one-way functions: SHA-256 in hexadecimal, and scrypt, its salt and its key in
base64. -/
structure Crypto where
  lookup : JsString → JsString
  derive : JsString → JsString → JsString

def MAX_TOKEN_BYTES : ℕ := 4096

def RUN_TOKEN_SCOPES : List JsString :=
  [js "runs:create", js "runs:read", js "runs:cancel", js "runs:steer", js "events:read",
    js "approvals:resolve", js "artifacts:publish", js "artifacts:read"]

/-- A row of the table. -/
structure StoredAccessToken where
  id : JsString
  lookupHash : JsString
  secretHash : JsString
  salt : JsString
  type : TokenType
  owner : ResourceOwner
  scopes : List JsString
  replayPolicy : ReplayPolicy
  agentId : Option JsString := none
  workspaceId : Option JsString := none
  budgetCeiling : Option RunBudgetOverrides := none
  issuedAt : ℤ
  expiresAt : Option ℤ := none
  revokedAt : Option ℤ := none
  keyGeneration : ℕ
  deriving DecidableEq

/-- `isActive`, at the time `now`. -/
def isActive (now : ℤ) (record : StoredAccessToken) : Bool :=
  record.revokedAt.isNone && record.expiresAt.all fun expiry ↦ now < expiry

theorem isActive_eq_true_iff {now : ℤ} {record : StoredAccessToken} :
    isActive now record = true ↔
      record.revokedAt = none ∧ ∀ expiry ∈ record.expiresAt, now < expiry := by
  rw [isActive, Bool.and_eq_true, Option.isNone_iff_eq_none]
  refine and_congr_right fun _ ↦ ?_
  cases record.expiresAt <;> simp

/-- `sameStrings`: the same strings, each as often. -/
def sameStrings (left right : List JsString) : Bool :=
  left.insertionSort keyLe = right.insertionSort keyLe

theorem perm_of_sameStrings {left right : List JsString} (h : sameStrings left right = true) :
    left.Perm right := by
  have hsorted := (List.perm_insertionSort keyLe left).symm
  rw [of_decide_eq_true h] at hsorted
  exact hsorted.trans (List.perm_insertionSort keyLe right)

/-- `isValidToken`. -/
def isValidToken (token : JsString) : Bool :=
  16 ≤ byteLength token && byteLength token ≤ MAX_TOKEN_BYTES &&
    !token.any fun u ↦ u == 13 || u == 10 || u == 0

/-! ## The table -/

/-- A run token that was stored, and the caller it was minted for. -/
structure Minting where
  tokenId : JsString
  parent : InternalPrincipal
  deriving DecidableEq

/-- The table, the clock, and a record of the mintings that no code reads. -/
structure TokenStore where
  rows : List StoredAccessToken := []
  now : ℤ := 0
  mintings : List Minting := []

namespace TokenStore

variable (S : TokenStore)

def getByLookupHash (lookupHash : JsString) : Option StoredAccessToken :=
  Table.lookup StoredAccessToken.lookupHash lookupHash S.rows

def getById (id : JsString) : Option StoredAccessToken :=
  Table.lookup StoredAccessToken.id id S.rows

def latestAppKeyGeneration (owner : ResourceOwner) : ℕ :=
  ((S.rows.filter fun r ↦ r.type = .app ∧ r.owner = owner).map
    StoredAccessToken.keyGeneration).foldr max 0

/-- The identifier is the primary key, and the lookup hash is unique. -/
def put (record : StoredAccessToken) : Except JsError TokenStore :=
  if record.id ∈ S.rows.map StoredAccessToken.id then
    .error (.new (js "UNIQUE constraint failed: access_tokens.id"))
  else if record.lookupHash ∈ S.rows.map StoredAccessToken.lookupHash then
    .error (.new (js "UNIQUE constraint failed: access_tokens.lookup_hash"))
  else .ok { S with rows := S.rows ++ [record] }

/-- The rows that `updateAppScopes` updates. -/
def updatableApp (id : JsString) (r : StoredAccessToken) : Bool :=
  r.id = id ∧ r.type = .app ∧ r.revokedAt = none

def updateAppScopes (id : JsString) (scopes : List JsString) : Except JsError TokenStore :=
  if S.rows.any (updatableApp id) then
    .ok
      { S with
        rows :=
          Table.update (updatableApp id) (fun r ↦ { r with scopes := scopes.eraseDups }) S.rows }
  else .error (.new (js "Bootstrap app token scope migration failed"))

/-- The rows that `rotateApp` revokes. -/
def supersededBy (record r : StoredAccessToken) : Bool :=
  r.type = .app ∧ r.owner = record.owner ∧ r.id ≠ record.id ∧ r.revokedAt = none

/-- The insertion and the revocations are one transaction. -/
def rotateApp (record : StoredAccessToken) (revokedAt : ℤ) : Except JsError TokenStore :=
  if record.type ≠ .app then .error (.new (js "Only app credentials can be rotated"))
  else (S.put record).map fun S' ↦
    { S' with
      rows :=
        Table.update (supersededBy record) (fun r ↦ { r with revokedAt := some revokedAt })
          S'.rows }

/-- The row that `revoke` updates. -/
def revocable (id : JsString) (r : StoredAccessToken) : Bool := r.id = id ∧ r.revokedAt = none

def revoke (id : JsString) (revokedAt : ℤ) : TokenStore × Bool :=
  ({ S with
      rows :=
        Table.update (revocable id) (fun r ↦ { r with revokedAt := some revokedAt }) S.rows },
    S.rows.any (revocable id))

end TokenStore

/-! ## The service -/

structure BootstrapBinding where
  owner : ResourceOwner
  scopes : List JsString

/-- A request to mint a run token, as its schema admits it. -/
structure MintRunTokenRequest where
  scopes : List JsString
  ttlSeconds : Option ℕ := none
  agentId : Option JsString := none
  workspaceId : Option JsString := none
  budgetCeiling : Option RunBudgetOverrides := none
  agentId_ne : agentId ≠ some [] := by simp
  workspaceId_ne : workspaceId ≠ some [] := by simp

structure MintRunTokenResponse where
  token : JsString
  tokenId : JsString
  expiresAt : Option ℤ
  scopes : List JsString
  replayPolicy : ReplayPolicy

/-- A call that awaits a key derivation, with what it has read. -/
inductive TokenPromise where
  | verifyBootstrap (token : JsString) (binding : BootstrapBinding) (allowScopeExpansion : Bool)
      (existing : StoredAccessToken)
  | createBootstrap (record : StoredAccessToken)
  | authenticate (token : JsString) (record : StoredAccessToken)
  | mint (token : JsString) (parent : InternalPrincipal) (record : StoredAccessToken)

/-- What a call returns, or the exception it throws. -/
inductive TokenAnswer where
  | bootstrap (result : Except JsError StoredAccessToken)
  | authenticate (token : JsString) (principal : Option InternalPrincipal)
  | mint (result : Except JsError MintRunTokenResponse)
  | revoke (result : Except JsError (Option JsString))

/-- A stretch of a call leaves the table, and suspends or answers. -/
abbrev TokenStretch := TokenStore × Ending TokenPromise TokenAnswer

namespace AccessTokenService

variable (C : Crypto)

/-- The settled promise of a key derivation; the key is a function of what went in. -/
abbrev Derived := Except JsString Unit

/-- A failed derivation is a failed verification. -/
def verifySecret (token : JsString) (record : StoredAccessToken) (derived : Derived) : Bool :=
  derived.isOk && C.derive token record.salt = record.secretHash

def bootstrapConflict : TokenAnswer :=
  .bootstrap (.error
    (.new (js "Configured bootstrap app token conflicts with its persisted binding")))

/-- `ensureBootstrapAppToken` until it awaits the key. -/
def ensureBootstrapAppToken (token : JsString) (binding : BootstrapBinding)
    (allowScopeExpansion : Bool) (id salt : JsString) (S : TokenStore) : TokenStretch :=
  if isValidToken token = false then
    (S, .answers (.bootstrap (.error
      (.new (js "Access token must be a bounded single-line secret")))))
  else
    match S.getByLookupHash (C.lookup token) with
    | some existing =>
      if isActive S.now existing = false then (S, .answers bootstrapConflict)
      else (S, .suspends (.verifyBootstrap token binding allowScopeExpansion existing))
    | none =>
      (S, .suspends (.createBootstrap
        { id
          lookupHash := C.lookup token
          secretHash := C.derive token salt
          salt
          type := .app
          owner := binding.owner
          scopes := binding.scopes
          replayPolicy := .multiUse
          issuedAt := S.now
          keyGeneration := S.latestAppKeyGeneration binding.owner + 1 }))

/-- `ensureBootstrapAppToken` for a token that was there, from the key on. It goes by the row it
read before the wait. -/
def bootstrapVerified (token : JsString) (binding : BootstrapBinding) (allowScopeExpansion : Bool)
    (existing : StoredAccessToken) (derived : Derived) (S : TokenStore) : TokenStretch :=
  if verifySecret C token existing derived = false ∨ existing.type ≠ .app ∨
      existing.owner ≠ binding.owner then
    (S, .answers bootstrapConflict)
  else if sameStrings existing.scopes binding.scopes then
    (S, .answers (.bootstrap (.ok existing)))
  else if allowScopeExpansion = false ∨
      ¬∀ scope ∈ existing.scopes, scope ∈ binding.scopes.eraseDups then
    (S, .answers bootstrapConflict)
  else
    match S.updateAppScopes existing.id binding.scopes.eraseDups with
    | .error e => (S, .answers (.bootstrap (.error e)))
    | .ok S' =>
      (S', .answers (.bootstrap (.ok { existing with scopes := binding.scopes.eraseDups })))

/-- `ensureBootstrapAppToken` for a new token, from the key on. -/
def bootstrapCreated (record : StoredAccessToken) (derived : Derived) (S : TokenStore) :
    TokenStretch :=
  match derived with
  | .error message => (S, .answers (.bootstrap (.error (.new message))))
  | .ok _ =>
    match S.rotateApp record record.issuedAt with
    | .error e => (S, .answers (.bootstrap (.error e)))
    | .ok S' => (S', .answers (.bootstrap (.ok record)))

/-- `authenticate` until it awaits the key. -/
def authenticate (token : JsString) (S : TokenStore) : TokenStretch :=
  if isValidToken token = false then (S, .answers (.authenticate token none))
  else
    match S.getByLookupHash (C.lookup token) with
    | none => (S, .answers (.authenticate token none))
    | some record =>
      if isActive S.now record then (S, .suspends (.authenticate token record))
      else (S, .answers (.authenticate token none))

/-- The caller a token stands for. -/
def principalOf (record : StoredAccessToken) : InternalPrincipal where
  owner := record.owner
  scopes := record.scopes
  tokenId := some record.id
  tokenType := some record.type
  replayPolicy := some record.replayPolicy
  agentId := truthy record.agentId
  workspaceId := truthy record.workspaceId
  budgetCeiling := record.budgetCeiling

/-- `authenticate` from the key on. -/
def authenticated (token : JsString) (record : StoredAccessToken) (derived : Derived)
    (S : TokenStore) : TokenStretch :=
  if verifySecret C token record derived then
    (S, .answers (.authenticate token (some (principalOf record))))
  else (S, .answers (.authenticate token none))

/-- The row of the caller's token is an active app token with the caller's binding. -/
def BindingActive (parent : InternalPrincipal) (S : TokenStore) : Prop :=
  ∃ persisted ∈ (truthy parent.tokenId).bind S.getById, persisted.type = .app ∧
    isActive S.now persisted = true ∧ persisted.owner = parent.owner ∧
      sameStrings persisted.scopes parent.scopes = true

instance (parent : InternalPrincipal) (S : TokenStore) : Decidable (BindingActive parent S) :=
  inferInstanceAs (Decidable (∃ persisted ∈ Option.bind _ _, _))

/-- `[...new Set(request.scopes)].sort()`. -/
def runTokenScopes (request : MintRunTokenRequest) : List JsString :=
  request.scopes.eraseDups.insertionSort keyLe

/-- The row of a run token. -/
def runToken (parent : InternalPrincipal) (request : MintRunTokenRequest)
    (token id salt : JsString) (now : ℤ) : StoredAccessToken where
  id
  lookupHash := C.lookup token
  secretHash := C.derive token salt
  salt
  type := .run
  owner := parent.owner
  scopes := runTokenScopes request
  replayPolicy := .resourceBoundMultiUse
  agentId := truthy (request.agentId <|> parent.agentId)
  workspaceId := truthy (request.workspaceId <|> parent.workspaceId)
  budgetCeiling :=
    match parent.budgetCeiling with
    | some ceiling => some (ceiling.spread (request.budgetCeiling.getD {}))
    | none => request.budgetCeiling
  issuedAt := now
  expiresAt := some (now + request.ttlSeconds.getD 900 * 1000)
  keyGeneration := 1

def mintRefused (message : String) (S : TokenStore) : TokenStretch :=
  (S, .answers (.mint (.error (.new (js message)))))

/-- A binding of the request is not the one of the caller's token. -/
def Expands (bound requested : Option JsString) : Prop :=
  ∃ b ∈ truthy bound, ∃ r ∈ truthy requested, r ≠ b

instance (bound requested : Option JsString) : Decidable (Expands bound requested) :=
  inferInstanceAs (Decidable (∃ b ∈ truthy bound, ∃ r ∈ truthy requested, r ≠ b))

/-- `mintRunToken` until it awaits the key. -/
def mintRunToken (parent : InternalPrincipal) (request : MintRunTokenRequest)
    (secret id salt : JsString) (S : TokenStore) : TokenStretch :=
  if parent.tokenType ≠ some .app ∨ truthy parent.tokenId = none then
    mintRefused "Only an authenticated app credential can mint run tokens" S
  else if ¬BindingActive parent S then
    mintRefused "App credential binding is no longer active" S
  else if ¬∀ scope ∈ runTokenScopes request, scope ∈ parent.scopes then
    mintRefused "Run-token scopes must be a subset of the app credential" S
  else if ¬∀ scope ∈ runTokenScopes request, scope ∈ RUN_TOKEN_SCOPES then
    mintRefused "Run token requested an app-administration scope" S
  else if Expands parent.agentId request.agentId then
    mintRefused "Run token cannot expand the parent agent binding" S
  else if Expands parent.workspaceId request.workspaceId then
    mintRefused "Run token cannot expand the parent workspace binding" S
  else if ∃ requested ∈ request.budgetCeiling, ∃ ceiling ∈ parent.budgetCeiling,
      budgetWithin requested ceiling = false then
    mintRefused "Run token cannot expand the parent budget ceiling" S
  else
    (S, .suspends (.mint (js "lhr_" ++ secret) parent
      (runToken C parent request (js "lhr_" ++ secret) id salt S.now)))

/-- `mintRunToken` from the key on. -/
def minted (token : JsString) (parent : InternalPrincipal) (record : StoredAccessToken)
    (derived : Derived) (S : TokenStore) : TokenStretch :=
  match derived with
  | .error message => (S, .answers (.mint (.error (.new message))))
  | .ok _ =>
    match S.put record with
    | .error e => (S, .answers (.mint (.error e)))
    | .ok S' =>
      ({ S' with mintings := S'.mintings ++ [⟨record.id, parent⟩] },
        .answers (.mint (.ok
          { token
            tokenId := record.id
            expiresAt := record.expiresAt
            scopes := record.scopes
            replayPolicy := record.replayPolicy })))

/-- `revoke`: one stretch. The answer names the token that was revoked. -/
def revoke (parent : InternalPrincipal) (tokenId : JsString) (S : TokenStore) : TokenStretch :=
  if parent.tokenType ≠ some .app ∨ truthy parent.tokenId = none then
    (S, .answers (.revoke (.error
      (.new (js "Only an authenticated app credential can revoke run tokens")))))
  else if ¬BindingActive parent S then
    (S, .answers (.revoke (.error (.new (js "App credential binding is no longer active")))))
  else
    match S.getById tokenId with
    | none => (S, .answers (.revoke (.ok none)))
    | some target =>
      if target.type ≠ .run ∨ target.owner ≠ parent.owner then
        (S, .answers (.revoke (.ok none)))
      else
        ((S.revoke tokenId S.now).1,
          .answers (.revoke (.ok (if (S.revoke tokenId S.now).2 then some tokenId else none))))

/-! ## Histories -/

/-- What can happen. -/
inductive Input where
  /-- Time passes. -/
  | tick (milliseconds : ℕ)
  | ensureBootstrapAppToken (token : JsString) (binding : BootstrapBinding)
      (allowScopeExpansion : Bool) (id salt : JsString)
  | authenticate (token : JsString)
  | mintRunToken (parent : InternalPrincipal) (request : MintRunTokenRequest)
      (secret id salt : JsString)
  | revoke (parent : InternalPrincipal) (tokenId : JsString)
  /-- The key derivation that a call awaits has settled. -/
  | derived (call : ℕ) (derived : Derived)

/-- A suspended call goes on. -/
def resumed (derived : Derived) : TokenPromise → TokenStore → TokenStretch
  | .verifyBootstrap token binding allowScopeExpansion existing =>
    bootstrapVerified C token binding allowScopeExpansion existing derived
  | .createBootstrap record => bootstrapCreated record derived
  | .authenticate token record => authenticated C token record derived
  | .mint token parent record => minted token parent record derived

abbrev State := Calls TokenStore TokenPromise TokenAnswer

def step (s : State) : Input → State
  | .tick d => s.change fun S ↦ { S with now := S.now + d }
  | .ensureBootstrapAppToken token binding allowScopeExpansion id salt =>
    s.start (ensureBootstrapAppToken C token binding allowScopeExpansion id salt)
  | .authenticate token => s.start (authenticate C token)
  | .mintRunToken parent request secret id salt =>
    s.start (mintRunToken C parent request secret id salt)
  | .revoke parent tokenId => s.start (revoke parent tokenId)
  | .derived call derived => s.resume call (resumed C derived)

/-- The state a history leads to, from an empty table. -/
def after (history : List Input) : State := history.foldl (step C) { shared := {} }

end AccessTokenService

end LiteHarness
