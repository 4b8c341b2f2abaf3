import LiteHarness.Foundation.Suspension
import LiteHarness.Storage.Operations

/-!
# Provider connections

The routes of the Manager that create a provider connection, log in to it and delete it. The row of
a connection is in the database and its secret in a secret store of its own, under the credential
profile of the row. A login stores the secret and then marks the row ready; a deletion removes the
secret and then the row. In between each of them waits for the secret store, and meanwhile other
requests go on.

A call of the secret store takes effect at some point while the request waits, if it does; that it
succeeds means that it has. One step is what runs of a request up to its next suspension, or the
effect of its call. Beside the state it is noted which request wrote a secret and for which row, the
secret of the last login of a profile that was answered with success, and whose secrets a deletion
has removed.
-/

namespace LiteHarness

open Foundation

/-- `randomUUID().replaceAll("-", "")`, by the number of the call. -/
structure Uuids where
  uuid : ℕ → JsString
  /-- No two calls give the same. -/
  uuid_injective : Function.Injective uuid

/-- The body of a creation that passes its schema and whose endpoint is valid. -/
structure CreateProviderConnectionRequest where
  id : Option JsString := none
  providerId : JsString
  modelIds : Option (List JsString) := none

/-- A secret in the store, with the request that wrote it and the row it was written for. -/
structure StoredSecret where
  secret : JsString
  writer : ℕ
  internalId : JsString
  deriving DecidableEq

/-- What a request does with the secret store. -/
inductive SecretCall where
  | set (secret : JsString)
  | delete
  deriving DecidableEq

/-- A request that waits for the secret store, with the row it has read. -/
structure ConnectionRequest where
  number : ℕ
  call : SecretCall
  connection : ProviderConnectionRow
  /-- The call has taken effect. -/
  effected : Bool := false

/-- An answer of the routes. -/
inductive ConnectionAnswer where
  | created (record : ProviderConnectionRecord)
  | loggedIn
  | deleted (connectionId : JsString)
  | error (status : ℕ) (code message : JsString)

/-- The service: the database, the secret store and the requests in progress, with what is noted. -/
structure ConnectionService where
  store : Store := {}
  secrets : JsString → Option StoredSecret := fun _ ↦ none
  inProgress : List ConnectionRequest := []
  /-- The requests that were taken in. -/
  requests : ℕ := 0
  /-- The identifiers that were drawn. -/
  drawn : ℕ := 0
  answers : List (ℕ × ConnectionAnswer) := []
  lastLogin : JsString → Option JsString := fun _ ↦ none
  /-- The rows whose secret was removed, each behind the row of the deletion. -/
  removals : List (JsString × JsString) := []

namespace ConnectionService

variable (U : Uuids) (s : ConnectionService)

/-- `cred_…`. -/
def credentialProfileId (k : ℕ) : JsString := js "cred_" ++ U.uuid k

/-- A request is answered. -/
def answer (number : ℕ) (a : ConnectionAnswer) : ConnectionService :=
  { s with answers := s.answers ++ [(number, a)] }

def notFound : ConnectionAnswer :=
  .error 404 (js "not_found") (js "Provider connection not found")

/-- `POST /internal/provider-connections`. -/
def create (now : ℤ) (owner : ResourceOwner) (body : CreateProviderConnectionRequest) :
    ConnectionService :=
  let record : ProviderConnectionRecord :=
    { id := body.id.getD (js "pc_" ++ U.uuid s.drawn)
      owner
      providerId := body.providerId
      credentialProfileId := credentialProfileId U (s.drawn + 1)
      modelIds := body.modelIds.getD []
      status := .needsLogin
      createdAt := now
      updatedAt := now }
  let internalId := js "pc_" ++ U.uuid (s.drawn + 2)
  let r := (Store.createProviderConnection internalId record).run s.store
  let s' := { s with store := r.2, drawn := s.drawn + 3, requests := s.requests + 1 }
  match r.1 with
  | .ok _ => s'.answer s.requests (.created record)
  | .error e => s'.answer s.requests (.error 409 (js "provider_connection_conflict") e.message)

/-- A login or a deletion up to its call of the secret store. -/
def takeIn (call : SecretCall) (owner : ResourceOwner) (connectionId : JsString) :
    ConnectionService :=
  let s' := { s with requests := s.requests + 1 }
  match s.store.connection? owner connectionId with
  | none => s'.answer s.requests notFound
  | some connection =>
    { s' with inProgress := s.inProgress ++ [⟨s.requests, call, connection, false⟩] }

/-- The call of a request takes effect in the secret store. -/
def takeEffect (request : ConnectionRequest) : ConnectionService :=
  let profile := request.connection.credentialProfileId
  let s' := { s with
    inProgress := Table.update (fun r ↦ r.number = request.number)
      (fun r ↦ { r with effected := true }) s.inProgress }
  match request.call with
  | .set secret =>
    { s' with
      secrets := Function.update s.secrets profile
        (some ⟨secret, request.number, request.connection.internalId⟩) }
  | .delete =>
    { s' with
      secrets := Function.update s.secrets profile none
      removals := s.removals ++ (s.secrets profile).toList.map fun stored ↦
        (request.connection.internalId, stored.internalId) }

/-- The request no longer waits. -/
def finish (number : ℕ) : ConnectionService :=
  { s with inProgress := s.inProgress.filter fun r ↦ r.number ≠ number }

/-- `updateProviderConnection`. -/
def setStatus (now : ℤ) (c : ProviderConnectionRow) (status : ProviderConnectionStatus)
    (lastErrorCode : Option JsString) : ConnectionService :=
  { s with
    store := ((Store.updateProviderConnection now c.id c.owner status lastErrorCode).run s.store).2 }

/-- `/^[A-Za-z0-9_.-]{1,128}$/u.test(message)`. -/
def isErrorCode (message : JsString) : Bool :=
  1 ≤ message.length && message.length ≤ 128 && message.all fun u ↦
    (48 ≤ u && u ≤ 57) || (65 ≤ u && u ≤ 90) || (97 ≤ u && u ≤ 122) || u == 95 || u == 46 || u == 45

/-- A request goes on when its call has succeeded. -/
def succeed (now : ℤ) (request : ConnectionRequest) : ConnectionService :=
  let c := request.connection
  let s := s.finish request.number
  match request.call with
  | .set secret =>
    { (s.setStatus now c .ready none).answer request.number .loggedIn with
      lastLogin := Function.update s.lastLogin c.credentialProfileId (some secret) }
  | .delete =>
    let s' := { s with store := ((Store.deleteProviderConnection c.id c.owner).run s.store).2 }
    s'.answer request.number
      (if (s.store.connection? c.owner c.id).isSome then .deleted c.id else notFound)

/-- A request goes on when its call has failed. -/
def fail (now : ℤ) (request : ConnectionRequest) (message : JsString) : ConnectionService :=
  let c := request.connection
  let s := s.finish request.number
  match request.call with
  | .set _ =>
    let code := if isErrorCode message then message else js "provider_login_failed"
    (s.setStatus now c .error (some code)).answer request.number
      (.error 502 (js "provider_login_failed") (js "Provider credential could not be stored"))
  | .delete =>
    s.answer request.number (.error 409 (js "provider_connection_delete_failed") message)

end ConnectionService

/-- What can happen to the service. -/
inductive ConnectionInput where
  | create (now : ℤ) (owner : ResourceOwner) (body : CreateProviderConnectionRequest)
  | login (owner : ResourceOwner) (connectionId secret : JsString)
  | delete (owner : ResourceOwner) (connectionId : JsString)
  /-- The call of a request takes effect. -/
  | takesEffect (number : ℕ)
  /-- The call of a request has succeeded, and the request goes on. -/
  | succeeds (now : ℤ) (number : ℕ)
  | fails (now : ℤ) (number : ℕ) (message : JsString)

namespace ConnectionService

variable (U : Uuids)

/-- The request in progress that has the number. -/
def request? (s : ConnectionService) (number : ℕ) : Option ConnectionRequest :=
  Table.lookup ConnectionRequest.number number s.inProgress

/-- One step. A call takes effect once, and has done so when it succeeds. -/
def step (s : ConnectionService) : ConnectionInput → ConnectionService
  | .create now owner body => s.create U now owner body
  | .login owner connectionId secret => s.takeIn (.set secret) owner connectionId
  | .delete owner connectionId => s.takeIn .delete owner connectionId
  | .takesEffect number =>
    match s.request? number with
    | some request => if request.effected then s else s.takeEffect request
    | none => s
  | .succeeds now number =>
    match s.request? number with
    | some request => if request.effected then s.succeed now request else s
    | none => s
  | .fails now number message =>
    match s.request? number with
    | some request => s.fail now request message
    | none => s

/-- The service after some inputs. -/
def after (inputs : List ConnectionInput) : ConnectionService := inputs.foldl (step U) {}

/-! ## What is right about the service -/

/-- Whenever no request is in progress, ready connections have a secret, secrets belong to
connections, and the secret of one is that of the last login that was answered with success. At any
time the secret of a connection was written for its row, and a deletion has removed no other. -/
structure Sound (s : ConnectionService) : Prop where
  ready : s.inProgress = [] → ∀ c ∈ s.store.connections, c.status = .ready →
    s.secrets c.credentialProfileId ≠ none
  owned : s.inProgress = [] → ∀ profile, s.secrets profile ≠ none →
    ∃ c ∈ s.store.connections, c.credentialProfileId = profile
  last : s.inProgress = [] → ∀ profile stored, s.secrets profile = some stored →
    s.lastLogin profile = some stored.secret
  own : ∀ c ∈ s.store.connections, ∀ stored ∈ s.secrets c.credentialProfileId,
    stored.internalId = c.internalId
  removals : ∀ r ∈ s.removals, r.1 = r.2

/-! ## The condition -/

/-- A deletion in progress has removed the secret of the profile. -/
def Removed (s : ConnectionService) (profile : JsString) : Prop :=
  ∃ r ∈ s.inProgress, r.call = .delete ∧ r.effected = true ∧
    r.connection.credentialProfileId = profile

instance (s : ConnectionService) (profile : JsString) : Decidable (s.Removed profile) :=
  inferInstanceAs (Decidable (∃ r ∈ s.inProgress, _))

/-- A secret is stored for a row that is there, and that no deletion in progress has taken the
secret of. -/
def Stores (s : ConnectionService) (request : ConnectionRequest) : Prop :=
  request.call ≠ .delete →
    (∃ c ∈ s.store.connections,
        c.credentialProfileId = request.connection.credentialProfileId) ∧
      ¬ s.Removed request.connection.credentialProfileId

instance (s : ConnectionService) (request : ConnectionRequest) : Decidable (s.Stores request) :=
  inferInstanceAs (Decidable (_ → _))

/-- A request that goes on finds under the id of its row that row or none, and, when it is a login,
no secret of a login that was answered before. -/
def GoesOn (s : ConnectionService) (request : ConnectionRequest) : Prop :=
  (∀ c ∈ s.store.connection? request.connection.owner request.connection.id,
      c.credentialProfileId = request.connection.credentialProfileId) ∧
    (request.call ≠ .delete → ∀ stored ∈ s.secrets request.connection.credentialProfileId,
      ∃ r ∈ s.inProgress, r.number = stored.writer)

instance (s : ConnectionService) (request : ConnectionRequest) : Decidable (s.GoesOn request) :=
  inferInstanceAs (Decidable (_ ∧ _))

/-- The step is one the routes provide for. -/
def Orderly (s : ConnectionService) : ConnectionInput → Prop
  | .takesEffect number =>
    ∀ request ∈ s.request? number, request.effected = false → s.Stores request
  | .succeeds _ number => ∀ request ∈ s.request? number, request.effected = true → s.GoesOn request
  | .fails _ number _ => ∀ request ∈ s.request? number, request.effected = false
  | _ => True

instance : ∀ (s : ConnectionService) i, Decidable (s.Orderly i)
  | s, .takesEffect number => inferInstanceAs (Decidable (∀ request ∈ s.request? number,
      request.effected = false → s.Stores request))
  | s, .succeeds _ number => inferInstanceAs (Decidable (∀ request ∈ s.request? number,
      request.effected = true → s.GoesOn request))
  | s, .fails _ number _ => inferInstanceAs (Decidable (∀ request ∈ s.request? number,
      request.effected = false))
  | _, .create .. => isTrue trivial
  | _, .login .. => isTrue trivial
  | _, .delete .. => isTrue trivial

end ConnectionService

end LiteHarness
