import LiteHarness.ControlPlane.Agent
import LiteHarness.Foundation.Suspension
import LiteHarness.Provider.Models

/-!
# The single-flight credential broker

`SingleFlightCredentialBroker` caches the credentials of a source and refreshes the ones that are
about to expire, one refresh at a time for a profile. Its cache and its table of refreshes are
updated by continuations of the source's promises, which run whenever those settle: after any number
of other calls, of revocations and of milliseconds.

A refresh goes through three promises: the source's, the one of `then` (which checks and caches the
material) and the one of `finally` (which takes the refresh out of the table); callers wait for the
last. Counts of revocations tell what was fetched before which: they are a record of the run, not
part of the broker.
-/

namespace LiteHarness.Provider

open Foundation

structure CredentialMaterial where
  authorizationHeader : JsString
  /-- `Date.parse` of the field, if it is there; `none` where it is no date. -/
  expiresAt : Option (Option ℤ) := none
  deriving DecidableEq

/-- `expiresSoon`, at an instant. -/
def expiresSoon (material : CredentialMaterial) (skewMs now : ℤ) : Bool :=
  match material.expiresAt with
  | none => false
  | some none => true
  | some (some expiresAt) => decide (expiresAt ≤ now + skewMs)

/-- Material, and how often its profile had been revoked when its load or refresh was started. -/
structure Fetched where
  material : CredentialMaterial
  born : ℕ
  deriving DecidableEq

/-- A call of `resolve`, and how often its profile had been revoked before. -/
structure Resolution where
  profileId : JsString
  since : ℕ
  deriving DecidableEq

/-- What a call of `resolve` waits for. -/
inductive Awaiting where
  /-- `source.load(profileId, signal)`. -/
  | load (call : Resolution) (born : ℕ)
  /-- The refresh of this number. -/
  | refresh (call : Resolution) (number : ℕ)

/-- A call of `source.refresh` and its continuations. -/
structure Refresh where
  number : ℕ
  profileId : JsString
  born : ℕ
  /-- When the source answered, and what. -/
  settled : Option (ℤ × Except Thrown CredentialMaterial) := none
  /-- `finally` has run. -/
  finished : Bool := false

/-- What a call of `resolve` returned or threw, and when. -/
structure Resolved where
  call : Resolution
  returnedAt : ℤ
  /-- The refresh the call has waited for. -/
  waited : Option ℕ
  result : Except Thrown Fetched
  deriving DecidableEq

def credentialMissing : Thrown :=
  .provider ⟨js "credential_missing", js "Credential profile id is required", false⟩

def credentialExpired (profileId : JsString) : Thrown :=
  .provider ⟨js "credential_expired", js "Credential refresh failed for profile: " ++ profileId, true⟩

namespace Refresh

variable (task : Refresh)

/-- The continuation of `then`: what comes of an answer of the source. -/
def accept (now : ℤ) : Except Thrown CredentialMaterial → Except Thrown Fetched
  | .error e => .error e
  | .ok material =>
    if trim material.authorizationHeader = [] ∨ expiresSoon material 0 now = true then
      .error (credentialExpired task.profileId)
    else .ok ⟨material, task.born⟩

/-- What the callers that wait for the refresh are given. -/
def outcome : Option (Except Thrown Fetched) :=
  task.settled.map fun answer ↦ task.accept answer.1 answer.2

end Refresh

/-- The broker, its source and the clock, as the calls share them. -/
structure SingleFlightCredentialBroker where
  /-- `Date.now()`. -/
  now : ℤ := 0
  refreshSkewMs : ℤ := 60000
  /-- `#cache`. -/
  cache : List (JsString × Fetched) := []
  /-- `#refreshes`. -/
  refreshes : List (JsString × ℕ) := []
  /-- All refreshes ever started. -/
  tasks : List Refresh := []
  /-- The profiles that were revoked, one entry for each revocation. -/
  revoked : List JsString := []
  /-- The calls whose signal was aborted, and the reason. -/
  aborted : List (ℕ × Thrown) := []

namespace SingleFlightCredentialBroker

variable (s : SingleFlightCredentialBroker)

/-- How often a profile was revoked. -/
def revocations (profileId : JsString) : ℕ := s.revoked.count profileId

/-- `this.#cache.set(profileId, { ...material })`. -/
def store (profileId : JsString) (fetched : Fetched) : SingleFlightCredentialBroker :=
  { s with
    cache := Table.upsert Prod.fst (profileId, fetched) (fun _ ↦ (profileId, fetched)) s.cache }

/-- `awaitWithAbort(refresh, signal)`, up to its `await`. -/
def awaitWithAbort (n : ℕ) (call : Resolution) (number : ℕ) :
    SingleFlightCredentialBroker × Ending Awaiting Resolved :=
  match Table.lookup Prod.fst n s.aborted with
  | some (_, reason) => (s, .answers ⟨call, s.now, some number, .error reason⟩)
  | none => (s, .suspends (.refresh call number))

/-- The refresh of a profile, a new one unless one is in the table. -/
def join (n : ℕ) (call : Resolution) : SingleFlightCredentialBroker × Ending Awaiting Resolved :=
  match Table.lookup Prod.fst call.profileId s.refreshes with
  | some (_, number) => s.awaitWithAbort n call number
  | none =>
    { s with
      refreshes := s.refreshes ++ [(call.profileId, s.tasks.length)]
      tasks := s.tasks ++
        [⟨s.tasks.length, call.profileId, s.revocations call.profileId, none, false⟩]
      : SingleFlightCredentialBroker }.awaitWithAbort n call s.tasks.length

/-- `resolve`, once `current` is there. -/
def use (n : ℕ) (call : Resolution) (current : Option Fetched) :
    SingleFlightCredentialBroker × Ending Awaiting Resolved :=
  match current with
  | some fetched =>
    if expiresSoon fetched.material s.refreshSkewMs s.now = true then s.join n call
    else (s.store call.profileId fetched, .answers ⟨call, s.now, none, .ok fetched⟩)
  | none => s.join n call

/-- `resolve`, up to its first `await`. The signal may be aborted already. -/
def begin (n : ℕ) (profileId : JsString) (aborted : Option Thrown) :
    SingleFlightCredentialBroker × Ending Awaiting Resolved :=
  let call : Resolution := ⟨profileId, s.revocations profileId⟩
  if trim profileId = [] then (s, .answers ⟨call, s.now, none, .error credentialMissing⟩)
  else
    match aborted with
    | some reason => (s, .answers ⟨call, s.now, none, .error reason⟩)
    | none =>
      match Table.lookup Prod.fst profileId s.cache with
      | some (_, fetched) => s.use n call (some fetched)
      | none => (s, .suspends (.load call (s.revocations profileId)))

/-- `resolve`, once `load` has settled. -/
def loaded (n : ℕ) (call : Resolution) (born : ℕ) :
    Except Thrown (Option CredentialMaterial) →
      SingleFlightCredentialBroker × Ending Awaiting Resolved
  | .error e => (s, .answers ⟨call, s.now, none, .error e⟩)
  | .ok material => s.use n call (material.map fun m ↦ ⟨m, born⟩)

/-- `resolve`, once the refresh it waits for has settled. -/
def handed (call : Resolution) (number : ℕ) :
    SingleFlightCredentialBroker × Ending Awaiting Resolved :=
  match (Table.lookup Refresh.number number s.tasks).bind fun task ↦
      if task.finished then task.outcome else none with
  | some result => (s, .answers ⟨call, s.now, some number, result⟩)
  | none => (s, .suspends (.refresh call number))

/-- The signal of call `n` is aborted: only a call that waits for a refresh listens. -/
def abort (n : ℕ) (reason : Thrown) (awaiting : Awaiting) :
    SingleFlightCredentialBroker × Ending Awaiting Resolved :=
  let s := { s with aborted := s.aborted ++ [(n, reason)] }
  match awaiting with
  | .load _ _ => (s, .suspends awaiting)
  | .refresh call number => (s, .answers ⟨call, s.now, some number, .error reason⟩)

/-- The source has answered a refresh, and the continuation of `then` runs. -/
def refreshed (number : ℕ) (result : Except Thrown CredentialMaterial) :
    SingleFlightCredentialBroker :=
  match Table.lookup Refresh.number number s.tasks with
  | none => s
  | some task =>
    if task.settled.isSome then s
    else
      let settled := { s with
        tasks := Table.update (fun t ↦ t.number = number)
          (fun t ↦ { t with settled := some (s.now, result) }) s.tasks }
      match task.accept s.now result with
      | .error _ => settled
      | .ok fetched => settled.store task.profileId fetched

/-- The continuation of `finally` runs. -/
def finished (number : ℕ) : SingleFlightCredentialBroker :=
  match Table.lookup Refresh.number number s.tasks with
  | none => s
  | some task =>
    if task.settled.isNone ∨ task.finished = true then s
    else
      { s with
        refreshes := s.refreshes.filter fun q ↦ q.1 ≠ task.profileId
        tasks := Table.update (fun t ↦ t.number = number) (fun t ↦ { t with finished := true })
          s.tasks }

/-- `revoke`. -/
def revoke (profileId : JsString) : SingleFlightCredentialBroker :=
  { s with
    cache := s.cache.filter fun q ↦ q.1 ≠ profileId
    revoked := s.revoked ++ [profileId] }

end SingleFlightCredentialBroker

/-! ## Histories -/

/-- What happens next. Calls of `resolve` are named by their number. -/
inductive BrokerInput where
  | resolve (profileId : JsString) (aborted : Option Thrown)
  | loaded (n : ℕ) (result : Except Thrown (Option CredentialMaterial))
  | refreshed (number : ℕ) (result : Except Thrown CredentialMaterial)
  | finished (number : ℕ)
  /-- The continuation of a call that waits for a refresh. -/
  | goesOn (n : ℕ)
  | abort (n : ℕ) (reason : Thrown)
  | revoke (profileId : JsString)
  | clock (now : ℤ)

abbrev BrokerCalls := Calls SingleFlightCredentialBroker Awaiting Resolved

/-- The stretch call `n` runs for an input. An input for another promise leaves it waiting. -/
def brokerStretch (n : ℕ) : BrokerInput → Awaiting → SingleFlightCredentialBroker →
    SingleFlightCredentialBroker × Ending Awaiting Resolved
  | .loaded _ result, .load call born, s => s.loaded n call born result
  | .goesOn _, .refresh call number, s => s.handed call number
  | .abort _ reason, awaiting, s => s.abort n reason awaiting
  | _, awaiting, s => (s, .suspends awaiting)

namespace BrokerCalls

def step (c : BrokerCalls) : BrokerInput → BrokerCalls
  | .resolve profileId aborted => c.start fun s ↦ s.begin c.started profileId aborted
  | .loaded n result => c.resume n (brokerStretch n (.loaded n result))
  | .goesOn n => c.resume n (brokerStretch n (.goesOn n))
  | .abort n reason => c.resume n (brokerStretch n (.abort n reason))
  | .refreshed number result => c.change fun s ↦ s.refreshed number result
  | .finished number => c.change fun s ↦ s.finished number
  | .revoke profileId => c.change fun s ↦ s.revoke profileId
  | .clock now => c.change fun s ↦ { s with now := now }

/-- A broker that has just been built. -/
def init (refreshSkewMs now : ℤ) : BrokerCalls :=
  { shared := { now := now, refreshSkewMs := refreshSkewMs } }

def run (refreshSkewMs now : ℤ) (history : List BrokerInput) : BrokerCalls :=
  history.foldl step (init refreshSkewMs now)

end BrokerCalls

end LiteHarness.Provider
