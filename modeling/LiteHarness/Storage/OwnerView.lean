import LiteHarness.Foundation.Noninterference
import LiteHarness.Storage.Idempotency
import LiteHarness.Storage.Linked

/-!
# What the store shows an owner

The rows of an owner are the runs, agents, workspaces, sessions and provider connections that name
him, with the events, approvals and attempts of his runs and the messages of his sessions. Two
stores are `Alike` for him when these rows are the same. Leases are left out: nothing that reads
the other tables looks at them.

`Separated` is the invariant that makes the rows of different owners independent: what refers to a
row by an internal id or a run id has the owner of that row.
-/

namespace LiteHarness

open Foundation

/-! ## Operations and their issuers -/

/-- The principal on whose behalf an operation is made: the one it names, or the owner of the run
it is about. -/
def StoreOp.issuer (S : Store) : StoreOp → Option ResourceOwner
  | createOrGetRun _ _ _ request => some request.principal
  | appendEvent _ params => (S.run? params.runId).map RunRow.owner
  | appendSessionMessage _ params => (S.run? params.runId).map RunRow.owner
  | recordUsage _ runId _ => (S.run? runId).map RunRow.owner
  | acquireWorkspaceLease _ _ runId _ => (S.run? runId).map RunRow.owner
  | renewWorkspaceLease _ lease _ => (S.run? lease.ownerRunId).map RunRow.owner
  | releaseWorkspaceLease _ lease => (S.run? lease.ownerRunId).map RunRow.owner
  | createApproval record => (S.run? record.runId).map RunRow.owner
  | resolveApproval _ id _ _ =>
    (S.approval? id).bind fun a ↦ (S.run? a.runId).map RunRow.owner
  | resolveApprovalAndAppendEvent _ _ id _ _ _ =>
    (S.approval? id).bind fun a ↦ (S.run? a.runId).map RunRow.owner
  | createRunAttempt _ runId _ => (S.run? runId).map RunRow.owner
  | completeRunAttempt _ id _ =>
    (Table.lookup AttemptRow.id id S.attempts).bind fun a ↦ (S.run? a.runId).map RunRow.owner
  | completeRunningAttempts _ runId _ => (S.run? runId).map RunRow.owner
  | createAgentProfile _ record => some record.owner
  | deleteAgentProfile _ owner => some owner
  | createWorkspace _ record => some record.owner
  | updateWorkspaceState _ _ owner _ _ => some owner
  | createProviderConnection _ record => some record.owner
  | updateProviderConnection _ _ owner _ _ => some owner
  | deleteProviderConnection _ owner => some owner

/-- The ids the operation draws at random are new to the store. -/
def StoreOp.DrawsFresh (S : Store) : StoreOp → Prop
  | createOrGetRun _ fresh id _ =>
    id ≠ [] ∧ (∀ r ∈ S.runs, r.id ≠ id) ∧ (∀ a ∈ S.agents, a.internalId ≠ fresh.agent) ∧
      (∀ w ∈ S.workspaces, w.internalId ≠ fresh.workspace) ∧
      (∀ s ∈ S.sessions, s.internalId ≠ fresh.session) ∧
      ∀ m ∈ S.messages, m.id ≠ js "msg_" ++ id.drop 4 ++ js "_user"
  | appendSessionMessage _ params => ∀ m ∈ S.messages, m.id ≠ params.id
  | createApproval record => ∀ a ∈ S.approvals, a.id ≠ record.id
  | createRunAttempt _ _ id => ∀ a ∈ S.attempts, a.id ≠ id
  | createAgentProfile internalId _ => ∀ a ∈ S.agents, a.internalId ≠ internalId
  | createWorkspace internalId _ => ∀ w ∈ S.workspaces, w.internalId ≠ internalId
  | createProviderConnection internalId _ => ∀ c ∈ S.connections, c.internalId ≠ internalId
  | _ => True

instance (S : Store) (op : StoreOp) : Decidable (op.DrawsFresh S) := by
  unfold StoreOp.DrawsFresh
  split <;> infer_instance

/-- A history of calls from the empty database whose random ids never repeat. -/
structure GeneratedHistory (P : Platform) where
  /-- The calls, with the ids they draw and the clock readings they take. -/
  calls : List StoreOp
  fresh : Throughout (fun S op ↦ StoreOp.apply P op S) (fun S op ↦ op.DrawsFresh S) {} calls

/-- The store after the history. -/
def GeneratedHistory.store {P : Platform} (history : GeneratedHistory P) : Store :=
  Store.after P {} history.calls

/-- The calls of a history that are made on behalf of a principal. -/
def GeneratedHistory.callsOf {P : Platform} (history : GeneratedHistory P) (B : ResourceOwner) :
    List StoreOp :=
  ownSteps (fun S op ↦ StoreOp.apply P op S) (fun S op ↦ op.issuer S = some B) {} history.calls

namespace Store

/-! ## The rows of an owner -/

/-- The run is one of the owner's. -/
def ownsRun (S : Store) (B : ResourceOwner) (id : JsString) : Bool :=
  S.runs.any fun row ↦ row.owner = B ∧ row.id = id

/-- The session with this internal id is one of the owner's. -/
def ownsSession (S : Store) (B : ResourceOwner) (internalId : JsString) : Bool :=
  S.sessions.any fun session ↦ session.owner = B ∧ session.internalId = internalId

/-- Two stores have the same rows of an owner, where `I` contains his runs and `J` his sessions. -/
structure AlikeOn (B : ResourceOwner) (I J : JsString → Bool) (S T : Store) : Prop where
  runs : (S.runs.filter fun row ↦ row.owner = B) = T.runs.filter fun row ↦ row.owner = B
  agents : (S.agents.filter fun row ↦ row.owner = B) = T.agents.filter fun row ↦ row.owner = B
  workspaces : (S.workspaces.filter fun row ↦ row.owner = B)
    = T.workspaces.filter fun row ↦ row.owner = B
  sessions : (S.sessions.filter fun row ↦ row.owner = B)
    = T.sessions.filter fun row ↦ row.owner = B
  connections : (S.connections.filter fun row ↦ row.owner = B)
    = T.connections.filter fun row ↦ row.owner = B
  events : (S.events.filter fun e ↦ I e.runId) = T.events.filter fun e ↦ I e.runId
  approvals : (S.approvals.filter fun a ↦ I a.runId) = T.approvals.filter fun a ↦ I a.runId
  attempts : (S.attempts.filter fun a ↦ I a.runId) = T.attempts.filter fun a ↦ I a.runId
  messages : (S.messages.filter fun m ↦ J m.sessionInternalId)
    = T.messages.filter fun m ↦ J m.sessionInternalId
  ownRuns : ∀ k, S.ownsRun B k = true → I k = true
  ownSessions : ∀ k, S.ownsSession B k = true → J k = true

/-- Two stores have the same rows of an owner. -/
def Alike (B : ResourceOwner) (S T : Store) : Prop :=
  AlikeOn B (S.ownsRun B) (S.ownsSession B) S T

section Rows

variable {B : ResourceOwner} {I J I' J' : JsString → Bool} {S T U : Store} {k : JsString}

theorem ownsRun_eq_true_iff : S.ownsRun B k = true ↔ ∃ row ∈ S.runs, row.owner = B ∧ row.id = k := by
  simp [ownsRun]

theorem ownsSession_eq_true_iff :
    S.ownsSession B k = true ↔ ∃ s ∈ S.sessions, s.owner = B ∧ s.internalId = k := by
  simp [ownsSession]

/-- The owner's runs are the rows that name him. -/
theorem ownsRun_eq_any :
    S.ownsRun B k = (S.runs.filter fun row ↦ row.owner = B).any fun row ↦ row.id = k := by
  rw [ownsRun, List.any_filter]
  simp

theorem ownsSession_eq_any :
    S.ownsSession B k
      = (S.sessions.filter fun s ↦ s.owner = B).any fun s ↦ s.internalId = k := by
  rw [ownsSession, List.any_filter]
  simp

theorem AlikeOn.ownsRun_eq (h : AlikeOn B I J S T) : T.ownsRun B = S.ownsRun B := by
  funext k
  rw [ownsRun_eq_any, ownsRun_eq_any, h.runs]

theorem AlikeOn.ownsSession_eq (h : AlikeOn B I J S T) : T.ownsSession B = S.ownsSession B := by
  funext k
  rw [ownsSession_eq_any, ownsSession_eq_any, h.sessions]

theorem AlikeOn.symm (h : AlikeOn B I J S T) : AlikeOn B I J T S where
  runs := h.runs.symm
  agents := h.agents.symm
  workspaces := h.workspaces.symm
  sessions := h.sessions.symm
  connections := h.connections.symm
  events := h.events.symm
  approvals := h.approvals.symm
  attempts := h.attempts.symm
  messages := h.messages.symm
  ownRuns k hk := h.ownRuns k (h.ownsRun_eq ▸ hk)
  ownSessions k hk := h.ownSessions k (h.ownsSession_eq ▸ hk)

theorem AlikeOn.trans (h : AlikeOn B I J S T) (h' : AlikeOn B I J T U) : AlikeOn B I J S U where
  runs := h.runs.trans h'.runs
  agents := h.agents.trans h'.agents
  workspaces := h.workspaces.trans h'.workspaces
  sessions := h.sessions.trans h'.sessions
  connections := h.connections.trans h'.connections
  events := h.events.trans h'.events
  approvals := h.approvals.trans h'.approvals
  attempts := h.attempts.trans h'.attempts
  messages := h.messages.trans h'.messages
  ownRuns := h.ownRuns
  ownSessions := h.ownSessions

/-- A selection within a selection. -/
theorem filter_of_filter_eq {ρ : Type} {p q : ρ → Bool} {rows rows' : List ρ}
    (h : rows.filter q = rows'.filter q) (hpq : ∀ r, p r = true → q r = true) :
    rows.filter p = rows'.filter p := by
  have hboth : ∀ l : List ρ, (l.filter q).filter p = l.filter p := by
    intro l
    rw [List.filter_filter]
    refine List.filter_congr fun r _ ↦ ?_
    by_cases hp : p r = true
    · simp [hp, hpq r hp]
    · simp [hp]
  rw [← hboth rows, h, hboth]

/-- Whatever else the two stores agree on, they agree on the owner's rows. -/
theorem AlikeOn.alike (h : AlikeOn B I J S T) : Alike B S T :=
  { h with
    events := filter_of_filter_eq h.events fun e ↦ h.ownRuns e.runId
    approvals := filter_of_filter_eq h.approvals fun a ↦ h.ownRuns a.runId
    attempts := filter_of_filter_eq h.attempts fun a ↦ h.ownRuns a.runId
    messages := filter_of_filter_eq h.messages fun m ↦ h.ownSessions m.sessionInternalId
    ownRuns := fun _ hk ↦ hk
    ownSessions := fun _ hk ↦ hk }

theorem Alike.refl (B : ResourceOwner) (S : Store) : Alike B S S := by
  constructor
  all_goals first | rfl | exact fun _ hk ↦ hk

theorem Alike.symm (h : Alike B S T) : Alike B T S := (AlikeOn.symm h).alike

theorem Alike.trans (h : Alike B S T) (h' : Alike B T U) : Alike B S U := by
  rw [Alike, AlikeOn.ownsRun_eq h, AlikeOn.ownsSession_eq h] at h'
  exact AlikeOn.trans h h'

end Rows

end Store

end LiteHarness
