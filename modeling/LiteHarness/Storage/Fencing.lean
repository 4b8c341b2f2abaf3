import LiteHarness.Foundation.FencedLock
import LiteHarness.Storage.Changes

/-!
# Workspace leases are fenced

The lease row of a workspace is a fenced lock, and every store operation moves it as a fenced lock
moves. The holders, their clocks and the order of their calls are arbitrary: an operation takes its
clock reading as an argument, and nothing relates the readings of two operations.
-/

namespace LiteHarness

open Foundation Foundation.Eff

namespace Store

/-- The lock a workspace's lease row keeps. -/
def leaseCell (S : Store) (w : JsString) : FencedCell JsString ℤ :=
  match S.lease? w with
  | some row => ⟨row.ownerRunId, row.fencingToken, row.expiresAt⟩
  | none => .initial

theorem leaseCell_congr {S S' : Store} (h : S'.leases = S.leases) (w : JsString) :
    S'.leaseCell w = S.leaseCell w := by
  rw [leaseCell, leaseCell, lease?, lease?, h]

theorem leaseCell_of_some {S : Store} {w : JsString} {row : LeaseRow} (h : S.lease? w = some row) :
    S.leaseCell w = ⟨row.ownerRunId, row.fencingToken, row.expiresAt⟩ := by
  rw [leaseCell, h]

theorem lease?_upsertLease (row : LeaseRow) (S : Store) (w : JsString) :
    (upsertLease row S).lease? w = if row.workspaceInternalId = w then
      some (((S.lease? w).map fun r ↦
        { row with workspaceInternalId := r.workspaceInternalId }).getD row) else S.lease? w :=
  Table.lookup_upsert (by intro r; rfl) w S.leases

theorem leaseCell_upsertLease (row : LeaseRow) (S : Store) (w : JsString) :
    (upsertLease row S).leaseCell w = if row.workspaceInternalId = w then
      ⟨row.ownerRunId, row.fencingToken, row.expiresAt⟩ else S.leaseCell w := by
  rw [leaseCell, leaseCell, lease?_upsertLease]
  split_ifs
  · cases S.lease? w <;> rfl
  · rfl

theorem lease?_updateLease (w : JsString) {f : LeaseRow → LeaseRow}
    (hf : ∀ r, (f r).workspaceInternalId = r.workspaceInternalId) (S : Store) (v : JsString) :
    (updateLease w f S).lease? v =
      (S.lease? v).map fun r ↦ if r.workspaceInternalId = w then f r else r := by
  refine (Table.lookup_update hf v S.leases).trans ?_
  simp only [decide_eq_true_eq]
  rfl

/-- The token of a grant, read off the lock. -/
theorem grantToken_eq (S : Store) (w runId : JsString) (now : ℤ) :
    grantToken (S.lease? w) runId now =
      if (S.leaseCell w).owner = some runId ∧ ∃ e ∈ (S.leaseCell w).expiry, now < e
      then (S.leaseCell w).token else (S.leaseCell w).token + 1 := by
  unfold grantToken leaseCell
  cases S.lease? w with
  | none => rfl
  | some row => rfl

theorem leaseRow?_eq_some {S : Store} {lease : WorkspaceLease} {row : LeaseRow}
    (h : S.leaseRow? lease = some row) :
    S.leaseTarget lease.ownerRunId lease.workspaceId = some row.workspaceInternalId ∧
      S.lease? row.workspaceInternalId = some row := by
  obtain ⟨w, htarget, hrow⟩ := Option.bind_eq_some_iff.mp h
  obtain rfl : row.workspaceInternalId = w := Table.key_of_lookup hrow
  exact ⟨htarget, hrow⟩

/-- An update of one lease row moves that lock and no other. -/
theorem leaseCell_updateLease_moves {S : Store} {row : LeaseRow} {f : LeaseRow → LeaseRow}
    (hf : ∀ r, (f r).workspaceInternalId = r.workspaceInternalId)
    (hrow : S.lease? row.workspaceInternalId = some row)
    (hstep : FencedCell.Step (⟨row.ownerRunId, row.fencingToken, row.expiresAt⟩ :
      FencedCell JsString ℤ) ⟨(f row).ownerRunId, (f row).fencingToken, (f row).expiresAt⟩)
    (w : JsString) :
    FencedCell.Moves (S.leaseCell w) ((updateLease row.workspaceInternalId f S).leaseCell w) := by
  by_cases hw : w = row.workspaceInternalId
  · subst hw
    rw [leaseCell_of_some hrow, leaseCell, lease?_updateLease _ hf, hrow, Option.map_some,
      if_pos rfl]
    exact Relation.ReflTransGen.single hstep
  · rw [leaseCell, leaseCell, lease?_updateLease _ hf]
    cases hv : S.lease? w with
    | none => exact Relation.ReflTransGen.refl
    | some r =>
      have hkey : r.workspaceInternalId = w := Table.key_of_lookup hv
      rw [Option.map_some, if_neg (hkey ▸ hw)]

/-- An acquisition keeps the lock for its holder or grants it. -/
theorem Acquired.moves {now : ℤ} {workspaceId runId : JsString} {ttlMs : ℤ} {w : JsString}
    {S S' : Store} (h : Acquired now workspaceId runId ttlMs w S S') (v : JsString) :
    FencedCell.Moves (S.leaseCell v) (S'.leaseCell v) := by
  rw [h.store, leaseCell_upsertLease]
  split_ifs with hw
  · dsimp only at hw
    subst hw
    rw [grantToken_eq]
    split_ifs with hlive
    · exact Relation.ReflTransGen.single (.keep _ hlive.1)
    · exact Relation.ReflTransGen.single (.grant _ _ _)
  · exact Relation.ReflTransGen.refl

end Store

/-- Every operation moves every workspace's lock as a fenced lock moves. -/
theorem StoreOp.leaseCell_moves (P : Platform) (op : StoreOp) (S : Store) (w : JsString) :
    FencedCell.Moves (S.leaseCell w) ((op.apply P S).leaseCell w) := by
  have hframe : ∀ {S' : Store}, S'.leases = S.leases →
      FencedCell.Moves (S.leaseCell w) (S'.leaseCell w) := by
    intro S' h
    rw [Store.leaseCell_congr h]
  rcases op.cases P S with h | h
  · exact hframe (congrArg Store.leases h)
  · generalize op.apply P S = S' at h
    cases h with
    | created h => exact hframe h.leases
    | appended => exact hframe rfl
    | message => exact hframe rfl
    | usage => exact hframe rfl
    | acquired h => exact h.moves w
    | renewed hrow =>
      exact Store.leaseCell_updateLease_moves (by intro r; rfl) (Store.leaseRow?_eq_some hrow).2
        (.renew _ _) w
    | released hrow =>
      exact Store.leaseCell_updateLease_moves (by intro r; rfl) (Store.leaseRow?_eq_some hrow).2
        (.release _) w
    | approvalCreated => exact hframe rfl
    | approvalResolved => exact hframe rfl
    | approvalRecorded => exact hframe rfl
    | attemptCreated => exact hframe rfl
    | attemptCompleted => exact hframe rfl
    | attemptsCompleted => exact hframe rfl
    | configured => exact hframe rfl

namespace Store

theorem leaseCell_after_moves (P : Platform) (history : List StoreOp) (S : Store) (w : JsString) :
    FencedCell.Moves (S.leaseCell w) ((S.after P history).leaseCell w) := by
  induction history generalizing S with
  | nil => exact Relation.ReflTransGen.refl
  | cons op history ih => exact (op.leaseCell_moves P S w).trans (ih (op.apply P S))

/-! ## What a lease object can still do -/

theorem validateWorkspaceLease_iff {now : ℤ} {lease : WorkspaceLease} {S : Store} {w : JsString}
    (hw : S.leaseTarget lease.ownerRunId lease.workspaceId = some w) :
    validateWorkspaceLease now lease S = true ↔
      (S.leaseCell w).Validates lease.ownerRunId lease.fencingToken now := by
  rw [validateWorkspaceLease, leaseRow?, hw, Option.bind_some, leaseCell]
  cases S.lease? w with
  | none => exact ⟨fun h ↦ absurd h Bool.false_ne_true, fun h ↦ absurd h.1 (by simp [FencedCell.initial])⟩
  | some row =>
    simp only [decide_eq_true_eq, LeaseRow.HeldBy, and_assoc]
    rfl

/-- The lease object names the row's holder and token. -/
theorem leaseCell_of_heldBy {S : Store} {lease : WorkspaceLease} {row : LeaseRow} {w : JsString}
    (hw : S.leaseTarget lease.ownerRunId lease.workspaceId = some w)
    (hrow : S.leaseRow? lease = some row) (hheld : row.HeldBy lease) :
    (S.leaseCell w).token = lease.fencingToken := by
  obtain ⟨htarget, hlookup⟩ := leaseRow?_eq_some hrow
  obtain rfl := Option.some.inj (hw.symm.trans htarget)
  rw [leaseCell_of_some hlookup]
  exact hheld.2

/-- No operation accepts a lease object whose token is below the stored one. -/
theorem stale_lease_refused {S : Store} {lease : WorkspaceLease} {w : JsString}
    (hw : S.leaseTarget lease.ownerRunId lease.workspaceId = some w)
    (hlt : lease.fencingToken < (S.leaseCell w).token) (now ttlMs : ℤ) :
    validateWorkspaceLease now lease S = false ∧
      (renewWorkspaceLease now lease ttlMs).run S = (.ok none, S) ∧
      (releaseWorkspaceLease now lease).run S = (.ok false, S) := by
  have hnot : ∀ row, S.leaseRow? lease = some row → ¬row.HeldBy lease := fun row hrow hheld ↦
    absurd (leaseCell_of_heldBy hw hrow hheld) (ne_of_gt hlt)
  refine ⟨?_, ?_, ?_⟩
  · refine Bool.eq_false_iff.mpr fun h ↦ ?_
    exact FencedCell.not_validates_of_lt hlt ((validateWorkspaceLease_iff hw).mp h)
  · rw [renewWorkspaceLease, run_get_bind]
    cases hrow : S.leaseRow? lease with
    | none => rfl
    | some row =>
      dsimp only
      rw [if_neg fun h ↦ hnot row hrow h.1]
      rfl
  · rw [releaseWorkspaceLease, run_get_bind]
    cases hrow : S.leaseRow? lease with
    | none => rfl
    | some row =>
      dsimp only
      rw [if_neg (hnot row hrow)]
      rfl

/-- A granted lease carries the stored token, which is new unless its run already held a live
lease. -/
theorem granted_lease {now : ℤ} {workspaceId runId : JsString} {ttlMs : ℤ} {S S' : Store}
    {lease : WorkspaceLease}
    (h : (acquireWorkspaceLease now workspaceId runId ttlMs).run S = (.ok (some lease), S')) :
    ∃ w, S.leaseTarget runId workspaceId = some w ∧
      (S'.leaseCell w).owner = some runId ∧ (S'.leaseCell w).token = lease.fencingToken ∧
      ((S.leaseCell w).owner = some runId ∧ (S.leaseCell w).Live now →
        lease.fencingToken = (S.leaseCell w).token) ∧
      (¬((S.leaseCell w).owner = some runId ∧ (S.leaseCell w).Live now) →
        (S.leaseCell w).token < lease.fencingToken) := by
  rcases acquireWorkspaceLease_eq_ok h with ⟨hnone, -⟩ | ⟨w, hacquired, hlease⟩
  · exact absurd hnone (Option.some_ne_none lease)
  · obtain rfl := Option.some.inj hlease
    refine ⟨w, hacquired.target, ?_, ?_, ?_, ?_⟩
    · rw [hacquired.store, leaseCell_upsertLease, if_pos rfl]
    · rw [hacquired.store, leaseCell_upsertLease, if_pos rfl]
    · intro hlive
      exact (grantToken_eq S w runId now).trans (if_pos hlive)
    · intro hlapsed
      have htoken := (grantToken_eq S w runId now).trans (if_neg hlapsed)
      dsimp only
      omega

/-- **Workspace leases are fenced.** From every store, along every history of operations with any
clock readings: the stored token never decreases; a change of owner, and a grant to a run that does
not hold a live lease, takes a larger token; from a grant with token `n` on, no lease object with a
smaller token validates, renews or releases; and two lease objects of a workspace that validate
have the same owner and token. -/
theorem workspaceLease_fenced (P : Platform) (S : Store) :
    (∀ history w, (S.leaseCell w).token ≤ ((S.after P history).leaseCell w).token) ∧
    (∀ history w who, (S.leaseCell w).owner ≠ some who →
      ((S.after P history).leaseCell w).owner = some who →
      (S.leaseCell w).token < ((S.after P history).leaseCell w).token) ∧
    (∀ now workspaceId runId ttlMs S' lease,
      (acquireWorkspaceLease now workspaceId runId ttlMs).run S = (.ok (some lease), S') →
      ∃ w, S.leaseTarget runId workspaceId = some w ∧
        (S'.leaseCell w).owner = some runId ∧ (S'.leaseCell w).token = lease.fencingToken ∧
        (¬((S.leaseCell w).owner = some runId ∧ (S.leaseCell w).Live now) →
          (S.leaseCell w).token < lease.fencingToken) ∧
        ∀ history stale, stale.fencingToken < lease.fencingToken →
          (S'.after P history).leaseTarget stale.ownerRunId stale.workspaceId = some w →
          ∀ now' ttlMs', validateWorkspaceLease now' stale (S'.after P history) = false ∧
            (renewWorkspaceLease now' stale ttlMs').run (S'.after P history)
              = (.ok none, S'.after P history) ∧
            (releaseWorkspaceLease now' stale).run (S'.after P history)
              = (.ok false, S'.after P history)) ∧
    (∀ lease lease' w now now', S.leaseTarget lease.ownerRunId lease.workspaceId = some w →
      S.leaseTarget lease'.ownerRunId lease'.workspaceId = some w →
      validateWorkspaceLease now lease S = true → validateWorkspaceLease now' lease' S = true →
      lease.ownerRunId = lease'.ownerRunId ∧ lease.fencingToken = lease'.fencingToken) := by
  refine ⟨fun history w ↦ (leaseCell_after_moves P history S w).token_le, ?_, ?_, ?_⟩
  · intro history w who hne howner
    exact (leaseCell_after_moves P history S w).token_lt_of_owner howner hne
  · intro now workspaceId runId ttlMs S' lease hgrant
    obtain ⟨w, htarget, howner, htoken, -, hnew⟩ := granted_lease hgrant
    refine ⟨w, htarget, howner, htoken, hnew, fun history stale hlt hstale now' ttlMs' ↦ ?_⟩
    refine stale_lease_refused hstale (lt_of_lt_of_le ?_
      (leaseCell_after_moves P history S' w).token_le) now' ttlMs'
    rwa [htoken]
  · intro lease lease' w now now' hw hw' hv hv'
    exact ((validateWorkspaceLease_iff hw).mp hv).unique ((validateWorkspaceLease_iff hw').mp hv')

end Store

end LiteHarness
