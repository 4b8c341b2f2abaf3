import LiteHarness.Storage.Migration
import LiteHarness.Storage.Idempotency

/-!
# Idempotency keys across an upgrade

Migration 6 writes in SQL the encoding that `scopedIdempotencyKey` writes in TypeScript. The number
in front of the user id is its length, and the two languages count differently: SQLite counts code
points and JavaScript counts UTF-16 code units. The two keys agree exactly for user ids without
surrogate pairs, and a run whose key does not agree is never found again.
-/

namespace LiteHarness

open Foundation Foundation.Eff

/-! ## Two lengths of a string -/

/-- No two code units make one code point. -/
def NoSurrogatePair (s : JsString) : Prop :=
  s.IsChain fun u v ↦ ¬(isLead u = true ∧ isTrail v = true)

theorem sqlLength_le (s : JsString) : sqlLength s ≤ s.length := by
  rw [sqlLength]
  induction s using codePoints.induct with
  | case1 => simp [codePoints]
  | case2 u => simp [codePoints]
  | case3 u v rest hpair ih =>
    rw [codePoints, if_pos hpair, List.length_cons, List.length_cons, List.length_cons]
    omega
  | case4 u v rest hpair ih =>
    rw [codePoints, if_neg hpair, List.length_cons, List.length_cons]
    omega

/-- **SQLite and JavaScript count alike** exactly where there is no surrogate pair. -/
theorem sqlLength_eq_iff {s : JsString} : sqlLength s = s.length ↔ NoSurrogatePair s := by
  rw [sqlLength, NoSurrogatePair]
  induction s using codePoints.induct with
  | case1 => simp [codePoints]
  | case2 u => simp [codePoints]
  | case3 u v rest hpair ih =>
    have hle : (codePoints rest).length ≤ rest.length := sqlLength_le rest
    rw [codePoints, if_pos hpair, List.length_cons, List.length_cons, List.length_cons,
      List.isChain_cons_cons]
    constructor
    · intro h
      omega
    · intro h
      exact absurd (Bool.and_eq_true_iff.mp hpair) h.1
  | case4 u v rest hpair ih =>
    rw [codePoints, if_neg hpair, List.length_cons, List.length_cons, List.isChain_cons_cons, ← ih,
      List.length_cons]
    constructor
    · intro h
      exact ⟨fun hboth ↦ hpair (Bool.and_eq_true_iff.mpr hboth), by omega⟩
    · intro h
      omega

namespace LegacyTables

/-! ## The two encodings -/

theorem scopedIdempotencyKey_eq (userId key : JsString) : scopedIdempotencyKey userId key
    = decimal userId.length ++ colon :: (userId ++ colon :: key) := by
  simp [scopedIdempotencyKey, sized, lengthPrefixed]

theorem sqlScopedKey_eq_iff {userId : JsString} (key : JsString) :
    sqlScopedKey userId key = scopedIdempotencyKey userId key ↔ NoSurrogatePair userId := by
  rw [sqlScopedKey, scopedIdempotencyKey_eq, ← sqlLength_eq_iff]
  constructor
  · intro h
    exact decimal_injective (List.append_cancel_right h)
  · intro h
    rw [h]

/-- The key shown for a migrated run is the one its caller gave. -/
theorem publicIdempotencyKey_sqlScopedKey_iff {userId : JsString} (key : JsString)
    (hlength : (userId.length : ℤ) ≤ maxSafeInteger) :
    publicIdempotencyKey (sqlScopedKey userId key) = key ↔ NoSurrogatePair userId := by
  constructor
  · intro h
    rw [← sqlLength_eq_iff]
    refine le_antisymm (sqlLength_le userId) (not_lt.mp fun hlt ↦ ?_)
    -- a number below the user id's length leaves too much behind
    rw [sqlScopedKey, publicIdempotencyKey_numbered (by omega)] at h
    have hlengths := congrArg List.length h
    split_ifs at hlengths
    · rw [List.length_drop, List.length_append, List.length_cons] at hlengths
      omega
    · rw [List.length_append, List.length_cons, List.length_append, List.length_cons] at hlengths
      omega
  · intro h
    rw [(sqlScopedKey_eq_iff key).mpr h, publicIdempotencyKey_scopedIdempotencyKey hlength]

/-! ## What the migrations do to runs -/

/-- An update that goes through gives every run its new key and keeps the keys apart. -/
theorem rescopeKeys_eq_some {updated rest runs : List LegacyRun}
    (h : rescopeKeys updated rest = some runs) (hapart : (updated.map keyScope).Nodup) :
    runs = updated ++ rest.map rescoped ∧ (runs.map keyScope).Nodup := by
  induction rest generalizing updated with
  | nil =>
    obtain rfl := Option.some.inj h
    exact ⟨by simp, hapart⟩
  | cons r rest ih =>
    rw [rescopeKeys] at h
    split_ifs at h with hfree
    have hnodup : ((updated ++ [rescoped r]).map keyScope).Nodup :=
      Table.nodup_append_fresh hapart fun o ho ↦ hfree o (List.mem_append_left _ ho)
    obtain ⟨hruns, hapart'⟩ := ih h hnodup
    exact ⟨by rw [hruns, List.append_assoc]; rfl, hapart'⟩

end LegacyTables

/-- What a caller's request is answered by: the run's id, owner, key and fingerprint. -/
structure RunKey where
  id : JsString
  owner : ResourceOwner
  idempotencyKey : JsString
  requestFingerprint : JsString

namespace RunKey

/-- The columns of the unique key. -/
def scope (k : RunKey) : JsString × JsString × JsString :=
  (k.owner.appId, k.owner.tenantId, k.idempotencyKey)

end RunKey

def LegacyRun.runKey (r : LegacyRun) : RunKey :=
  ⟨r.id, r.owner, r.idempotencyKey, r.requestFingerprint⟩

def RunRow.runKey (r : RunRow) : RunKey :=
  ⟨r.id, r.owner, r.idempotencyKey, r.requestFingerprint⟩

namespace Database

/-- The keys of the runs once migration 6 has been made. -/
def runKeys : Database → List RunKey
  | legacy version T =>
    T.runs.map fun r ↦ (if version < 6 then LegacyTables.rescoped r else r).runKey
  | current _ S => S.runs.map RunRow.runKey

/-- The version fits the tables, and from version 6 on the keys are apart. -/
def Sound : Database → Prop
  | legacy version T => version ≤ 6 ∧ (version = 6 → (T.runs.map LegacyTables.keyScope).Nodup)
  | current version S => 7 ≤ version ∧ (S.runs.map fun r ↦ r.runKey.scope).Nodup

variable {draws : Draws} {migratedAt : ℤ} {db db' : Database}

/-- The runs that migration 7 leaves are the old ones, in order. -/
theorem migration7_runKeys {T : LegacyTables} {S : Store} (h : T.migration7 draws = some S) :
    S.runs.map RunRow.runKey = T.runs.map LegacyRun.runKey := by
  simp only [LegacyTables.migration7, Option.bind_eq_bind, Option.bind_eq_some_iff] at h
  obtain ⟨agents, -, workspaces, -, sessions, -, messages, -, leases, -, h⟩ := h
  split_ifs at h
  obtain rfl := Option.some.inj h
  rw [List.map_map]
  rfl

/-- The migrations that leave every row alone. -/
theorem migrated_legacy {version : ℕ} {T : LegacyTables} (h5 : version ≠ 5) (h6 : version ≠ 6) :
    (legacy version T).migrated draws migratedAt = some (legacy (version + 1) T) := by
  unfold migrated
  split <;> simp_all

theorem migrated_current {version : ℕ} {S : Store} (h7 : version ≠ 7) (h9 : version ≠ 9)
    (h15 : version ≠ 15) :
    (current version S).migrated draws migratedAt = some (current (version + 1) S) := by
  unfold migrated
  split <;> simp_all

/-- **One migration** keeps every run with its key, and moves one version on. -/
theorem migrated_eq_some (h : db.migrated draws migratedAt = some db') (hsound : db.Sound) :
    db'.runKeys = db.runKeys ∧ db'.version = db.version + 1 ∧ db'.Sound := by
  cases db with
  | legacy version T =>
    obtain ⟨hle, hapart⟩ := hsound
    by_cases h5 : version = 5
    · subst h5
      obtain ⟨T', hT', rfl⟩ := Option.map_eq_some_iff.mp h
      obtain ⟨runs, hruns, rfl⟩ := Option.map_eq_some_iff.mp hT'
      obtain ⟨rfl, hnodup⟩ := LegacyTables.rescopeKeys_eq_some hruns List.nodup_nil
      refine ⟨?_, rfl, le_rfl, fun _ ↦ hnodup⟩
      rw [runKeys, runKeys, List.nil_append, List.map_map]
      rfl
    by_cases h6 : version = 6
    · subst h6
      obtain ⟨S, hS, rfl⟩ := Option.map_eq_some_iff.mp h
      have hkeys := migration7_runKeys hS
      refine ⟨hkeys, rfl, le_rfl, ?_⟩
      have hscopes : S.runs.map (fun r ↦ r.runKey.scope) = T.runs.map LegacyTables.keyScope := by
        have := congrArg (List.map RunKey.scope) hkeys
        rwa [List.map_map, List.map_map] at this
      rw [hscopes]
      exact hapart rfl
    · rw [migrated_legacy h5 h6] at h
      obtain rfl := Option.some.inj h
      refine ⟨?_, rfl, by omega, fun heq ↦ absurd heq (by omega)⟩
      simp only [runKeys, if_pos (show version + 1 < 6 by omega), if_pos (show version < 6 by omega)]
  | current version S =>
    obtain ⟨hle, hapart⟩ := hsound
    by_cases h7 : version = 7
    · subst h7
      obtain ⟨S', hS', rfl⟩ := Option.map_eq_some_iff.mp h
      rw [Store.migration8] at hS'
      split_ifs at hS'
      obtain rfl := Option.some.inj hS'
      exact ⟨rfl, rfl, by omega, hapart⟩
    by_cases h9 : version = 9
    · subst h9
      obtain rfl := Option.some.inj h
      exact ⟨rfl, rfl, by omega, hapart⟩
    by_cases h15 : version = 15
    · subst h15
      obtain rfl := Option.some.inj h
      refine ⟨?_, rfl, by omega, ?_⟩
      · rw [runKeys, runKeys, Store.migration16, List.map_map]
        rfl
      · rw [Store.migration16, List.map_map]
        exact hapart
    · rw [migrated_current h7 h9 h15] at h
      obtain rfl := Option.some.inj h
      exact ⟨rfl, rfl, by omega, hapart⟩

/-- The error of the migration that follows a version. -/
def migrationFailed (version : ℕ) : JsError :=
  .new (js "SQLite migration " ++ decimal (version + 1) ++ js " failed")

/-- A migration is made or rolled back. -/
theorem applyMigration_run (db : Database) : (applyMigration draws migratedAt).run db =
    match db.migrated draws migratedAt with
    | some db' => (.ok ⟨⟩, db')
    | none => (.error (migrationFailed db.version), db) := by
  rw [applyMigration, run_get_bind]
  cases db.migrated draws migratedAt with
  | some db' => exact transaction_of_ok rfl
  | none => exact transaction_of_error (t := db) rfl

/-- **The loop** keeps every run with its key. It makes all its migrations, or stops in front of the
one that failed. -/
theorem migrate_run (draws : Draws) (migratedAt : ℤ) (n : ℕ) (hsound : db.Sound) :
    match (migrate draws migratedAt n).run db with
    | (.ok _, db') => db'.runKeys = db.runKeys ∧ db'.Sound ∧ db'.version = db.version + n
    | (.error e, db') => db'.version < db.version + n ∧ e = migrationFailed db'.version := by
  induction n generalizing db with
  | zero => exact ⟨rfl, hsound, rfl⟩
  | succ n ih =>
    rw [migrate, run_bind, applyMigration_run]
    cases hmigrated : db.migrated draws migratedAt with
    | none => exact ⟨by simp, rfl⟩
    | some db₁ =>
      obtain ⟨hkeys, hversion, hsound₁⟩ := migrated_eq_some hmigrated hsound
      have hrest := ih hsound₁
      dsimp only [andThen_ok]
      rcases hrun : (migrate draws migratedAt n).run db₁ with ⟨e | u, db'⟩
      · rw [hrun] at hrest
        obtain ⟨hlt, herror⟩ := hrest
        exact ⟨by omega, herror⟩
      · rw [hrun] at hrest
        obtain ⟨hkeys', hsound', heq⟩ := hrest
        exact ⟨hkeys'.trans hkeys, hsound', by omega⟩

end Database

/-! ## Rediscovery -/

namespace Store

/-- The run with a scope is the one the query finds. -/
theorem existingRun_of_mem {S : Store} (h : (S.runs.map fun r ↦ r.runKey.scope).Nodup)
    {row : RunRow} (hrow : row ∈ S.runs) {principal : ResourceOwner} {key : JsString}
    (hscope : row.runKey.scope = (principal.appId, principal.tenantId, key)) :
    S.existingRun principal key = some row := by
  cases hexisting : S.existingRun principal key with
  | none =>
    exact absurd hscope (existingRun_none hexisting row.registration (mem_registrations hrow))
  | some found =>
    obtain ⟨hfound, hsame⟩ := existingRun_some hexisting
    have heq : found.runKey.scope = row.runKey.scope := hsame.trans hscope.symm
    rw [List.inj_on_of_nodup_map h hfound hrow heq]

end Store

/-- What the upgrade has to keep of a run: the two languages encode its key alike, its caller reads
the key it gave, and its request finds the run. -/
structure Rediscovered (P : Platform) (S : Store) (row : LegacyRun) : Prop where
  encoded : LegacyTables.sqlScopedKey row.owner.userId row.idempotencyKey
    = scopedIdempotencyKey row.owner.userId row.idempotencyKey
  shown : publicIdempotencyKey (LegacyTables.sqlScopedKey row.owner.userId row.idempotencyKey)
    = row.idempotencyKey
  found : ∀ (now : ℤ) (fresh : Store.FreshInternalIds) (id : JsString)
    (request : InternalStartRunRequest), request.principal = row.owner →
    request.idempotencyKey = row.idempotencyKey →
    P.requestFingerprint request = row.requestFingerprint →
    ∃ record, (Store.createOrGetRun P now fresh id request).run S = (.ok (record, false), S) ∧
      record.id = row.id ∧ record.idempotencyKey = row.idempotencyKey

/-- A run whose key was encoded alike is found by its request. -/
theorem rediscovered_of_runKey {P : Platform} {S : Store} {row : LegacyRun}
    (hapart : (S.runs.map fun r ↦ r.runKey.scope).Nodup)
    (hkept : (LegacyTables.rescoped row).runKey ∈ S.runs.map RunRow.runKey)
    (hlength : (row.owner.userId.length : ℤ) ≤ maxSafeInteger)
    (hsingle : NoSurrogatePair row.owner.userId) : Rediscovered P S row := by
  have hencoded := (LegacyTables.sqlScopedKey_eq_iff row.idempotencyKey).mpr hsingle
  have hshown := (LegacyTables.publicIdempotencyKey_sqlScopedKey_iff row.idempotencyKey
    hlength).mpr hsingle
  refine ⟨hencoded, hshown, fun now fresh id request hprincipal hkey hfingerprint ↦ ?_⟩
  obtain ⟨kept, hmem, hrunKey⟩ := List.mem_map.mp hkept
  have hscope : kept.runKey.scope = (request.principal.appId, request.principal.tenantId,
      scopedIdempotencyKey request.principal.userId request.idempotencyKey) := by
    rw [hrunKey, hprincipal, hkey, ← hencoded]
    rfl
  have hcases := Store.createOrGetRun_cases P now fresh id request S
  rw [Store.existingRun_of_mem hapart hmem hscope] at hcases
  have hsame : kept.requestFingerprint = row.requestFingerprint :=
    congrArg RunKey.requestFingerprint hrunKey
  dsimp only at hcases
  rw [if_pos (hsame.trans hfingerprint.symm)] at hcases
  refine ⟨toRunRecord kept, hcases, congrArg RunKey.id hrunKey, ?_⟩
  have hstored : kept.idempotencyKey
      = LegacyTables.sqlScopedKey row.owner.userId row.idempotencyKey :=
    congrArg RunKey.idempotencyKey hrunKey
  exact (congrArg publicIdempotencyKey hstored).trans hshown

/-- **When an upgrade keeps a run's idempotency.** An upgrade from any version below 6 ends at the
current one, or it stops with the error of the migration it rolled back. Where it ends, a run of the
old database is found again exactly when its user id has no surrogate pair. -/
theorem upgrade_rediscovers_iff (P : Platform) (draws : Draws) (migratedAt : ℤ) (version : Fin 6)
    (T : LegacyTables) :
    match (upgrade draws migratedAt).run (.legacy version T) with
    | (.ok _, .current reached S) => reached = SQLITE_SCHEMA_VERSION ∧
        ∀ row ∈ T.runs, (row.owner.userId.length : ℤ) ≤ maxSafeInteger →
          (Rediscovered P S row ↔ NoSurrogatePair row.owner.userId)
    | (result, db) => db.version < SQLITE_SCHEMA_VERSION ∧
        result = .error (Database.migrationFailed db.version) := by
  have hlt := version.isLt
  have hsound : (Database.legacy version T).Sound := ⟨by omega, fun h ↦ absurd h (by omega)⟩
  have hrun := Database.migrate_run draws migratedAt
    (SQLITE_SCHEMA_VERSION - version) hsound
  rw [upgrade, run_get_bind, Database.version]
  rcases hend : (migrate draws migratedAt (SQLITE_SCHEMA_VERSION - version)).run
    (.legacy version T) with ⟨e | u, db⟩
  · rw [hend] at hrun
    obtain ⟨hversion, rfl⟩ := hrun
    rw [Database.version, SQLITE_SCHEMA_VERSION] at hversion
    exact ⟨by rw [SQLITE_SCHEMA_VERSION]; omega, rfl⟩
  · rw [hend] at hrun
    obtain ⟨hkeys, hsound', hversion⟩ := hrun
    simp only [Database.version, SQLITE_SCHEMA_VERSION] at hversion
    cases db with
    | legacy reached T' =>
      have hle := hsound'.1
      dsimp only at hversion
      omega
    | current reached S =>
      refine ⟨by dsimp only at hversion; rw [SQLITE_SCHEMA_VERSION]; omega, ?_⟩
      intro row hrow hlength
      constructor
      · intro h
        exact (LegacyTables.sqlScopedKey_eq_iff row.idempotencyKey).mp h.encoded
      · intro hsingle
        refine rediscovered_of_runKey hsound'.2 ?_ hlength hsingle
        have hkept : S.runs.map RunRow.runKey
            = T.runs.map fun r ↦ (if (version : ℕ) < 6 then LegacyTables.rescoped r
                else r).runKey := hkeys
        rw [hkept]
        refine List.mem_map.mpr ⟨row, hrow, ?_⟩
        rw [if_pos hlt]

/-! ## A request that is executed again -/

/-- A request of a user whose id is one emoji. -/
def emojiRequest : InternalStartRunRequest where
  agent := js "agent"
  workspace := js "workspace"
  input := js "input"
  idempotencyKey := js "key"
  principal := ⟨js "app", js "tenant", [0xD83D, 0xDE00]⟩

/-- The database of version 1 that the request's run was stored in. -/
def emojiTables : LegacyTables where
  runs := [{ id := js "run", idempotencyKey := emojiRequest.idempotencyKey
             requestFingerprint := referencePlatform.requestFingerprint emojiRequest
             owner := emojiRequest.principal, agentId := emojiRequest.agent
             workspaceId := emojiRequest.workspace, sessionId := js "session"
             input := emojiRequest.input, status := .succeeded, createdAt := 0, updatedAt := 1 }]

/-- Draws that count. -/
def referenceDraws : Draws := ⟨decimal, decimal, decimal⟩

/-- The store, once it is at the current version. -/
def Database.store? : Database → Option Store
  | legacy _ _ => none
  | current version S => if version = SQLITE_SCHEMA_VERSION then some S else none

theorem Database.store?_eq_some {db : Database} {S : Store} (h : db.store? = some S) :
    db = .current SQLITE_SCHEMA_VERSION S := by
  cases db with
  | legacy => exact absurd h nofun
  | current version S' =>
    rw [store?] at h
    split_ifs at h with hversion
    rw [hversion, Option.some.inj h]

/-- The upgraded store creates a second run for the same request. -/
theorem not_rediscovered_emoji :
    ¬∀ (P : Platform) (draws : Draws) (migratedAt : ℤ) (version : Fin 6) (T : LegacyTables)
      (S : Store), (upgrade draws migratedAt).run (.legacy version T)
          = (.ok ⟨⟩, .current SQLITE_SCHEMA_VERSION S) →
        ∀ row ∈ T.runs, (row.owner.userId.length : ℤ) ≤ maxSafeInteger →
          Rediscovered P S row := by
  intro h
  have hok : ((upgrade referenceDraws 2).run (.legacy 1 emojiTables)).1.isOk = true := by
    decide +kernel
  have hcreated : ((upgrade referenceDraws 2).run (.legacy 1 emojiTables)).2.store?.map
      (fun S ↦ ((Store.createOrGetRun referencePlatform 3 ⟨js "a", js "w", js "s"⟩ (js "run_2")
        emojiRequest).run S).1.toOption.map Prod.snd) = some (some true) := by
    decide +kernel
  obtain ⟨S, hS, hanswer⟩ := Option.map_eq_some_iff.mp hcreated
  have hdb := Database.store?_eq_some hS
  rcases hrun : (upgrade referenceDraws 2).run (.legacy 1 emojiTables) with ⟨e | u, db⟩
  · rw [hrun] at hok
    exact absurd hok Bool.false_ne_true
  · rw [hrun] at hdb
    obtain rfl : db = .current SQLITE_SCHEMA_VERSION S := hdb
    have hkept := h referencePlatform _ _ 1 emojiTables S hrun _ (List.mem_singleton.mpr rfl)
      (by decide +kernel)
    obtain ⟨record, hfound, -⟩ := hkept.found 3 ⟨js "a", js "w", js "s"⟩ (js "run_2")
      emojiRequest rfl rfl rfl
    rw [hfound] at hanswer
    exact Bool.false_ne_true (Option.some.inj hanswer)

end LiteHarness
