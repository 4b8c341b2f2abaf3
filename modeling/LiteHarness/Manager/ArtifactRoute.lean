import LiteHarness.Platform.Paths
import LiteHarness.Storage.Logged
import Mathlib.Data.List.Sort

/-!
# Publishing an artifact

The Manager promotes a file of a workspace to an artifact while the run holds the fence of that
workspace: the route looks up the running attempt and the lease, reads the file, and checks the
fence once more before it stores what was read. Tool execution checks the same fence through
`hasActiveWorkspaceFence`.

The route asks `RunService.getWorkspaceLease` for the lease with the workspace first and the run
second, and that method takes the run first. Both its checks therefore look at the lease of the run
whose id is the workspace's, in the workspace whose id is the run's. The results below compare the
two fences on every pair of states the reading may lie between.

The bytes of an artifact are kept as they are given: their encryption on disk is left out.
-/

namespace LiteHarness

open Foundation

/-! ## The lookups -/

namespace Store

/-- `SELECT * FROM run_attempts WHERE run_id = ? ORDER BY attempt ASC`. -/
def listRunAttempts (S : Store) (runId : JsString) : List AttemptRow :=
  (S.attempts.filter fun a ↦ a.runId = runId).insertionSort fun a b ↦ a.attempt ≤ b.attempt

/-- `listRunAttempts(runId).findLast((item) => item.status === "RUNNING")`. -/
def runningAttempt? (S : Store) (runId : JsString) : Option AttemptRow :=
  (S.listRunAttempts runId).reverse.find? fun a ↦ a.status = .running

end Store

/-- `RunService.getWorkspaceLease`. -/
def Service.getWorkspaceLease (S : Store) (runId workspaceId : JsString) : Option WorkspaceLease :=
  S.getWorkspaceLease workspaceId runId

/-- The fields of a tool execution that its fence depends on. -/
structure ToolExecutionContext where
  runId : Option JsString
  workspaceId : JsString
  attemptId : Option JsString
  principal : Option ResourceOwner
  fencingToken : Option ℕ

/-- `hasActiveWorkspaceFence`. -/
def hasActiveWorkspaceFence (now : ℤ) (S : Store) (params : ToolExecutionContext) : Bool :=
  match truthy params.runId, truthy params.attemptId, params.principal, params.fencingToken with
  | some runId, some attemptId, some principal, some fencingToken =>
    match S.getRun runId with
    | none => false
    | some run =>
      if run.workspaceId ≠ params.workspaceId ∨ run.owner ≠ principal then false
      else
        match S.runningAttempt? run.id, S.getWorkspaceLease run.workspaceId run.id with
        | some attempt, some lease =>
          attempt.id = attemptId && lease.fencingToken = fencingToken &&
            S.validateWorkspaceLease now lease
        | _, _ => false
  | _, _, _, _ => false

/-! ## The artifact store -/

structure ArtifactRecord where
  id : JsString
  runId : JsString
  owner : ResourceOwner
  workspaceId : JsString
  path : JsString
  mediaType : JsString
  sizeBytes : ℕ
  sha256 : JsString
  createdAt : ℤ
  deriving DecidableEq

/-- A row of the artifacts table with the bytes behind it. -/
structure StoredArtifact where
  record : ArtifactRecord
  data : List UInt8
  deriving DecidableEq

def isAlphanumeric (u : UInt16) : Bool :=
  (48 ≤ u && u ≤ 57) || (65 ≤ u && u ≤ 90) || (97 ≤ u && u ≤ 122)

/-- One side of the slash in a media type. -/
def isMediaTypeToken : JsString → Bool
  | [] => false
  | u :: rest => isAlphanumeric u && rest.all fun v ↦ isAlphanumeric v || v ∈ js "!#$&^_.+-"

/-- The pattern of a media type. -/
def isMediaType (mediaType : JsString) : Bool :=
  match mediaType.splitOnP fun u ↦ u = 47 with
  | [kind, subtype] => isMediaTypeToken kind && isMediaTypeToken subtype
  | _ => false

/-- The largest artifact. -/
def maxArtifactBytes : ℕ := 16 * 1024 * 1024

/-- What a call of `publish` gets besides the bytes. -/
structure PublishParams where
  runId : JsString
  workspaceId : JsString
  principal : ResourceOwner
  path : JsString
  mediaType : JsString

/-- The record `publish` writes. -/
def artifactRecord (sha256 : List UInt8 → JsString) (id : JsString) (createdAt : ℤ)
    (params : PublishParams) (data : List UInt8) : ArtifactRecord where
  id
  runId := params.runId
  owner := params.principal
  workspaceId := params.workspaceId
  path := params.path
  mediaType := params.mediaType
  sizeBytes := data.length
  sha256 := sha256 data
  createdAt

/-- `LocalArtifactStore.publish`, with the id and the instant it draws. -/
def publish (sha256 : List UInt8 → JsString) (id : JsString) (createdAt : ℤ)
    (params : PublishParams) (data : List UInt8) (artifacts : List StoredArtifact) :
    Except JsError (ArtifactRecord × List StoredArtifact) :=
  if ¬isWorkspacePath params.path then
    .error (.new (js "Unsafe workspace path: " ++ params.path))
  else if maxArtifactBytes < data.length then
    .error (.new (js "Artifact exceeds " ++ decimal maxArtifactBytes ++ js " bytes"))
  else if ¬isMediaType params.mediaType then .error (.new (js "Artifact media type is invalid"))
  else if ∃ a ∈ artifacts, a.record.id = id then .error (Store.uniqueViolation "artifacts.id")
  else
    let record := artifactRecord sha256 id createdAt params data
    .ok (record, artifacts ++ [⟨record, data⟩])

/-! ## The route -/

/-- The body of a publication that passes its schema. -/
structure InternalPublishArtifactRequest where
  path : JsString
  mediaType : JsString
  principal : ResourceOwner

/-- An answer of the route. -/
inductive ArtifactAnswer where
  | error (status : ℕ) (code message : JsString)
  | created (record : ArtifactRecord)
  deriving DecidableEq

namespace ArtifactAnswer

def malformed : ArtifactAnswer :=
  .error 400 (js "invalid_request") (js "Malformed artifact request")

def ownerMismatch : ArtifactAnswer :=
  .error 403 (js "owner_mismatch")
    (js "The artifact principal does not match the authenticated IPC owner")

def runNotFound : ArtifactAnswer := .error 404 (js "not_found") (js "Run not found")

def requiresActiveLease : ArtifactAnswer :=
  .error 409 (js "artifact_publish_requires_active_lease")
    (js "Artifacts can only be promoted from the actively fenced workspace")

/-- What the error handler makes of an exception. -/
def internalError : ArtifactAnswer := .error 500 (js "internal_error") (js "Internal Manager error")

end ArtifactAnswer

/-- One call of the route, with what it takes from its surroundings. A body that fails its schema is
`none`, and so is the principal of a call without owner headers. -/
structure Publication where
  runId : JsString
  body : Option InternalPublishArtifactRequest
  authenticatedPrincipal : Option ResourceOwner
  /-- What reading the file gives. -/
  read : Except JsError (List UInt8)
  /-- The clock at the check before the reading, and at the one after it. -/
  beforeAt : ℤ
  afterAt : ℤ
  /-- The id and the instant of the artifact. -/
  artifactId : JsString
  createdAt : ℤ

/-- The closure `hasActiveFence` of the route, over the attempt and the lease it captured. -/
def hasActiveFence (principal : ResourceOwner) (run : RunRecord) (attempt : Option AttemptRow)
    (lease : Option WorkspaceLease) (now : ℤ) (S : Store) : Bool :=
  match S.getRun run.id, attempt, lease with
  | some currentRun, some attempt, some lease =>
    match S.runningAttempt? currentRun.id,
      Service.getWorkspaceLease S currentRun.workspaceId currentRun.id with
    | some currentAttempt, some currentLease =>
      currentRun.owner = principal && currentAttempt.id = attempt.id &&
        currentLease.fencingToken = lease.fencingToken && S.validateWorkspaceLease now currentLease
    | _, _ => false
  | _, _, _ => false

/-- The check of the route on a state, with the attempt and the lease it finds there. -/
def artifactFence (principal : ResourceOwner) (run : RunRecord) (now : ℤ) (S : Store) : Bool :=
  hasActiveFence principal run (S.runningAttempt? run.id)
    (Service.getWorkspaceLease S run.workspaceId run.id) now S

/-- `POST /internal/runs/:runId/artifacts`, with the store at the two checks. -/
def publishArtifact (sha256 : List UInt8 → JsString) (before after : Store) (p : Publication)
    (artifacts : List StoredArtifact) : ArtifactAnswer × List StoredArtifact :=
  match p.body, p.authenticatedPrincipal with
  | none, _ => (.malformed, artifacts)
  | some _, none => (.internalError, artifacts)
  | some body, some principal =>
    if body.principal ≠ principal then (.ownerMismatch, artifacts)
    else
      match before.getRun p.runId with
      | none => (.runNotFound, artifacts)
      | some run =>
        if run.owner ≠ principal then (.runNotFound, artifacts)
        else
          let attempt := before.runningAttempt? run.id
          let lease := Service.getWorkspaceLease before run.workspaceId run.id
          if ¬hasActiveFence principal run attempt lease p.beforeAt before then
            (.requiresActiveLease, artifacts)
          else
            match p.read with
            | .error _ => (.internalError, artifacts)
            | .ok data =>
              if ¬hasActiveFence principal run attempt lease p.afterAt after then
                (.requiresActiveLease, artifacts)
              else
                match publish sha256 p.artifactId p.createdAt
                  ⟨run.id, run.workspaceId, principal, body.path, body.mediaType⟩ data
                  artifacts with
                | .error _ => (.internalError, artifacts)
                | .ok (record, artifacts) => (.created record, artifacts)

/-! ## The fence a publication needs -/

namespace Store

/-- The run holds the lease of its workspace, under a token. -/
def HoldsLease (S : Store) (now : ℤ) (runId workspaceId : JsString) (token : ℕ) : Prop :=
  ∃ lease, S.getWorkspaceLease workspaceId runId = some lease ∧ lease.fencingToken = token ∧
    S.validateWorkspaceLease now lease = true

/-- The run belongs to the principal, has a running attempt and holds the lease of its workspace. -/
def Fenced (S : Store) (now : ℤ) (principal : ResourceOwner) (runId attemptId : JsString)
    (token : ℕ) : Prop :=
  ∃ run, S.getRun runId = some run ∧ run.owner = principal ∧
    (S.runningAttempt? run.id).map AttemptRow.id = some attemptId ∧
    S.HoldsLease now run.id run.workspaceId token

/-- The same with the ids of the run and of its workspace exchanged in the lookup of the lease. -/
def FencedExchanged (S : Store) (now : ℤ) (principal : ResourceOwner) (runId attemptId : JsString)
    (token : ℕ) : Prop :=
  ∃ run, S.getRun runId = some run ∧ run.owner = principal ∧
    (S.runningAttempt? run.id).map AttemptRow.id = some attemptId ∧
    S.HoldsLease now run.workspaceId run.id token

/-- A run of the id of the run's workspace works in a workspace of the id of the run. -/
def Crossed (S : Store) (runId : JsString) : Prop :=
  ∃ run other, S.getRun runId = some run ∧ S.getRun run.workspaceId = some other ∧
    other.workspaceId = run.id

/-- What a tool execution of the run would be checked with. -/
def executionContext (S : Store) (principal : ResourceOwner) (run : RunRecord) :
    ToolExecutionContext where
  runId := some run.id
  workspaceId := run.workspaceId
  attemptId := (S.runningAttempt? run.id).map AttemptRow.id
  principal := some principal
  fencingToken := (S.getWorkspaceLease run.workspaceId run.id).map WorkspaceLease.fencingToken

/-- The route and tool execution decide alike about a run of the principal. -/
def FencesAgree (S : Store) (now : ℤ) (principal : ResourceOwner) (runId : JsString) : Prop :=
  ∀ run, S.getRun runId = some run → run.owner = principal →
    artifactFence principal run now S =
      hasActiveWorkspaceFence now S (S.executionContext principal run)

end Store

namespace Publication

/-- The call is well formed and authenticated, and its file can be read and stored. -/
def Ready (p : Publication) (artifacts : List StoredArtifact) (principal : ResourceOwner) : Prop :=
  ∃ body, p.body = some body ∧ p.authenticatedPrincipal = some principal ∧
    body.principal = principal ∧ isWorkspacePath body.path = true ∧
    isMediaType body.mediaType = true ∧ (∀ a ∈ artifacts, a.record.id ≠ p.artifactId) ∧
    ∃ data, p.read = .ok data ∧ data.length ≤ maxArtifactBytes

/-- The fence is held across the reading, under one attempt and one token. -/
def FencedAcross (p : Publication) (before after : Store) (principal : ResourceOwner) : Prop :=
  ∃ attemptId token, before.Fenced p.beforeAt principal p.runId attemptId token ∧
    after.Fenced p.afterAt principal p.runId attemptId token

/-- The same with the two ids exchanged. -/
def FencedAcrossExchanged (p : Publication) (before after : Store) (principal : ResourceOwner) :
    Prop :=
  ∃ attemptId token, before.FencedExchanged p.beforeAt principal p.runId attemptId token ∧
    after.FencedExchanged p.afterAt principal p.runId attemptId token

/-- **What the route promises**: an artifact is stored exactly under the fence, with the bytes that
were read; any other answer is an error and stores nothing; and the fence is the one of tool
execution. -/
structure Lawful (sha256 : List UInt8 → JsString) (before after : Store) (p : Publication)
    (artifacts : List StoredArtifact) : Prop where
  stores_iff : (∃ record, (publishArtifact sha256 before after p artifacts).1 = .created record) ↔
    ∃ principal, p.Ready artifacts principal ∧ p.FencedAcross before after principal
  stored : ∀ record artifacts', publishArtifact sha256 before after p artifacts =
    (.created record, artifacts') → ∃ data, p.read = .ok data ∧ record.runId = p.runId ∧
      record.sha256 = sha256 data ∧ artifacts' = artifacts ++ [⟨record, data⟩]
  refused : ∀ status code message artifacts', publishArtifact sha256 before after p artifacts =
    (.error status code message, artifacts') → artifacts' = artifacts
  agrees : ∀ principal, p.authenticatedPrincipal = some principal →
    before.FencesAgree p.beforeAt principal p.runId ∧ after.FencesAgree p.afterAt principal p.runId

/-- Exchanging the two ids in the lookup of the lease makes no difference. -/
structure Unexchanged (before after : Store) (p : Publication) (artifacts : List StoredArtifact) :
    Prop where
  first : ∀ principal, p.authenticatedPrincipal = some principal →
    ((∃ a k, before.FencedExchanged p.beforeAt principal p.runId a k) ↔
      ∃ a k, before.Fenced p.beforeAt principal p.runId a k)
  second : ∀ principal, p.authenticatedPrincipal = some principal →
    ((∃ a k, after.FencedExchanged p.afterAt principal p.runId a k) ↔
      ∃ a k, after.Fenced p.afterAt principal p.runId a k)
  across : ∀ principal, p.Ready artifacts principal →
    (p.FencedAcrossExchanged before after principal ↔ p.FencedAcross before after principal)

end Publication

/-! ## The two checks -/

section Checks

variable {S : Store} {now : ℤ} {principal : ResourceOwner}

theorem Store.getRun_id {run : RunRecord} {id : JsString} (h : S.getRun id = some run) :
    run.id = id := by
  obtain ⟨row, hrow, rfl⟩ := Option.map_eq_some_iff.mp h
  exact (Store.run?_mem hrow).2

/-- The closure holds the captured attempt and lease against the exchanged fence. -/
theorem hasActiveFence_eq_true_iff {run : RunRecord} {attempt : Option AttemptRow}
    {lease : Option WorkspaceLease} :
    hasActiveFence principal run attempt lease now S = true ↔
      ∃ a l, attempt = some a ∧ lease = some l ∧
        S.FencedExchanged now principal run.id a.id l.fencingToken := by
  constructor
  · intro h
    unfold hasActiveFence at h
    cases hrun : S.getRun run.id with
    | none => simp [hrun] at h
    | some currentRun =>
    cases attempt with
    | none => simp [hrun] at h
    | some a =>
    cases lease with
    | none => simp [hrun] at h
    | some l =>
    cases hattempt : S.runningAttempt? currentRun.id with
    | none => simp [hrun, hattempt] at h
    | some currentAttempt =>
    cases hlease : Service.getWorkspaceLease S currentRun.workspaceId currentRun.id with
    | none => simp [hrun, hattempt, hlease] at h
    | some currentLease =>
      simp only [hrun, hattempt, hlease, Bool.and_eq_true, decide_eq_true_eq] at h
      obtain ⟨⟨⟨howner, hid⟩, htoken⟩, hvalid⟩ := h
      refine ⟨a, l, rfl, rfl, currentRun, hrun, howner, ?_, currentLease, hlease, htoken, hvalid⟩
      rw [hattempt, Option.map_some, hid]
  · rintro ⟨a, l, rfl, rfl, currentRun, hrun, howner, hattempt, currentLease, hlease, htoken, hvalid⟩
    obtain ⟨currentAttempt, hattempt, hid⟩ := Option.map_eq_some_iff.mp hattempt
    simp only [hasActiveFence, hrun, hattempt, Service.getWorkspaceLease, hlease, hid, htoken, hvalid,
      howner, decide_true, Bool.and_self]

/-- The exchanged fence determines the attempt and the lease the route captures. -/
theorem Store.FencedExchanged.captured {run : RunRecord} {attemptId : JsString} {token : ℕ}
    (hrun : S.getRun run.id = some run)
    (h : S.FencedExchanged now principal run.id attemptId token) :
    ∃ a l, S.runningAttempt? run.id = some a ∧
      Service.getWorkspaceLease S run.workspaceId run.id = some l ∧ a.id = attemptId ∧
      l.fencingToken = token := by
  obtain ⟨run', hrun', -, hattempt, l, hlease, htoken, -⟩ := h
  obtain rfl := Option.some.inj (hrun.symm.trans hrun')
  obtain ⟨a, ha, hid⟩ := Option.map_eq_some_iff.mp hattempt
  exact ⟨a, l, ha, hlease, hid, htoken⟩

/-- The route asks for the exchanged fence. -/
theorem artifactFence_eq_true_iff {run : RunRecord} (hrun : S.getRun run.id = some run) :
    artifactFence principal run now S = true ↔
      ∃ a k, S.FencedExchanged now principal run.id a k := by
  rw [artifactFence, hasActiveFence_eq_true_iff]
  constructor
  · rintro ⟨a, l, -, -, hfenced⟩
    exact ⟨a.id, l.fencingToken, hfenced⟩
  · rintro ⟨a, k, hfenced⟩
    obtain ⟨attempt, lease, hattempt, hlease, rfl, rfl⟩ := hfenced.captured hrun
    exact ⟨attempt, lease, hattempt, hlease, hfenced⟩

/-- Tool execution asks for the fence of the run, where ids are not empty. -/
theorem hasActiveWorkspaceFence_eq_true_iff {run : RunRecord} (hrun : S.getRun run.id = some run)
    (hid : run.id ≠ []) (hattempts : ∀ a ∈ S.attempts, a.id ≠ []) (howner : run.owner = principal) :
    hasActiveWorkspaceFence now S (S.executionContext principal run) = true ↔
      ∃ a k, S.Fenced now principal run.id a k := by
  have hmem : ∀ {a : AttemptRow}, S.runningAttempt? run.id = some a → a ∈ S.attempts := by
    intro a ha
    have hfound := List.mem_reverse.mp (List.mem_of_find?_eq_some ha)
    exact List.mem_of_mem_filter ((List.mem_insertionSort _).mp hfound)
  unfold hasActiveWorkspaceFence Store.executionContext
  simp only [truthy_of_ne_nil hid]
  constructor
  · intro h
    cases hattempt : S.runningAttempt? run.id with
    | none => simp [hattempt, truthy] at h
    | some attempt =>
    cases hlease : S.getWorkspaceLease run.workspaceId run.id with
    | none => simp [hlease] at h
    | some lease =>
      simp only [hattempt, hlease, Option.map_some, hrun, truthy_of_ne_nil (hattempts _ (hmem hattempt)),
        howner] at h
      refine ⟨attempt.id, lease.fencingToken, run, hrun, howner, by rw [hattempt]; rfl, lease, hlease,
        rfl, ?_⟩
      simpa using h
  · rintro ⟨a, k, run', hrun', -, hattempt, lease, hlease, -, hvalid⟩
    obtain rfl := Option.some.inj (hrun.symm.trans hrun')
    obtain ⟨attempt, hattempt, -⟩ := Option.map_eq_some_iff.mp hattempt
    simp [hattempt, hlease, hrun, truthy_of_ne_nil (hattempts _ (hmem hattempt)), howner, hvalid]

end Checks

/-! ## States whose ids were generated -/

/-- The ids a call brings come from `createId`, which never returns an empty string. -/
def StoreOp.Generates : StoreOp → Prop
  | .createOrGetRun _ _ id _ | .createRunAttempt _ _ id => id ≠ []
  | _ => True

/-- A call of the store as the service makes it. -/
abbrev GeneratedOp := { op : StoreOp // op.Generates }

namespace Store

/-- Runs and attempts have ids. -/
structure Named (S : Store) : Prop where
  runs : ∀ id ∈ S.runs.map RunRow.id, id ≠ []
  attempts : ∀ id ∈ S.attempts.map AttemptRow.id, id ≠ []

theorem Named.congr {S T : Store} (h : S.Named) (hruns : T.runs.map RunRow.id = S.runs.map RunRow.id)
    (hattempts : T.attempts.map AttemptRow.id = S.attempts.map AttemptRow.id) : T.Named where
  runs := hruns ▸ h.runs
  attempts := hattempts ▸ h.attempts

theorem Named.recorded {S : Store} (h : S.Named) {createdAt : ℤ} {params : AppendRunEvent}
    {row : RunRow} : (S.recorded createdAt params row).Named := by
  refine h.congr (recorded_ids _ _ _ _) ?_
  have hended : ∀ status, (endAttempts createdAt params.runId status S).attempts.map AttemptRow.id =
      S.attempts.map AttemptRow.id := fun status ↦ Table.map_update
        (f := fun a ↦ { a with status, endedAt := some createdAt }) (fun _ ↦ rfl) S.attempts
  unfold Store.recorded
  dsimp only
  split
  · split_ifs
    · exact hended _
    · rfl
  · rfl

/-- Every call that generates its ids keeps them non-empty. -/
theorem Named.apply {P : Platform} {S : Store} (h : S.Named) (op : GeneratedOp) :
    (op.1.apply P S).Named := by
  obtain ⟨op, hop⟩ := op
  have hruns : ∀ {id : JsString} {f : RunRow → RunRow}, (∀ r, (f r).id = r.id) →
      (Table.update (fun row ↦ row.id = id) f S.runs).map RunRow.id = S.runs.map RunRow.id :=
    fun hf ↦ Table.map_update hf S.runs
  have hattempts : ∀ {q : AttemptRow → Bool} {f : AttemptRow → AttemptRow},
      (∀ a, (f a).id = a.id) →
      (Table.update q f S.attempts).map AttemptRow.id = S.attempts.map AttemptRow.id :=
    fun hf ↦ Table.map_update hf S.attempts
  rcases op.cases P S with heq | hchange
  · exact (congrArg Named heq).mpr h
  · dsimp only at hop ⊢
    generalize op.apply P S = S' at hchange ⊢
    cases hchange with
    | created hcreated =>
      refine ⟨?_, hcreated.attempts ▸ h.attempts⟩
      rw [hcreated.runs, List.map_append]
      intro id hid
      rcases List.mem_append.mp hid with hid | hid
      · exact h.runs id hid
      · rw [List.mem_singleton.mp hid, hcreated.id_eq]
        exact hop
    | appended => exact h.recorded
    | usage => exact h.congr (hruns fun _ ↦ rfl) rfl
    | acquired hacquired =>
      rw [hacquired.store]
      exact h.congr rfl rfl
    | approvalRecorded => exact (h.congr (T := setApproval _ _ _ S) rfl rfl).recorded
    | attemptCreated hid =>
      refine ⟨h.runs, ?_⟩
      intro id hmem
      rw [List.map_append] at hmem
      rcases List.mem_append.mp hmem with hmem | hmem
      · exact h.attempts id hmem
      · rw [List.mem_singleton.mp hmem, hid]
        exact hop
    | attemptCompleted => exact h.congr rfl (hattempts fun _ ↦ rfl)
    | attemptsCompleted => exact h.congr rfl (hattempts fun _ ↦ rfl)
    | _ => exact h.congr rfl rfl

end Store

namespace Store

/-- The store after a history of calls as the service makes them. -/
def afterCalls (P : Platform) (S : Store) (history : List GeneratedOp) : Store :=
  S.after P (history.map Subtype.val)

theorem Named.afterCalls {P : Platform} {S : Store} (h : S.Named) (history : List GeneratedOp) :
    (S.afterCalls P history).Named := by
  induction history generalizing S with
  | nil => exact h
  | cons op history ih => exact ih (h.apply op)

end Store

/-! ## What the route does -/

section Route

variable {sha256 : List UInt8 → JsString} {before after : Store} {p : Publication}
  {artifacts : List StoredArtifact}

theorem publish_eq_ok_iff {id : JsString} {createdAt : ℤ} {params : PublishParams}
    {data : List UInt8} {record : ArtifactRecord} {artifacts' : List StoredArtifact} :
    publish sha256 id createdAt params data artifacts = .ok (record, artifacts') ↔
      (isWorkspacePath params.path = true ∧ isMediaType params.mediaType = true ∧
        (∀ a ∈ artifacts, a.record.id ≠ id) ∧ data.length ≤ maxArtifactBytes) ∧
      record = artifactRecord sha256 id createdAt params data ∧
      artifacts' = artifacts ++ [⟨record, data⟩] := by
  constructor
  · intro h
    unfold publish at h
    split_ifs at h with hpath hsize htype hid
    obtain ⟨rfl, rfl⟩ := Prod.mk.inj (Except.ok.inj h)
    exact ⟨⟨hpath, htype, fun a ha heq ↦ hid ⟨a, ha, heq⟩, not_lt.mp hsize⟩, rfl, rfl⟩
  · rintro ⟨⟨hpath, htype, hid, hsize⟩, rfl, rfl⟩
    have hfree : ¬∃ a ∈ artifacts, a.record.id = id := fun ⟨a, ha, heq⟩ ↦ hid a ha heq
    rw [publish, if_neg (not_not.mpr hpath), if_neg hsize.not_gt, if_neg (not_not.mpr htype),
      if_neg hfree]

/-- An answer is an error that stores nothing, or it is the record of what was read, and both checks
of the exchanged fence succeeded. -/
theorem publishArtifact_cases (sha256 : List UInt8 → JsString) (before after : Store)
    (p : Publication) (artifacts : List StoredArtifact) :
    (∃ status code message, publishArtifact sha256 before after p artifacts =
      (.error status code message, artifacts)) ∨
    ∃ principal record data, p.Ready artifacts principal ∧
      p.FencedAcrossExchanged before after principal ∧ p.read = .ok data ∧
      record.runId = p.runId ∧ record.sha256 = sha256 data ∧
      publishArtifact sha256 before after p artifacts =
        (.created record, artifacts ++ [⟨record, data⟩]) := by
  unfold publishArtifact
  cases hbody : p.body with
  | none => exact Or.inl ⟨_, _, _, rfl⟩
  | some body =>
  cases hprincipal : p.authenticatedPrincipal with
  | none => exact Or.inl ⟨_, _, _, rfl⟩
  | some principal =>
  dsimp only
  by_cases hmatch : body.principal = principal
  swap
  · exact Or.inl ⟨_, _, _, if_pos hmatch⟩
  rw [if_neg (not_not.mpr hmatch)]
  cases hrun : before.getRun p.runId with
  | none => exact Or.inl ⟨_, _, _, rfl⟩
  | some run =>
  dsimp only
  by_cases howner : run.owner = principal
  swap
  · exact Or.inl ⟨_, _, _, if_pos howner⟩
  rw [if_neg (not_not.mpr howner)]
  by_cases hfirst : hasActiveFence principal run (before.runningAttempt? run.id)
    (Service.getWorkspaceLease before run.workspaceId run.id) p.beforeAt before = true
  swap
  · exact Or.inl ⟨_, _, _, if_pos hfirst⟩
  rw [if_neg (not_not.mpr hfirst)]
  cases hread : p.read with
  | error e => exact Or.inl ⟨_, _, _, rfl⟩
  | ok data =>
  dsimp only
  by_cases hsecond : hasActiveFence principal run (before.runningAttempt? run.id)
    (Service.getWorkspaceLease before run.workspaceId run.id) p.afterAt after = true
  swap
  · exact Or.inl ⟨_, _, _, if_pos hsecond⟩
  rw [if_neg (not_not.mpr hsecond)]
  split
  · exact Or.inl ⟨_, _, _, rfl⟩
  · rename_i record artifacts' hpublish
    obtain ⟨⟨hpath, htype, hid, hsize⟩, rfl, rfl⟩ := publish_eq_ok_iff.mp hpublish
    have hrunId := Store.getRun_id hrun
    obtain ⟨a, l, hattempt, hlease, hbefore⟩ := hasActiveFence_eq_true_iff.mp hfirst
    obtain ⟨a', l', hattempt', hlease', hafter⟩ := hasActiveFence_eq_true_iff.mp hsecond
    obtain rfl := Option.some.inj (hattempt.symm.trans hattempt')
    obtain rfl := Option.some.inj (hlease.symm.trans hlease')
    rw [hrunId] at hbefore hafter
    exact Or.inr ⟨principal, _, data, ⟨body, hbody, hprincipal, hmatch, hpath, htype, hid, data, hread,
      hsize⟩, ⟨a.id, l.fencingToken, hbefore, hafter⟩, rfl, hrunId, rfl, rfl⟩

/-- **The route stores under the exchanged fence.** -/
theorem publishArtifact_created_iff :
    (∃ record, (publishArtifact sha256 before after p artifacts).1 = .created record) ↔
      ∃ principal, p.Ready artifacts principal ∧
        p.FencedAcrossExchanged before after principal := by
  constructor
  · rintro ⟨record, hrecord⟩
    rcases publishArtifact_cases sha256 before after p artifacts with ⟨_, _, _, herror⟩ |
      ⟨principal, -, -, hready, hfenced, -⟩
    · rw [herror] at hrecord
      exact absurd hrecord nofun
    · exact ⟨principal, hready, hfenced⟩
  · rintro ⟨principal, ⟨body, hbody, hprincipal, hmatch, hpath, htype, hid, data, hread, hsize⟩,
      a, k, hbefore, hafter⟩
    obtain ⟨run, hrun, howner, -⟩ := id hbefore
    have hrunId := Store.getRun_id hrun
    rw [← hrunId] at hrun hbefore hafter
    obtain ⟨attempt, lease, hattempt, hlease, rfl, rfl⟩ := hbefore.captured hrun
    have hfirst := hasActiveFence_eq_true_iff.mpr ⟨attempt, lease, hattempt, hlease, hbefore⟩
    have hsecond := hasActiveFence_eq_true_iff.mpr ⟨attempt, lease, hattempt, hlease, hafter⟩
    have hpublish : publish sha256 p.artifactId p.createdAt
        ⟨run.id, run.workspaceId, principal, body.path, body.mediaType⟩ data artifacts = .ok _ :=
      publish_eq_ok_iff.mpr ⟨⟨hpath, htype, hid, hsize⟩, rfl, rfl⟩
    refine ⟨artifactRecord sha256 p.artifactId p.createdAt
      ⟨run.id, run.workspaceId, principal, body.path, body.mediaType⟩ data, ?_⟩
    simp only [publishArtifact, hbody, hprincipal, hmatch, ← hrunId, hrun, howner, hread, hfirst,
      hsecond, hpublish, ne_eq, not_true_eq_false, if_false]

/-- The two fences agree on a state exactly when exchanging the ids makes no difference there. -/
theorem Store.fencesAgree_iff {S : Store} (hS : S.Named) {now : ℤ} {principal : ResourceOwner}
    {runId : JsString} :
    S.FencesAgree now principal runId ↔
      ((∃ a k, S.FencedExchanged now principal runId a k) ↔
        ∃ a k, S.Fenced now principal runId a k) := by
  have hdecide : ∀ run, S.getRun runId = some run → run.owner = principal →
      (artifactFence principal run now S =
          hasActiveWorkspaceFence now S (S.executionContext principal run) ↔
        ((∃ a k, S.FencedExchanged now principal runId a k) ↔
          ∃ a k, S.Fenced now principal runId a k)) := by
    intro run hrun howner
    obtain ⟨row, hrow, -⟩ := Option.map_eq_some_iff.mp hrun
    obtain ⟨hmem, hid⟩ := Store.run?_mem hrow
    have hne : runId ≠ [] := hid ▸ hS.runs _ (List.mem_map_of_mem hmem)
    obtain rfl := Store.getRun_id hrun
    rw [Bool.eq_iff_iff, artifactFence_eq_true_iff hrun, hasActiveWorkspaceFence_eq_true_iff hrun hne
      (fun a ha ↦ hS.attempts _ (List.mem_map_of_mem ha)) howner]
  constructor
  · intro h
    by_cases hrun : ∃ run, S.getRun runId = some run ∧ run.owner = principal
    · obtain ⟨run, hrun, howner⟩ := hrun
      exact (hdecide run hrun howner).mp (h run hrun howner)
    · -- neither fence holds without a run of the principal
      constructor
      · rintro ⟨a, k, run, hfound, howner, -⟩
        exact absurd ⟨run, hfound, howner⟩ hrun
      · rintro ⟨a, k, run, hfound, howner, -⟩
        exact absurd ⟨run, hfound, howner⟩ hrun
  · intro h run hrun howner
    exact (hdecide run hrun howner).mpr h

/-- The route keeps its promise exactly where exchanging the ids makes no difference. -/
theorem Publication.lawful_iff_unexchanged (hbefore : before.Named) (hafter : after.Named) :
    p.Lawful sha256 before after artifacts ↔ p.Unexchanged before after artifacts := by
  constructor
  · intro h
    refine ⟨fun principal hp ↦ ?_, fun principal hp ↦ ?_, fun principal hready ↦ ?_⟩
    · exact (Store.fencesAgree_iff hbefore).mp (h.agrees principal hp).1
    · exact (Store.fencesAgree_iff hafter).mp (h.agrees principal hp).2
    · have hiff := publishArtifact_created_iff.symm.trans h.stores_iff
      have hsame : ∀ other, p.Ready artifacts other → other = principal := by
        rintro other ⟨_, _, hother, -⟩
        obtain ⟨_, _, hprincipal, -⟩ := hready
        exact Option.some.inj (hother.symm.trans hprincipal)
      constructor
      · intro hfenced
        obtain ⟨other, hother, hacross⟩ := hiff.mp ⟨principal, hready, hfenced⟩
        exact hsame other hother ▸ hacross
      · intro hfenced
        obtain ⟨other, hother, hacross⟩ := hiff.mpr ⟨principal, hready, hfenced⟩
        exact hsame other hother ▸ hacross
  · intro h
    have hcases := publishArtifact_cases sha256 before after p artifacts
    refine ⟨publishArtifact_created_iff.trans (exists_congr fun principal ↦
      and_congr_right fun hready ↦ h.across principal hready), ?_, ?_, fun principal hp ↦ ?_⟩
    · intro record artifacts' heq
      rw [heq] at hcases
      rcases hcases with ⟨_, _, _, herror⟩ | ⟨_, _, data, _, -, hread, hrunId, hsha, hrecord⟩
      · exact absurd (Prod.mk.inj herror).1 nofun
      · obtain ⟨hanswer, rfl⟩ := Prod.mk.inj hrecord
        obtain rfl := ArtifactAnswer.created.inj hanswer
        exact ⟨data, hread, hrunId, hsha, rfl⟩
    · intro status code message artifacts' heq
      rw [heq] at hcases
      rcases hcases with ⟨_, _, _, herror⟩ | ⟨_, _, _, _, -, -, -, -, hrecord⟩
      · exact (Prod.mk.inj herror).2
      · exact absurd (Prod.mk.inj hrecord).1 nofun
    · exact ⟨(Store.fencesAgree_iff hbefore).mpr (h.first principal hp),
        (Store.fencesAgree_iff hafter).mpr (h.second principal hp)⟩

/-- Without a run that crosses it, no run is fenced under exchanged ids. -/
theorem Store.FencedExchanged.crossed {S : Store} {now : ℤ} {principal : ResourceOwner}
    {runId attemptId : JsString} {token : ℕ}
    (h : S.FencedExchanged now principal runId attemptId token) : S.Crossed runId := by
  obtain ⟨run, hrun, -, -, lease, hlease, -⟩ := h
  refine ⟨run, ?_⟩
  unfold getWorkspaceLease leaseTarget at hlease
  cases hother : S.run? run.workspaceId with
  | none => simp [hother] at hlease
  | some other =>
    by_cases hcross : other.workspaceId = run.id
    · exact ⟨toRunRecord other, hrun, by rw [getRun, hother]; rfl, hcross⟩
    · simp [hother, hcross] at hlease

end Route

/-- **When the route keeps its promise.** Exactly where exchanging the ids of the run and of its
workspace makes no difference. Where no run crosses the run, nothing is ever stored, and the promise
is kept exactly by refusing a run that does not hold its own fence at either check. -/
theorem publishArtifact_lawful_iff (P : Platform) (sha256 : List UInt8 → JsString)
    (history later : List GeneratedOp) (p : Publication) (artifacts : List StoredArtifact) :
    let before := Store.afterCalls P {} history
    let after := before.afterCalls P later
    (p.Lawful sha256 before after artifacts ↔ p.Unexchanged before after artifacts) ∧
      (¬before.Crossed p.runId → ¬after.Crossed p.runId →
        (¬∃ record, (publishArtifact sha256 before after p artifacts).1 = .created record) ∧
        (p.Lawful sha256 before after artifacts ↔
          ∀ principal, p.authenticatedPrincipal = some principal →
            (∀ a k, ¬before.Fenced p.beforeAt principal p.runId a k) ∧
            ∀ a k, ¬after.Fenced p.afterAt principal p.runId a k)) := by
  intro before after
  have hempty : ({} : Store).Named := ⟨fun _ h ↦ absurd h List.not_mem_nil,
    fun _ h ↦ absurd h List.not_mem_nil⟩
  have hbefore : before.Named := hempty.afterCalls history
  have hafter : after.Named := hbefore.afterCalls later
  have hiff : p.Lawful sha256 before after artifacts ↔ p.Unexchanged before after artifacts :=
    Publication.lawful_iff_unexchanged hbefore hafter
  refine ⟨hiff, fun hcrossed hcrossed' ↦ ⟨?_, hiff.trans ⟨?_, ?_⟩⟩⟩
  · intro hcreated
    obtain ⟨_, -, _, _, hfenced, -⟩ := publishArtifact_created_iff.mp hcreated
    exact hcrossed hfenced.crossed
  · intro h principal hp
    constructor
    · intro a k hfenced
      obtain ⟨_, _, hexchanged⟩ := (h.first principal hp).mpr ⟨a, k, hfenced⟩
      exact hcrossed hexchanged.crossed
    · intro a k hfenced
      obtain ⟨_, _, hexchanged⟩ := (h.second principal hp).mpr ⟨a, k, hfenced⟩
      exact hcrossed' hexchanged.crossed
  · intro h
    refine ⟨fun principal hp ↦ ?_, fun principal hp ↦ ?_, fun principal hready ↦ ?_⟩
    · constructor
      · rintro ⟨_, _, hexchanged⟩
        exact absurd hexchanged.crossed hcrossed
      · rintro ⟨a, k, hfenced⟩
        exact absurd hfenced ((h principal hp).1 a k)
    · constructor
      · rintro ⟨_, _, hexchanged⟩
        exact absurd hexchanged.crossed hcrossed'
      · rintro ⟨a, k, hfenced⟩
        exact absurd hfenced ((h principal hp).2 a k)
    · obtain ⟨_, -, hp, -⟩ := hready
      constructor
      · rintro ⟨_, _, hexchanged, -⟩
        exact absurd hexchanged.crossed hcrossed
      · rintro ⟨a, k, hfenced, -⟩
        exact absurd hfenced ((h principal hp).1 a k)

/-! ## A fenced run that is refused -/

/-- A run with a running attempt and the lease of its workspace. -/
def fencedRun : List GeneratedOp :=
  [⟨.createOrGetRun 0 ⟨js "agent_0", js "ws_0", js "ses_0"⟩ (js "run_0")
      { agent := js "agent", workspace := js "workspace", input := js "hello"
        idempotencyKey := js "key", principal := ⟨js "app", js "tenant", js "user"⟩ },
      (by decide : js "run_0" ≠ [])⟩,
    ⟨.createRunAttempt 0 (js "run_0") (js "attempt_0"), (by decide : js "attempt_0" ≠ [])⟩,
    ⟨.acquireWorkspaceLease 0 (js "workspace") (js "run_0") 60000, trivial⟩]

/-- Its artifact, of one byte. -/
def fencedPublication : Publication where
  runId := js "run_0"
  body := some ⟨js "result.txt", js "text/plain", ⟨js "app", js "tenant", js "user"⟩⟩
  authenticatedPrincipal := some ⟨js "app", js "tenant", js "user"⟩
  read := .ok [42]
  beforeAt := 1
  afterAt := 2
  artifactId := js "art_0"
  createdAt := 3

theorem fenced_fencedRun {now : ℤ} (h : now = 1 ∨ now = 2) :
    (Store.afterCalls referencePlatform {} fencedRun).Fenced now ⟨js "app", js "tenant", js "user"⟩
      (js "run_0") (js "attempt_0") 1 := by
  refine ⟨_, rfl, rfl, rfl, _, rfl, rfl, ?_⟩
  rcases h with rfl | rfl
  · decide +kernel
  · decide +kernel

/-- The run holds its fence across the reading, and the route answers that it does not. -/
theorem not_lawful_fencedRun :
    ¬∀ (P : Platform) (sha256 : List UInt8 → JsString) (history later : List GeneratedOp)
      (p : Publication) (artifacts : List StoredArtifact),
      p.Lawful sha256 (Store.afterCalls P {} history)
        ((Store.afterCalls P {} history).afterCalls P later) artifacts := by
  intro h
  have hlaw := h referencePlatform (fun _ ↦ []) fencedRun [] fencedPublication []
  have hrefused : (publishArtifact (fun _ ↦ []) (Store.afterCalls referencePlatform {} fencedRun)
      (Store.afterCalls referencePlatform {} fencedRun) fencedPublication []).1 =
        .requiresActiveLease := by
    decide +kernel
  have hready : fencedPublication.Ready [] ⟨js "app", js "tenant", js "user"⟩ :=
    ⟨_, rfl, rfl, rfl, by decide +kernel, by decide +kernel, by simp, _, rfl, by decide⟩
  obtain ⟨record, hrecord⟩ := hlaw.stores_iff.mpr ⟨_, hready, js "attempt_0", 1,
    fenced_fencedRun (Or.inl rfl), fenced_fencedRun (Or.inr rfl)⟩
  exact absurd (hrefused.symm.trans hrecord) nofun

end LiteHarness
