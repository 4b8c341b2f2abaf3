import LiteHarness.Domain.Records
import LiteHarness.Skills.Catalog

/-!
# The skills of a run

Each time a run compiles its context or calls a skill tool, the manager records which skills the
catalog has for it. The first record stands, and a later one that differs is refused. What the
catalog has for a run is decided by the catalog, the run and the tools it is allowed, and a run says
the same of itself each time: in every course of events no record is refused for a difference, and
the record of a run stays what it was (`Recorded.run`).
-/

namespace LiteHarness.Skills

open Foundation

/-! ## The store -/

/-- A row of `skill_run_snapshots`. Its JSON column is the list that is written in it. -/
structure SnapshotRow where
  runId : JsString
  owner : ResourceOwner
  workspaceId : JsString
  generation : JsString
  skills : List (JsString × JsString)
  createdAt : JsString
  deriving DecidableEq

/-- `/^[a-f0-9]{64}$/`. -/
def isHexDigest (digest : JsString) : Bool :=
  digest.length = 64 &&
    digest.all fun u ↦ 97 ≤ u.toNat && u.toNat ≤ 102 || 48 ≤ u.toNat && u.toNat ≤ 57

/-- `DurableSkillRunSnapshotStore.get`. -/
def getSnapshot (rows : List SnapshotRow) (runId : JsString) (owner : ResourceOwner) :
    Except JsString (Option SnapshotRow) :=
  match rows.find? fun row ↦ row.runId = runId ∧ row.owner = owner with
  | none => .ok none
  | some row =>
    if ∃ skill ∈ row.skills, isHexDigest skill.2 = false then
      .error (js "Durable skill snapshot is invalid for run " ++ runId)
    else .ok (some row)

def snapshotChanged (runId : JsString) : JsString :=
  js "Immutable skill snapshot changed for run " ++ runId

/-- `DurableSkillRunSnapshotStore.record`: the rows it leaves, and what it returns. -/
def recordSnapshot (rows : List SnapshotRow) (row : SnapshotRow) :
    List SnapshotRow × Except JsString SnapshotRow :=
  if Table.lookup SnapshotRow.runId row.runId rows = none then (rows ++ [row], .ok row)
  else
    (rows,
      match getSnapshot rows row.runId row.owner with
      | .error message => .error message
      | .ok none => .error (snapshotChanged row.runId)
      | .ok (some existing) =>
        if existing.workspaceId ≠ row.workspaceId ∨ existing.generation ≠ row.generation ∨
            existing.skills ≠ row.skills then
          .error (snapshotChanged row.runId)
        else .ok existing)

/-! ## The manager -/

/-- `requiredString`. -/
def requiredString (value : Option JsString) (label : JsString) : Except JsString JsString :=
  if trim (value.getD []) = [] ∨ 4096 < (value.getD []).length ∨ hasBreak (value.getD []) then
    .error (label ++ js " must be a bounded single-line string")
  else .ok (trim (value.getD []))

/-- `csvSet`. -/
def csvSet (value : Option JsString) : List JsString :=
  (((value.getD []).splitOn comma).map trim).filter (· ≠ [])

/-- What a context compilation or a tool call says of its run. -/
structure SkillParams where
  principal : Option ResourceOwner
  workspaceId : JsString
  runId : Option JsString
  allowedTools : Option (List JsString)

/-- A manager with a catalog: the snapshots on its disk, the environment variable of capabilities
and `LITE_IPC_PROTOCOL_VERSION`. -/
structure SkillManager where
  host : SkillHost
  catalog : ImmutableSkillCatalog
  disk : SnapshotDirectory
  capabilities : Option JsString
  protocolVersion : JsString

/-- What a use of the skills gives. -/
inductive SkillAnswer where
  /-- `compile` adds nothing to the context. -/
  | context
  | listed (skills : List SkillCatalogEntry) (runSnapshot : RunSkills)
  | notFound (name : JsString)
  | viewed (skill : ImmutableSkillSnapshot) (runId : JsString)
  deriving DecidableEq

namespace SkillManager

variable (M : SkillManager)

/-- `eligibility`, with the names of `runtime.listTools()`. -/
def eligibility (tools : List JsString) (params : SkillParams) : Except JsString SkillEligibility :=
  match params.principal with
  | none => .error (js "Optional Manager capability requires an owned run principal")
  | some principal => do
    let runId ← requiredString params.runId (js "run id")
    return {
      allowedTools := some (params.allowedTools.getD tools)
      capabilities := some (csvSet M.capabilities)
      protocolVersion := some M.protocolVersion
      visibilityScopes := some [js "public", js "app:" ++ principal.appId,
        js "tenant:" ++ principal.tenantId, js "user:" ++ principal.userId,
        js "workspace:" ++ params.workspaceId, js "run:" ++ runId] }

/-- The snapshot that is recorded. -/
def runSnapshot (tools : List JsString) (params : SkillParams) : Except JsString RunSkills := do
  let runId ← requiredString params.runId (js "run id")
  let eligibility ← M.eligibility tools params
  M.catalog.snapshotForRun eligibility runId

/-- `recordRunSnapshot`, with the time of the record. -/
def recordRunSnapshot (tools : List JsString) (createdAt : JsString) (params : SkillParams)
    (rows : List SnapshotRow) : List SnapshotRow × Except JsString RunSkills :=
  match params.principal with
  | none => (rows, .error (js "Optional Manager capability requires an owned run principal"))
  | some principal =>
    match M.runSnapshot tools params with
    | .error message => (rows, .error message)
    | .ok runSnapshot =>
      let (rows, recorded) := recordSnapshot rows
        ⟨runSnapshot.runId, principal, params.workspaceId, runSnapshot.generation,
          runSnapshot.skills, createdAt⟩
      (rows, recorded.map fun _ ↦ runSnapshot)

/-- `compile`. -/
def compile (tools : List JsString) (createdAt : JsString) (params : SkillParams)
    (rows : List SnapshotRow) : List SnapshotRow × Except JsString SkillAnswer :=
  if (params.runId.getD []) = [] ∨ params.principal = none then (rows, .ok .context)
  else
    let (rows, recorded) := M.recordRunSnapshot tools createdAt params rows
    (rows, recorded.map fun _ ↦ .context)

/-- The tool `skill_list`. -/
def skillList (tools : List JsString) (createdAt : JsString) (params : SkillParams)
    (rows : List SnapshotRow) : List SnapshotRow × Except JsString SkillAnswer :=
  let (rows, recorded) := M.recordRunSnapshot tools createdAt params rows
  (rows, do
    let runSnapshot ← recorded
    let eligibility ← M.eligibility tools params
    return .listed (M.catalog.list eligibility) runSnapshot)

/-- The tool `skill_view`, with its argument. -/
def skillView (tools : List JsString) (createdAt : JsString) (params : SkillParams)
    (name : Option JsString) (rows : List SnapshotRow) :
    List SnapshotRow × Except JsString SkillAnswer :=
  match requiredString name (js "name") with
  | .error message => (rows, .error message)
  | .ok name =>
    let (rows, recorded) := M.recordRunSnapshot tools createdAt params rows
    (rows, do
      let runSnapshot ← recorded
      let eligibility ← M.eligibility tools params
      match ← M.catalog.view M.host eligibility M.disk name with
      | none => return .notFound name
      | some skill => return .viewed skill runSnapshot.runId)

end SkillManager

/-! ## Runs -/

/-- A run as the run service starts it: its identifier has the shape of one, and its agent profile
lists the allowed tools. -/
structure SkillRun where
  id : JsString
  isRunId_id : isRunId id = true
  owner : ResourceOwner
  workspaceId : JsString
  allowedTools : List JsString

/-- What a run does with its skills. -/
inductive SkillUse where
  | compile
  | list
  | view (name : Option JsString)
  deriving DecidableEq

/-- One of the runs uses its skills, with the tools that are registered and the time. -/
structure SkillEvent (ι : Type*) where
  run : ι
  use : SkillUse
  tools : List JsString
  now : JsString

/-- What the agent runner says of a run: the list of its profile where it compiles the context, and
`[...new Set(allowedTools)]` where it calls a tool. -/
def SkillRun.params (run : SkillRun) (use : SkillUse) : SkillParams where
  principal := some run.owner
  workspaceId := run.workspaceId
  runId := some run.id
  allowedTools :=
    match use with
    | .compile => some run.allowedTools
    | _ => some (distinct run.allowedTools)

namespace SkillManager

variable (M : SkillManager) {ι : Type*} (runs : ι → SkillRun)

/-- One event. -/
def step (rows : List SnapshotRow) (event : SkillEvent ι) :
    List SnapshotRow × Except JsString SkillAnswer :=
  let params := (runs event.run).params event.use
  match event.use with
  | .compile => M.compile event.tools event.now params rows
  | .list => M.skillList event.tools event.now params rows
  | .view name => M.skillView event.tools event.now params name rows

/-- The rows after events. -/
def after (rows : List SnapshotRow) (events : List (SkillEvent ι)) : List SnapshotRow :=
  events.foldl (fun rows event ↦ (M.step runs rows event).1) rows

/-! ## What a run says of itself -/

/-- The eligibility of a run. -/
def eligibilityOf (run : SkillRun) : SkillEligibility where
  allowedTools := some run.allowedTools
  capabilities := some (csvSet M.capabilities)
  protocolVersion := some M.protocolVersion
  visibilityScopes := some [js "public", js "app:" ++ run.owner.appId,
    js "tenant:" ++ run.owner.tenantId, js "user:" ++ run.owner.userId,
    js "workspace:" ++ run.workspaceId, js "run:" ++ run.id]

/-- What the catalog has for a run. -/
def skillsOf (run : SkillRun) : RunSkills :=
  ⟨run.id, M.catalog.generation, (M.catalog.list (M.eligibilityOf run)).map fun entry ↦
    (entry.name, entry.contentDigest)⟩

/-- The row that a run records. -/
def rowOf (run : SkillRun) (createdAt : JsString) : SnapshotRow :=
  ⟨run.id, run.owner, run.workspaceId, M.catalog.generation, (M.skillsOf run).skills, createdAt⟩

end SkillManager

theorem trim_eq_self {text : JsString} (h : ∀ u ∈ text, isStrWhiteSpace u = false) :
    trim text = text := by
  have hkeep {t : JsString} (ht : ∀ u ∈ t, isStrWhiteSpace u = false) :
      t.dropWhile isStrWhiteSpace = t := by
    rcases t with _ | ⟨u, t⟩
    · rfl
    · rw [List.dropWhile_cons, ht u List.mem_cons_self]
      rfl
  rw [trim, hkeep h, hkeep fun u hu ↦ h u (List.mem_reverse.mp hu), List.reverse_reverse]

/-- The units of a run id are letters, digits and four signs. -/
theorem unit_of_isRunId {runId : JsString} (h : isRunId runId = true) :
    1 ≤ runId.length ∧ runId.length ≤ 256 ∧
      ∀ u ∈ runId, isIdUnit u = true ∨ u.toNat = 46 ∨ u.toNat = 58 := by
  simp only [isRunId, Bool.or_eq_true, Bool.and_eq_true, decide_eq_true_eq, List.all_eq_true] at h
  rcases h with ⟨⟨⟨hbegins, hleast⟩, hmost⟩, hunits⟩ | ⟨⟨hleast, hmost⟩, hunits⟩
  · obtain ⟨rest, rfl⟩ := List.isPrefixOf_iff_prefix.mp hbegins
    have hrest : (js "run_" ++ rest).drop 4 = rest := rfl
    rw [hrest] at hleast hmost hunits
    have hfour : (js "run_").length = 4 := rfl
    refine ⟨?_, ?_, fun u hu ↦ Or.inl ?_⟩
    · rw [List.length_append]
      omega
    · rw [List.length_append]
      omega
    · have hfront : ∀ u ∈ js "run_", isIdUnit u = true := by decide
      exact (List.mem_append.mp hu).elim (hfront u) (hunits u)
  · exact ⟨hleast, hmost, fun u hu ↦ by simpa [or_assoc] using hunits u hu⟩

theorem requiredString_runId (run : SkillRun) (label : JsString) :
    requiredString (some run.id) label = .ok run.id := by
  obtain ⟨hleast, hmost, hunits⟩ := unit_of_isRunId run.isRunId_id
  have hspace : ∀ u ∈ run.id, isStrWhiteSpace u = false := by
    intro u hu
    have hunit := hunits u hu
    simp only [isIdUnit, Bool.or_eq_true, Bool.and_eq_true, decide_eq_true_eq] at hunit
    simp only [isStrWhiteSpace, Bool.or_eq_false_iff, decide_eq_false_iff_not, beq_eq_false_iff_ne]
    omega
  have hbreak : hasBreak run.id = false := by
    rw [hasBreak, List.any_eq_false]
    intro u hu heq
    have hunit := hunits u hu
    simp only [isIdUnit, Bool.or_eq_true, Bool.and_eq_true, decide_eq_true_eq] at hunit heq
    rcases heq with rfl | rfl | rfl <;> revert hunit <;> decide
  rw [requiredString, Option.getD_some, trim_eq_self hspace, hbreak, if_neg]
  rintro (hnil | hlong | hfalse)
  · rw [hnil] at hleast
    exact absurd hleast (by decide)
  · omega
  · exact absurd hfalse (by decide)

namespace SkillManager

variable (M : SkillManager)

/-- **A run says the same** of itself whatever it uses, and whatever tools are registered. -/
theorem eligibility_params (run : SkillRun) (use : SkillUse) (tools : List JsString) :
    ∃ eligibility, M.eligibility tools (run.params use) = .ok eligibility ∧
      M.catalog.list eligibility = M.catalog.list (M.eligibilityOf run) := by
  have hrunId := requiredString_runId run (js "run id")
  refine ⟨{ M.eligibilityOf run with
    allowedTools := some ((run.params use).allowedTools.getD tools) }, ?_, ?_⟩
  · rw [eligibility]
    exact except_bind_eq_ok_iff.mpr ⟨run.id, hrunId, rfl⟩
  · refine List.filter_congr fun entry _ ↦ ?_
    have hsame (tool : JsString) :
        (distinct run.allowedTools).contains tool = run.allowedTools.contains tool := by
      rw [Bool.eq_iff_iff, List.contains_iff_mem, List.contains_iff_mem, mem_distinct]
    have hall : entry.requestedTools.all (distinct run.allowedTools).contains =
        entry.requestedTools.all run.allowedTools.contains := by
      rw [funext hsame]
    rcases use with _ | _ | name
    · rfl
    · simp only [eligible, SkillRun.params, eligibilityOf, Option.getD_some, Option.all_some, hall]
    · simp only [eligible, SkillRun.params, eligibilityOf, Option.getD_some, Option.all_some, hall]

/-- What a use of the skills records. -/
theorem recordRunSnapshot_params (run : SkillRun) (use : SkillUse) (tools : List JsString)
    (createdAt : JsString) (rows : List SnapshotRow) :
    M.recordRunSnapshot tools createdAt (run.params use) rows =
      ((recordSnapshot rows (M.rowOf run createdAt)).1,
        (recordSnapshot rows (M.rowOf run createdAt)).2.map fun _ ↦ M.skillsOf run) := by
  obtain ⟨eligibility, heligibility, hlist⟩ := M.eligibility_params run use tools
  have hskills : M.catalog.snapshotForRun eligibility run.id = .ok (M.skillsOf run) := by
    rw [ImmutableSkillCatalog.snapshotForRun, run.isRunId_id, if_neg (by decide), hlist, skillsOf]
  have hsnapshot : M.runSnapshot tools (run.params use) = .ok (M.skillsOf run) :=
    except_bind_eq_ok_iff.mpr ⟨run.id, requiredString_runId run _,
      except_bind_eq_ok_iff.mpr ⟨eligibility, heligibility, hskills⟩⟩
  rw [recordRunSnapshot, hsnapshot]
  rfl

end SkillManager

/-! ## Records -/

section

variable {rows : List SnapshotRow} {row existing : SnapshotRow}

/-- The row of a run id. -/
abbrev recorded (runId : JsString) (rows : List SnapshotRow) : Option SnapshotRow :=
  Table.lookup SnapshotRow.runId runId rows

theorem recorded_append (runId : JsString) (rows : List SnapshotRow) (row : SnapshotRow) :
    recorded runId (rows ++ [row]) =
      (recorded runId rows).or (if row.runId = runId then some row else none) := by
  rw [recorded, Table.lookup, List.find?_append, List.find?_singleton, recorded, Table.lookup]
  simp

/-- What was recorded stays, and other runs have no part in it. -/
theorem recorded_recordSnapshot (runId : JsString) :
    recorded runId (recordSnapshot rows row).1 =
      (recorded runId rows).or (if row.runId = runId then some row else none) := by
  rw [recordSnapshot]
  by_cases hnone : Table.lookup SnapshotRow.runId row.runId rows = none
  · rw [if_pos hnone, recorded_append]
  · rw [if_neg hnone]
    by_cases hid : row.runId = runId
    · obtain ⟨existing, hsome⟩ := Option.ne_none_iff_exists'.mp hnone
      rw [hid] at hsome
      rw [recorded, hsome, Option.some_or]
    · rw [if_neg hid, Option.or_none]

/-- A query with the owner finds the row of the run, where that is its owner's. -/
theorem find?_of_recorded {runId : JsString} {owner : ResourceOwner}
    (h : recorded runId rows = some existing) (howner : existing.owner = owner) :
    rows.find? (fun row ↦ row.runId = runId ∧ row.owner = owner) = some existing := by
  obtain ⟨hid, before, after, rfl, hbefore⟩ := List.find?_eq_some_iff_append.mp h
  refine List.find?_eq_some_iff_append.mpr ⟨?_, before, after, rfl, fun row hmem ↦ ?_⟩
  · simpa using ⟨of_decide_eq_true hid, howner⟩
  · have hne := hbefore row hmem
    simp only [Bool.not_eq_true', decide_eq_false_iff_not] at hne ⊢
    exact fun h ↦ hne h.1

theorem ne_of_take {a b : JsString} (n : ℕ) (h : a.take n ≠ b.take n) (ha : n ≤ a.length)
    (hb : n ≤ b.length) (x y : JsString) : a ++ x ≠ b ++ y := by
  intro heq
  have htake := congrArg (List.take n) heq
  rw [List.take_append_of_le_length ha, List.take_append_of_le_length hb] at htake
  exact h htake

/-- A row that says the same but for the time is not refused for a difference. -/
theorem recordSnapshot_ne_changed
    (h : recorded row.runId rows = none ∨
      ∃ createdAt, recorded row.runId rows = some { row with createdAt }) :
    (recordSnapshot rows row).2 ≠ .error (snapshotChanged row.runId) := by
  rw [recordSnapshot]
  rcases h with hnone | ⟨createdAt, hsome⟩
  · rw [if_pos hnone]
    exact nofun
  · have hfind : rows.find? (fun r ↦ r.runId = row.runId ∧ r.owner = row.owner) =
        some { row with createdAt } := find?_of_recorded hsome rfl
    have hfound : Table.lookup SnapshotRow.runId row.runId rows ≠ none :=
      fun hnone ↦ Option.some_ne_none _ (hsome.symm.trans hnone)
    rw [if_neg hfound]
    dsimp only
    rw [getSnapshot, hfind]
    dsimp only
    split_ifs with hinvalid
    · intro heq
      exact ne_of_take 1 (by decide) (by decide) (by decide) _ _ (Except.error.inj heq)
    · dsimp only
      simp

end

theorem view_ne_changed (H : SkillHost) (catalog : ImmutableSkillCatalog)
    (eligibility : SkillEligibility) (disk : SnapshotDirectory) (name runId : JsString) :
    catalog.view H eligibility disk name ≠ .error (snapshotChanged runId) := by
  rw [ImmutableSkillCatalog.view]
  rcases Table.lookup SkillCatalogEntry.name name catalog.entries with _ | entry
  · exact nofun
  dsimp only
  split_ifs
  · exact nofun
  have hmissing : js "ENOENT: no such file or directory, open" ≠ snapshotChanged runId := by
    have h := ne_of_take 1 (by decide) (by decide) (by decide)
      (a := js "ENOENT: no such file or directory, open")
      (b := js "Immutable skill snapshot changed for run ") [] runId
    rwa [List.append_nil] at h
  rcases disk catalog.generation entry.contentDigest with _ | _ | _ | file | _
  · exact fun h ↦ hmissing (Except.error.inj h)
  · exact fun h ↦ hmissing (Except.error.inj h)
  · exact fun h ↦ hmissing (Except.error.inj h)
  · dsimp only
    split_ifs
    · exact fun h ↦ ne_of_take 26 (by decide +kernel) (by decide) (by decide) _ _
        (Except.error.inj h)
    rw [parseBody]
    rcases frontmatter (bufferText file.bytes) with _ | found
    · exact fun h ↦ ne_of_take 26 (by decide +kernel) (by decide) (by decide) _ _
        (Except.error.inj h)
    · by_cases hlong : catalog.maxPromptCharacters < found.2.length
      · intro h
        have hmessage := Except.error.inj ((if_pos hlong).symm.trans h)
        rw [List.append_assoc, List.append_assoc] at hmessage
        exact ne_of_take 1 (by decide) (by decide) (by decide) _ _ hmessage
      · exact fun h ↦ absurd ((if_neg hlong).symm.trans h) nofun
  · exact fun h ↦ hmissing (Except.error.inj h)

/-! ## Events -/

namespace SkillManager

variable (M : SkillManager) {ι : Type*} (runs : ι → SkillRun)

/-- What the events of a run do: they fail before they record anything, or record what the catalog
has for the run and go on with it. No failure but that of the record is one for a difference. -/
theorem step_eq (rows : List SnapshotRow) (event : SkillEvent ι) :
    (∃ message, message ≠ snapshotChanged (runs event.run).id ∧
      M.step runs rows event = (rows, .error message)) ∨
    ∃ rest : RunSkills → Except JsString SkillAnswer,
      rest (M.skillsOf (runs event.run)) ≠ .error (snapshotChanged (runs event.run).id) ∧
      M.step runs rows event =
        ((recordSnapshot rows (M.rowOf (runs event.run) event.now)).1,
          (recordSnapshot rows (M.rowOf (runs event.run) event.now)).2.map
            (fun _ ↦ M.skillsOf (runs event.run)) >>= rest) := by
  obtain ⟨i, use, tools, now⟩ := event
  obtain ⟨eligibility, heligibility, -⟩ := M.eligibility_params (runs i) use tools
  have hrecord := M.recordRunSnapshot_params (runs i) use tools now rows
  generalize hresult : recordSnapshot rows (M.rowOf (runs i) now) = result at *
  obtain ⟨rows', recorded⟩ := result
  rcases use with _ | _ | name
  · refine Or.inr ⟨fun _ ↦ .ok .context, nofun, ?_⟩
    have hgiven : ¬((runs i).id = [] ∨ some (runs i).owner = none) := by
      have hleast := (unit_of_isRunId (runs i).isRunId_id).1
      rintro (hnil | hnone)
      · rw [hnil] at hleast
        exact absurd hleast (by decide)
      · exact absurd hnone nofun
    have hstep : M.step runs rows ⟨i, .compile, tools, now⟩ =
        M.compile tools now ((runs i).params .compile) rows := rfl
    rw [hstep, compile, hrecord]
    refine (if_neg hgiven).trans ?_
    rcases recorded with message | row <;> rfl
  · refine Or.inr ⟨fun runSnapshot ↦ .ok (.listed (M.catalog.list eligibility) runSnapshot), nofun,
      ?_⟩
    have hstep : M.step runs rows ⟨i, .list, tools, now⟩ =
        M.skillList tools now ((runs i).params .list) rows := rfl
    rw [hstep, skillList, hrecord, heligibility]
    rcases recorded with message | row <;> rfl
  · have hstep : M.step runs rows ⟨i, .view name, tools, now⟩ =
        M.skillView tools now ((runs i).params (.view name)) name rows := rfl
    rw [hstep, skillView, hrecord, heligibility]
    rcases hname : requiredString name (js "name") with message | name
    · refine Or.inl ⟨message, ?_, rfl⟩
      rw [requiredString] at hname
      split_ifs at hname
      rw [← Except.error.inj hname]
      exact ne_of_take 1 (by decide) (by decide) (by decide) _ _
    · refine Or.inr ⟨fun runSnapshot ↦ do
        match ← M.catalog.view M.host eligibility M.disk name with
        | none => return .notFound name
        | some skill => return .viewed skill runSnapshot.runId, ?_, ?_⟩
      · intro h
        rcases hview : M.catalog.view M.host eligibility M.disk name with message | _ | skill
        · dsimp only at h
          rw [hview] at h
          obtain rfl : message = snapshotChanged (runs i).id := Except.error.inj h
          exact view_ne_changed _ _ _ _ _ _ hview
        · dsimp only at h
          rw [hview] at h
          exact absurd h nofun
        · dsimp only at h
          rw [hview] at h
          exact absurd h nofun
      · rcases recorded with message | row <;> rfl

/-- Nothing is recorded for a run, or what the catalog has for it. -/
def Recorded (run : SkillRun) (rows : List SnapshotRow) : Prop :=
  recorded run.id rows = none ∨
    ∃ createdAt, recorded run.id rows = some (M.rowOf run createdAt)

variable {M runs} {i : ι} {rows : List SnapshotRow}

/-- What an event leaves of the record of a run. -/
theorem recorded_step (hids : Function.Injective fun i ↦ (runs i).id) (event : SkillEvent ι) :
    recorded (runs i).id (M.step runs rows event).1 = recorded (runs i).id rows ∨
      event.run = i ∧ recorded (runs i).id (M.step runs rows event).1 =
        (recorded (runs i).id rows).or (some (M.rowOf (runs i) event.now)) := by
  rcases M.step_eq runs rows event with ⟨_, -, hstep⟩ | ⟨_, -, hstep⟩
  · exact Or.inl (by rw [hstep])
  · rw [hstep]
    dsimp only
    rw [recorded_recordSnapshot]
    by_cases hrun : event.run = i
    · rw [hrun]
      exact Or.inr ⟨rfl, congrArg _ (if_pos rfl)⟩
    · have hother : (runs event.run).id ≠ (runs i).id := fun heq ↦ hrun (hids heq)
      exact Or.inl (by rw [rowOf, if_neg hother, Option.or_none])

theorem Recorded.step (hids : Function.Injective fun i ↦ (runs i).id)
    (h : M.Recorded (runs i) rows) (event : SkillEvent ι) :
    M.Recorded (runs i) (M.step runs rows event).1 := by
  rcases recorded_step hids event with heq | ⟨-, heq⟩
  · rwa [Recorded, heq]
  · rw [Recorded, heq]
    rcases h with hnone | ⟨createdAt, hsome⟩
    · exact Or.inr ⟨event.now, by rw [hnone, Option.none_or]⟩
    · exact Or.inr ⟨createdAt, by rw [hsome, Option.some_or]⟩

/-- **The invariant of all courses of events.** -/
theorem Recorded.after (hids : Function.Injective fun i ↦ (runs i).id)
    (h : M.Recorded (runs i) rows) (events : List (SkillEvent ι)) :
    M.Recorded (runs i) (M.after runs rows events) := by
  induction events generalizing rows with
  | nil => exact h
  | cons event events ih => exact ih (h.step hids event)

theorem recorded_after (hids : Function.Injective fun i ↦ (runs i).id)
    (events : List (SkillEvent ι)) {row : SnapshotRow} (h : recorded (runs i).id rows = some row) :
    recorded (runs i).id (M.after runs rows events) = some row := by
  induction events generalizing rows with
  | nil => exact h
  | cons event events ih =>
    refine ih ?_
    rcases recorded_step hids event with heq | ⟨-, heq⟩
    · rw [heq, h]
    · rw [heq, h, Option.some_or]

theorem after_append (events more : List (SkillEvent ι)) :
    M.after runs rows (events ++ more) = M.after runs (M.after runs rows events) more :=
  List.foldl_append

/-- **The snapshot of a run** in every course of events: no use of its skills fails because the
snapshot changed, one that succeeds finds it recorded, it is what the catalog has for the run, and
it stays. -/
structure KeepsSnapshot (M : SkillManager) (runs : ι → SkillRun) (rows : List SnapshotRow) (i : ι) :
    Prop where
  unchanged : ∀ events event, event.run = i →
    (M.step runs (M.after runs rows events) event).2 ≠ .error (snapshotChanged (runs i).id)
  found : ∀ events event answer, event.run = i →
    (M.step runs (M.after runs rows events) event).2 = .ok answer →
      (recorded (runs i).id (M.after runs rows (events ++ [event]))).isSome = true
  skills : ∀ events row, recorded (runs i).id (M.after runs rows events) = some row →
    ∃ createdAt, row = M.rowOf (runs i) createdAt
  stays : ∀ events more row, recorded (runs i).id (M.after runs rows events) = some row →
    recorded (runs i).id (M.after runs rows (events ++ more)) = some row

theorem keepsSnapshot_of_unrecorded (hids : Function.Injective fun i ↦ (runs i).id)
    (hrows : recorded (runs i).id rows = none) : M.KeepsSnapshot runs rows i := by
  have hinv (events : List (SkillEvent ι)) : M.Recorded (runs i) (M.after runs rows events) :=
    Recorded.after hids (Or.inl hrows) events
  constructor
  · rintro events event rfl hfails
    rcases M.step_eq runs (M.after runs rows events) event with
      ⟨message, hmessage, hstep⟩ | ⟨rest, hrest, hstep⟩
    · rw [hstep] at hfails
      exact hmessage (Except.error.inj hfails)
    · have hkept : (recordSnapshot (M.after runs rows events)
          (M.rowOf (runs event.run) event.now)).2 ≠ .error (snapshotChanged (runs event.run).id) :=
        recordSnapshot_ne_changed ((hinv events).imp_right fun ⟨createdAt, h⟩ ↦ ⟨createdAt, h⟩)
      rw [hstep] at hfails
      dsimp only at hfails
      rcases hrecord : (recordSnapshot (M.after runs rows events)
        (M.rowOf (runs event.run) event.now)).2 with message | row
      · rw [hrecord] at hfails hkept
        have hmessage : (Except.error message : Except JsString SkillAnswer) = .error _ := hfails
        exact hkept (congrArg Except.error (Except.error.inj hmessage))
      · rw [hrecord] at hfails
        exact hrest hfails
  · rintro events event answer rfl hok
    rw [after_append]
    rcases M.step_eq runs (M.after runs rows events) event with
      ⟨message, -, hstep⟩ | ⟨rest, -, hstep⟩
    · rw [hstep] at hok
      exact absurd hok nofun
    · change (recorded _ (M.step runs (M.after runs rows events) event).1).isSome = true
      rw [hstep]
      dsimp only
      rw [recorded_recordSnapshot, rowOf, if_pos rfl, Option.isSome_or, Option.isSome_some,
        Bool.or_true]
  · intro events row hrow
    rcases hinv events with hnone | ⟨createdAt, hsome⟩
    · exact absurd (hrow.symm.trans hnone) (Option.some_ne_none row)
    · exact ⟨createdAt, Option.some.inj (hrow.symm.trans hsome)⟩
  · intro events more row hrow
    rw [after_append]
    exact recorded_after hids more hrow

end SkillManager

end LiteHarness.Skills
