import LiteHarness.Storage.Changes
import Mathlib.Algebra.BigOperators.Group.List.Basic
import Mathlib.Data.List.Nodup

/-!
# The run row is the fold of its event log

A run is stored twice over: as a row, and as the log of the events that made it so. `IsFold` says
that the two agree: the log is numbered without gaps, and status and usage totals are those the log
adds up to. Every operation keeps the agreement, provided its events say what they do to the row;
`AppendRunEvent.Coherent` is that proviso, and `recordUsage`, which changes totals without an event,
is the one operation that cannot meet it.
-/

namespace LiteHarness

open Foundation

/-! ## What an event says about its run -/

/-- The usage an event of this type and payload reports: the finite non-negative figures of a
`usage.updated`, and one tool call for a `tool.call.requested`. -/
def eventUsage (type : RunEventType) (payload : EventPayload) : RunUsageDelta :=
  match type, payload with
  | .usageUpdated, .usage inputTokens outputTokens costUsd =>
    { inputTokens := numberValue inputTokens, outputTokens := numberValue outputTokens
      costUsd := numberValue costUsd }
  | .toolCallRequested, _ => { toolCalls := some 1 }
  | _, _ => {}

namespace EventRow

/-- The status the event gives its run. -/
def statusChange (e : EventRow) : Option RunStatus :=
  if e.type.changesStatus then e.payload.runStatus else none

/-- The usage the event reports. -/
def usage (e : EventRow) : RunUsageDelta := eventUsage e.type e.payload

end EventRow

/-- The statuses a log takes its run through. -/
def statusPath (log : List EventRow) : List RunStatus := log.filterMap EventRow.statusChange

/-- The figures a log reports in one dimension. -/
def reported (d : RunUsageDelta → Option ℚ) (log : List EventRow) : List ℚ :=
  log.filterMap fun e ↦ d e.usage

/-- The total of the reported figures; nothing where none was reported. -/
def reportedTotal (d : RunUsageDelta → Option ℚ) (log : List EventRow) : Option ℚ :=
  if reported d log = [] then none else some (reported d log).sum

theorem reported_append (d : RunUsageDelta → Option ℚ) (log : List EventRow) (e : EventRow) :
    reported d (log ++ [e]) = reported d log ++ (d e.usage).toList := by
  rw [reported, List.filterMap_append, reported]
  cases h : d e.usage <;> simp [h]

theorem statusPath_append (log : List EventRow) (e : EventRow) :
    statusPath (log ++ [e]) = statusPath log ++ e.statusChange.toList := by
  rw [statusPath, List.filterMap_append, statusPath]
  cases h : e.statusChange <;> simp [h]

/-! ## Rows and logs -/

/-- The row of a run agrees with its log. -/
structure IsFold (row : RunRow) (log : List EventRow) : Prop where
  sequence : log.map EventRow.sequence = List.range' 1 row.lastSequence
  status : (statusPath log).getLast? = some row.status
  toolCalls : row.usageToolCalls = (log.filter fun e ↦ e.type = .toolCallRequested).length
  inputTokens : row.usageInputTokens = (reported RunUsageDelta.inputTokens log).sum ∧
    (row.usageInputTokensReported = true ↔ reported RunUsageDelta.inputTokens log ≠ [])
  outputTokens : row.usageOutputTokens = (reported RunUsageDelta.outputTokens log).sum ∧
    (row.usageOutputTokensReported = true ↔ reported RunUsageDelta.outputTokens log ≠ [])
  cost : row.usageCostUsd = (reported RunUsageDelta.costUsd log).sum ∧
    (row.usageCostReported = true ↔ reported RunUsageDelta.costUsd log ≠ [])

/-- The usage of a run is the total of its log. -/
theorem IsFold.usage_eq {row : RunRow} {log : List EventRow} (h : IsFold row log) :
    row.usage =
      { inputTokens := reportedTotal RunUsageDelta.inputTokens log
        outputTokens := reportedTotal RunUsageDelta.outputTokens log
        costUsd := reportedTotal RunUsageDelta.costUsd log
        toolCalls := (log.filter fun e ↦ e.type = .toolCallRequested).length } := by
  have hdim : ∀ {flag : Bool} {total : ℚ} {d : RunUsageDelta → Option ℚ},
      total = (reported d log).sum ∧ (flag = true ↔ reported d log ≠ []) →
      (if flag = true then some total else none) = reportedTotal d log := by
    rintro flag total d ⟨rfl, hflag⟩
    rw [reportedTotal]
    by_cases hnil : reported d log = []
    · rw [if_pos hnil, if_neg fun hf ↦ hflag.mp hf hnil]
    · rw [if_neg hnil, if_pos (hflag.mpr hnil)]
  rw [RunRow.usage, hdim h.inputTokens, hdim h.outputTokens, hdim h.cost, h.toolCalls]

/-- The event says what it does to the row. -/
structure AppendRunEvent.Coherent (params : AppendRunEvent) : Prop where
  status : params.status =
    if params.type.changesStatus then params.payload.runStatus else none
  usage : params.usage.getD {} = eventUsage params.type params.payload

theorem eventUsage_toolCalls (type : RunEventType) (payload : EventPayload) :
    (eventUsage type payload).toolCalls.getD 0 = if type = .toolCallRequested then 1 else 0 := by
  cases type <;> first | rfl | (cases payload <;> rfl)

/-- Adding a figure to a total and to the figures it is the total of. -/
theorem total_append {total : ℚ} {flag : Bool} {figures : List ℚ} (figure : Option ℚ)
    (h : total = figures.sum ∧ (flag = true ↔ figures ≠ [])) :
    total + figure.getD 0 = (figures ++ figure.toList).sum ∧
      ((flag || figure.isSome) = true ↔ figures ++ figure.toList ≠ []) := by
  obtain ⟨rfl, hflag⟩ := h
  cases figure with
  | none => simpa using hflag
  | some q => simp

/-- **A coherent event keeps row and log in agreement.** -/
theorem IsFold.append {row : RunRow} {log : List EventRow} (h : IsFold row log) {createdAt : ℤ}
    {params : AppendRunEvent} (hc : params.Coherent) :
    IsFold (Store.appended createdAt params row)
      (log ++ [Store.eventOf createdAt params row]) := by
  have husage : (Store.eventOf createdAt params row).usage = params.usage.getD {} := hc.usage.symm
  have hstatus : (Store.eventOf createdAt params row).statusChange = params.status :=
    hc.status.symm
  refine ⟨?_, ?_, ?_, ?_, ?_, ?_⟩
  · rw [List.map_append, h.sequence]
    change _ = List.range' 1 (row.lastSequence + 1)
    rw [List.range'_1_concat, Nat.add_comm 1]
    rfl
  · rw [statusPath_append, hstatus]
    cases hs : params.status with
    | none => simpa [Store.appended, hs] using h.status
    | some status => simp [Store.appended, hs]
  · rw [List.filter_append, List.length_append, ← h.toolCalls]
    have htool := eventUsage_toolCalls params.type params.payload
    rw [← hc.usage] at htool
    simp only [Store.appended, Store.withUsage, htool, Store.eventOf]
    by_cases ht : params.type = .toolCallRequested <;> simp [ht]
  · rw [reported_append, husage]
    exact total_append _ h.inputTokens
  · rw [reported_append, husage]
    exact total_append _ h.outputTokens
  · rw [reported_append, husage]
    exact total_append _ h.cost

namespace Store

/-! ## The invariant -/

/-- Every run and its log are in the relation. -/
def EachRun (p : RunRow → List EventRow → Prop) (S : Store) : Prop :=
  ∀ row ∈ S.runs, p row (S.eventsOf row.id)

/-- Every run has one row, every event has a run, and every row is the fold of its log. -/
structure Logged (S : Store) : Prop where
  ids : (S.runs.map RunRow.id).Nodup
  owned : ∀ e ∈ S.events, e.runId ∈ S.runs.map RunRow.id
  fold : S.EachRun IsFold

theorem Logged.empty : Logged {} :=
  ⟨List.nodup_nil, fun _ h ↦ absurd h List.not_mem_nil, fun _ h ↦ absurd h List.not_mem_nil⟩

theorem eventsOf_congr {S S' : Store} (h : S'.events = S.events) (id : JsString) :
    S'.eventsOf id = S.eventsOf id := by
  rw [eventsOf, h, eventsOf]

/-- Only runs and events matter. -/
theorem EachRun.congr {p : RunRow → List EventRow → Prop} {S S' : Store} (h : S.EachRun p)
    (hruns : S'.runs = S.runs) (hevents : S'.events = S.events) : S'.EachRun p := by
  simpa only [EachRun, hruns, eventsOf_congr hevents] using h

theorem Logged.congr {S T : Store} (h : S.Logged) (hruns : T.runs = S.runs)
    (hevents : T.events = S.events) : T.Logged := by
  refine ⟨?_, ?_, h.fold.congr hruns hevents⟩
  · rw [hruns]
    exact h.ids
  · rw [hruns, hevents]
    exact h.owned

theorem run?_of_mem {S : Store} (h : (S.runs.map RunRow.id).Nodup) {row : RunRow}
    (hrow : row ∈ S.runs) : S.run? row.id = some row := Table.lookup_of_mem h hrow

theorem run?_mem {S : Store} {id : JsString} {row : RunRow} (h : S.run? id = some row) :
    row ∈ S.runs ∧ row.id = id :=
  ⟨Table.mem_of_lookup h, Table.key_of_lookup h⟩

theorem eventsOf_append (S : Store) (e : EventRow) (id : JsString) :
    eventsOf { S with events := S.events ++ [e] } id =
      if e.runId = id then S.eventsOf id ++ [e] else S.eventsOf id := by
  rw [eventsOf, List.filter_append, eventsOf]
  split_ifs with h <;> simp [h]

/-- An event for the next sequence number is never there yet. -/
theorem Logged.fresh {S : Store} (h : S.Logged) {id : JsString} {row : RunRow}
    (hrow : S.run? id = some row) :
    ∀ e ∈ S.events, e.runId = id → e.sequence ≠ row.lastSequence + 1 := by
  intro e he hid hseq
  obtain ⟨hmem, rfl⟩ := run?_mem hrow
  have hlog : e.sequence ∈ (S.eventsOf row.id).map EventRow.sequence :=
    List.mem_map_of_mem (List.mem_filter.mpr ⟨he, by simpa using hid⟩)
  rw [(h.fold row hmem).sequence, List.mem_range'_1] at hlog
  omega

/-- A run that is not terminal takes every event but a detached summary. -/
theorem Logged.appendable {S : Store} (h : S.Logged) {params : AppendRunEvent} {row : RunRow}
    (hrow : S.run? params.runId = some row) (hactive : row.status.isTerminalRunStatus = false)
    (htype : params.type ≠ .subagentCompleted) : S.Appendable params row :=
  ⟨hrow, fun ht ↦ absurd ht htype, fun ht ↦ absurd (hactive.symm.trans ht) (by simp), h.fresh hrow⟩

theorem eventsOf_recorded (createdAt : ℤ) (params : AppendRunEvent) (row : RunRow) (S : Store)
    (id : JsString) : (S.recorded createdAt params row).eventsOf id =
      if params.runId = id then S.eventsOf id ++ [eventOf createdAt params row]
      else S.eventsOf id :=
  eventsOf_append S (eventOf createdAt params row) id

theorem run?_recorded (createdAt : ℤ) (params : AppendRunEvent) (row : RunRow) (S : Store)
    (id : JsString) : (S.recorded createdAt params row).run? id = (S.run? id).map fun r ↦
      if r.id = params.runId then appended createdAt params r else r := by
  refine (Table.lookup_update (f := appended createdAt params) (fun _ ↦ rfl) id S.runs).trans ?_
  simp only [decide_eq_true_eq]
  rfl

theorem recorded_ids (createdAt : ℤ) (params : AppendRunEvent) (row : RunRow) (S : Store) :
    (S.recorded createdAt params row).runs.map RunRow.id = S.runs.map RunRow.id :=
  Table.map_update (f := appended createdAt params) (fun _ ↦ rfl) S.runs

/-- An event concerns the row it was appended to and no other. -/
theorem EachRun.recorded {p : RunRow → List EventRow → Prop} {S : Store} (hS : S.EachRun p)
    (hids : (S.runs.map RunRow.id).Nodup) {createdAt : ℤ} {params : AppendRunEvent} {row : RunRow}
    (happend : S.Appendable params row)
    (hp : p row (S.eventsOf row.id) → p (appended createdAt params row)
      (S.eventsOf row.id ++ [eventOf createdAt params row])) :
    (S.recorded createdAt params row).EachRun p := by
  intro r hr
  obtain ⟨r₀, hr₀, rfl⟩ := Table.mem_update.mp hr
  by_cases heq : r₀.id = params.runId
  · -- the run of the event is the one the guards looked at
    obtain rfl : r₀ = row :=
      Option.some.inj ((run?_of_mem hids hr₀).symm.trans (heq ▸ happend.row_eq))
    simp only [heq, decide_true, if_true]
    change p _ (eventsOf (Store.recorded createdAt params r₀ S) r₀.id)
    rw [eventsOf_recorded, if_pos heq.symm]
    exact hp (hS r₀ hr₀)
  · simp only [heq, decide_false, Bool.false_eq_true, if_false]
    rw [eventsOf_recorded, if_neg fun heq' ↦ heq heq'.symm]
    exact hS r₀ hr₀

theorem Logged.recorded {S : Store} (h : S.Logged) {createdAt : ℤ} {params : AppendRunEvent}
    {row : RunRow} (happend : S.Appendable params row) (hc : params.Coherent) :
    (S.recorded createdAt params row).Logged := by
  obtain ⟨hmem, hid⟩ := run?_mem happend.row_eq
  refine ⟨?_, ?_, h.fold.recorded h.ids happend fun hfold ↦ hfold.append hc⟩
  · rw [recorded_ids]
    exact h.ids
  · rw [recorded_ids]
    intro e he
    rcases List.mem_append.mp he with he | he
    · exact h.owned e he
    · rw [List.mem_singleton.mp he]
      exact List.mem_map.mpr ⟨row, hmem, hid⟩

/-- The log of a run that does not exist is empty. -/
theorem Logged.eventsOf_eq_nil {S : Store} (h : S.Logged) {id : JsString}
    (hnone : ∀ r ∈ S.runs, r.id ≠ id) : S.eventsOf id = [] := by
  refine List.filter_eq_nil_iff.mpr fun e he heq ↦ ?_
  obtain ⟨r, hr, hrid⟩ := List.mem_map.mp (h.owned e he)
  exact hnone r hr (hrid.trans (by simpa using heq))

/-- The logs after a creation. -/
theorem Created.eventsOf_eq {S S' : Store} (h : S.Logged) {now : ℤ} {id : JsString}
    {request : InternalStartRunRequest} {row : RunRow}
    (hcreated : Created now id request row S S') (k : JsString) :
    S'.eventsOf k = if id = k then [acceptedEvent now id] else S.eventsOf k := by
  rw [eventsOf, hcreated.events]
  refine (eventsOf_append S (acceptedEvent now id) k).trans ?_
  change (if id = k then _ else _) = _
  split_ifs with hk
  · subst hk
    rw [h.eventsOf_eq_nil hcreated.fresh, List.nil_append]
  · rfl

/-- A creation adds one row with its first event. -/
theorem EachRun.created {p : RunRow → List EventRow → Prop} {S S' : Store} (hS : S.EachRun p)
    (h : S.Logged) {now : ℤ} {id : JsString} {request : InternalStartRunRequest} {row : RunRow}
    (hcreated : Created now id request row S S') (hp : p row [acceptedEvent now id]) :
    S'.EachRun p := by
  intro r hr
  rw [hcreated.runs] at hr
  rw [hcreated.eventsOf_eq h]
  rcases List.mem_append.mp hr with hr | hr
  · rw [if_neg fun heq ↦ hcreated.fresh r hr heq.symm]
    exact hS r hr
  · rw [List.mem_singleton.mp hr, if_pos hcreated.id_eq.symm]
    exact hp

theorem isFold_newRun (now : ℤ) (id fingerprint : JsString) (request : InternalStartRunRequest)
    (agent : AgentRow) (workspace : WorkspaceRow) (session : SessionRow) :
    IsFold (newRun now id fingerprint request agent workspace session) [acceptedEvent now id] := by
  have hnone : ∀ d : RunUsageDelta → Option ℚ, d {} = none →
      (0 : ℚ) = (reported d [acceptedEvent now id]).sum ∧
        (false = true ↔ reported d [acceptedEvent now id] ≠ []) := by
    intro d hd
    have hreported : reported d [acceptedEvent now id] = [] :=
      List.filterMap_eq_nil_iff.mpr fun e he ↦ by rwa [List.mem_singleton.mp he]
    rw [hreported]
    simp
  exact ⟨rfl, rfl, rfl, hnone _ rfl, hnone _ rfl, hnone _ rfl⟩

theorem Logged.created {S S' : Store} (h : S.Logged) {now : ℤ} {id : JsString}
    {request : InternalStartRunRequest} {row : RunRow}
    (hcreated : Created now id request row S S') : S'.Logged := by
  have hid := hcreated.id_eq
  refine ⟨?_, ?_, h.fold.created h hcreated ?_⟩
  · rw [hcreated.runs, List.map_append, List.nodup_append]
    refine ⟨h.ids, List.nodup_singleton _, ?_⟩
    rintro k hk _ hk' rfl
    obtain ⟨r, hr, rfl⟩ := List.mem_map.mp hk
    exact hcreated.fresh r hr ((List.mem_singleton.mp hk').trans hid)
  · rw [hcreated.runs, hcreated.events, List.map_append]
    intro e he
    rcases List.mem_append.mp he with he | he
    · exact List.mem_append_left _ (h.owned e he)
    · rw [List.mem_singleton.mp he]
      exact List.mem_append_right _ (List.mem_singleton.mpr hid.symm)
  · obtain ⟨fingerprint, agent, workspace, session, rfl⟩ := hcreated.row_eq
    exact isFold_newRun _ _ _ _ _ _ _

end Store

/-- The operations whose events say what they do. -/
def StoreOp.Coherent : StoreOp → Prop
  | appendEvent _ params => params.Coherent
  | resolveApprovalAndAppendEvent _ _ _ _ _ payload =>
    AppendRunEvent.Coherent { runId := [], type := .approvalResolved, payload }
  | recordUsage .. => False
  | _ => True

/-- **A coherent operation keeps every run the fold of its log.** -/
theorem StoreOp.logged {P : Platform} {op : StoreOp} {S : Store} (h : S.Logged)
    (hc : op.Coherent) : (op.apply P S).Logged := by
  rcases op.cases P S with heq | hchange
  · rw [heq]
    exact h
  · generalize op.apply P S = S' at hchange
    cases hchange with
    | created hcreated => exact h.created hcreated
    | appended happend => exact h.recorded happend hc
    | message => exact h.congr rfl rfl
    | usage => exact absurd hc id
    | acquired hacquired =>
      rw [hacquired.store]
      exact h.congr rfl rfl
    | renewed => exact h.congr rfl rfl
    | released => exact h.congr rfl rfl
    | approvalCreated => exact h.congr rfl rfl
    | approvalResolved => exact h.congr rfl rfl
    | approvalRecorded _ _ happend =>
      exact (h.congr (T := Store.setApproval _ _ _ S) rfl rfl).recorded happend
        ⟨hc.status, hc.usage⟩
    | attemptCreated => exact h.congr rfl rfl
    | attemptCompleted => exact h.congr rfl rfl
    | attemptsCompleted => exact h.congr rfl rfl
    | configured => exact h.congr rfl rfl

end LiteHarness
