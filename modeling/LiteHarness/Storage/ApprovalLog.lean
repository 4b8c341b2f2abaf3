import LiteHarness.Storage.Issued

/-!
# Approvals and their log

An approval is filed as pending, with the digest of its own binding, and leaves that status once:
the call that resolves it appends the one event that says how. `Filed` is the invariant and
`ApprovalStep` the case analysis of what an issued call does to one record.
-/

namespace LiteHarness

open Foundation

/-- The resolution of the given approval an event announces, with the run it was appended to. -/
def EventRow.resolution (id : JsString) (e : EventRow) : Option (JsString × ApprovalStatus) :=
  match e.type, e.payload with
  | .approvalResolved, .approvalResolved id' status _ =>
    if id' = id then some (e.runId, status) else none
  | _, _ => none

namespace Store

/-- The resolutions of an approval that were announced, oldest first. -/
def resolutions (S : Store) (id : JsString) : List (JsString × ApprovalStatus) :=
  S.events.filterMap (EventRow.resolution id)

theorem resolution_eq_none {id : JsString} {e : EventRow} (h : e.type ≠ .approvalResolved) :
    e.resolution id = none := by
  unfold EventRow.resolution
  split
  · rename_i htype _
    exact absurd htype h
  · rfl

theorem resolutions_append (S : Store) (e : EventRow) (id : JsString) :
    resolutions { S with events := S.events ++ [e] } id =
      S.resolutions id ++ (e.resolution id).toList := by
  rw [resolutions, List.filterMap_append, resolutions]
  cases h : e.resolution id <;> simp [h]

theorem approval?_congr {S S' : Store} (h : S'.approvals = S.approvals) (id : JsString) :
    S'.approval? id = S.approval? id := by
  rw [approval?, h, approval?]

theorem approval?_mem {S : Store} {id : JsString} {a : ApprovalRow} (h : S.approval? id = some a) :
    a ∈ S.approvals ∧ a.id = id := ⟨Table.mem_of_lookup h, Table.key_of_lookup h⟩

theorem approval?_of_mem {S : Store} (h : (S.approvals.map ApprovalRow.id).Nodup)
    {a : ApprovalRow} (ha : a ∈ S.approvals) : S.approval? a.id = some a := by
  cases hfound : S.approval? a.id with
  | none => exact absurd rfl (Table.lookup_eq_none_iff.mp hfound a ha)
  | some a' =>
    obtain ⟨hmem, hid⟩ := approval?_mem hfound
    rw [List.inj_on_of_nodup_map h hmem ha hid]

/-! ## One record -/

/-- What an issued call does to an approval: nothing, its creation, or its resolution. -/
inductive ApprovalStep (P : Platform) (L : Licence) (S S' : Store) (id : JsString) : Prop
  | same (h : S'.approval? id = S.approval? id) (hlog : S'.resolutions id = S.resolutions id)
  | created {record : ApprovalRow} (hnone : S.approval? id = none)
      (h : S'.approval? id = some record) (hstatus : record.status = .pending)
      (hdigest : P.approvalExecutionDigest (record.binding P) = .ok record.executionDigest)
      (hfiles : L.files record.runId) (hlog : S'.resolutions id = S.resolutions id)
  | resolved {a : ApprovalRow} {status : ApprovalResolution} {resolvedAt : ℤ}
      (ha : S.approval? id = some a) (hpending : a.status = .pending)
      (hexpiry : status.1 = .approved → resolvedAt < a.expiresAt)
      (hactive : ∃ run ∈ S.run? a.runId, run.status.isTerminalRunStatus = false)
      (h : S'.approval? id = some (a.resolve status resolvedAt))
      (hresolves : L.resolves) (happroves : status.1 = .approved → L.approves)
      (hlog : S'.resolutions id = S.resolutions id ++ [(a.runId, status.1)])

theorem ApprovalStep.of_issued {P : Platform} {L : Licence} {S : Store} {op : StoreOp}
    (h : op.Issued P L S) (id : JsString) : ApprovalStep P L S (op.apply P S) id := by
  rcases op.cases P S with heq | hchange
  · rw [heq]
    exact .same rfl rfl
  · generalize op.apply P S = S' at hchange
    have hquiet : ∀ {S₀ : Store} (createdAt params row), params.type ≠ .approvalResolved →
        (S₀.recorded createdAt params row).resolutions id = S₀.resolutions id := by
      intro S₀ createdAt params row htype
      refine (resolutions_append S₀ (eventOf createdAt params row) id).trans ?_
      rw [resolution_eq_none htype, Option.toList_none, List.append_nil]
    cases hchange with
    | created hcreated =>
      refine .same (approval?_congr hcreated.approvals id) ?_
      rw [resolutions, hcreated.events]
      refine (resolutions_append S _ id).trans ?_
      rw [resolution_eq_none (by simp [acceptedEvent]), Option.toList_none, List.append_nil]
    | appended => exact .same rfl (hquiet _ _ _ h.type)
    | usage => exact absurd h fun h ↦ h
    | acquired hacquired =>
      rw [hacquired.store]
      exact .same rfl rfl
    | @approvalCreated record hfresh hrun =>
      obtain ⟨hfiles, hstatus, hdigest⟩ := h
      have hlookup : ∀ k, Table.lookup ApprovalRow.id k (S.approvals ++ [record]) =
          (S.approval? k).or (if record.id = k then some record else none) := by
        intro k
        rw [Table.lookup_append, Table.lookup_singleton]
        rfl
      by_cases hid : record.id = id
      · subst hid
        have hnone : S.approval? record.id = none := Table.lookup_eq_none_iff.mpr hfresh
        refine .created hnone ?_ hstatus hdigest hfiles rfl
        exact (hlookup _).trans (by rw [hnone, if_pos rfl, Option.none_or])
      · refine .same ((hlookup _).trans ?_) rfl
        rw [if_neg hid, Option.or_none]
    | approvalResolved => exact absurd h fun h ↦ h
    | @approvalRecorded resolvedAt createdAt id' a run digest payload status ha hres happend =>
      obtain ⟨hresolves, happroves, rfl⟩ := h
      obtain ⟨hpending, -, hexpiry, hactive⟩ := hres
      have hlookup := approval?_setApproval id' status resolvedAt S id
      have hlog := resolutions_append (setApproval id' status resolvedAt S)
        (eventOf createdAt { runId := a.runId, type := .approvalResolved
                             payload := .approvalResolved id' status digest } run) id
      by_cases hid : id' = id
      · subst hid
        rw [ha, Option.map_some, if_pos (approval?_mem ha).2] at hlookup
        refine .resolved ha hpending hexpiry hactive hlookup hresolves happroves (hlog.trans ?_)
        simp only [EventRow.resolution, eventOf, if_true, Option.toList_some]
        rfl
      · refine .same (hlookup.trans ?_) (hlog.trans ?_)
        · cases hfound : S.approval? id with
          | none => rfl
          | some a' =>
            rw [Option.map_some, if_neg]
            rintro heq
            exact hid (heq.symm.trans (approval?_mem hfound).2)
        · simp only [EventRow.resolution, eventOf, if_neg hid, Option.toList_none, List.append_nil]
          rfl
    | _ => exact .same rfl rfl

theorem approvalIds_issued {P : Platform} {L : Licence} {S : Store} {op : StoreOp}
    (h : op.Issued P L S) (hids : (S.approvals.map ApprovalRow.id).Nodup) :
    ((op.apply P S).approvals.map ApprovalRow.id).Nodup := by
  rcases op.cases P S with heq | hchange
  · rwa [heq]
  · generalize op.apply P S = S' at hchange
    have hset : ∀ id status t, ((setApproval id status t S).approvals.map ApprovalRow.id).Nodup := by
      intro id status t
      have hsame : (setApproval id status t S).approvals.map ApprovalRow.id =
          S.approvals.map ApprovalRow.id :=
        Table.map_update (f := ApprovalRow.resolve status t) (fun _ ↦ rfl) S.approvals
      rwa [hsame]
    cases hchange with
    | created hcreated => rwa [hcreated.approvals]
    | acquired hacquired =>
      rw [hacquired.store]
      exact hids
    | @approvalCreated record hfresh hrun =>
      rw [List.map_append, List.nodup_append]
      refine ⟨hids, List.nodup_singleton _, ?_⟩
      rintro k hk _ hk' rfl
      obtain ⟨a, ha, rfl⟩ := List.mem_map.mp hk
      exact hfresh a ha (List.mem_singleton.mp hk')
    | approvalResolved => exact hset _ _ _
    | approvalRecorded => exact hset _ _ _
    | _ => exact hids

/-! ## The invariant -/

/-- The record of an approval agrees with its log. -/
structure FiledRecord (P : Platform) (S : Store) (a : ApprovalRow) : Prop where
  digest : P.approvalExecutionDigest (a.binding P) = .ok a.executionDigest
  expiry : a.status = .approved → ∃ t ∈ a.resolvedAt, t < a.expiresAt
  log : S.resolutions a.id = if a.status = .pending then [] else [(a.runId, a.status)]

/-- Every approval has one record, and the log of its resolutions agrees with it. -/
structure Filed (P : Platform) (S : Store) : Prop where
  ids : (S.approvals.map ApprovalRow.id).Nodup
  records : ∀ id a, S.approval? id = some a → FiledRecord P S a
  unfiled : ∀ id, S.approval? id = none → S.resolutions id = []

theorem Filed.empty (P : Platform) : Filed P {} where
  ids := List.nodup_nil
  records _ _ h := absurd h (by simp [approval?, Table.lookup])
  unfiled _ _ := rfl

theorem Filed.issued {P : Platform} {L : Licence} {S : Store} (hS : S.Filed P) {op : StoreOp}
    (h : op.Issued P L S) : (op.apply P S).Filed P := by
  refine ⟨approvalIds_issued h hS.ids, fun id a ha ↦ ?_, fun id hnone ↦ ?_⟩
  · cases ApprovalStep.of_issued h id with
    | same hsame hlog =>
      obtain ⟨hdigest, hexpiry, hrecord⟩ := hS.records id a (hsame.symm.trans ha)
      obtain rfl := (approval?_mem ha).2
      exact ⟨hdigest, hexpiry, hlog.trans hrecord⟩
    | created hnone hrecord hstatus hdigest hfiles hlog =>
      obtain rfl := Option.some.inj (hrecord.symm.trans ha)
      obtain rfl := (approval?_mem ha).2
      refine ⟨hdigest, fun happroved ↦ absurd (hstatus.symm.trans happroved) (by decide), ?_⟩
      rw [hlog, hS.unfiled _ hnone, if_pos hstatus]
    | @resolved a₀ status resolvedAt ha₀ hpending hexpiry hactive hrecord hresolves happroves hlog =>
      obtain rfl := Option.some.inj (hrecord.symm.trans ha)
      obtain ⟨hdigest, -, hlog₀⟩ := hS.records id a₀ ha₀
      obtain rfl := (approval?_mem ha₀).2
      refine ⟨hdigest, fun happroved ↦ ⟨resolvedAt, rfl, hexpiry happroved⟩, ?_⟩
      change (op.apply P S).resolutions a₀.id = if status.1 = .pending then [] else _
      rw [hlog, hlog₀, if_pos hpending, if_neg status.2, List.nil_append]
      rfl
  · cases ApprovalStep.of_issued h id with
    | same hsame hlog => exact hlog.trans (hS.unfiled id (hsame.symm.trans hnone))
    | created _ hrecord => exact absurd (hrecord.symm.trans hnone) (by simp)
    | resolved _ _ _ _ hrecord => exact absurd (hrecord.symm.trans hnone) (by simp)

theorem Evolves.filed {P : Platform} {L : Licence} {S S' : Store} (h : Evolves P L S S')
    (hS : S.Filed P) : S'.Filed P := by
  induction h with
  | refl => exact hS
  | tail _ hstep ih =>
    obtain ⟨op, hissued, rfl⟩ := hstep
    exact ih.issued hissued

end Store

end LiteHarness
