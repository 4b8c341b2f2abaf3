import LiteHarness.Storage.Idempotency

/-!
# Runs under a key, seen by a caller

A caller that starts runs under keys of its own counts on three things: the store never forgets a
run, a call that creates one found its key free, and a call that returns an earlier run found it
under that key.
-/

namespace LiteHarness.Store

open Foundation Foundation.Eff

variable {P : Platform} {S S' : Store}

/-- What the query of a request goes by. -/
def requestScope (request : InternalStartRunRequest) : JsString × JsString × JsString :=
  (request.principal.appId, request.principal.tenantId,
    scopedIdempotencyKey request.principal.userId request.idempotencyKey)

/-- A run has the scope. -/
def Taken (S : Store) (k : JsString × JsString × JsString) : Prop := k ∈ S.registrations.map scope

/-- What a successful call did. -/
inductive Started (S S' : Store) (request : InternalStartRunRequest) (record : RunRecord) :
    Bool → Prop
  | found (run : RunRow.Registration) (hrun : run ∈ S.registrations)
      (hscope : scope run = requestScope request) (hid : record.id = run.id) (heq : S' = S) :
      Started S S' request record false
  | created (run : RunRow.Registration) (hfree : ¬S.Taken (requestScope request))
      (hscope : scope run = requestScope request) (hid : record.id = run.id)
      (happend : S'.registrations = S.registrations ++ [run]) : Started S S' request record true

theorem createOrGetRun_started {now : ℤ} {fresh : FreshInternalIds} {id : JsString}
    {request : InternalStartRunRequest} {record : RunRecord} {created : Bool}
    (hcall : (createOrGetRun P now fresh id request).run S = (.ok (record, created), S')) :
    Started S S' request record created := by
  have hcases := createOrGetRun_cases P now fresh id request S
  split at hcases
  · rename_i existing hexisting
    obtain ⟨hmem, hscope⟩ := existingRun_some hexisting
    split_ifs at hcases with hfingerprint
    · obtain ⟨hresult, rfl⟩ := Prod.mk.inj (hcall.symm.trans hcases)
      obtain ⟨rfl, rfl⟩ := Prod.mk.inj (Except.ok.inj hresult)
      exact .found _ (mem_registrations hmem) hscope rfl rfl
    · exact absurd (hcall.symm.trans hcases) (by simp)
  · rename_i hnone
    rw [hcases, transaction_eq_ok_iff] at hcall
    obtain ⟨row, _, hrow, hpure⟩ := bind_eq_ok_iff.mp hcall
    obtain ⟨hresult, rfl⟩ := pure_eq_ok_iff.mp hpure
    obtain ⟨rfl, rfl⟩ := Prod.mk.inj hresult
    obtain ⟨_, _, _, rfl, hadmitted⟩ := createRun_admitted hrow
    refine .created _ (fun htaken ↦ ?_) rfl rfl hadmitted.registrations
    obtain ⟨other, hother, heq⟩ := List.mem_map.mp htaken
    exact existingRun_none hnone other hother heq

theorem Started.taken {request : InternalStartRunRequest} {record : RunRecord} {created : Bool}
    (h : Started S S' request record created) : S'.Taken (requestScope request) := by
  rcases h with ⟨run, hrun, hscope, -, heq⟩ | ⟨run, -, hscope, -, happend⟩
  · exact heq ▸ hscope ▸ List.mem_map_of_mem hrun
  · rw [Taken, happend, ← hscope]
    exact List.mem_map_of_mem (List.mem_append_right _ (List.mem_singleton.mpr rfl))

theorem Started.keeps {request : InternalStartRunRequest} {record : RunRecord} {created : Bool}
    (h : Started S S' request record created) {k : JsString × JsString × JsString}
    (hk : S.Taken k) : S'.Taken k := by
  rcases h with ⟨run, -, -, -, heq⟩ | ⟨run, -, -, -, happend⟩
  · exact heq ▸ hk
  · rw [Taken, happend, List.map_append]
    exact List.mem_append_left _ hk

/-- **The store forgets no run.** -/
theorem taken_apply (op : StoreOp) {k : JsString × JsString × JsString} (hk : S.Taken k) :
    (op.apply P S).Taken k := by
  by_cases hop : ∀ now fresh id request, op ≠ .createOrGetRun now fresh id request
  · rw [Taken, registrations_apply S hop]
    exact hk
  · simp only [not_forall, not_not] at hop
    obtain ⟨now, fresh, id, request, rfl⟩ := hop
    rcases hrun : (StoreOp.call P (.createOrGetRun now fresh id request)).run S with ⟨e | u, S'⟩
    · rw [StoreOp.apply, hrun, StoreOp.call_atomic P _ _ e S' hrun]
      exact hk
    · obtain ⟨⟨record, created⟩, hcall⟩ := discard_eq_ok hrun
      rw [StoreOp.apply, hrun]
      exact (createOrGetRun_started hcall).keeps hk

end LiteHarness.Store
