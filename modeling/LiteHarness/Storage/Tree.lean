import LiteHarness.Foundation.Forest
import LiteHarness.Storage.Issued

/-!
# The tree of runs

A run hangs below the run it names as its parent. The runs of a rooted store are a forest, whose
shape no call changes but for the runs that are created.
-/

namespace LiteHarness

open Foundation Foundation.Forest

namespace Store

/-- The parent of a run. -/
def parentOf (S : Store) (r : JsString) : Option JsString :=
  (S.run? r).bind fun row ↦ truthy row.parentRunId

/-- The depth a run was created with. -/
def depthOf (S : Store) (r : JsString) : ℤ := ((S.run? r).map RunRow.depth).getD 0

/-- The run exists and has not ended. -/
def IsOpen (S : Store) (r : JsString) : Prop :=
  ∃ row, S.run? r = some row ∧ row.status.isTerminalRunStatus = false

theorem parentOf_eq_some {S : Store} {c p : JsString} (h : S.parentOf c = some p) :
    ∃ row, S.run? c = some row ∧ truthy row.parentRunId = some p := Option.bind_eq_some_iff.mp h

/-- **The runs of a rooted store form a forest.** -/
theorem Rooted.levelled {S : Store} (h : S.Rooted) : Levelled S.parentOf S.depthOf := by
  intro c p hparent
  obtain ⟨row, hrow, hp⟩ := parentOf_eq_some hparent
  have hsound := (h c row hrow).2
  rw [hp] at hsound
  obtain ⟨parent, hfound, -, hdepth⟩ := hsound
  rw [depthOf, hrow, depthOf, hfound]
  exact hdepth

/-- The children a parent lists are those that hang below it. -/
theorem mem_listChildRuns {S : Store} (hlogged : S.Logged) {r c : JsString} (hr : r ≠ []) :
    c ∈ (S.listChildRuns r).map RunRecord.id ↔ S.parentOf c = some r := by
  rw [listChildRuns, List.map_map, List.mem_map]
  constructor
  · rintro ⟨row, hrow, rfl⟩
    obtain ⟨hmem, hparent⟩ := List.mem_filter.mp ((List.mem_insertionSort _).mp hrow)
    change S.parentOf row.id = some r
    rw [parentOf, run?_of_mem hlogged.ids hmem, Option.bind_some, of_decide_eq_true hparent,
      truthy_of_ne_nil hr]
  · intro h
    obtain ⟨row, hrow, hparent⟩ := parentOf_eq_some h
    refine ⟨row, (List.mem_insertionSort _).mpr (List.mem_filter.mpr ⟨(run?_mem hrow).1, ?_⟩),
      (run?_mem hrow).2⟩
    exact decide_eq_true (eq_some_of_truthy hparent)

/-! ## The shape of the tree -/

/-- The stores have the same runs, up to the columns that change. -/
def SameRuns (S S' : Store) : Prop :=
  S'.runs.map RunRow.identity = S.runs.map RunRow.identity

theorem lookup_identity (r : JsString) (runs : List RunRow) :
    (Table.lookup RunRow.id r runs).map RunRow.identity =
      Table.lookup RunIdentity.id r (runs.map RunRow.identity) := by
  rw [Table.lookup, Table.lookup, List.find?_map]
  rfl

theorem SameRuns.run? {S S' : Store} (h : SameRuns S S') (r : JsString) :
    (S'.run? r).map RunRow.identity = (S.run? r).map RunRow.identity := by
  rw [Store.run?, lookup_identity, h, ← lookup_identity, Store.run?]

theorem SameRuns.parentOf {S S' : Store} (h : SameRuns S S') : S'.parentOf = S.parentOf := by
  funext r
  have hparent : ∀ T : Store, T.parentOf r =
      ((T.run? r).map RunRow.identity).bind fun i ↦ truthy i.parentRunId := by
    intro T
    rw [Store.parentOf]
    cases T.run? r <;> rfl
  rw [hparent, h.run? r, hparent]

theorem SameRuns.depthOf {S S' : Store} (h : SameRuns S S') : S'.depthOf = S.depthOf := by
  funext r
  have hdepth : ∀ T : Store, T.depthOf r =
      (((T.run? r).map RunRow.identity).map RunIdentity.depth).getD 0 := by
    intro T
    rw [Store.depthOf, Option.map_map]
    rfl
  rw [hdepth, h.run? r, hdepth]

/-- Nothing but a creation changes the runs. -/
theorem LogStep.sameRuns {L : Licence} {S S' : Store} (h : LogStep L S S')
    (hL : ∀ request, ¬L.creates request) : SameRuns S S' := by
  cases h with
  | silent hruns => rw [SameRuns, hruns]
  | created _ hcreates => exact absurd hcreates (hL _)
  | @event createdAt params row happend _ _ _ hruns =>
    rw [SameRuns, hruns]
    exact Table.map_update (g := RunRow.identity) (f := appended createdAt params)
      (fun _ ↦ rfl) S.runs

theorem Evolves.sameRuns {P : Platform} {L : Licence} {S S' : Store} (h : Evolves P L S S')
    (hL : ∀ request, ¬L.creates request) : SameRuns S S' :=
  h.preserves_log (p := SameRuns S) (fun _ _ hstep hS ↦ (hstep.sameRuns hL).trans hS) rfl

/-! ## Levels -/

/-- The number of runs on deeper levels. -/
def deeperThan (S : Store) (depth : ℤ) : ℕ :=
  (S.runs.map RunRow.identity).countP fun i ↦ depth < i.depth

theorem SameRuns.deeperThan {S S' : Store} (h : SameRuns S S') : S'.deeperThan = S.deeperThan := by
  funext depth
  rw [Store.deeperThan, h, Store.deeperThan]

theorem deeperThan_le (S : Store) (depth : ℤ) : S.deeperThan depth ≤ S.runs.length :=
  List.countP_le_length.trans_eq (List.length_map _)

theorem countP_lt_countP {α : Type} {p q : α → Bool} {l : List α} (hpq : ∀ b, p b = true → q b = true)
    {a : α} (ha : a ∈ l) (hp : p a = false) (hq : q a = true) : l.countP p < l.countP q := by
  obtain ⟨l₁, l₂, rfl⟩ := List.append_of_mem ha
  have h₁ := List.countP_mono_left (l := l₁) fun b _ ↦ hpq b
  have h₂ := List.countP_mono_left (l := l₂) fun b _ ↦ hpq b
  simp only [List.countP_append, List.countP_cons, hp, hq]
  simp only [Bool.false_eq_true, if_false, if_true]
  omega

/-- Fewer runs lie below a child than below its parent. -/
theorem deeperThan_lt {S : Store} {row : RunRow} (hmem : row ∈ S.runs) {depth : ℤ}
    (hdepth : depth < row.depth) : S.deeperThan row.depth < S.deeperThan depth := by
  refine countP_lt_countP (fun i hi ↦ ?_) (List.mem_map_of_mem hmem) ?_ ?_
  · exact decide_eq_true (hdepth.trans (of_decide_eq_true hi))
  · exact decide_eq_false (lt_irrefl row.depth)
  · exact decide_eq_true hdepth

end Store

end LiteHarness
