import LiteHarness.Foundation.Table
import Mathlib.Data.List.Sort

/-!
# Maps in the order of insertion

A map of keys to values that lists its entries in the order in which the keys were first set. A loop
whose steps each concern one key leaves at a key what the steps of that key make of it, wherever the
steps of the others stand. Sorted by their keys, the entries are determined by what the map gets.
-/

namespace LiteHarness.Foundation

/-- A map that keeps its entries in the order of insertion. -/
structure OrderedMap (κ ν : Type*) where
  entries : List (κ × ν)
  /-- A key has one entry. -/
  nodup : (entries.map Prod.fst).Nodup

namespace OrderedMap

variable {κ ν π ρ : Type*}

/-- The map without entries. -/
def empty : OrderedMap κ ν := ⟨[], List.nodup_nil⟩

/-- The number of keys. -/
def size (m : OrderedMap κ ν) : ℕ := m.entries.length

variable [DecidableEq κ]

/-- The value of a key. -/
def get? (m : OrderedMap κ ν) (k : κ) : Option ν :=
  (Table.lookup Prod.fst k m.entries).map Prod.snd

/-- Set the value of a key, which keeps its place or goes last. -/
def set (m : OrderedMap κ ν) (k : κ) (v : ν) : OrderedMap κ ν where
  entries := Table.upsert Prod.fst (k, v) (fun entry ↦ (entry.1, v)) m.entries
  nodup := Table.nodup_upsert (f := fun entry ↦ (entry.1, v)) (fun _ ↦ rfl) m.nodup

@[simp] theorem get?_empty (k : κ) : (empty : OrderedMap κ ν).get? k = none := rfl

theorem get?_set (m : OrderedMap κ ν) (k k' : κ) (v : ν) :
    (m.set k v).get? k' = if k = k' then some v else m.get? k' := by
  rw [get?, set, Table.lookup_upsert (f := fun entry ↦ (entry.1, v)) fun _ ↦ rfl]
  split_ifs
  · rcases Table.lookup Prod.fst k' m.entries with _ | entry <;> rfl
  · rfl

@[simp] theorem get?_set_self (m : OrderedMap κ ν) (k : κ) (v : ν) :
    (m.set k v).get? k = some v := by
  rw [get?_set, if_pos rfl]

theorem get?_set_of_ne (m : OrderedMap κ ν) {k k' : κ} (v : ν) (h : k' ≠ k) :
    (m.set k v).get? k' = m.get? k' := by
  rw [get?_set, if_neg h.symm]

theorem get?_eq_some_iff {m : OrderedMap κ ν} {k : κ} {v : ν} :
    m.get? k = some v ↔ (k, v) ∈ m.entries := by
  rw [get?, Option.map_eq_some_iff]
  constructor
  · rintro ⟨⟨k', v'⟩, hfound, rfl⟩
    obtain rfl : k' = k := Table.key_of_lookup hfound
    exact Table.mem_of_lookup hfound
  · intro hmem
    exact ⟨(k, v), Table.lookup_of_mem m.nodup hmem, rfl⟩

/-- Every value, by a function of it. -/
def mapValues (m : OrderedMap κ ν) (f : ν → ν) : OrderedMap κ ν where
  entries := m.entries.map fun entry ↦ (entry.1, f entry.2)
  nodup := by
    rw [List.map_map]
    exact m.nodup

/-- Remove a key. -/
def erase (m : OrderedMap κ ν) (k : κ) : OrderedMap κ ν where
  entries := m.entries.filter fun entry ↦ entry.1 ≠ k
  nodup := m.nodup.sublist (List.filter_sublist.map Prod.fst)

/-- **What a loop leaves at a key**, by induction on the steps: only those of the key matter. -/
theorem get?_foldl {step : OrderedMap κ ν → π → OrderedMap κ ν} {steps : List π}
    (piece? : κ → π → Option ρ) (merge : Option ν → ρ → Option ν)
    (hstep : ∀ p ∈ steps, ∀ m k, (step m p).get? k =
      ((piece? k p).map (merge (m.get? k))).getD (m.get? k)) (m : OrderedMap κ ν) (k : κ) :
    (steps.foldl step m).get? k = (steps.filterMap (piece? k)).foldl merge (m.get? k) := by
  induction steps generalizing m with
  | nil => rfl
  | cons p steps ih =>
    obtain ⟨hp, hsteps⟩ := List.forall_mem_cons.mp hstep
    rw [List.foldl_cons, ih hsteps, List.filterMap_cons, hp]
    rcases piece? k p with _ | r <;> rfl

section Sorted

variable [LinearOrder κ]

omit [DecidableEq κ] in

/-- `[...entries].sort(([left], [right]) => left - right)`. -/
def byKey (m : OrderedMap κ ν) : List (κ × ν) :=
  m.entries.insertionSort fun a b ↦ a.1 ≤ b.1

omit [DecidableEq κ] in
theorem length_byKey (m : OrderedMap κ ν) : m.byKey.length = m.size :=
  List.length_insertionSort _ _

omit [DecidableEq κ] in
theorem mem_byKey {m : OrderedMap κ ν} {entry : κ × ν} : entry ∈ m.byKey ↔ entry ∈ m.entries :=
  List.mem_insertionSort _

omit [DecidableEq κ] in
/-- The keys go up. -/
theorem pairwise_byKey (m : OrderedMap κ ν) : m.byKey.Pairwise fun a b ↦ a.1 < b.1 := by
  have hle : m.byKey.Pairwise fun a b ↦ a.1 ≤ b.1 := by
    have : IsTrans (κ × ν) fun a b ↦ a.1 ≤ b.1 := ⟨fun _ _ _ ↦ le_trans⟩
    have : Std.Total fun a b : κ × ν ↦ a.1 ≤ b.1 := ⟨fun a b ↦ le_total a.1 b.1⟩
    exact List.pairwise_insertionSort _ _
  have hne : m.byKey.Pairwise fun a b ↦ a.1 ≠ b.1 := by
    have hperm := (List.perm_insertionSort (fun a b : κ × ν ↦ a.1 ≤ b.1) m.entries).map Prod.fst
    exact List.pairwise_map.mp (hperm.nodup_iff.mpr m.nodup)
  exact (List.pairwise_and_iff.mpr ⟨hle, hne⟩).imp fun h ↦ lt_of_le_of_ne h.1 h.2

/-- **The sorted entries** are the rows in the order of their keys that hold what the map gets. -/
theorem byKey_eq {m : OrderedMap κ ν} {rows : List (κ × ν)}
    (hrows : rows.Pairwise fun a b ↦ a.1 < b.1)
    (h : ∀ k v, m.get? k = some v ↔ (k, v) ∈ rows) : m.byKey = rows := by
  have hnodup : ∀ {l : List (κ × ν)}, l.Pairwise (fun a b ↦ a.1 < b.1) → l.Nodup :=
    fun hl ↦ hl.imp fun hlt heq ↦ absurd (heq ▸ hlt) (lt_irrefl _)
  have hperm : m.byKey.Perm rows :=
    (List.perm_ext_iff_of_nodup (hnodup m.pairwise_byKey) (hnodup hrows)).mpr fun ⟨k, v⟩ ↦ by
      rw [mem_byKey, ← get?_eq_some_iff, h]
  exact hperm.eq_of_pairwise (fun a b _ _ hab hba ↦ absurd hba hab.asymm) m.pairwise_byKey hrows

/-- Maps that get the same have the same sorted entries. -/
theorem byKey_congr {m m' : OrderedMap κ ν} (h : ∀ k, m.get? k = m'.get? k) :
    m.byKey = m'.byKey :=
  byKey_eq m'.pairwise_byKey fun k v ↦ by rw [h, get?_eq_some_iff, mem_byKey]

end Sorted

end OrderedMap

end LiteHarness.Foundation
