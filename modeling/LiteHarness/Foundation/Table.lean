import Mathlib.Data.List.Basic
import Mathlib.Data.List.Count
import Mathlib.Data.List.Nodup
import Mathlib.Tactic.SplitIfs

/-!
# Tables

A table is the list of its rows in insertion order. `lookup` is a query by key, `update` is
`UPDATE … SET … WHERE …` and `upsert` is `INSERT … ON CONFLICT DO UPDATE`. The lemmas say what a
query sees after a change.
-/

namespace LiteHarness.Foundation.Table

variable {ρ κ : Type*} [DecidableEq κ]

/-- The first row with the given key. -/
def lookup (key : ρ → κ) (k : κ) (rows : List ρ) : Option ρ := rows.find? fun r ↦ key r = k

/-- Apply `f` to the rows satisfying the condition. -/
def update (p : ρ → Bool) (f : ρ → ρ) (rows : List ρ) : List ρ :=
  rows.map fun r ↦ if p r then f r else r

/-- Insert a row, or apply `f` to the row that has its key. -/
def upsert (key : ρ → κ) (row : ρ) (f : ρ → ρ) (rows : List ρ) : List ρ :=
  if (lookup key (key row) rows).isSome then update (fun r ↦ key r = key row) f rows
  else rows ++ [row]

theorem key_of_lookup {key : ρ → κ} {k : κ} {rows : List ρ} {r : ρ}
    (h : lookup key k rows = some r) : key r = k := by
  simpa using List.find?_some h

theorem mem_of_lookup {key : ρ → κ} {k : κ} {rows : List ρ} {r : ρ}
    (h : lookup key k rows = some r) : r ∈ rows := List.mem_of_find?_eq_some h

theorem lookup_eq_none_iff {key : ρ → κ} {k : κ} {rows : List ρ} :
    lookup key k rows = none ↔ ∀ r ∈ rows, key r ≠ k := by
  simp [lookup]

/-- Where keys are unique, a query for the key of a row finds it. -/
theorem lookup_of_mem {key : ρ → κ} {rows : List ρ} (h : (rows.map key).Nodup) {r : ρ}
    (hr : r ∈ rows) : lookup key (key r) rows = some r := by
  cases hfound : lookup key (key r) rows with
  | none => exact absurd rfl (lookup_eq_none_iff.mp hfound r hr)
  | some r' => rw [List.inj_on_of_nodup_map h (mem_of_lookup hfound) hr (key_of_lookup hfound)]

/-- Where keys are unique, the rows of a key are the one a query finds. -/
theorem filter_eq_lookup {key : ρ → κ} {rows : List ρ} (h : (rows.map key).Nodup) (k : κ) :
    rows.filter (fun r ↦ key r = k) = (lookup key k rows).toList := by
  induction rows with
  | nil => rfl
  | cons r rows ih =>
    rw [List.map_cons, List.nodup_cons] at h
    rw [lookup, List.find?_cons, List.filter_cons]
    by_cases hk : key r = k
    · have hrest : rows.filter (fun r ↦ key r = k) = [] := by
        refine List.filter_eq_nil_iff.mpr fun r' hr' heq ↦ h.1 ?_
        rw [hk, ← of_decide_eq_true heq]
        exact List.mem_map_of_mem hr'
      simp [hk, hrest]
    · simp only [hk, decide_false, Bool.false_eq_true, if_false]
      exact ih h.2

theorem lookup_append (key : ρ → κ) (k : κ) (rows rows' : List ρ) :
    lookup key k (rows ++ rows') = (lookup key k rows).or (lookup key k rows') :=
  List.find?_append

theorem lookup_singleton (key : ρ → κ) (k : κ) (r : ρ) :
    lookup key k [r] = if key r = k then some r else none := by
  simp [lookup, List.find?_cons]
  split_ifs <;> simp_all

/-- A query after an update that keeps keys sees the updated row. -/
theorem lookup_update {key : ρ → κ} {p : ρ → Bool} {f : ρ → ρ} (hkey : ∀ r, key (f r) = key r)
    (k : κ) (rows : List ρ) :
    lookup key k (update p f rows) = (lookup key k rows).map fun r ↦ if p r then f r else r := by
  have hite : ∀ r, key (if p r then f r else r) = key r := by
    intro r
    split_ifs
    · exact hkey r
    · rfl
  induction rows with
  | nil => rfl
  | cons r rows ih =>
    simp only [lookup, update, List.map_cons, List.find?_cons, hite] at ih ⊢
    split
    · rfl
    · exact ih

@[simp] theorem update_length (p : ρ → Bool) (f : ρ → ρ) (rows : List ρ) :
    (update p f rows).length = rows.length := List.length_map _

theorem mem_update {p : ρ → Bool} {f : ρ → ρ} {rows : List ρ} {r : ρ} :
    r ∈ update p f rows ↔ ∃ r₀ ∈ rows, (if p r₀ then f r₀ else r₀) = r := List.mem_map

/-- A column that the update leaves alone is the same list as before. -/
theorem map_update {γ : Type*} {p : ρ → Bool} {f : ρ → ρ} {g : ρ → γ} (hg : ∀ r, g (f r) = g r)
    (rows : List ρ) : (update p f rows).map g = rows.map g := by
  rw [update, List.map_map]
  refine List.map_congr_left fun r _ ↦ ?_
  rw [Function.comp_apply]
  split_ifs
  · exact hg r
  · rfl

/-- A column of the rows picked by a condition the update keeps is the same list as before. -/
theorem map_filter_update {γ : Type*} {p q : ρ → Bool} {f : ρ → ρ} {g : ρ → γ}
    (hq : ∀ r, q (f r) = q r) (hg : ∀ r, g (f r) = g r) (rows : List ρ) :
    ((update p f rows).filter q).map g = (rows.filter q).map g := by
  have hite : ∀ r, q (if p r then f r else r) = q r ∧ g (if p r then f r else r) = g r := by
    intro r
    split_ifs
    · exact ⟨hq r, hg r⟩
    · exact ⟨rfl, rfl⟩
  induction rows with
  | nil => rfl
  | cons r rows ih =>
    simp only [update, List.map_cons, List.filter_cons, (hite r).1] at ih ⊢
    cases q r
    · exact ih
    · simp only [if_true, List.map_cons, (hite r).2, ih]

theorem lookup_isSome_iff {key : ρ → κ} {k : κ} {rows : List ρ} :
    (lookup key k rows).isSome ↔ k ∈ rows.map key := by
  simp [lookup]

/-- An update whose condition no row meets changes nothing. -/
theorem update_eq_self {p : ρ → Bool} {f : ρ → ρ} {rows : List ρ} (h : ∀ r ∈ rows, p r = false) :
    update p f rows = rows := by
  refine (List.map_congr_left fun r hr ↦ ?_).trans (List.map_id rows)
  rw [h r hr]
  rfl

/-- Where keys are unique, an update of one key is an update of its row. -/
theorem update_split {key : ρ → κ} {f : ρ → ρ} {r : ρ} {before rest : List ρ}
    (h : ((before ++ r :: rest).map key).Nodup) :
    update (fun r' ↦ key r' = key r) f (before ++ r :: rest) = before ++ f r :: rest := by
  rw [List.map_append, List.map_cons, List.nodup_middle, List.nodup_cons, List.mem_append] at h
  have hother : ∀ r' ∈ before ++ rest, (decide (key r' = key r)) = false := by
    refine fun r' hr' ↦ decide_eq_false fun heq ↦ h.1 ?_
    rw [← heq]
    exact (List.mem_append.mp hr').imp (List.mem_map_of_mem (f := key))
      (List.mem_map_of_mem (f := key))
  rw [update, List.map_append, List.map_cons, if_pos (decide_eq_true rfl)]
  exact congrArg₂ (· ++ f r :: ·)
    (update_eq_self fun r' hr' ↦ hother r' (List.mem_append_left _ hr'))
    (update_eq_self fun r' hr' ↦ hother r' (List.mem_append_right _ hr'))

/-- Where keys are unique, a row is removed by its key. -/
theorem filter_split {key : ρ → κ} {r : ρ} {before rest : List ρ}
    (h : ((before ++ r :: rest).map key).Nodup) :
    (before ++ r :: rest).filter (fun r' ↦ key r' ≠ key r) = before ++ rest := by
  rw [List.map_append, List.map_cons, List.nodup_middle, List.nodup_cons, List.mem_append] at h
  have hother : ∀ r' ∈ before ++ rest, (decide (key r' ≠ key r)) = true := by
    refine fun r' hr' ↦ decide_eq_true fun heq ↦ h.1 ?_
    rw [← heq]
    exact (List.mem_append.mp hr').imp (List.mem_map_of_mem (f := key))
      (List.mem_map_of_mem (f := key))
  rw [List.filter_append, List.filter_cons_of_neg (by simp), ← List.filter_append]
  exact List.filter_eq_self.mpr hother

/-- Where keys are unique, a query after a deletion finds what it found, if that was kept. -/
theorem lookup_filter {key : ρ → κ} {rows : List ρ} (h : (rows.map key).Nodup) {p : ρ → Bool}
    (k : κ) : lookup key k (rows.filter p) = (lookup key k rows).filter p := by
  have hnone : (∀ r, lookup key k rows = some r → p r = false) →
      lookup key k (rows.filter p) = none := by
    intro hdropped
    refine lookup_eq_none_iff.mpr fun r hr hkey ↦ ?_
    obtain ⟨hmem, hp⟩ := List.mem_filter.mp hr
    exact Bool.false_ne_true ((hdropped r (hkey ▸ lookup_of_mem h hmem)).symm.trans hp)
  cases hfound : lookup key k rows with
  | none => exact hnone fun r hr ↦ absurd (hfound.symm.trans hr) (by simp)
  | some r =>
    rw [Option.filter_some]
    split_ifs with hp
    · have hmem := List.mem_filter.mpr ⟨mem_of_lookup hfound, hp⟩
      rw [← key_of_lookup hfound]
      exact lookup_of_mem (h.sublist (List.filter_sublist.map key)) hmem
    · refine hnone fun r' hr' ↦ ?_
      obtain rfl := Option.some.inj (hfound.symm.trans hr')
      exact Bool.eq_false_iff.mpr hp

/-- A deletion of rows with other keys does not show in a query. -/
theorem lookup_filter_of_key {key : ρ → κ} {k : κ} {p : ρ → Bool} (h : ∀ r, key r = k → p r = true)
    (rows : List ρ) : lookup key k (rows.filter p) = lookup key k rows := by
  rw [lookup, List.find?_filter]
  refine congrArg (fun q ↦ rows.find? q) (funext fun r ↦ ?_)
  by_cases hr : key r = k
  · simp [hr, h r hr]
  · simp [hr]

omit [DecidableEq κ] in
/-- An update that keeps a condition may be made after picking the rows that meet it. -/
theorem filter_update {p q : ρ → Bool} {f : ρ → ρ} (hq : ∀ r, q (f r) = q r) (rows : List ρ) :
    (update p f rows).filter q = update p f (rows.filter q) := by
  induction rows with
  | nil => rfl
  | cons r rows ih =>
    have hite : q (if p r then f r else r) = q r := by
      split_ifs
      · exact hq r
      · rfl
    rw [update, update] at ih ⊢
    rw [List.map_cons, List.filter_cons, List.filter_cons, hite, ih]
    by_cases hr : q r = true
    · rw [if_pos hr, if_pos hr, List.map_cons]
    · rw [if_neg hr, if_neg hr]

omit [DecidableEq κ] in
/-- An update of other rows does not show in a selection. -/
theorem filter_update_of_disjoint {p q : ρ → Bool} {f : ρ → ρ} (hq : ∀ r, q (f r) = q r)
    {rows : List ρ} (h : ∀ r ∈ rows, p r = true → q r = false) :
    (update p f rows).filter q = rows.filter q := by
  rw [filter_update hq]
  refine update_eq_self fun r hr ↦ Bool.eq_false_iff.mpr fun hp ↦ ?_
  obtain ⟨hmem, hpicked⟩ := List.mem_filter.mp hr
  exact Bool.false_ne_true ((h r hmem hp).symm.trans hpicked)

theorem nodup_upsert {key : ρ → κ} {row : ρ} {f : ρ → ρ} (hkey : ∀ r, key (f r) = key r)
    {rows : List ρ} (h : (rows.map key).Nodup) : ((upsert key row f rows).map key).Nodup := by
  rw [upsert]
  split_ifs with hsome
  · rw [map_update hkey]
    exact h
  · rw [List.map_append, List.nodup_append]
    refine ⟨h, List.nodup_singleton _, fun k hk k' hk' heq ↦ ?_⟩
    rw [List.mem_singleton.mp hk'] at heq
    exact hsome (lookup_isSome_iff.mpr (heq ▸ hk))

/-- A query after an insert-or-update. -/
theorem lookup_upsert {key : ρ → κ} {row : ρ} {f : ρ → ρ} (hkey : ∀ r, key (f r) = key r) (k : κ)
    (rows : List ρ) :
    lookup key k (upsert key row f rows)
      = if key row = k then some (((lookup key k rows).map f).getD row) else lookup key k rows := by
  rw [upsert]
  split_ifs with hsome hk hk
  · subst hk
    rw [lookup_update hkey]
    obtain ⟨r, hr⟩ := Option.isSome_iff_exists.mp hsome
    rw [hr]
    simp [key_of_lookup hr]
  · rw [lookup_update hkey]
    cases hr : lookup key k rows with
    | none => rfl
    | some r =>
      have hne : key r ≠ key row := fun h ↦ hk (h ▸ key_of_lookup hr)
      simp [hne]
  · subst hk
    rw [lookup_append, Option.not_isSome_iff_eq_none.mp hsome, lookup_singleton, if_pos rfl]
    rfl
  · rw [lookup_append, lookup_singleton, if_neg hk, Option.or_none]

omit [DecidableEq κ] in
/-- Where keys are unique, at most one row has a given key. -/
theorem length_le_one (key : ρ → κ) {k : κ} {rows : List ρ} (h : (rows.map key).Nodup)
    (hkey : ∀ r ∈ rows, key r = k) : rows.length ≤ 1 := by
  match rows with
  | [] => exact Nat.zero_le 1
  | [_] => exact Nat.le_refl 1
  | r :: r' :: rows =>
    have heq : key r = key r' :=
      (hkey r List.mem_cons_self).trans (hkey r' (List.mem_cons_of_mem _ List.mem_cons_self)).symm
    exact absurd (List.mem_cons_self) (heq ▸ (List.nodup_cons.mp h).1)

/-! ## Finding or inserting a row

A second key, the identifier of a row, tells apart rows whose first key may come back later. -/

section Ensured

variable {ι : Type*} {key : ρ → κ} {ident : ρ → ι} {k : κ} {row r : ρ} {rows rows' : List ρ}

/-- The row of a key was there, or was inserted with an identifier no other row has. -/
inductive Ensured (key : ρ → κ) (ident : ρ → ι) (k : κ) (row : ρ) (rows : List ρ) :
    List ρ → Prop
  | found (h : lookup key k rows = some row) : Ensured key ident k row rows rows
  | inserted (h : lookup key k rows = none) (hkey : key row = k)
      (hfresh : ∀ r ∈ rows, ident r ≠ ident row) : Ensured key ident k row rows (rows ++ [row])

theorem Ensured.key_eq (h : Ensured key ident k row rows rows') : key row = k := by
  cases h with
  | found h => exact key_of_lookup h
  | inserted _ hkey => exact hkey

theorem Ensured.mem (h : Ensured key ident k row rows rows') : row ∈ rows' := by
  cases h with
  | found h => exact mem_of_lookup h
  | inserted => exact List.mem_append_right _ (List.mem_singleton.mpr rfl)

theorem Ensured.keeps (h : Ensured key ident k row rows rows') (hr : r ∈ rows) : r ∈ rows' := by
  cases h with
  | found => exact hr
  | inserted => exact List.mem_append_left _ hr

theorem Ensured.mem_cases (h : Ensured key ident k row rows rows') (hr : r ∈ rows') :
    r ∈ rows ∨ r = row := by
  cases h with
  | found => exact Or.inl hr
  | inserted => exact (List.mem_append.mp hr).imp_right List.mem_singleton.mp

/-- A row with an identifier of its own keeps identifiers apart. -/
theorem nodup_append_fresh (hrows : (rows.map ident).Nodup)
    (hfresh : ∀ r ∈ rows, ident r ≠ ident row) : ((rows ++ [row]).map ident).Nodup := by
  rw [List.map_append, List.nodup_append]
  refine ⟨hrows, List.nodup_singleton _, ?_⟩
  rintro i hi _ hi' rfl
  obtain ⟨r, hr, heq⟩ := List.mem_map.mp hi
  exact hfresh r hr (heq.trans (List.mem_singleton.mp hi'))

theorem Ensured.nodup_ident (h : Ensured key ident k row rows rows')
    (hrows : (rows.map ident).Nodup) : (rows'.map ident).Nodup := by
  cases h with
  | found => exact hrows
  | inserted _ _ hfresh => exact nodup_append_fresh hrows hfresh

theorem Ensured.nodup_key (h : Ensured key ident k row rows rows')
    (hrows : (rows.map key).Nodup) : (rows'.map key).Nodup := by
  cases h with
  | found => exact hrows
  | inserted hnone hkey =>
    refine nodup_append_fresh hrows fun r hr ↦ ?_
    rw [hkey]
    exact lookup_eq_none_iff.mp hnone r hr

/-- Only the rows of the key can grow. -/
theorem Ensured.filter_eq (h : Ensured key ident k row rows rows') {p : ρ → Bool}
    (hp : p row = false) : rows'.filter p = rows.filter p := by
  cases h with
  | found => rfl
  | inserted => rw [List.filter_append, List.filter_cons_of_neg (by simp [hp]), List.filter_nil,
      List.append_nil]

end Ensured

end LiteHarness.Foundation.Table
