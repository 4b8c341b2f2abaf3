import Mathlib.Data.List.Nodup
import Mathlib.Data.List.Sort

/-!
# Selection by key

Of candidates with keys, the first one in an order of preference is chosen for each key, and what is
chosen is sorted by key. Both sorts are stable, so what they leave as it was depends on the order in
which the candidates are given. Preference and keys together decide it where no two candidates with
the same key are preferred to each other (`select_eq_of_perm`).
-/

namespace LiteHarness.Foundation

variable {α κ : Type*}

/-! ## Pairs in a list -/

/-- Two members of a list stand in it one way or the other. -/
theorem pair_sublist_or {a b : α} {l : List α} (ha : a ∈ l) (hb : b ∈ l) (hne : a ≠ b) :
    [a, b].Sublist l ∨ [b, a].Sublist l := by
  induction l with
  | nil => exact absurd ha List.not_mem_nil
  | cons c l ih =>
    rcases List.mem_cons.mp ha with rfl | ha'
    · have hb' := (List.mem_cons.mp hb).resolve_left (Ne.symm hne)
      exact Or.inl (List.Sublist.cons_cons a (List.singleton_sublist.mpr hb'))
    · rcases List.mem_cons.mp hb with rfl | hb'
      · exact Or.inr (List.Sublist.cons_cons b (List.singleton_sublist.mpr ha'))
      · exact (ih ha' hb').imp (List.Sublist.cons c) (List.Sublist.cons c)

/-- They do not stand in it both ways. -/
theorem not_pair_sublist_both {a b : α} {l : List α} (hl : l.Nodup) (h : [a, b].Sublist l) :
    ¬[b, a].Sublist l := by
  induction l with
  | nil => exact absurd h (by simp)
  | cons c l ih =>
    intro h'
    obtain ⟨hc, hl⟩ := List.nodup_cons.mp hl
    rcases List.sublist_cons_iff.mp h with h | ⟨_, heq, h⟩
    · rcases List.sublist_cons_iff.mp h' with h' | ⟨_, heq', h'⟩
      · exact ih hl h h'
      · exact hc ((List.cons.inj heq').1 ▸ h.subset (by simp))
    · rcases List.sublist_cons_iff.mp h' with h' | ⟨_, heq', h'⟩
      · exact hc ((List.cons.inj heq).1 ▸ h'.subset (by simp))
      · obtain ⟨rfl, rfl⟩ := List.cons.inj heq
        exact hc ((List.cons.inj heq').1 ▸ h.subset (by simp))

/-! ## The first one for each key -/

section

variable [DecidableEq κ] (key : α → κ)

/-- The first element for each key, in the order of the list. -/
def firstPerKey (l : List α) : List α :=
  l.foldl (fun chosen a ↦ if chosen.any (key · = key a) then chosen else chosen ++ [a]) []

/-- The first elements for keys that are not taken. -/
def firstNotTaken (taken : κ → Prop) [DecidablePred taken] : List α → List α
  | [] => []
  | a :: l =>
    if taken (key a) then firstNotTaken taken l
    else a :: firstNotTaken (fun k ↦ taken k ∨ k = key a) l

variable {key}

theorem foldl_firstPerKey (l chosen : List α) (taken : κ → Prop) [DecidablePred taken]
    (htaken : ∀ k, taken k ↔ ∃ b ∈ chosen, key b = k) :
    l.foldl (fun chosen a ↦ if chosen.any (key · = key a) then chosen else chosen ++ [a]) chosen =
      chosen ++ firstNotTaken key taken l := by
  induction l generalizing chosen taken with
  | nil => exact (List.append_nil chosen).symm
  | cons a l ih =>
    have hany : chosen.any (key · = key a) = true ↔ taken (key a) := by
      rw [htaken, List.any_eq_true]
      simp
    rw [List.foldl_cons, firstNotTaken]
    by_cases ha : taken (key a)
    · rw [if_pos (hany.mpr ha), if_pos ha, ih chosen taken htaken]
    · have htaken' (k : κ) : taken k ∨ k = key a ↔ ∃ b ∈ chosen ++ [a], key b = k := by
        rw [htaken]
        simp [or_and_right, exists_or, eq_comm]
      rw [if_neg (mt hany.mp ha), if_neg ha, ih (chosen ++ [a]) _ htaken', List.append_assoc,
        List.singleton_append]

variable (key) in
theorem firstPerKey_eq (l : List α) : firstPerKey key l = firstNotTaken key (fun _ ↦ False) l :=
  (foldl_firstPerKey l [] _ (by simp)).trans (List.nil_append _)

theorem firstNotTaken_sublist (taken : κ → Prop) [DecidablePred taken] (l : List α) :
    (firstNotTaken key taken l).Sublist l := by
  induction l generalizing taken with
  | nil => exact List.Sublist.refl _
  | cons a l ih =>
    rw [firstNotTaken]
    split_ifs
    · exact (ih taken).cons a
    · exact (ih _).cons_cons a

theorem not_taken_of_mem {taken : κ → Prop} [DecidablePred taken] {l : List α} {a : α}
    (h : a ∈ firstNotTaken key taken l) : ¬taken (key a) := by
  induction l generalizing taken with
  | nil => exact absurd h List.not_mem_nil
  | cons b l ih =>
    rw [firstNotTaken] at h
    split_ifs at h with hb
    · exact ih h
    · rcases List.mem_cons.mp h with rfl | h
      · exact hb
      · exact fun hno ↦ ih h (Or.inl hno)

theorem nodup_map_firstNotTaken (taken : κ → Prop) [DecidablePred taken] (l : List α) :
    ((firstNotTaken key taken l).map key).Nodup := by
  induction l generalizing taken with
  | nil => exact List.nodup_nil
  | cons a l ih =>
    rw [firstNotTaken]
    split_ifs
    · exact ih taken
    · refine List.nodup_cons.mpr ⟨fun hmem ↦ ?_, ih _⟩
      obtain ⟨b, hb, hkey⟩ := List.mem_map.mp hmem
      exact not_taken_of_mem hb (Or.inr hkey)

variable (key) in
theorem exists_mem_firstNotTaken (taken : κ → Prop) [DecidablePred taken] {l : List α} {a : α}
    (ha : a ∈ l) (h : ¬taken (key a)) : ∃ b ∈ firstNotTaken key taken l, key b = key a := by
  induction l generalizing taken with
  | nil => exact absurd ha List.not_mem_nil
  | cons b l ih =>
    rw [firstNotTaken]
    split_ifs with hb
    · refine ih taken ((List.mem_cons.mp ha).resolve_left fun heq ↦ h (heq ▸ hb)) h
    · by_cases hkey : key a = key b
      · exact ⟨b, List.mem_cons_self, hkey.symm⟩
      · have ha' := (List.mem_cons.mp ha).resolve_left fun heq ↦ hkey (heq ▸ rfl)
        obtain ⟨c, hc, hkeys⟩ := ih (fun k ↦ taken k ∨ k = key b) ha' (not_or.mpr ⟨h, hkey⟩)
        exact ⟨c, List.mem_cons_of_mem b hc, hkeys⟩

/-- All others with the same key stand behind. -/
theorem rel_of_mem_firstNotTaken {R : α → α → Prop} {taken : κ → Prop} [DecidablePred taken]
    {l : List α} (hl : l.Pairwise R) {a b : α} (hb : b ∈ firstNotTaken key taken l) (ha : a ∈ l)
    (hkey : key a = key b) : a = b ∨ R b a := by
  induction l generalizing taken with
  | nil => exact absurd ha List.not_mem_nil
  | cons c l ih =>
    obtain ⟨hc, hl⟩ := List.pairwise_cons.mp hl
    have hfree := not_taken_of_mem hb
    rw [firstNotTaken] at hb
    split_ifs at hb with htaken
    · refine ih hl hb ((List.mem_cons.mp ha).resolve_left ?_)
      rintro rfl
      exact hfree (hkey ▸ htaken)
    · rcases List.mem_cons.mp hb with rfl | hb
      · exact (List.mem_cons.mp ha).imp_right (hc a)
      · refine ih hl hb ((List.mem_cons.mp ha).resolve_left ?_)
        rintro rfl
        exact not_taken_of_mem hb (Or.inr hkey.symm)

end

/-! ## Sorting before and after -/

section

variable [DecidableEq κ] (key : α → κ) (before : α → α → Prop) [DecidableRel before]
  (keyLe : κ → κ → Prop) [DecidableRel keyLe]

/-- What is chosen of candidates. -/
def select (l : List α) : List α :=
  (firstPerKey key (l.insertionSort before)).insertionSort fun a b ↦ keyLe (key a) (key b)

theorem nodup_map_select (l : List α) : ((select key before keyLe l).map key).Nodup :=
  ((List.perm_insertionSort _ _).map key).nodup_iff.mpr
    (firstPerKey_eq key _ ▸ nodup_map_firstNotTaken _ _)

theorem exists_mem_select {l : List α} {a : α} (ha : a ∈ l) :
    ∃ b ∈ select key before keyLe l, key b = key a := by
  obtain ⟨b, hb, hkey⟩ := exists_mem_firstNotTaken key (fun _ ↦ False)
    ((List.mem_insertionSort before).mpr ha) id
  exact ⟨b, (List.mem_insertionSort _).mpr (firstPerKey_eq key _ ▸ hb), hkey⟩

variable {key before keyLe}

theorem mem_of_mem_select {l : List α} {b : α} (hb : b ∈ select key before keyLe l) : b ∈ l := by
  have hfirst := (List.mem_insertionSort _).mp hb
  rw [firstPerKey_eq] at hfirst
  exact (List.mem_insertionSort before).mp ((firstNotTaken_sublist _ _).subset hfirst)

variable [Std.Total before] [IsTrans α before]

/-- What is chosen first is preferred to every candidate with its key. -/
theorem before_of_mem_firstPerKey {l : List α} {a b : α}
    (hb : b ∈ firstPerKey key (l.insertionSort before)) (ha : a ∈ l) (hkey : key a = key b) :
    before b a := by
  rw [firstPerKey_eq] at hb
  rcases rel_of_mem_firstNotTaken (List.pairwise_insertionSort before l) hb
    ((List.mem_insertionSort before).mpr ha) hkey with rfl | h
  · exact (Std.Total.total a a : before a a ∨ before a a).elim id id
  · exact h

/-- **What is chosen is preferred** to every candidate with its key. -/
theorem before_of_mem_select {l : List α} {a b : α} (hb : b ∈ select key before keyLe l)
    (ha : a ∈ l) (hkey : key a = key b) : before b a :=
  before_of_mem_firstPerKey ((List.mem_insertionSort _).mp hb) ha hkey

variable [Std.Total keyLe] [IsTrans κ keyLe]

/-- What is chosen is sorted by key, and by preference where keys leave it open. -/
theorem pairwise_select (l : List α) :
    (select key before keyLe l).Pairwise fun a b ↦
      keyLe (key a) (key b) ∧ (keyLe (key b) (key a) → before a b) := by
  have htotal : Std.Total fun a b ↦ keyLe (key a) (key b) := ⟨fun a b ↦ Std.Total.total _ _⟩
  have htrans : IsTrans α fun a b ↦ keyLe (key a) (key b) := ⟨fun a b c ↦ IsTrans.trans _ _ _⟩
  have hnodup := List.Nodup.of_map key (nodup_map_select key before keyLe l)
  have hkeys := List.pairwise_insertionSort (fun a b ↦ keyLe (key a) (key b))
    (firstPerKey key (l.insertionSort before))
  have hbefore : (firstPerKey key (l.insertionSort before)).Pairwise before := by
    rw [firstPerKey_eq]
    exact (List.pairwise_insertionSort before l).sublist (firstNotTaken_sublist _ _)
  refine List.pairwise_iff_forall_sublist.mpr fun {a b} hab ↦
    ⟨List.pairwise_iff_forall_sublist.mp hkeys hab, fun hle ↦ ?_⟩
  have hne : a ≠ b := by
    have := hab.nodup hnodup
    simpa using this
  have ha := (List.mem_insertionSort _).mp (hab.subset (List.mem_cons_self))
  have hb := (List.mem_insertionSort _).mp (hab.subset (List.mem_cons_of_mem a List.mem_cons_self))
  rcases pair_sublist_or ha hb hne with h | h
  · exact List.pairwise_iff_forall_sublist.mp hbefore h
  · -- the sort by key would have left them the other way round
    have hsorted : [b, a].Sublist (select key before keyLe l) :=
      List.pair_sublist_insertionSort (r := fun a b ↦ keyLe (key a) (key b)) hle h
    exact absurd hsorted (not_pair_sublist_both hnodup hab)

/-- **The order of the candidates does not matter** where preference and keys tell them apart. -/
theorem select_eq_of_perm {l l' : List α} (hperm : l.Perm l')
    (hties : ∀ a ∈ l, ∀ b ∈ l, before a b → before b a → keyLe (key a) (key b) →
      keyLe (key b) (key a) → a = b) :
    select key before keyLe l = select key before keyLe l' := by
  have hrefl (k : κ) : keyLe k k := (Std.Total.total k k).elim id id
  have hsame {l₁ l₂ : List α} (hmem : ∀ a, a ∈ l₁ ↔ a ∈ l₂)
      (hties : ∀ a ∈ l₁, ∀ b ∈ l₁, before a b → before b a → keyLe (key a) (key b) →
        keyLe (key b) (key a) → a = b) {b : α} (hb : b ∈ select key before keyLe l₁) :
      b ∈ select key before keyLe l₂ := by
    have hb₁ := mem_of_mem_select hb
    obtain ⟨c, hc, hkey⟩ := exists_mem_select key before keyLe
      ((hmem b).mp hb₁)
    have hc₁ := (hmem c).mpr (mem_of_mem_select hc)
    have heq := hties b hb₁ c hc₁ (before_of_mem_select hb hc₁ hkey)
      (before_of_mem_select hc ((hmem b).mp hb₁) hkey.symm) (hkey ▸ hrefl _) (hkey ▸ hrefl _)
    exact heq ▸ hc
  have hties' : ∀ a ∈ l', ∀ b ∈ l', before a b → before b a → keyLe (key a) (key b) →
      keyLe (key b) (key a) → a = b :=
    fun a ha b hb ↦ hties a (hperm.mem_iff.mpr ha) b (hperm.mem_iff.mpr hb)
  have hmembers (b : α) :
      b ∈ select key before keyLe l ↔ b ∈ select key before keyLe l' :=
    ⟨hsame (fun _ ↦ hperm.mem_iff) hties, hsame (fun _ ↦ hperm.mem_iff.symm) hties'⟩
  have hselected := (List.perm_ext_iff_of_nodup
    (List.Nodup.of_map key (nodup_map_select key before keyLe l))
    (List.Nodup.of_map key (nodup_map_select key before keyLe l'))).mpr hmembers
  refine hselected.eq_of_pairwise (fun a b ha _ hab hba ↦ ?_) (pairwise_select l)
    (pairwise_select l')
  have ha' := mem_of_mem_select ha
  have hb' := mem_of_mem_select ((hmembers b).mpr ‹_›)
  exact hties a ha' b hb' (hab.2 hba.1) (hba.2 hab.1) hab.1 hba.1

end

end LiteHarness.Foundation
