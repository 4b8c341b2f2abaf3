import Mathlib.Data.List.Basic
import Mathlib.Data.List.Infix
import Mathlib.Order.Basic
import Mathlib.Data.Nat.Basic

/-!
# Reading a log page by page

A log whose items carry increasing positions is read through a cursor: a read returns some of the
items beyond the cursor, and the next read starts from the position of the last of them. `Paged`
is the whole of such a reading, down to the empty page or the error it ends with. A reading is
sound where every page is a piece of what is left and an error is raised for the next item only;
then it delivers everything up to the first item that cannot be delivered.
-/

namespace LiteHarness.Foundation

variable {α ε : Type*} {position : α → ℕ} {read : ℕ → Except ε (List α)}

/-! ## Whole readings -/

/-- Reading from a cursor delivers the items and ends with the error, if there is one. -/
inductive Paged (position : α → ℕ) (read : ℕ → Except ε (List α)) :
    ℕ → List α → Option ε → Prop
  | done {cursor : ℕ} (h : read cursor = .ok []) : Paged position read cursor [] none
  | failed {cursor : ℕ} {error : ε} (h : read cursor = .error error) :
      Paged position read cursor [] (some error)
  | page {cursor : ℕ} {page rest : List α} {last : α} {error : Option ε}
      (h : read cursor = .ok page) (hlast : page.getLast? = some last)
      (hrest : Paged position read (position last) rest error) :
      Paged position read cursor (page ++ rest) error

/-- A reading delivers one list and ends one way. -/
theorem Paged.unique {cursor : ℕ} {items items' : List α} {error error' : Option ε}
    (h : Paged position read cursor items error) (h' : Paged position read cursor items' error') :
    items = items' ∧ error = error' := by
  induction h generalizing items' error' with
  | done h =>
    cases h' with
    | done => exact ⟨rfl, rfl⟩
    | failed hfailed => exact absurd (h.symm.trans hfailed) (by simp)
    | page hpage hlast =>
      obtain rfl := Except.ok.inj (h.symm.trans hpage)
      exact absurd hlast (by simp)
  | failed h =>
    cases h' with
    | done hdone => exact absurd (h.symm.trans hdone) (by simp)
    | failed hfailed => exact ⟨rfl, congrArg some (Except.error.inj (h.symm.trans hfailed))⟩
    | page hpage => exact absurd (h.symm.trans hpage) (by simp)
  | page h hlast _ ih =>
    cases h' with
    | done hdone =>
      obtain rfl := Except.ok.inj (h.symm.trans hdone)
      exact absurd hlast (by simp)
    | failed hfailed => exact absurd (h.symm.trans hfailed) (by simp)
    | page hpage hlast' hrest' =>
      obtain rfl := Except.ok.inj (h.symm.trans hpage)
      obtain rfl := Option.some.inj (hlast.symm.trans hlast')
      obtain ⟨rfl, rfl⟩ := ih hrest'
      exact ⟨rfl, rfl⟩

/-! ## What is left beyond a cursor -/

/-- The items beyond a cursor. -/
def beyond (position : α → ℕ) (log : List α) (cursor : ℕ) : List α :=
  log.filter fun x ↦ cursor < position x

variable {log : List α}

/-- Beyond a later cursor there is what is beyond the earlier one and the later. -/
theorem beyond_of_le {cursor cursor' : ℕ} (h : cursor ≤ cursor') :
    beyond position log cursor' = beyond position (beyond position log cursor) cursor' := by
  rw [beyond, beyond, beyond, List.filter_filter]
  refine List.filter_congr fun x _ ↦ ?_
  rw [← Bool.decide_and, decide_eq_decide]
  exact ⟨fun hx ↦ ⟨hx, h.trans_lt hx⟩, And.left⟩

/-- Beyond a later cursor there is an end of what is beyond the earlier one. -/
theorem beyond_suffix (hlog : log.Pairwise fun x y ↦ position x < position y) {cursor cursor' : ℕ}
    (h : cursor ≤ cursor') : beyond position log cursor' <:+ beyond position log cursor := by
  induction log with
  | nil => exact List.suffix_refl _
  | cons x log ih =>
    obtain ⟨hx, hlog⟩ := List.pairwise_cons.mp hlog
    by_cases hcursor : cursor' < position x
    · -- the whole list is beyond both cursors
      have hall : ∀ c ≤ cursor', beyond position (x :: log) c = x :: log := by
        intro c hc
        refine List.filter_eq_self.mpr fun y hy ↦ ?_
        rw [decide_eq_true_eq]
        rcases List.mem_cons.mp hy with rfl | hy
        · omega
        · have := hx y hy
          omega
      rw [hall cursor h, hall cursor' le_rfl]
    · have hskip : beyond position (x :: log) cursor' = beyond position log cursor' := by
        rw [beyond, beyond, List.filter_cons_of_neg (by simpa using hcursor)]
      rw [hskip]
      refine (ih hlog).trans ?_
      exact (List.suffix_cons x log).filter _

/-- After a page, what is left is what followed it. -/
theorem beyond_page (hlog : log.Pairwise fun x y ↦ position x < position y) {cursor : ℕ}
    {page rest : List α} {last : α} (h : beyond position log cursor = page ++ rest)
    (hlast : page.getLast? = some last) :
    cursor < position last ∧ beyond position log (position last) = rest := by
  have hmem : last ∈ page := List.mem_of_getLast? hlast
  have hcursor : cursor < position last := by
    have hlast' : last ∈ beyond position log cursor := h ▸ List.mem_append_left _ hmem
    simpa using (List.mem_filter.mp hlast').2
  have hsorted : (page ++ rest).Pairwise fun x y ↦ position x < position y :=
    h ▸ hlog.filter _
  obtain ⟨hpage, -, hcross⟩ := List.pairwise_append.mp hsorted
  refine ⟨hcursor, ?_⟩
  rw [beyond_of_le hcursor.le, h, beyond, List.filter_append]
  have hnone : page.filter (fun x ↦ position last < position x) = [] := by
    refine List.filter_eq_nil_iff.mpr fun x hx ↦ ?_
    obtain ⟨init, rfl⟩ := List.getLast?_eq_some_iff.mp hlast
    rcases List.mem_append.mp hx with hx | hx
    · have := (List.pairwise_append.mp hpage).2.2 x hx last (List.mem_singleton.mpr rfl)
      simpa using this.le
    · simp [List.mem_singleton.mp hx]
  have hall : rest.filter (fun x ↦ position last < position x) = rest :=
    List.filter_eq_self.mpr fun y hy ↦ by simpa using hcross last hmem y hy
  rw [hnone, hall, List.nil_append]

/-- An item and what follows it are what is left beyond the position before it. -/
theorem beyond_pred (hlog : log.Pairwise fun x y ↦ position x < position y) {cursor : ℕ}
    {before after : List α} {x : α} (h : beyond position log cursor = before ++ x :: after) :
    cursor ≤ position x - 1 ∧ beyond position log (position x - 1) = x :: after := by
  have hmem : x ∈ beyond position log cursor := h ▸ List.mem_append_right _ List.mem_cons_self
  have hcursor : cursor < position x := by simpa using (List.mem_filter.mp hmem).2
  have hsorted : (before ++ x :: after).Pairwise fun x y ↦ position x < position y :=
    h ▸ hlog.filter _
  obtain ⟨-, hafter, hcross⟩ := List.pairwise_append.mp hsorted
  refine ⟨by omega, ?_⟩
  rw [beyond_of_le (show cursor ≤ position x - 1 by omega), h, beyond, List.filter_append]
  have hnone : before.filter (fun y ↦ position x - 1 < position y) = [] := by
    refine List.filter_eq_nil_iff.mpr fun y hy ↦ ?_
    have := hcross y hy x List.mem_cons_self
    simp only [decide_eq_true_eq, not_lt]
    omega
  have hall : (x :: after).filter (fun y ↦ position x - 1 < position y) = x :: after := by
    refine List.filter_eq_self.mpr fun y hy ↦ ?_
    rw [decide_eq_true_eq]
    rcases List.mem_cons.mp hy with rfl | hy
    · omega
    · have := (List.pairwise_cons.mp hafter).1 y hy
      omega
  rw [hnone, hall, List.nil_append]

/-! ## Sound reads -/

variable {fits : α → Bool}

/-- One read from a cursor: a page is a piece of what is left, made of items that fit, and empty
only at the end; an error is raised for the next item, which does not fit. -/
structure SoundRead (position : α → ℕ) (read : ℕ → Except ε (List α)) (fits : α → Bool)
    (log : List α) (cursor : ℕ) : Prop where
  piece {page : List α} (h : read cursor = .ok page) : page <+: beyond position log cursor
  fitting {page : List α} (h : read cursor = .ok page) : ∀ x ∈ page, fits x = true
  progress (h : read cursor = .ok []) : beyond position log cursor = []
  error {error : ε} (h : read cursor = .error error) :
    ∃ x ∈ (beyond position log cursor).head?, fits x = false

/-- Reading from a cursor delivers exactly the items beyond it, each once and in order, up to the
first that does not fit, and ends with an error exactly when there is such an item. -/
def Delivers (position : α → ℕ) (read : ℕ → Except ε (List α)) (fits : α → Bool) (log : List α)
    (cursor : ℕ) : Prop :=
  ∃ error, Paged position read cursor ((beyond position log cursor).takeWhile fits) error ∧
    (error = none ↔ ∀ x ∈ beyond position log cursor, fits x = true)

/-- **Sound reads deliver the log.** -/
theorem delivers_of_sound (hlog : log.Pairwise fun x y ↦ position x < position y) {cursor : ℕ}
    (hsound : ∀ c, cursor ≤ c → SoundRead position read fits log c) :
    Delivers position read fits log cursor := by
  -- each page leaves less of the log
  induction hn : (beyond position log cursor).length using Nat.strongRecOn generalizing cursor with
  | _ n ih =>
    have hread := hsound cursor le_rfl
    cases hpage : read cursor with
    | error e =>
      obtain ⟨x, hx, hfits⟩ := hread.error hpage
      obtain ⟨rest, hrest⟩ := List.head?_eq_some_iff.mp hx
      refine ⟨some e, ?_, ?_⟩
      · rw [hrest, List.takeWhile_cons, if_neg (by simp [hfits])]
        exact .failed hpage
      · refine ⟨fun h ↦ absurd h (by simp), fun h ↦ ?_⟩
        have := h x (hrest ▸ List.mem_cons_self)
        exact absurd (hfits.symm.trans this) (by simp)
    | ok page =>
      cases hlast : page.getLast? with
      | none =>
        obtain rfl := List.getLast?_eq_none_iff.mp hlast
        rw [Delivers, hread.progress hpage]
        exact ⟨none, .done hpage, by simp⟩
      | some last =>
        obtain ⟨rest, hrest⟩ := hread.piece hpage
        obtain ⟨hcursor, hleft⟩ := beyond_page hlog hrest.symm hlast
        have hnonempty : page ≠ [] := by
          rintro rfl
          exact absurd hlast (by simp)
        have hless : rest.length < n := by
          rw [← hn, ← hrest, List.length_append]
          have := List.length_pos_iff.mpr hnonempty
          omega
        obtain ⟨error, hpaged, herror⟩ := ih rest.length hless
          (fun c hc ↦ hsound c (hcursor.le.trans hc)) (by rw [hleft])
        rw [hleft] at hpaged herror
        refine ⟨error, ?_, herror.trans ?_⟩
        · rw [← hrest, List.takeWhile_append_of_pos (hread.fitting hpage)]
          exact .page hpage hlast hpaged
        · rw [← hrest, List.forall_mem_append]
          exact ⟨fun h ↦ ⟨hread.fitting hpage, h⟩, And.right⟩

/-- A read that throws where the next item fits loses that item. -/
theorem not_delivers_of_error {cursor : ℕ} {x : α} {rest : List α} {error : ε}
    (hleft : beyond position log cursor = x :: rest) (hfits : fits x = true)
    (herror : read cursor = .error error) : ¬Delivers position read fits log cursor := by
  rintro ⟨_, hpaged, -⟩
  have hnil := (hpaged.unique (.failed herror)).1
  rw [hleft, List.takeWhile_cons, if_pos hfits] at hnil
  exact List.cons_ne_nil _ _ hnil

end LiteHarness.Foundation
