import Mathlib.Data.List.Infix

/-!
# Texts up to a delimiter

A text begins with one of several words, or is read up to the first place where one of them begins.
Where no word has a word in one of its proper beginnings, nothing behind the delimiter has a part in
where it is found (`upToAny_append`).
-/

namespace LiteHarness.Foundation

variable {α : Type*} [DecidableEq α] (words : List (List α))

/-- What is behind the word that a text begins with. -/
def afterAny (text : List α) : Option (List α) :=
  (words.find? (· <+: text)).map fun word ↦ text.drop word.length

/-- A text up to the first of the words, and what is behind it. -/
def upToAny : List α → Option (List α × List α)
  | [] => (afterAny words []).map ([], ·)
  | a :: text =>
    match afterAny words (a :: text) with
    | some rest => some ([], rest)
    | none => (upToAny text).map fun found ↦ (a :: found.1, found.2)

/-- Of the beginnings of a word, no more than the word itself has one of the words in it. -/
abbrev Solid : Prop :=
  ∀ word ∈ words, ∀ front ∈ word.inits, ∀ w ∈ words, w <:+: front → front = word

variable {words} {text inner rest word : List α}

theorem exists_of_afterAny (h : afterAny words text = some rest) :
    ∃ word ∈ words, text = word ++ rest := by
  obtain ⟨word, hfind, rfl⟩ := Option.map_eq_some_iff.mp h
  have hbegins : word <+: text := by simpa using List.find?_some hfind
  exact ⟨word, List.mem_of_find?_eq_some hfind, List.prefix_iff_eq_append.mp hbegins |>.symm⟩

theorem afterAny_eq_none : afterAny words text = none ↔ ∀ word ∈ words, ¬word <+: text := by
  rw [afterAny, Option.map_eq_none_iff, List.find?_eq_none]
  simp

theorem afterAny_append (hsolid : Solid words) (hword : word ∈ words) (rest : List α) :
    afterAny words (word ++ rest) = some rest := by
  rcases h : afterAny words (word ++ rest) with _ | rest'
  · exact absurd (List.prefix_append word rest) (afterAny_eq_none.mp h word hword)
  obtain ⟨w, hw, heq⟩ := exists_of_afterAny h
  have hbegins : w <+: word ++ rest := heq ▸ List.prefix_append w rest'
  have hsame : w = word := by
    rcases List.prefix_or_prefix_of_prefix hbegins (List.prefix_append word rest) with hle | hle
    · exact hsolid word hword w ((List.mem_inits _ _).mpr hle) w hw (List.infix_refl w)
    · exact (hsolid w hw word ((List.mem_inits _ _).mpr hle) word hword (List.infix_refl word)).symm
  subst hsame
  rw [List.append_cancel_left heq]

theorem upToAny_of_afterAny (h : afterAny words text = some rest) :
    upToAny words text = some ([], rest) := by
  rcases text with _ | ⟨a, text⟩
  · rw [upToAny, h, Option.map_some]
  · rw [upToAny, h]

theorem exists_of_upToAny (h : upToAny words text = some (inner, rest)) :
    ∃ word ∈ words, text = inner ++ (word ++ rest) := by
  induction text generalizing inner with
  | nil =>
    obtain ⟨rest', hafter, heq⟩ := Option.map_eq_some_iff.mp h
    obtain ⟨rfl, rfl⟩ := Prod.mk.inj heq
    exact exists_of_afterAny hafter
  | cons a text ih =>
    rw [upToAny] at h
    rcases hafter : afterAny words (a :: text) with _ | rest'
    · rw [hafter] at h
      obtain ⟨found, hfound, heq⟩ := Option.map_eq_some_iff.mp h
      obtain ⟨rfl, rfl⟩ := Prod.mk.inj heq
      obtain ⟨word, hword, rfl⟩ := ih hfound
      exact ⟨word, hword, rfl⟩
    · rw [hafter] at h
      obtain ⟨rfl, rfl⟩ := Prod.mk.inj (Option.some.inj h)
      exact exists_of_afterAny hafter

/-- **What is behind a delimiter** has no part in where it is found. -/
theorem upToAny_append (hsolid : Solid words) (hword : word ∈ words)
    (h : upToAny words (inner ++ (word ++ rest)) = some (inner, rest)) (rest' : List α) :
    upToAny words (inner ++ (word ++ rest')) = some (inner, rest') := by
  induction inner with
  | nil => exact upToAny_of_afterAny (afterAny_append hsolid hword rest')
  | cons a inner ih =>
    rw [List.cons_append, upToAny] at h
    rcases hafter : afterAny words (a :: (inner ++ (word ++ rest))) with _ | found
    · rw [hafter] at h
      obtain ⟨found, hfound, heq⟩ := Option.map_eq_some_iff.mp h
      obtain ⟨hinner, hrest⟩ := Prod.mk.inj heq
      have hnext : upToAny words (inner ++ (word ++ rest)) = some (inner, rest) := by
        rw [hfound, ← (List.cons.inj hinner).2, ← hrest]
      have hnone : afterAny words (a :: (inner ++ (word ++ rest'))) = none := by
        refine afterAny_eq_none.mpr fun w hw hbegins ↦ ?_
        have hfree := afterAny_eq_none.mp hafter w hw
        have hfront : w <+: a :: inner ++ word := by
          have hbegins' : w <+: a :: inner ++ word ++ rest' := by
            simpa only [List.cons_append, List.append_assoc] using hbegins
          rcases List.prefix_or_prefix_of_prefix hbegins'
            (List.prefix_append (a :: inner ++ word) rest') with hle | hle
          · exact hle
          · -- the word would have the delimiter in a beginning of its own
            have hinside : word <:+: a :: inner ++ word :=
              (List.suffix_append (a :: inner) word).isInfix
            exact (hsolid w hw _ ((List.mem_inits _ _).mpr hle) word hword hinside) ▸
              List.prefix_refl _
        refine hfree (hfront.trans ?_)
        simpa only [List.cons_append, List.append_assoc] using
          List.prefix_append (a :: inner ++ word) rest
      rw [List.cons_append, upToAny, hnone]
      dsimp only
      rw [ih hnext, Option.map_some]
    · rw [hafter] at h
      exact absurd (congrArg Prod.fst (Option.some.inj h)) (by simp)

end LiteHarness.Foundation
