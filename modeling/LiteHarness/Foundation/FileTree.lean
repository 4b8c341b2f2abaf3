import LiteHarness.Foundation.Files
import Mathlib.Data.List.Infix
import Mathlib.Data.List.Nodup

/-!
# File trees

A file tree is what there is at each path. Whatever lies below a path makes it a directory: that is
carried by the structure, so that a tree with a missing directory cannot be built. The operations
are those of a file system; each of them may fail, or be the one before which the process dies.
-/

namespace LiteHarness.Foundation

universe u

/-- What there is at a path. -/
inductive Entry (κ : Type u) where
  | directory
  | file (content : κ)

/-- A tree of directories and files. -/
@[ext] structure FileTree (ν κ : Type u) where
  nodes : List ν → Option (Entry κ)
  /-- What has something below it is a directory. -/
  closed : ∀ {p q : List ν}, p <+: q → p ≠ q → nodes q ≠ none → nodes p = some .directory

namespace FileTree

open Eff

variable {ν κ μ : Type u}

/-! ## Nodes -/

section Nodes

variable (t : FileTree ν κ)

/-- The path is that of a directory. -/
def isDirectory (p : List ν) : Bool :=
  match t.nodes p with
  | some .directory => true
  | _ => false

/-- There is nothing at the path. -/
def isFree (p : List ν) : Bool := (t.nodes p).isNone

variable {t} {p q : List ν}

theorem isFree_iff : t.isFree p = true ↔ t.nodes p = none := Option.isNone_iff_eq_none

theorem isDirectory_iff : t.isDirectory p = true ↔ t.nodes p = some .directory := by
  rw [isDirectory]
  rcases t.nodes p with _ | ⟨_ | _⟩ <;> simp

/-- There is nothing below a missing path. -/
theorem none_below (h : t.nodes p = none) (hpq : p <+: q) : t.nodes q = none := by
  by_contra hq
  by_cases heq : p = q
  · exact hq (heq ▸ h)
  · rw [t.closed hpq heq hq] at h
    exact absurd h nofun

/-- What lies above a directory is a directory. -/
theorem directory_above (h : t.nodes q = some .directory) (hpq : p <+: q) :
    t.nodes p = some .directory := by
  by_cases heq : p = q
  · rw [heq, h]
  · exact t.closed hpq heq (by rw [h]; exact nofun)

/-- A path is below its parent. -/
theorem prefix_dropLast (hpq : p <+: q) (hne : p ≠ q) : p <+: q.dropLast := by
  have hlt : p.length < q.length :=
    lt_of_le_of_ne hpq.length_le fun hlen ↦ hne (hpq.eq_of_length hlen)
  refine List.prefix_of_prefix_length_le hpq (List.dropLast_prefix q) ?_
  rw [List.length_dropLast]
  omega

end Nodes

variable [DecidableEq ν]

/-! ## Changes -/

section Changes

variable (t : FileTree ν κ)

/-- Put something into a directory. A directory is not replaced by a file. -/
def put (path : List ν) (entry : Entry κ) (hparent : t.nodes path.dropLast = some .directory)
    (hentry : t.nodes path = some .directory → entry = .directory) : FileTree ν κ where
  nodes := Function.update t.nodes path (some entry)
  closed := by
    intro p q hpq hne hq
    have habove : t.nodes p = some .directory := by
      by_cases hpath : q = path
      · exact directory_above hparent (prefix_dropLast (hpath ▸ hpq) (hpath ▸ hne))
      · rw [Function.update_of_ne hpath] at hq
        exact t.closed hpq hne hq
    by_cases hpath : p = path
    · rw [hpath, Function.update_self, hentry (hpath ▸ habove)]
    · rw [Function.update_of_ne hpath, habove]

/-- Remove a path and all that is below it. -/
def prune (path : List ν) : FileTree ν κ where
  nodes := fun q ↦ if path <+: q then none else t.nodes q
  closed := by
    intro p q hpq hne hq
    by_cases hbelow : path <+: q
    · rw [if_pos hbelow] at hq
      exact absurd rfl hq
    · rw [if_neg hbelow] at hq
      rw [if_neg fun h ↦ hbelow (h.trans hpq)]
      exact t.closed hpq hne hq

/-- Move what is at a path, and all that is below it, to another path. -/
def move (path target : List ν) (hparent : t.nodes target.dropLast = some .directory)
    (houtside : ¬path <+: target.dropLast) : FileTree ν κ where
  nodes := fun q ↦
    if target <+: q then t.nodes (path ++ q.drop target.length)
    else if path <+: q then none
    else t.nodes q
  closed := by
    intro p q hpq hne hq
    by_cases htarget : target <+: q
    · rw [if_pos htarget] at hq
      by_cases hp : target <+: p
      · rw [if_pos hp]
        obtain ⟨rest, rfl⟩ := hp
        obtain ⟨more, rfl⟩ := hpq
        rw [List.append_assoc, List.drop_left] at hq
        rw [List.drop_left]
        by_cases hmore : more = []
        · rw [hmore, List.append_nil] at hne
          exact absurd rfl hne
        · refine t.closed ⟨more, List.append_assoc _ _ _⟩ (fun heq ↦ hmore ?_) hq
          simpa using heq
      · -- `p` lies above the target
        have hlt : p <+: target.dropLast := by
          rcases List.prefix_or_prefix_of_prefix hpq htarget with h | h
          · exact prefix_dropLast h fun heq ↦ hp (heq ▸ List.prefix_rfl)
          · exact absurd h hp
        rw [if_neg hp, if_neg fun h ↦ houtside (h.trans hlt)]
        exact directory_above hparent hlt
    · rw [if_neg htarget] at hq
      rw [if_neg fun h ↦ htarget (h.trans hpq)]
      by_cases hpath : path <+: q
      · rw [if_pos hpath] at hq
        exact absurd rfl hq
      · rw [if_neg hpath] at hq
        rw [if_neg fun h ↦ hpath (h.trans hpq)]
        exact t.closed hpq hne hq

end Changes

/-! ## Operations -/

/-- A program on a file tree. -/
abbrev Program (ν κ μ α : Type u) := Eff (FileTree ν κ) (Halt (FileError μ)) α

/-- Make a directory where there is nothing. -/
def makeDirectory (outcome : Outcome) (path : List ν) : Program ν κ μ PUnit :=
  attempt outcome .failed fun t ↦
    if hparent : t.isDirectory path.dropLast = true then
      if t.isFree path then
        .ok (⟨⟩, t.put path .directory (isDirectory_iff.mp hparent) fun _ ↦ rfl)
      else .error .failed
    else .error .missing

/-- Make a directory unless there is one. -/
def ensureDirectory (outcome : Outcome) (path : List ν) : Program ν κ μ PUnit :=
  attempt outcome .failed fun t ↦
    if t.isDirectory path then .ok (⟨⟩, t)
    else if hparent : t.isDirectory path.dropLast = true then
      if t.isFree path then
        .ok (⟨⟩, t.put path .directory (isDirectory_iff.mp hparent) fun _ ↦ rfl)
      else .error .failed
    else .error .missing

/-- Make the directories between a directory and a path below it. -/
def ensureBelow (outcome : List ν → Outcome) : List ν → List ν → Program ν κ μ PUnit
  | _, [] => pure ⟨⟩
  | path, name :: rest => do
    ensureDirectory (outcome (path ++ [name])) (path ++ [name])
    ensureBelow outcome (path ++ [name]) rest

/-- Make a directory with all that are missing above it. -/
def ensureDirectories (outcome : List ν → Outcome) (path : List ν) : Program ν κ μ PUnit :=
  ensureBelow outcome [] path

/-- Write a file. -/
def writeFile (outcome : Outcome) (path : List ν) (content : κ) : Program ν κ μ PUnit :=
  attempt outcome .failed fun t ↦
    if hparent : t.isDirectory path.dropLast = true then
      if hpath : t.isDirectory path = true then .error .failed
      else .ok (⟨⟩, t.put path (.file content) (isDirectory_iff.mp hparent)
        fun h ↦ absurd (isDirectory_iff.mpr h) hpath)
    else .error .missing

/-- Remove a path with all that is below it, if there is anything. -/
def removeTree (outcome : Outcome) (path : List ν) : Program ν κ μ PUnit :=
  attempt outcome .failed fun t ↦ .ok (⟨⟩, t.prune path)

/-- Rename a directory to a path where there is nothing. -/
def renameDirectory (outcome : Outcome) (path target : List ν) : Program ν κ μ PUnit :=
  attempt outcome .failed fun t ↦
    if hparent : t.isDirectory target.dropLast = true ∧ ¬path <+: target.dropLast then
      if t.isDirectory path ∧ (t.isFree target ∨ path = target) then
        .ok (⟨⟩, t.move path target (isDirectory_iff.mp hparent.1) hparent.2)
      else .error .failed
    else .error .missing

/-! ## Staying below a directory -/

section Keeps

variable {root path : List ν} {allowed : List ν → Prop} {t t' : FileTree ν κ}

/-- Nothing is changed but below a directory that is there, and files are written only where that
is allowed. -/
def Keeps (root : List ν) (allowed : List ν → Prop) (t t' : FileTree ν κ) : Prop :=
  t.nodes root = some .directory →
    t'.nodes root = some .directory ∧ (∀ p, ¬root <+: p → t'.nodes p = t.nodes p) ∧
      ∀ p content, t'.nodes p = some (.file content) →
        t.nodes p = some (.file content) ∨ allowed p

omit [DecidableEq ν] in
theorem Keeps.refl (root : List ν) (allowed : List ν → Prop) (t : FileTree ν κ) :
    Keeps root allowed t t := fun h ↦ ⟨h, fun _ _ ↦ rfl, fun _ _ ↦ Or.inl⟩

omit [DecidableEq ν] in
theorem Keeps.trans (root : List ν) (allowed : List ν → Prop) (t t' t'' : FileTree ν κ)
    (h : Keeps root allowed t t') (h' : Keeps root allowed t' t'') : Keeps root allowed t t'' := by
  intro hroot
  obtain ⟨hroot', heq, hfiles⟩ := h hroot
  obtain ⟨hroot'', heq', hfiles'⟩ := h' hroot'
  refine ⟨hroot'', fun p hp ↦ (heq' p hp).trans (heq p hp), fun p content hp ↦ ?_⟩
  rcases hfiles' p content hp with hp | hp
  · exact hfiles p content hp
  · exact Or.inr hp

theorem Keeps.put (hpath : root <+: path) {entry : Entry κ}
    (hallowed : ∀ content, entry = .file content → allowed path)
    (hparent : t.nodes path.dropLast = some .directory)
    (hentry : t.nodes path = some .directory → entry = .directory) :
    Keeps root allowed t (t.put path entry hparent hentry) := by
  intro hroot
  refine ⟨?_, fun p hp ↦ Function.update_of_ne (fun (heq : p = path) ↦ hp (heq ▸ hpath)) _ _,
    fun p content hp ↦ ?_⟩
  · by_cases heq : root = path
    · subst heq
      exact (Function.update_self _ _ _).trans (congrArg some (hentry hroot))
    · exact (Function.update_of_ne heq _ _).trans hroot
  · change Function.update t.nodes path (some entry) p = _ at hp
    by_cases heq : p = path
    · rw [heq, Function.update_self] at hp
      exact Or.inr (heq ▸ hallowed content (Option.some.inj hp))
    · rw [Function.update_of_ne heq] at hp
      exact Or.inl hp

theorem evolves_ensureDirectory (outcome : Outcome) (hpath : path <+: root ∨ root <+: path) :
    Evolves (Keeps root allowed) (ensureDirectory outcome path : Program ν κ μ PUnit) := by
  refine Evolves.attempt (Keeps.refl root allowed) fun t a t' h ↦ ?_
  split_ifs at h with hdirectory hparent hfree
  · obtain rfl := (Prod.mk.inj (Except.ok.inj h)).2
    exact Keeps.refl root allowed t
  · obtain rfl := (Prod.mk.inj (Except.ok.inj h)).2
    rcases hpath with hpath | hpath
    · -- a path above the root is there already
      intro hroot
      exact absurd (isDirectory_iff.mpr (directory_above hroot hpath)) hdirectory
    · exact Keeps.put hpath nofun _ _

theorem evolves_ensureBelow (outcome : List ν → Outcome) {path rest : List ν}
    (hpath : path ++ rest <+: root ∨ root <+: path ++ rest) :
    Evolves (Keeps root allowed) (ensureBelow outcome path rest : Program ν κ μ PUnit) := by
  induction rest generalizing path with
  | nil => exact Evolves.pure (Keeps.refl root allowed) _
  | cons name rest ih =>
    have happend : path ++ name :: rest = (path ++ [name]) ++ rest := by
      rw [List.append_assoc, List.singleton_append]
    rw [happend] at hpath
    refine Evolves.bind (Keeps.trans root allowed) (evolves_ensureDirectory _ ?_) fun _ ↦ ih hpath
    rcases hpath with hpath | hpath
    · exact Or.inl ((List.prefix_append _ _).trans hpath)
    · exact (List.prefix_or_prefix_of_prefix hpath (List.prefix_append _ _)).symm

theorem evolves_ensureDirectories (allowed : List ν → Prop) (outcome : List ν → Outcome)
    (hpath : path <+: root ∨ root <+: path) :
    Evolves (Keeps root allowed) (ensureDirectories outcome path : Program ν κ μ PUnit) :=
  evolves_ensureBelow outcome hpath

theorem evolves_writeFile (outcome : Outcome) (content : κ) (hpath : root <+: path)
    (hallowed : allowed path) :
    Evolves (Keeps root allowed) (writeFile outcome path content : Program ν κ μ PUnit) := by
  refine Evolves.attempt (Keeps.refl root allowed) fun t a t' h ↦ ?_
  split_ifs at h with hparent hdirectory
  obtain rfl := (Prod.mk.inj (Except.ok.inj h)).2
  exact Keeps.put hpath (fun _ _ ↦ hallowed) _ _

end Keeps

/-! ## What succeeds -/

section Runs

variable {path rest : List ν} {t : FileTree ν κ}

theorem run_makeDirectory (hparent : t.nodes path.dropLast = some .directory)
    (hfree : t.nodes path = none) : ∃ t' : FileTree ν κ,
      (makeDirectory .succeeds path : Program ν κ μ PUnit).run t = (.ok ⟨⟩, t') ∧
        t'.nodes = Function.update t.nodes path (some .directory) := by
  refine ⟨t.put path .directory hparent fun _ ↦ rfl, ?_, rfl⟩
  rw [makeDirectory, run_attempt_succeeds, dif_pos (isDirectory_iff.mpr hparent),
    if_pos (isFree_iff.mpr hfree)]

/-- A directory is made, or nothing happens. -/
theorem run_makeDirectory_cases (outcome : Outcome) (path : List ν) (t : FileTree ν κ) :
    (∃ t' : FileTree ν κ,
      (makeDirectory outcome path : Program ν κ μ PUnit).run t = (.ok ⟨⟩, t') ∧
        t.nodes path = none ∧ t'.nodes = Function.update t.nodes path (some .directory)) ∨
      ∃ halt, (makeDirectory outcome path : Program ν κ μ PUnit).run t = (.error halt, t) := by
  rw [makeDirectory]
  rcases outcome with _ | _ | _
  · rw [run_attempt_succeeds]
    split_ifs with hparent hfree
    · exact Or.inl ⟨_, rfl, isFree_iff.mp hfree, rfl⟩
    · exact Or.inr ⟨_, rfl⟩
    · exact Or.inr ⟨_, rfl⟩
  · exact Or.inr ⟨_, rfl⟩
  · exact Or.inr ⟨_, rfl⟩

/-- A directory is renamed, or nothing happens. -/
theorem run_renameDirectory_cases (outcome : Outcome) (path target : List ν) (t : FileTree ν κ) :
    (∃ t' : FileTree ν κ,
      (renameDirectory outcome path target : Program ν κ μ PUnit).run t = (.ok ⟨⟩, t') ∧
        ∀ p, t'.nodes p =
          if target <+: p then t.nodes (path ++ p.drop target.length)
          else if path <+: p then none
          else t.nodes p) ∨
      ∃ halt, (renameDirectory outcome path target : Program ν κ μ PUnit).run t =
        (.error halt, t) := by
  rw [renameDirectory]
  rcases outcome with _ | _ | _
  · rw [run_attempt_succeeds]
    split_ifs with hparent hfree
    · exact Or.inl ⟨_, rfl, fun _ ↦ rfl⟩
    · exact Or.inr ⟨_, rfl⟩
    · exact Or.inr ⟨_, rfl⟩
  · exact Or.inr ⟨_, rfl⟩
  · exact Or.inr ⟨_, rfl⟩

theorem run_ensureDirectory (hparent : t.nodes path.dropLast = some .directory)
    (hfree : t.nodes path = none ∨ t.nodes path = some .directory) : ∃ t' : FileTree ν κ,
      (ensureDirectory .succeeds path : Program ν κ μ PUnit).run t = (.ok ⟨⟩, t') ∧
        t'.nodes = Function.update t.nodes path (some .directory) := by
  rcases hfree with hfree | hfree
  · have hnot : ¬t.isDirectory path = true := fun h ↦ by
      rw [isDirectory_iff, hfree] at h
      exact absurd h nofun
    refine ⟨t.put path .directory hparent fun _ ↦ rfl, ?_, rfl⟩
    rw [ensureDirectory, run_attempt_succeeds, if_neg hnot,
      dif_pos (isDirectory_iff.mpr hparent), if_pos (isFree_iff.mpr hfree)]
  · refine ⟨t, ?_, (Function.update_eq_self_iff.mpr hfree.symm).symm⟩
    rw [ensureDirectory, run_attempt_succeeds, if_pos (isDirectory_iff.mpr hfree)]

/-- Directories can be made where there is no file in the way. -/
theorem run_ensureBelow {outcome : List ν → Outcome} (path rest : List ν)
    (houtcome : ∀ p, outcome p = .succeeds)
    (hpath : t.nodes path = some .directory)
    (hfree : ∀ p, path <+: p → p <+: path ++ rest → t.nodes p = none ∨ t.nodes p = some .directory) :
    ∃ t' : FileTree ν κ,
      (ensureBelow outcome path rest : Program ν κ μ PUnit).run t = (.ok ⟨⟩, t') ∧
        ∀ p, t'.nodes p =
          if path <+: p ∧ p <+: path ++ rest then some .directory else t.nodes p := by
  induction rest generalizing path t with
  | nil =>
    refine ⟨t, rfl, fun p ↦ ?_⟩
    split_ifs with hp
    · rw [List.append_nil] at hp
      rw [hp.2.eq_of_length (le_antisymm hp.2.length_le hp.1.length_le), hpath]
    · rfl
  | cons name rest ih =>
    have happend : path ++ name :: rest = (path ++ [name]) ++ rest := by
      rw [List.append_assoc, List.singleton_append]
    have hnext : path ++ [name] <+: path ++ name :: rest := ⟨rest, happend.symm⟩
    obtain ⟨t₁, hrun, hnodes⟩ := run_ensureDirectory (μ := μ)
      (by rw [List.dropLast_concat]; exact hpath) (hfree _ (List.prefix_append _ _) hnext)
    have hfree₁ : ∀ p, path ++ [name] <+: p → p <+: (path ++ [name]) ++ rest →
        t₁.nodes p = none ∨ t₁.nodes p = some .directory := by
      intro p hp hp'
      rw [hnodes]
      by_cases heq : p = path ++ [name]
      · rw [heq, Function.update_self]
        exact Or.inr rfl
      · rw [Function.update_of_ne heq]
        exact hfree p ((List.prefix_append _ _).trans hp) (happend ▸ hp')
    obtain ⟨t₂, hrun₂, hnodes₂⟩ := ih (t := t₁) (path ++ [name])
      (by rw [hnodes, Function.update_self]) hfree₁
    refine ⟨t₂, ?_, fun p ↦ ?_⟩
    · rw [ensureBelow, houtcome, run_bind, hrun, andThen_ok]
      exact hrun₂
    · rw [hnodes₂, ← happend, hnodes]
      by_cases hp : path <+: p ∧ p <+: path ++ name :: rest
      · rw [if_pos hp]
        split_ifs with hbelow
        · rfl
        · -- `p` is the path itself
          have hle : p <+: path := by
            rcases List.prefix_or_prefix_of_prefix hp.2 hnext with h | h
            · by_cases heq : p = path ++ [name]
              · exact absurd ⟨heq ▸ List.prefix_rfl, hp.2⟩ hbelow
              · have h' := prefix_dropLast h heq
                rwa [List.dropLast_concat] at h'
            · exact absurd ⟨h, hp.2⟩ hbelow
          have heq : p = path := hle.eq_of_length (le_antisymm hle.length_le hp.1.length_le)
          rw [heq, Function.update_of_ne (by simp), hpath]
      · rw [if_neg hp, if_neg fun h ↦ hp ⟨(List.prefix_append _ _).trans h.1, h.2⟩,
          Function.update_of_ne]
        rintro rfl
        exact hp ⟨List.prefix_append _ _, hnext⟩

theorem run_ensureDirectories {outcome : List ν → Outcome} (houtcome : ∀ p, outcome p = .succeeds)
    (hroot : t.nodes [] = some .directory)
    (hfree : ∀ p, p <+: path → t.nodes p = none ∨ t.nodes p = some .directory) :
    ∃ t' : FileTree ν κ,
      (ensureDirectories outcome path : Program ν κ μ PUnit).run t = (.ok ⟨⟩, t') ∧
        ∀ p, t'.nodes p = if p <+: path then some .directory else t.nodes p := by
  obtain ⟨t', hrun, hnodes⟩ := run_ensureBelow (μ := μ) [] path houtcome hroot
    fun p _ hp ↦ hfree p hp
  refine ⟨t', hrun, fun p ↦ ?_⟩
  rw [hnodes, List.nil_append]
  simp only [List.nil_prefix, true_and]

theorem run_writeFile (path : List ν) (content : κ) (hparent : t.nodes path.dropLast = some .directory)
    (hpath : t.nodes path ≠ some .directory) : ∃ t' : FileTree ν κ,
      (writeFile .succeeds path content : Program ν κ μ PUnit).run t = (.ok ⟨⟩, t') ∧
        t'.nodes = Function.update t.nodes path (some (.file content)) := by
  refine ⟨t.put path (.file content) hparent fun h ↦ absurd h hpath, ?_, rfl⟩
  rw [writeFile, run_attempt_succeeds, dif_pos (isDirectory_iff.mpr hparent),
    dif_neg fun h ↦ hpath (isDirectory_iff.mp h)]

end Runs

/-! ## Files in a directory -/

section Planted

/-- What there is below a directory that holds the given files and nothing else. -/
def planted (files : List (List ν × κ)) (rel : List ν) : Option (Entry κ) :=
  match files.find? fun f ↦ f.1 = rel with
  | some f => some (.file f.2)
  | none => if rel = [] ∨ ∃ f ∈ files, rel <+: f.1 then some .directory else none

/-- No file is where another one has a directory. -/
def Apart (p q : List ν) : Prop := ¬p <+: q ∧ ¬q <+: p

variable {files : List (List ν × κ)} {root place rel : List ν} {data : κ} {t t₀ : FileTree ν κ}

theorem planted_nil (h : ∀ f ∈ files, f.1 ≠ []) : planted files [] = some .directory := by
  have hnone : files.find? (fun f ↦ f.1 = []) = none :=
    List.find?_eq_none.mpr fun f hf ↦ by simpa using h f hf
  rw [planted, hnone]
  exact if_pos (Or.inl rfl)

/-- There is no file above a new one, and nothing where it is going to be. -/
theorem planted_above (h : ∀ f ∈ files, Apart f.1 place) (hrel : rel <+: place) :
    planted files rel = none ∨ planted files rel = some .directory := by
  have hnone : files.find? (fun f ↦ f.1 = rel) = none :=
    List.find?_eq_none.mpr fun f hf ↦ by
      simpa using fun heq : f.1 = rel ↦ (h f hf).1 (heq ▸ hrel)
  rw [planted, hnone]
  dsimp only
  split_ifs
  · exact Or.inr rfl
  · exact Or.inl rfl

theorem planted_self (h : ∀ f ∈ files, Apart f.1 place) (hplace : place ≠ []) :
    planted files place = none := by
  have hnone : files.find? (fun f ↦ f.1 = place) = none :=
    List.find?_eq_none.mpr fun f hf ↦ by
      simpa using fun heq : f.1 = place ↦ (h f hf).1 (heq ▸ List.prefix_rfl)
  rw [planted, hnone]
  exact if_neg fun hor ↦ hor.elim hplace fun ⟨f, hf, hle⟩ ↦ (h f hf).2 hle

/-- One more file. -/
theorem planted_concat (h : ∀ f ∈ files, Apart f.1 place) (rel : List ν) :
    planted (files ++ [(place, data)]) rel =
      if rel = place then some (.file data)
      else if rel <+: place then some .directory
      else planted files rel := by
  rw [planted, List.find?_append]
  by_cases hplace : rel = place
  · have hnone : files.find? (fun f ↦ f.1 = rel) = none :=
      List.find?_eq_none.mpr fun f hf ↦ by
        simpa using fun heq : f.1 = rel ↦ (h f hf).1 ((heq.trans hplace) ▸ List.prefix_rfl)
    rw [if_pos hplace, hnone, Option.none_or, List.find?_singleton,
      if_pos (decide_eq_true hplace.symm)]
  · have hsingle : [(place, data)].find? (fun f ↦ f.1 = rel) = none := by
      rw [List.find?_singleton, if_neg (by simpa using Ne.symm hplace)]
    rw [if_neg hplace, hsingle, Option.or_none]
    by_cases hrel : rel <+: place
    · rw [if_pos hrel]
      have hnone : files.find? (fun f ↦ f.1 = rel) = none :=
        List.find?_eq_none.mpr fun f hf ↦ by
          simpa using fun heq : f.1 = rel ↦ (h f hf).1 (heq ▸ hrel)
      rw [hnone]
      exact if_pos (Or.inr ⟨_, List.mem_append_right _ (List.mem_singleton_self _), hrel⟩)
    · rw [if_neg hrel]
      rcases hfind : files.find? (fun f ↦ f.1 = rel) with _ | f
      · rw [planted, hfind]
        refine if_congr (or_congr Iff.rfl ⟨?_, ?_⟩) rfl rfl
        · rintro ⟨f, hf, hle⟩
          rcases List.mem_append.mp hf with hf | hf
          · exact ⟨f, hf, hle⟩
          · rw [List.mem_singleton.mp hf] at hle
            exact absurd hle hrel
        · rintro ⟨f, hf, hle⟩
          exact ⟨f, List.mem_append_left _ hf, hle⟩
      · rw [planted, hfind]

/-- The files below a planted directory are the given ones. -/
theorem planted_eq_file_iff (hdistinct : (files.map Prod.fst).Nodup) (rel : List ν) (data : κ) :
    planted files rel = some (.file data) ↔ (rel, data) ∈ files := by
  rcases hfind : files.find? (fun f ↦ f.1 = rel) with _ | f
  · rw [planted, hfind]
    constructor
    · intro h
      dsimp only at h
      split_ifs at h
      exact absurd (Option.some.inj h) nofun
    · intro hmem
      exact absurd (decide_eq_true rfl) (List.find?_eq_none.mp hfind _ hmem)
  · have htest := List.find?_some hfind
    have hrel : f.1 = rel := of_decide_eq_true htest
    have hf := List.mem_of_find?_eq_some hfind
    rw [planted, hfind]
    constructor
    · intro h
      obtain rfl := Entry.file.inj (Option.some.inj h)
      exact hrel ▸ hf
    · intro hmem
      rw [List.inj_on_of_nodup_map hdistinct hf hmem hrel]

/-- The directory holds the files and nothing else; everything outside it is as it was. -/
structure Holds (root : List ν) (files : List (List ν × κ)) (t t₀ : FileTree ν κ) : Prop where
  inside : ∀ rel, t.nodes (root ++ rel) = planted files rel
  outside : ∀ p, ¬root <+: p → t.nodes p = t₀.nodes p

theorem Holds.directory (h : Holds root files t t₀) (hfiles : ∀ f ∈ files, f.1 ≠ []) :
    t.nodes root = some .directory := by
  have hroot := h.inside []
  rwa [List.append_nil, planted_nil hfiles] at hroot

/-- A directory that has just been made is empty. -/
theorem Holds.made (hnew : t₀.nodes root = none)
    (hmade : t.nodes = Function.update t₀.nodes root (some .directory)) : Holds root [] t t₀ := by
  refine ⟨fun rel ↦ ?_, fun p hp ↦ ?_⟩
  · have hplanted : planted ([] : List (List ν × κ)) rel =
        if rel = [] then some .directory else none := by
      refine if_congr ⟨fun h ↦ h.resolve_right fun ⟨f, hf, _⟩ ↦ absurd hf List.not_mem_nil, Or.inl⟩
        rfl rfl
    rw [hplanted, hmade]
    by_cases hrel : rel = []
    · rw [if_pos hrel, hrel, List.append_nil, Function.update_self]
    · rw [if_neg hrel, Function.update_of_ne (by simpa using hrel)]
      exact none_below hnew (List.prefix_append root rel)
  · rw [hmade, Function.update_of_ne fun (heq : p = root) ↦ hp (heq ▸ List.prefix_rfl)]

/-- Directories that are there are not made again. -/
theorem run_ensureDirectories_of_directory {outcome : List ν → Outcome}
    (houtcome : ∀ p, outcome p = .succeeds) (hplace : t.nodes place = some .directory) :
    (ensureDirectories outcome place : Program ν κ μ PUnit).run t = (.ok ⟨⟩, t) := by
  obtain ⟨t', hrun, hnodes⟩ := run_ensureDirectories (μ := μ) houtcome
    (directory_above hplace List.nil_prefix)
    fun p hp ↦ Or.inr (directory_above hplace hp)
  rw [hrun, FileTree.ext (x := t') (y := t) (funext fun p ↦ ?_)]
  rw [hnodes]
  split_ifs with hp
  · exact (directory_above hplace hp).symm
  · rfl

/-- A file can be added where none of the others is in its way. -/
theorem Holds.plant (h : Holds root files t t₀) (hfiles : ∀ f ∈ files, f.1 ≠ [])
    (hapart : ∀ f ∈ files, Apart f.1 place) (hplace : place ≠ []) (outcome : List ν → Outcome)
    (houtcome : ∀ p, outcome p = .succeeds) (data₀ data : κ) : ∃ t' : FileTree ν κ,
      (do
        ensureDirectories outcome (root ++ place).dropLast
        writeFile .succeeds (root ++ place) data₀
        writeFile .succeeds (root ++ place) data : Program ν κ μ PUnit).run t = (.ok ⟨⟩, t') ∧
        Holds root (files ++ [(place, data)]) t' t₀ := by
  have hroot := h.directory hfiles
  have hlast : (root ++ place).dropLast = root ++ place.dropLast :=
    List.dropLast_append_of_ne_nil hplace
  have hfree : ∀ p, p <+: (root ++ place).dropLast →
      t.nodes p = none ∨ t.nodes p = some .directory := by
    intro p hp
    rw [hlast] at hp
    rcases List.prefix_or_prefix_of_prefix hp (List.prefix_append root place.dropLast) with hle | hle
    · exact Or.inr (directory_above hroot hle)
    · obtain ⟨rel, rfl⟩ := hle
      rw [h.inside]
      exact planted_above hapart
        (((List.prefix_append_right_inj root).mp hp).trans (List.dropLast_prefix place))
  obtain ⟨t₁, hrun₁, hnodes₁⟩ := run_ensureDirectories (μ := μ) houtcome
    (directory_above hroot List.nil_prefix) hfree
  have hnot : ¬root ++ place <+: (root ++ place).dropLast := by
    intro hle
    have hlen := hle.length_le
    rw [List.length_dropLast, List.length_append] at hlen
    have hpos := List.length_pos_of_ne_nil hplace
    omega
  have hparent₁ : t₁.nodes (root ++ place).dropLast = some .directory := by
    rw [hnodes₁, if_pos List.prefix_rfl]
  obtain ⟨t₂, hrun₂, hnodes₂⟩ := run_writeFile (μ := μ) _ data₀ hparent₁ (by
    rw [hnodes₁, if_neg hnot, h.inside, planted_self hapart hplace]
    exact nofun)
  have hne : (root ++ place).dropLast ≠ root ++ place := fun heq ↦ hnot (by rw [heq])
  obtain ⟨t₃, hrun₃, hnodes₃⟩ := run_writeFile (μ := μ) (root ++ place) data
    (by rw [hnodes₂, Function.update_of_ne hne, hparent₁])
    (by rw [hnodes₂, Function.update_self]; exact nofun)
  refine ⟨t₃, ?_, fun rel ↦ ?_, fun p hp ↦ ?_⟩
  · rw [run_bind, hrun₁, andThen_ok, run_bind, hrun₂, andThen_ok, hrun₃]
  · rw [planted_concat hapart, hnodes₃, hnodes₂, Function.update_idem]
    by_cases hrel : rel = place
    · rw [if_pos hrel, hrel, Function.update_self]
    · rw [if_neg hrel, Function.update_of_ne (fun heq ↦ hrel (List.append_cancel_left heq)), hnodes₁,
        h.inside, hlast]
      refine if_congr ?_ rfl rfl
      rw [List.prefix_append_right_inj]
      exact ⟨fun hle ↦ hle.trans (List.dropLast_prefix place), fun hle ↦ prefix_dropLast hle hrel⟩
  · have hpath : p ≠ root ++ place := fun heq ↦ hp (heq ▸ List.prefix_append root place)
    rw [hnodes₃, hnodes₂, Function.update_idem, Function.update_of_ne hpath, hnodes₁]
    split_ifs with hle
    · -- what lies above the directory was there
      rw [hlast] at hle
      rcases List.prefix_or_prefix_of_prefix hle (List.prefix_append root place.dropLast) with h' | h'
      · rw [← h.outside p hp, directory_above hroot h']
      · exact absurd h' hp
    · exact h.outside p hp

/-- A directory that holds files can be renamed to a place where there is nothing. -/
theorem Holds.rename (h : Holds root files t t₀) (hfiles : ∀ f ∈ files, f.1 ≠ [])
    {target : List ν} (hnew : t₀.nodes root = none) (htarget : t₀.nodes target = none)
    (hparent : t₀.nodes target.dropLast = some .directory) : ∃ t' : FileTree ν κ,
      (renameDirectory .succeeds root target : Program ν κ μ PUnit).run t = (.ok ⟨⟩, t') ∧
        Holds target files t' t₀ := by
  have hnot : ¬root <+: target.dropLast := by
    intro hle
    rw [none_below hnew hle] at hparent
    exact absurd hparent nofun
  have hparent' : t.nodes target.dropLast = some .directory := (h.outside _ hnot).trans hparent
  have hfree : t.isFree target = true ∨ root = target := by
    by_cases hle : root <+: target
    · exact Or.inr (by_contra fun hne ↦ hnot (prefix_dropLast hle hne))
    · exact Or.inl (isFree_iff.mpr ((h.outside _ hle).trans htarget))
  refine ⟨t.move root target hparent' hnot, ?_, fun rel ↦ ?_, fun p hp ↦ ?_⟩
  · rw [renameDirectory, run_attempt_succeeds, dif_pos ⟨isDirectory_iff.mpr hparent', hnot⟩,
      if_pos ⟨isDirectory_iff.mpr (h.directory hfiles), hfree⟩]
  · change (if target <+: target ++ rel then _ else _) = _
    rw [if_pos (List.prefix_append target rel), List.drop_left, h.inside]
  · change (if target <+: p then _ else if root <+: p then none else t.nodes p) = _
    rw [if_neg hp]
    split_ifs with hle
    · exact (none_below hnew hle).symm
    · exact h.outside p hle

/-- Removing a directory that was not there gives back what was. -/
theorem prune_eq (hnew : t₀.nodes root = none)
    (houtside : ∀ p, ¬root <+: p → t.nodes p = t₀.nodes p) : t.prune root = t₀ := by
  refine FileTree.ext (funext fun p ↦ ?_)
  change (if root <+: p then none else t.nodes p) = _
  split_ifs with hle
  · exact (none_below hnew hle).symm
  · exact houtside p hle

end Planted

end FileTree

end LiteHarness.Foundation
