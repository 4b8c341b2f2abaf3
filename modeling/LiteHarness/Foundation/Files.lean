import LiteHarness.Foundation.Faults
import Mathlib.Logic.Function.Basic

/-!
# Files

A directory is the contents of its files. The operations are those of a file system in which a
rename is atomic; each of them may fail, or be the one before which the process dies.
-/

namespace LiteHarness.Foundation

universe u

/-- What a file operation throws: the file is missing, the operation has failed, or the program
itself has thrown a message. -/
inductive FileError (μ : Type u) where
  | missing
  | failed
  | thrown (message : μ)

/-- The contents of the files, by name. -/
abbrev Files (ν κ : Type u) := ν → Option κ

namespace Files

open Eff

variable {ν κ μ α : Type u} [DecidableEq ν]

/-- A program on a directory. -/
abbrev Program (ν κ μ α : Type u) := Eff (Files ν κ) (Halt (FileError μ)) α

/-- Something that may fail, and that leaves the files alone. -/
def pass (outcome : Outcome) : Program ν κ μ PUnit :=
  attempt outcome .failed fun d ↦ .ok (⟨⟩, d)

/-- Read a file. -/
def read (outcome : Outcome) (name : ν) : Program ν κ μ κ :=
  attempt outcome .failed fun d ↦
    match d name with
    | some content => .ok (content, d)
    | none => .error .missing

/-- Write a file. -/
def write (outcome : Outcome) (name : ν) (content : κ) : Program ν κ μ PUnit :=
  attempt outcome .failed fun d ↦ .ok (⟨⟩, Function.update d name (some content))

/-- Remove a file, if there is one. -/
def remove (outcome : Outcome) (name : ν) : Program ν κ μ PUnit :=
  attempt outcome .failed fun d ↦ .ok (⟨⟩, Function.update d name none)

/-- Rename a file, over another one if there is one. -/
def rename (outcome : Outcome) (name target : ν) : Program ν κ μ PUnit :=
  attempt outcome .failed fun d ↦
    match d name with
    | some content => .ok (⟨⟩, Function.update (Function.update d name none) target (some content))
    | none => .error .missing

/-! ## How an operation ends -/

section Cases

variable (outcome : Outcome) (name target : ν) (content : κ) (d : Files ν κ)

/-- A program stops where it is, with an error that is not its own. -/
def Stops (r : Except (Halt (FileError μ)) α × Files ν κ) (d : Files ν κ) : Prop :=
  ∃ halt, r = (.error halt, d) ∧ ∀ message, halt ≠ .threw (.thrown message)

omit [DecidableEq ν] in
theorem stops_of_fails : Stops (μ := μ) (α := α) (.error (.threw .failed), d) d := ⟨_, rfl, nofun⟩

omit [DecidableEq ν] in
theorem stops_of_dies : Stops (μ := μ) (α := α) (.error .died, d) d := ⟨_, rfl, nofun⟩

omit [DecidableEq ν] in
/-- What comes after an operation that stops is not run. -/
theorem Stops.bind {β : Type u} {d : Files ν κ} {m : Program ν κ μ α} {f : α → Program ν κ μ β}
    {d₀ : Files ν κ} (h : Stops (m.run d₀) d) : Stops ((m >>= f).run d₀) d := by
  obtain ⟨halt, hrun, hmessage⟩ := h
  exact ⟨halt, by rw [run_bind, hrun, andThen_error], hmessage⟩

omit [DecidableEq ν] in
theorem run_pass_cases : (outcome = .succeeds ∧
    (pass outcome : Program ν κ μ PUnit).run d = (.ok ⟨⟩, d)) ∨
      Stops ((pass outcome : Program ν κ μ PUnit).run d) d := by
  rcases outcome
  · exact Or.inl ⟨rfl, rfl⟩
  · exact Or.inr (stops_of_fails d)
  · exact Or.inr (stops_of_dies d)

theorem run_write_cases : (outcome = .succeeds ∧ (write outcome name content :
    Program ν κ μ PUnit).run d = (.ok ⟨⟩, Function.update d name (some content))) ∨
      Stops ((write outcome name content : Program ν κ μ PUnit).run d) d := by
  rcases outcome
  · exact Or.inl ⟨rfl, rfl⟩
  · exact Or.inr (stops_of_fails d)
  · exact Or.inr (stops_of_dies d)

theorem run_remove_cases : (outcome = .succeeds ∧ (remove outcome name :
    Program ν κ μ PUnit).run d = (.ok ⟨⟩, Function.update d name none)) ∨
      Stops ((remove outcome name : Program ν κ μ PUnit).run d) d := by
  rcases outcome
  · exact Or.inl ⟨rfl, rfl⟩
  · exact Or.inr (stops_of_fails d)
  · exact Or.inr (stops_of_dies d)

theorem run_rename_of_some (h : d name = some content) :
    (rename .succeeds name target : Program ν κ μ PUnit).run d =
      (.ok ⟨⟩, Function.update (Function.update d name none) target (some content)) := by
  rw [rename, run_attempt_succeeds, h]

theorem run_rename_of_none (h : d name = none) :
    (rename .succeeds name target : Program ν κ μ PUnit).run d = (.error (.threw .missing), d) := by
  rw [rename, run_attempt_succeeds, h]

end Cases

/-! ## Pre- and postconditions -/

section Triple

variable {p : Files ν κ → Prop} {outcome : Outcome} {name target : ν} {content : κ}

omit [DecidableEq ν] in
theorem triple_pass {q : Except (Halt (FileError μ)) PUnit → Files ν κ → Prop}
    (hdone : outcome = .succeeds → ∀ d, p d → q (.ok ⟨⟩) d)
    (hfails : outcome = .fails → ∀ d, p d → q (.error (.threw .failed)) d)
    (hdies : outcome = .dies → ∀ d, p d → q (.error .died) d) : Triple p (pass outcome) q := by
  refine Triple.attempt (fun ho d hd a d' h ↦ ?_) (fun ho d hd e h ↦ absurd h nofun) hfails hdies
  obtain ⟨rfl, rfl⟩ := Prod.mk.inj (Except.ok.inj h)
  exact hdone ho d hd

omit [DecidableEq ν] in
theorem triple_read {q : Except (Halt (FileError μ)) κ → Files ν κ → Prop}
    (hdone : outcome = .succeeds → ∀ d, p d → ∀ content, d name = some content →
      q (.ok content) d)
    (hmissing : outcome = .succeeds → ∀ d, p d → d name = none → q (.error (.threw .missing)) d)
    (hfails : outcome = .fails → ∀ d, p d → q (.error (.threw .failed)) d)
    (hdies : outcome = .dies → ∀ d, p d → q (.error .died) d) :
    Triple p (read outcome name) q := by
  refine Triple.attempt (fun ho d hd a d' h ↦ ?_) (fun ho d hd e h ↦ ?_) hfails hdies
  · cases hname : d name with
    | none =>
      rw [hname] at h
      exact absurd h nofun
    | some content =>
      rw [hname] at h
      obtain ⟨rfl, rfl⟩ := Prod.mk.inj (Except.ok.inj h)
      exact hdone ho d hd content hname
  · cases hname : d name with
    | none =>
      rw [hname] at h
      obtain rfl := Except.error.inj h
      exact hmissing ho d hd hname
    | some content =>
      rw [hname] at h
      exact absurd h nofun

theorem triple_write {q : Except (Halt (FileError μ)) PUnit → Files ν κ → Prop}
    (hdone : outcome = .succeeds → ∀ d, p d →
      q (.ok ⟨⟩) (Function.update d name (some content)))
    (hfails : outcome = .fails → ∀ d, p d → q (.error (.threw .failed)) d)
    (hdies : outcome = .dies → ∀ d, p d → q (.error .died) d) :
    Triple p (write outcome name content) q := by
  refine Triple.attempt (fun ho d hd a d' h ↦ ?_) (fun ho d hd e h ↦ absurd h nofun) hfails hdies
  obtain ⟨rfl, rfl⟩ := Prod.mk.inj (Except.ok.inj h)
  exact hdone ho d hd

theorem triple_remove {q : Except (Halt (FileError μ)) PUnit → Files ν κ → Prop}
    (hdone : outcome = .succeeds → ∀ d, p d → q (.ok ⟨⟩) (Function.update d name none))
    (hfails : outcome = .fails → ∀ d, p d → q (.error (.threw .failed)) d)
    (hdies : outcome = .dies → ∀ d, p d → q (.error .died) d) :
    Triple p (remove outcome name) q := by
  refine Triple.attempt (fun ho d hd a d' h ↦ ?_) (fun ho d hd e h ↦ absurd h nofun) hfails hdies
  obtain ⟨rfl, rfl⟩ := Prod.mk.inj (Except.ok.inj h)
  exact hdone ho d hd

theorem triple_rename {q : Except (Halt (FileError μ)) PUnit → Files ν κ → Prop}
    (hdone : outcome = .succeeds → ∀ d, p d → ∀ content, d name = some content →
      q (.ok ⟨⟩) (Function.update (Function.update d name none) target (some content)))
    (hmissing : outcome = .succeeds → ∀ d, p d → d name = none → q (.error (.threw .missing)) d)
    (hfails : outcome = .fails → ∀ d, p d → q (.error (.threw .failed)) d)
    (hdies : outcome = .dies → ∀ d, p d → q (.error .died) d) :
    Triple p (rename outcome name target) q := by
  refine Triple.attempt (fun ho d hd a d' h ↦ ?_) (fun ho d hd e h ↦ ?_) hfails hdies
  · cases hname : d name with
    | none =>
      rw [hname] at h
      exact absurd h nofun
    | some content =>
      rw [hname] at h
      obtain ⟨rfl, rfl⟩ := Prod.mk.inj (Except.ok.inj h)
      exact hdone ho d hd content hname
  · cases hname : d name with
    | none =>
      rw [hname] at h
      obtain rfl := Except.error.inj h
      exact hmissing ho d hd hname
    | some content =>
      rw [hname] at h
      exact absurd h nofun

end Triple

end Files

end LiteHarness.Foundation
