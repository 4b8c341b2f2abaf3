import LiteHarness.Platform.JsString
import Mathlib.Data.List.Flatten

/-!
# Command lines of Windows

`CommandLineToArgvW` takes spaces and tabs between arguments and joins with quotes. Backslashes are
themselves, except in front of a quote: there two of them are one, and one more makes the quote a
character of the argument. How many backslashes and quotes the arguments get does not depend on
which parts are quoted (`count_splitArguments`).
-/

namespace LiteHarness.Windows

/-- A command line being split: the arguments before, the one that has begun, whether a quote is
open, and how many backslashes were just read. -/
structure Splitting where
  arguments : List JsString := []
  argument : Option JsString := none
  quoted : Bool := false
  slashes : ℕ := 0

namespace Splitting

/-- The argument goes on. -/
def add (s : Splitting) (slashes : ℕ) (units : JsString) : Splitting :=
  { s with
    argument := some (s.argument.getD [] ++ List.replicate slashes 92 ++ units)
    slashes := 0 }

/-- The argument ends, if one has begun. -/
def close (s : Splitting) : Splitting :=
  { s with
    arguments := s.arguments ++ if s.argument = none ∧ s.slashes = 0 then []
      else [s.argument.getD [] ++ List.replicate s.slashes 92]
    argument := none
    slashes := 0 }

def step (s : Splitting) (u : UInt16) : Splitting :=
  if u = 92 then { s with slashes := s.slashes + 1 }
  else if u = 34 then
    if s.slashes % 2 = 0 then { s.add (s.slashes / 2) [] with quoted := !s.quoted }
    else s.add (s.slashes / 2) [34]
  else if (u = 32 ∨ u = 9) ∧ s.quoted = false then s.close
  else s.add s.slashes [u]

/-! A character at a time. -/

theorem step_slash (s : Splitting) : s.step 92 = { s with slashes := s.slashes + 1 } := if_pos rfl

theorem step_quote {s : Splitting} (h : s.slashes = 0) :
    s.step 34 =
      { s with argument := some (s.argument.getD []), quoted := !s.quoted, slashes := 0 } := by
  rw [step, if_neg (by decide), if_pos rfl, if_pos (by rw [h]), h]
  simp [add]

theorem step_literal {s : Splitting} (h : s.slashes = 1) :
    s.step 34 = { s with argument := some (s.argument.getD [] ++ [34]), slashes := 0 } := by
  rw [step, if_neg (by decide), if_pos rfl, if_neg (by rw [h]; decide), h]
  simp [add]

theorem step_space {s : Splitting} (h : s.quoted = false) : s.step 32 = s.close := by
  rw [step, if_neg (by decide), if_neg (by decide), if_pos ⟨Or.inl rfl, h⟩]

theorem step_quoted {s : Splitting} (h : s.quoted = true) {u : UInt16} (hslash : u ≠ 92)
    (hquote : u ≠ 34) : s.step u = s.add s.slashes [u] := by
  rw [step, if_neg hslash, if_neg hquote, if_neg (by simp [h])]

end Splitting

/-- `CommandLineToArgvW`, of what stands behind the program. -/
def splitArguments (line : JsString) : List JsString :=
  (line.foldl Splitting.step {}).close.arguments

/-! ## Backslashes and quotes -/

section Count

variable (c : UInt16)

/-- How many backslashes, or quotes, a text gives, where some backslashes were just read. -/
def written : ℕ → JsString → ℕ
  | slashes, [] => (List.replicate slashes (92 : UInt16)).count c
  | slashes, u :: text =>
    if u = 92 then written (slashes + 1) text
    else if u = 34 then
      (List.replicate (slashes / 2) (92 : UInt16)).count c +
        (List.replicate (slashes % 2) (34 : UInt16)).count c + written 0 text
    else (List.replicate slashes (92 : UInt16)).count c + written 0 text

variable {c}

namespace Splitting

/-- What the arguments have by now. -/
def count (c : UInt16) (s : Splitting) : ℕ :=
  s.arguments.flatten.count c + (s.argument.getD []).count c

theorem count_add (s : Splitting) (slashes : ℕ) (units : JsString) :
    (s.add slashes units).count c =
      s.count c + (List.replicate slashes (92 : UInt16)).count c + units.count c := by
  simp only [count, add, Option.getD_some, List.count_append]
  omega

theorem count_close (s : Splitting) :
    s.close.count c = s.count c + (List.replicate s.slashes (92 : UInt16)).count c := by
  simp only [count, close, Option.getD_none, List.count_nil, Nat.add_zero]
  by_cases hnone : s.argument = none ∧ s.slashes = 0
  · rw [if_pos hnone, hnone.1, hnone.2]
    simp
  · rw [if_neg hnone]
    simp only [List.flatten_append, List.flatten_singleton, List.count_append]
    omega

/-- What one character adds does not depend on what is quoted. -/
theorem count_foldl (hc : c = 92 ∨ c = 34) (s : Splitting) (text : JsString) :
    (text.foldl step s).close.count c = s.count c + written c s.slashes text := by
  induction text generalizing s with
  | nil => exact count_close s
  | cons u text ih =>
    rw [List.foldl_cons, ih, step, written]
    by_cases hslash : u = 92
    · rw [if_pos hslash, if_pos hslash]
      rfl
    rw [if_neg hslash, if_neg hslash]
    by_cases hquote : u = 34
    · rw [if_pos hquote, if_pos hquote]
      by_cases heven : s.slashes % 2 = 0
      · rw [if_pos heven, heven]
        have hadd := count_add (c := c) s (s.slashes / 2) []
        simp only [count, add, List.count_nil, List.replicate_zero, Nat.add_zero] at hadd ⊢
        omega
      · rw [if_neg heven, count_add, (by omega : s.slashes % 2 = 1), List.replicate_one]
        simp only [add]
        omega
    · rw [if_neg hquote, if_neg hquote]
      have hother : [u].count c = 0 := by
        refine List.count_eq_zero.mpr fun hmem ↦ ?_
        rw [List.mem_singleton] at hmem
        rcases hc with rfl | rfl
        · exact hslash hmem.symm
        · exact hquote hmem.symm
      split_ifs
      · rw [count_close]
        simp only [close]
        omega
      · rw [count_add, hother]
        simp only [add]
        omega

end Splitting

theorem count_splitArguments (hc : c = 92 ∨ c = 34) (line : JsString) :
    (splitArguments line).flatten.count c = written c 0 line := by
  have h := Splitting.count_foldl hc {} line
  simp only [Splitting.count, Splitting.close, Option.getD_none, List.count_nil, Nat.add_zero,
    List.flatten_nil, Nat.zero_add] at h
  exact h

end Count

end LiteHarness.Windows
