import LiteHarness.Foundation.Blocks
import LiteHarness.Platform.JsString

/-!
# Reading systemd units

A setting is taken apart into words, which quotes and escapes hold together. In each word `%` and a
letter are a specifier, and on a command line `$` stands in front of a variable, except in the first
word, which is the program and may have special characters in front. What specifiers and variables
stand for depends on the machine and is a parameter. Where all of them are empty, a text with one of
them gets shorter, so the texts that are left alone are those without any
(`expandSpecifiers_eq_self_iff`, `expandWord_eq_self_iff`).
-/

namespace LiteHarness.Systemd

open Foundation

/-- The value of the first line that sets a key. -/
def setting (key unit : JsString) : Option JsString :=
  (unit.splitOn 10).findSome? fun line ↦
    if key ++ [61] <+: line then some (line.drop (key.length + 1)) else none

/-- A line of a unit that sets a key, where no line before does. -/
theorem setting_of_line {key value : JsString} {before after : List JsString}
    (hlines : ∀ line ∈ before ++ (key ++ 61 :: value) :: after, 10 ∉ line)
    (hbefore : ∀ line ∈ before, ¬key ++ [61] <+: line) :
    setting key ((before ++ (key ++ 61 :: value) :: after).flatMap (· ++ [10])) = some value := by
  have hnone : before.findSome? (fun line ↦
      if key ++ [61] <+: line then some (line.drop (key.length + 1)) else none) = none :=
    List.findSome?_eq_none_iff.mpr fun line hline ↦ if_neg (hbefore line hline)
  have hline : key ++ 61 :: value = (key ++ [61]) ++ value := by simp
  rw [setting, splitOn_flatMap_append hlines, List.append_assoc, List.cons_append,
    List.findSome?_append, hnone, Option.none_or, List.findSome?_cons, hline,
    if_pos (List.prefix_append _ _), List.drop_left' (by rw [List.length_append]; rfl)]

/-- A key is not at the start of a line that starts in another way. -/
theorem not_prefix_append {key start : JsString} (h : ¬key <+: start) (h' : ¬start <+: key)
    (rest : JsString) : ¬key <+: start ++ rest :=
  fun hkey ↦ (List.prefix_or_prefix_of_prefix hkey (List.prefix_append start rest)).elim h h'

/-! ## Words -/

def isSpace (u : UInt16) : Bool := u = 32 || u = 9 || u = 10 || u = 13

/-- What a backslash and a character stand for. An unknown escape is kept. The escapes by number,
which stand for bytes, are not read. -/
def unescaped (u : UInt16) : Option JsString :=
  if u = 92 ∨ u = 34 ∨ u = 39 then some [u]
  else if u = 115 then some [32]
  else if u = 97 then some [7]
  else if u = 98 then some [8]
  else if u = 102 then some [12]
  else if u = 110 then some [10]
  else if u = 114 then some [13]
  else if u = 116 then some [9]
  else if u = 118 then some [11]
  else if u = 120 ∨ u = 117 ∨ u = 85 ∨ 48 ≤ u ∧ u ≤ 55 then none
  else some [92, u]

/-- A value being split: the words before, the word that has begun, the quote it is in, and whether
a backslash was just read. -/
structure Splitting where
  words : List JsString := []
  word : Option JsString := none
  quote : Option UInt16 := none
  escape : Bool := false
  deriving DecidableEq

def Splitting.add (s : Splitting) (units : JsString) : Splitting :=
  { s with word := some (s.word.getD [] ++ units), escape := false }

def Splitting.step (s : Splitting) (u : UInt16) : Option Splitting :=
  if s.escape then (unescaped u).map s.add
  else if u = 92 then some { s.add [] with escape := true }
  else if s.quote = some u then some { s with quote := none }
  else if s.quote.isSome then some (s.add [u])
  else if u = 34 ∨ u = 39 then some { s.add [] with quote := some u }
  else if isSpace u then some { s with words := s.words ++ s.word.toList, word := none }
  else some (s.add [u])

/-- The words of a value. None is left open. -/
def words (value : JsString) : Option (List JsString) :=
  (value.foldlM Splitting.step {}).bind fun s ↦
    if s.quote.isSome || s.escape then none else some (s.words ++ s.word.toList)

/-! ## Specifiers -/

/-- The letters that stand for something behind a `%`. -/
def isSpecifier (u : UInt16) : Bool := (js "aAbBCdDEfgGhHiIjJlLmMnNopPqsStTuUvVwWyY").contains u

/-- A `%` is written twice, and other letters are left alone. -/
def expandSpecifiers (value : UInt16 → JsString) : JsString → JsString
  | 37 :: u :: text =>
    if u = 37 then 37 :: expandSpecifiers value text
    else if isSpecifier u then value u ++ expandSpecifiers value text
    else 37 :: u :: expandSpecifiers value text
  | u :: text => u :: expandSpecifiers value text
  | [] => []

/-- No `%` has another one or a specifier's letter behind it. -/
def withoutSpecifiers : JsString → Bool
  | 37 :: u :: text => u ≠ 37 && !isSpecifier u && withoutSpecifiers text
  | _ :: text => withoutSpecifiers text
  | [] => true

theorem expandSpecifiers_of_without (value : UInt16 → JsString) {text : JsString}
    (h : withoutSpecifiers text = true) : expandSpecifiers value text = text := by
  fun_induction withoutSpecifiers text with
  | case1 u text ih =>
    obtain ⟨⟨hu, hletter⟩, htext⟩ : (u ≠ 37 ∧ isSpecifier u = false) ∧
      withoutSpecifiers text = true := by simpa using h
    rw [expandSpecifiers, if_neg hu, if_neg (by simp [hletter]), ih htext]
  | case2 u text hnot ih =>
    rw [expandSpecifiers.eq_2 _ _ _ hnot, ih h]
  | case3 => rfl

/-- Where specifiers are empty, the first one makes the text shorter. -/
theorem length_expandSpecifiers (text : JsString) :
    (expandSpecifiers (fun _ ↦ []) text).length +
      (if withoutSpecifiers text = true then 0 else 1) ≤ text.length := by
  fun_induction withoutSpecifiers text with
  | case1 u text ih =>
    rw [expandSpecifiers]
    split_ifs at ih ⊢ <;> simp_all <;> omega
  | case2 u text hnot ih =>
    rw [expandSpecifiers.eq_2 _ _ _ hnot, List.length_cons, List.length_cons]
    omega
  | case3 => simp [expandSpecifiers]

theorem withoutSpecifiers_of_eq {text : JsString}
    (h : expandSpecifiers (fun _ ↦ []) text = text) : withoutSpecifiers text = true := by
  have hlength := length_expandSpecifiers text
  by_contra hwith
  rw [h, if_neg hwith] at hlength
  omega

theorem expandSpecifiers_append (value : UInt16 → JsString) {front : JsString} (h : 37 ∉ front)
    (text : JsString) :
    expandSpecifiers value (front ++ text) = front ++ expandSpecifiers value text := by
  induction front with
  | nil => rfl
  | cons u front ih =>
    rw [List.mem_cons, not_or] at h
    rw [List.cons_append, expandSpecifiers.eq_2, ih h.2, List.cons_append]
    exact fun _ _ hu _ ↦ h.1 hu.symm

/-! ## Variables -/

/-- How far a variable has been read. -/
inductive Reading
  | word
  | dollar
  | name (read : JsString)

/-- `$$` stands for `$`, and `${name}` for a variable. A colon in it ends the name as an unsupported
one, which is left alone, as is a name that is not ended. -/
def replaceEnv (value : JsString → JsString) : Reading → JsString → JsString
  | .word, [] => []
  | .dollar, [] => [36]
  | .name read, [] => 36 :: 123 :: read
  | .word, u :: text =>
    if u = 36 then replaceEnv value .dollar text else u :: replaceEnv value .word text
  | .dollar, u :: text =>
    if u = 123 then replaceEnv value (.name []) text
    else if u = 36 then 36 :: replaceEnv value .word text
    else 36 :: u :: replaceEnv value .word text
  | .name read, u :: text =>
    if u = 125 then value read ++ replaceEnv value .word text
    else if u = 58 then 36 :: 123 :: (read ++ 58 :: replaceEnv value .word text)
    else replaceEnv value (.name (read ++ [u])) text

/-- Neither `$$` nor a `${name}` is read. -/
def withoutVariables : Reading → JsString → Bool
  | _, [] => true
  | .word, u :: text => withoutVariables (if u = 36 then .dollar else .word) text
  | .dollar, u :: text =>
    if u = 123 then withoutVariables (.name []) text
    else u ≠ 36 && withoutVariables .word text
  | .name read, u :: text =>
    u ≠ 125 && withoutVariables (if u = 58 then .word else .name (read ++ [u])) text

/-- What has been read and not yet written. -/
def Reading.pending : Reading → JsString
  | .word => []
  | .dollar => [36]
  | .name read => 36 :: 123 :: read

theorem replaceEnv_of_without (value : JsString → JsString) {reading : Reading} {text : JsString}
    (h : withoutVariables reading text = true) :
    replaceEnv value reading text = reading.pending ++ text := by
  induction text generalizing reading with
  | nil => cases reading <;> simp [replaceEnv, Reading.pending]
  | cons u text ih =>
    rcases reading with _ | _ | read
    · rw [withoutVariables] at h
      rw [replaceEnv]
      split_ifs at h ⊢ with hu
      · rw [ih h, hu]
        rfl
      · rw [ih h]
        rfl
    · rw [withoutVariables] at h
      rw [replaceEnv]
      split_ifs at h ⊢ with hbrace hdollar
      · rw [ih h, hbrace]
        rfl
      · simp [hdollar] at h
      · rw [ih (Bool.and_eq_true_iff.mp h).2]
        rfl
    · rw [withoutVariables, Bool.and_eq_true, decide_eq_true_eq] at h
      obtain ⟨hbrace, h⟩ := h
      rw [replaceEnv, if_neg hbrace]
      split_ifs at h ⊢ with hcolon
      · rw [ih h, hcolon]
        rfl
      · rw [ih h]
        simp [Reading.pending]

/-- Where variables are empty, the first one makes the text shorter. -/
theorem length_replaceEnv (reading : Reading) (text : JsString) :
    (replaceEnv (fun _ ↦ []) reading text).length +
      (if withoutVariables reading text = true then 0 else 1) ≤
        (reading.pending ++ text).length := by
  induction text generalizing reading with
  | nil => cases reading <;> simp [replaceEnv, withoutVariables, Reading.pending]
  | cons u text ih =>
    have hword := ih .word
    rcases reading with _ | _ | read
    · rw [withoutVariables, replaceEnv]
      have hdollar := ih .dollar
      split_ifs <;> simp_all [Reading.pending]
    · rw [withoutVariables, replaceEnv]
      have hname := ih (.name [])
      split_ifs <;> simp_all [Reading.pending]
      omega
    · rw [withoutVariables, replaceEnv]
      have hname := ih (.name (read ++ [u]))
      split_ifs <;> simp_all [Reading.pending] <;> omega

/-- A word that is a variable as a whole. -/
def isVariable : JsString → Bool
  | 36 :: u :: _ => u ≠ 123 && u ≠ 36
  | [36] => true
  | _ => false

/-- What an argument becomes. The value of a whole variable is split, and is nothing where the
variable is not set. -/
def expandWord (values : JsString → Option JsString) (word : JsString) : List JsString :=
  if isVariable word then
    (((values word.tail).getD []).splitOnP isSpace).filter (· ≠ [])
  else [replaceEnv (fun name ↦ (values name).getD []) .word word]

/-- An argument that nothing is expanded in. -/
def plainArgument (word : JsString) : Bool :=
  withoutSpecifiers word && !isVariable word && withoutVariables .word word

theorem expandWord_of_plain (specifiers : UInt16 → JsString) (values : JsString → Option JsString)
    {word : JsString} (h : plainArgument word = true) :
    expandWord values (expandSpecifiers specifiers word) = [word] := by
  obtain ⟨⟨hspecifiers, hvariable⟩, hvariables⟩ : (withoutSpecifiers word = true ∧
      isVariable word = false) ∧ withoutVariables .word word = true := by
    simpa [plainArgument] using h
  rw [expandSpecifiers_of_without _ hspecifiers, expandWord, if_neg (by simp [hvariable]),
    replaceEnv_of_without _ hvariables]
  rfl

theorem expandWord_of_variable {word : JsString} (h : isVariable word = true) :
    expandWord (fun _ ↦ none) word = [] := by
  rw [expandWord, if_pos h]
  rfl

theorem length_expandWord (word : JsString) : (expandWord (fun _ ↦ none) word).length ≤ 1 := by
  by_cases h : isVariable word = true
  · rw [expandWord_of_variable h]
    exact Nat.zero_le 1
  · rw [expandWord, if_neg h]
    exact le_rfl

theorem plain_of_expandWord {word : JsString}
    (h : expandWord (fun _ ↦ none) (expandSpecifiers (fun _ ↦ []) word) = [word]) :
    plainArgument word = true := by
  have hvariable : isVariable (expandSpecifiers (fun _ ↦ []) word) = false := by
    by_contra hvariable
    rw [expandWord_of_variable (by simpa using hvariable)] at h
    exact absurd h (by simp)
  rw [expandWord, if_neg (by simp [hvariable])] at h
  have hreplaced := List.singleton_inj.mp h
  have hlength := congrArg List.length hreplaced
  have hspecifiers := length_expandSpecifiers word
  have hvariables := length_replaceEnv .word (expandSpecifiers (fun _ ↦ []) word)
  simp only [Option.getD_none, Reading.pending, List.nil_append] at hlength hvariables
  have hwithout : withoutSpecifiers word = true := by
    by_contra hwith
    rw [if_neg hwith] at hspecifiers
    omega
  rw [expandSpecifiers_of_without _ hwithout] at hvariable hvariables hlength
  have hwords : withoutVariables .word word = true := by
    by_contra hwith
    rw [if_neg hwith] at hvariables
    omega
  simp [plainArgument, hwithout, hvariable, hwords]

/-- A list that each element gives at most one element of, and that is given again, is given element
by element. -/
theorem flatMap_eq_self {α : Type*} {f : α → List α} (hf : ∀ a, (f a).length ≤ 1) {l : List α}
    (h : l.flatMap f = l) : ∀ a ∈ l, f a = [a] := by
  have hshort : ∀ l : List α, (l.flatMap f).length ≤ l.length := by
    intro l
    induction l with
    | nil => exact le_rfl
    | cons a l ih =>
      have := hf a
      rw [List.flatMap_cons, List.length_append, List.length_cons]
      omega
  induction l with
  | nil => exact fun a ha ↦ absurd ha List.not_mem_nil
  | cons a l ih =>
    rw [List.flatMap_cons] at h
    rcases hfa : f a with _ | ⟨b, rest⟩
    · rw [hfa, List.nil_append] at h
      have := hshort l
      rw [h, List.length_cons] at this
      omega
    · have hone := hf a
      rw [hfa, List.length_cons] at hone
      rw [hfa, List.length_eq_zero_iff.mp (by omega : rest.length = 0), List.cons_append,
        List.nil_append] at h
      obtain ⟨rfl, hrest⟩ := List.cons.inj h
      rw [List.forall_mem_cons, hfa, List.length_eq_zero_iff.mp (by omega : rest.length = 0)]
      exact ⟨rfl, ih hrest⟩

/-! ## Command lines -/

/-- The special characters in front of a program. -/
def isSpecial (u : UInt16) : Bool := (js "@-:+!|").contains u

/-- The argument vector of a command line. With `@` the second word is taken as the name of the
program, and with `:` no variables are expanded. -/
def commandLine (specifiers : UInt16 → JsString) (values : JsString → Option JsString)
    (value : JsString) : Option (List JsString) :=
  match words value with
  | some (first :: rest) =>
    let special := first.takeWhile isSpecial
    let program := expandSpecifiers specifiers (first.dropWhile isSpecial)
    let arguments := (if 64 ∈ special then rest.tail else rest).map (expandSpecifiers specifiers)
    some (program :: if 58 ∈ special then arguments else arguments.flatMap (expandWord values))
  | _ => none

/-- A program that is left as it is. -/
def plainProgram (word : JsString) : Bool :=
  !(word.head?.any isSpecial) && withoutSpecifiers word

theorem takeWhile_special {program : JsString} (h : program.head?.any isSpecial = false) :
    program.takeWhile isSpecial = [] ∧ program.dropWhile isSpecial = program := by
  rcases program with _ | ⟨u, program⟩
  · exact ⟨rfl, rfl⟩
  · have hu : ¬isSpecial u = true := by simpa using h
    exact ⟨List.takeWhile_cons_of_neg hu, List.dropWhile_cons_of_neg hu⟩

theorem commandLine_of_plain (specifiers : UInt16 → JsString) (values : JsString → Option JsString)
    {value program : JsString} {arguments : List JsString}
    (hwords : words value = some (program :: arguments)) (hprogram : plainProgram program = true)
    (harguments : ∀ word ∈ arguments, plainArgument word = true) :
    commandLine specifiers values value = some (program :: arguments) := by
  obtain ⟨hspecial, hwithout⟩ := Bool.and_eq_true_iff.mp hprogram
  have hnone := takeWhile_special (by simpa using hspecial)
  simp only [commandLine, hwords, hnone.1, hnone.2, expandSpecifiers_of_without _ hwithout,
    List.not_mem_nil, if_false, List.flatMap_map]
  rw [List.flatMap_congr fun word hword ↦ expandWord_of_plain specifiers values
    (harguments word hword), List.flatMap_singleton']

theorem plain_of_commandLine {value program : JsString} {arguments : List JsString}
    (hwords : words value = some (program :: arguments))
    (h : commandLine (fun _ ↦ []) (fun _ ↦ none) value = some (program :: arguments)) :
    plainProgram program = true ∧ ∀ word ∈ arguments, plainArgument word = true := by
  simp only [commandLine, hwords] at h
  obtain ⟨hprogram, harguments⟩ := List.cons.inj (Option.some.inj h)
  have hlength := congrArg List.length hprogram
  have hspecifiers := length_expandSpecifiers (program.dropWhile isSpecial)
  -- nothing special was taken from the front
  have hspecial : program.head?.any isSpecial = false := by
    rcases program with _ | ⟨u, program⟩
    · rfl
    · by_contra hu
      rw [List.dropWhile_cons_of_pos (by simpa using hu)] at hspecifiers hlength
      have := (List.dropWhile_sublist isSpecial (l := program)).length_le
      rw [List.length_cons] at hlength
      omega
  have hnone := takeWhile_special hspecial
  rw [hnone.2] at hspecifiers hlength
  have hwithout : withoutSpecifiers program = true := by
    by_contra hwith
    rw [if_neg hwith] at hspecifiers
    omega
  refine ⟨by simp [plainProgram, hspecial, hwithout], fun word hword ↦ ?_⟩
  simp only [hnone.1, List.not_mem_nil, if_false, List.flatMap_map] at harguments
  exact plain_of_expandWord
    (flatMap_eq_self (fun word ↦ length_expandWord _) harguments word hword)

/-- The variable that a setting of the environment assigns. -/
def environment (specifiers : UInt16 → JsString) (name value : JsString) : Option JsString :=
  (words value).bind fun found ↦ (found.map (expandSpecifiers specifiers)).findSome? fun word ↦
    if name ++ [61] <+: word then some (word.drop (name.length + 1)) else none

theorem environment_of_words (specifiers : UInt16 → JsString) {name value text : JsString}
    (hname : 37 ∉ name) (hwords : words value = some [name ++ 61 :: text]) :
    environment specifiers name value = some (expandSpecifiers specifiers text) := by
  have hfront : 37 ∉ name ++ [61] := by simpa using hname
  have hword : expandSpecifiers specifiers (name ++ 61 :: text) =
      (name ++ [61]) ++ expandSpecifiers specifiers text := by
    rw [← expandSpecifiers_append specifiers hfront, List.append_assoc, List.singleton_append]
  rw [environment, hwords, Option.bind_some, List.map_singleton, hword, List.findSome?_cons,
    if_pos (List.prefix_append _ _), List.drop_left' (by rw [List.length_append]; rfl)]

/-- A directory is one word. -/
def directory (specifiers : UInt16 → JsString) (value : JsString) : Option JsString :=
  match words value with
  | some [word] => some (expandSpecifiers specifiers word)
  | _ => none

end LiteHarness.Systemd
