import LiteHarness.Operations.UserService

/-!
# What is read back from a service definition

`systemdCommand` quotes so that every value is a word again, and a unit is read setting by setting;
what is left to systemd is expansion, so a unit is read back just when there is nothing to expand
(`readUnit_iff`). `windowsArguments` does not escape backslashes: counting the backslashes and the
quotes that arguments give shows that they are read back just when none of their backslashes meets a
quote (`splitArguments_windowsArguments_iff`). In XML a character is an entity or itself, so every
text is read back (`unescape_xml`).
-/

namespace LiteHarness.Operations

theorem replaceAll_cons (u : UInt16) (replacement : JsString) (v : UInt16) (text : JsString) :
    replaceAll u replacement (v :: text) =
      (if v = u then replacement else [v]) ++ replaceAll u replacement text := List.flatMap_cons

theorem replaceAll_append (u : UInt16) (replacement s t : JsString) :
    replaceAll u replacement (s ++ t) = replaceAll u replacement s ++ replaceAll u replacement t :=
  List.flatMap_append

theorem mem_replaceAll {u v : UInt16} {replacement text : JsString}
    (h : v ∈ replaceAll u replacement text) : v ∈ replacement ∨ v ∈ text := by
  obtain ⟨w, hw, hv⟩ := List.mem_flatMap.mp h
  split_ifs at hv
  · exact Or.inl hv
  · exact Or.inr (List.mem_singleton.mp hv ▸ hw)

/-! ## Words of systemd -/

section

open Systemd

/-- Inside of quotes every character is read back. -/
theorem foldlM_escaped (words : List JsString) (word value : JsString) :
    (replaceAll 34 [92, 34] (replaceAll 92 [92, 92] value)).foldlM Splitting.step
      ⟨words, some word, some 34, false⟩ = some ⟨words, some (word ++ value), some 34, false⟩ := by
  induction value generalizing word with
  | nil => rw [List.append_nil]; rfl
  | cons u value ih =>
    have hone : (replaceAll 34 [92, 34] (if u = 92 then [92, 92] else [u])).foldlM Splitting.step
        ⟨words, some word, some 34, false⟩ = some ⟨words, some (word ++ [u]), some 34, false⟩ := by
      by_cases hslash : u = 92
      · subst hslash
        simp [replaceAll, Splitting.step, Splitting.add, unescaped]
      by_cases hquote : u = 34
      · subst hquote
        simp [replaceAll, Splitting.step, Splitting.add, unescaped]
      · simp [replaceAll, Splitting.step, Splitting.add, hslash, hquote, Ne.symm hquote]
    rw [replaceAll_cons, replaceAll_append, List.foldlM_append, hone]
    refine (ih (word ++ [u])).trans ?_
    rw [List.append_assoc, List.singleton_append]

theorem foldlM_systemdValue (words : List JsString) (value : JsString) :
    (systemdValue value).foldlM Splitting.step ⟨words, none, none, false⟩ =
      some ⟨words, some value, none, false⟩ := by
  rw [systemdValue, List.foldlM_cons]
  refine Eq.trans (b := (replaceAll 34 [92, 34] (replaceAll 92 [92, 92] value) ++ [34]).foldlM
    Splitting.step ⟨words, some [], some 34, false⟩) rfl ?_
  rw [List.foldlM_append, foldlM_escaped]
  rfl

theorem foldlM_values (words : List JsString) (value : JsString) (values : List JsString) :
    ([32].intercalate ((value :: values).map systemdValue)).foldlM Splitting.step
      ⟨words, none, none, false⟩ =
        some ⟨words ++ (value :: values).dropLast, (value :: values).getLast?, none, false⟩ := by
  induction values generalizing words value with
  | nil => simpa using foldlM_systemdValue words value
  | cons next values ih =>
    rw [List.map_cons, List.map_cons, List.intercalate_cons_cons, List.append_assoc,
      List.foldlM_append, foldlM_systemdValue]
    -- the space ends the word
    refine Eq.trans (b := ([32].intercalate ((next :: values).map systemdValue)).foldlM
      Splitting.step ⟨words ++ [value], none, none, false⟩) rfl ?_
    rw [ih]
    simp

/-- **`systemdCommand`** is read back, whatever the values are. -/
theorem words_systemdCommand (command : JsString) (args : List JsString) :
    words (systemdCommand command args) = some (command :: args) := by
  rw [words, systemdCommand]
  refine (congrArg (fun found ↦ Option.bind found _) (foldlM_values [] command args)).trans ?_
  obtain ⟨last, hlast⟩ : ∃ last, (command :: args).getLast? = some last := ⟨_, List.getLast?_cons⟩
  rw [Option.bind_some, hlast]
  refine congrArg some ?_
  exact List.dropLast_append_getLast? last hlast

theorem words_systemdValue (value : JsString) : words (systemdValue value) = some [value] := by
  have h := words_systemdCommand value []
  rwa [systemdCommand, List.map_singleton, List.intercalate_singleton] at h

theorem mem_systemdValue {u : UInt16} {value : JsString} (h : u ∈ systemdValue value) :
    u = 34 ∨ u = 92 ∨ u ∈ value := by
  rw [systemdValue, List.mem_cons, List.mem_append, List.mem_singleton] at h
  rcases h with rfl | h | rfl
  · exact Or.inl rfl
  · rcases mem_replaceAll h with h | h
    · simp only [List.mem_cons, List.not_mem_nil, or_false] at h
      exact h.symm.imp_right Or.inl
    · rcases mem_replaceAll h with h | h
      · simp only [List.mem_cons, List.not_mem_nil, or_false, or_self] at h
        exact Or.inr (Or.inl h)
      · exact Or.inr (Or.inr h)
  · exact Or.inl rfl

theorem lineFeed_notMem_systemdCommand {command : JsString} {args : List JsString}
    (h : ∀ value ∈ command :: args, 10 ∉ value) : 10 ∉ systemdCommand command args := by
  have hvalue : ∀ value ∈ command :: args, 10 ∉ systemdValue value := fun value hvalue hmem ↦ by
    rcases mem_systemdValue hmem with hmem | hmem | hmem
    · exact absurd hmem (by decide)
    · exact absurd hmem (by decide)
    · exact h value hvalue hmem
  rw [systemdCommand]
  generalize command :: args = values at hvalue
  induction values with
  | nil => exact List.not_mem_nil
  | cons value values ih =>
    rw [List.forall_mem_cons] at hvalue
    rcases values with _ | ⟨next, values⟩
    · rw [List.map_singleton, List.intercalate_singleton]
      exact hvalue.1
    · rw [List.map_cons, List.map_cons, List.intercalate_cons_cons, List.append_assoc,
        List.mem_append, List.mem_append, not_or, not_or]
      exact ⟨hvalue.1, by decide, ih hvalue.2⟩

variable {root dataDir node : JsString} {args : List JsString}

/-- The lines of a unit before the directory, and those behind the command. -/
def unitHead : List JsString :=
  [js "[Unit]", js "Description=Lite-Harness local agent service", js "After=docker.service", [],
    js "[Service]", js "Type=simple"]

def unitTail : List JsString :=
  [js "Restart=on-failure", js "RestartSec=3", js "NoNewPrivileges=true", [], js "[Install]",
    js "WantedBy=default.target"]

/-- The lines of a unit. -/
def unitLines (root dataDir node : JsString) (args : List JsString) : List JsString :=
  unitHead ++ (js "WorkingDirectory" ++ 61 :: systemdValue root) ::
    (js "Environment" ++ 61 :: systemdValue (js "LITE_HARNESS_DATA_DIR=" ++ dataDir)) ::
    (js "ExecStart" ++ 61 :: systemdCommand node args) :: unitTail

theorem systemdUnit_eq :
    systemdUnit root dataDir node args =
      (unitLines root dataDir node args).flatMap (· ++ [10]) := by
  have hhead :
      js "[Unit]\nDescription=Lite-Harness local agent service\nAfter=docker.service\n\n" ++
        js "[Service]\nType=simple\nWorkingDirectory=" =
        unitHead.flatMap (· ++ [10]) ++ (js "WorkingDirectory" ++ [61]) := by decide +kernel
  have htail : js "\nRestart=on-failure\nRestartSec=3\nNoNewPrivileges=true\n\n" ++
      js "[Install]\nWantedBy=default.target\n" = 10 :: unitTail.flatMap (· ++ [10]) := by
    decide +kernel
  have henvironment : js "\nEnvironment=" = 10 :: (js "Environment" ++ [61]) := by decide +kernel
  have hcommand : js "\nExecStart=" = 10 :: (js "ExecStart" ++ [61]) := by decide +kernel
  rw [systemdUnit, unitLines, List.flatten_cons, List.flatten_cons, ← List.append_assoc, hhead,
    henvironment, hcommand]
  simp [htail]

theorem lineFeed_notMem_unitLines (hroot : 10 ∉ root) (hdataDir : 10 ∉ dataDir)
    (hcommand : ∀ value ∈ node :: args, 10 ∉ value) :
    ∀ line ∈ unitLines root dataDir node args, 10 ∉ line := by
  have hvalue {value : JsString} (h : 10 ∉ value) : 10 ∉ systemdValue value := fun hmem ↦ by
    simpa [h] using mem_systemdValue hmem
  have hassignment : 10 ∉ js "LITE_HARNESS_DATA_DIR=" ++ dataDir := by
    rw [List.mem_append, not_or]
    exact ⟨by decide +kernel, hdataDir⟩
  have hset {key value : JsString} (hkey : 10 ∉ key) (h : 10 ∉ value) :
      10 ∉ key ++ 61 :: value := by
    rw [List.mem_append, List.mem_cons, not_or, not_or]
    exact ⟨hkey, by decide, h⟩
  intro line hline
  rw [unitLines, List.mem_append] at hline
  rcases hline with hline | hline
  · exact (by decide +kernel : ∀ line ∈ unitHead, (10 : UInt16) ∉ line) line hline
  simp only [List.mem_cons] at hline
  rcases hline with rfl | rfl | rfl | hline
  · exact hset (by decide +kernel) (hvalue hroot)
  · exact hset (by decide +kernel) (hvalue hassignment)
  · exact hset (by decide +kernel) (lineFeed_notMem_systemdCommand hcommand)
  · exact (by decide +kernel : ∀ line ∈ unitTail, (10 : UInt16) ∉ line) line hline

/-- A unit is read setting by setting. -/
theorem readUnit_systemdUnit (expansion : Expansion) (hroot : 10 ∉ root) (hdataDir : 10 ∉ dataDir)
    (hcommand : ∀ value ∈ node :: args, 10 ∉ value) :
    readUnit expansion (systemdUnit root dataDir node args) =
      (commandLine expansion.specifiers expansion.environment (systemdCommand node args)).map
        fun arguments ↦ ⟨arguments, expandSpecifiers expansion.specifiers root,
          some (expandSpecifiers expansion.specifiers dataDir)⟩ := by
  have hlines := lineFeed_notMem_unitLines hroot hdataDir hcommand
  have hdirectory : setting (js "WorkingDirectory") (systemdUnit root dataDir node args) =
      some (systemdValue root) := by
    rw [systemdUnit_eq]
    exact setting_of_line hlines (by decide +kernel)
  have henvironment : setting (js "Environment") (systemdUnit root dataDir node args) =
      some (systemdValue (js "LITE_HARNESS_DATA_DIR=" ++ dataDir)) := by
    rw [systemdUnit_eq, unitLines, List.append_cons unitHead]
    rw [unitLines, List.append_cons unitHead] at hlines
    refine setting_of_line hlines fun line hline ↦ ?_
    rcases List.mem_append.mp hline with hline | hline
    · exact (by decide +kernel : ∀ line ∈ unitHead, ¬js "Environment" ++ [61] <+: line) line hline
    · rw [List.mem_singleton.mp hline]
      exact not_prefix_append (by decide +kernel) (by decide +kernel) _
  have hexec : setting (js "ExecStart") (systemdUnit root dataDir node args) =
      some (systemdCommand node args) := by
    rw [systemdUnit_eq, unitLines, List.append_cons unitHead, List.append_cons (unitHead ++ [_])]
    rw [unitLines, List.append_cons unitHead, List.append_cons (unitHead ++ [_])] at hlines
    refine setting_of_line hlines fun line hline ↦ ?_
    rw [List.append_assoc, List.mem_append] at hline
    rcases hline with hline | hline
    · exact (by decide +kernel : ∀ line ∈ unitHead, ¬js "ExecStart" ++ [61] <+: line) line hline
    · simp only [List.singleton_append, List.mem_cons, List.not_mem_nil, or_false] at hline
      rcases hline with rfl | rfl
      · exact not_prefix_append (by decide +kernel) (by decide +kernel) _
      · exact not_prefix_append (by decide +kernel) (by decide +kernel) _
  have hassignment : js "LITE_HARNESS_DATA_DIR=" ++ dataDir = dataDirVariable ++ 61 :: dataDir := by
    have hname : js "LITE_HARNESS_DATA_DIR=" = dataDirVariable ++ [61] := by decide +kernel
    rw [hname, List.append_assoc, List.singleton_append]
  rw [readUnit, hdirectory, henvironment, hexec, hassignment]
  simp only [Option.bind_some, directory, words_systemdValue,
    environment_of_words expansion.specifiers (by decide +kernel)
      (words_systemdValue (dataDirVariable ++ 61 :: dataDir))]
  rcases commandLine expansion.specifiers expansion.environment (systemdCommand node args) with
    _ | arguments <;> rfl

/-- **A unit** is read back under every expansion just when there is nothing to expand in it. -/
theorem readUnit_iff (hroot : 10 ∉ root) (hdataDir : 10 ∉ dataDir)
    (hcommand : ∀ value ∈ node :: args, 10 ∉ value) :
    (∀ expansion, readUnit expansion (systemdUnit root dataDir node args) =
        some ⟨node :: args, root, some dataDir⟩) ↔
      withoutSpecifiers root = true ∧ withoutSpecifiers dataDir = true ∧
        plainProgram node = true ∧ ∀ value ∈ args, plainArgument value = true := by
  have hwords := words_systemdCommand node args
  constructor
  · intro h
    have hempty := h ⟨fun _ ↦ [], fun _ ↦ none⟩
    rw [readUnit_systemdUnit _ hroot hdataDir hcommand] at hempty
    obtain ⟨arguments, harguments, hread⟩ := Option.map_eq_some_iff.mp hempty
    obtain ⟨rfl, hdirectory, hassigned⟩ := ServiceStart.mk.inj hread
    exact ⟨withoutSpecifiers_of_eq hdirectory, withoutSpecifiers_of_eq (Option.some.inj hassigned),
      plain_of_commandLine hwords harguments⟩
  · rintro ⟨hdirectory, hassigned, hprogram, harguments⟩ expansion
    rw [readUnit_systemdUnit _ hroot hdataDir hcommand,
      commandLine_of_plain _ _ hwords hprogram harguments, expandSpecifiers_of_without _ hdirectory,
      expandSpecifiers_of_without _ hassigned]
    rfl

end

/-! ## Arguments on Windows -/

section

open Windows

/-- Backslashes that were read do not meet a quote. -/
def Apart (slashes : ℕ) (value : JsString) : Prop :=
  slashes = 0 ∨ value.head?.any (· ≠ 34) = true

theorem apart_of_keepsSlashes {value : JsString} (slashes : ℕ)
    (h : keepsSlashes (92 :: value) = true) : Apart slashes value ∧ keepsSlashes value = true := by
  rw [keepsSlashes, Bool.and_eq_true] at h
  exact ⟨Or.inr (by simpa using h.1), h.2⟩

/-- A value without such backslashes is read to its closing quote. -/
theorem foldl_quoted {value : JsString} (h : keepsSlashes value = true) {slashes : ℕ}
    (hapart : Apart slashes value) (before : List JsString) (argument : JsString) :
    (replaceAll 34 [92, 34] value ++ [34]).foldl Splitting.step
      ⟨before, some argument, true, slashes⟩ =
        ⟨before, some (argument ++ List.replicate slashes 92 ++ value), false, 0⟩ := by
  induction value generalizing slashes argument with
  | nil =>
    have hnone : slashes = 0 := hapart.resolve_right (by simp)
    subst hnone
    rw [replaceAll, List.flatMap_nil, List.nil_append, List.foldl_cons, Splitting.step_quote rfl]
    simp
  | cons u value ih =>
    rw [replaceAll_cons, List.append_assoc]
    by_cases hslash : u = 92
    · subst hslash
      obtain ⟨hnext, hvalue⟩ := apart_of_keepsSlashes (slashes + 1) h
      rw [if_neg (by decide), List.singleton_append, List.foldl_cons, Splitting.step_slash,
        ih hvalue hnext argument, List.replicate_succ']
      simp
    have hvalue : keepsSlashes value = true := by
      rw [keepsSlashes, Bool.and_eq_true] at h
      exact h.2
    by_cases hquote : u = 34
    · subst hquote
      have hnone : slashes = 0 := hapart.resolve_right (by simp)
      subst hnone
      -- the backslash in front of it makes the quote a character
      rw [if_pos rfl, List.cons_append, List.singleton_append, List.foldl_cons, List.foldl_cons,
        Splitting.step_slash, Splitting.step_literal rfl, ih hvalue (Or.inl rfl)]
      simp
    · rw [if_neg hquote, List.singleton_append, List.foldl_cons,
        Splitting.step_quoted rfl hslash hquote]
      refine (ih hvalue (Or.inl rfl) _).trans ?_
      simp

/-- An argument in its quotes. -/
theorem foldl_argument {value : JsString} (h : keepsSlashes value = true)
    (before : List JsString) :
    (34 :: (replaceAll 34 [92, 34] value ++ [34])).foldl Splitting.step ⟨before, none, false, 0⟩ =
      ⟨before, some value, false, 0⟩ := by
  rw [List.foldl_cons, Splitting.step_quote rfl]
  exact foldl_quoted h (Or.inl rfl) before []

theorem foldl_arguments {value : JsString} {args : List JsString}
    (h : ∀ argument ∈ value :: args, keepsSlashes argument = true) (before : List JsString) :
    (List.foldl Splitting.step ⟨before, none, false, 0⟩
      (windowsArguments (value :: args))).close.arguments = before ++ value :: args := by
  rw [windowsArguments]
  induction args generalizing value before with
  | nil =>
    rw [List.map_singleton, List.intercalate_singleton, foldl_argument (h value List.mem_cons_self)]
    simp [Splitting.close]
  | cons next args ih =>
    rw [List.forall_mem_cons] at h
    rw [List.map_cons, List.map_cons, List.intercalate_cons_cons, List.append_assoc,
      List.foldl_append, foldl_argument h.1, List.singleton_append, List.foldl_cons,
      Splitting.step_space rfl]
    have hclose : Splitting.close ⟨before, some value, false, 0⟩ =
        ⟨before ++ [value], none, false, 0⟩ := by simp [Splitting.close]
    rw [hclose]
    refine (ih h.2 (before ++ [value])).trans ?_
    simp

/-- How many backslashes and quotes a value gives up to its closing quote. It gives no more
backslashes than it has, and with as many of them no more quotes, and with as many of both it has
no backslash in front of a quote. -/
theorem written_quoted (value : JsString) (slashes : ℕ) (rest : JsString) :
    ∃ n m, written 92 slashes (replaceAll 34 [92, 34] value ++ 34 :: rest) = n + written 92 0 rest ∧
      written 34 slashes (replaceAll 34 [92, 34] value ++ 34 :: rest) = m + written 34 0 rest ∧
      n ≤ slashes + value.count 92 ∧ (n = slashes + value.count 92 → m ≤ value.count 34 ∧
        (m = value.count 34 → keepsSlashes value = true ∧ Apart slashes value)) := by
  induction value generalizing slashes with
  | nil =>
    refine ⟨slashes / 2, slashes % 2, ?_⟩
    rw [replaceAll, List.flatMap_nil, List.nil_append, written, if_neg (by decide), if_pos rfl,
      written, if_neg (by decide), if_pos rfl]
    refine ⟨by simp [List.count_replicate], by simp [List.count_replicate], by simp; omega, ?_⟩
    rw [List.count_nil, List.count_nil]
    exact fun h ↦ ⟨by omega, fun _ ↦ ⟨rfl, Or.inl (by omega)⟩⟩
  | cons u value ih =>
    rw [replaceAll_cons, List.append_assoc]
    by_cases hslash : u = 92
    · subst hslash
      obtain ⟨n, m, hn, hm, hle, hfull⟩ := ih (slashes + 1)
      refine ⟨n, m, hn, hm, by rw [List.count_cons_self]; omega, fun hcount ↦ ?_⟩
      rw [List.count_cons_self] at hcount
      rw [List.count_cons_of_ne (by decide)]
      obtain ⟨hquotes, hkeeps⟩ := hfull (by omega)
      refine ⟨hquotes, fun hcount ↦ ?_⟩
      obtain ⟨hvalue, hapart⟩ := hkeeps hcount
      have hnext := hapart.resolve_left (Nat.succ_ne_zero slashes)
      exact ⟨by rw [keepsSlashes, hvalue, hnext]; rfl, Or.inr rfl⟩
    by_cases hquote : u = 34
    · subst hquote
      obtain ⟨n, m, hn, hm, hle, hfull⟩ := ih 0
      refine ⟨(slashes + 1) / 2 + n, (slashes + 1) % 2 + m, ?_, ?_, ?_, fun hcount ↦ ?_⟩
      · rw [if_pos rfl, List.cons_append, List.singleton_append, written, if_pos rfl, written,
          if_neg (by decide), if_pos rfl, hn]
        simp [List.count_replicate, Nat.add_assoc]
      · rw [if_pos rfl, List.cons_append, List.singleton_append, written, if_pos rfl, written,
          if_neg (by decide), if_pos rfl, hm]
        simp [List.count_replicate, Nat.add_assoc]
      · rw [List.count_cons_of_ne (by decide)]
        omega
      · rw [List.count_cons_of_ne (by decide)] at hcount
        rw [List.count_cons_self]
        -- one backslash in front of the quote is kept, and the quote is not
        obtain ⟨hquotes, hkeeps⟩ := hfull (by omega)
        refine ⟨by omega, fun hcount' ↦ ?_⟩
        obtain ⟨hvalue, -⟩ := hkeeps (by omega)
        exact ⟨by rw [keepsSlashes, hvalue]; rfl, Or.inl (by omega)⟩
    · obtain ⟨n, m, hn, hm, hle, hfull⟩ := ih 0
      refine ⟨slashes + n, m, ?_, ?_, ?_, fun hcount ↦ ?_⟩
      · rw [if_neg hquote, List.singleton_append, written, if_neg hslash, if_neg hquote, hn]
        simp [Nat.add_assoc]
      · rw [if_neg hquote, List.singleton_append, written, if_neg hslash, if_neg hquote, hm]
        simp [List.count_replicate]
      · rw [List.count_cons_of_ne hslash]
        omega
      · rw [List.count_cons_of_ne hslash] at hcount
        rw [List.count_cons_of_ne hquote]
        obtain ⟨hquotes, hkeeps⟩ := hfull (by omega)
        refine ⟨hquotes, fun hcount ↦ ⟨?_, Or.inr (by simpa using hquote)⟩⟩
        rw [keepsSlashes, (hkeeps hcount).1]
        simp [hslash]

/-- The same, of all arguments. -/
theorem written_windowsArguments (value : JsString) (args : List JsString) :
    written 92 0 (windowsArguments (value :: args)) ≤ (value :: args).flatten.count 92 ∧
      (written 92 0 (windowsArguments (value :: args)) = (value :: args).flatten.count 92 →
        written 34 0 (windowsArguments (value :: args)) ≤ (value :: args).flatten.count 34 ∧
          (written 34 0 (windowsArguments (value :: args)) = (value :: args).flatten.count 34 →
            ∀ argument ∈ value :: args, keepsSlashes argument = true)) := by
  have hopen (c : UInt16) (text : JsString) : written c 0 (34 :: text) = written c 0 text := by
    rw [written, if_neg (by decide), if_pos rfl]
    simp
  have hspace (c : UInt16) (text : JsString) : written c 0 (32 :: text) = written c 0 text := by
    rw [written, if_neg (by decide), if_neg (by decide)]
    simp
  have hend (c : UInt16) : written c 0 [] = 0 := by
    rw [written]
    simp
  induction args generalizing value with
  | nil =>
    obtain ⟨n, m, hn, hm, hle, hfull⟩ := written_quoted value 0 []
    rw [hend] at hn hm
    rw [windowsArguments, List.map_singleton, List.intercalate_singleton, hopen, hopen, hn, hm,
      List.flatten_singleton, List.forall_mem_singleton]
    refine ⟨by omega, fun hcount ↦ ?_⟩
    obtain ⟨hquotes, hkeeps⟩ := hfull (by omega)
    exact ⟨hquotes, fun hcount ↦ (hkeeps (by omega)).1⟩
  | cons next args ih =>
    obtain ⟨hle', hfull'⟩ := ih next
    obtain ⟨n, m, hn, hm, hle, hfull⟩ :=
      written_quoted value 0 (32 :: windowsArguments (next :: args))
    have hline : windowsArguments (value :: next :: args) =
        34 :: (replaceAll 34 [92, 34] value ++ 34 :: 32 :: windowsArguments (next :: args)) := by
      simp [windowsArguments, List.intercalate_cons_cons]
    rw [hspace] at hn hm
    rw [hline, hopen, hopen, hn, hm, List.flatten_cons, List.count_append, List.count_append,
      List.forall_mem_cons]
    refine ⟨by omega, fun hcount ↦ ?_⟩
    obtain ⟨hquotes, hkeeps⟩ := hfull (by omega)
    obtain ⟨hquotes', hkeeps'⟩ := hfull' (by omega)
    exact ⟨by omega, fun hcount ↦ ⟨(hkeeps (by omega)).1, hkeeps' (by omega)⟩⟩

/-- **`windowsArguments`** is read back just when no backslash meets a quote. -/
theorem splitArguments_windowsArguments_iff (value : JsString) (args : List JsString) :
    splitArguments (windowsArguments (value :: args)) = value :: args ↔
      ∀ argument ∈ value :: args, keepsSlashes argument = true := by
  constructor
  · intro h
    have hslashes := count_splitArguments (Or.inl rfl) (windowsArguments (value :: args))
    have hquotes := count_splitArguments (Or.inr rfl) (windowsArguments (value :: args))
    rw [h] at hslashes hquotes
    obtain ⟨-, hfull⟩ := written_windowsArguments value args
    exact (hfull hslashes.symm).2 hquotes.symm
  · exact fun h ↦ foldl_arguments h []

end

/-! ## Texts in XML -/

section

open Xml

theorem xml_append (s t : JsString) : xml (s ++ t) = xml s ++ xml t := by
  simp only [xml, replaceAll_append]

/-- A character is an entity or itself. -/
theorem xml_singleton (u : UInt16) :
    (∃ name, entity name = some u ∧ xml [u] = 38 :: (name ++ [59]) ∧ 59 ∉ name ∧ 60 ∉ name) ∨
      xml [u] = [u] ∧ u ≠ 38 ∧ u ≠ 60 := by
  by_cases hamp : u = 38
  · exact Or.inl ⟨js "amp", by subst hamp; decide +kernel⟩
  by_cases hlt : u = 60
  · exact Or.inl ⟨js "lt", by subst hlt; decide +kernel⟩
  by_cases hgt : u = 62
  · exact Or.inl ⟨js "gt", by subst hgt; decide +kernel⟩
  by_cases hquot : u = 34
  · exact Or.inl ⟨js "quot", by subst hquot; decide +kernel⟩
  · exact Or.inr ⟨by simp [xml, replaceAll, hamp, hlt, hgt, hquot], hamp, hlt⟩

theorem unescape_name {name : JsString} (h : 59 ∉ name) (read text : JsString) :
    Xml.unescape (some read) (name ++ 59 :: text) =
      (entity (read ++ name)).bind fun v ↦ (Xml.unescape none text).map (v :: ·) := by
  induction name generalizing read with
  | nil => rw [List.append_nil, List.nil_append, Xml.unescape, if_pos rfl]
  | cons u name ih =>
    rw [List.mem_cons, not_or] at h
    rw [List.cons_append, Xml.unescape, if_neg (Ne.symm h.1), ih h.2, List.append_assoc,
      List.singleton_append]

theorem unescape_xml (text : JsString) : Xml.unescape none (xml text) = some text := by
  induction text with
  | nil => rfl
  | cons u text ih =>
    rw [← List.singleton_append, xml_append]
    rcases xml_singleton u with ⟨name, hname, hu, hend, -⟩ | ⟨hu, hamp, -⟩
    · rw [hu, List.cons_append, List.append_assoc, List.singleton_append, Xml.unescape, if_pos rfl,
        unescape_name hend, List.nil_append, hname, ih]
      rfl
    · rw [hu, List.singleton_append, Xml.unescape, if_neg hamp, ih]
      rfl

theorem bracket_notMem_xml (text : JsString) : 60 ∉ xml text := by
  induction text with
  | nil => exact List.not_mem_nil
  | cons u text ih =>
    rw [← List.singleton_append, xml_append, List.mem_append, not_or]
    refine ⟨?_, ih⟩
    rcases xml_singleton u with ⟨name, -, hu, -, hname⟩ | ⟨hu, -, hlt⟩
    · rw [hu]
      simpa using hname
    · rw [hu]
      simpa using Ne.symm hlt

end

end LiteHarness.Operations
