import Mathlib.Data.List.TakeWhile
import LiteHarness.Foundation.Blocks
import LiteHarness.ProcessRpc.Framing
import LiteHarness.ProcessRpc.Instances

/-!
# Runs of the reader of standard output

A reader is right in every state that a run reaches whose steps are orderly. The invariant speaks of
one instance at a time: the lines that were handled, followed by what the buffer holds of the
instance, are its text. The buffer then never holds output of two instances, since output only
arrives when the buffer has none of another one.
-/

namespace LiteHarness.ProcessRpc

open Foundation JsonLineRpcClient

namespace LineReader

/-! ## Lines -/

section Lines

variable {max : ℕ} {parse : JsString → Option JsValue}

theorem messages_cons (complete : JsString) {lines : List JsString} (h : lines ≠ []) :
    messages max parse (complete :: lines) =
      if max < byteLength (withoutReturnUnit complete) then ([], true)
      else if trim (withoutReturnUnit complete) = [] then messages max parse lines
      else
        match parse (withoutReturnUnit complete) with
        | none => ([], true)
        | some message =>
          (message :: (messages max parse lines).1, (messages max parse lines).2) := by
  rcases lines with _ | ⟨next, lines⟩
  · exact absurd rfl h
  · exact messages.eq_3 max parse complete next lines

/-- A line that is too large is a protocol error, complete or not. -/
theorem messages_oversize {line : JsString} (h : max < byteLength (withoutReturnUnit line))
    (lines : List JsString) : messages max parse (line :: lines) = ([], true) := by
  rcases lines with _ | ⟨next, lines⟩
  · rw [messages, decide_eq_true h]
  · rw [messages_cons line (List.cons_ne_nil _ _), if_pos h]

variable (max parse) in
/-- Some complete lines without a protocol error, and their messages. -/
def Clean (lines : List JsString) (handled : List JsValue) : Prop :=
  ∀ rest ≠ [], messages max parse (lines ++ rest)
    = (handled ++ (messages max parse rest).1, (messages max parse rest).2)

theorem clean_nil : Clean max parse [] [] := fun _ _ ↦ rfl

theorem Clean.blank {lines : List JsString} {handled : List JsValue}
    (h : Clean max parse lines handled) {line : JsString}
    (hsize : ¬ max < byteLength (withoutReturnUnit line))
    (hblank : trim (withoutReturnUnit line) = []) : Clean max parse (lines ++ [line]) handled := by
  intro rest hrest
  rw [List.append_assoc, List.singleton_append, h _ (List.cons_ne_nil _ _),
    messages_cons line hrest, if_neg hsize, if_pos hblank]

theorem Clean.message {lines : List JsString} {handled : List JsValue}
    (h : Clean max parse lines handled) {line : JsString} {message : JsValue}
    (hsize : ¬ max < byteLength (withoutReturnUnit line))
    (hblank : trim (withoutReturnUnit line) ≠ [])
    (hparse : parse (withoutReturnUnit line) = some message) :
    Clean max parse (lines ++ [line]) (handled ++ [message]) := by
  intro rest hrest
  rw [List.append_assoc, List.singleton_append, h _ (List.cons_ne_nil _ _),
    messages_cons line hrest, if_neg hsize, if_neg hblank, hparse, List.append_assoc]
  rfl

variable (max parse) in
/-- A text has shown its first protocol error behind some messages, whatever is added to it. -/
def Faulty (text : JsString) (handled : List JsValue) : Prop :=
  ∀ more, messages max parse ((text ++ more).splitOn lineFeed) = (handled, true)

theorem Faulty.append {text : JsString} {handled : List JsValue}
    (h : Faulty max parse text handled) (t : JsString) : Faulty max parse (text ++ t) handled := by
  intro more
  rw [List.append_assoc]
  exact h _

/-- A line that is complete and bad is a protocol error. -/
theorem faulty_of_line {text line : JsString} {lines rest : List JsString}
    {handled : List JsValue} (hclean : Clean max parse lines handled)
    (hsplit : text.splitOn lineFeed = lines ++ line :: rest) (hrest : rest ≠ [])
    (hbad : max < byteLength (withoutReturnUnit line) ∨
      trim (withoutReturnUnit line) ≠ [] ∧ parse (withoutReturnUnit line) = none) :
    Faulty max parse text handled := by
  intro more
  obtain ⟨rest, last, rfl⟩ : ∃ init last, rest = init ++ [last] :=
    ⟨rest.dropLast, rest.getLast hrest, (List.dropLast_concat_getLast hrest).symm⟩
  rw [← List.cons_append, ← List.append_assoc] at hsplit
  rw [splitOn_append hsplit, List.append_assoc, hclean _ (by simp), List.cons_append,
    messages_cons line (by simp [List.splitOn_ne_nil])]
  by_cases hsize : max < byteLength (withoutReturnUnit line)
  · rw [if_pos hsize, List.append_nil]
  · obtain ⟨hblank, hparse⟩ := hbad.resolve_left hsize
    rw [if_neg hsize, if_neg hblank, hparse, List.append_nil]

theorem withoutReturnUnit_isPrefix (line : JsString) : withoutReturnUnit line <+: line := by
  rw [withoutReturnUnit]
  split_ifs
  · exact List.dropLast_prefix line
  · exact List.prefix_refl line

/-- A line that goes on is no shorter without its carriage return. -/
theorem withoutReturnUnit_append (line more : JsString) :
    withoutReturnUnit line <+: withoutReturnUnit (line ++ more) := by
  rcases List.eq_nil_or_concat more with rfl | ⟨more, u, rfl⟩
  · exact (List.append_nil line).symm ▸ List.prefix_refl _
  · rw [List.concat_eq_append, ← List.append_assoc,
      withoutReturnUnit.eq_def (line ++ more ++ [u])]
    have hprefix : withoutReturnUnit line <+: line ++ more :=
      (withoutReturnUnit_isPrefix line).trans (List.prefix_append _ _)
    split_ifs
    · rwa [List.dropLast_concat]
    · exact hprefix.trans (List.prefix_append _ _)

/-- An unfinished line that is too large is a protocol error. -/
theorem faulty_of_unfinished {text line : JsString} {lines : List JsString}
    {handled : List JsValue} (hclean : Clean max parse lines handled)
    (hsplit : text.splitOn lineFeed = lines ++ [line])
    (hbad : max < byteLength (withoutReturnUnit line)) : Faulty max parse text handled := by
  intro more
  rw [splitOn_append hsplit, hclean _ (List.splitOn_ne_nil _ _)]
  have hfree : lineFeed ∉ line :=
    notMem_of_mem_splitOn (hsplit ▸ List.mem_append_right _ List.mem_cons_self)
  obtain ⟨more', rest, hfirst⟩ := exists_splitOn_append hfree more
  have hlarge : max < byteLength (withoutReturnUnit (line ++ more')) := by
    obtain ⟨t, ht⟩ := withoutReturnUnit_append line more'
    rw [← ht]
    exact hbad.trans_le (byteLength_le_append _ t)
  rw [hfirst, messages_oversize hlarge, List.append_nil]

end Lines

/-! ## The buffer -/

theorem unitsOf_append (output output' : List Written) :
    unitsOf (output ++ output') = unitsOf output ++ unitsOf output' := List.map_append

theorem unitsOf_withoutReturn (line : List Written) :
    unitsOf (withoutReturn line) = withoutReturnUnit (unitsOf line) := by
  rw [withoutReturn, withoutReturnUnit, unitsOf, unitsOf, List.getLast?_map]
  split_ifs
  · exact List.map_dropLast
  · rfl

/-- The first complete line of the buffer. -/
theorem nextLine_some {stdout complete rest : List Written}
    (h : nextLine? stdout = some (complete, rest)) :
    (unitsOf stdout).splitOn lineFeed = unitsOf complete :: (unitsOf rest).splitOn lineFeed := by
  unfold nextLine? at h
  split at h
  · exact absurd h nofun
  · rename_i _ w tail heq
    obtain ⟨rfl, rfl⟩ := Prod.mk.inj (Option.some.inj h)
    have hw : w.1 = lineFeed := by
      have hhead := List.head?_dropWhile_not inLine stdout
      rw [heq] at hhead
      simpa [inLine] using hhead
    have hfree : lineFeed ∉ unitsOf (stdout.takeWhile inLine) := by
      rintro hmem
      obtain ⟨v, hv, hline⟩ := List.mem_map.mp hmem
      have := List.mem_takeWhile_imp hv
      simp [inLine, hline] at this
    conv_lhs => rw [← List.takeWhile_append_dropWhile (p := inLine) (l := stdout), heq]
    rw [unitsOf_append, show unitsOf (w :: tail) = w.1 :: unitsOf tail from rfl, hw,
      List.splitOn_append_cons_self, List.splitOn_eq_singleton hfree]
    rfl

theorem nextLine_none {stdout : List Written} (h : nextLine? stdout = none) :
    lineFeed ∉ unitsOf stdout := by
  unfold nextLine? at h
  split at h
  · rename_i heq
    intro hmem
    obtain ⟨v, hv, hline⟩ := List.mem_map.mp hmem
    have := List.dropWhile_eq_nil_iff.mp heq v hv
    simp [inLine, hline] at this
  · exact absurd h (Option.some_ne_none _)

/-- What the buffer holds of an instance. -/
def ownText (s : JsonLineRpcClient) (n : ℕ) : JsString := unitsOf (s.stdout.filter (·.2 = n))

theorem ownText_self {s : JsonLineRpcClient} {n : ℕ} (h : ∀ w ∈ s.stdout, w.2 = n) :
    ownText s n = unitsOf s.stdout := by
  rw [ownText, List.filter_eq_self.mpr fun w hw ↦ decide_eq_true (h w hw)]

theorem ownText_other {s : JsonLineRpcClient} {m n : ℕ} (h : ∀ w ∈ s.stdout, w.2 = n)
    (hm : m ≠ n) : ownText s m = [] := by
  rw [ownText, List.filter_eq_nil_iff.mpr]
  · rfl
  · intro w hw hmem
    exact hm ((of_decide_eq_true hmem).symm.trans (h w hw))

/-! ## Calls leave the buffer alone -/

theorem stop_stdout (s : JsonLineRpcClient) : s.stop.1.stdout = s.stdout := by
  obtain heq | ⟨-, heq⟩ | ⟨n, -, heq⟩ := stop_cases s <;> rw [heq]

theorem settle_stdout (s : JsonLineRpcClient) (id : ℕ) (value : Settlement) :
    (s.settle id value).stdout = s.stdout := by
  rw [settle]
  split_ifs <;> rfl

theorem cancelAndStop_stdout (s : JsonLineRpcClient) (id : ℕ) (error : RpcFailure) :
    (s.cancelAndStop id error).stdout = s.stdout := by
  rw [cancelAndStop]
  split_ifs
  · exact stop_stdout _
  · rfl

theorem start_stdout (s : JsonLineRpcClient) : s.start.stdout = s.stdout := by
  rw [start]
  split_ifs <;> rfl

theorem request_stdout (s : JsonLineRpcClient) (call : RequestCall) :
    (s.request call).stdout = s.stdout := by
  rw [request]
  split_ifs
  · rfl
  · dsimp only
    split
    · exact (cancelAndStop_stdout _ _ _).trans (start_stdout s)
    · split
      · exact start_stdout s
      · exact (settle_stdout _ _ _).trans (start_stdout s)

variable (R : RpcHost)

theorem step_stdout (O : RpcOptions) (s : JsonLineRpcClient) {input : RpcInput}
    (hdata : ∀ n chunk, input ≠ .data n chunk) (hline : input ≠ .line) :
    (s.step R O input).stdout = s.stdout := by
  rcases input with _ | _ | call | _ | ⟨id, error⟩ | ⟨number, timedOut⟩ | number | id |
    ⟨n, status, stderr⟩ | ⟨n, exitCode, message⟩ | ⟨n, chunk⟩ | _ | n
  · exact start_stdout s
  · exact start_stdout s
  · exact request_stdout s call
  · exact stop_stdout s
  · exact cancelAndStop_stdout s id error
  · rw [JsonLineRpcClient.step, stopGoesOn]
    split
    · split_ifs <;> rfl
    · rfl
  · rw [JsonLineRpcClient.step, stopSettled]
    split
    · split_ifs <;> rfl
    · rfl
  · rw [JsonLineRpcClient.step, cancelGoesOn]
    split
    · split
      · split_ifs <;> rfl
      · rfl
    · rfl
  · rw [JsonLineRpcClient.step]
    split_ifs
    · rw [JsonLineRpcClient.exited]
      split_ifs <;> rfl
    · rfl
  · rw [JsonLineRpcClient.step]
    split_ifs
    · rcases exitCode with _ | code <;> rfl
    · rfl
  · exact absurd rfl (hdata n chunk)
  · exact absurd rfl hline
  · rfl

theorem acceptMessage_stdout (s : JsonLineRpcClient) (line : List Written) :
    (s.acceptMessage R line).stdout = s.stdout := by
  rw [JsonLineRpcClient.acceptMessage]
  split
  · exact stop_stdout _
  · split
    · rfl
    · dsimp only
      split_ifs <;> exact settle_stdout _ _ _

/-! ## The invariant -/

variable (O : ReaderOptions)

/-- The messages of an instance that were handled are those of its lines so far, and what the buffer
holds of the instance comes next. -/
structure Reads (r : LineReader) (n : ℕ) : Prop where
  faulty : r.broken n = true → Faulty O.max R.parse (r.textOf n) (r.handled n)
  whole : r.broken n = false → ∃ lines,
    (r.textOf n).splitOn lineFeed = lines ++ (ownText r.client n).splitOn lineFeed ∧
      Clean O.max R.parse lines (r.handled n)
  settled : r.broken n = false → r.looping ≠ some n →
    lineFeed ∉ ownText r.client n ∧ byteLength (ownText r.client n) ≤ O.max

/-- The invariant of an orderly run. -/
structure Inv (r : LineReader) : Prop where
  thrown : r.thrown = false
  unhandled : r.unhandled = false
  decoders : ∀ n, r.decoders n = (({ started := true } : TextDecoder).decode (r.arrived n)).1
  loop : ∀ n, r.looping = some n →
    (∀ w ∈ r.client.stdout, w.2 = n) ∧ SizedByLine O (unitsOf r.client.stdout)
  apart : ∀ w ∈ r.client.stdout, ∀ v ∈ r.client.stdout, w.2 = v.2
  reads : ∀ n, Reads R O r n

variable {R O} {r r' : LineReader}

theorem inv_init : Inv R O {} where
  thrown := rfl
  unhandled := rfl
  decoders _ := rfl
  loop _ h := absurd h.symm (Option.some_ne_none _)
  apart _ h := absurd h List.not_mem_nil
  reads _ := ⟨fun h ↦ absurd h Bool.false_ne_true, fun _ ↦ ⟨[], rfl, clean_nil⟩,
    fun _ _ ↦ ⟨List.not_mem_nil, Nat.zero_le _⟩⟩

theorem textOf_congr {n : ℕ} (harrived : r'.arrived n = r.arrived n)
    (hclosed : r'.closed n = r.closed n) : r'.textOf n = r.textOf n := by
  simp only [textOf, harrived, hclosed]

theorem textOf_of_open {n : ℕ} (h : r.closed n = false) :
    r.textOf n = (({ started := true } : TextDecoder).decode (r.arrived n)).2 := by
  simp only [textOf, h, Bool.false_eq_true, if_false, List.append_nil]

theorem textOf_of_closed {n : ℕ} (h : r.closed n = true) :
    r.textOf n = (({ started := true } : TextDecoder).decode (r.arrived n)).2
      ++ (({ started := true } : TextDecoder).decode (r.arrived n)).1.flush := by
  simp only [textOf, h, if_true]

/-- Only what the invariant speaks of matters to it. -/
theorem Inv.same (h : Inv R O r) (hstdout : r'.client.stdout = r.client.stdout)
    (hdecoders : r'.decoders = r.decoders) (hlooping : r'.looping = r.looping)
    (hclosed : r'.closed = r.closed) (harrived : r'.arrived = r.arrived)
    (hhandled : r'.handled = r.handled) (hbroken : r'.broken = r.broken)
    (hthrown : r'.thrown = r.thrown) (hunhandled : r'.unhandled = false) : Inv R O r' where
  thrown := hthrown.trans h.thrown
  unhandled := hunhandled
  decoders n := by
    rw [hdecoders, harrived]
    exact h.decoders n
  loop n hn := by
    rw [hstdout]
    exact h.loop n (hlooping ▸ hn)
  apart := by
    rw [hstdout]
    exact h.apart
  reads n := by
    obtain ⟨hfaulty, hwhole, hsettled⟩ := h.reads n
    have htext := textOf_congr (congrFun harrived n) (congrFun hclosed n)
    have hown : ownText r'.client n = ownText r.client n := by rw [ownText, ownText, hstdout]
    refine ⟨?_, ?_, ?_⟩ <;> rw [hbroken]
    · rw [htext, hhandled]
      exact hfaulty
    · rw [htext, hhandled, hown]
      exact hwhole
    · rw [hlooping, hown]
      exact hsettled

theorem Inv.client (h : Inv R O r) {s : JsonLineRpcClient} (hs : s.stdout = r.client.stdout) :
    Inv R O { r with client := s } :=
  h.same hs rfl rfl rfl rfl rfl rfl rfl h.unhandled

/-- The loop ends. -/
theorem Inv.endLoop (h : Inv R O r) {n : ℕ} (hloop : r.looping = some n)
    (hsettled : r.broken n = false →
      lineFeed ∉ ownText r.client n ∧ byteLength (ownText r.client n) ≤ O.max) :
    Inv R O { r with looping := none } where
  thrown := h.thrown
  unhandled := h.unhandled
  decoders := h.decoders
  loop _ hn := absurd hn.symm (Option.some_ne_none _)
  apart := h.apart
  reads m := by
    obtain ⟨hfaulty, hwhole, hsettled'⟩ := h.reads m
    refine ⟨hfaulty, hwhole, fun hbroken _ ↦ ?_⟩
    by_cases hm : m = n
    · subst hm
      exact hsettled hbroken
    · exact hsettled' hbroken fun heq ↦ hm (Option.some.inj (heq.symm.trans hloop))

theorem broken_protocolError (r : LineReader) (n : ℕ) (code message : String) (caught : Bool) :
    (r.protocolError n code message caught).broken n = true := Function.update_self _ _ _

/-- A protocol error. -/
theorem Inv.protocolError (h : Inv R O r) {n : ℕ}
    (hfaulty : Faulty O.max R.parse (r.textOf n) (r.handled n)) (code message : String)
    (caught : Bool) (hstop : caught = false → stopHasFailed r.client = false) :
    Inv R O (r.protocolError n code message caught) where
  thrown := h.thrown
  unhandled := by
    rw [LineReader.protocolError, h.unhandled, Bool.false_or]
    rcases caught with _ | _
    · rw [hstop rfl]
      rfl
    · rfl
  decoders := h.decoders
  loop m hm := by
    rw [show (r.protocolError n code message caught).client.stdout = r.client.stdout from
      stop_stdout _]
    exact h.loop m hm
  apart := by
    rw [show (r.protocolError n code message caught).client.stdout = r.client.stdout from
      stop_stdout _]
    exact h.apart
  reads m := by
    obtain ⟨hfaulty', hwhole, hsettled⟩ := h.reads m
    have hown : ownText (r.protocolError n code message caught).client m = ownText r.client m :=
      congrArg (fun output : List Written ↦ unitsOf (output.filter (·.2 = m))) (stop_stdout _)
    by_cases hm : m = n
    · subst hm
      have hbroken := broken_protocolError r m code message caught
      refine ⟨fun _ ↦ hfaulty, fun h ↦ ?_, fun h ↦ ?_⟩ <;>
        exact absurd (hbroken.symm.trans h) (by decide)
    · have hbroken : (r.protocolError n code message caught).broken m = r.broken m :=
        Function.update_of_ne hm _ _
      refine ⟨?_, ?_, ?_⟩ <;> rw [hbroken]
      · exact hfaulty'
      · rw [hown]
        exact hwhole
      · rw [hown]
        exact hsettled

/-! ## Output arrives -/

theorem reads_of_empty {n : ℕ} (h : Reads R O r n) (hown : ownText r.client n = [])
    (htext : r'.textOf n = r.textOf n) (hhandled : r'.handled n = r.handled n)
    (hbroken : r'.broken n = r.broken n) (hown' : ownText r'.client n = []) : Reads R O r' n := by
  obtain ⟨hfaulty, hwhole, -⟩ := h
  refine ⟨?_, ?_, fun _ _ ↦ ?_⟩
  · rw [hbroken, htext, hhandled]
    exact hfaulty
  · rw [hbroken, htext, hhandled, hown', ← hown]
    exact hwhole
  · rw [hown']
    exact ⟨List.not_mem_nil, Nat.zero_le _⟩

/-- What the decoder of an instance has given is added to its text. -/
structure Extends (r r' : LineReader) (n : ℕ) (text : JsString) : Prop where
  client : r'.client = r.client
  looping : r'.looping = none
  handled : r'.handled = r.handled
  broken : r'.broken = r.broken
  thrown : r'.thrown = r.thrown
  unhandled : r'.unhandled = r.unhandled
  decoders : ∀ m, r'.decoders m = (({ started := true } : TextDecoder).decode (r'.arrived m)).1
  self : r'.textOf n = r.textOf n ++ text
  others : ∀ m, m ≠ n → r'.textOf m = r.textOf m

/-- The buffer takes the text in, and the loop may begin. -/
theorem Inv.append (h : Inv R O r) (hloop : r.looping = none) {n : ℕ} {text : JsString}
    (hext : Extends r r' n text) (howned : ∀ w ∈ r.client.stdout, w.2 = n)
    (hsized : SizedByLine O (unitsOf r.client.stdout ++ text)) :
    Inv R O { r'.setStdout (r'.client.stdout ++ text.map (·, n)) with looping := some n } := by
  have hall : ∀ w ∈ r'.client.stdout ++ text.map (·, n), w.2 = n := by
    rw [hext.client]
    intro w hw
    rcases List.mem_append.mp hw with hw | hw
    · exact howned w hw
    · obtain ⟨u, -, rfl⟩ := List.mem_map.mp hw
      rfl
  have hunits : unitsOf (r'.client.stdout ++ text.map (·, n))
      = unitsOf r.client.stdout ++ text := by
    rw [hext.client, unitsOf_append, unitsOf, unitsOf, List.map_map]
    exact congrArg _ (List.map_id text)
  refine ⟨hext.thrown.trans h.thrown, hext.unhandled.trans h.unhandled, hext.decoders, ?_, ?_, ?_⟩
  · intro m hm
    obtain rfl := Option.some.inj hm
    exact ⟨hall, hunits ▸ hsized⟩
  · intro w hw v hv
    exact (hall w hw).trans (hall v hv).symm
  · intro m
    by_cases hm : m = n
    · subst hm
      obtain ⟨hfaulty, hwhole, hsettled⟩ := h.reads m
      have hown := ownText_self howned
      refine ⟨fun hbroken ↦ ?_, fun hbroken ↦ ?_, fun _ hne ↦ absurd rfl hne⟩
      · have hbroken : r.broken m = true := by rw [← hext.broken]; exact hbroken
        have hfaulty := (hfaulty hbroken).append text
        rw [← hext.self, ← hext.handled] at hfaulty
        exact hfaulty
      · have hbroken : r.broken m = false := by rw [← hext.broken]; exact hbroken
        obtain ⟨lines, hsplit, hclean⟩ := hwhole hbroken
        obtain ⟨hfree, -⟩ := hsettled hbroken (hloop ▸ (Option.some_ne_none m).symm)
        rw [List.splitOn_eq_singleton hfree] at hsplit
        have hsplit' := splitOn_append hsplit text
        rw [← hext.self, hown, ← hunits, ← ownText_self (s := { r'.client with
          stdout := r'.client.stdout ++ text.map (·, m) }) hall] at hsplit'
        exact ⟨lines, hsplit', hext.handled ▸ hclean⟩
    · exact reads_of_empty (h.reads m) (ownText_other howned hm) (hext.others m hm)
        (congrFun hext.handled m) (congrFun hext.broken m) (ownText_other hall hm)

/-- When the buffer is one line, what was read of an instance is followed by it. -/
theorem Reads.faulty_of_oversize {n : ℕ} (h : Reads R O r n)
    (howned : ∀ w ∈ r.client.stdout, w.2 = n) (hsized : SizedByLine O (unitsOf r.client.stdout))
    (hfree : lineFeed ∉ unitsOf r.client.stdout)
    (hlarge : O.max < byteLength (unitsOf r.client.stdout)) :
    Faulty O.max R.parse (r.textOf n) (r.handled n) := by
  rcases hbroken : r.broken n with _ | _
  · obtain ⟨lines, hsplit, hclean⟩ := h.whole hbroken
    rw [ownText_self howned, List.splitOn_eq_singleton hfree] at hsplit
    refine faulty_of_unfinished hclean hsplit (hsized _ ?_ hlarge)
    rw [List.splitOn_eq_singleton hfree]
    exact Option.mem_some_self _
  · exact h.faulty hbroken

theorem Inv.receive (h : Inv R O r) (hloop : r.looping = none) {n : ℕ} {text : JsString}
    (hext : Extends r r' n text) (harrives : r.Arrives O n text) :
    Inv R O (r'.receive O n text) := by
  rw [LineReader.receive]
  by_cases htext : text = []
  · rw [if_pos htext]
    have hsame (m : ℕ) : r'.textOf m = r.textOf m := by
      by_cases hm : m = n
      · rw [hm, hext.self, htext, List.append_nil]
      · exact hext.others m hm
    refine ⟨hext.thrown.trans h.thrown, hext.unhandled.trans h.unhandled, hext.decoders,
      fun m hm ↦ absurd (hext.looping.symm.trans hm).symm (Option.some_ne_none m),
      hext.client ▸ h.apart, fun m ↦ ?_⟩
    obtain ⟨hfaulty, hwhole, hsettled⟩ := h.reads m
    refine ⟨?_, ?_, ?_⟩ <;> rw [hext.broken]
    · rw [hsame, hext.handled]
      exact hfaulty
    · rw [hsame, hext.handled, hext.client]
      exact hwhole
    · rw [hext.looping, hext.client, ← hloop]
      exact hsettled
  · rw [if_neg htext]
    obtain ⟨howned, hsized, hstop⟩ := harrives htext
    have happend := h.append hloop hext howned hsized
    have hunits : unitsOf (r'.setStdout (r'.client.stdout ++ text.map (·, n))).client.stdout
        = unitsOf r.client.stdout ++ text := by
      rw [show (r'.setStdout (r'.client.stdout ++ text.map (·, n))).client.stdout
        = r'.client.stdout ++ text.map (·, n) from rfl, hext.client, unitsOf_append, unitsOf,
        unitsOf, List.map_map]
      exact congrArg _ (List.map_id text)
    rw [acceptText, hunits]
    by_cases hlarge : O.max < byteLength (unitsOf r.client.stdout ++ text) ∧
        lineFeed ∉ unitsOf r.client.stdout ++ text
    · rw [if_pos hlarge]
      -- The event ends before its loop begins, as if the loop had ended at once.
      have howned' := (happend.loop n rfl).1
      have hfaulty := (happend.reads n).faulty_of_oversize howned' (happend.loop n rfl).2
        (hunits ▸ hlarge.2) (hunits ▸ hlarge.1)
      have herror := happend.protocolError hfaulty "line_too_large"
        "RPC process emitted an oversized line" false fun _ ↦ by
          have := hstop hlarge
          rw [← hext.client] at this
          exact this
      have hend := herror.endLoop (n := n) rfl fun hbroken ↦
        absurd ((broken_protocolError _ _ _ _ _).symm.trans hbroken) (by decide)
      obtain ⟨client, decoders, looping⟩ := r'
      obtain rfl : looping = none := hext.looping
      exact hend
    · rw [if_neg hlarge]
      exact happend

/-! ## The loop -/

theorem SizedByLine.tail {line : JsString} {stdout stdout' : JsString}
    (h : SizedByLine O stdout)
    (hsplit : stdout.splitOn lineFeed = line :: stdout'.splitOn lineFeed) :
    SizedByLine O stdout' := by
  intro unfinished hlast
  refine h unfinished ?_
  rw [hsplit]
  rcases hlines : stdout'.splitOn lineFeed with _ | ⟨next, lines⟩
  · exact absurd hlines (List.splitOn_ne_nil _ _)
  · rw [hlines] at hlast
    exact hlast

/-- A complete line is taken off the buffer, and what it holds is noted. -/
theorem Inv.takeLine (h : Inv R O r) {n : ℕ} (hloop : r.looping = some n)
    {complete rest : List Written} (hnext : nextLine? r.client.stdout = some (complete, rest))
    (hlooping : r'.looping = some n) (hstdout : r'.client.stdout = rest)
    (hdecoders : r'.decoders = r.decoders) (hclosed : r'.closed = r.closed)
    (harrived : r'.arrived = r.arrived) (hbroken : r'.broken = r.broken)
    (hthrown : r'.thrown = false) (hunhandled : r'.unhandled = false)
    (hothers : ∀ m, m ≠ n → r'.handled m = r.handled m)
    (hskipped : r.broken n = true → r'.handled n = r.handled n)
    (hnoted : r.broken n = false → ∀ lines, Clean O.max R.parse lines (r.handled n) →
      Clean O.max R.parse (lines ++ [unitsOf complete]) (r'.handled n)) : Inv R O r' := by
  obtain ⟨howned, hsized⟩ := h.loop n hloop
  have hrest : ∀ w ∈ rest, w.2 = n := fun w hw ↦ howned w ((mem_of_nextLine hnext).2 w hw)
  have hsplit := nextLine_some hnext
  refine ⟨hthrown, hunhandled, fun m ↦ ?_, fun m hm ↦ ?_, fun w hw v hv ↦ ?_, fun m ↦ ?_⟩
  · rw [hdecoders, harrived]
    exact h.decoders m
  · obtain rfl := Option.some.inj (hlooping.symm.trans hm)
    rw [hstdout]
    exact ⟨hrest, hsized.tail hsplit⟩
  · rw [hstdout] at hw hv
    exact (hrest w hw).trans (hrest v hv).symm
  · have htext := textOf_congr (congrFun harrived m) (congrFun hclosed m)
    by_cases hm : m = n
    · subst hm
      obtain ⟨hfaulty, hwhole, -⟩ := h.reads m
      refine ⟨fun hb ↦ ?_, fun hb ↦ ?_, fun _ hne ↦ absurd hlooping hne⟩ <;> rw [hbroken] at hb
      · rw [htext, hskipped hb]
        exact hfaulty hb
      · obtain ⟨lines, hlines, hclean⟩ := hwhole hb
        refine ⟨lines ++ [unitsOf complete], ?_, hnoted hb lines hclean⟩
        rw [htext, hlines, ownText_self howned, hsplit, ownText_self (by rw [hstdout]; exact hrest),
          hstdout, List.append_assoc]
        rfl
    · exact reads_of_empty (h.reads m) (ownText_other howned hm) htext (hothers m hm)
        (congrFun hbroken m) (ownText_other (by rw [hstdout]; exact hrest) hm)

/-- A bad line is a protocol error of the instance. -/
theorem Reads.faulty_of_badLine {n : ℕ} (h : Reads R O r n)
    (howned : ∀ w ∈ r.client.stdout, w.2 = n) {complete rest : List Written}
    (hnext : nextLine? r.client.stdout = some (complete, rest))
    (hbad : O.max < byteLength (unitsOf (withoutReturn complete)) ∨
      trim (unitsOf (withoutReturn complete)) ≠ [] ∧
        R.parse (unitsOf (withoutReturn complete)) = none) :
    Faulty O.max R.parse (r.textOf n) (r.handled n) := by
  rcases hbroken : r.broken n with _ | _
  · obtain ⟨lines, hsplit, hclean⟩ := h.whole hbroken
    rw [ownText_self howned, nextLine_some hnext] at hsplit
    rw [unitsOf_withoutReturn] at hbad
    exact faulty_of_line hclean hsplit (List.splitOn_ne_nil _ _) hbad
  · exact h.faulty hbroken

/-- A protocol error in the line that is taken off. -/
theorem Inv.badLine (h : Inv R O r) {n : ℕ} (hloop : r.looping = some n)
    {complete rest : List Written} (hnext : nextLine? r.client.stdout = some (complete, rest))
    (hbad : O.max < byteLength (unitsOf (withoutReturn complete)) ∨
      trim (unitsOf (withoutReturn complete)) ≠ [] ∧
        R.parse (unitsOf (withoutReturn complete)) = none)
    (hstop : stopHasFailed r.client = false) (code message : String) :
    Inv R O ((r.setStdout rest).protocolError n code message
      false) := by
  have hfaulty := (h.reads n).faulty_of_badLine (h.loop n hloop).1 hnext hbad
  have herror := h.protocolError hfaulty code message false fun _ ↦ hstop
  have hbroken := broken_protocolError r n code message false
  have hnext' : nextLine? (r.protocolError n code message false).client.stdout
      = some (complete, rest) := by
    rw [show (r.protocolError n code message false).client.stdout = r.client.stdout from
      stop_stdout _]
    exact hnext
  exact herror.takeLine hloop hnext' hloop (stop_stdout _) rfl rfl rfl rfl h.thrown herror.unhandled
    (fun _ _ ↦ rfl) (fun _ ↦ rfl) fun hwhole ↦ absurd (hbroken.symm.trans hwhole) (by decide)

theorem noteHandled_self (r : LineReader) (n : ℕ) (message : JsValue) :
    (r.noteHandled n message).handled n
      = if r.broken n then r.handled n else r.handled n ++ [message] := by
  rw [noteHandled]
  split_ifs
  · rfl
  · exact Function.update_self _ _ _

theorem noteHandled_other (r : LineReader) {m n : ℕ} (hm : m ≠ n) (message : JsValue) :
    (r.noteHandled n message).handled m = r.handled m := by
  rw [noteHandled]
  split_ifs
  · rfl
  · exact Function.update_of_ne hm _ _

/-- The message is noted, and nothing else. -/
theorem noteHandled_eq (r : LineReader) (n : ℕ) (message : JsValue) :
    r.noteHandled n message = { r with handled := (r.noteHandled n message).handled } := by
  rw [noteHandled]
  split_ifs <;> rfl

/-- A message is taken off the buffer. -/
theorem Inv.takeMessage (h : Inv R O r) {n : ℕ} (hloop : r.looping = some n)
    {complete rest : List Written} (hnext : nextLine? r.client.stdout = some (complete, rest))
    (hsize : ¬ O.max < byteLength (unitsOf (withoutReturn complete)))
    (hblank : trim (unitsOf (withoutReturn complete)) ≠ []) {message : JsValue}
    (hparse : R.parse (unitsOf (withoutReturn complete)) = some message) :
    Inv R O ((r.setStdout rest).noteHandled n message) := by
  rw [unitsOf_withoutReturn] at hsize hblank hparse
  have heq := noteHandled_eq (r.setStdout rest) n message
  have hself := noteHandled_self (r.setStdout rest) n message
  refine h.takeLine hloop hnext ((congrArg LineReader.looping heq).trans hloop)
    ((congrArg (·.client.stdout) heq).trans rfl) ((congrArg LineReader.decoders heq).trans rfl)
    ((congrArg LineReader.closed heq).trans rfl) ((congrArg LineReader.arrived heq).trans rfl)
    ((congrArg LineReader.broken heq).trans rfl) ((congrArg LineReader.thrown heq).trans h.thrown)
    ((congrArg LineReader.unhandled heq).trans h.unhandled)
    (fun m hm ↦ noteHandled_other _ hm message) (fun hbroken ↦ hself.trans (if_pos hbroken))
    fun hbroken lines hclean ↦ ?_
  rw [hself, if_neg (by rw [show (r.setStdout rest).broken n = false from hbroken]; decide)]
  exact hclean.message hsize hblank hparse

theorem Inv.acceptMessage (h : Inv R O r) {n : ℕ} (hloop : r.looping = some n)
    {complete rest : List Written} (hnext : nextLine? r.client.stdout = some (complete, rest))
    (hsize : ¬ O.max < byteLength (unitsOf (withoutReturn complete)))
    (hblank : trim (unitsOf (withoutReturn complete)) ≠ []) {listenerThrows : Bool}
    (hhandles : r.Handles R O (unitsOf (withoutReturn complete)) listenerThrows) :
    Inv R O ((r.setStdout rest).acceptMessage R O n
      (withoutReturn complete) listenerThrows) := by
  rw [Handles, if_neg hsize] at hhandles
  have hhandles := hhandles hblank
  rw [LineReader.acceptMessage]
  rcases hparse : R.parse (unitsOf (withoutReturn complete)) with _ | message
  · rw [hparse] at hhandles
    exact h.badLine hloop hnext (Or.inr ⟨hblank, hparse⟩) hhandles _ _
  · rw [hparse] at hhandles
    obtain ⟨hthrows, hrequest, hlistener⟩ := hhandles
    have htaken := h.takeMessage hloop hnext hsize hblank hparse
    have hclient : ((r.setStdout rest).noteHandled n message).client = (r.setStdout rest).client :=
      (congrArg LineReader.client (noteHandled_eq _ n message)).trans rfl
    dsimp only
    rw [hthrows, if_neg Bool.false_ne_true]
    by_cases hserver : isServerRequest message = true
    · rw [if_pos hserver]
      by_cases hhandler : O.onServerRequest = true
      · rw [if_pos hhandler]
        exact htaken.same rfl rfl rfl rfl rfl rfl rfl rfl htaken.unhandled
      · have hsend : canSend ((r.setStdout rest).noteHandled n message).client = true := by
          rw [hclient]
          exact (hrequest hserver).resolve_left hhandler
        rw [if_neg hhandler, answerError, if_pos hsend]
        exact htaken
    · rw [if_neg hserver]
      by_cases hnotified : isNotification message = true
      · rw [if_pos hnotified, hlistener hnotified, if_neg Bool.false_ne_true]
        exact htaken
      · rw [if_neg hnotified]
        exact htaken.client (acceptMessage_stdout R _ _)

/-- One orderly round of the loop. -/
theorem Inv.acceptLine (h : Inv R O r) {n : ℕ} (hloop : r.looping = some n) {listenerThrows : Bool}
    (horderly : Orderly R O r (.line listenerThrows)) :
    Inv R O (r.acceptLine R O n listenerThrows) := by
  have horderly := horderly (hloop ▸ Option.some_ne_none n)
  rw [LineReader.acceptLine]
  rcases hnext : nextLine? r.client.stdout with _ | ⟨complete, rest⟩
  · -- The lines are all done, and what is left of the buffer is checked.
    obtain ⟨howned, hsized⟩ := h.loop n hloop
    have hfree := nextLine_none hnext
    dsimp only
    by_cases hlarge : O.max < byteLength (unitsOf r.client.stdout)
    · rw [if_pos hlarge]
      have herror := h.protocolError ((h.reads n).faulty_of_oversize howned hsized hfree hlarge)
        "line_too_large" "RPC process emitted an oversized partial line" true
        fun hcaught ↦ absurd hcaught (by decide)
      exact herror.endLoop hloop fun hbroken ↦
        absurd ((broken_protocolError _ _ _ _ _).symm.trans hbroken) (by decide)
    · rw [if_neg hlarge]
      refine h.endLoop hloop fun _ ↦ ?_
      rw [ownText_self howned]
      exact ⟨hfree, not_lt.mp hlarge⟩
  · have hhandles := horderly _ hnext
    dsimp only at hhandles ⊢
    by_cases hsize : O.max < byteLength (unitsOf (withoutReturn complete))
    · rw [if_pos hsize]
      rw [Handles, if_pos hsize] at hhandles
      exact (h.badLine hloop hnext (Or.inl hsize) hhandles _ _).endLoop hloop fun hbroken ↦
        absurd ((broken_protocolError _ _ _ _ _).symm.trans hbroken) (by decide)
    · rw [if_neg hsize]
      by_cases hblank : trim (unitsOf (withoutReturn complete)) = []
      · rw [if_pos hblank]
        refine h.takeLine hloop hnext hloop rfl rfl rfl rfl rfl h.thrown h.unhandled
          (fun _ _ ↦ rfl) (fun _ ↦ rfl) fun _ lines hclean ↦ ?_
        rw [unitsOf_withoutReturn] at hsize hblank
        exact hclean.blank hsize hblank
      · rw [if_neg hblank]
        exact h.acceptMessage hloop hnext hsize hblank hhandles

/-! ## Runs -/

theorem Inv.answered (h : Inv R O r) {i : ℕ}
    (hcan : r.answering[i]?.isSome = true → canSend r.client = true) (outcome : HandlerOutcome) :
    Inv R O (r.answered i outcome) := by
  have hsame : Inv R O { r with answering := r.answering.eraseIdx i } :=
    h.same rfl rfl rfl rfl rfl rfl rfl rfl h.unhandled
  rw [LineReader.answered]
  split
  · exact h
  · rename_i request hrequest
    have hsend := hcan (Option.isSome_iff_exists.mpr ⟨request, hrequest⟩)
    dsimp only
    split
    · rw [answerError, if_pos hsend]
      exact hsame
    · split
      · exact hsame
      · rw [answerError, if_pos hsend]
        exact hsame

theorem Inv.call (h : Inv R O r) {input : RpcInput} (horderly : Orderly R O r (.call input)) :
    Inv R O (r.call R O input) := by
  rw [LineReader.call.eq_def]
  split_ifs
  · exact h
  · split
    · exact h
    · exact h
    · rename_i number timedOut _
      refine h.same (step_stdout R _ _ (fun _ _ ↦ RpcInput.noConfusion) RpcInput.noConfusion)
        rfl rfl rfl rfl rfl rfl rfl ?_
      rw [h.unhandled, Bool.false_or, Bool.and_eq_false_imp]
      exact fun hfails ↦ decide_eq_false (horderly (number, timedOut) rfl hfails)
    · rename_i hdata hline _
      exact h.client (step_stdout R _ _ hdata hline)

/-- Bytes of an instance arrive. -/
theorem extends_data (h : Inv R O r) {n : ℕ} (hawaits : r.Awaits n) (bytes : List UInt8) :
    Extends r { r with
      decoders := Function.update r.decoders n ((r.decoders n).decode bytes).1
      arrived := Function.update r.arrived n (r.arrived n ++ bytes) } n
      ((r.decoders n).decode bytes).2 where
  client := rfl
  looping := hawaits.1
  handled := rfl
  broken := rfl
  thrown := rfl
  unhandled := rfl
  decoders m := by
    dsimp only
    by_cases hm : m = n
    · subst hm
      rw [Function.update_self, Function.update_self, TextDecoder.decode_append, h.decoders]
    · rw [Function.update_of_ne hm, Function.update_of_ne hm, h.decoders]
  self := by
    rw [textOf_of_open hawaits.2.2, textOf_of_open (by exact hawaits.2.2)]
    dsimp only
    rw [Function.update_self, TextDecoder.decode_append, ← h.decoders]
  others m hm := textOf_congr (Function.update_of_ne hm _ _) rfl

/-- The output of an instance ends. -/
theorem extends_ended (h : Inv R O r) {n : ℕ} (hawaits : r.Awaits n) :
    Extends r { r with closed := Function.update r.closed n true } n (r.decoders n).flush where
  client := rfl
  looping := hawaits.1
  handled := rfl
  broken := rfl
  thrown := rfl
  unhandled := rfl
  decoders := h.decoders
  self := by
    rw [textOf_of_open hawaits.2.2, textOf_of_closed (by exact Function.update_self _ _ _),
      h.decoders]
  others m hm := textOf_congr rfl (Function.update_of_ne hm _ _)

/-- One orderly step. -/
theorem Inv.step (h : Inv R O r) {i : ReaderInput} (horderly : Orderly R O r i) :
    Inv R O (step R O r i) := by
  rcases i with input | ⟨n, bytes⟩ | n | listenerThrows | ⟨i, outcome⟩
  · exact h.call horderly
  · rw [LineReader.step]
    split_ifs with hawaits
    · exact h.receive hawaits.1 (extends_data h hawaits bytes) (horderly hawaits)
    · exact h
  · rw [LineReader.step]
    split_ifs with hawaits
    · exact h.receive hawaits.1 (extends_ended h hawaits) (horderly hawaits)
    · exact h
  · rw [LineReader.step]
    split
    · exact h
    · rename_i n hloop
      exact h.acceptLine hloop horderly
  · exact h.answered horderly outcome

theorem Inv.framed (h : Inv R O r) : Framed R O r where
  thrown := h.thrown
  unhandled := h.unhandled
  own n hloop := by
    rcases hbroken : r.broken n with _ | _
    · obtain ⟨lines, hsplit, hclean⟩ := (h.reads n).whole hbroken
      obtain ⟨hfree, hsize⟩ := (h.reads n).settled hbroken hloop
      obtain ⟨more, hmore⟩ := withoutReturnUnit_isPrefix (ownText r.client n)
      have hle := byteLength_le_append (withoutReturnUnit (ownText r.client n)) more
      rw [hmore] at hle
      rw [hsplit, List.splitOn_eq_singleton hfree, hclean _ (List.cons_ne_nil _ _), messages,
        List.append_nil, decide_eq_false (by omega)]
    · have hfaulty := (h.reads n).faulty hbroken []
      rw [List.append_nil] at hfaulty
      exact hfaulty.symm
  inOrder n := by
    rcases hbroken : r.broken n with _ | _
    · obtain ⟨lines, hsplit, hclean⟩ := (h.reads n).whole hbroken
      rw [hsplit, hclean _ (List.splitOn_ne_nil _ _)]
      exact List.prefix_append _ _
    · have hfaulty := (h.reads n).faulty hbroken []
      rw [List.append_nil] at hfaulty
      exact hfaulty ▸ List.prefix_refl _
  apart := h.apart

/-- **The standard output of the instances is read as each of them wrote it**, in every state that
a run reaches whose steps are orderly. -/
theorem framed_of_orderly {inputs : List ReaderInput}
    (h : Throughout (step R O) (Orderly R O) {} inputs) : Framed R O (after R O inputs) :=
  (Throughout.induction (p := Inv R O) (fun _ _ hinv horderly ↦ hinv.step horderly) inv_init
    h).framed

/-! ## Two runs -/

/-- A notification, as a line, and a request that is not allowed. -/
def notification : JsString := js "\x7b\"method\":\"ready\"\x7d"

def serverRequest : JsString := js "\x7b\"id\":1,\"method\":\"ask\"\x7d"

/-- `JSON.parse` on the lines of the runs below. -/
def linesPeer : RpcHost where
  parse line :=
    if line = js "null" then some .null
    else if line = notification then some (.object [(js "method", .string (js "ready"))])
    else if line = serverRequest then
      some (.object [(js "id", .number (.finite 1)), (js "method", .string (js "ask"))])
    else none
  text _ := []

/-- The bytes of an ASCII text. -/
def bytesOf (text : JsString) : List UInt8 := text.map fun u ↦ UInt8.ofNat u.toNat

/-- An instance writes a notification in two pieces and a request, and exits; the next one writes a
notification. -/
def twoInstances : List ReaderInput :=
  [.call .start, .data 0 (bytesOf (notification.take 5)), .line false,
    .data 0 (bytesOf (notification.drop 5 ++ js "\r\n" ++ serverRequest ++ js "\n")), .line false,
    .line false, .line false, .ended 0, .call (.exited 0 (.code 0) none), .call .start,
    .data 1 (bytesOf (notification ++ js "\n")), .line false, .line false]

theorem framed_twoInstances :
    Throughout (step linesPeer {}) (Orderly linesPeer {}) {} twoInstances ∧
      Framed linesPeer {} (after linesPeer {} twoInstances) :=
  have horderly : Throughout (step linesPeer {}) (Orderly linesPeer {}) {} twoInstances := by
    decide +kernel
  ⟨horderly, framed_of_orderly horderly⟩

/-- The line `null` makes the handler throw. -/
def nullLine : List ReaderInput :=
  [.call .start, .data 0 (bytesOf (js "null\n")), .line false]

/-- An instance writes a request that is not allowed and has closed its standard input. -/
def unanswerable : List ReaderInput :=
  [.call .start, .call (.unwritable 0), .data 0 (bytesOf (serverRequest ++ js "\n")), .line false]

/-- An instance ends within a line, and the next one writes a notification. -/
def partialLine : List ReaderInput :=
  [.call .start, .data 0 (bytesOf (js "\x7b")), .line false, .ended 0,
    .call (.exited 0 (.code 0) none), .call .start, .data 1 (bytesOf (notification ++ js "\n")),
    .line false, .line false]

/-- An instance writes a line of the size of the limit, in two pieces. -/
def cutLine : List ReaderInput :=
  [.call .start, .data 0 (bytesOf (notification ++ js "\r")), .data 0 (bytesOf (js "\n")),
    .line false, .line false]

/-- `null` makes the handler throw, the error answer to a request is rejected with nobody waiting,
the line of the second instance is lost to what the first one has left, and a line that is not over
the limit is taken for one that is. -/
theorem not_framed :
    ¬ Framed linesPeer {} (after linesPeer {} nullLine) ∧
      ¬ Framed linesPeer {} (after linesPeer {} unanswerable) ∧
        ¬ Framed linesPeer {} (after linesPeer {} partialLine) ∧
          ¬ Framed linesPeer { maxLineBytes := some 18 }
            (after linesPeer { maxLineBytes := some 18 } cutLine) := by
  refine ⟨fun h ↦ absurd h.thrown (by decide +kernel),
    fun h ↦ absurd h.unhandled (by decide +kernel), fun h ↦ ?_, fun h ↦ ?_⟩
  · have hown := congrArg (·.1.length) (h.own 1 (by decide +kernel))
    exact absurd hown (by decide +kernel)
  · have hown := congrArg Prod.snd (h.own 0 (by decide +kernel))
    exact absurd hown (by decide +kernel)

end LineReader

end LiteHarness.ProcessRpc
