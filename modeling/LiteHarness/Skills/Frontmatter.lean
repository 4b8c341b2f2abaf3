import LiteHarness.Foundation.Delimiters
import LiteHarness.Platform.BufferText

/-!
# The frontmatter of a skill

A skill file begins with a line of three dashes and goes on with its metadata, up to the next line
of three dashes; behind that is its body. The metadata are looked for in the first bytes of the
file, the body in the whole of it. A cut can only change what is behind a line feed by then, so both
find the same frontmatter (`frontmatter_of_header`).
-/

namespace LiteHarness.Skills

open Foundation

/-! ## The pattern -/

/-- `---\r?\n`. -/
def openings : List JsString := [js "---\r\n", js "---\n"]

/-- `\r?\n---\r?\n`. -/
def closings : List JsString := [js "\r\n---\r\n", js "\r\n---\n", js "\n---\r\n", js "\n---\n"]

/-- `/^---\r?\n([\s\S]*?)\r?\n---\r?\n/` of a text, with what is behind. -/
def frontmatter (text : JsString) : Option (JsString × JsString) :=
  (afterAny openings text).bind (upToAny closings)

theorem solid_openings : Solid openings := by decide +kernel

theorem solid_closings : Solid closings := by decide +kernel

/-- A closing ends in a line feed. -/
theorem exists_of_mem_closings : ∀ closing ∈ closings, ∃ front, closing = front ++ [10] := by
  intro closing h
  refine ⟨closing.dropLast, ?_⟩
  revert closing
  decide +kernel

theorem frontmatter_append {opening closing metadata rest : JsString}
    (hopening : opening ∈ openings) (hclosing : closing ∈ closings)
    (h : upToAny closings (metadata ++ (closing ++ rest)) = some (metadata, rest))
    (body : JsString) :
    frontmatter (opening ++ (metadata ++ (closing ++ body))) = some (metadata, body) := by
  rw [frontmatter, afterAny_append solid_openings hopening, Option.bind_some,
    upToAny_append solid_closings hclosing h]

/-- The parts of a text with frontmatter. -/
structure Parts (text metadata body : JsString) : Prop where
  parts : ∃ opening ∈ openings, ∃ closing ∈ closings,
    text = opening ++ (metadata ++ (closing ++ body)) ∧
      upToAny closings (metadata ++ (closing ++ body)) = some (metadata, body)

theorem parts_of_frontmatter {text metadata body : JsString}
    (h : frontmatter text = some (metadata, body)) : Parts text metadata body := by
  obtain ⟨rest, hafter, hupTo⟩ := Option.bind_eq_some_iff.mp h
  obtain ⟨opening, hopening, rfl⟩ := exists_of_afterAny hafter
  obtain ⟨closing, hclosing, rfl⟩ := exists_of_upToAny hupTo
  exact ⟨opening, hopening, closing, hclosing, rfl, hupTo⟩

/-! ## The first bytes of a file -/

/-- What is in front of a line feed of a text, and what is behind it, was read from bytes. -/
theorem exists_of_bufferText_eq {bytes : Bytes} {front back : JsString}
    (h : bufferText bytes = front ++ 10 :: back) :
    ∃ a b, bytes = a ++ 10 :: b ∧ bufferText a = front ∧ bufferText b = back := by
  induction hn : bytes.length using Nat.strong_induction_on generalizing bytes front with
  | _ n ih =>
    have hfeed : (10 : UInt8).toNat < 0x80 := by decide
    have hmem : (10 : UInt8) ∈ bytes := by
      refine (mem_bufferText hfeed bytes).mp (h ▸ ?_)
      exact List.mem_append_right front List.mem_cons_self
    obtain ⟨a, b, rfl, hfree⟩ := List.eq_append_cons_of_mem hmem
    rw [bufferText_append_cons hfeed] at h
    have hfree' : (10 : UInt16) ∉ bufferText a :=
      fun hmem ↦ hfree ((mem_bufferText hfeed a).mp hmem)
    rcases List.append_eq_append_iff.mp h with ⟨c, hfront, hback⟩ | ⟨c, hfront, hback⟩
    · rcases c with _ | ⟨u, c⟩
      · exact ⟨a, b, rfl, (hfront.trans (List.append_nil _)).symm, (List.cons.inj hback).2⟩
      · -- the line feed is a later one
        obtain ⟨hunit, htail⟩ := List.cons.inj hback
        obtain ⟨a', b', rfl, rfl, rfl⟩ := ih b.length (by simp at hn; omega) htail rfl
        refine ⟨a ++ 10 :: a', b', by simp, ?_, rfl⟩
        rw [bufferText_append_cons hfeed, hfront, hunit]
    · rcases c with _ | ⟨u, c⟩
      · exact ⟨a, b, rfl, hfront.trans (List.append_nil _), (List.cons.inj hback).2.symm⟩
      · obtain ⟨rfl, -⟩ := List.cons.inj hback
        exact absurd (hfront ▸ List.mem_append_right front List.mem_cons_self) hfree'

/-- **The frontmatter of a file** is that of its first bytes, where these have any. -/
theorem frontmatter_of_header {bytes : Bytes} {n : ℕ} {metadata rest : JsString}
    (h : frontmatter (bufferText (bytes.take n)) = some (metadata, rest)) :
    ∃ body, frontmatter (bufferText bytes) = some (metadata, body) := by
  obtain ⟨opening, hopening, closing, hclosing, htext, hupTo⟩ := (parts_of_frontmatter h).parts
  obtain ⟨front, rfl⟩ := exists_of_mem_closings closing hclosing
  have hcut : bufferText (bytes.take n) = opening ++ (metadata ++ front) ++ 10 :: rest := by
    rw [htext]
    simp
  obtain ⟨a, b, hbytes, ha, hb⟩ := exists_of_bufferText_eq hcut
  have hwhole : bytes = a ++ 10 :: (b ++ bytes.drop n) := by
    rw [← List.cons_append, ← List.append_assoc, ← hbytes, List.take_append_drop]
  refine ⟨bufferText (b ++ bytes.drop n), ?_⟩
  rw [hwhole, bufferText_append_cons (by decide), ha, ← hwhole]
  have hfound := frontmatter_append hopening hclosing hupTo (bufferText (b ++ bytes.drop n))
  have hunit : byteUnit 10 = 10 := rfl
  simpa [hunit] using hfound

end LiteHarness.Skills
