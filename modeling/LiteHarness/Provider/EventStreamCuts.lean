import LiteHarness.Provider.EventStream

/-!
# Where an event stream is cut

Two things make the reader of an event stream depend on the pieces it gets. A carriage return at the
end of a piece and the line feed at the start of the next one are not seen as one line end, so the
line keeps its carriage return and, if it is empty, no longer ends a frame. And the limit on a frame
is checked against a whole piece with what was left before it, however many frames that is.

The text is therefore taken line by line, each line with whether its line end was cut.
-/

namespace LiteHarness.Provider

open Foundation

/-! ## Lines and their ends -/

/-- The units of a piece, with whether the piece starts there. -/
def mark : JsString → List (UInt16 × Bool)
  | [] => []
  | u :: rest => (u, true) :: rest.map (·, false)

/-- The units of a text that came in pieces. -/
def marked (texts : List JsString) : List (UInt16 × Bool) := texts.flatMap mark

/-- The lines of a text, each with whether a piece ended between the carriage return and the line
feed of its end. -/
def lines : List (UInt16 × Bool) → List (JsString × Bool)
  | [] => [([], false)]
  | [(u, _)] => if u = lineFeed then [([], false), ([], false)] else [([u], false)]
  | (u, _) :: (v, starts) :: rest =>
    if u = carriageReturn ∧ v = lineFeed then ([], starts) :: lines rest
    else if u = lineFeed then ([], false) :: lines ((v, starts) :: rest)
    else (lines ((v, starts) :: rest)).modifyHead fun line ↦ (u :: line.1, line.2)

/-- A line as the reader sees it. -/
def seenLine (line : JsString × Bool) : JsString :=
  if line.2 then line.1 ++ [carriageReturn] else line.1

theorem lines_ne_nil (m : List (UInt16 × Bool)) : lines m ≠ [] := by
  induction m using List.twoStepInduction with
  | nil => exact List.cons_ne_nil _ _
  | singleton a =>
    rw [lines]
    split_ifs <;> exact List.cons_ne_nil _ _
  | cons_cons a b m ihm ih =>
    rw [lines]
    split_ifs
    · exact List.cons_ne_nil _ _
    · exact List.cons_ne_nil _ _
    · rcases h : lines ((b.1, b.2) :: m) with _ | ⟨line, rest⟩
      · exact absurd h (ih _)
      · exact List.cons_ne_nil _ _

/-- No line has a line feed in it. -/
theorem lineFeed_notMem_lines {m : List (UInt16 × Bool)} {line : JsString × Bool}
    (h : line ∈ lines m) : lineFeed ∉ line.1 := by
  induction m using List.twoStepInduction generalizing line with
  | nil =>
    rw [List.mem_singleton.mp h]
    exact List.not_mem_nil
  | singleton a =>
    rw [lines] at h
    split_ifs at h with ha
    · rcases List.mem_pair.mp h with rfl | rfl <;> exact List.not_mem_nil
    · rw [List.mem_singleton.mp h]
      exact fun hmem ↦ ha (List.mem_singleton.mp hmem).symm
  | cons_cons a b m ihm ih =>
    rw [lines] at h
    split_ifs at h with hpair ha
    · rcases List.mem_cons.mp h with rfl | h
      · exact List.not_mem_nil
      · exact ihm h
    · rcases List.mem_cons.mp h with rfl | h
      · exact List.not_mem_nil
      · exact ih _ h
    · rcases hrest : lines ((b.1, b.2) :: m) with _ | ⟨first, rest⟩
      · exact absurd hrest (lines_ne_nil _)
      · rw [hrest] at h
        rcases List.mem_cons.mp h with rfl | h
        · refine fun hmem ↦ ?_
          rcases List.mem_cons.mp hmem with h | h
          · exact ha h.symm
          · exact ih _ (hrest ▸ List.mem_cons_self) h
        · exact ih _ (hrest ▸ List.mem_cons_of_mem _ h)

/-- Lines joined by line feeds, when the first one grows at its start. -/
theorem intercalate_modifyHead {α : Type*} (f : α → JsString) (g : α → α) {u : UInt16}
    (hg : ∀ a, f (g a) = u :: f a) {ls : List α} (h : ls ≠ []) :
    [lineFeed].intercalate ((ls.modifyHead g).map f) = u :: [lineFeed].intercalate (ls.map f) := by
  rcases ls with _ | ⟨a, _ | ⟨b, ls⟩⟩
  · exact absurd rfl h
  · simp only [List.modifyHead_cons, List.map_cons, List.map_nil, List.intercalate_singleton, hg]
  · simp only [List.modifyHead_cons, List.map_cons, List.intercalate_cons_cons, hg,
      List.cons_append]

/-- The text is its lines, joined by line feeds. -/
theorem withoutReturns_eq (m : List (UInt16 × Bool)) :
    withoutReturns (m.map Prod.fst) = [lineFeed].intercalate ((lines m).map Prod.fst) := by
  induction m using List.twoStepInduction with
  | nil => rfl
  | singleton a =>
    rw [lines]
    split_ifs with ha
    · rw [List.map_singleton, ha]
      rfl
    · rfl
  | cons_cons a b m ihm ih =>
    rw [List.map_cons, List.map_cons, withoutReturns, lines]
    by_cases hpair : a.1 = carriageReturn ∧ b.1 = lineFeed
    · rw [if_pos hpair, if_pos hpair, ihm, List.map_cons,
        List.intercalate_cons_of_ne_nil (mt List.map_eq_nil_iff.mp (lines_ne_nil m))]
      rfl
    · rw [if_neg hpair, if_neg hpair, ← List.map_cons (f := Prod.fst) (a := b), ih]
      by_cases ha : a.1 = lineFeed
      · rw [if_pos ha, ha, List.map_cons,
          List.intercalate_cons_of_ne_nil (mt List.map_eq_nil_iff.mp (lines_ne_nil _))]
        rfl
      · rw [if_neg ha, intercalate_modifyHead Prod.fst (fun line ↦ (a.1 :: line.1, line.2))
          (fun _ ↦ rfl) (lines_ne_nil _)]

/-- Line ends made line feeds in each piece alone. -/
def withoutReturnsIn : List (UInt16 × Bool) → JsString
  | [] => []
  | [(u, _)] => [u]
  | (u, _) :: (v, starts) :: rest =>
    if u = carriageReturn ∧ v = lineFeed ∧ starts = false then lineFeed :: withoutReturnsIn rest
    else u :: withoutReturnsIn ((v, starts) :: rest)

/-- A line feed that no carriage return comes before stands for itself. -/
theorem withoutReturnsIn_lineFeed (starts : Bool) (m : List (UInt16 × Bool)) :
    withoutReturnsIn ((lineFeed, starts) :: m) = lineFeed :: withoutReturnsIn m := by
  rcases m with _ | ⟨⟨v, b⟩, m⟩
  · rfl
  · rw [withoutReturnsIn, if_neg fun h ↦ absurd h.1 (by decide)]

/-- The text the reader sees is its lines too, where a cut line end leaves a carriage return. -/
theorem withoutReturnsIn_eq (m : List (UInt16 × Bool)) :
    withoutReturnsIn m = [lineFeed].intercalate ((lines m).map seenLine) := by
  induction m using List.twoStepInduction with
  | nil => rfl
  | singleton a =>
    rw [lines]
    split_ifs with ha
    · rw [← Prod.eta a, ha]
      rfl
    · rfl
  | cons_cons a b m ihm ih =>
    obtain ⟨u, starts⟩ := a
    obtain ⟨v, starts'⟩ := b
    rw [withoutReturnsIn, lines]
    by_cases hpair : u = carriageReturn ∧ v = lineFeed
    · obtain ⟨rfl, rfl⟩ := hpair
      rw [if_pos (show carriageReturn = carriageReturn ∧ lineFeed = lineFeed from ⟨rfl, rfl⟩),
        List.map_cons, List.intercalate_cons_of_ne_nil (mt List.map_eq_nil_iff.mp (lines_ne_nil m)),
        ← ihm]
      cases starts'
      · rw [if_pos ⟨rfl, rfl, rfl⟩]
        rfl
      · rw [if_neg fun h ↦ absurd h.2.2 Bool.noConfusion, withoutReturnsIn_lineFeed]
        rfl
    · rw [if_neg hpair, if_neg fun h ↦ hpair ⟨h.1, h.2.1⟩, ih]
      by_cases hu : u = lineFeed
      · rw [if_pos hu, hu, List.map_cons,
          List.intercalate_cons_of_ne_nil (mt List.map_eq_nil_iff.mp (lines_ne_nil _))]
        rfl
      · rw [if_neg hu]
        refine (intercalate_modifyHead seenLine (fun line ↦ (u :: line.1, line.2)) (fun line ↦ ?_)
          (lines_ne_nil _)).symm
        rw [seenLine, seenLine]
        split_ifs <;> rfl

/-- Whether a piece starts at the first unit makes no difference. -/
theorem withoutReturnsIn_cons (u : UInt16) (starts starts' : Bool) (m : List (UInt16 × Bool)) :
    withoutReturnsIn ((u, starts) :: m) = withoutReturnsIn ((u, starts') :: m) := by
  rcases m with _ | ⟨⟨v, b⟩, m⟩
  · rfl
  · rw [withoutReturnsIn, withoutReturnsIn]

/-- One piece, and what starts with a new piece behind it. -/
theorem withoutReturnsIn_append (text : JsString) {m : List (UInt16 × Bool)}
    (hm : ∀ a ∈ m.head?, a.2 = true) :
    withoutReturnsIn (text.map (·, false) ++ m) = withoutReturns text ++ withoutReturnsIn m := by
  induction text using List.twoStepInduction with
  | nil => rfl
  | singleton u =>
    rcases m with _ | ⟨⟨v, b⟩, m⟩
    · rfl
    · have hb : b = true := hm (v, b) rfl
      rw [List.map_singleton, List.singleton_append, withoutReturnsIn,
        if_neg fun h ↦ absurd (hb.symm.trans h.2.2) Bool.noConfusion]
      rfl
  | cons_cons u v text ih ih' =>
    rw [List.map_cons, List.map_cons, List.cons_append, List.cons_append, withoutReturnsIn,
      withoutReturns]
    by_cases hpair : u = carriageReturn ∧ v = lineFeed
    · rw [if_pos ⟨hpair.1, hpair.2, rfl⟩, if_pos hpair, ih]
      rfl
    · rw [if_neg fun h ↦ hpair ⟨h.1, h.2.1⟩, if_neg hpair]
      exact congrArg (u :: ·) (ih' v)

theorem marked_cons (text : JsString) (texts : List JsString) :
    marked (text :: texts) = mark text ++ marked texts := List.flatMap_cons

theorem marked_head {texts : List JsString} : ∀ a ∈ (marked texts).head?, a.2 = true := by
  induction texts with
  | nil => exact fun a ha ↦ absurd ha (Option.not_mem_none a)
  | cons text texts ih =>
    rcases text with _ | ⟨u, text⟩
    · exact ih
    · intro a ha
      obtain rfl := Option.some.inj ha
      rfl

/-- What the reader puts together from the texts. -/
theorem flatMap_withoutReturns (texts : List JsString) :
    texts.flatMap withoutReturns = withoutReturnsIn (marked texts) := by
  induction texts with
  | nil => rfl
  | cons text texts ih =>
    rw [List.flatMap_cons, ih, marked_cons, ← withoutReturnsIn_append text marked_head]
    rcases text with _ | ⟨u, text⟩
    · rfl
    · exact withoutReturnsIn_cons u false true _

theorem marked_map_fst (texts : List JsString) : (marked texts).map Prod.fst = texts.flatten := by
  induction texts with
  | nil => rfl
  | cons text texts ih =>
    rw [marked_cons, List.map_append, ih, List.flatten_cons]
    rcases text with _ | ⟨u, text⟩
    · rfl
    · rw [mark, List.map_cons, List.map_map]
      exact congrArg (u :: · ++ texts.flatten) (List.map_id text)

/-! ## Payloads by lines -/

/-- The payloads of lines, given the data of the frame that was begun. -/
def linePayloads (data : List JsString) : List JsString → List JsString
  | [] => yieldData data
  | line :: rest =>
    if isDataLine line then linePayloads (data ++ [dataOf line]) rest
    else if line = [] then yieldData data ++ linePayloads [] rest
    else linePayloads data rest

theorem frameData_line {line : JsString} (h : lineFeed ∉ line) :
    frameData line = if isDataLine line then [dataOf line] else [] := by
  rw [frameData, List.splitOn_eq_singleton h, List.filter_singleton]
  by_cases hline : isDataLine line = true
  · rw [hline, if_pos rfl]
    rfl
  · rw [Bool.not_eq_true] at hline
    rw [hline, if_neg Bool.false_ne_true]
    rfl

theorem frameData_append (s t : JsString) :
    frameData (s ++ lineFeed :: t) = frameData s ++ frameData t := by
  rw [frameData, List.splitOn_append_cons_self, List.filter_append, List.map_append]
  rfl

/-- A line that is not empty only adds its data. -/
theorem linePayloads_cons {line : JsString} (h : lineFeed ∉ line) {data : List JsString}
    (hdata : line = [] → data = []) (rest : List JsString) :
    linePayloads data (line :: rest) = linePayloads (data ++ frameData line) rest := by
  rw [linePayloads, frameData_line h]
  split_ifs with hline hempty
  · rfl
  · rw [hdata hempty]
    rfl
  · rw [List.append_nil]

theorem yieldData_nil : yieldData [] = [] := rfl

/-- **Frames and lines agree**: the first frame goes with the data that was begun. -/
theorem linePayloads_blocks {ls : List JsString} (hfree : ∀ l ∈ ls, lineFeed ∉ l)
    {data : List JsString} (hdata : ls.head? = some [] → ls.tail ≠ [] → data = [])
    {frame : JsString} {frames : List JsString}
    (h : blocks lineFeed ([lineFeed].intercalate ls) = frame :: frames) :
    linePayloads data ls = yieldData (data ++ frameData frame) ++ frames.flatMap framePayload := by
  induction ls using List.twoStepInduction generalizing data frame frames with
  | nil =>
    obtain ⟨rfl, rfl⟩ := List.cons.inj h
    exact (congrArg yieldData (List.append_nil data)).symm.trans (List.append_nil _).symm
  | singleton l =>
    have hl := hfree l List.mem_cons_self
    rw [List.intercalate_singleton, blocks_of_notMem hl] at h
    obtain ⟨rfl, rfl⟩ := List.cons.inj h
    rw [List.flatMap_nil, List.append_nil]
    rw [linePayloads, frameData_line hl]
    split_ifs with hline hempty
    · rfl
    · rw [List.append_nil, linePayloads, yieldData_nil, List.append_nil]
    · rw [List.append_nil, linePayloads]
  | cons_cons l l' ls ih ih' =>
    have hl := hfree l List.mem_cons_self
    have hrest : ∀ k ∈ l' :: ls, lineFeed ∉ k := fun k hk ↦ hfree k (List.mem_cons_of_mem _ hk)
    rw [List.intercalate_cons_cons, List.append_assoc, List.singleton_append] at h
    rw [linePayloads_cons hl fun he ↦ hdata (he ▸ rfl) (List.cons_ne_nil _ _)]
    by_cases hend : l' = [] ∧ ls ≠ []
    · -- The second line is empty and another one follows, so the first line ends its frame.
      obtain ⟨rfl, hne⟩ := hend
      rw [List.intercalate_cons_of_ne_nil hne, List.nil_append, List.singleton_append,
        blocks_line_delimiter hl] at h
      obtain ⟨rfl, rfl⟩ := List.cons.inj h
      rcases hblocks : blocks lineFeed ([lineFeed].intercalate ls) with _ | ⟨first, others⟩
      · exact absurd hblocks (blocks_ne_nil _)
      · rw [linePayloads, if_neg (by decide), if_pos rfl,
          ih (fun k hk ↦ hrest k (List.mem_cons_of_mem _ hk)) (fun _ _ ↦ rfl) hblocks,
          List.flatMap_cons]
        rfl
    · -- The frame goes on behind the first line.
      have hhead : ([lineFeed].intercalate (l' :: ls)).head? ≠ some lineFeed := by
        rcases l' with _ | ⟨u, l'⟩
        · obtain rfl : ls = [] := by_contra fun hne ↦ hend ⟨rfl, hne⟩
          exact (Option.some_ne_none _).symm
        · have hu : lineFeed ≠ u := fun he ↦
            hrest _ List.mem_cons_self (he ▸ List.mem_cons_self)
          rcases ls with _ | ⟨k, ls⟩
          · exact fun h ↦ hu (Option.some.inj h).symm
          · rw [List.intercalate_cons_cons]
            exact fun h ↦ hu (Option.some.inj h).symm
      rw [blocks_line hl hhead] at h
      rcases hblocks : blocks lineFeed ([lineFeed].intercalate (l' :: ls)) with _ | ⟨first, others⟩
      · exact absurd hblocks (blocks_ne_nil _)
      · rw [hblocks] at h
        obtain ⟨rfl, rfl⟩ := List.cons.inj h
        rw [ih' l' hrest (fun he hne ↦ absurd ⟨Option.some.inj he, hne⟩ hend) hblocks,
          frameData_append, List.append_assoc]

/-- The payloads of a text, from its lines. -/
theorem payloads_intercalate {ls : List JsString} (hfree : ∀ l ∈ ls, lineFeed ∉ l) :
    payloads ([lineFeed].intercalate ls) = linePayloads [] ls := by
  rcases hblocks : blocks lineFeed ([lineFeed].intercalate ls) with _ | ⟨frame, frames⟩
  · exact absurd hblocks (blocks_ne_nil _)
  · rw [linePayloads_blocks hfree (fun _ _ ↦ rfl) hblocks, payloads, hblocks, List.flatMap_cons]
    rfl

/-! ## Cuts that do no harm -/

/-- Where a reader of the lines is: no data since the last empty line, some data since, or some data
and after it empty lines only the ends of which were cut. -/
inductive Grouping where
  | fresh
  | data
  | severed
  deriving DecidableEq

/-- An empty line whose end was cut. -/
def Grouping.sever : Grouping → Grouping
  | .fresh => .fresh
  | .data | .severed => .severed

/-- The cuts between a carriage return and a line feed do no harm: the line is no data line with
data, and no two data lines have only such empty lines between them. -/
def CutsDoNoHarm (g : Grouping) : List (JsString × Bool) → Prop
  | [] => True
  | (line, cut) :: rest =>
    if isDataLine line then
      g ≠ .severed ∧ (cut = true → dataOf line = []) ∧ CutsDoNoHarm .data rest
    else if line = [] then CutsDoNoHarm (if cut then g.sever else .fresh) rest
    else CutsDoNoHarm g rest

/-- A carriage return makes no data line. -/
theorem isDataLine_concat (line : JsString) :
    isDataLine (line ++ [carriageReturn]) = isDataLine line := by
  rw [Bool.eq_iff_iff, isDataLine, isDataLine, List.isPrefixOf_iff_prefix,
    List.isPrefixOf_iff_prefix, List.prefix_concat_iff]
  refine ⟨fun h ↦ h.resolve_left fun heq ↦ ?_, Or.inr⟩
  have hlast := congrArg List.getLast? heq
  rw [List.getLast?_concat] at hlast
  exact absurd hlast (by decide)

/-- Only data keeps a carriage return. -/
theorem dataOf_concat {line : JsString} (h : isDataLine line = true) :
    dataOf (line ++ [carriageReturn])
      = if dataOf line = [] then [] else dataOf line ++ [carriageReturn] := by
  have hlength : 5 ≤ line.length := (List.isPrefixOf_iff_prefix.mp h).length_le
  rw [dataOf, dataOf, List.drop_append_of_le_length hlength, List.dropWhile_append]
  by_cases hempty : (line.drop 5).dropWhile isStrWhiteSpace = []
  · rw [hempty]
    rfl
  · rw [if_neg hempty, if_neg (mt List.isEmpty_iff.mp hempty)]

theorem seenLine_ne_nil {line : JsString} (h : line ≠ []) (cut : Bool) :
    seenLine (line, cut) ≠ [] := by
  rw [seenLine]
  split_ifs
  · exact List.append_ne_nil_of_right_ne_nil _ (List.cons_ne_nil _ _)
  · exact h

theorem seenLine_cut_ne_nil (line : JsString) : seenLine (line, true) ≠ [] :=
  List.append_ne_nil_of_right_ne_nil _ (List.cons_ne_nil _ _)

theorem dataOf_seenLine {line : JsString} (h : isDataLine line = true) {cut : Bool}
    (hcut : cut = true → dataOf line = []) : dataOf (seenLine (line, cut)) = dataOf line := by
  rcases cut with _ | _
  · rfl
  · rw [show seenLine (line, true) = line ++ [carriageReturn] from rfl, dataOf_concat h,
      if_pos (hcut rfl), hcut rfl]

theorem isDataLine_seenLine (line : JsString × Bool) :
    isDataLine (seenLine line) = isDataLine line.1 := by
  rw [seenLine]
  split_ifs
  · exact isDataLine_concat line.1
  · rfl

/-! ### The length of what is yielded

A carriage return that is kept and two frames that are read as one both make the payloads longer,
and nothing makes them shorter. So they are the same only when nothing of the kind happened. -/

/-- The units yielded on account of lines, given whether data of the frame was read before. -/
def yieldedUnits (begun : Bool) : List JsString → ℕ
  | [] => 0
  | line :: rest =>
    if isDataLine line then
      (dataOf line).length + (if begun then 1 else 0) + yieldedUnits true rest
    else if line = [] then yieldedUnits false rest
    else yieldedUnits begun rest

theorem flatten_yieldData (data : List JsString) :
    (yieldData data).flatten = [lineFeed].intercalate data := by
  rw [yieldData]
  split_ifs with h
  · exact h.symm
  · exact List.append_nil _

theorem length_intercalate_concat (data : List JsString) (line : JsString) :
    ([lineFeed].intercalate (data ++ [line])).length
      = ([lineFeed].intercalate data).length + line.length + (if data = [] then 0 else 1) := by
  induction data with
  | nil =>
    rw [List.nil_append, List.intercalate_singleton, if_pos rfl]
    exact (Nat.zero_add _).symm
  | cons first data ih =>
    rw [if_neg (List.cons_ne_nil _ _), List.cons_append]
    rcases data with _ | ⟨second, data⟩
    · rw [List.nil_append, List.intercalate_cons_cons, List.intercalate_singleton,
        List.intercalate_singleton, List.length_append, List.length_append, List.length_singleton]
      omega
    · rw [if_neg (List.cons_ne_nil _ _)] at ih
      rw [List.cons_append, List.intercalate_cons_cons, List.intercalate_cons_cons,
        ← List.cons_append]
      simp only [List.length_append]
      rw [ih]
      omega

theorem length_linePayloads (data ls : List JsString) :
    (linePayloads data ls).flatten.length
      = ([lineFeed].intercalate data).length + yieldedUnits (!data.isEmpty) ls := by
  induction ls generalizing data with
  | nil =>
    rw [linePayloads, flatten_yieldData]
    rfl
  | cons line ls ih =>
    rw [linePayloads, yieldedUnits]
    split_ifs with hline hdata hempty
    · rw [ih, length_intercalate_concat]
      rcases data with _ | ⟨first, data⟩
      · exact absurd hdata (by decide)
      · rw [if_neg (List.cons_ne_nil _ _)]
        exact by rw [List.cons_append]; simp only [List.isEmpty_cons, Bool.not_false]; omega
    · rw [ih, length_intercalate_concat]
      rcases data with _ | ⟨first, data⟩
      · rw [if_pos rfl]
        exact by simp only [List.nil_append, List.isEmpty_cons, Bool.not_false]; omega
      · exact absurd rfl hdata
    · rw [List.flatten_append, List.length_append, flatten_yieldData, ih]
      exact congrArg _ (Nat.zero_add _)
    · exact ih data

/-- Whether a reader of the whole text has begun a frame. -/
def Grouping.begun : Grouping → Bool
  | .data => true
  | .fresh | .severed => false

/-- Whether the reader of the pieces has. -/
def Grouping.seenBegun : Grouping → Bool
  | .fresh => false
  | .data | .severed => true

@[simp] theorem Grouping.begun_sever (g : Grouping) : g.sever.begun = false := by
  rcases g <;> rfl

@[simp] theorem Grouping.seenBegun_sever (g : Grouping) : g.sever.seenBegun = g.seenBegun := by
  rcases g <;> rfl

theorem Grouping.begun_le (g : Grouping) :
    (if g.begun then 1 else 0) ≤ (if g.seenBegun then 1 else 0) ∧
      ((if g.begun then 1 else 0) = (if g.seenBegun then 1 else 0) → g ≠ .severed) := by
  rcases g <;> decide

theorem length_dataOf_seenLine {line : JsString} (h : isDataLine line = true) (cut : Bool) :
    (dataOf line).length ≤ (dataOf (seenLine (line, cut))).length ∧
      ((dataOf line).length = (dataOf (seenLine (line, cut))).length →
        cut = true → dataOf line = []) := by
  rcases cut with _ | _
  · exact ⟨Nat.le_refl _, fun _ hcut ↦ absurd hcut Bool.false_ne_true⟩
  · rw [show seenLine (line, true) = line ++ [carriageReturn] from rfl, dataOf_concat h]
    by_cases hempty : dataOf line = []
    · rw [if_pos hempty, hempty]
      exact ⟨Nat.le_refl _, fun _ _ ↦ rfl⟩
    · rw [if_neg hempty, List.length_append, List.length_singleton]
      exact ⟨Nat.le_succ _, fun heq ↦ absurd heq (Nat.ne_of_lt (Nat.lt_succ_self _))⟩

/-- Reading the pieces yields no less than reading the whole, and no more only when the cuts do no
harm. -/
theorem yieldedUnits_le (g : Grouping) (ls : List (JsString × Bool)) :
    yieldedUnits g.begun (ls.map Prod.fst) ≤ yieldedUnits g.seenBegun (ls.map seenLine) ∧
      (yieldedUnits g.begun (ls.map Prod.fst) = yieldedUnits g.seenBegun (ls.map seenLine) →
        CutsDoNoHarm g ls) := by
  induction ls generalizing g with
  | nil => exact ⟨Nat.le_refl _, fun _ ↦ trivial⟩
  | cons first ls ih =>
    obtain ⟨line, cut⟩ := first
    rw [List.map_cons, List.map_cons, yieldedUnits, yieldedUnits, CutsDoNoHarm,
      isDataLine_seenLine]
    dsimp only
    by_cases hline : isDataLine line = true
    · rw [if_pos hline, if_pos hline, if_pos hline]
      obtain ⟨hle, hcuts⟩ := ih .data
      obtain ⟨hdata, hkept⟩ := length_dataOf_seenLine hline cut
      obtain ⟨hbegun, hsevered⟩ := g.begun_le
      rw [Grouping.begun, Grouping.seenBegun] at hle hcuts
      constructor
      · omega
      · intro heq
        exact ⟨hsevered (by omega), hkept (by omega), hcuts (by omega)⟩
    · rw [if_neg hline, if_neg hline, if_neg hline]
      by_cases hempty : line = []
      · subst hempty
        rw [if_pos rfl, if_pos rfl]
        rcases cut with _ | _
        · rw [if_pos (show seenLine ([], false) = [] from rfl)]
          exact ih .fresh
        · -- The reader of the pieces takes the line for one of the frame.
          rw [if_neg (seenLine_cut_ne_nil [])]
          have hsever := ih g.sever
          rwa [g.begun_sever, g.seenBegun_sever] at hsever
      · rw [if_neg hempty, if_neg hempty, if_neg (seenLine_ne_nil hempty cut)]
        exact ih g

/-- Cuts that do no harm leave the payloads as they are. -/
theorem linePayloads_of_cutsDoNoHarm {g : Grouping} {ls : List (JsString × Bool)}
    (h : CutsDoNoHarm g ls) {data : List JsString} (hdata : g = .fresh → data = []) :
    linePayloads data (ls.map seenLine)
      = if g = .severed then yieldData data ++ linePayloads [] (ls.map Prod.fst)
        else linePayloads data (ls.map Prod.fst) := by
  induction ls generalizing g data with
  | nil =>
    rw [List.map_nil, List.map_nil, linePayloads, linePayloads, yieldData_nil, List.append_nil,
      ite_self]
  | cons first ls ih =>
    obtain ⟨line, cut⟩ := first
    rw [CutsDoNoHarm] at h
    rw [List.map_cons, List.map_cons, linePayloads, isDataLine_seenLine]
    by_cases hline : isDataLine line = true
    · rw [if_pos hline] at h
      obtain ⟨hsevered, hkept, hrest⟩ := h
      rw [if_pos hline, if_neg hsevered, linePayloads, if_pos hline, dataOf_seenLine hline hkept,
        ih hrest Grouping.noConfusion, if_neg Grouping.noConfusion]
    · rw [if_neg hline] at h
      rw [if_neg hline, linePayloads, linePayloads, if_neg hline, if_neg hline]
      by_cases hempty : line = []
      · subst hempty
        rw [if_pos rfl] at h
        rw [if_pos rfl, if_pos rfl, yieldData_nil, List.nil_append]
        rcases cut with _ | _
        · rw [if_pos (show seenLine ([], false) = [] from rfl),
            ih (by exact h) fun _ ↦ rfl, if_neg Grouping.noConfusion, ite_self]
        · rw [if_neg (seenLine_cut_ne_nil [])]
          rcases g with _ | _ | _
          · rw [ih (g := .fresh) h fun _ ↦ hdata rfl, hdata rfl]
            rfl
          · exact ih (g := .severed) h Grouping.noConfusion
          · exact ih (g := .severed) h Grouping.noConfusion
      · rw [if_neg hempty] at h
        rw [if_neg hempty, if_neg hempty, if_neg (seenLine_ne_nil hempty cut), ih h hdata]

/-- **The payloads are the same exactly when the cuts do no harm.** -/
theorem linePayloads_seenLine (ls : List (JsString × Bool)) :
    linePayloads [] (ls.map seenLine) = linePayloads [] (ls.map Prod.fst) ↔
      CutsDoNoHarm .fresh ls := by
  constructor
  · intro h
    have hlength := congrArg (fun payloads ↦ payloads.flatten.length) h
    simp only [length_linePayloads] at hlength
    exact (yieldedUnits_le .fresh ls).2 (Nat.add_left_cancel hlength).symm
  · intro h
    exact linePayloads_of_cutsDoNoHarm h fun _ ↦ rfl

/-! ## The condition -/

variable {maxBufferBytes : ℕ}

/-- The lines of a body that came in pieces. -/
def bodyLines (chunks : List (List UInt8)) : List (JsString × Bool) :=
  lines (marked (({} : TextDecoder).texts chunks))

theorem joinedText_eq (chunks : List (List UInt8)) :
    joinedText chunks = [lineFeed].intercalate ((bodyLines chunks).map seenLine) := by
  rw [joinedText, flatMap_withoutReturns, withoutReturnsIn_eq, bodyLines]

theorem bodyText_eq (chunks : List (List UInt8)) :
    bodyText chunks.flatten = [lineFeed].intercalate ((bodyLines chunks).map Prod.fst) := by
  rw [bodyLines, ← withoutReturns_eq, marked_map_fst, TextDecoder.texts_flatten, bodyText,
    decodeText]

theorem lineFeed_notMem_seenLine {line : JsString × Bool} (h : lineFeed ∉ line.1) :
    lineFeed ∉ seenLine line := by
  rw [seenLine]
  split_ifs
  · exact fun hmem ↦ (List.mem_append.mp hmem).elim h (by decide)
  · exact h

/-- What is yielded is what the text asks for exactly when the cuts do no harm. -/
theorem payloads_joinedText (chunks : List (List UInt8)) :
    payloads (joinedText chunks) = payloads (bodyText chunks.flatten) ↔
      CutsDoNoHarm .fresh (bodyLines chunks) := by
  rw [joinedText_eq, bodyText_eq, payloads_intercalate, payloads_intercalate,
    linePayloads_seenLine]
  · rintro l hl
    obtain ⟨line, hline, rfl⟩ := List.mem_map.mp hl
    exact lineFeed_notMem_lines hline
  · rintro l hl
    obtain ⟨line, hline, rfl⟩ := List.mem_map.mp hl
    exact lineFeed_notMem_seenLine (lineFeed_notMem_lines hline)

/-- **When the pieces do not matter.** The reader treats a body as its bytes ask for exactly when
either some frame is over the limit and also some piece with what was left before it, or no frame
is, every piece fits behind what was left before it, and the cuts do no harm. -/
theorem readsWhole_iff (maxBufferBytes : ℕ) (chunks : List (List UInt8)) :
    ReadsWhole maxBufferBytes chunks ↔
      Oversize maxBufferBytes (bodyText chunks.flatten) ∧
          ¬ Fits maxBufferBytes [] (({} : TextDecoder).texts chunks) ∨
        ¬ Oversize maxBufferBytes (bodyText chunks.flatten) ∧
          Fits maxBufferBytes [] (({} : TextDecoder).texts chunks) ∧
            CutsDoNoHarm .fresh (bodyLines chunks) := by
  obtain ⟨hfit, hover⟩ := readSseData_spec maxBufferBytes chunks
  rw [ReadsWhole]
  by_cases hfits : Fits maxBufferBytes [] (({} : TextDecoder).texts chunks)
  · rw [hfit hfits, ← payloads_joinedText chunks]
    -- No error: the limit must not be over, and the payloads decide.
    constructor
    · rintro ⟨herror, hitems⟩
      have hsmall := fun hover ↦ herror.mpr hover rfl
      exact Or.inr ⟨hsmall, hfits, hitems hsmall⟩
    · rintro (⟨-, hnot⟩ | ⟨hsmall, -, hitems⟩)
      · exact absurd hfits hnot
      · exact ⟨⟨fun h ↦ absurd rfl h, fun h ↦ absurd h hsmall⟩, fun _ ↦ hitems⟩
  · have herror := hover hfits
    constructor
    · rintro ⟨hoversize, -⟩
      exact Or.inl ⟨hoversize.mp herror, hfits⟩
    · rintro (⟨hlarge, -⟩ | ⟨-, hfit', -⟩)
      · exact ⟨⟨fun _ ↦ hlarge, fun _ ↦ herror⟩, fun h ↦ absurd hlarge h⟩
      · exact absurd hfit' hfits

/-- The bytes of an ASCII text. -/
def asciiBytes (s : String) : List UInt8 := s.toList.map fun c ↦ UInt8.ofNat c.toNat

/-- One body cut in two ways that yields `"a"` one way and `"a\r"` the other, and one that is
refused one way only, with no frame over the limit in either. -/
theorem pieces_matter :
    (∃ chunks chunks' : List (List UInt8), chunks.flatten = chunks'.flatten ∧
      ¬ Oversize defaultBufferBytes (bodyText chunks.flatten) ∧
        (readSseData defaultBufferBytes (some chunks)).items = [js "a"] ∧
          (readSseData defaultBufferBytes (some chunks')).items = [js "a\r"]) ∧
      ∃ maxBufferBytes, ∃ chunks chunks' : List (List UInt8), chunks.flatten = chunks'.flatten ∧
        ¬ Oversize maxBufferBytes (bodyText chunks.flatten) ∧
          (readSseData maxBufferBytes (some chunks)).error = none ∧
            (readSseData maxBufferBytes (some chunks')).error ≠ none :=
  ⟨⟨[asciiBytes "data: a\r\n\r\n"], [asciiBytes "data: a\r", asciiBytes "\n\r\n"], by
      decide +kernel⟩,
    12, [asciiBytes "data: a\n\n", asciiBytes "data: b\n\n"],
      [asciiBytes "data: a\n\ndata: b\n\n"], by decide +kernel⟩

/-! ### Bodies whose line ends are whole -/

end LiteHarness.Provider
