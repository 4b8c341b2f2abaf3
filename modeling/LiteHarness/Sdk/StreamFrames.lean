import LiteHarness.Sdk.EventStreams

/-!
# The frames of a stream

Both readers find the frames that `dataFrames` names. The TypeScript reader takes frames off a
buffer: what it has taken does not depend on the pieces the body came in (`takeFrames_append`), and
for a whole body it is, line by line, the frames of the lines (`fields_takeFrames`). The Python
reader goes line by line itself (`iterPayloads_bytes`), and of a body that is cut it sees the first
frames (`responsePayloads_cut`).
-/

namespace LiteHarness.Sdk

open Foundation Provider

/-! ## Lines -/

/-- The code units of a line with its end. -/
def Line.lineText (l : Line) : JsString := l.units ++ textUnits l.ends

theorem Line.feed_notMem (l : Line) : 10 ∉ l.units :=
  fun h ↦ l.feedless (mem_of_mem_textUnits (c := '\n') (by decide) h)

theorem Line.return_notMem (l : Line) : 13 ∉ l.units :=
  fun h ↦ l.returnless (mem_of_mem_textUnits (c := '\r') (by decide) h)

theorem Line.units_eq_nil {l : Line} : l.units = [] ↔ l.text = [] := by
  refine ⟨fun h ↦ ?_, fun h ↦ by rw [Line.units, h]; rfl⟩
  rcases htext : l.text with _ | ⟨c, text⟩
  · rfl
  · rw [Line.units, htext, textUnits, List.flatMap_cons, List.append_eq_nil_iff] at h
    exact absurd h.1 (TextDecoder.codePointUnits_ne_nil c.toNat)

theorem Line.textUnits_whole (l : Line) : textUnits l.whole = l.lineText :=
  List.flatMap_append ..

namespace TypeScript

/-! ## Pieces -/

/-- As long as no frame is over, everything is left. -/
theorem rest_of_none {text : JsString} (h : (takeFrames text).1 = []) :
    (takeFrames text).2 = text := by
  induction text using takeFrames.induct with
  | case1 text ih => exact absurd h nofun
  | case2 text ih => exact absurd h nofun
  | case3 text ih => exact absurd h nofun
  | case4 text ih => exact absurd h nofun
  | case5 u text h₁ h₂ h₃ h₄ ih =>
    rw [takeFrames.eq_5 u text h₁ h₂ h₃ h₄] at h ⊢
    rcases hf : takeFrames text with ⟨_ | ⟨frame, frames⟩, rest⟩
    · rw [hf] at ih
      exact congrArg (u :: ·) (ih rfl)
    · rw [hf] at h
      exact absurd h (List.cons_ne_nil _ _)
  | case6 => rfl

theorem pushFront_append (front : JsString) (r : List JsString × JsString) (hr : r.1 ≠ [])
    (frames : List JsString) (rest : JsString) :
    pushFront front (r.1 ++ frames, rest) = ((pushFront front r).1 ++ frames, rest) := by
  obtain ⟨_ | ⟨frame, before⟩, rest'⟩ := r
  · exact absurd rfl hr
  · rfl

theorem snd_pushFront (front : JsString) {r : List JsString × JsString} (hr : r.1 ≠ []) :
    (pushFront front r).2 = r.2 := by
  obtain ⟨_ | ⟨frame, before⟩, rest'⟩ := r
  · exact absurd rfl hr
  · rfl

/-- **Frames of a longer text**: those of the first part, and those of what is left of it with the
second part. -/
theorem takeFrames_append (s t : JsString) :
    takeFrames (s ++ t) =
      ((takeFrames s).1 ++ (takeFrames ((takeFrames s).2 ++ t)).1,
        (takeFrames ((takeFrames s).2 ++ t)).2) := by
  induction s using takeFrames.induct with
  | case1 text ih =>
    change ([] :: (takeFrames (text ++ t)).1, (takeFrames (text ++ t)).2) = _
    rw [ih]
    rfl
  | case2 text ih =>
    change ([] :: (takeFrames (text ++ t)).1, (takeFrames (text ++ t)).2) = _
    rw [ih]
    rfl
  | case3 text ih =>
    change ([] :: (takeFrames (text ++ t)).1, (takeFrames (text ++ t)).2) = _
    rw [ih]
    rfl
  | case4 text ih =>
    change ([] :: (takeFrames (text ++ t)).1, (takeFrames (text ++ t)).2) = _
    rw [ih]
    rfl
  | case5 u text h₁ h₂ h₃ h₄ ih =>
    by_cases hnone : (takeFrames text).1 = []
    · have hrest := rest_of_none hnone
      have hu : takeFrames (u :: text) = ([], u :: text) := by
        rw [takeFrames.eq_5 u text h₁ h₂ h₃ h₄, show takeFrames text = ([], text) from
          Prod.ext hnone hrest]
        rfl
      rw [hu, List.nil_append]
    · -- a boundary in `text` leaves no room for one that begins at `u`
      have hcons : takeFrames (u :: (text ++ t)) = pushFront [u] (takeFrames (text ++ t)) := by
        rcases text with _ | ⟨a, _ | ⟨b, _ | ⟨c, text⟩⟩⟩
        · exact absurd rfl hnone
        · exact absurd (congrArg Prod.fst (takeFrames.eq_5 a [] nofun nofun nofun nofun)) hnone
        · by_cases hends : a = 10 ∧ b = 10
          · obtain ⟨rfl, rfl⟩ := hends
            exact takeFrames.eq_5 _ _ (fun _ hu _ ↦ h₂ [] hu rfl) (fun _ hu _ ↦ h₂ [] hu rfl)
              (fun _ hu _ ↦ h₄ [10] hu rfl) fun _ hu _ ↦ h₄ [10] hu rfl
          · have hlast : takeFrames [a, b] = pushFront [a] (takeFrames [b]) :=
              takeFrames.eq_5 a [b] nofun nofun nofun fun _ ha hb ↦ hends ⟨ha, (List.cons.inj hb).1⟩
            rw [hlast, takeFrames.eq_5 b [] nofun nofun nofun nofun] at hnone
            exact absurd rfl hnone
        · refine takeFrames.eq_5 _ _ ?_ ?_ ?_ ?_ <;> rintro text' hu heq
          · obtain ⟨rfl, rfl, rfl, -⟩ : a = 10 ∧ b = 13 ∧ c = 10 ∧ _ := by simpa using heq
            exact h₁ text hu rfl
          · obtain ⟨rfl, rfl, -⟩ : a = 10 ∧ b = 10 ∧ _ := by simpa using heq
            exact h₂ (c :: text) hu rfl
          · obtain ⟨rfl, rfl, -⟩ : a = 13 ∧ b = 10 ∧ _ := by simpa using heq
            exact h₃ (c :: text) hu rfl
          · obtain ⟨rfl, -⟩ : a = 10 ∧ _ := by simpa using heq
            exact h₄ (b :: c :: text) hu rfl
      rw [List.cons_append, hcons, ih, pushFront_append _ _ hnone,
        takeFrames.eq_5 u text h₁ h₂ h₃ h₄, snd_pushFront _ hnone]
  | case6 => rfl

/-- No frame is over in what is left. -/
theorem takeFrames_rest (text : JsString) : (takeFrames (takeFrames text).2).1 = [] := by
  have happend := congrArg Prod.fst (takeFrames_append text [])
  rw [List.append_nil, List.append_nil] at happend
  exact List.append_right_eq_self.mp happend.symm

theorem frameEvents_append (frames frames' : List JsString) :
    frameEvents (frames ++ frames') = (frameEvents frames).andThen (frameEvents frames') := by
  induction frames with
  | nil => rfl
  | cons frame frames ih =>
    rw [List.cons_append, frameEvents, frameEvents]
    split_ifs with hempty
    · exact ih
    · rcases parseEventFrame _ with e | event
      · rfl
      · exact ((Generated.andThen_assoc ..).trans (by rw [ih])).symm

/-- The pieces do not matter. -/
theorem readTexts_eq {buffer : JsString} (hbuffer : (takeFrames buffer).1 = [])
    (texts : List JsString) :
    readTexts buffer texts = frameEvents (takeFrames (buffer ++ texts.flatten)).1 := by
  induction texts generalizing buffer with
  | nil =>
    rw [List.flatten_nil, List.append_nil, hbuffer]
    rfl
  | cons text texts ih =>
    rw [readTexts, ih (takeFrames_rest _), List.flatten_cons, ← List.append_assoc,
      takeFrames_append (buffer ++ text), frameEvents_append]

/-- **The reader sees the text of a body**, in whatever pieces it comes. -/
theorem readEventStream_eq (chunks : List Bytes) :
    readEventStream chunks = frameEvents (takeFrames (decodeText chunks.flatten)).1 := by
  rw [readEventStream, readTexts_eq rfl, TextDecoder.texts_flatten]
  rfl

/-! ## Lines -/

theorem takeFrames_cons {u : UInt16} (hfeed : u ≠ 10) (hreturn : u ≠ 13) (text : JsString) :
    takeFrames (u :: text) = pushFront [u] (takeFrames text) :=
  takeFrames.eq_5 u text (fun _ h ↦ absurd h hreturn) (fun _ h ↦ absurd h hreturn)
    (fun _ h ↦ absurd h hfeed) fun _ h ↦ absurd h hfeed

theorem pushFront_nil (r : List JsString × JsString) : pushFront [] r = r := by
  obtain ⟨_ | ⟨frame, frames⟩, rest⟩ := r
  · rfl
  · rfl

theorem pushFront_pushFront (front back : JsString) (r : List JsString × JsString) :
    pushFront front (pushFront back r) = pushFront (front ++ back) r := by
  obtain ⟨_ | ⟨frame, frames⟩, rest⟩ := r
  · exact congrArg (Prod.mk []) (List.append_assoc ..).symm
  · exact congrArg (fun f ↦ (f :: frames, rest)) (List.append_assoc ..).symm

/-- Nothing begins in units that end no line. -/
theorem takeFrames_append_of_free {front : JsString} (hfeed : 10 ∉ front) (hreturn : 13 ∉ front)
    (text : JsString) : takeFrames (front ++ text) = pushFront front (takeFrames text) := by
  induction front with
  | nil => exact (pushFront_nil _).symm
  | cons u front ih =>
    rw [List.mem_cons, not_or] at hfeed hreturn
    rw [List.cons_append, takeFrames_cons (Ne.symm hfeed.1) (Ne.symm hreturn.1),
      ih hfeed.2 hreturn.2, pushFront_pushFront]
    rfl

/-- A line end, an empty line and whatever is behind it. -/
theorem takeFrames_blank (l blank : Line) (hblank : blank.text = []) (text : JsString) :
    takeFrames (l.lineText ++ (blank.lineText ++ text)) =
      (l.units :: (takeFrames text).1, (takeFrames text).2) := by
  rw [Line.lineText, Line.lineText, Line.units_eq_nil.mpr hblank, List.nil_append,
    List.append_assoc, takeFrames_append_of_free l.feed_notMem l.return_notMem]
  have hends : takeFrames (textUnits l.ends ++ (textUnits blank.ends ++ text)) =
      ([] :: (takeFrames text).1, (takeFrames text).2) := by
    rw [Line.ends, Line.ends]
    rcases l.crlf with _ | _ <;> rcases blank.crlf with _ | _ <;> rfl
  rw [hends, pushFront, List.append_nil]

/-- A line end and a line that is not empty. -/
theorem takeFrames_line (l next : Line) (hnext : next.text ≠ []) (text : JsString) :
    takeFrames (l.lineText ++ (next.lineText ++ text)) =
      pushFront l.lineText (takeFrames (next.lineText ++ text)) := by
  obtain ⟨u, rest, hunits⟩ := List.exists_cons_of_ne_nil (mt Line.units_eq_nil.mp hnext)
  have hmem : u ∈ next.units := hunits ▸ List.mem_cons_self
  have hfeed : u ≠ 10 := fun h ↦ next.feed_notMem (h ▸ hmem)
  have hreturn : u ≠ 13 := fun h ↦ next.return_notMem (h ▸ hmem)
  have hfirst : ∀ s, takeFrames (10 :: u :: s) = pushFront [10] (takeFrames (u :: s)) := fun s ↦
    takeFrames.eq_5 10 (u :: s) nofun nofun (fun _ _ h ↦ hreturn (List.cons.inj h).1)
      fun _ _ h ↦ hfeed (List.cons.inj h).1
  have hends : ∀ s, takeFrames (textUnits l.ends ++ u :: s) =
      pushFront (textUnits l.ends) (takeFrames (u :: s)) := fun s ↦ by
    rw [Line.ends]
    rcases l.crlf with _ | _
    · exact hfirst s
    · change takeFrames (13 :: 10 :: u :: s) = pushFront [13, 10] _
      rw [takeFrames.eq_5 13 (10 :: u :: s)
        (fun _ _ h ↦ hreturn (List.cons.inj (List.cons.inj h).2).1)
        (fun _ _ h ↦ hfeed (List.cons.inj (List.cons.inj h).2).1) nofun nofun, hfirst,
        pushFront_pushFront]
      rfl
  rw [Line.lineText, List.append_assoc,
    takeFrames_append_of_free l.feed_notMem l.return_notMem, Line.lineText, hunits,
    List.append_assoc, List.cons_append, hends, pushFront_pushFront]

/-! ## Fields -/

/-- The field of a line, if it has one. -/
def lineFields (l : Line) : List JsString := if isDataLine l.units then [l.units.drop 5] else []

theorem splitLines_ne_nil (text : JsString) : splitLines text ≠ [] := by
  rw [splitLines.eq_def]
  split
  · exact List.cons_ne_nil _ _
  · exact List.cons_ne_nil _ _
  · exact List.cons_ne_nil _ _
  · split <;> exact List.cons_ne_nil _ _

theorem splitLines_cons {u : UInt16} (hfeed : u ≠ 10) (hreturn : u ≠ 13) (text : JsString) :
    ∃ line lines, splitLines text = line :: lines ∧
      splitLines (u :: text) = (u :: line) :: lines := by
  obtain ⟨line, lines, hlines⟩ := List.exists_cons_of_ne_nil (splitLines_ne_nil text)
  refine ⟨line, lines, hlines, ?_⟩
  rw [splitLines.eq_4 u text (fun _ h ↦ absurd h hreturn) hfeed, hlines]

theorem splitLines_append_of_free {front : JsString} (hfeed : 10 ∉ front) (hreturn : 13 ∉ front)
    (text : JsString) : ∃ line lines, splitLines text = line :: lines ∧
      splitLines (front ++ text) = (front ++ line) :: lines := by
  induction front with
  | nil =>
    obtain ⟨line, lines, htext⟩ := List.exists_cons_of_ne_nil (splitLines_ne_nil text)
    exact ⟨line, lines, htext, htext⟩
  | cons u front ih =>
    rw [List.mem_cons, not_or] at hfeed hreturn
    obtain ⟨line, lines, htext, hfront⟩ := ih hfeed.2 hreturn.2
    obtain ⟨line', lines', hsplit, hcons⟩ :=
      splitLines_cons (Ne.symm hfeed.1) (Ne.symm hreturn.1) (front ++ text)
    obtain ⟨rfl, rfl⟩ := List.cons.inj (hfront.symm.trans hsplit)
    exact ⟨line, lines, htext, hcons⟩

theorem frameFields_units (l : Line) : frameFields l.units = lineFields l := by
  obtain ⟨line, lines, hnil, hsplit⟩ :=
    splitLines_append_of_free l.feed_notMem l.return_notMem []
  obtain ⟨rfl, rfl⟩ := List.cons.inj hnil
  rw [List.append_nil] at hsplit
  rw [frameFields, hsplit, lineFields]
  split_ifs with hdata
  · rw [List.filter_cons_of_pos hdata]
    rfl
  · rw [List.filter_cons_of_neg hdata]
    rfl

theorem frameFields_lineText (l : Line) (frame : JsString) :
    frameFields (l.lineText ++ frame) = lineFields l ++ frameFields frame := by
  obtain ⟨line, lines, hends, hsplit⟩ := splitLines_append_of_free l.feed_notMem
    l.return_notMem (textUnits l.ends ++ frame)
  have hnext : splitLines (textUnits l.ends ++ frame) = [] :: splitLines frame := by
    rw [Line.ends]
    rcases l.crlf with _ | _ <;> rfl
  obtain ⟨rfl, rfl⟩ := List.cons.inj (hnext.symm.trans hends)
  rw [List.append_nil] at hsplit
  rw [frameFields, Line.lineText, List.append_assoc, hsplit, lineFields]
  split_ifs with hdata
  · rw [List.filter_cons_of_pos hdata]
    rfl
  · rw [List.filter_cons_of_neg hdata]
    rfl

/-- Fields in front of those of the first frame. -/
def pushFields (fields : List JsString) : List (List JsString) → List (List JsString)
  | [] => []
  | frame :: frames => (fields ++ frame) :: frames

/-- The fields of the frames that are taken. -/
def takenFields (lines : List Line) : List (List JsString) :=
  (takeFrames (lines.flatMap Line.lineText)).1.map frameFields

theorem takenFields_blank (l blank : Line) (hblank : blank.text = []) (lines : List Line) :
    takenFields (l :: blank :: lines) = lineFields l :: takenFields lines := by
  rw [takenFields, List.flatMap_cons, List.flatMap_cons, takeFrames_blank l blank hblank,
    List.map_cons, frameFields_units, takenFields]

theorem takenFields_line (l next : Line) (hnext : next.text ≠ []) (lines : List Line) :
    takenFields (l :: next :: lines) = pushFields (lineFields l) (takenFields (next :: lines)) := by
  rw [takenFields, List.flatMap_cons, List.flatMap_cons, takeFrames_line l next hnext, takenFields,
    List.flatMap_cons]
  rcases takeFrames (next.lineText ++ lines.flatMap Line.lineText) with ⟨_ | ⟨frame, frames⟩, rest⟩
  · rfl
  · exact congrArg (· :: frames.map frameFields) (frameFields_lineText l frame)

theorem takenFields_singleton (l : Line) : takenFields [l] = [] := by
  have hends : takeFrames (textUnits l.ends) = ([], textUnits l.ends) := by
    rw [Line.ends]
    rcases l.crlf with _ | _ <;> rfl
  rw [takenFields, List.flatMap_singleton, Line.lineText,
    takeFrames_append_of_free l.feed_notMem l.return_notMem, hends]
  rfl

theorem lineFields_blank {l : Line} (hl : l.text = []) : lineFields l = [] := by
  rw [lineFields, Line.units_eq_nil.mpr hl]
  rfl

/-- A line that ends no frame. -/
theorem dataFrames_line (l : Line) (fields lines : List JsString)
    (hstart : l.text = [] → fields = []) :
    dataFrames fields (l.units :: lines) = dataFrames (fields ++ lineFields l) lines := by
  by_cases hl : l.text = []
  · rw [dataFrames, if_pos (Line.units_eq_nil.mpr hl), if_pos (hstart hl), lineFields_blank hl,
      hstart hl]
    rfl
  · rw [dataFrames, if_neg (mt Line.units_eq_nil.mp hl), lineFields]
    split_ifs
    · rfl
    · rw [List.append_nil]

/-- An empty line ends a frame, if there is one. -/
theorem dataFrames_blank {l : Line} (hl : l.text = []) (fields lines : List JsString) :
    dataFrames fields (l.units :: lines) =
      [fields].filter (· ≠ []) ++ dataFrames [] lines := by
  rw [dataFrames, if_pos (Line.units_eq_nil.mpr hl)]
  split_ifs with hnone
  · rw [hnone]
    rfl
  · simp [hnone]

theorem pushFields_nil (frames : List (List JsString)) : pushFields [] frames = frames := by
  rcases frames with _ | ⟨frame, frames⟩
  · rfl
  · rfl

theorem pushFields_pushFields (fields fields' : List JsString) (frames : List (List JsString)) :
    pushFields fields (pushFields fields' frames) = pushFields (fields ++ fields') frames := by
  rcases frames with _ | ⟨frame, frames⟩
  · rfl
  · exact congrArg (· :: frames) (List.append_assoc ..).symm

/-- **The frames that are taken are those of the lines**, by induction on the lines. -/
theorem fields_takeFrames (fields : List JsString) (lines : List Line)
    (hstart : ∀ l ∈ lines.head?, l.text = [] → fields = []) :
    dataFrames fields (lines.map Line.units) =
      (pushFields fields (takenFields lines)).filter (· ≠ []) := by
  induction lines using List.twoStepInduction generalizing fields with
  | nil => rfl
  | singleton l =>
    rw [List.map_singleton, dataFrames_line l _ _ (hstart l rfl), takenFields_singleton]
    rfl
  | cons_cons l next lines ihlines ih =>
    rw [List.map_cons, dataFrames_line l _ _ (hstart l rfl)]
    by_cases hnext : next.text = []
    · rw [List.map_cons, dataFrames_blank hnext, takenFields_blank l next hnext,
        ihlines [] fun _ _ _ ↦ rfl, pushFields_nil, pushFields, ← List.filter_append]
      rfl
    · rw [ih next (fields ++ lineFields l) fun l' hl' hempty ↦ ?_, takenFields_line l next hnext,
        pushFields_pushFields]
      exact absurd (Option.some.inj hl' ▸ hempty) hnext

/-- The frames of a stream, taken off its text. -/
theorem streamFrames_eq (lines : List Line) :
    streamFrames lines = (takenFields lines).filter (· ≠ []) := by
  rw [streamFrames, fields_takeFrames [] lines fun _ _ _ ↦ rfl, pushFields_nil]

/-! ## The TypeScript reader -/

/-- The event of a frame. -/
def frameEvent (fields : List JsString) : Except SdkError Event :=
  parseEventFrame ([lineFeed].intercalate (fields.map trimStart))

theorem frameEvents_eq (frames : List JsString) :
    frameEvents frames = Generated.ofEach frameEvent ((frames.map frameFields).filter
      fun fields ↦ [lineFeed].intercalate (fields.map trimStart) ≠ []) := by
  induction frames with
  | nil => rfl
  | cons frame frames ih =>
    rw [frameEvents, List.map_cons]
    split_ifs with hempty
    · rw [List.filter_cons_of_neg (by simpa using hempty), ih]
    · rw [List.filter_cons_of_pos (by simpa using hempty), Generated.ofEach, ← ih, frameEvent]
      rcases parseEventFrame _ with e | event
      · rfl
      · rfl

end TypeScript

/-- A line without the byte order mark in front of it. -/
def Line.unmarked (l : Line) : Line where
  text := withoutMark l.text
  crlf := l.crlf
  feedless h := l.feedless (mem_of_mem_withoutMark h)
  returnless h := l.returnless (mem_of_mem_withoutMark h)

/-- A stream without the byte order mark in front of it. -/
def unmarked : List Line → List Line
  | [] => []
  | l :: lines => l.unmarked :: lines

theorem streamBytes_eq (lines : List Line) :
    streamBytes lines = encodeText (lines.flatMap Line.whole) := by
  rw [streamBytes, encodeText, List.flatMap_assoc]
  rfl

theorem textUnits_lines (lines : List Line) :
    textUnits (lines.flatMap Line.whole) = lines.flatMap Line.lineText := by
  rw [textUnits, List.flatMap_assoc]
  exact List.flatMap_congr fun l _ ↦ l.textUnits_whole

theorem withoutMark_lines (lines : List Line) :
    withoutMark (lines.flatMap Line.whole) = (unmarked lines).flatMap Line.whole := by
  rcases lines with _ | ⟨l, lines⟩
  · rfl
  · have hends : (l.ends ++ lines.flatMap Line.whole).head? ≠ some '\uFEFF' := by
      rw [Line.ends]
      rcases l.crlf with _ | _
      · exact (by decide : some '\n' ≠ some '\uFEFF')
      · exact (by decide : some '\r' ≠ some '\uFEFF')
    rw [unmarked, List.flatMap_cons, List.flatMap_cons, Line.whole, List.append_assoc,
      withoutMark_append _ hends, ← List.append_assoc]
    rfl

/-- The text of a body. -/
theorem decodeText_streamBytes (lines : List Line) :
    decodeText (streamBytes lines) = (unmarked lines).flatMap Line.lineText := by
  rw [streamBytes_eq, decodeText_encodeText, withoutMark_lines, textUnits_lines]

/-! ## The Python reader -/

namespace Python

/-- The fields of the frame that is not over. -/
def openFields (fields : List JsString) : List JsString → List JsString
  | [] => fields
  | line :: lines =>
    if line = [] then openFields [] lines
    else if isDataLine line then openFields (fields ++ [line.drop 5]) lines
    else openFields fields lines

theorem dataFrames_append (fields lines lines' : List JsString) :
    dataFrames fields (lines ++ lines') =
      dataFrames fields lines ++ dataFrames (openFields fields lines) lines' := by
  induction lines generalizing fields with
  | nil => rfl
  | cons line lines ih =>
    rw [List.cons_append, dataFrames, dataFrames, openFields]
    split_ifs
    · exact ih []
    · exact congrArg (fields :: ·) (ih [])
    · exact ih _
    · exact ih fields

theorem rstripEnds_append {front : JsString} (hfeed : 10 ∉ front) (hreturn : 13 ∉ front)
    {ends : JsString} (hends : ∀ u ∈ ends, u = 13 ∨ u = 10) :
    rstripEnds (front ++ ends) = front := by
  rw [rstripEnds, List.reverse_append, List.dropWhile_append_of_pos fun u hu ↦ by
    simpa using hends u (List.mem_reverse.mp hu)]
  rcases hrev : front.reverse with _ | ⟨u, rest⟩
  · exact (List.reverse_eq_nil_iff.mp hrev).symm
  · have hu : u ∈ front := List.mem_reverse.mp (hrev ▸ List.mem_cons_self)
    have h₁ : u ≠ 13 := fun h ↦ hreturn (h ▸ hu)
    have h₂ : u ≠ 10 := fun h ↦ hfeed (h ▸ hu)
    rw [List.dropWhile_cons_of_neg (by simp [h₁, h₂]), ← hrev, List.reverse_reverse]

/-- The line of a line's bytes. -/
theorem rstripEnds_whole (l : Line) : rstripEnds (textUnits l.whole) = l.units := by
  rw [Line.textUnits_whole, Line.lineText]
  refine rstripEnds_append l.feed_notMem l.return_notMem ?_
  rw [Line.ends]
  rcases l.crlf with _ | _ <;> decide

/-- The payload of a frame. -/
def payloadOf (fields : List JsString) : Except SdkError JsonText :=
  framePayload (fields.map lstrip)

/-- **Whole lines** give the payloads of their frames, and then what is behind them is read. -/
theorem iterPayloads_bytes (fields : List JsString) (lines : List Line) (raws : List Bytes) :
    iterPayloads (fields.map lstrip) (lines.map Line.bytes ++ raws) =
      (Generated.ofEach payloadOf (dataFrames fields (lines.map Line.units))).andThen
        (iterPayloads ((openFields fields (lines.map Line.units)).map lstrip) raws) := by
  induction lines generalizing fields with
  | nil => rfl
  | cons l lines ih =>
    have hdecode : decodeStrict l.bytes = some (textUnits l.whole) := decodeStrict_encodeText _
    rw [List.map_cons, List.cons_append, iterPayloads, hdecode]
    dsimp only
    rw [rstripEnds_whole, List.map_cons, dataFrames, openFields]
    by_cases hblank : l.units = []
    · rw [if_pos hblank, if_pos hblank, if_pos hblank]
      by_cases hnone : fields = []
      · subst hnone
        exact ih []
      · rw [if_neg (mt List.map_eq_nil_iff.mp hnone), if_neg hnone, Generated.ofEach, payloadOf]
        rcases framePayload (fields.map lstrip) with e | payload
        · rfl
        · exact (congrArg (Generated.yields [payload]).andThen (ih [])).trans
            (Generated.andThen_assoc ..).symm
    · rw [if_neg hblank, if_neg hblank, if_neg hblank]
      by_cases hdata : isDataLine l.units = true
      · rw [if_pos hdata, if_pos hdata, if_pos hdata, ← ih, List.map_append]
        rfl
      · rw [if_neg hdata, if_neg hdata, if_neg hdata]
        exact ih fields

/-! ## Cuts -/

theorem rawLines_of_free {bytes : Bytes} (hfeed : 10 ∉ bytes) : rawLines bytes = ([], bytes) := by
  induction bytes with
  | nil => rfl
  | cons b bytes ih =>
    rw [List.mem_cons, not_or] at hfeed
    rw [rawLines, if_neg (Ne.symm hfeed.1), ih hfeed.2]

theorem rawLines_line {front : Bytes} (hfeed : 10 ∉ front) (bytes : Bytes) :
    rawLines (front ++ 10 :: bytes) =
      ((front ++ [10]) :: (rawLines bytes).1, (rawLines bytes).2) := by
  induction front with
  | nil => exact if_pos rfl
  | cons b front ih =>
    rw [List.mem_cons, not_or] at hfeed
    rw [List.cons_append, rawLines, if_neg (Ne.symm hfeed.1), ih hfeed.2]
    rfl

/-- The bytes of a line in front of its line feed. -/
def frontBytes (l : Line) : Bytes := encodeText l.text ++ if l.crlf then [13] else []

theorem bytes_eq (l : Line) : l.bytes = frontBytes l ++ [10] := by
  rw [Line.bytes, Line.whole, Line.ends, frontBytes]
  rcases l.crlf with _ | _
  · rw [if_neg Bool.false_ne_true, if_neg Bool.false_ne_true, encodeText_append, List.append_nil]
    rfl
  · rw [if_pos rfl, if_pos rfl, encodeText_append, List.append_assoc]
    rfl

theorem feed_notMem_frontBytes (l : Line) : 10 ∉ frontBytes l := by
  rw [frontBytes, List.mem_append, not_or]
  constructor
  · exact fun h ↦ l.feedless (mem_of_mem_encodeText (c := '\n') (by decide) h)
  · rcases l.crlf with _ | _ <;> decide

/-- The lines of a body that is cut, and what is left of the line that is cut. -/
theorem rawLines_take (lines : List Line) (n : ℕ) :
    ∃ k rest, rawLines ((streamBytes lines).take n) = ((lines.take k).map Line.bytes, rest) ∧
      (rest = [] ∨ ∃ l, lines[k]? = some l ∧ rest <+: frontBytes l) := by
  induction lines generalizing n with
  | nil => exact ⟨0, [], by rw [streamBytes, List.flatMap_nil, List.take_nil]; rfl, Or.inl rfl⟩
  | cons l lines ih =>
    rw [streamBytes, List.flatMap_cons, bytes_eq]
    by_cases hcut : n ≤ (frontBytes l).length
    · refine ⟨0, (frontBytes l).take n, ?_, Or.inr ⟨l, rfl, List.take_prefix n _⟩⟩
      rw [List.append_assoc, List.take_append_of_le_length hcut, rawLines_of_free fun h ↦
        feed_notMem_frontBytes l (List.mem_of_mem_take h)]
      rfl
    · obtain ⟨k, rest, hlines, hrest⟩ := ih (n - (frontBytes l).length - 1)
      refine ⟨k + 1, rest, ?_, hrest⟩
      rw [List.take_append, List.take_of_length_le (by simp; omega), List.append_assoc,
        List.length_append, List.length_singleton, ← Nat.sub_sub]
      change rawLines (frontBytes l ++ 10 :: (streamBytes lines).take _) = _
      rw [rawLines_line (feed_notMem_frontBytes l), hlines, List.take_succ_cons, List.map_cons,
        bytes_eq]

/-- A line of which nothing but its end is left was empty. -/
theorem text_eq_nil_of_cut {l : Line} {rest : Bytes} (hne : rest ≠ [])
    (hstart : rest <+: frontBytes l) {text : JsString} (hdecode : decodeStrict rest = some text)
    (hends : rstripEnds text = []) : l.text = [] := by
  have hunits : ∀ u ∈ text, u = 13 ∨ u = 10 := by
    intro u hu
    have hdrop := List.dropWhile_eq_nil_iff.mp (List.reverse_eq_nil_iff.mp hends) u
      (List.mem_reverse.mpr hu)
    simpa using hdrop
  -- such units were read from the same bytes, and of these `l` has none
  have hword : rest = text.map fun u ↦ UInt8.ofNat u.toNat := by
    refine (bufferText_eq_iff _ rest ?_).mp ?_
    · intro c hc
      obtain ⟨u, hu, rfl⟩ := List.mem_map.mp hc
      rcases hunits u hu with rfl | rfl <;> decide
    · rw [bufferText_of_decodeStrict hdecode, List.map_map]
      refine (List.map_congr_left fun u hu ↦ ?_).trans (List.map_id _) |>.symm
      rcases hunits u hu with rfl | rfl <;> rfl
  by_contra htext
  obtain ⟨b, bytes, hbytes⟩ := List.exists_cons_of_ne_nil hne
  obtain ⟨b', bytes', hencode⟩ := List.exists_cons_of_ne_nil (encodeText_ne_nil htext)
  obtain ⟨tail, htail⟩ := hstart
  rw [hbytes, frontBytes, hencode] at htail
  have hmem : b ∈ encodeText l.text := by
    rw [hencode, (List.cons.inj htail).1]
    exact List.mem_cons_self
  have hb : b ∈ text.map fun u ↦ UInt8.ofNat u.toNat := hword ▸ hbytes ▸ List.mem_cons_self
  obtain ⟨u, hu, rfl⟩ := List.mem_map.mp hb
  rcases hunits u hu with rfl | rfl
  · exact l.returnless (mem_of_mem_encodeText (c := '\r') (by decide) hmem)
  · exact l.feedless (mem_of_mem_encodeText (c := '\n') (by decide) hmem)

theorem streamFrames_take (lines : List Line) (k : ℕ) :
    streamFrames (lines.take k) <+: streamFrames lines := by
  have happend :=
    dataFrames_append [] ((lines.take k).map Line.units) ((lines.drop k).map Line.units)
  rw [← List.map_append, List.take_append_drop] at happend
  exact ⟨_, happend.symm⟩

theorem iterPayloads_lines (lines : List Line) :
    iterPayloads [] (lines.map Line.bytes) = Generated.ofEach payloadOf (streamFrames lines) := by
  have h := iterPayloads_bytes [] lines []
  rw [List.append_nil] at h
  exact h.trans (Generated.andThen_yields_nil _)

/-- The end of a line does not matter. -/
theorem iterPayloads_congr (data : List JsString) {raw raw' : Bytes} {text text' : JsString}
    (h : decodeStrict raw = some text) (h' : decodeStrict raw' = some text')
    (hline : rstripEnds text = rstripEnds text') (raws : List Bytes) :
    iterPayloads data (raw :: raws) = iterPayloads data (raw' :: raws) := by
  rw [iterPayloads, h]
  dsimp only
  rw [iterPayloads, h']
  dsimp only
  rw [hline]

/-- A line that is cut ends a frame or changes nothing. -/
theorem iterPayloads_cut {lines : List Line} {k : ℕ} {l : Line} (hl : lines[k]? = some l)
    {rest : Bytes} (hne : rest ≠ []) (hstart : rest <+: frontBytes l) {text : JsString}
    (hdecode : decodeStrict rest = some text) :
    ∃ frames, frames <+: streamFrames lines ∧
      iterPayloads [] ((lines.take k).map Line.bytes ++ [rest]) =
        Generated.ofEach payloadOf frames := by
  have hrow := iterPayloads_bytes [] (lines.take k) [rest]
  rw [List.map_nil] at hrow
  by_cases hblank : rstripEnds text = []
  · -- the line was empty, and is one without its end
    have hempty := text_eq_nil_of_cut hne hstart hdecode hblank
    refine ⟨streamFrames (lines.take (k + 1)), streamFrames_take lines (k + 1), ?_⟩
    have htake : lines.take (k + 1) = lines.take k ++ [l] := by
      rw [List.take_add_one, hl]
      rfl
    have hlast : iterPayloads ((openFields [] ((lines.take k).map Line.units)).map lstrip) [rest] =
        iterPayloads ((openFields [] ((lines.take k).map Line.units)).map lstrip) [l.bytes] := by
      refine iterPayloads_congr _ hdecode (decodeStrict_encodeText l.whole) ?_ []
      rw [hblank, rstripEnds_whole, Line.units_eq_nil.mpr hempty]
    rw [hrow, hlast, ← iterPayloads_bytes, htake, ← iterPayloads_lines, List.map_append]
    rfl
  · refine ⟨streamFrames (lines.take k), streamFrames_take lines k, ?_⟩
    rw [hrow]
    have hlast : iterPayloads ((openFields [] ((lines.take k).map Line.units)).map lstrip) [rest] =
        .yields [] := by
      rw [iterPayloads, hdecode]
      dsimp only
      rw [if_neg hblank]
      split_ifs <;> rfl
    rw [hlast]
    exact Generated.andThen_yields_nil _

/-- **A body that is cut** gives the payloads of its first frames, if the line that is cut is read
or lost. -/
theorem responsePayloads_cut (lines : List Line) (n : ℕ) (raises : Bool)
    (hcut : raises = true ∨ decodeStrict (rawLines ((streamBytes lines).take n)).2 ≠ none) :
    ∃ frames, frames <+: streamFrames lines ∧
      responsePayloads ((streamBytes lines).take n) raises =
        (Generated.ofEach payloadOf frames).andThen
          (if raises then .throws .os else .yields []) := by
  obtain ⟨k, rest, hlines, hrest⟩ := rawLines_take lines n
  rw [hlines] at hcut
  rw [responsePayloads, hlines]
  dsimp only at hcut ⊢
  rcases raises with _ | _
  · rw [if_neg Bool.false_ne_true, if_neg Bool.false_ne_true]
    by_cases hnone : rest = []
    · refine ⟨streamFrames (lines.take k), streamFrames_take lines k, ?_⟩
      rw [if_pos hnone, List.append_nil, iterPayloads_lines, Generated.andThen_yields_nil]
    · obtain ⟨text, hdecode⟩ := Option.ne_none_iff_exists'.mp (hcut.resolve_left Bool.false_ne_true)
      obtain ⟨l, hl, hstart⟩ := hrest.resolve_left hnone
      obtain ⟨frames, hframes, heq⟩ := iterPayloads_cut hl hnone hstart hdecode
      refine ⟨frames, hframes, ?_⟩
      rw [if_neg hnone, heq, Generated.andThen_yields_nil]
  · refine ⟨streamFrames (lines.take k), streamFrames_take lines k, ?_⟩
    rw [if_pos rfl, if_pos rfl, iterPayloads_lines]

theorem rawLines_streamBytes (lines : List Line) :
    rawLines (streamBytes lines) = (lines.map Line.bytes, []) := by
  induction lines with
  | nil => rfl
  | cons l lines ih =>
    rw [streamBytes, List.flatMap_cons, bytes_eq, List.append_assoc]
    change rawLines (frontBytes l ++ 10 :: streamBytes lines) = _
    rw [rawLines_line (feed_notMem_frontBytes l), ih, List.map_cons, bytes_eq]

/-- **A whole body** gives the payloads of its frames. -/
theorem responsePayloads_whole (lines : List Line) :
    responsePayloads (streamBytes lines) false =
      Generated.ofEach payloadOf (streamFrames lines) := by
  rw [responsePayloads, rawLines_streamBytes]
  dsimp only
  rw [if_neg Bool.false_ne_true, if_pos rfl, List.append_nil, iterPayloads_lines]

end Python

end LiteHarness.Sdk
