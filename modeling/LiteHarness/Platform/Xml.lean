import LiteHarness.Foundation.Blocks
import LiteHarness.Platform.JsString

/-!
# Reading XML

A document is tags, each with a text behind it in which entities stand for characters. The tags tell
which elements are open. Of an element only the text at its start is read, and of a tag only the
name. A property list is elements too: the value of a key is what stands between it and the next
key.

What is written of a forest of elements is read back (`elements_document`), whatever the texts are,
if the texts are escaped so that each one is read back for itself.
-/

namespace LiteHarness.Xml

open Foundation

/-- The predefined entities. Entities by number are not read. -/
def entity (name : JsString) : Option UInt16 :=
  if name = js "amp" then some 38
  else if name = js "lt" then some 60
  else if name = js "gt" then some 62
  else if name = js "quot" then some 34
  else if name = js "apos" then some 39
  else none

/-- The characters of a text, with the name of an entity that is being read. -/
def unescape : Option JsString → JsString → Option JsString
  | none, [] => some []
  | some _, [] => none
  | none, u :: text =>
    if u = 38 then unescape (some []) text else (unescape none text).map (u :: ·)
  | some name, u :: text =>
    if u = 59 then (entity name).bind fun v ↦ (unescape none text).map (v :: ·)
    else unescape (some (name ++ [u])) text

/-- A tag without its opening bracket, and the text behind it. -/
def piece (text : JsString) : Option (JsString × JsString) :=
  match text.dropWhile (· ≠ 62) with
  | [] => none
  | _ :: behind => (unescape none behind).map fun read ↦ (text.takeWhile (· ≠ 62), read)

def pieces (document : JsString) : Option (List (JsString × JsString)) :=
  match document.splitOn 60 with
  | [] :: rest => rest.mapM piece
  | _ => none

/-- An element: its name and those of the elements around it, innermost first, and the text at its
start. -/
abbrev Element := List JsString × JsString

/-- The elements that tags open, where some are open already. Declarations open none, and a tag that
ends in a slash opens an empty one. -/
def opened : List JsString → List (JsString × JsString) → Option (List Element)
  | [], [] => some []
  | _ :: _, [] => none
  | path, (tag, text) :: parts =>
    if tag.head? = some 63 ∨ tag.head? = some 33 then opened path parts
    else if tag.head? = some 47 then
      if path.head? = some tag.tail then opened path.tail parts else none
    else if tag.getLast? = some 47 then (opened path parts).map ((tag.dropLast :: path, []) :: ·)
    else
      let inner := tag.takeWhile (· ≠ 32) :: path
      (opened inner parts).map ((inner, text) :: ·)

/-- The elements of a document in the order in which they begin. -/
def elements (document : JsString) : Option (List Element) := (pieces document).bind (opened [])

/-- The texts of the elements at a path. -/
def textsAt (path : List JsString) (found : List Element) : List JsString :=
  (found.filter fun element ↦ element.1 = path).map Prod.snd

/-- What a property list has for a key. -/
def entry (dict : List JsString) (key : JsString) (found : List Element) : List Element :=
  let behind := found.dropWhile fun element ↦ ¬(element.1 = js "key" :: dict ∧ element.2 = key)
  behind.tail.takeWhile fun element ↦ element.1 ≠ js "key" :: dict

/-! ## Forests -/

/-- Elements beside each other. Each has attributes, the text at its start and what is inside. -/
inductive Forest where
  | nil
  | empty (name : JsString) (next : Forest)
  | element (name attributes text : JsString) (inner next : Forest)

namespace Forest

/-- An element with nothing but a text. -/
abbrev leaf (name text : JsString) (next : Forest) : Forest := .element name [] text .nil next

/-- The tags of the elements. -/
def parts : Forest → List (JsString × JsString)
  | .nil => []
  | .empty name next => (name ++ [47], []) :: next.parts
  | .element name attributes text inner next =>
    (name ++ attributes, text) :: (inner.parts ++ (47 :: name, []) :: next.parts)

def elements (path : List JsString) : Forest → List Element
  | .nil => []
  | .empty name next => (name :: path, []) :: next.elements path
  | .element name _ text inner next =>
    (name :: path, text) :: (inner.elements (name :: path) ++ next.elements path)

/-- A name has none of the characters that tell tags apart. -/
def isName (name : JsString) : Bool :=
  name ≠ [] && name.all fun u ↦ u ≠ 32 && u ≠ 33 && u ≠ 47 && u ≠ 60 && u ≠ 62 && u ≠ 63

/-- Attributes begin with a space. -/
def isAttributes (attributes : JsString) : Bool :=
  attributes = [] || attributes.head? = some 32 && attributes.getLast? ≠ some 47 &&
    attributes.all fun u ↦ u ≠ 60 && u ≠ 62

def named : Forest → Bool
  | .nil => true
  | .empty name next => isName name && next.named
  | .element name attributes _ inner next =>
    isName name && isAttributes attributes && inner.named && next.named

theorem isName_iff {name : JsString} : isName name = true ↔ name ≠ [] ∧
    32 ∉ name ∧ 33 ∉ name ∧ 47 ∉ name ∧ 60 ∉ name ∧ 62 ∉ name ∧ 63 ∉ name := by
  rw [isName, Bool.and_eq_true, decide_eq_true_eq, List.all_eq_true]
  simp only [Bool.and_eq_true, decide_eq_true_eq]
  constructor
  · rintro ⟨hne, hall⟩
    exact ⟨hne, fun h ↦ by simpa using hall _ h, fun h ↦ by simpa using hall _ h,
      fun h ↦ by simpa using hall _ h, fun h ↦ by simpa using hall _ h,
      fun h ↦ by simpa using hall _ h, fun h ↦ by simpa using hall _ h⟩
  · rintro ⟨hne, h32, h33, h47, h60, h62, h63⟩
    exact ⟨hne, fun u hu ↦ ⟨⟨⟨⟨⟨fun h ↦ h32 (h ▸ hu), fun h ↦ h33 (h ▸ hu)⟩, fun h ↦ h47 (h ▸ hu)⟩,
      fun h ↦ h60 (h ▸ hu)⟩, fun h ↦ h62 (h ▸ hu)⟩, fun h ↦ h63 (h ▸ hu)⟩⟩

end Forest

/-- A name does not begin as a declaration or a closing tag does. -/
theorem head?_name {name : JsString} (hname : Forest.isName name = true) (rest : JsString) :
    ¬((name ++ rest).head? = some 63 ∨ (name ++ rest).head? = some 33) ∧
      (name ++ rest).head? ≠ some 47 := by
  obtain ⟨hne, -, h33, h47, -, -, h63⟩ := Forest.isName_iff.mp hname
  obtain ⟨u, name, rfl⟩ := List.exists_cons_of_ne_nil hne
  simp only [List.mem_cons, not_or] at h33 h47 h63
  simp only [List.cons_append, List.head?_cons, Option.some.injEq, not_or]
  exact ⟨⟨Ne.symm h63.1, Ne.symm h33.1⟩, by simpa using Ne.symm h47.1⟩

/-- A tag that begins with a name opens the element of that name. -/
theorem opened_name {name attributes : JsString} (hname : Forest.isName name = true)
    (hattributes : Forest.isAttributes attributes = true) (path : List JsString) (text : JsString)
    (rest : List (JsString × JsString)) :
    opened path ((name ++ attributes, text) :: rest) =
      (opened (name :: path) rest).map ((name :: path, text) :: ·) := by
  obtain ⟨hdeclaration, hclose⟩ := head?_name hname attributes
  obtain ⟨hne, h32, -, h47, -, -, -⟩ := Forest.isName_iff.mp hname
  rw [Forest.isAttributes, Bool.or_eq_true, decide_eq_true_eq, Bool.and_eq_true, Bool.and_eq_true,
    decide_eq_true_eq, decide_eq_true_eq] at hattributes
  have hlast : (name ++ attributes).getLast? ≠ some 47 := by
    rcases hattributes with rfl | ⟨⟨hspace, hlast⟩, -⟩
    · rw [List.append_nil]
      exact fun h ↦ h47 (List.mem_of_getLast? h)
    · obtain ⟨attributes, rfl⟩ := List.head?_eq_some_iff.mp hspace
      rwa [List.getLast?_append_of_ne_nil _ (List.cons_ne_nil _ _)]
  have hspan : (name ++ attributes).takeWhile (· ≠ 32) = name := by
    have hname : ∀ u ∈ name, decide (u ≠ 32) = true := fun u hu ↦
      decide_eq_true fun h ↦ h32 (h ▸ hu)
    rw [List.takeWhile_append_of_pos hname]
    rcases hattributes with rfl | ⟨⟨hspace, -⟩, -⟩
    · exact List.append_nil name
    · obtain ⟨attributes, rfl⟩ := List.head?_eq_some_iff.mp hspace
      rw [List.takeWhile_cons_of_neg (by simp), List.append_nil]
  rw [opened, if_neg hdeclaration, if_neg hclose, if_neg hlast]
  dsimp only
  rw [hspan]

theorem opened_empty {name : JsString} (hname : Forest.isName name = true) (path : List JsString)
    (rest : List (JsString × JsString)) :
    opened path ((name ++ [47], []) :: rest) =
      (opened path rest).map ((name :: path, []) :: ·) := by
  obtain ⟨hdeclaration, hclose⟩ := head?_name hname [47]
  rw [opened, if_neg hdeclaration, if_neg hclose, if_pos (by simp), List.dropLast_concat]

theorem opened_close (name : JsString) (path : List JsString) (text : JsString)
    (rest : List (JsString × JsString)) :
    opened (name :: path) ((47 :: name, text) :: rest) = opened path rest := by
  rw [opened, if_neg (by simp), if_pos (by rfl)]
  exact if_pos rfl

/-- The elements of a forest are found, and what follows is read where it stands. -/
theorem opened_forest {forest : Forest} (h : forest.named = true) (path : List JsString)
    (rest : List (JsString × JsString)) :
    opened path (forest.parts ++ rest) = (opened path rest).map (forest.elements path ++ ·) := by
  induction forest generalizing path rest with
  | nil =>
    rw [Forest.parts, List.nil_append]
    exact Option.map_id'.symm
  | empty name next ih =>
    rw [Forest.named, Bool.and_eq_true] at h
    rw [Forest.parts, List.cons_append, opened_empty h.1, ih h.2, Option.map_map]
    rfl
  | element name attributes text inner next ihInner ihNext =>
    rw [Forest.named, Bool.and_eq_true, Bool.and_eq_true, Bool.and_eq_true] at h
    obtain ⟨⟨⟨hname, hattributes⟩, hinner⟩, hnext⟩ := h
    rw [Forest.parts, List.cons_append, List.append_assoc, List.cons_append,
      opened_name hname hattributes, ihInner hinner, opened_close, ihNext hnext, Option.map_map,
      Option.map_map]
    refine congrArg (fun add ↦ Option.map add _) (funext fun found ↦ ?_)
    simp [Forest.elements]

section

variable {escape : JsString → JsString} (hread : ∀ text, unescape none (escape text) = some text)
  (hfree : ∀ text, 60 ∉ escape text)

include hread in
theorem piece_of_tag {tag : JsString} (htag : 62 ∉ tag) (text : JsString) :
    piece (tag ++ 62 :: escape text) = some (tag, text) := by
  have hclosed : ∀ u ∈ tag, (decide (u ≠ 62)) = true := fun u hu ↦
    decide_eq_true fun h ↦ htag (h ▸ hu)
  rw [piece, List.dropWhile_append_of_pos hclosed, List.takeWhile_append_of_pos hclosed,
    List.dropWhile_cons_of_neg (by simp), List.takeWhile_cons_of_neg (by simp), List.append_nil]
  dsimp only
  rw [hread, Option.map_some]

include hread hfree in
/-- **Tags and texts** that are put together are read back. -/
theorem pieces_flatMap {parts : List (JsString × JsString)}
    (htags : ∀ part ∈ parts, 60 ∉ part.1 ∧ 62 ∉ part.1) :
    pieces (parts.flatMap fun part ↦ 60 :: (part.1 ++ 62 :: escape part.2)) = some parts := by
  have hlines : ∀ line ∈ parts.map fun part ↦ part.1 ++ 62 :: escape part.2, 60 ∉ line := by
    intro line hline
    obtain ⟨part, hpart, rfl⟩ := List.mem_map.mp hline
    simp only [List.mem_append, List.mem_cons, not_or]
    exact ⟨(htags part hpart).1, by decide, hfree _⟩
  have hsplit := splitOn_flatMap_cons hlines
  rw [List.flatMap_map] at hsplit
  rw [pieces, hsplit]
  dsimp only
  clear hsplit hlines
  induction parts with
  | nil => rfl
  | cons part parts ih =>
    rw [List.forall_mem_cons] at htags
    rw [List.map_cons, List.mapM_cons, piece_of_tag hread htags.1.2, ih htags.2]
    rfl

/-- The tags of a forest have no brackets in them. -/
theorem brackets_of_named {forest : Forest} (h : forest.named = true) :
    ∀ part ∈ forest.parts, 60 ∉ part.1 ∧ 62 ∉ part.1 := by
  induction forest with
  | nil => exact fun _ h ↦ absurd h List.not_mem_nil
  | empty name next ih =>
    rw [Forest.named, Bool.and_eq_true] at h
    obtain ⟨-, -, -, -, h60, h62, -⟩ := Forest.isName_iff.mp h.1
    rw [Forest.parts, List.forall_mem_cons]
    exact ⟨by simp [h60, h62], ih h.2⟩
  | element name attributes text inner next ihInner ihNext =>
    rw [Forest.named, Bool.and_eq_true, Bool.and_eq_true, Bool.and_eq_true] at h
    obtain ⟨⟨⟨hname, hattributes⟩, hinner⟩, hnext⟩ := h
    obtain ⟨-, -, -, -, h60, h62, -⟩ := Forest.isName_iff.mp hname
    have hplain : 60 ∉ attributes ∧ 62 ∉ attributes := by
      rw [Forest.isAttributes, Bool.or_eq_true, decide_eq_true_eq, Bool.and_eq_true,
        List.all_eq_true] at hattributes
      rcases hattributes with rfl | ⟨-, hall⟩
      · exact ⟨List.not_mem_nil, List.not_mem_nil⟩
      · exact ⟨fun hmem ↦ by simpa using hall _ hmem, fun hmem ↦ by simpa using hall _ hmem⟩
    rw [Forest.parts, List.forall_mem_cons, List.forall_mem_append, List.forall_mem_cons]
    exact ⟨by simp [h60, h62, hplain], ihInner hinner, by simp [h60, h62], ihNext hnext⟩

/-- The tags of a document: declarations, an element with all others in it, and a text after it. -/
def documentParts (prolog : List (JsString × JsString)) (name attributes : JsString)
    (inner : Forest) (last : JsString) : List (JsString × JsString) :=
  prolog ++ (name ++ attributes, []) :: (inner.parts ++ [(47 :: name, last)])

/-- A declaration. -/
def isDeclaration (tag : JsString) : Bool :=
  (tag.head? = some 63 || tag.head? = some 33) && tag.all fun u ↦ u ≠ 60 && u ≠ 62

include hread hfree in
/-- **A document** is read as the elements it was written from. -/
theorem elements_document {prolog : List (JsString × JsString)} {name attributes : JsString}
    {inner : Forest} (last : JsString) (hprolog : ∀ part ∈ prolog, isDeclaration part.1 = true)
    (h : (Forest.element name attributes [] inner .nil).named = true) :
    elements ((documentParts prolog name attributes inner last).flatMap
      fun part ↦ 60 :: (part.1 ++ 62 :: escape part.2)) =
        some (([name], []) :: inner.elements [name]) := by
  have htags : ∀ part ∈ documentParts prolog name attributes inner last,
      60 ∉ part.1 ∧ 62 ∉ part.1 := by
    have hparts := brackets_of_named h
    simp only [Forest.parts, List.forall_mem_cons, List.forall_mem_append] at hparts
    rw [documentParts, List.forall_mem_append, List.forall_mem_cons, List.forall_mem_append,
      List.forall_mem_singleton]
    refine ⟨fun part hpart ↦ ?_, hparts.1, hparts.2.1, hparts.2.2.1⟩
    have hall := (Bool.and_eq_true_iff.mp (hprolog part hpart)).2
    rw [List.all_eq_true] at hall
    exact ⟨fun hmem ↦ by simpa using hall _ hmem, fun hmem ↦ by simpa using hall _ hmem⟩
  rw [Forest.named, Bool.and_eq_true, Bool.and_eq_true, Bool.and_eq_true] at h
  obtain ⟨⟨⟨hname, hattributes⟩, hinner⟩, -⟩ := h
  rw [elements, pieces_flatMap hread hfree htags, Option.bind_some, documentParts]
  clear htags
  induction prolog with
  | nil =>
    rw [List.nil_append, opened_name hname hattributes, opened_forest hinner, opened_close, opened,
      Option.map_some, Option.map_some, List.append_nil]
  | cons part prolog ih =>
    rw [List.forall_mem_cons] at hprolog
    have hhead := (Bool.and_eq_true_iff.mp hprolog.1).1
    rw [List.cons_append, opened, if_pos (by simpa using hhead)]
    exact ih hprolog.2

end

end LiteHarness.Xml
