import LiteHarness.Foundation.Places
import LiteHarness.Platform.Paths

/-!
# Absolute paths, joined and normalized

`path.posix.join` and `path.win32.join` put two paths together with a separator between them and
normalize the result. What matters of a normalized absolute path is where it starts and which parts
lead on from there (`Place`). Under Windows rules it starts at a drive, at the share of a server, at
a device or, with none of these, at the root of the drive one is on.
-/

namespace LiteHarness

open Foundation

/-- A normalized absolute path: where it starts, and the parts from there on. -/
structure Place where
  start : JsString
  parts : List JsString
  deriving DecidableEq

/-- One place is another, or strictly below it. -/
def Place.AtOrBelow (root place : Place) : Prop :=
  place.start = root.start ∧ root.parts <+: place.parts

instance (root place : Place) : Decidable (root.AtOrBelow place) :=
  inferInstanceAs (Decidable (_ ∧ _))

/-- `.` and the empty part stand for the place itself. -/
def staysInPlace (part : JsString) : Bool := part = [] || part = js "."

/-- `normalizeString`: the place that parts lead to, where `..` at the start goes nowhere. -/
def normalizeParts (parts : List JsString) : List JsString :=
  resolve staysInPlace (js "..") parts

/-! ## POSIX -/

namespace Posix

/-- `path.posix.isAbsolute`. -/
def isAbsolute (path : JsString) : Bool := path.head? = some 47

/-- The separator of POSIX. -/
def isSeparator (u : UInt16) : Bool := u = 47

/-- `path.posix.normalize` of an absolute path. -/
def normalize (path : JsString) : Place :=
  ⟨js "/", normalizeParts (path.splitOnP isSeparator)⟩

/-- What `path.posix.join` normalizes. -/
def joined (root path : JsString) : JsString := root ++ 47 :: path

end Posix

/-! ## Windows -/

namespace Win32

/-- Both slashes separate. -/
def isSeparator (u : UInt16) : Bool := u = 47 || u = 92

def isDriveLetter (u : UInt16) : Bool := 65 ≤ u && u ≤ 90 || 97 ≤ u && u ≤ 122

/-- `path.win32.isAbsolute`. -/
def isAbsolute : JsString → Bool
  | u :: 58 :: v :: _ => isSeparator u || isDriveLetter u && isSeparator v
  | u :: _ => isSeparator u
  | [] => false

/-- A name in front of a path, and what is behind it. -/
def spanName (path : JsString) : JsString × JsString :=
  (path.takeWhile fun u ↦ !isSeparator u, path.dropWhile fun u ↦ !isSeparator u)

/-- The start of a path behind two separators, and what is behind it: a server and its share, or a
device. There is none when a name is missing. -/
def serverRoot (path : JsString) : Option (JsString × JsString) :=
  let server := spanName path
  let share := spanName (server.2.dropWhile isSeparator)
  if server.1 = [] ∨ server.2.dropWhile isSeparator = [] then none
  else if server.1 = js "." ∨ server.1 = js "?" then some (js "\\\\" ++ server.1, path.drop 2)
  else some (js "\\\\" ++ server.1 ++ js "\\" ++ share.1, share.2)

/-- Where an absolute path starts, and what is behind that. -/
def rootOf : JsString → JsString × JsString
  | u :: v :: path =>
    if isSeparator u = true then
      if isSeparator v = true then (serverRoot path).getD ([], u :: v :: path)
      else ([], v :: path)
    else ([u, v], path)
  | path => ([], path)

/-- `path.win32.normalize` of an absolute path. -/
def normalize (path : JsString) : Place :=
  ⟨(rootOf path).1 ++ js "\\", normalizeParts ((rootOf path).2.splitOnP isSeparator)⟩

/-- Just two separators and a name are in front: they are meant to name a server. -/
def namesServer : JsString → Bool
  | u :: v :: w :: _ => isSeparator u && isSeparator v && !isSeparator w
  | _ => false

/-- What `path.win32.join` normalizes. Separators in front become one, unless the first path names a
server. -/
def joined (root path : JsString) : JsString :=
  let whole := root ++ 92 :: path
  if namesServer root = false ∧ 2 ≤ (whole.takeWhile isSeparator).length then
    92 :: whole.dropWhile isSeparator
  else whole

/-- A server is named at the start, and no share of it. -/
def isBareServer : JsString → Bool
  | u :: v :: path =>
    isSeparator u && isSeparator v && (spanName path).1 ≠ [] &&
      (spanName path).2.dropWhile isSeparator = []
  | _ => false

end Win32

end LiteHarness
