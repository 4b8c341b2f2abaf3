import LiteHarness.Domain.Status
import LiteHarness.Platform.BufferText
import LiteHarness.Platform.NumberText
import LiteHarness.Storage.Rows

/-!
# Archives of a workspace

`validateArchiveEntries` walks over the headers of a tar archive before another program extracts it.
What that program sees is said by `readUstar`, which reads the same bytes by the rules of the
format: a number is the octal digits up to the first NUL or space of its field, and a name is a
prefix and a name. The validator reads numbers in its own way (`parseTarOctal`).
-/

namespace LiteHarness.Workspace

/-! ## Headers -/

/-- `header.subarray(start, end)`. -/
def field (header : Bytes) (start length : ℕ) : Bytes := (header.drop start).take length

/-- The bytes of a field before its first NUL. -/
def cString (bytes : Bytes) : Bytes := bytes.takeWhile (· ≠ 0)

/-- A byte that is an octal digit. -/
def isOctal (b : UInt8) : Bool := 48 ≤ b && b ≤ 55

/-- The number that octal digits write. -/
def octalValue (digits : Bytes) : ℕ := digits.foldl (fun value b ↦ value * 8 + (b.toNat - 48)) 0

/-- The sum of the bytes of a header, where those of the checksum count as spaces. -/
def headerSum (header : Bytes) : ℕ :=
  ((header.take 148).map UInt8.toNat).sum + 8 * 32 + ((header.drop 156).map UInt8.toNat).sum

/-- A block of zero bytes. -/
def isZeroBlock (block : Bytes) : Bool := block.all (· = 0)

/-- `Math.ceil(size / 512) * 512`. -/
def paddedSize (size : ℕ) : ℕ := (size + 511) / 512 * 512

/-! ## What the format says -/

/-- An entry of an archive, with the size its header gives. -/
structure UstarEntry where
  path : Bytes
  typeflag : UInt8
  linkname : Bytes
  size : ℕ
  payload : Bytes
  deriving DecidableEq

/-- A numeric field: octal digits, ended by the first NUL or space. -/
def ustarNumber (bytes : Bytes) : Option ℕ :=
  let digits := bytes.takeWhile fun b ↦ b ≠ 0 && b ≠ 32
  if digits ≠ [] ∧ digits.all isOctal then some (octalValue digits) else none

/-- The path of a header: the prefix, if there is one, joined to the name. -/
def ustarPath (header : Bytes) : Bytes :=
  let name := cString (field header 0 100)
  match cString (field header 345 155) with
  | [] => name
  | start => start ++ 47 :: name

/-- The typeflag of a header. NUL is that of a regular file too. -/
def ustarType (header : Bytes) : UInt8 :=
  let flag := header.getD 156 0
  if flag = 0 then 48 else flag

/-- Links, devices, directories and pipes have no payload, whatever their size says. -/
def storesPayload (typeflag : UInt8) : Bool := !(49 ≤ typeflag && typeflag ≤ 54)

/-- What a reader of the format makes of an archive: its entries, and what is behind the two zero
blocks that end it. At most `n` headers are read. -/
def readUstar : ℕ → Bytes → Option (List UstarEntry × Bytes)
  | 0, _ => none
  | n + 1, archive =>
    let header := archive.take 512
    let rest := archive.drop 512
    if archive.length < 512 then none
    else if isZeroBlock header then
      if 512 ≤ rest.length ∧ isZeroBlock (rest.take 512) then some ([], rest.drop 512) else none
    else if ustarNumber (field header 148 8) ≠ some (headerSum header) then none
    else
      match ustarNumber (field header 124 12) with
      | none => none
      | some size =>
        let stored := if storesPayload (ustarType header) then size else 0
        if rest.length < paddedSize stored then none
        else
          (readUstar n (rest.drop (paddedSize stored))).map fun (entries, trailer) ↦
            (⟨ustarPath header, ustarType header, cString (field header 157 100),
              size, rest.take stored⟩ :: entries, trailer)

/-- The entries of an archive, and what is behind its end. -/
def ustarEntries (archive : Bytes) : Option (List UstarEntry × Bytes) :=
  readUstar (archive.length / 512) archive

/-! ## What an archive may be -/

/-- `./` in front of a path. -/
def rootedBytes : Bytes → Bytes
  | 46 :: 47 :: rest => rest
  | path => path

/-- A path without `./` in front of it and, if it is a directory, without a slash at its end. -/
def corePath (path : Bytes) (directory : Bool) : Bytes :=
  if directory && (rootedBytes path).getLast? = some 47 then (rootedBytes path).dropLast
  else rootedBytes path

/-- A path that begins with a letter and a colon. -/
def startsWithDriveByte : Bytes → Bool
  | b :: 58 :: _ => 65 ≤ b && b ≤ 90 || 97 ≤ b && b ≤ 122
  | _ => false

/-- The path is the target directory, or names something in it: there is no backslash, no drive, and
no part that is empty, `.` or `..`. -/
def isCanonical (path : Bytes) (directory : Bool) : Bool :=
  let core := corePath path directory
  core = [] || core = [46] || (core.head? ≠ some 47 && 92 ∉ core && !startsWithDriveByte core &&
    (core.splitOn 47).all fun part ↦ part ≠ [] && part ≠ [46, 46] && part ≠ [46])

namespace UstarEntry

/-- A regular file or a directory, without a link name, that stays under the target directory. -/
structure Confined (e : UstarEntry) : Prop where
  type : e.typeflag = 48 ∨ e.typeflag = 53
  link : e.linkname = []
  relative : e.path.head? ≠ some 47
  within : [46, 46] ∉ e.path.splitOn 47

/-- What an entry has to be: a regular file or a directory of size zero, without a link name, at a
path that is written in the usual way. -/
structure Ordinary (e : UstarEntry) : Prop where
  type : e.typeflag = 48 ∨ e.typeflag = 53
  link : e.linkname = []
  path : isCanonical e.path (e.typeflag = 53) = true
  size : e.typeflag = 53 → e.size = 0

instance (e : UstarEntry) : Decidable e.Confined :=
  decidable_of_iff ((e.typeflag = 48 ∨ e.typeflag = 53) ∧ e.linkname = [] ∧
    e.path.head? ≠ some 47 ∧ [46, 46] ∉ e.path.splitOn 47)
    ⟨fun h ↦ ⟨h.1, h.2.1, h.2.2.1, h.2.2.2⟩, fun h ↦ ⟨h.type, h.link, h.relative, h.within⟩⟩

instance (e : UstarEntry) : Decidable e.Ordinary :=
  decidable_of_iff ((e.typeflag = 48 ∨ e.typeflag = 53) ∧ e.linkname = [] ∧
    isCanonical e.path (e.typeflag = 53) = true ∧ (e.typeflag = 53 → e.size = 0))
    ⟨fun h ↦ ⟨h.1, h.2.1, h.2.2.1, h.2.2.2⟩, fun h ↦ ⟨h.type, h.link, h.path, h.size⟩⟩

end UstarEntry

/-- The bytes of all payloads. -/
def payloadOf (entries : List UstarEntry) : ℕ := (entries.map fun e ↦ e.payload.length).sum

/-- Octal digits, and behind them nothing but NULs and spaces. -/
def isPlainNumber (bytes : Bytes) : Bool :=
  (bytes.dropWhile isOctal).all fun b ↦ b = 0 || b = 32

/-- The numeric fields of the headers that are read have octal digits, and behind them nothing but
NULs and spaces. -/
def plainNumbers : ℕ → Bytes → Bool
  | 0, _ => true
  | n + 1, archive =>
    let header := archive.take 512
    let rest := archive.drop 512
    if archive.length < 512 then true
    else if isZeroBlock header then true
    else
      isPlainNumber (field header 148 8) && isPlainNumber (field header 124 12) &&
        match ustarNumber (field header 124 12) with
        | none => true
        | some size =>
          let stored := if storesPayload (ustarType header) then size else 0
          plainNumbers n (rest.drop (paddedSize stored))

/-! ## The validator -/

/-- `parseTarOctal`. The field is read as ASCII, which drops the highest bit of each byte. -/
def parseTarOctal (bytes : Bytes) (label : String) : Except JsError ℕ :=
  let ascii := bytes.map fun b ↦ UInt16.ofNat (b.toNat % 128)
  let value := trim (ascii.filter (· ≠ 0))
  if value = [] ∨ value.any fun u ↦ u < 48 || 55 < u then
    .error (.new (js "Workspace archive " ++ js label ++ js " is invalid"))
  else
    let parsed : ℕ := value.foldl (fun n u ↦ n * 8 + (u.toNat - 48)) 0
    if maxSafeInteger < (parsed : ℤ) then
      .error (.new (js "Workspace archive " ++ js label ++ js " is invalid"))
    else .ok parsed

def verifyTarChecksum (header : Bytes) : Except JsError Unit := do
  let expected ← parseTarOctal (field header 148 8) "checksum"
  if headerSum header ≠ expected then
    throw (.new (js "Workspace archive header checksum is invalid"))

/-- `tarString`. -/
def tarString (bytes : Bytes) : JsString := bufferText (cString bytes)

/-- `path.replace(/^\.\//, "")`. -/
def rooted : JsString → JsString
  | 46 :: 47 :: rest => rest
  | path => path

/-- A directory may end in a slash. -/
def normalized (path : JsString) (directory : Bool) : JsString :=
  let path := rooted path
  if directory && path.getLast? = some 47 then path.dropLast else path

/-- A part of a path that is none of its own. -/
def badPart (part : JsString) : Bool := part = [] || part = [46, 46] || part = [46]

/-- `/^[A-Za-z]:/`. -/
def startsWithDriveLetter : JsString → Bool
  | u :: 58 :: _ => 65 ≤ u && u ≤ 90 || 97 ≤ u && u ≤ 122
  | _ => false

def validateArchivePath (path : JsString) (directory : Bool) : Except JsError Unit :=
  let normalized := normalized path directory
  if normalized = [] ∨ normalized = [46] then .ok ()
  else if normalized.head? = some 47 ∨ 92 ∈ normalized ∨ startsWithDriveLetter normalized = true ∨
      (normalized.splitOn 47).any badPart = true then
    .error (.new (js "Workspace archive entry path is unsafe"))
  else .ok ()

structure ArchiveLimits where
  maxBytes : ℤ
  maxFiles : ℤ := 100000

/-- The limits are safe integers in their ranges. -/
def ArchiveLimits.valid (limits : ArchiveLimits) : Bool :=
  0 ≤ limits.maxBytes && limits.maxBytes ≤ maxSafeInteger && 1 ≤ limits.maxFiles &&
    limits.maxFiles ≤ maxSafeInteger

/-- An entry as the validator has seen it. -/
structure SeenEntry where
  path : JsString
  type : UInt8
  size : ℕ
  deriving DecidableEq

/-- The walk over an archive: what is at the offset and behind it, the counts, and, noted of the
run, the entries that were seen. -/
structure ArchiveWalk where
  rest : Bytes
  files : ℕ := 0
  payloadBytes : ℕ := 0
  endBlocks : ℕ := 0
  seen : List SeenEntry := []

namespace ArchiveWalk

variable (limits : ArchiveLimits)

/-- A header is read, and the payload behind it skipped. -/
def entry (w : ArchiveWalk) (header rest : Bytes) : Except JsError ArchiveWalk := do
  verifyTarChecksum header
  let name := tarString (field header 0 100)
  let start := tarString (field header 345 155)
  let path := if start = [] then name else start ++ 47 :: name
  let type := ustarType header
  if type ≠ 48 ∧ type ≠ 53 then
    throw (.new (js "Workspace archive entry type is denied: " ++ [UInt16.ofNat type.toNat]))
  validateArchivePath path (type = 53)
  if tarString (field header 157 100) ≠ [] then
    throw (.new (js "Workspace archive links are denied"))
  let size ← parseTarOctal (field header 124 12) "size"
  if type = 53 ∧ size ≠ 0 then
    throw (.new (js "Workspace archive directory has a payload"))
  if limits.maxFiles < w.files + 1 ∨ limits.maxBytes < w.payloadBytes + size then
    throw (.new (js "Workspace archive exceeds file or byte limits"))
  if rest.length < paddedSize size then
    throw (.new (js "Workspace archive entry is truncated"))
  pure
    { w with
      rest := rest.drop (paddedSize size)
      files := w.files + 1
      payloadBytes := w.payloadBytes + size
      seen := w.seen ++ [⟨path, type, size⟩] }

/-- The loop, in at most `n` rounds. -/
def loop : ℕ → ArchiveWalk → Except JsError ArchiveWalk
  | 0, w => .ok w
  | n + 1, w =>
    if w.rest.length < 512 then .ok w
    else
      let header := w.rest.take 512
      let rest := w.rest.drop 512
      if isZeroBlock header then
        if w.endBlocks + 1 = 2 then .ok { w with rest := rest, endBlocks := 2 }
        else loop n { w with rest := rest, endBlocks := w.endBlocks + 1 }
      else if 0 < w.endBlocks then
        .error (.new (js "Workspace archive contains data after an end marker"))
      else do
        let next ← w.entry limits header rest
        loop n next

end ArchiveWalk

/-- `validateArchiveEntries`. A round of the loop takes a block of the archive at least. -/
def validateArchiveEntries (archive : Bytes) (limits : ArchiveLimits) :
    Except JsError ArchiveWalk := do
  if !limits.valid || archive.length % 512 ≠ 0 then
    throw (.new (js "Workspace archive limits or framing are invalid"))
  let w ← ArchiveWalk.loop limits (archive.length / 512) { rest := archive }
  if w.endBlocks < 2 ∨ w.rest.any (· ≠ 0) then
    throw (.new (js "Workspace archive is missing a canonical end marker"))
  pure w

end LiteHarness.Workspace
