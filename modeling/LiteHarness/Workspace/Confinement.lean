import LiteHarness.Platform.NodePaths
import LiteHarness.Workspace.RecoveryBundle

/-!
# Workspace paths stay under their root

A path that `validateWorkspacePath` takes has no part `..`, with the separators of POSIX as with
those of Windows. Joined to an absolute root and normalized, it gives the root or a place below it
(`guards`). Under Windows rules there is one kind of root for which this is not so: one that names a
server, and no share, is the start of a network path only once something is joined to it
(`not_confined_server`).
-/

namespace LiteHarness.Workspace

open Foundation

/-! ## Parts -/

theorem normalizeParts_append (parts : List JsString) {below : List JsString}
    (h : js ".." ∉ below) : normalizeParts parts <+: normalizeParts (parts ++ below) := by
  rw [normalizeParts, normalizeParts, resolve_append _ _ parts h]
  exact List.prefix_append _ _

section

variable {p : UInt16 → Bool}

theorem normalizeParts_cons {u : UInt16} (hu : p u = true) (text : JsString) :
    normalizeParts ((u :: text).splitOnP p) = normalizeParts (text.splitOnP p) := by
  rw [← List.nil_append (u :: text), List.splitOnP_append_cons [] text hu]
  rfl

/-- Separators in front do not matter. -/
theorem normalizeParts_dropWhile (text : JsString) :
    normalizeParts ((text.dropWhile p).splitOnP p) = normalizeParts (text.splitOnP p) := by
  induction text with
  | nil => rfl
  | cons u text ih =>
    by_cases hu : p u = true
    · rw [List.dropWhile_cons_of_pos hu, ih, normalizeParts_cons hu]
    · rw [List.dropWhile_cons_of_neg hu]

end

/-- A path that begins with a separator has an empty part. -/
theorem nil_mem_parts {u : UInt16} (hu : Win32.isSeparator u = true) (path : JsString) :
    [] ∈ (u :: path).splitOnP Win32.isSeparator := by
  rw [← List.nil_append (u :: path), List.splitOnP_append_cons [] path hu]
  exact List.mem_cons_self

/-- What a path that is taken has to be. -/
theorem isWorkspacePath_iff {path : JsString} :
    isWorkspacePath path = true ↔ path ≠ [] ∧ startsWithDrive path = false ∧
      ∀ part ∈ path.splitOnP Win32.isSeparator, part ≠ [] ∧ part ≠ js ".." := by
  have hparts : (path.splitOnP fun u ↦ u = 47 || u = 92).any
      (fun part ↦ part = js ".." || part.isEmpty) = false ↔
        ∀ part ∈ path.splitOnP Win32.isSeparator, part ≠ [] ∧ part ≠ js ".." := by
    rw [List.any_eq_false]
    refine forall₂_congr fun part _ ↦ ?_
    simp [and_comm]
  rw [isWorkspacePath, Bool.not_eq_true', Bool.or_eq_false_iff, Bool.or_eq_false_iff,
    Bool.or_eq_false_iff, Bool.or_eq_false_iff, hparts]
  constructor
  · rintro ⟨⟨⟨⟨hempty, -⟩, -⟩, hdrive⟩, hall⟩
    exact ⟨fun h ↦ by simp [h] at hempty, hdrive, hall⟩
  · rintro ⟨hempty, hdrive, hall⟩
    obtain ⟨u, rest, rfl⟩ := List.exists_cons_of_ne_nil hempty
    have hu : Win32.isSeparator u = false := by
      by_contra hsep
      exact (hall [] (nil_mem_parts (Bool.not_eq_false _ ▸ hsep) rest)).1 rfl
    rw [Win32.isSeparator, Bool.or_eq_false_iff] at hu
    exact ⟨⟨⟨⟨rfl, by simpa using hu.1⟩, by simpa using hu.2⟩, hdrive⟩, hall⟩

theorem up_notMem {path : JsString} (h : isWorkspacePath path = true) :
    js ".." ∉ path.splitOnP Win32.isSeparator :=
  fun hmem ↦ ((isWorkspacePath_iff.mp h).2.2 _ hmem).2 rfl

/-- The coarser parts do not go up either: a part `..` has no separator in it. -/
theorem up_notMem_posix {path : JsString} (h : isWorkspacePath path = true) :
    js ".." ∉ path.splitOnP Posix.isSeparator := by
  refine fun hmem ↦ up_notMem h (mem_splitOnP_of_imp (fun u hu ↦ ?_) hmem (by decide))
  rw [Win32.isSeparator, Bool.or_eq_true]
  exact Or.inl hu

/-! ## Windows roots -/

namespace Windows

open Win32

variable {root path : JsString}

/-- One separator in front, and none behind it. -/
theorem normalize_cons {u : UInt16} (hu : isSeparator u = true) {text : JsString}
    (htext : ∀ v ∈ text.head?, isSeparator v = false) :
    Win32.normalize (u :: text) = ⟨js "\\", normalizeParts (text.splitOnP isSeparator)⟩ := by
  have hroot : (rootOf (u :: text)).1 = [] ∧
      normalizeParts ((rootOf (u :: text)).2.splitOnP isSeparator) =
        normalizeParts (text.splitOnP isSeparator) := by
    rcases text with _ | ⟨v, text⟩
    · exact ⟨rfl, normalizeParts_cons hu []⟩
    · have hv : isSeparator v = false := htext v rfl
      rw [rootOf, if_pos hu, if_neg (by simp [hv])]
      exact ⟨rfl, rfl⟩
  rw [Win32.normalize, hroot.1, hroot.2]
  rfl

/-- A root that names no server starts at the root of the drive. -/
theorem normalize_of_unnamed {u : UInt16} {rest : JsString} (hu : isSeparator u = true)
    (hnamed : namesServer (u :: rest) = false) :
    Win32.normalize (u :: rest) =
      ⟨js "\\", normalizeParts ((u :: rest).splitOnP isSeparator)⟩ := by
  by_cases hfirst : ∀ v ∈ rest.head?, isSeparator v = false
  · rw [normalize_cons hu hfirst, normalizeParts_cons hu]
  · obtain ⟨v, hv, hsep⟩ : ∃ v ∈ rest.head?, isSeparator v = true := by simpa using hfirst
    obtain ⟨rest, rfl⟩ := List.head?_eq_some_iff.mp hv
    have hnone : serverRoot rest = none := by
      rcases rest with _ | ⟨w, rest⟩
      · rfl
      · have hw : isSeparator w = true := by simpa [namesServer, hu, hsep] using hnamed
        have hname : (spanName (w :: rest)).1 = [] := by
          rw [spanName, List.takeWhile_cons_of_neg (by simp [hw])]
        rw [serverRoot, if_pos (Or.inl hname)]
    rw [Win32.normalize, rootOf, if_pos hu, if_pos hsep, hnone]
    rfl

theorem joined_of_named (h : namesServer root = true) : joined root path = root ++ 92 :: path := by
  rw [joined]
  exact if_neg fun hc ↦ absurd (hc.1.symm.trans h) Bool.false_ne_true

/-- Where no server is named, one separator is left in front. -/
theorem joined_of_unnamed (path : JsString) {u : UInt16} {rest : JsString}
    (hu : isSeparator u = true) (hnamed : namesServer (u :: rest) = false) :
    ∃ v, isSeparator v = true ∧
      joined (u :: rest) path = v :: ((u :: rest) ++ 92 :: path).dropWhile isSeparator := by
  by_cases hmany : 2 ≤ (((u :: rest) ++ 92 :: path).takeWhile isSeparator).length
  · exact ⟨92, rfl, by rw [joined]; exact if_pos ⟨hnamed, hmany⟩⟩
  · refine ⟨u, hu, ?_⟩
    rw [joined]
    refine (if_neg fun hc ↦ hmany hc.2).trans ?_
    -- only the first one stands there
    have hone : (rest ++ 92 :: path).takeWhile isSeparator = [] := by
      rw [List.cons_append, List.takeWhile_cons_of_pos hu, List.length_cons] at hmany
      exact List.length_eq_zero_iff.mp (by omega)
    have hrest : (rest ++ 92 :: path).dropWhile isSeparator = rest ++ 92 :: path := by
      have hwhole := List.takeWhile_append_dropWhile (p := isSeparator) (l := rest ++ 92 :: path)
      rwa [hone, List.nil_append] at hwhole
    rw [List.cons_append, List.dropWhile_cons_of_pos hu, hrest]

/-- **A path joined to a root** starts where the root does, and goes on with its own parts. -/
def ExtendsBy (root path : JsString) : Prop :=
  ∃ parts, Win32.normalize root = ⟨(Win32.normalize root).start, normalizeParts parts⟩ ∧
    Win32.normalize (joined root path) =
      ⟨(Win32.normalize root).start, normalizeParts (parts ++ path.splitOnP isSeparator)⟩

theorem extendsBy_of_unnamed {u : UInt16} {rest : JsString} (hu : isSeparator u = true)
    (hnamed : namesServer (u :: rest) = false) : ExtendsBy (u :: rest) path := by
  obtain ⟨v, hv, hjoined⟩ := joined_of_unnamed path hu hnamed
  have hhead : ∀ w ∈ (((u :: rest) ++ 92 :: path).dropWhile isSeparator).head?,
      isSeparator w = false := by
    intro w hw
    have hnot := List.head?_dropWhile_not isSeparator ((u :: rest) ++ 92 :: path)
    rw [hw] at hnot
    exact Bool.eq_false_iff.mpr (by simpa using hnot)
  refine ⟨(u :: rest).splitOnP isSeparator, ?_, ?_⟩
  · rw [normalize_of_unnamed hu hnamed]
  · rw [hjoined, normalize_cons hv hhead, normalizeParts_dropWhile, normalize_of_unnamed hu hnamed,
      List.splitOnP_append_cons _ _ (by rfl)]

/-- A drive letter starts a path of its own. -/
theorem extendsBy_of_drive {u v : UInt16} {rest : JsString} (hu : isSeparator u = false) :
    ExtendsBy (u :: v :: rest) path := by
  have hjoined : joined (u :: v :: rest) path = u :: v :: (rest ++ 92 :: path) := by
    rw [joined, List.cons_append, List.takeWhile_cons_of_neg (by simp [hu])]
    exact if_neg fun h ↦ absurd h.2 (by decide)
  have hroot : ∀ tail, rootOf (u :: v :: tail) = ([u, v], tail) := fun tail ↦ by
    rw [rootOf, if_neg (by simp [hu])]
  refine ⟨rest.splitOnP isSeparator, ?_, ?_⟩
  · rw [Win32.normalize, hroot]
  · rw [hjoined, Win32.normalize, Win32.normalize, hroot, hroot,
      List.splitOnP_append_cons _ _ (by rfl)]

theorem spanName_append (text rest : JsString) :
    spanName (text ++ 92 :: rest) = ((spanName text).1, (spanName text).2 ++ 92 :: rest) := by
  induction text with
  | nil => rfl
  | cons u text ih =>
    obtain ⟨hname, hrest⟩ := Prod.mk.inj ih
    rw [spanName, spanName, List.cons_append]
    by_cases hu : isSeparator u = true
    · rw [List.takeWhile_cons_of_neg (by simp [hu]), List.takeWhile_cons_of_neg (by simp [hu]),
        List.dropWhile_cons_of_neg (by simp [hu]), List.dropWhile_cons_of_neg (by simp [hu])]
      rfl
    · rw [List.takeWhile_cons_of_pos (by simpa using hu),
        List.takeWhile_cons_of_pos (by simpa using hu),
        List.dropWhile_cons_of_pos (by simpa using hu),
        List.dropWhile_cons_of_pos (by simpa using hu), hname, hrest]
      rfl

/-- A server with a share is not changed by what is joined to it. -/
theorem serverRoot_append (path : JsString) {rest : JsString} (hname : (spanName rest).1 ≠ [])
    (hshare : (spanName rest).2.dropWhile isSeparator ≠ []) :
    ∃ start tail, serverRoot rest = some (start, tail) ∧
      serverRoot (rest ++ 92 :: path) = some (start, tail ++ 92 :: path) := by
  have hdrop : ((spanName rest).2 ++ 92 :: path).dropWhile isSeparator =
      (spanName rest).2.dropWhile isSeparator ++ 92 :: path := by
    rw [List.dropWhile_append, if_neg (by simpa using hshare)]
  -- the name and what is behind it
  have hlong : 2 ≤ rest.length := by
    have hrest : (spanName rest).2 ≠ [] := fun h ↦ hshare (by rw [h]; rfl)
    have hparts : ((spanName rest).1 ++ (spanName rest).2).length = rest.length :=
      congrArg List.length List.takeWhile_append_dropWhile
    rw [List.length_append] at hparts
    have h₁ := List.length_pos_of_ne_nil hname
    have h₂ := List.length_pos_of_ne_nil hrest
    omega
  rw [serverRoot, serverRoot, spanName_append]
  dsimp only
  rw [hdrop, if_neg (not_or.mpr ⟨hname, hshare⟩), if_neg (not_or.mpr ⟨hname, by simp⟩),
    spanName_append]
  split_ifs with hdevice
  · exact ⟨_, _, rfl, by rw [List.drop_append_of_le_length hlong]⟩
  · exact ⟨_, _, rfl, rfl⟩

theorem extendsBy_of_named (hnamed : namesServer root = true)
    (hserver : isBareServer root = false) : ExtendsBy root path := by
  obtain ⟨u, v, w, rest, rfl⟩ : ∃ u v w rest, root = u :: v :: w :: rest := by
    rcases root with _ | ⟨u, _ | ⟨v, _ | ⟨w, rest⟩⟩⟩
    · exact absurd hnamed Bool.false_ne_true
    · exact absurd hnamed Bool.false_ne_true
    · exact absurd hnamed Bool.false_ne_true
    · exact ⟨u, v, w, rest, rfl⟩
  obtain ⟨⟨hu, hv⟩, hw⟩ :
      (isSeparator u = true ∧ isSeparator v = true) ∧ isSeparator w = false := by
    simpa [namesServer] using hnamed
  have hname : (spanName (w :: rest)).1 ≠ [] := by
    rw [spanName, List.takeWhile_cons_of_pos (by simpa using hw)]
    exact List.cons_ne_nil _ _
  have hshare : (spanName (w :: rest)).2.dropWhile isSeparator ≠ [] := by
    simpa [isBareServer, hu, hv, hname] using hserver
  obtain ⟨start, tail, hroot, hjoin⟩ := serverRoot_append path hname hshare
  have hplain : rootOf (u :: v :: w :: rest) = (start, tail) := by
    rw [rootOf, if_pos hu, if_pos hv, hroot]
    rfl
  have hwhole : rootOf (u :: v :: w :: (rest ++ 92 :: path)) = (start, tail ++ 92 :: path) := by
    rw [rootOf, if_pos hu, if_pos hv]
    exact congrArg (fun found ↦ Option.getD found _) hjoin
  refine ⟨tail.splitOnP isSeparator, ?_, ?_⟩
  · rw [Win32.normalize, hplain]
  · rw [joined_of_named hnamed, List.cons_append, List.cons_append, List.cons_append,
      Win32.normalize, Win32.normalize, hplain, hwhole, List.splitOnP_append_cons _ _ (by rfl)]

/-- **Every absolute root** but a server without a share. -/
theorem extendsBy (path : JsString) (habsolute : isAbsolute root = true)
    (hserver : isBareServer root = false) : ExtendsBy root path := by
  by_cases hnamed : namesServer root = true
  · exact extendsBy_of_named hnamed hserver
  rcases root with _ | ⟨u, rest⟩
  · exact absurd habsolute Bool.false_ne_true
  by_cases hu : isSeparator u = true
  · exact extendsBy_of_unnamed hu (Bool.eq_false_iff.mpr hnamed)
  · rcases rest with _ | ⟨v, rest⟩
    · exact absurd habsolute hu
    · exact extendsBy_of_drive (Bool.eq_false_iff.mpr hu)

/-- **A server without a share** is no root: what is joined to it becomes the share. -/
theorem not_atOrBelow_of_isBareServer (hserver : isBareServer root = true)
    (hpath : isWorkspacePath path = true) :
    ¬(Win32.normalize root).AtOrBelow (Win32.normalize (joined root path)) := by
  obtain ⟨u, v, rest, rfl⟩ : ∃ u v rest, root = u :: v :: rest := by
    rcases root with _ | ⟨u, _ | ⟨v, rest⟩⟩
    · exact absurd hserver Bool.false_ne_true
    · exact absurd hserver Bool.false_ne_true
    · exact ⟨u, v, rest, rfl⟩
  obtain ⟨⟨⟨hu, hv⟩, hname⟩, hshare⟩ : ((isSeparator u = true ∧ isSeparator v = true) ∧
      (spanName rest).1 ≠ []) ∧ (spanName rest).2.dropWhile isSeparator = [] := by
    simpa [isBareServer] using hserver
  have hnamed : namesServer (u :: v :: rest) = true := by
    rcases rest with _ | ⟨w, rest⟩
    · exact absurd rfl hname
    · have hw : isSeparator w = false := by
        by_contra hsep
        exact hname (by rw [spanName, List.takeWhile_cons_of_neg (by simpa using hsep)])
      simp [namesServer, hu, hv, hw]
  have hplain : (rootOf (u :: v :: rest)).1 = [] := by
    rw [rootOf, if_pos hu, if_pos hv, serverRoot]
    exact congrArg (fun found ↦ (Option.getD found ([], u :: v :: rest)).1)
      (if_pos (Or.inr hshare))
  -- behind the name there is a path now
  have hbehind : ((spanName rest).2 ++ 92 :: path).dropWhile isSeparator ≠ [] := by
    obtain ⟨hempty, -, hparts⟩ := isWorkspacePath_iff.mp hpath
    obtain ⟨w, path, rfl⟩ := List.exists_cons_of_ne_nil hempty
    have hw : ¬isSeparator w = true := fun hsep ↦ (hparts [] (nil_mem_parts hsep path)).1 rfl
    rw [List.dropWhile_append, if_pos (by rw [hshare]; rfl), List.dropWhile_cons_of_pos (by rfl),
      List.dropWhile_cons_of_neg hw]
    exact List.cons_ne_nil _ _
  obtain ⟨start, tail, hroot, hlong⟩ : ∃ start tail,
      serverRoot (rest ++ 92 :: path) = some (start, tail) ∧ start ≠ [] := by
    rw [serverRoot, spanName_append]
    dsimp only
    rw [if_neg (not_or.mpr ⟨hname, hbehind⟩)]
    split_ifs
    · exact ⟨_, _, rfl, List.cons_ne_nil _ _⟩
    · exact ⟨_, _, rfl, List.cons_ne_nil _ _⟩
  have hwhole : (rootOf (u :: v :: (rest ++ 92 :: path))).1 = start := by
    rw [rootOf, if_pos hu, if_pos hv, hroot]
    rfl
  rintro ⟨hstart, -⟩
  rw [joined_of_named hnamed, List.cons_append, List.cons_append, Win32.normalize, Win32.normalize,
    hplain, hwhole] at hstart
  exact hlong (List.append_cancel_right hstart)

end Windows

/-! ## The check -/

/-- **What the check is for.** A path that it takes is at or below every absolute root it is joined
to, as it is and with its backslashes replaced, and it takes every relative path of parts other than
the empty one and `..`. -/
structure Guards (path : JsString) : Prop where
  posix : ∀ root, isWorkspacePath path = true → Posix.isAbsolute root = true →
    ∀ given ∈ [path, slashes path],
      (Posix.normalize root).AtOrBelow (Posix.normalize (Posix.joined root given))
  win32 : ∀ root, isWorkspacePath path = true → Win32.isAbsolute root = true →
    Win32.isBareServer root = false → ∀ given ∈ [path, slashes path],
      (Win32.normalize root).AtOrBelow (Win32.normalize (Win32.joined root given))
  takes : path ≠ [] → startsWithDrive path = false →
    (∀ part ∈ path.splitOnP Win32.isSeparator, part ≠ [] ∧ part ≠ js "..") →
      isWorkspacePath path = true

/-- Replaced backslashes do not matter to the check. -/
theorem isWorkspacePath_of_mem {path given : JsString} (h : isWorkspacePath path = true)
    (hgiven : given ∈ [path, slashes path]) : isWorkspacePath given = true := by
  rcases List.mem_cons.mp hgiven with rfl | hgiven
  · exact h
  · rw [List.mem_singleton.mp hgiven, isWorkspacePath_slashes, h]

/-- **`validateWorkspacePath`** keeps paths under every root but a server without a share. -/
theorem guards (path : JsString) : Guards path where
  posix root h habsolute given hgiven := by
    have hup := up_notMem_posix (isWorkspacePath_of_mem h hgiven)
    refine ⟨rfl, ?_⟩
    rw [Posix.normalize, Posix.normalize, Posix.joined, List.splitOnP_append_cons _ _ (by rfl)]
    exact normalizeParts_append _ hup
  win32 root h habsolute hserver given hgiven := by
    have hup := up_notMem (isWorkspacePath_of_mem h hgiven)
    obtain ⟨parts, hroot, hjoined⟩ := Windows.extendsBy given habsolute hserver
    rw [hroot, hjoined]
    exact ⟨rfl, normalizeParts_append _ hup⟩
  takes hempty hdrive hparts := isWorkspacePath_iff.mpr ⟨hempty, hdrive, hparts⟩

/-- The place of a server's name is the drive one is on, the place of its share is not. -/
theorem not_confined_server : ¬∀ path root, isWorkspacePath path = true →
    Win32.isAbsolute root = true →
      (Win32.normalize root).AtOrBelow (Win32.normalize (Win32.joined root path)) :=
  fun h ↦ absurd (h (js "share") (js "//server") (by decide +kernel) (by decide +kernel))
    (by decide +kernel)

end LiteHarness.Workspace
