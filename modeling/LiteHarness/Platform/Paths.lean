import LiteHarness.Platform.JsString
import Mathlib.Data.List.Basic

/-!
# Paths inside a workspace

`validateWorkspacePath` is the check every path from outside goes through before it is joined to a
directory.
-/

namespace LiteHarness

/-- A drive letter and a colon. -/
def startsWithDrive : JsString → Bool
  | letter :: 58 :: _ => (65 ≤ letter && letter ≤ 90) || (97 ≤ letter && letter ≤ 122)
  | _ => false

/-- The condition under which `validateWorkspacePath` does not throw. -/
def isWorkspacePath (path : JsString) : Bool :=
  !(path.isEmpty || path.head? = some 47 || path.head? = some 92 || startsWithDrive path ||
    (path.splitOnP fun u ↦ u = 47 || u = 92).any fun part ↦ part = js ".." || part.isEmpty)

/-- `path.replaceAll("\\", "/")`. -/
def slashes (path : JsString) : JsString := path.map fun u ↦ if u = 92 then 47 else u

theorem slashes_slashes (path : JsString) : slashes (slashes path) = slashes path := by
  rw [slashes, slashes, List.map_map]
  refine List.map_congr_left fun u _ ↦ ?_
  rw [Function.comp_apply]
  split_ifs with h <;> simp_all

/-- The parts between the separators are not changed. -/
theorem splitOnP_slashes (path : JsString) :
    (slashes path).splitOnP (fun u ↦ u = 47 || u = 92) =
      path.splitOnP fun u ↦ u = 47 || u = 92 := by
  rw [slashes]
  induction path with
  | nil => rfl
  | cons u path ih =>
    rw [List.map_cons, List.splitOnP_cons_eq_if_modifyHead, List.splitOnP_cons_eq_if_modifyHead, ih]
    by_cases hback : u = 92
    · rw [hback]
      rfl
    · rw [if_neg hback]

theorem startsWithDrive_slashes (path : JsString) :
    startsWithDrive (slashes path) = startsWithDrive path := by
  rcases path with _ | ⟨u, _ | ⟨v, path⟩⟩
  · rfl
  · rw [slashes, List.map_singleton]
    split_ifs with h <;> rfl
  · rw [slashes, List.map_cons, List.map_cons]
    by_cases hv : v = 58
    · subst hv
      by_cases hu : u = 92
      · subst hu
        rfl
      · rw [if_neg hu, if_neg (by decide)]
        rfl
    · have hv' : (if v = 92 then 47 else v) ≠ (58 : UInt16) := by
        split_ifs with h
        · decide
        · exact hv
      rw [startsWithDrive.eq_2, startsWithDrive.eq_2]
      · rintro _ _ ⟨⟩
        exact hv rfl
      · intro letter rest heq
        exact hv' (List.cons.inj (List.cons.inj heq).2).1

theorem isWorkspacePath_slashes (path : JsString) :
    isWorkspacePath (slashes path) = isWorkspacePath path := by
  unfold isWorkspacePath
  rw [splitOnP_slashes, startsWithDrive_slashes]
  rcases path with _ | ⟨u, path⟩
  · rfl
  · rw [slashes, List.map_cons]
    by_cases hu : u = 92
    · subst hu
      rfl
    · rw [if_neg hu]
      rfl

end LiteHarness
