import Mathlib.Logic.Relation
import Mathlib.Data.Int.Order.Basic

/-!
# Forests given by parent pointers

Each node points to at most one parent and lies one level below it. `Below a x` says that `a` is
`x` or an ancestor of `x`, and `Visited` that a traversal from the top reaches `x` when it only
enters open nodes.
-/

namespace LiteHarness.Foundation.Forest

variable {κ : Type*} {parent : κ → Option κ} {depth : κ → ℤ}

/-- The first node is the second one or an ancestor of it. -/
def Below (parent : κ → Option κ) : κ → κ → Prop :=
  Relation.ReflTransGen fun p c ↦ parent c = some p

/-- Every node lies one level below its parent. -/
def Levelled (parent : κ → Option κ) (depth : κ → ℤ) : Prop :=
  ∀ c p, parent c = some p → depth c = depth p + 1

theorem Below.depth_le (h : Levelled parent depth) {a x : κ} (hx : Below parent a x) :
    depth a ≤ depth x := by
  induction hx with
  | refl => exact le_rfl
  | tail _ hstep ih =>
    have hlevel := h _ _ hstep
    omega

/-- No node is its own proper ancestor. -/
theorem acyclic (h : Levelled parent depth) {x : κ} :
    ¬Relation.TransGen (fun p c ↦ parent c = some p) x x := by
  intro hx
  obtain ⟨y, hy, hstep⟩ := Relation.TransGen.tail'_iff.mp hx
  have hle := Below.depth_le h hy
  rw [h _ _ hstep] at hle
  omega

/-- A traversal from `r` that enters open nodes only reaches `x`. -/
def Visited (parent : κ → Option κ) (isOpen : κ → Prop) (r x : κ) : Prop :=
  isOpen r ∧ Relation.ReflTransGen (fun p c ↦ parent c = some p ∧ isOpen c) r x

variable {opened opened' : κ → Prop}

theorem Visited.below {r x : κ} (h : Visited parent opened r x) : Below parent r x := by
  obtain ⟨-, hpath⟩ := h
  induction hpath with
  | refl => exact .refl
  | tail _ hstep ih => exact ih.tail hstep.1

theorem Visited.open_of {r x : κ} (h : Visited parent opened r x) : opened x := by
  rcases Relation.ReflTransGen.cases_tail h.2 with heq | ⟨p, -, hstep⟩
  · exact heq ▸ h.1
  · exact hstep.2

/-- Every ancestor of a visited node down from the root is visited, and so is what is below it. -/
theorem Visited.trans {r y x : κ} (h : Visited parent opened r y)
    (h' : Visited parent opened y x) : Visited parent opened r x := ⟨h.1, h.2.trans h'.2⟩

/-- The traversal visits the root, and then its children's trees. -/
theorem visited_iff {r x : κ} : Visited parent opened r x ↔
    opened r ∧ (x = r ∨ ∃ c, parent c = some r ∧ Visited parent opened c x) := by
  refine and_congr_right fun hr ↦ ?_
  rw [Relation.ReflTransGen.cases_head_iff, eq_comm]
  refine or_congr_right (exists_congr fun c ↦ ?_)
  rw [Visited, and_assoc]

theorem Visited.tail {r y x : κ} (h : Visited parent opened r y) (hstep : parent x = some y)
    (hx : opened x) : Visited parent opened r x := ⟨h.1, h.2.tail ⟨hstep, hx⟩⟩

/-- Closing other nodes does not matter. -/
theorem Visited.congr {r x : κ} (h : Visited parent opened r x)
    (hsame : ∀ y, Visited parent opened r y → Visited parent opened y x → opened' y) :
    Visited parent opened' r x := by
  refine ⟨hsame r ⟨h.1, .refl⟩ h, ?_⟩
  obtain ⟨hr, hpath⟩ := h
  induction hpath with
  | refl => exact .refl
  | @tail y x hy hstep ih =>
    have hx : Visited parent opened r x := ⟨hr, .tail hy hstep⟩
    refine .tail (ih fun z hz hzy ↦ hsame z hz (hzy.tail hstep.1 hstep.2)) ?_
    exact ⟨hstep.1, hsame x hx ⟨hstep.2, .refl⟩⟩

end LiteHarness.Foundation.Forest
