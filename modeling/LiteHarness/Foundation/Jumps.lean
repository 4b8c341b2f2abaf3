import Mathlib.Algebra.Order.Ring.Int
import Mathlib.Data.Int.Order.Basic
import Mathlib.Tactic.Linarith

/-!
# Functions with spaced jumps

A function of the integers jumps at a point where it differs from the point before. Where its jumps
lie `gap` apart it takes at most two values on a stretch of that length, and it takes the second one
for good.

An offset function `f` moves a point `x` to `x + f x`. A point that lands on `target` solves `x =
target - f x`, and `Drift` is what makes two rounds of this correction find one: the offsets are
small, and their jumps lie far apart. Where two points land on the target the correction prefers the
one with the offset of the target (`Preferred`). What is preferred is unique and grows with the
target.
-/

namespace LiteHarness.Foundation

variable {β : Type*} {f : ℤ → β} {gap x y z lo : ℤ}

/-! ## Jumps -/

def JumpsAt (f : ℤ → β) (p : ℤ) : Prop := f (p - 1) ≠ f p

/-- Any two jumps lie `gap` apart. -/
def Spaced (gap : ℤ) (f : ℤ → β) : Prop :=
  ∀ p q, p < q → JumpsAt f p → JumpsAt f q → gap ≤ q - p

theorem exists_jump (hxy : x ≤ y) (hne : f x ≠ f y) : ∃ p, x < p ∧ p ≤ y ∧ JumpsAt f p := by
  induction y, hxy using Int.leInduction with
  | base => exact absurd rfl hne
  | succ y hxy ih =>
    by_cases hy : f x = f y
    · refine ⟨y + 1, by omega, le_rfl, ?_⟩
      rw [JumpsAt, add_sub_cancel_right, ← hy]
      exact hne
    · obtain ⟨p, hxp, hpy, hjump⟩ := ih hy
      exact ⟨p, hxp, by omega, hjump⟩

namespace Spaced

/-- **The second value is taken for good.** -/
theorem eq_of_ne (h : Spaced gap f) (hxy : x ≤ y) (hyz : y ≤ z) (hnear : z - x ≤ gap)
    (hne : f x ≠ f y) : f y = f z := by
  by_contra hne'
  obtain ⟨p, hxp, hpy, hp⟩ := exists_jump hxy hne
  obtain ⟨q, hyq, hqz, hq⟩ := exists_jump hyz hne'
  have hgap := h p q (by omega) hp hq
  omega

variable (lo) in
/-- On a short stretch there are two values. -/
theorem eq_or_eq (h : Spaced gap f) (hx : lo ≤ x ∧ x ≤ lo + gap) (hy : lo ≤ y ∧ y ≤ lo + gap)
    (hz : lo ≤ z ∧ z ≤ lo + gap) (hne : f x ≠ f y) : f z = f x ∨ f z = f y := by
  by_contra hother
  obtain ⟨hzx, hzy⟩ := not_or.mp hother
  -- Whichever of the three points is in the middle, the value changes on both of its sides.
  rcases le_total x y with hxy | hyx
  · rcases le_total y z with hyz | hzy'
    · exact hzy (h.eq_of_ne hxy hyz (by omega) hne).symm
    · rcases le_total x z with hxz | hzx'
      · exact hzy (h.eq_of_ne hxz hzy' (by omega) (Ne.symm hzx))
      · exact hne (h.eq_of_ne hzx' hxy (by omega) hzx)
  · rcases le_total x z with hxz | hzx'
    · exact hzx (h.eq_of_ne hyx hxz (by omega) (Ne.symm hne)).symm
    · rcases le_total y z with hyz | hzy'
      · exact hzx (h.eq_of_ne hyz hzx' (by omega) (Ne.symm hzy))
      · exact hne (h.eq_of_ne hzy' hyx (by omega) hzy).symm

end Spaced

/-! ## Offsets -/

/-- The offsets stay below `reach`, and their jumps lie twice as far apart. -/
structure Drift (reach : ℤ) (f : ℤ → ℤ) : Prop where
  small : ∀ x, -reach < f x ∧ f x < reach
  spaced : Spaced (2 * reach) f

variable {f : ℤ → ℤ} {reach target target' c c' u v : ℤ}

namespace Drift

/-- On a stretch around the target there are two offsets. -/
theorem eq_or_eq (h : Drift reach f) (hx : target - reach ≤ x ∧ x ≤ target + reach)
    (hy : target - reach ≤ y ∧ y ≤ target + reach) (hz : target - reach ≤ z ∧ z ≤ target + reach)
    (hne : f x ≠ f y) : f z = f x ∨ f z = f y :=
  h.spaced.eq_or_eq (target - reach) (by omega) (by omega) (by omega) hne

theorem correction_near (h : Drift reach f) (target x : ℤ) :
    target - reach ≤ target - f x ∧ target - f x ≤ target + reach := by
  have hsmall := h.small x
  omega

theorem target_near (h : Drift reach f) (target : ℤ) :
    target - reach ≤ target ∧ target ≤ target + reach := by
  have hsmall := h.small target
  omega

theorem near_of_lands (h : Drift reach f) (hx : x + f x = target) :
    target - reach ≤ x ∧ x ≤ target + reach := by
  have hsmall := h.small x
  omega

/-- **Two rounds of correction are enough.** -/
theorem eq_of_lands (h : Drift reach f) (hu : u = target - f target) (hmiss : u + f u ≠ target)
    (hx : x + f x = target) : x = target - f u := by
  have hne : f target ≠ f u := by omega
  rcases h.eq_or_eq (h.target_near target) (hu ▸ h.correction_near target target)
    (h.near_of_lands hx) hne with hfx | hfx
  · have hxu : x = u := by omega
    exact absurd (hxu ▸ hx) hmiss
  · omega

/-- Where they find nothing the correction comes back. -/
theorem correction_back (h : Drift reach f) (hu : u = target - f target)
    (hmiss : u + f u ≠ target) (hv : v = target - f u) (hmiss' : v + f v ≠ target) :
    target - f v = u := by
  have hne : f target ≠ f u := by omega
  rcases h.eq_or_eq (h.target_near target) (hu ▸ h.correction_near target target)
    (hv ▸ h.correction_near target u) hne with hfv | hfv
  · omega
  · omega

end Drift

/-! ## What is preferred -/

/-- `c` lands on the target, with the offset of the target if it is not the only point that does. -/
structure Preferred (f : ℤ → ℤ) (target c : ℤ) : Prop where
  lands : c + f c = target
  others : ∀ x, x + f x = target → x ≠ c → f c = f target

namespace Preferred

theorem unique (h : Preferred f target c) (h' : Preferred f target c') : c = c' := by
  by_contra hne
  have hc := h.others c' h'.lands (Ne.symm hne)
  have hc' := h'.others c h.lands hne
  have hlands := h.lands
  have hlands' := h'.lands
  omega

/-- What the first round of correction finds. -/
theorem of_first (hu : u = target - f target) (hlands : u + f u = target) :
    Preferred f target u :=
  ⟨hlands, fun _ _ _ ↦ by omega⟩

/-- What the second round finds where the first one finds nothing. -/
theorem of_second (h : Drift reach f) (hu : u = target - f target) (hmiss : u + f u ≠ target)
    (hv : v = target - f u) (hlands : v + f v = target) : Preferred f target v :=
  ⟨hlands, fun _ hx hne ↦ absurd ((h.eq_of_lands hu hmiss hx).trans hv.symm) hne⟩

/-- Where points land on the target one of them is preferred. -/
theorem exists_of_lands (h : Drift reach f) (hx : x + f x = target) :
    ∃ c, Preferred f target c := by
  by_cases hlands : (target - f target) + f (target - f target) = target
  · exact ⟨_, of_first rfl hlands⟩
  · have hsecond := h.eq_of_lands rfl hlands hx
    exact ⟨x, of_second h rfl hlands hsecond hx⟩

/-- The preferred point is the first one where no offset is positive. -/
theorem le_of_nonpos (h : Drift reach f) (hc : Preferred f target c) (hf : ∀ x, f x ≤ 0)
    (hx : x + f x = target) : c ≤ x := by
  by_contra hlt
  have hlands := hc.lands
  have hoffset := hc.others x hx (by omega)
  have hnonpos := hf x
  have hsmall := h.small c
  have hlast := h.spaced.eq_of_ne (x := target) (y := x) (z := c) (by omega) (by omega) (by omega)
    (by omega)
  omega

/-- And the last one where none is negative. -/
theorem ge_of_nonneg (h : Drift reach f) (hc : Preferred f target c) (hf : ∀ x, 0 ≤ f x)
    (hx : x + f x = target) : x ≤ c := by
  by_contra hlt
  have hlands := hc.lands
  have hoffset := hc.others x hx (by omega)
  have hnonneg := hf x
  have hsmall := h.small c
  have hlast := h.spaced.eq_of_ne (x := c) (y := x) (z := target) (by omega) (by omega) (by omega)
    (by omega)
  omega

/-- **What is preferred grows with the target**, by steps that exceed the offsets. -/
theorem lt (h : Drift reach f) (hc : Preferred f target c) (hc' : Preferred f target' c')
    (hstep : target + reach ≤ target') : c < c' := by
  by_contra hle
  have hlands := hc.lands
  have hlands' := hc'.lands
  have hsmall := h.small c
  have hsmall' := h.small c'
  -- The points come in the order `target`, `c'`, `c`, and the offset changes between the last two.
  have hne : f c' ≠ f c := by omega
  have hsame : f target = f c' := by
    by_contra hchange
    exact hne (h.spaced.eq_of_ne (by omega) (by omega) (by omega) hchange)
  -- So it does not change before, and the first round of correction finds a point before `target`.
  have hfirst : f (target - f target) = f target := by
    by_contra hchange
    have hlast := h.spaced.eq_of_ne (x := target - f target) (y := target) (z := c) (by omega)
      (by omega) (by omega) hchange
    omega
  have hoffset := hc.others (target - f target) (by omega) fun heq ↦ by
    rw [heq] at hfirst
    omega
  omega

end Preferred

/-! ## What is skipped -/

/-- At `p` the points jump over the target. -/
def SkippedAt (f : ℤ → ℤ) (target p : ℤ) : Prop := p + f (p - 1) ≤ target ∧ target < p + f p

theorem SkippedAt.jumpsAt {p : ℤ} (h : SkippedAt f target p) : JumpsAt f p := by
  obtain ⟨hbefore, hbehind⟩ := h
  rw [JumpsAt]
  omega

theorem exists_skippedAt (hxy : x ≤ y) (hx : x + f x < target) (hy : target < y + f y)
    (hmissed : ∀ c, c + f c ≠ target) : ∃ p, SkippedAt f target p := by
  induction y, hxy using Int.leInduction with
  | base => omega
  | succ y hxy ih =>
    by_cases hlt : target < y + f y
    · exact ih hlt
    · have hne := hmissed y
      refine ⟨y + 1, ?_, hy⟩
      rw [add_sub_cancel_right]
      omega

namespace Drift

/-- A target that no point lands on is skipped. -/
theorem exists_skippedAt (h : Drift reach f) (hmissed : ∀ c, c + f c ≠ target) :
    ∃ p, SkippedAt f target p := by
  have hfirst := h.small (target - reach)
  have hlast := h.small (target + reach)
  exact Foundation.exists_skippedAt (x := target - reach) (y := target + reach) (by omega)
    (by omega) (by omega) hmissed

/-- Targets that lie close together are skipped at once. -/
theorem skippedAt_unique (h : Drift reach f) {p q : ℤ} (hp : SkippedAt f target p)
    (hq : SkippedAt f target' q) (hlt : target < target') (hclose : target' ≤ target + 2 * reach) :
    p = q := by
  have hpJump := hp.jumpsAt
  have hqJump := hq.jumpsAt
  obtain ⟨hpBefore, hpBehind⟩ := hp
  obtain ⟨hqBefore, hqBehind⟩ := hq
  have hsmall := h.small p
  have hsmallBefore := h.small (p - 1)
  have hsmall' := h.small q
  have hsmallBefore' := h.small (q - 1)
  rcases lt_trichotomy p q with hpq | rfl | hqp
  · have hgap := h.spaced p q hpq hpJump hqJump
    -- No jump lies between the two, as it would have to be far from both.
    have hsame : f p = f (q - 1) := by
      by_contra hne
      obtain ⟨r, hpr, hrq, hr⟩ := exists_jump (x := p) (y := q - 1) (by omega) hne
      have hgapLeft := h.spaced p r hpr hpJump hr
      have hgapRight := h.spaced r q (by omega) hr hqJump
      omega
    omega
  · rfl
  · have hgap := h.spaced q p hqp hqJump hpJump
    omega

/-- **No three targets in a row are skipped** that lie closer together than two jumps, where the
last is as far from the first. -/
theorem exists_lands (h : Drift reach f) (t₁ t₂ t₃ : ℤ) (h₁ : t₁ < t₂)
    (h₁₂ : t₂ ≤ t₁ + 2 * reach) (h₂ : t₂ < t₃) (h₂₃ : t₃ ≤ t₂ + 2 * reach)
    (hfar : t₁ + 2 * reach ≤ t₃) :
    (∃ c, c + f c = t₁) ∨ (∃ c, c + f c = t₂) ∨ ∃ c, c + f c = t₃ := by
  by_contra hmissed
  simp only [not_or, not_exists] at hmissed
  obtain ⟨hmissed₁, hmissed₂, hmissed₃⟩ := hmissed
  obtain ⟨p₁, hp₁⟩ := h.exists_skippedAt hmissed₁
  obtain ⟨p₂, hp₂⟩ := h.exists_skippedAt hmissed₂
  obtain ⟨p₃, hp₃⟩ := h.exists_skippedAt hmissed₃
  obtain rfl := h.skippedAt_unique hp₁ hp₂ h₁ h₁₂
  obtain rfl := h.skippedAt_unique hp₂ hp₃ h₂ h₂₃
  obtain ⟨hbefore, -⟩ := hp₁
  obtain ⟨-, hbehind⟩ := hp₃
  have hsmall := h.small p₁
  have hsmallBefore := h.small (p₁ - 1)
  omega

end Drift

end LiteHarness.Foundation
