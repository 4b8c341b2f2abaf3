import Mathlib.Data.List.Perm.Basic

/-!
# Checks in a row

A check returns something or an error. A chain of checks returns when each of them does, and a list
of checks returns what each of them returns.
-/

namespace LiteHarness.Foundation

universe u v w

variable {ε : Type u} {α β γ : Type v}

theorem except_bind_eq_ok_iff {x : Except ε α} {f : α → Except ε β} {b : β} :
    (x >>= f) = .ok b ↔ ∃ a, x = .ok a ∧ f a = .ok b := by
  rcases x with e | a
  · exact ⟨fun h ↦ absurd h nofun, fun ⟨a, h, _⟩ ↦ absurd h nofun⟩
  · exact ⟨fun h ↦ ⟨a, rfl, h⟩, fun ⟨a', h, h'⟩ ↦ Except.ok.inj h ▸ h'⟩

theorem check_eq_ok_iff {c : Prop} [Decidable c] {e : ε} {u : Unit} :
    (if c then .error e else .ok () : Except ε Unit) = .ok u ↔ ¬c := by
  split_ifs with h <;> simp [h]

/-- A check in front of a computation. -/
theorem check_then_eq_ok_iff {c : Prop} [Decidable c] {e : ε} {f : PUnit → Except ε β} {b : β} :
    (if c then (do let r ← (throw e : Except ε PUnit); f r) else f ⟨⟩) = .ok b ↔
      ¬c ∧ f ⟨⟩ = .ok b := by
  by_cases hc : c
  · rw [if_pos hc]
    exact iff_of_false nofun fun h ↦ h.1 hc
  · rw [if_neg hc]
    exact (and_iff_right hc).symm

/-- A loop of checks returns when each of them does. -/
theorem forIn_check_eq_ok_iff {c : α → Prop} [DecidablePred c] {e : α → ε} {xs : List α}
    {f : α → PUnit → Except ε (ForInStep PUnit)} {u : PUnit}
    (hf : ∀ x r, f x r =
      if c x then (do let _ ← (throw (e x) : Except ε PUnit); pure (.yield ⟨⟩))
      else pure (.yield ⟨⟩)) :
    forIn xs PUnit.unit f = .ok u ↔ ∀ x ∈ xs, ¬c x := by
  induction xs with
  | nil => exact iff_of_true rfl fun x hx ↦ absurd hx List.not_mem_nil
  | cons x xs ih =>
    rw [List.forIn_cons, hf, List.forall_mem_cons]
    by_cases hc : c x
    · rw [if_pos hc]
      exact iff_of_false nofun fun h ↦ h.1 hc
    · rw [if_neg hc, ← ih]
      exact (and_iff_right hc).symm

theorem mapM_eq_ok_iff {f : α → Except ε β} {xs : List α} {ys : List β} :
    xs.mapM f = .ok ys ↔ List.Forall₂ (fun x y ↦ f x = .ok y) xs ys := by
  induction xs generalizing ys with
  | nil =>
    rw [List.mapM_nil, List.forall₂_nil_left_iff]
    exact ⟨fun h ↦ (Except.ok.inj h).symm, fun h ↦ congrArg Except.ok h.symm⟩
  | cons x xs ih =>
    rw [List.mapM_cons, except_bind_eq_ok_iff, List.forall₂_cons_left_iff]
    constructor
    · rintro ⟨y, hy, h⟩
      obtain ⟨ys', hys', h⟩ := except_bind_eq_ok_iff.mp h
      exact ⟨y, ys', hy, ih.mp hys', (Except.ok.inj h).symm⟩
    · rintro ⟨y, ys', hy, hys', rfl⟩
      exact ⟨y, hy, except_bind_eq_ok_iff.mpr ⟨ys', ih.mpr hys', rfl⟩⟩

theorem exists_of_mapM_eq_ok {f : α → Except ε β} {xs : List α} {ys : List β}
    (h : xs.mapM f = .ok ys) : ∀ x ∈ xs, ∃ y ∈ ys, f x = .ok y := by
  have hall := mapM_eq_ok_iff.mp h
  clear h
  induction hall with
  | nil => exact fun x hx ↦ absurd hx List.not_mem_nil
  | cons hhead _ ih =>
    intro x hx
    rcases List.mem_cons.mp hx with rfl | hx
    · exact ⟨_, List.mem_cons_self, hhead⟩
    · obtain ⟨y, hmem, hy⟩ := ih x hx
      exact ⟨y, List.mem_cons_of_mem _ hmem, hy⟩

theorem exists_of_mem_mapM {f : α → Except ε β} {xs : List α} {ys : List β}
    (h : xs.mapM f = .ok ys) : ∀ y ∈ ys, ∃ x ∈ xs, f x = .ok y := by
  have hall := mapM_eq_ok_iff.mp h
  clear h
  induction hall with
  | nil => exact fun y hy ↦ absurd hy List.not_mem_nil
  | cons hhead _ ih =>
    intro y hy
    rcases List.mem_cons.mp hy with rfl | hy
    · exact ⟨_, List.mem_cons_self, hhead⟩
    · obtain ⟨x, hmem, hx⟩ := ih y hy
      exact ⟨x, List.mem_cons_of_mem _ hmem, hx⟩

/-- A list of checks fails with the first error. -/
theorem mapM_eq_error_iff {f : α → Except ε β} {xs : List α} {e : ε} :
    xs.mapM f = .error e ↔ ∃ pre x post, xs = pre ++ x :: post ∧
      (∀ x' ∈ pre, ∃ y, f x' = .ok y) ∧ f x = .error e := by
  induction xs with
  | nil =>
    rw [List.mapM_nil]
    refine iff_of_false nofun ?_
    rintro ⟨pre, x, post, h, -⟩
    exact absurd h.symm (List.append_ne_nil_of_right_ne_nil _ (List.cons_ne_nil _ _))
  | cons x xs ih =>
    rw [List.mapM_cons]
    rcases hx : f x with e' | y
    · constructor
      · intro h
        obtain rfl : e' = e := Except.error.inj h
        exact ⟨[], x, xs, rfl, nofun, hx⟩
      · rintro ⟨_ | ⟨x', pre⟩, z, post, h, hpre, hz⟩
        · rw [← (List.cons.inj h).1, hx] at hz
          rw [Except.error.inj hz]
          rfl
        · obtain ⟨y, hy⟩ := hpre x' List.mem_cons_self
          rw [← (List.cons.inj h).1, hx] at hy
          exact absurd hy nofun
    · have hrest : (Except.ok y >>= fun y ↦ xs.mapM f >>= fun ys ↦ pure (y :: ys)) =
          (.error e : Except ε (List β)) ↔ xs.mapM f = .error e := by
        rcases xs.mapM f with e' | ys
        · exact Iff.rfl
        · exact iff_of_false nofun nofun
      refine hrest.trans (ih.trans ⟨?_, ?_⟩)
      · rintro ⟨pre, z, post, rfl, hpre, hz⟩
        exact ⟨x :: pre, z, post, rfl, List.forall_mem_cons.mpr ⟨⟨y, hx⟩, hpre⟩, hz⟩
      · rintro ⟨_ | ⟨x', pre⟩, z, post, h, hpre, hz⟩
        · rw [(List.cons.inj h).1, hz] at hx
          exact absurd hx nofun
        · exact ⟨pre, z, post, (List.cons.inj h).2, (List.forall_mem_cons.mp hpre).2, hz⟩

theorem mapM_congr {f g : α → Except ε β} {xs : List α} (h : ∀ x ∈ xs, f x = g x) :
    xs.mapM f = xs.mapM g := by
  induction xs with
  | nil => rfl
  | cons x xs ih =>
    obtain ⟨hx, hxs⟩ := List.forall_mem_cons.mp h
    rw [List.mapM_cons, List.mapM_cons, hx, ih hxs]

/-- Where each check returns what a function says, all of them do. -/
theorem mapM_eq_ok_map {f : α → Except ε β} {g : α → β} {xs : List α}
    (h : ∀ x ∈ xs, f x = .ok (g x)) : xs.mapM f = .ok (xs.map g) :=
  mapM_eq_ok_iff.mpr ((List.forall₂_map_right_iff).mpr (List.forall₂_same.mpr h))

/-- A list that grows with each element of another one, up to a limit. -/
theorem foldlM_append_eq_ok_iff {step : List β → α → Except ε (List β)} (fine : α → Prop)
    {gives : α → List β} (limit : ℕ) {xs : List α} {r r' : List β} (hr : r.length ≤ limit)
    (hstep : ∀ x ∈ xs, ∀ r r' : List β, r.length ≤ limit →
      (step r x = .ok r' ↔ fine x ∧ (r ++ gives x).length ≤ limit ∧ r' = r ++ gives x)) :
    xs.foldlM step r = .ok r' ↔
      (∀ x ∈ xs, fine x) ∧ (r ++ xs.flatMap gives).length ≤ limit ∧ r' = r ++ xs.flatMap gives := by
  induction xs generalizing r with
  | nil =>
    rw [List.foldlM_nil, List.flatMap_nil, List.append_nil]
    refine ⟨fun h ↦ ⟨nofun, hr, (Except.ok.inj h).symm⟩, ?_⟩
    rintro ⟨-, -, rfl⟩
    rfl
  | cons x xs ih =>
    obtain ⟨hx, hxs⟩ := List.forall_mem_cons.mp hstep
    rw [List.foldlM_cons, except_bind_eq_ok_iff, List.flatMap_cons, List.forall_mem_cons,
      ← List.append_assoc]
    constructor
    · rintro ⟨mid, hmid, h⟩
      obtain ⟨hfine, hlength, rfl⟩ := (hx r mid hr).mp hmid
      obtain ⟨hall, hrest⟩ := (ih hlength hxs).mp h
      exact ⟨⟨hfine, hall⟩, hrest⟩
    · rintro ⟨⟨hfine, hall⟩, hlength, heq⟩
      have hmid : (r ++ gives x).length ≤ limit := by
        rw [List.length_append] at hlength
        omega
      exact ⟨_, (hx r _ hr).mpr ⟨hfine, hmid, rfl⟩, (ih hmid hxs).mpr ⟨hall, hlength, heq⟩⟩

/-- Checks of the elements in another order return what they return, in that order. -/
theorem exists_mapM_of_perm {f : α → Except ε β} {xs xs' : List α} {ys : List β}
    (hperm : xs.Perm xs') (h : xs.mapM f = .ok ys) : ∃ ys', xs'.mapM f = .ok ys' ∧ ys.Perm ys' := by
  obtain ⟨ys', hall, hperm'⟩ :=
    List.perm_comp_forall₂ hperm.symm (mapM_eq_ok_iff.mp h)
  exact ⟨ys', mapM_eq_ok_iff.mpr hall, hperm'.symm⟩

end LiteHarness.Foundation
