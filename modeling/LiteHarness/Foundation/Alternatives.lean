import Mathlib.Data.List.Basic

/-!
# Trying alternatives in order

A list of alternatives is tried from the front. Each either passes the turn on to the next, with an
error, or decides the outcome. `tryEach` keeps what every alternative tried has done; `tryEach_cases`
says how far it came.
-/

namespace LiteHarness.Foundation

variable {α β ε ρ : Type*}

/-- What an alternative did, and whether it leaves the outcome to the next. -/
inductive Verdict (β ε ρ : Type*) where
  | passes (done : List β) (error : ε)
  | decides (done : List β) (result : ρ)

namespace Verdict

def done : Verdict β ε ρ → List β
  | passes done _ => done
  | decides done _ => done

/-- The error an alternative passes on with. -/
def error? : Verdict β ε ρ → Option ε
  | passes _ error => some error
  | decides _ _ => none

def Passes (v : Verdict β ε ρ) : Prop := v.error?.isSome

instance (v : Verdict β ε ρ) : Decidable v.Passes := inferInstanceAs (Decidable (_ = true))

@[simp] theorem passes_passes (done : List β) (error : ε) :
    (passes done error : Verdict β ε ρ).Passes := rfl

@[simp] theorem not_passes_decides (done : List β) (result : ρ) :
    ¬(decides done result : Verdict β ε ρ).Passes := Bool.false_ne_true

end Verdict

/-- Tries the alternatives in order. Where all pass, the outcome is left to the last error. -/
def tryEach (verdict : α → Verdict β ε ρ) (exhausted : Option ε → ρ) :
    Option ε → List α → List β × ρ
  | last, [] => ([], exhausted last)
  | _, a :: rest =>
    match verdict a with
    | .passes done error =>
      (done ++ (tryEach verdict exhausted (some error) rest).1,
        (tryEach verdict exhausted (some error) rest).2)
    | .decides done result => (done, result)

variable {verdict : α → Verdict β ε ρ} {exhausted : Option ε → ρ}

/-- The errors the alternatives pass on with. -/
def passedErrors (verdict : α → Verdict β ε ρ) (alternatives : List α) : List ε :=
  alternatives.filterMap fun a ↦ (verdict a).error?

/-- The alternatives before the first that decides have all passed. -/
theorem tryEach_of_passes {pre : List α} (h : ∀ a ∈ pre, (verdict a).Passes) (last : Option ε)
    (rest : List α) :
    tryEach verdict exhausted last (pre ++ rest)
      = (pre.flatMap (fun a ↦ (verdict a).done)
          ++ (tryEach verdict exhausted ((passedErrors verdict pre).getLast?.or last) rest).1,
        (tryEach verdict exhausted ((passedErrors verdict pre).getLast?.or last) rest).2) := by
  induction pre generalizing last with
  | nil => rfl
  | cons a pre ih =>
    have ha := h a List.mem_cons_self
    cases hv : verdict a with
    | decides done result =>
      rw [Verdict.Passes, hv] at ha
      exact absurd ha Bool.false_ne_true
    | passes done error =>
      have hlast : (passedErrors verdict (a :: pre)).getLast?.or last
          = (passedErrors verdict pre).getLast?.or (some error) := by
        rw [passedErrors, List.filterMap_cons_some (b := error) (by rw [hv]; rfl),
          List.getLast?_cons, Option.some_or, passedErrors]
        cases (pre.filterMap fun a ↦ (verdict a).error?).getLast? <;> rfl
      rw [List.cons_append, tryEach, hv]
      dsimp only
      rw [ih (fun b hb ↦ h b (List.mem_cons_of_mem _ hb)), List.flatMap_cons, hv, hlast,
        List.append_assoc]
      rfl

/-- The first alternative that decides. -/
theorem tryEach_of_decides {pre : List α} (h : ∀ a ∈ pre, (verdict a).Passes) {a : α}
    {done : List β} {result : ρ} (ha : verdict a = .decides done result) (last : Option ε)
    (post : List α) :
    tryEach verdict exhausted last (pre ++ a :: post)
      = (pre.flatMap (fun b ↦ (verdict b).done) ++ done, result) := by
  rw [tryEach_of_passes h, tryEach, ha]

/-- Where all alternatives pass, the outcome is left to the last error. -/
theorem tryEach_exhausted {alternatives : List α} (h : ∀ a ∈ alternatives, (verdict a).Passes) :
    tryEach verdict exhausted none alternatives
      = (alternatives.flatMap (fun a ↦ (verdict a).done),
        exhausted (passedErrors verdict alternatives).getLast?) := by
  rw [← List.append_nil alternatives, tryEach_of_passes h, tryEach, List.append_nil,
    List.append_nil, Option.or_none]

/-- The last error is that of the last alternative. -/
theorem getLast?_passedErrors {pre : List α} {a : α} {error : ε}
    (h : (verdict a).error? = some error) :
    (passedErrors verdict (pre ++ [a])).getLast? = some error := by
  have hlast : [a].filterMap (fun a ↦ (verdict a).error?) = [error] :=
    List.filterMap_cons_some h
  rw [passedErrors, List.filterMap_append, hlast, List.getLast?_concat]

/-- What is done while the alternatives are tried is done by one that all before it have passed
on to. -/
theorem mem_tryEach {last : Option ε} {alternatives : List α} {x : β} :
    x ∈ (tryEach verdict exhausted last alternatives).1 ↔
      ∃ pre a post, alternatives = pre ++ a :: post ∧ (∀ c ∈ pre, (verdict c).Passes) ∧
        x ∈ (verdict a).done := by
  constructor
  · intro h
    induction alternatives generalizing last with
    | nil => exact absurd h List.not_mem_nil
    | cons a rest ih =>
      cases hv : verdict a with
      | decides done result =>
        rw [tryEach, hv] at h
        exact ⟨[], a, rest, rfl, fun c hc ↦ absurd hc List.not_mem_nil, by rwa [hv]⟩
      | passes done error =>
        rw [tryEach, hv] at h
        rcases List.mem_append.mp h with h | h
        · exact ⟨[], a, rest, rfl, fun c hc ↦ absurd hc List.not_mem_nil, by rwa [hv]⟩
        · obtain ⟨pre, b, post, rfl, hpre, hx⟩ := ih h
          refine ⟨a :: pre, b, post, rfl, List.forall_mem_cons.mpr ⟨?_, hpre⟩, hx⟩
          rw [hv]
          exact Verdict.passes_passes _ _
  · rintro ⟨pre, a, post, rfl, hpre, hx⟩
    rw [tryEach_of_passes hpre]
    refine List.mem_append_right _ ?_
    rw [tryEach]
    cases hv : verdict a with
    | decides done result =>
      rw [hv] at hx
      exact hx
    | passes done error =>
      rw [hv] at hx
      exact List.mem_append_left _ hx

/-- **What is done by two alternatives.** A relation that holds within each alternative holds
throughout if and only if it holds between any two that are tried. -/
theorem pairwise_tryEach {R : β → β → Prop} {last : Option ε} {alternatives : List α}
    (hown : ∀ a ∈ alternatives, (verdict a).done.Pairwise R) :
    (tryEach verdict exhausted last alternatives).1.Pairwise R ↔
      ∀ pre a mid b post, alternatives = pre ++ a :: (mid ++ b :: post) →
        (∀ c ∈ pre ++ a :: mid, (verdict c).Passes) →
          ∀ x ∈ (verdict a).done, ∀ y ∈ (verdict b).done, R x y := by
  induction alternatives generalizing last with
  | nil =>
    refine ⟨fun _ pre a mid b post h ↦ absurd h (by simp), fun _ ↦ List.Pairwise.nil⟩
  | cons a rest ih =>
    obtain ⟨ha, hrest⟩ := List.forall_mem_cons.mp hown
    cases hv : verdict a with
    | decides done result =>
      rw [tryEach, hv]
      rw [hv] at ha
      refine ⟨fun _ pre b mid c post hsplit hpass ↦ ?_, fun _ ↦ ha⟩
      -- the first alternative would have passed
      have hfirst : a ∈ pre ++ b :: mid := by
        cases pre with
        | nil => exact List.mem_cons.mpr (Or.inl (List.cons.inj hsplit).1)
        | cons d pre => exact List.mem_cons.mpr (Or.inl (List.cons.inj hsplit).1)
      have hpasses := hpass a hfirst
      rw [hv] at hpasses
      exact absurd hpasses (Verdict.not_passes_decides _ _)
    | passes done error =>
      have hpasses : (verdict a).Passes := by
        rw [hv]
        exact Verdict.passes_passes _ _
      rw [hv] at ha
      rw [tryEach, hv, List.pairwise_append, ih hrest]
      constructor
      · rintro ⟨-, hlater, hcross⟩ pre b mid c post hsplit hpass x hx y hy
        cases pre with
        | nil =>
          obtain ⟨rfl, rfl⟩ := List.cons.inj hsplit
          rw [hv] at hx
          exact hcross x hx y (mem_tryEach.mpr ⟨mid, c, post, rfl,
            fun d hd ↦ hpass d (List.mem_cons_of_mem _ hd), hy⟩)
        | cons d pre =>
          obtain ⟨rfl, rfl⟩ := List.cons.inj hsplit
          exact hlater pre b mid c post rfl (fun d hd ↦ hpass d (List.mem_cons_of_mem _ hd))
            x hx y hy
      · intro h
        refine ⟨ha, fun pre b mid c post hsplit hpass ↦ ?_, fun x hx y hy ↦ ?_⟩
        · refine h (a :: pre) b mid c post (by rw [hsplit]; rfl) ?_
          exact List.forall_mem_cons.mpr ⟨hpasses, hpass⟩
        · obtain ⟨mid, b, post, rfl, hmid, hy⟩ := mem_tryEach.mp hy
          refine h [] a mid b post rfl (List.forall_mem_cons.mpr ⟨hpasses, hmid⟩) x ?_ y hy
          rwa [hv]

end LiteHarness.Foundation
