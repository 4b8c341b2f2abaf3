import Mathlib.Logic.Relation
import Mathlib.Order.Basic
import Mathlib.Order.Lattice

/-!
# Leases with fencing tokens

A fenced lock is granted together with a token. A holder that lost the lock still has its lease
object, and the token is what tells it apart from the present holder. The lock may be renewed,
released, kept by its holder and granted anew; only a grant takes a new token.

Nothing is assumed of the clock: an expiry is a value that grants and renewals write, and the
results below hold for every order of the moves.
-/

namespace LiteHarness.Foundation

/-- The state of a fenced lock. -/
@[ext]
structure FencedCell (ω τ : Type*) where
  owner : Option ω
  token : ℕ
  expiry : Option τ

namespace FencedCell

variable {ω τ : Type*}

/-- The lock before its first grant. -/
def initial : FencedCell ω τ := ⟨none, 0, none⟩

/-- The lock has an expiry and the reading is before it. -/
def Live [LT τ] (c : FencedCell ω τ) (now : τ) : Prop := ∃ e ∈ c.expiry, now < e

/-- A lease object with this owner and token passes at the reading. -/
def Validates [LT τ] (c : FencedCell ω τ) (who : ω) (token : ℕ) (now : τ) : Prop :=
  c.owner = some who ∧ c.token = token ∧ c.Live now

/-- One move of the lock. -/
inductive Step : FencedCell ω τ → FencedCell ω τ → Prop
  | renew (c : FencedCell ω τ) (e : Option τ) : Step c { c with expiry := e }
  | release (c : FencedCell ω τ) : Step c ⟨none, c.token, none⟩
  | keep {c : FencedCell ω τ} {who : ω} (e : Option τ) (h : c.owner = some who) :
      Step c ⟨some who, c.token, e⟩
  | grant (c : FencedCell ω τ) (who : ω) (e : Option τ) : Step c ⟨some who, c.token + 1, e⟩

/-- Any number of moves. -/
abbrev Moves : FencedCell ω τ → FencedCell ω τ → Prop := Relation.ReflTransGen Step

theorem Step.token_le {c c' : FencedCell ω τ} (h : Step c c') : c.token ≤ c'.token := by
  cases h with
  | renew => exact le_rfl
  | release => exact le_rfl
  | keep => exact le_rfl
  | grant => exact Nat.le_succ _

/-- A move that takes no new token leaves the owner or frees the lock. -/
theorem Step.owner_of_token_eq {c c' : FencedCell ω τ} (h : Step c c')
    (ht : c'.token = c.token) : c'.owner = c.owner ∨ c'.owner = none := by
  cases h with
  | renew => exact Or.inl rfl
  | release => exact Or.inr rfl
  | keep _ h => exact Or.inl h.symm
  | grant => exact absurd ht (Nat.succ_ne_self _)

/-- The token never decreases. -/
theorem Moves.token_le {c c' : FencedCell ω τ} (h : Moves c c') : c.token ≤ c'.token := by
  induction h with
  | refl => exact le_rfl
  | tail _ hstep ih => exact ih.trans hstep.token_le

theorem Moves.owner_of_token_eq {c c' : FencedCell ω τ} (h : Moves c c')
    (ht : c'.token = c.token) : c'.owner = c.owner ∨ c'.owner = none := by
  induction h with
  | refl => exact Or.inl rfl
  | @tail d d' hmoves hstep ih =>
    have hd : d.token = c.token :=
      le_antisymm (ht ▸ hstep.token_le) (Moves.token_le hmoves)
    rcases hstep.owner_of_token_eq (ht.trans hd.symm) with h | h
    · rw [h]
      exact ih hd
    · exact Or.inr h

/-- **A new owner has a new token.** -/
theorem Moves.token_lt_of_owner {c c' : FencedCell ω τ} (h : Moves c c') {who : ω}
    (howner : c'.owner = some who) (hne : c.owner ≠ some who) : c.token < c'.token := by
  refine lt_of_le_of_ne h.token_le fun ht ↦ ?_
  rcases h.owner_of_token_eq ht.symm with h' | h'
  · exact hne (h'.symm.trans howner)
  · rw [howner] at h'
    exact absurd h' (Option.some_ne_none who)

/-- A lease object below the present token passes at no reading. -/
theorem not_validates_of_lt [LT τ] {c : FencedCell ω τ} {who : ω} {token : ℕ} {now : τ}
    (h : token < c.token) : ¬c.Validates who token now :=
  fun hv ↦ absurd hv.2.1 (ne_of_gt h)

/-- Two lease objects that pass are of the same owner and token. -/
theorem Validates.unique [LT τ] {c : FencedCell ω τ} {who who' : ω} {token token' : ℕ}
    {now now' : τ} (h : c.Validates who token now) (h' : c.Validates who' token' now') :
    who = who' ∧ token = token' :=
  ⟨Option.some.inj (h.1.symm.trans h'.1), h.2.1.symm.trans h'.2.1⟩

end FencedCell

end LiteHarness.Foundation
