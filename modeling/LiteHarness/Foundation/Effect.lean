import Mathlib.Logic.Relation
import Mathlib.Logic.Function.Basic
import Mathlib.Tactic.SplitIfs

/-!
# Computations with a state and exceptions

`Eff σ ε α` is a computation over a state `σ` that may throw an `ε`. A thrown exception keeps the
state reached so far, as in an imperative language; undoing the effects is what `transaction` adds.

Two kinds of rules are provided. The `run` equations evaluate a program at a given state. `Evolves`
says that a program moves the state along a relation wherever it stops, normally or not; it is
closed under every program construct, so a fact about single effects becomes a fact about every
program built from them.
-/

namespace LiteHarness.Foundation

universe u

/-- A stateful computation that may throw. -/
def Eff (σ ε α : Type u) : Type u := σ → Except ε α × σ

namespace Eff

variable {σ τ ε α β : Type u}

/-- The outcome and the final state. -/
def run (m : Eff σ ε α) (s : σ) : Except ε α × σ := m s

/-- Continue with the result, or pass the exception on. -/
def andThen (r : Except ε α × σ) (f : α → Eff σ ε β) : Except ε β × σ :=
  match r with
  | (.ok a, s) => (f a).run s
  | (.error e, s) => (.error e, s)

/-- Hand an exception to a handler, which starts in the state the exception left. -/
def orElse (r : Except ε α × σ) (handler : ε → Eff σ ε α) : Except ε α × σ :=
  match r with
  | (.ok a, s) => (.ok a, s)
  | (.error e, s) => (handler e).run s

instance : Monad (Eff σ ε) where
  pure a := fun s ↦ (.ok a, s)
  bind m f := fun s ↦ andThen (m.run s) f

instance : MonadExceptOf ε (Eff σ ε) where
  throw e := fun s ↦ (.error e, s)
  tryCatch m handler := fun s ↦ orElse (m.run s) handler

/-- Read the state. -/
def get : Eff σ ε σ := fun s ↦ (.ok s, s)

/-- Replace the state. -/
def modify (f : σ → σ) : Eff σ ε PUnit := fun s ↦ (.ok ⟨⟩, f s)

/-- Run a pure computation that may throw. -/
def fromExcept (x : Except ε α) : Eff σ ε α := fun s ↦ (x, s)

/-- Run a computation on a component of the state. -/
def zoom (view : σ → τ) (put : τ → σ → σ) (m : Eff τ ε α) : Eff σ ε α := fun s ↦
  let r := m.run (view s)
  (r.1, put r.2 s)

/-- Run a program for each element in turn; an exception ends the loop. -/
def forEach (f : β → Eff σ ε PUnit) : List β → Eff σ ε PUnit
  | [] => fun s ↦ (.ok ⟨⟩, s)
  | b :: bs => fun s ↦ andThen ((f b).run s) fun _ ↦ forEach f bs

/-- Undo the effects of a computation that throws. -/
def transaction (m : Eff σ ε α) : Eff σ ε α := fun s ↦
  match m.run s with
  | (.ok a, s') => (.ok a, s')
  | (.error e, _) => (.error e, s)

/-! ## Evaluation -/

@[simp] theorem andThen_ok (a : α) (s : σ) (f : α → Eff σ ε β) :
    andThen (.ok a, s) f = (f a).run s := rfl

@[simp] theorem andThen_error (e : ε) (s : σ) (f : α → Eff σ ε β) :
    andThen (.error e, s) f = (.error e, s) := rfl

@[simp] theorem orElse_ok (a : α) (s : σ) (handler : ε → Eff σ ε α) :
    orElse (.ok a, s) handler = (.ok a, s) := rfl

@[simp] theorem orElse_error (e : ε) (s : σ) (handler : ε → Eff σ ε α) :
    orElse (.error e, s) handler = (handler e).run s := rfl

@[simp] theorem run_pure (a : α) (s : σ) : (pure a : Eff σ ε α).run s = (.ok a, s) := rfl

@[simp] theorem run_bind (m : Eff σ ε α) (f : α → Eff σ ε β) (s : σ) :
    (m >>= f).run s = andThen (m.run s) f := rfl

/-- The state does not show that a result is forgotten. -/
theorem run_discard (m : Eff σ ε α) (s : σ) :
    ((do let _ ← m : Eff σ ε PUnit).run s).2 = (m.run s).2 := by
  change (andThen (m.run s) _).2 = _
  rcases m.run s with ⟨e | a, s'⟩ <;> rfl

@[simp] theorem run_throw (e : ε) (s : σ) : (throw e : Eff σ ε α).run s = (.error e, s) := rfl

@[simp] theorem run_tryCatch (m : Eff σ ε α) (handler : ε → Eff σ ε α) (s : σ) :
    (tryCatch m handler).run s = orElse (m.run s) handler := rfl

@[simp] theorem run_get (s : σ) : (get : Eff σ ε σ).run s = (.ok s, s) := rfl

@[simp] theorem run_modify (f : σ → σ) (s : σ) :
    (modify f : Eff σ ε PUnit).run s = (.ok ⟨⟩, f s) := rfl

@[simp] theorem run_fromExcept (x : Except ε α) (s : σ) :
    (fromExcept x : Eff σ ε α).run s = (x, s) := rfl

theorem run_bind_of_ok {m : Eff σ ε α} {f : α → Eff σ ε β} {s t : σ} {a : α}
    (h : m.run s = (.ok a, t)) : (m >>= f).run s = (f a).run t := by
  rw [run_bind, h, andThen_ok]

theorem run_get_bind (f : σ → Eff σ ε β) (s : σ) :
    ((get : Eff σ ε σ) >>= f).run s = (f s).run s := rfl

theorem run_modify_bind (g : σ → σ) (f : PUnit → Eff σ ε β) (s : σ) :
    ((modify g : Eff σ ε PUnit) >>= f).run s = (f ⟨⟩).run (g s) := rfl

/-- A read in front of a transaction's body may be taken at once. -/
theorem run_transaction_get_bind (f : σ → Eff σ ε α) (s : σ) :
    (transaction ((get : Eff σ ε σ) >>= f)).run s = (transaction (f s)).run s := rfl

theorem forEach_cons (f : β → Eff σ ε PUnit) (b : β) (bs : List β) :
    forEach f (b :: bs) = f b >>= fun _ ↦ forEach f bs := rfl

theorem run_zoom (view : σ → τ) (put : τ → σ → σ) (m : Eff τ ε α) (s : σ) :
    (zoom view put m).run s = ((m.run (view s)).1, put (m.run (view s)).2 s) := rfl

theorem run_ite {c : Prop} [Decidable c] (m m' : Eff σ ε α) (s : σ) :
    (if c then m else m').run s = if c then m.run s else m'.run s := by
  split_ifs <;> rfl

/-- A transaction that throws leaves the state as it was. -/
theorem transaction_error {m : Eff σ ε α} {s : σ} {e : ε}
    (h : ((transaction m).run s).1 = .error e) : ((transaction m).run s).2 = s := by
  simp only [transaction, run] at h ⊢
  split
  · rename_i heq
    rw [heq] at h
    exact absurd h (by simp)
  · rfl

theorem transaction_of_ok {m : Eff σ ε α} {s s' : σ} {a : α} (h : m.run s = (.ok a, s')) :
    (transaction m).run s = (.ok a, s') := by
  simp only [transaction, run] at h ⊢
  rw [h]

theorem transaction_of_error {m : Eff σ ε α} {s t : σ} {e : ε} (h : m.run s = (.error e, t)) :
    (transaction m).run s = (.error e, s) := by
  simp only [transaction, run] at h ⊢
  rw [h]

/-! ## Inverting a run

The rules that read a program backwards: what has to have happened for it to end as it did. -/

theorem bind_eq_ok_iff {m : Eff σ ε α} {f : α → Eff σ ε β} {s s' : σ} {b : β} :
    (m >>= f).run s = (.ok b, s') ↔
      ∃ a s₁, m.run s = (.ok a, s₁) ∧ (f a).run s₁ = (.ok b, s') := by
  rw [run_bind]
  rcases m.run s with ⟨e | a, s₁⟩ <;> simp [and_assoc]

theorem bind_eq_error_iff {m : Eff σ ε α} {f : α → Eff σ ε β} {s s' : σ} {e : ε} :
    (m >>= f).run s = (.error e, s') ↔ m.run s = (.error e, s') ∨
      ∃ a s₁, m.run s = (.ok a, s₁) ∧ (f a).run s₁ = (.error e, s') := by
  rw [run_bind]
  rcases m.run s with ⟨e | a, s₁⟩ <;> simp [and_assoc]

theorem pure_eq_ok_iff {a b : α} {s s' : σ} :
    (pure a : Eff σ ε α).run s = (.ok b, s') ↔ b = a ∧ s' = s := by
  rw [run_pure, Prod.mk.injEq, Except.ok.injEq, eq_comm, @eq_comm _ s]

theorem modify_eq_ok_iff {f : σ → σ} {s s' : σ} {u : PUnit} :
    (modify f : Eff σ ε PUnit).run s = (.ok u, s') ↔ s' = f s := by
  rw [run_modify, Prod.mk.injEq]
  exact ⟨fun h ↦ h.2.symm, fun h ↦ ⟨rfl, h.symm⟩⟩

theorem not_throw_eq_ok {e : ε} {s s' : σ} {a : α} :
    ¬(throw e : Eff σ ε α).run s = (.ok a, s') := by
  rw [run_throw]
  simp

theorem not_pure_eq_error {a : α} {s s' : σ} {e : ε} :
    ¬(pure a : Eff σ ε α).run s = (.error e, s') := by
  rw [run_pure]
  simp

theorem transaction_eq_ok_iff {m : Eff σ ε α} {s s' : σ} {a : α} :
    (transaction m).run s = (.ok a, s') ↔ m.run s = (.ok a, s') := by
  rcases hr : m.run s with ⟨e | b, s₁⟩
  · rw [transaction_of_error hr]
    simp
  · rw [transaction_of_ok hr]

/-! ## Atomic programs -/

/-- A program that throws only before it has changed anything, or after undoing it. -/
def Atomic (m : Eff σ ε α) : Prop := ∀ s e s', m.run s = (.error e, s') → s' = s

/-- A program that leaves the state alone. -/
def ReadOnly (m : Eff σ ε α) : Prop := ∀ s, (m.run s).2 = s

/-- A program that always returns. -/
def Returns (m : Eff σ ε α) : Prop := ∀ s, ∃ a s', m.run s = (.ok a, s')

theorem Atomic.transaction (m : Eff σ ε α) : Atomic (transaction m) := by
  intro s e s' h
  have h' := transaction_error (m := m) (s := s) (e := e) (by rw [h])
  rw [h] at h'
  exact h'

theorem ReadOnly.atomic {m : Eff σ ε α} (h : ReadOnly m) : Atomic m := by
  intro s e s' hrun
  have h' := h s
  rw [hrun] at h'
  exact h'

theorem Returns.atomic {m : Eff σ ε α} (h : Returns m) : Atomic m := by
  intro s e s' hrun
  obtain ⟨a, s₁, hok⟩ := h s
  rw [hok] at hrun
  exact absurd (congrArg Prod.fst hrun) (by simp)

theorem ReadOnly.get : ReadOnly (get : Eff σ ε σ) := fun _ ↦ rfl

theorem Returns.pure (a : α) : Returns (pure a : Eff σ ε α) := fun s ↦ ⟨a, s, rfl⟩

theorem Returns.modify (f : σ → σ) : Returns (modify f : Eff σ ε PUnit) := fun s ↦ ⟨_, f s, rfl⟩

theorem Returns.bind {m : Eff σ ε α} {f : α → Eff σ ε β} (hm : Returns m)
    (hf : ∀ a, Returns (f a)) : Returns (m >>= f) := by
  intro s
  obtain ⟨a, s₁, h⟩ := hm s
  obtain ⟨b, s₂, h'⟩ := hf a s₁
  exact ⟨b, s₂, bind_eq_ok_iff.mpr ⟨a, s₁, h, h'⟩⟩

theorem Returns.tryCatch {m : Eff σ ε α} {handler : ε → Eff σ ε α}
    (hh : ∀ e, Returns (handler e)) : Returns (tryCatch m handler) := by
  intro s
  rw [run_tryCatch]
  rcases m.run s with ⟨e | a, s'⟩
  · exact hh e s'
  · exact ⟨a, s', rfl⟩

theorem Returns.forEach {f : β → Eff σ ε PUnit} {bs : List β} (hf : ∀ b, Returns (f b)) :
    Returns (forEach f bs) := by
  induction bs with
  | nil => exact Returns.pure _
  | cons b bs ih => exact (hf b).bind fun _ ↦ ih

/-- Reading first keeps a program atomic. -/
theorem ReadOnly.bind_atomic {m : Eff σ ε α} {f : α → Eff σ ε β} (hm : ReadOnly m)
    (hf : ∀ a, Atomic (f a)) : Atomic (m >>= f) := by
  intro s e s' h
  rcases bind_eq_error_iff.mp h with h | ⟨a, s₁, h₁, h₂⟩
  · exact hm.atomic s e s' h
  · have hs := hm s
    rw [h₁] at hs
    obtain rfl : s₁ = s := hs
    exact hf a s₁ e s' h₂

/-- Returning afterwards keeps a program atomic. -/
theorem Atomic.bind_returns {m : Eff σ ε α} {f : α → Eff σ ε β} (hm : Atomic m)
    (hf : ∀ a, Returns (f a)) : Atomic (m >>= f) := by
  intro s e s' h
  rcases bind_eq_error_iff.mp h with h | ⟨a, s₁, -, h₂⟩
  · exact hm s e s' h
  · obtain ⟨b, s₂, hok⟩ := hf a s₁
    rw [hok] at h₂
    exact absurd (congrArg Prod.fst h₂) (by simp)

/-! ## The exceptions of a program -/

/-- Whatever the program throws satisfies `p`. -/
def Throws (p : ε → Prop) (m : Eff σ ε α) : Prop := ∀ s e s', m.run s = (.error e, s') → p e

section Throws

variable {p : ε → Prop}

theorem Throws.throw {e : ε} (h : p e) : Throws p (throw e : Eff σ ε α) := by
  rintro s e' s' heq
  obtain ⟨heq, -⟩ := Prod.mk.inj heq
  exact Except.error.inj heq ▸ h

theorem Returns.throws {m : Eff σ ε α} (h : Returns m) : Throws p m := by
  intro s e s' hrun
  obtain ⟨a, s₁, hok⟩ := h s
  rw [hok] at hrun
  exact absurd (congrArg Prod.fst hrun) (by simp)

theorem Throws.bind {m : Eff σ ε α} {f : α → Eff σ ε β} (hm : Throws p m)
    (hf : ∀ a, Throws p (f a)) : Throws p (m >>= f) := by
  intro s e s' h
  rcases bind_eq_error_iff.mp h with h | ⟨a, s₁, -, h⟩
  · exact hm s e s' h
  · exact hf a s₁ e s' h

theorem Throws.gets {f : σ → Eff σ ε α} (hf : ∀ t, Throws p (f t)) :
    Throws p (Eff.get >>= f) := fun s ↦ hf s s

theorem Throws.ite {c : Prop} [Decidable c] {m m' : Eff σ ε α} (hm : Throws p m)
    (hm' : Throws p m') : Throws p (if c then m else m') := by
  split_ifs
  · exact hm
  · exact hm'

theorem Throws.transaction {m : Eff σ ε α} (hm : Throws p m) : Throws p (transaction m) := by
  intro s e s' h
  rcases hr : m.run s with ⟨e' | a, s₁⟩
  · rw [transaction_of_error hr] at h
    obtain rfl := Except.error.inj (Prod.mk.inj h).1
    exact hm s e' s₁ hr
  · rw [transaction_of_ok hr] at h
    exact absurd (congrArg Prod.fst h) (by simp)

end Throws

/-! ## The result of a program -/

/-- Whatever the program returns satisfies `p`. -/
def Yields (p : α → Prop) (m : Eff σ ε α) : Prop := ∀ s a s', m.run s = (.ok a, s') → p a

section Yields

variable {p : α → Prop}

theorem Yields.pure {a : α} (h : p a) : Yields p (pure a : Eff σ ε α) := by
  intro s a' s' hrun
  rwa [(pure_eq_ok_iff.mp hrun).1]

theorem Yields.throw {e : ε} : Yields p (throw e : Eff σ ε α) :=
  fun _ _ _ hrun ↦ absurd hrun not_throw_eq_ok

/-- The last part of a program decides. -/
theorem Yields.bind {m : Eff σ ε β} {f : β → Eff σ ε α} (hf : ∀ b, Yields p (f b)) :
    Yields p (m >>= f) := by
  intro s a s' hrun
  obtain ⟨b, s₁, -, h⟩ := bind_eq_ok_iff.mp hrun
  exact hf b s₁ a s' h

/-- The last part may use what the first one yields. -/
theorem Yields.bind_of {q : β → Prop} {m : Eff σ ε β} {f : β → Eff σ ε α} (hm : Yields q m)
    (hf : ∀ b, q b → Yields p (f b)) : Yields p (m >>= f) := by
  intro s a s' hrun
  obtain ⟨b, s₁, h₁, h₂⟩ := bind_eq_ok_iff.mp hrun
  exact hf b (hm s b s₁ h₁) s₁ a s' h₂

theorem Yields.gets {f : σ → Eff σ ε α} (hf : ∀ t, Yields p (f t)) : Yields p (Eff.get >>= f) :=
  fun s ↦ hf s s

theorem Yields.ite {c : Prop} [Decidable c] {m m' : Eff σ ε α} (hm : c → Yields p m)
    (hm' : ¬c → Yields p m') : Yields p (if c then m else m') := by
  split_ifs with h
  · exact hm h
  · exact hm' h

end Yields

/-! ## Moving along a relation -/

/-- Wherever the program stops, it has moved the state along `R`. -/
def Evolves (R : σ → σ → Prop) (m : Eff σ ε α) : Prop := ∀ s, R s (m.run s).2

section Evolves

variable {R : σ → σ → Prop}

theorem Evolves.pure (hrefl : ∀ s, R s s) (a : α) : Evolves R (pure a : Eff σ ε α) := hrefl

theorem Evolves.throw (hrefl : ∀ s, R s s) (e : ε) : Evolves R (throw e : Eff σ ε α) := hrefl

theorem Evolves.fromExcept (hrefl : ∀ s, R s s) (x : Except ε α) :
    Evolves R (fromExcept x : Eff σ ε α) := hrefl

theorem Evolves.modify {f : σ → σ} (hf : ∀ s, R s (f s)) :
    Evolves R (modify f : Eff σ ε PUnit) := hf

/-- The first part of a program moves from a given state, the rest from any. -/
theorem Evolves.bind_at (htrans : ∀ s t w, R s t → R t w → R s w) {m : Eff σ ε α}
    {f : α → Eff σ ε β} {s : σ} (hm : R s (m.run s).2) (hf : ∀ a, Evolves R (f a)) :
    R s ((m >>= f).run s).2 := by
  rw [run_bind]
  rcases hr : m.run s with ⟨e | a, s'⟩
  · rw [hr] at hm
    exact hm
  · rw [hr] at hm
    exact htrans _ _ _ hm (hf a s')

theorem Evolves.bind (htrans : ∀ s t w, R s t → R t w → R s w) {m : Eff σ ε α}
    {f : α → Eff σ ε β} (hm : Evolves R m) (hf : ∀ a, Evolves R (f a)) : Evolves R (m >>= f) :=
  fun s ↦ bind_at htrans (hm s) hf

theorem Evolves.tryCatch (htrans : ∀ s t w, R s t → R t w → R s w) {m : Eff σ ε α}
    {handler : ε → Eff σ ε α} (hm : Evolves R m) (hh : ∀ e, Evolves R (handler e)) :
    Evolves R (tryCatch m handler) := by
  intro s
  have h := hm s
  rw [run_tryCatch]
  rcases hr : m.run s with ⟨e | a, s'⟩
  · rw [hr] at h
    exact htrans _ _ _ h (hh e s')
  · rw [hr] at h
    exact h

theorem Evolves.ite {c : Prop} [Decidable c] {m m' : Eff σ ε α} (hm : Evolves R m)
    (hm' : Evolves R m') : Evolves R (if c then m else m') := by
  split_ifs
  · exact hm
  · exact hm'

theorem Evolves.forEach (hrefl : ∀ s, R s s) (htrans : ∀ s t w, R s t → R t w → R s w)
    {f : β → Eff σ ε PUnit} {bs : List β} (hf : ∀ b ∈ bs, Evolves R (f b)) :
    Evolves R (forEach f bs) := by
  induction bs with
  | nil => exact Evolves.pure hrefl _
  | cons b bs ih =>
    rw [forEach_cons]
    exact Evolves.bind htrans (hf b List.mem_cons_self) fun _ ↦
      ih fun c hc ↦ hf c (List.mem_cons_of_mem _ hc)

theorem Evolves.gets {f : σ → Eff σ ε α} (hf : ∀ t, Evolves R (f t)) :
    Evolves R (Eff.get >>= f) := fun s ↦ hf s s

theorem Evolves.mono {R' : σ → σ → Prop} (h : ∀ s t, R s t → R' s t) {m : Eff σ ε α}
    (hm : Evolves R m) : Evolves R' m := fun s ↦ h _ _ (hm s)

end Evolves

/-! ## Pre- and postconditions -/

/-- Started in a state satisfying `p`, the program ends with an outcome and a state satisfying
`q`. -/
def Triple (p : σ → Prop) (m : Eff σ ε α) (q : Except ε α → σ → Prop) : Prop :=
  ∀ s, p s → q (m.run s).1 (m.run s).2

section Triple

variable {p : σ → Prop} {q : Except ε α → σ → Prop}

theorem Triple.pure {a : α} (h : ∀ s, p s → q (.ok a) s) : Triple p (pure a) q := h

theorem Triple.throw {e : ε} (h : ∀ s, p s → q (.error e) s) : Triple p (throw e) q := h

theorem Triple.modify {q : Except ε PUnit → σ → Prop} {f : σ → σ}
    (h : ∀ s, p s → q (.ok ⟨⟩) (f s)) : Triple p (modify f) q := h

/-- What the program continues with may use the state it reads. -/
theorem Triple.gets {f : σ → Eff σ ε α} (hf : ∀ t, p t → Triple (fun s ↦ s = t) (f t) q) :
    Triple p (Eff.get >>= f) q := fun s hs ↦ hf s hs s rfl

theorem Triple.bind {β : Type u} {m : Eff σ ε β} {f : β → Eff σ ε α}
    {r : Except ε β → σ → Prop} (hm : Triple p m r) (hf : ∀ b, Triple (r (.ok b)) (f b) q)
    (he : ∀ e s, r (.error e) s → q (.error e) s) : Triple p (m >>= f) q := by
  intro s hs
  have h := hm s hs
  rw [run_bind]
  rcases hr : m.run s with ⟨e | b, s'⟩
  · rw [hr] at h
    exact he e s' h
  · rw [hr] at h
    exact hf b s' h

theorem Triple.tryCatch {m : Eff σ ε α} {handler : ε → Eff σ ε α} {r : Except ε α → σ → Prop}
    (hm : Triple p m r) (hok : ∀ a s, r (.ok a) s → q (.ok a) s)
    (hh : ∀ e, Triple (r (.error e)) (handler e) q) : Triple p (tryCatch m handler) q := by
  intro s hs
  have h := hm s hs
  rw [run_tryCatch]
  rcases hr : m.run s with ⟨e | a, s'⟩
  · rw [hr] at h
    exact hh e s' h
  · rw [hr] at h
    exact hok a s' h

theorem Triple.ite {c : Prop} [Decidable c] {m m' : Eff σ ε α} (hm : c → Triple p m q)
    (hm' : ¬c → Triple p m' q) : Triple p (if c then m else m') q := by
  split_ifs with h
  · exact hm h
  · exact hm' h

theorem Triple.weaken {p' : σ → Prop} {q' : Except ε α → σ → Prop} {m : Eff σ ε α}
    (h : Triple p' m q') (hp : ∀ s, p s → p' s) (hq : ∀ r s, q' r s → q r s) : Triple p m q :=
  fun s hs ↦ hq _ _ (h s (hp s hs))

/-- A program is checked for one state at a time. -/
theorem Triple.of_eq {m : Eff σ ε α} (h : ∀ s, p s → Triple (fun t ↦ t = s) m q) : Triple p m q :=
  fun s hs ↦ h s hs s rfl

/-- A part of the precondition that is not about the state. -/
theorem Triple.given {P : Prop} {m : Eff σ ε α} (h : P → Triple p m q) :
    Triple (fun s ↦ p s ∧ P) m q := fun s hs ↦ h hs.2 s hs.1

/-- A program on a component of the state. -/
theorem Triple.zoom {view : σ → τ} {put : τ → σ → σ} {p' : τ → Prop} {q' : Except ε α → τ → Prop}
    {m : Eff τ ε α} (hm : Triple p' m q') (hp : ∀ s, p s → p' (view s))
    (hq : ∀ r s t, p s → q' r t → q r (put t s)) : Triple p (Eff.zoom view put m) q :=
  fun s hs ↦ hq _ s _ hs (hm (view s) (hp s hs))

/-- The postcondition of partial correctness. -/
def Returning (q : α → σ → Prop) : Except ε α → σ → Prop
  | .ok a, s => q a s
  | .error _, _ => True

theorem Returning.of_true {m : Eff σ ε α} : Triple p m (Returning fun _ _ ↦ True) := by
  intro s _
  cases (m.run s).1 <;> trivial

theorem Returning.bind {β : Type u} {q : β → σ → Prop} {q' : α → σ → Prop} {m : Eff σ ε β}
    {f : β → Eff σ ε α} (hm : Triple p m (Returning q))
    (hf : ∀ b, Triple (q b) (f b) (Returning q')) : Triple p (m >>= f) (Returning q') :=
  Triple.bind hm hf fun _ _ _ ↦ trivial

end Triple

end Eff

end LiteHarness.Foundation
