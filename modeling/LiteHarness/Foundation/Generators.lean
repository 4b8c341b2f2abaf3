import Mathlib.Data.List.Basic

/-!
# Generators

What a generator that is read to its end has yielded, and the error it threw, if it did. Generators
are put one behind the other; one that throws hides what stands behind it.
-/

namespace LiteHarness.Foundation

universe v

/-- The items a generator yields, and the error it ends with. -/
structure Generated (α ε : Type*) where
  items : List α
  error : Option ε

namespace Generated

variable {α ε : Type*}

/-- Yield some items. -/
def yields (items : List α) : Generated α ε := ⟨items, none⟩

/-- Throw. -/
def throws (e : ε) : Generated α ε := ⟨[], some e⟩

/-- `yield*` one generator and then another. -/
def andThen (g h : Generated α ε) : Generated α ε :=
  match g.error with
  | none => ⟨g.items ++ h.items, h.error⟩
  | some e => ⟨g.items, some e⟩

@[simp] theorem yields_andThen (items : List α) (g : Generated α ε) :
    (yields items).andThen g = ⟨items ++ g.items, g.error⟩ := rfl

@[simp] theorem throws_andThen (e : ε) (g : Generated α ε) :
    (throws e).andThen g = throws e := rfl

theorem andThen_of_error {g : Generated α ε} {e : ε} (h : g.error = some e)
    (g' : Generated α ε) : g.andThen g' = g := by
  obtain ⟨items, error⟩ := g
  obtain rfl : error = some e := h
  rfl

theorem andThen_of_ok {g : Generated α ε} (h : g.error = none) (g' : Generated α ε) :
    g.andThen g' = ⟨g.items ++ g'.items, g'.error⟩ := by
  obtain ⟨items, error⟩ := g
  obtain rfl : error = none := h
  rfl

@[simp] theorem andThen_yields_nil (g : Generated α ε) : g.andThen (yields []) = g := by
  obtain ⟨items, _ | e⟩ := g
  · rw [andThen_of_ok rfl]
    exact congrArg (Generated.mk · none) (List.append_nil items)
  · rfl

theorem andThen_assoc (g h k : Generated α ε) :
    (g.andThen h).andThen k = g.andThen (h.andThen k) := by
  obtain ⟨items, _ | e⟩ := g
  · obtain ⟨items', _ | e'⟩ := h
    · rw [andThen_of_ok rfl, andThen_of_ok rfl, andThen_of_ok rfl, andThen_of_ok rfl,
        List.append_assoc]
    · rfl
  · rfl

/-- A generator that yields what a function makes of each item, and throws where it does. -/
def ofEach {β : Type*} (f : α → Except ε β) : List α → Generated β ε
  | [] => yields []
  | a :: as =>
    match f a with
    | .error e => throws e
    | .ok b => (yields [b]).andThen (ofEach f as)

theorem ofEach_append {β : Type*} (f : α → Except ε β) (as bs : List α) :
    ofEach f (as ++ bs) = (ofEach f as).andThen (ofEach f bs) := by
  induction as with
  | nil => rfl
  | cons a as ih =>
    rw [List.cons_append, ofEach, ofEach]
    rcases f a with e | b
    · rfl
    · dsimp only
      rw [ih, andThen_assoc]

/-- A generator each of whose items is taken further, as far as that goes. -/
def thenEach {β : Type*} (g : Generated α ε) (f : α → Except ε β) : Generated β ε :=
  (ofEach f g.items).andThen ⟨[], g.error⟩

theorem thenEach_ofEach {β γ : Type v} (f : α → Except ε β) (f' : β → Except ε γ) (as : List α) :
    (ofEach f as).thenEach f' = ofEach (fun a ↦ f a >>= f') as := by
  induction as with
  | nil => rfl
  | cons a as ih =>
    rw [ofEach, ofEach]
    rcases hf : f a with e | b
    · rfl
    · rw [thenEach] at ih
      change ((ofEach f' (b :: (ofEach f as).items)).andThen ⟨[], (ofEach f as).error⟩) = _
      rw [ofEach]
      have hbind : ((.ok b : Except ε β) >>= f') = f' b := rfl
      rw [hbind]
      rcases f' b with e | c
      · rfl
      · dsimp only
        rw [andThen_assoc, ih]

/-- Two generators that go alike over the same items. -/
theorem ofEach_congr_of {β : Type*} {f f' : α → Except ε β} (same : ε → ε → Prop) {as : List α}
    (h : ∀ a ∈ as, f a = f' a ∨ ∃ e e', f a = .error e ∧ f' a = .error e' ∧ same e e') :
    (ofEach f as).items = (ofEach f' as).items ∧
      ((ofEach f as).error = (ofEach f' as).error ∨
        ∃ e e', (ofEach f as).error = some e ∧ (ofEach f' as).error = some e' ∧ same e e') := by
  induction as with
  | nil => exact ⟨rfl, Or.inl rfl⟩
  | cons a as ih =>
    obtain ⟨ha, has⟩ := List.forall_mem_cons.mp h
    obtain ⟨hitems, herror⟩ := ih has
    rw [ofEach, ofEach]
    rcases ha with heq | ⟨e, e', he, he', hsame⟩
    · rw [heq]
      rcases f' a with e | b
      · exact ⟨rfl, Or.inl rfl⟩
      · exact ⟨congrArg (b :: ·) hitems, herror⟩
    · rw [he, he']
      exact ⟨rfl, Or.inr ⟨e, e', rfl, rfl, hsame⟩⟩

end Generated

end LiteHarness.Foundation
