import LiteHarness.Platform.JsString
import Mathlib.Algebra.Order.Ring.Rat
import Mathlib.Data.List.Lex
import Mathlib.Data.List.Perm.Basic
import Mathlib.Data.List.Sort

/-!
# JavaScript values

The values a tool call's arguments can hold at run time. JSON values are singled out by `IsJson`:
no `undefined`, no non-finite number, no function, symbol or big integer, and object keys that do
not repeat. `SameJson` is equality up to the order of object keys, with `-0` and `0` identified.

Finite numbers are the rationals they denote. What `JSON.stringify` prints for one is the
platform's; `NumberLiterals` carries what the program relies on.
-/

namespace LiteHarness

/-! ## Numbers -/

/-- A JavaScript number. -/
inductive JsNumber where
  /-- A finite number other than `-0`. -/
  | finite (value : ℚ)
  | negativeZero
  /-- `NaN` or an infinity. -/
  | nonFinite
  deriving DecidableEq

/-- The number a finite JavaScript number denotes. -/
def JsNumber.rat? : JsNumber → Option ℚ
  | .finite q => some q
  | .negativeZero => some 0
  | .nonFinite => none

/-- The code units of decimal number literals: digits, signs, the point and the exponent mark. -/
def isNumberUnit (u : UInt16) : Bool :=
  (48 ≤ u.toNat && u.toNat ≤ 57) || u == 43 || u == 45 || u == 46 || u == 101

/-- `JSON.stringify` on finite numbers: injective, and written in the alphabet of decimal literals,
so that a literal ends where a comma or a bracket starts. -/
structure NumberLiterals where
  /-- The literal. -/
  literal : ℚ → JsString
  /-- Different numbers have different literals. -/
  literal_injective : Function.Injective literal
  /-- A literal is not empty. -/
  literal_ne_nil : ∀ q, literal q ≠ []
  /-- A literal has digits, signs, points and exponent marks only. -/
  literal_unit : ∀ q, ∀ u ∈ literal q, isNumberUnit u = true

/-! ## Values -/

/-- A JavaScript value. An object is its own enumerable string keys in insertion order. -/
inductive JsValue where
  | undefined
  | null
  | bool (b : Bool)
  | number (n : JsNumber)
  | string (s : JsString)
  | array (items : List JsValue)
  | object (fields : List (JsString × JsValue))
  /-- A function, a symbol or a big integer. -/
  | other

namespace JsValue

mutual

/-- The value is a JSON value. -/
def IsJson : JsValue → Prop
  | .null => True
  | .bool _ => True
  | .number n => n ≠ .nonFinite
  | .string _ => True
  | .array items => ItemsAreJson items
  | .object fields => (fields.map Prod.fst).Nodup ∧ FieldsAreJson fields
  | .undefined => False
  | .other => False

def ItemsAreJson : List JsValue → Prop
  | [] => True
  | v :: vs => IsJson v ∧ ItemsAreJson vs

def FieldsAreJson : List (JsString × JsValue) → Prop
  | [] => True
  | (_, v) :: fs => IsJson v ∧ FieldsAreJson fs

end

theorem itemsAreJson_iff {vs : List JsValue} : ItemsAreJson vs ↔ ∀ v ∈ vs, IsJson v := by
  induction vs with
  | nil => simp [ItemsAreJson]
  | cons v vs ih => simp [ItemsAreJson, ih]

theorem fieldsAreJson_iff {fs : List (JsString × JsValue)} :
    FieldsAreJson fs ↔ ∀ f ∈ fs, IsJson f.2 := by
  induction fs with
  | nil => simp [FieldsAreJson]
  | cons f fs ih => simp [FieldsAreJson, ih]

end JsValue

/-- A JSON value. -/
abbrev JsonValue := {v : JsValue // v.IsJson}

/-- A JSON object, as the fields of an argument record. -/
abbrev JsonObject := {fs : List (JsString × JsValue) // (JsValue.object fs).IsJson}

/-! ## Equality up to key order -/

mutual

/-- The same JSON value up to the order of object keys. -/
inductive SameJson : JsValue → JsValue → Prop
  | null : SameJson .null .null
  | bool (b : Bool) : SameJson (.bool b) (.bool b)
  | number {m n : JsNumber} (h : m.rat? = n.rat?) : SameJson (.number m) (.number n)
  | string (s : JsString) : SameJson (.string s) (.string s)
  | array {xs ys : List JsValue} (h : SameItems xs ys) : SameJson (.array xs) (.array ys)
  | object {fs gs hs : List (JsString × JsValue)} (h : SameFields fs hs) (hperm : hs.Perm gs) :
      SameJson (.object fs) (.object gs)

inductive SameItems : List JsValue → List JsValue → Prop
  | nil : SameItems [] []
  | cons {x y : JsValue} {xs ys : List JsValue} (h : SameJson x y) (hs : SameItems xs ys) :
      SameItems (x :: xs) (y :: ys)

inductive SameFields : List (JsString × JsValue) → List (JsString × JsValue) → Prop
  | nil : SameFields [] []
  | cons {k : JsString} {x y : JsValue} {fs gs : List (JsString × JsValue)} (h : SameJson x y)
      (hs : SameFields fs gs) : SameFields ((k, x) :: fs) ((k, y) :: gs)

end

theorem sameItems_of_forall₂ {xs ys : List JsValue} (h : List.Forall₂ SameJson xs ys) :
    SameItems xs ys := by
  induction h with
  | nil => exact .nil
  | cons h _ ih => exact .cons h ih

/-- Two fields with one key and the same value. -/
def SameField (f g : JsString × JsValue) : Prop := f.1 = g.1 ∧ SameJson f.2 g.2

theorem sameFields_of_forall₂ {fs gs : List (JsString × JsValue)}
    (h : List.Forall₂ SameField fs gs) : SameFields fs gs := by
  induction h with
  | nil => exact .nil
  | @cons f g fs gs h _ ih =>
    obtain ⟨k, x⟩ := f
    obtain ⟨k', y⟩ := g
    obtain ⟨rfl, hxy⟩ := h
    exact .cons hxy ih

/-! ## Sorting by key

`Array.prototype.sort` without a comparison function orders strings by their code units. -/

/-- The default string order. -/
def keyLe (a b : JsString) : Prop := a.map UInt16.toNat ≤ b.map UInt16.toNat

instance : DecidableRel keyLe := fun _ _ ↦ inferInstanceAs (Decidable (_ ≤ _))

theorem keyLe_total (a b : JsString) : (keyLe a b : Bool) || keyLe b a := by
  rw [Bool.or_eq_true, decide_eq_true_iff, decide_eq_true_iff]
  exact le_total (a.map UInt16.toNat) (b.map UInt16.toNat)

theorem keyLe_trans (a b c : JsString) (hab : (keyLe a b : Bool)) (hbc : (keyLe b c : Bool)) :
    (keyLe a c : Bool) := by
  rw [decide_eq_true_iff] at hab hbc ⊢
  exact le_trans (b := b.map UInt16.toNat) hab hbc

theorem keyLe_antisymm {a b : JsString} (hab : keyLe a b) (hba : keyLe b a) : a = b :=
  List.map_injective_iff.mpr (fun _ _ h ↦ UInt16.toNat_inj.mp h) (le_antisymm hab hba)

section SortByKey

variable {γ δ : Type}

/-- The order of two fields by their keys. -/
def fieldLe (f g : JsString × γ) : Prop := keyLe f.1 g.1

instance : DecidableRel (fieldLe (γ := γ)) := fun _ _ ↦ inferInstanceAs (Decidable (keyLe _ _))

instance : Std.Total (fieldLe (γ := γ)) :=
  ⟨fun f g ↦ le_total (f.1.map UInt16.toNat) (g.1.map UInt16.toNat)⟩

instance : IsTrans (JsString × γ) fieldLe := ⟨fun _ _ _ h₁ h₂ ↦ le_trans (α := List ℕ) h₁ h₂⟩

/-- The fields in the order of their sorted keys. -/
def sortByKey (fs : List (JsString × γ)) : List (JsString × γ) := fs.insertionSort fieldLe

theorem sortByKey_perm (fs : List (JsString × γ)) : (sortByKey fs).Perm fs :=
  List.perm_insertionSort _ _

/-- Rendering fields and sorting them commute: a rendered field keeps its key. -/
theorem sortByKey_map (g : JsString × γ → JsString × δ) (hg : ∀ f, (g f).1 = f.1)
    (fs : List (JsString × γ)) : sortByKey (fs.map g) = (sortByKey fs).map g := by
  refine (List.map_insertionSort fieldLe fieldLe g fs fun a _ b _ ↦ ?_).symm
  rw [fieldLe, fieldLe, hg, hg]

/-- The order of the keys of an object does not survive sorting. -/
theorem sortByKey_eq_of_perm {fs gs : List (JsString × γ)} (hperm : fs.Perm gs)
    (hnodup : (fs.map Prod.fst).Nodup) : sortByKey fs = sortByKey gs := by
  have hsorted : ∀ hs : List (JsString × γ), (sortByKey hs).Pairwise fieldLe :=
    List.pairwise_insertionSort fieldLe
  refine List.Perm.eq_of_pairwise ?_ (hsorted fs) (hsorted gs)
    ((sortByKey_perm fs).trans (hperm.trans (sortByKey_perm gs).symm))
  intro f g hf hg hfg hgf
  have hkey : f.1 = g.1 := keyLe_antisymm hfg hgf
  have hf' : f ∈ fs := (sortByKey_perm fs).mem_iff.mp hf
  have hg' : g ∈ fs := hperm.mem_iff.mpr ((sortByKey_perm gs).mem_iff.mp hg)
  exact List.inj_on_of_nodup_map hnodup hf' hg' hkey

end SortByKey

end LiteHarness
