import LiteHarness.ControlPlane.CanonicalJson
import LiteHarness.Storage.EventText

/-!
# JSON texts are read back

`JSON.stringify` keeps the order of the keys it is given, so that its text determines the value, and
not only the value up to the order of keys as the canonical serializer's does. The values are plain
ones: no `undefined`, no number that is not finite, and no `-0`, which is written as `0`.
-/

namespace LiteHarness

open Foundation

namespace JsValue

mutual

/-- The value is written as it is. -/
def IsPlain : JsValue → Prop
  | .null => True
  | .bool _ => True
  | .number n => ∃ q, n = .finite q
  | .string _ => True
  | .array items => ItemsArePlain items
  | .object fields => FieldsArePlain fields
  | .undefined => False
  | .other => False

def ItemsArePlain : List JsValue → Prop
  | [] => True
  | v :: vs => IsPlain v ∧ ItemsArePlain vs

def FieldsArePlain : List (JsString × JsValue) → Prop
  | [] => True
  | (_, v) :: fs => IsPlain v ∧ FieldsArePlain fs

end

theorem itemsArePlain_iff {vs : List JsValue} : ItemsArePlain vs ↔ ∀ v ∈ vs, IsPlain v := by
  induction vs with
  | nil => simp [ItemsArePlain]
  | cons v vs ih => simp [ItemsArePlain, ih]

theorem fieldsArePlain_iff {fs : List (JsString × JsValue)} :
    FieldsArePlain fs ↔ ∀ f ∈ fs, IsPlain f.2 := by
  induction fs with
  | nil => simp [FieldsArePlain]
  | cons f fs ih => simp [FieldsArePlain, ih]

end JsValue

namespace NumberLiterals

variable (N : NumberLiterals)

/-- The text of a value that is written. -/
def text (v : JsValue) : JsString := (N.stringify? v).getD []

/-- The text of a field. -/
def textField (f : JsString × JsValue) : JsString := stringLiteral f.1 ++ colon :: N.text f.2

theorem stringify?_eq : ∀ {v : JsValue}, v.IsPlain → N.stringify? v = some (N.text v)
  | .null, _ => rfl
  | .bool _, _ => rfl
  | .number _, _ => rfl
  | .string _, _ => rfl
  | .array _, _ => by rw [text, stringify?, Option.getD_some]
  | .object _, _ => by rw [text, stringify?, Option.getD_some]
  | .undefined, h => h.elim
  | .other, h => h.elim

theorem stringifyItems_eq {vs : List JsValue} (h : ∀ v ∈ vs, v.IsPlain) :
    N.stringifyItems vs = vs.map N.text := by
  induction vs with
  | nil => rfl
  | cons v vs ih =>
    rw [stringifyItems, N.stringify?_eq (h v List.mem_cons_self),
      ih fun w hw ↦ h w (List.mem_cons_of_mem _ hw)]
    rfl

theorem stringifyFields_eq {fs : List (JsString × JsValue)} (h : ∀ f ∈ fs, f.2.IsPlain) :
    N.stringifyFields fs = fs.map N.textField := by
  induction fs with
  | nil => rfl
  | cons f fs ih =>
    obtain ⟨k, v⟩ := f
    rw [stringifyFields, N.stringify?_eq (h (k, v) List.mem_cons_self),
      ih fun g hg ↦ h g (List.mem_cons_of_mem _ hg)]
    rfl

theorem text_array {vs : List JsValue} (h : ∀ v ∈ vs, v.IsPlain) :
    N.text (.array vs) = openBracket :: closedList comma closeBracket (vs.map N.text) := by
  rw [text, stringify?, Option.getD_some, N.stringifyItems_eq h]

theorem text_object {fs : List (JsString × JsValue)} (h : ∀ f ∈ fs, f.2.IsPlain) :
    N.text (.object fs) = openBrace :: closedList comma closeBrace (fs.map N.textField) := by
  rw [text, stringify?, Option.getD_some, N.stringifyFields_eq h]

/-! ## Reading a text back -/

theorem text_lead {v : JsValue} (h : v.IsPlain) :
    ∃ u w, N.text v = u :: w ∧ leadKind u = kind v := by
  rcases v with _ | _ | (_ | _) | n | s | items | fields | _
  · exact h.elim
  · exact ⟨110, js "ull", by rw [text, stringify?]; decide, by decide⟩
  · exact ⟨102, js "alse", by rw [text, stringify?]; decide, by decide⟩
  · exact ⟨116, js "rue", by rw [text, stringify?]; decide, by decide⟩
  · obtain ⟨q, rfl⟩ := h
    obtain ⟨u, w, hw⟩ := List.exists_cons_of_ne_nil (N.literal_ne_nil q)
    refine ⟨u, w, hw, leadKind_of_isNumberUnit ?_⟩
    exact N.literal_unit q u (by rw [hw]; exact List.mem_cons_self)
  · exact ⟨quote, _, rfl, rfl⟩
  · exact ⟨openBracket, _, by rw [text, stringify?, Option.getD_some], rfl⟩
  · exact ⟨openBrace, _, by rw [text, stringify?, Option.getD_some], rfl⟩
  · exact h.elim

theorem kind_eq_of_text_eq {v w : JsValue} (hv : v.IsPlain) (hw : w.IsPlain) {s t : JsString}
    (h : N.text v ++ s = N.text w ++ t) : kind v = kind w := by
  obtain ⟨u, x, hx, hu⟩ := N.text_lead hv
  obtain ⟨u', x', hx', hu'⟩ := N.text_lead hw
  rw [hx, hx', List.cons_append, List.cons_append, List.cons.injEq] at h
  rw [← hu, ← hu', h.1]

/-- The text of the value can be read off the front of a longer one. -/
abbrev Legible (v : JsValue) : Prop := DelimitedAt ValueEnd JsValue.IsPlain (· = ·) N.text v

theorem legible_number (q : ℚ) : N.Legible (.number (.finite q)) := by
  intro y hy s t hs ht heq
  have hkind := N.kind_eq_of_text_eq (v := .number (.finite q)) ⟨q, rfl⟩ hy heq
  rcases y with _ | _ | (_ | _) | m | _ | _ | _ | _ <;> simp only [kind, reduceCtorEq] at hkind
  obtain ⟨q', rfl⟩ := hy
  obtain ⟨hlit, hrest⟩ := append_eq_append_of_free
    (fun u hu ↦ not_valueEnd_of_isNumberUnit (N.literal_unit q u hu))
    (fun u hu ↦ not_valueEnd_of_isNumberUnit (N.literal_unit q' u hu)) hs ht heq
  exact ⟨by rw [N.literal_injective hlit], hrest⟩

theorem legible_string (x : JsString) : N.Legible (.string x) := by
  intro y hy s t hs ht heq
  have hkind := N.kind_eq_of_text_eq (v := .string x) trivial hy heq
  rcases y with _ | _ | (_ | _) | _ | x' | _ | _ | _ <;> simp only [kind, reduceCtorEq] at hkind
  obtain ⟨rfl, hrest⟩ := stringLiteral_delimited ValueEnd (fun _ ↦ True) x x' trivial s t hs ht heq
  exact ⟨rfl, hrest⟩

theorem legible_bool (b : Bool) : N.Legible (.bool b) := by
  intro y hy s t _ _ heq
  have hkind := N.kind_eq_of_text_eq (v := .bool b) trivial hy heq
  rcases b <;> rcases y with _ | _ | (_ | _) | _ | _ | _ | _ | _ <;>
    simp only [kind, reduceCtorEq] at hkind
  all_goals exact ⟨rfl, List.append_cancel_left heq⟩

theorem legible_null : N.Legible .null := by
  intro y hy s t _ _ heq
  have hkind := N.kind_eq_of_text_eq (v := .null) trivial hy heq
  rcases y with _ | _ | (_ | _) | _ | _ | _ | _ | _ <;> simp only [kind, reduceCtorEq] at hkind
  exact ⟨rfl, List.append_cancel_left heq⟩

/-- A text never starts with a closing bracket. -/
theorem text_head_ne {v : JsValue} (h : v.IsPlain) {c : UInt16} (hc : leadKind c = .none) :
    ∃ u w, N.text v = u :: w ∧ u ≠ c := by
  obtain ⟨u, w, hw, hu⟩ := N.text_lead h
  refine ⟨u, w, hw, ?_⟩
  rintro rfl
  rw [hc] at hu
  rcases v with _ | _ | (_ | _) | _ | _ | _ | _ | _ <;> simp only [kind, reduceCtorEq] at hu <;>
    exact h.elim

/-- Arrays, from their elements. -/
theorem legible_array {vs : List JsValue} (hvs : ∀ v ∈ vs, v.IsPlain ∧ N.Legible v) :
    N.Legible (.array vs) := by
  intro y hy s t _ _ heq
  have hplain : ∀ v ∈ vs, v.IsPlain := fun v hv ↦ (hvs v hv).1
  have hkind := N.kind_eq_of_text_eq (v := .array vs) (JsValue.itemsArePlain_iff.mpr hplain) hy heq
  rcases y with _ | _ | (_ | _) | _ | _ | ws | _ | _ <;> simp only [kind, reduceCtorEq] at hkind
  have hws := JsValue.itemsArePlain_iff.mp hy
  simp only [N.text_array hplain, N.text_array hws, List.cons_append, List.cons.injEq,
    true_and] at heq
  obtain ⟨hitems, hrest⟩ := closedList_delimited (D := ValueEnd) (Or.inl rfl) (Or.inr (Or.inl rfl))
    (by decide) (fun v hv ↦ N.text_head_ne hv (by decide)) hvs ws hws s t heq
  exact ⟨congrArg JsValue.array (List.forall₂_eq_eq_eq ▸ hitems), hrest⟩

/-- One field: the key is a string literal, so the colon and the value are found behind it. -/
theorem textField_delimited {f : JsString × JsValue} (hf : N.Legible f.2) :
    DelimitedAt ValueEnd (fun g ↦ g.2.IsPlain) (· = ·) N.textField f := by
  intro g hg s t hs ht heq
  simp only [textField, List.append_assoc, List.cons_append] at heq
  obtain ⟨hkey, hrest⟩ := stringLiteral_delimited (fun _ ↦ True) (fun _ ↦ True) f.1 g.1 trivial _ _
    (startsIn_cons.mpr trivial) (startsIn_cons.mpr trivial) heq
  rw [List.cons.injEq] at hrest
  obtain ⟨hvalue, hst⟩ := hf g.2 hg s t hs ht hrest.2
  exact ⟨Prod.ext hkey hvalue, hst⟩

/-- Objects, from their fields, which are listed in their order. -/
theorem legible_object {fs : List (JsString × JsValue)}
    (hfs : ∀ f ∈ fs, f.2.IsPlain ∧ N.Legible f.2) : N.Legible (.object fs) := by
  intro y hy s t _ _ heq
  have hplain : ∀ f ∈ fs, f.2.IsPlain := fun f hf ↦ (hfs f hf).1
  have hkind := N.kind_eq_of_text_eq (v := .object fs) (JsValue.fieldsArePlain_iff.mpr hplain) hy
    heq
  rcases y with _ | _ | (_ | _) | _ | _ | _ | gs | _ <;> simp only [kind, reduceCtorEq] at hkind
  have hgs := JsValue.fieldsArePlain_iff.mp hy
  simp only [N.text_object hplain, N.text_object hgs, List.cons_append, List.cons.injEq,
    true_and] at heq
  obtain ⟨hfields, hrest⟩ := closedList_delimited (D := ValueEnd) (Or.inl rfl)
    (Or.inr (Or.inr rfl)) (by decide)
    (fun f _ ↦ ⟨quote, _, by rw [textField, stringLiteral]; rfl, by decide⟩)
    (fun f hf ↦ ⟨hplain f hf, N.textField_delimited (hfs f hf).2⟩) gs hgs s t heq
  exact ⟨congrArg JsValue.object (List.forall₂_eq_eq_eq ▸ hfields), hrest⟩

mutual

/-- **The text of a plain value is legible**, by induction on the value. -/
theorem legible : ∀ {v : JsValue}, v.IsPlain → N.Legible v
  | .null, _ => N.legible_null
  | .bool b, _ => N.legible_bool b
  | .number (.finite q), _ => N.legible_number q
  | .number .negativeZero, h => absurd h fun ⟨_, heq⟩ ↦ nomatch heq
  | .number .nonFinite, h => absurd h fun ⟨_, heq⟩ ↦ nomatch heq
  | .string s, _ => N.legible_string s
  | .array _, h => N.legible_array (legible_items h)
  | .object _, h => N.legible_object (legible_fields h)
  | .undefined, h => h.elim
  | .other, h => h.elim

theorem legible_items : ∀ {vs : List JsValue}, JsValue.ItemsArePlain vs →
    ∀ v ∈ vs, v.IsPlain ∧ N.Legible v
  | [], _, _, hw => absurd hw List.not_mem_nil
  | v :: vs, h, w, hw => by
    rcases List.mem_cons.mp hw with heq | hw
    · rw [heq]
      exact ⟨h.1, legible h.1⟩
    · exact legible_items h.2 w hw

theorem legible_fields : ∀ {fs : List (JsString × JsValue)}, JsValue.FieldsArePlain fs →
    ∀ f ∈ fs, f.2.IsPlain ∧ N.Legible f.2
  | [], _, _, hg => absurd hg List.not_mem_nil
  | (k, v) :: fs, h, g, hg => by
    rcases List.mem_cons.mp hg with heq | hg
    · rw [heq]
      exact ⟨h.1, legible h.1⟩
    · exact legible_fields h.2 g hg

end

/-- **`JSON.stringify` is injective** on objects of plain values. -/
theorem stringify_inj {fs gs : List (JsString × JsValue)} (hfs : ∀ f ∈ fs, f.2.IsPlain)
    (hgs : ∀ g ∈ gs, g.2.IsPlain) (h : N.stringify fs = N.stringify gs) : fs = gs := by
  have htext : N.text (.object fs) = N.text (.object gs) := by
    rw [N.text_object hfs, N.text_object hgs, ← N.stringifyFields_eq hfs, ← N.stringifyFields_eq hgs]
    exact h
  have hlegible := N.legible (v := .object fs) (JsValue.fieldsArePlain_iff.mpr hfs)
  exact JsValue.object.inj (hlegible.rel_of_eq (JsValue.fieldsArePlain_iff.mpr hgs) htext)

end NumberLiterals

end LiteHarness
