import LiteHarness.Platform.JsValue

/-!
# The canonical argument serializer

`canonicalApprovalJson` writes a value as JSON with the keys of every object sorted, and throws on
anything that is not JSON. The digests that tie an approval to one tool call are taken over this
text, so two argument records must share it exactly when they are the same JSON value.

The serializer is followed as it is written, error texts included. For the correctness argument
`render` is the text it returns on JSON values; each child's text can be read off the front of what
follows it, because a comma or a closing bracket comes next.
-/

namespace LiteHarness

open Foundation

/-! ## The serializer -/

/-- What `canonicalApprovalJson` throws. -/
inductive CanonicalJsonError where
  | notFinite
  | undefinedField
  | notJson
  deriving DecidableEq

/-- The message of the thrown `Error`. -/
def CanonicalJsonError.message : CanonicalJsonError → JsString
  | .notFinite => js "Approval arguments must contain only finite JSON numbers"
  | .undefinedField => js "Approval arguments must not contain undefined values"
  | .notJson => js "Approval arguments must contain only JSON values"

abbrev comma : UInt16 := 44
abbrev openBracket : UInt16 := 91
abbrev closeBracket : UInt16 := 93
abbrev openBrace : UInt16 := 123
abbrev closeBrace : UInt16 := 125

namespace NumberLiterals

variable (N : NumberLiterals)

mutual

def canonicalApprovalJson : JsValue → Except CanonicalJsonError JsString
  | .null => .ok (js "null")
  | .string s => .ok (stringLiteral s)
  | .bool b => .ok (if b then js "true" else js "false")
  | .number .nonFinite => .error .notFinite
  | .number (.finite q) => .ok (N.literal q)
  | .number .negativeZero => .ok (N.literal 0)
  | .array items => do
    let parts ← (canonicalItems items).mapM id
    pure (openBracket :: closedList comma closeBracket parts)
  | .object fields => do
    let parts ← (sortByKey (canonicalFields fields)).mapM Prod.snd
    pure (openBrace :: closedList comma closeBrace parts)
  | .undefined => .error .notJson
  | .other => .error .notJson

/-- The elements of an array, each with its own text or exception. -/
def canonicalItems : List JsValue → List (Except CanonicalJsonError JsString)
  | [] => []
  | v :: vs => canonicalApprovalJson v :: canonicalItems vs

/-- The fields of an object, before they are put in the order of the sorted keys. -/
def canonicalFields : List (JsString × JsValue) →
    List (JsString × Except CanonicalJsonError JsString)
  | [] => []
  | (k, .undefined) :: fs => (k, .error .undefinedField) :: canonicalFields fs
  | (k, v) :: fs =>
    (k, (canonicalApprovalJson v).map (stringLiteral k ++ colon :: ·)) :: canonicalFields fs

end

/-! ## The text of a JSON value -/

mutual

/-- The canonical text of a JSON value. -/
def render : JsValue → JsString
  | .null => js "null"
  | .string s => stringLiteral s
  | .bool b => if b then js "true" else js "false"
  | .number n => N.literal (n.rat?.getD 0)
  | .array items => openBracket :: closedList comma closeBracket (renderItems items)
  | .object fields =>
    openBrace :: closedList comma closeBrace ((sortByKey (renderFields fields)).map Prod.snd)
  | .undefined => []
  | .other => []

def renderItems : List JsValue → List JsString
  | [] => []
  | v :: vs => render v :: renderItems vs

def renderFields : List (JsString × JsValue) → List (JsString × JsString)
  | [] => []
  | (k, v) :: fs => (k, stringLiteral k ++ colon :: render v) :: renderFields fs

end

/-- The text of one field. -/
def renderField (f : JsString × JsValue) : JsString := stringLiteral f.1 ++ colon :: N.render f.2

theorem renderItems_eq_map (vs : List JsValue) : N.renderItems vs = vs.map N.render := by
  induction vs with
  | nil => rw [renderItems, List.map_nil]
  | cons v vs ih => rw [renderItems, ih, List.map_cons]

theorem renderFields_eq_map (fs : List (JsString × JsValue)) :
    N.renderFields fs = fs.map fun f ↦ (f.1, N.renderField f) := by
  induction fs with
  | nil => rw [renderFields, List.map_nil]
  | cons f fs ih => rw [renderFields, ih, List.map_cons, renderField]

/-- The object text: the fields are sorted first and then written. -/
theorem render_object (fs : List (JsString × JsValue)) :
    N.render (.object fs)
      = openBrace :: closedList comma closeBrace ((sortByKey fs).map N.renderField) := by
  rw [render, renderFields_eq_map, sortByKey_map (fun f ↦ (f.1, N.renderField f)) (fun _ ↦ rfl),
    List.map_map]
  rfl

theorem render_array (vs : List JsValue) :
    N.render (.array vs) = openBracket :: closedList comma closeBracket (vs.map N.render) := by
  rw [render, renderItems_eq_map]

/-- Texts that all come out are collected as they are. -/
theorem mapM_map_ok {γ δ : Type} {f : γ → δ} {g : δ → Except CanonicalJsonError JsString}
    {h : γ → JsString} (hgf : ∀ x, g (f x) = .ok (h x)) :
    ∀ xs : List γ, (xs.map f).mapM g = .ok (xs.map h)
  | [] => rfl
  | x :: xs => by
    rw [List.map_cons, List.mapM_cons, hgf, mapM_map_ok hgf xs]
    rfl

mutual

/-- On a JSON value the serializer returns its text. -/
theorem canonicalApprovalJson_eq_render :
    ∀ {v : JsValue}, v.IsJson → N.canonicalApprovalJson v = .ok (N.render v)
  | .null, _ => by rw [canonicalApprovalJson, render]
  | .string s, _ => by rw [canonicalApprovalJson, render]
  | .bool b, _ => by rw [canonicalApprovalJson, render]
  | .number (.finite q), _ => by rw [canonicalApprovalJson, render]; rfl
  | .number .negativeZero, _ => by rw [canonicalApprovalJson, render]; rfl
  | .number .nonFinite, h => absurd rfl h
  | .array items, h => by
    rw [canonicalApprovalJson, canonicalItems_eq_render h, mapM_map_ok (f := .ok) (g := id) (h := id)
      fun _ ↦ rfl, List.map_id, render]
    rfl
  | .object fields, h => by
    rw [canonicalApprovalJson, canonicalFields_eq_render h.2,
      sortByKey_map (fun f : JsString × JsString ↦
        (f.1, (Except.ok f.2 : Except CanonicalJsonError JsString))) (fun _ ↦ rfl),
      mapM_map_ok (f := fun f ↦ (f.1, .ok f.2)) (g := Prod.snd) (h := Prod.snd) fun _ ↦ rfl, render]
    rfl
  | .undefined, h => h.elim
  | .other, h => h.elim

theorem canonicalItems_eq_render :
    ∀ {vs : List JsValue}, JsValue.ItemsAreJson vs →
      N.canonicalItems vs = (N.renderItems vs).map .ok
  | [], _ => by rw [canonicalItems, renderItems, List.map_nil]
  | v :: vs, h => by
    rw [canonicalItems, renderItems, List.map_cons, canonicalApprovalJson_eq_render h.1,
      canonicalItems_eq_render h.2]

theorem canonicalFields_eq_render :
    ∀ {fs : List (JsString × JsValue)}, JsValue.FieldsAreJson fs →
      N.canonicalFields fs = (N.renderFields fs).map fun f ↦ (f.1, .ok f.2)
  | [], _ => by rw [canonicalFields, renderFields, List.map_nil]
  | (k, v) :: fs, h => by
    have hv : v ≠ .undefined := by
      rintro rfl
      exact h.1
    rw [canonicalFields, renderFields, List.map_cons, canonicalApprovalJson_eq_render h.1,
      canonicalFields_eq_render h.2]
    · rfl
    · exact hv

end

/-! ## Reading a text back

The first code unit of a text tells which constructor wrote it. -/

/-- The code units after which a value can end inside a larger value. -/
def ValueEnd (u : UInt16) : Prop := u = comma ∨ u = closeBracket ∨ u = closeBrace

/-- The constructors of JSON values, the two booleans apart. -/
inductive Kind where
  | null | true | false | number | string | array | object | none
  deriving DecidableEq

/-- The kind of value a first code unit announces. -/
def leadKind (u : UInt16) : Kind :=
  if u = 110 then .null
  else if u = 116 then .true
  else if u = 102 then .false
  else if u = quote then .string
  else if u = openBracket then .array
  else if u = openBrace then .object
  else if isNumberUnit u then .number
  else .none

def kind : JsValue → Kind
  | .null => .null
  | .bool true => .true
  | .bool false => .false
  | .number _ => .number
  | .string _ => .string
  | .array _ => .array
  | .object _ => .object
  | .undefined => .none
  | .other => .none

theorem leadKind_of_isNumberUnit {u : UInt16} (h : isNumberUnit u = true) :
    leadKind u = .number := by
  have hne : ∀ w : UInt16, isNumberUnit w = false → u ≠ w := by
    rintro w hw rfl
    exact absurd h (by rw [hw]; decide)
  rw [leadKind, if_neg (hne _ (by decide)), if_neg (hne _ (by decide)), if_neg (hne _ (by decide)),
    if_neg (hne _ (by decide)), if_neg (hne _ (by decide)), if_neg (hne _ (by decide)), if_pos h]

theorem render_lead {v : JsValue} (h : v.IsJson) :
    ∃ u w, N.render v = u :: w ∧ leadKind u = kind v := by
  cases v with
  | null => exact ⟨110, js "ull", by rw [render]; decide, by decide⟩
  | bool b =>
    cases b with
    | true => exact ⟨116, js "rue", by rw [render]; decide, by decide⟩
    | false => exact ⟨102, js "alse", by rw [render]; decide, by decide⟩
  | number n =>
    obtain ⟨u, w, hw⟩ := List.exists_cons_of_ne_nil (N.literal_ne_nil (n.rat?.getD 0))
    refine ⟨u, w, by rw [render, hw], leadKind_of_isNumberUnit ?_⟩
    exact N.literal_unit _ u (by rw [hw]; exact List.mem_cons_self)
  | string s => exact ⟨quote, _, by rw [render, stringLiteral], rfl⟩
  | array items => exact ⟨openBracket, _, by rw [render], rfl⟩
  | object fields => exact ⟨openBrace, _, by rw [render], rfl⟩
  | undefined => exact h.elim
  | other => exact h.elim

theorem kind_eq_of_append_eq {v w : JsValue} (hv : v.IsJson) (hw : w.IsJson) {s t : JsString}
    (h : N.render v ++ s = N.render w ++ t) : kind v = kind w := by
  obtain ⟨u, x, hx, hu⟩ := N.render_lead hv
  obtain ⟨u', x', hx', hu'⟩ := N.render_lead hw
  rw [hx, hx', List.cons_append, List.cons_append, List.cons.injEq] at h
  rw [← hu, ← hu', h.1]

theorem not_valueEnd_of_isNumberUnit {u : UInt16} (h : isNumberUnit u = true) : ¬ValueEnd u := by
  rintro (rfl | rfl | rfl) <;> exact absurd h (by decide)

/-- What makes the text of a value readable off the front of a longer one. -/
abbrev Readable (v : JsValue) : Prop := DelimitedAt ValueEnd JsValue.IsJson SameJson N.render v

theorem readable_number {n : JsNumber} (hn : n ≠ .nonFinite) : N.Readable (.number n) := by
  intro y hy s t hs ht heq
  have hkind := N.kind_eq_of_append_eq (v := .number n) hn hy heq
  rcases y with _ | _ | (_ | _) | m | _ | _ | _ | _ <;> simp only [kind, reduceCtorEq] at hkind
  simp only [render] at heq
  obtain ⟨hlit, hrest⟩ := append_eq_append_of_free
    (fun u hu ↦ not_valueEnd_of_isNumberUnit (N.literal_unit _ u hu))
    (fun u hu ↦ not_valueEnd_of_isNumberUnit (N.literal_unit _ u hu)) hs ht heq
  refine ⟨.number ?_, hrest⟩
  have hvalue := N.literal_injective hlit
  have hm : m ≠ .nonFinite := hy
  cases n <;> cases m <;> simp_all [JsNumber.rat?]

theorem readable_string (x : JsString) : N.Readable (.string x) := by
  intro y hy s t hs ht heq
  have hkind := N.kind_eq_of_append_eq (v := .string x) trivial hy heq
  rcases y with _ | _ | (_ | _) | _ | x' | _ | _ | _ <;> simp only [kind, reduceCtorEq] at hkind
  simp only [render] at heq
  obtain ⟨rfl, hrest⟩ := stringLiteral_delimited ValueEnd (fun _ ↦ True) x x' trivial s t hs ht heq
  exact ⟨.string x, hrest⟩

theorem readable_bool (b : Bool) : N.Readable (.bool b) := by
  intro y hy s t _ _ heq
  have hkind := N.kind_eq_of_append_eq (v := .bool b) trivial hy heq
  rcases b <;> rcases y with _ | _ | (_ | _) | _ | _ | _ | _ | _ <;>
    simp only [kind, reduceCtorEq] at hkind
  all_goals exact ⟨.bool _, List.append_cancel_left heq⟩

theorem readable_null : N.Readable .null := by
  intro y hy s t _ _ heq
  have hkind := N.kind_eq_of_append_eq (v := .null) trivial hy heq
  rcases y with _ | _ | (_ | _) | _ | _ | _ | _ | _ <;> simp only [kind, reduceCtorEq] at hkind
  exact ⟨.null, List.append_cancel_left heq⟩

/-- A text never starts with a closing bracket. -/
theorem render_head_ne {v : JsValue} (h : v.IsJson) {c : UInt16} (hc : leadKind c = .none) :
    ∃ u w, N.render v = u :: w ∧ u ≠ c := by
  obtain ⟨u, w, hw, hu⟩ := N.render_lead h
  refine ⟨u, w, hw, ?_⟩
  rintro rfl
  rw [hc] at hu
  rcases v with _ | _ | (_ | _) | _ | _ | _ | _ | _ <;> simp only [kind, reduceCtorEq] at hu <;>
    exact h.elim

/-- Arrays, from their elements: the list rule with a comma and a bracket. -/
theorem readable_array {vs : List JsValue} (hvs : ∀ v ∈ vs, v.IsJson ∧ N.Readable v) :
    N.Readable (.array vs) := by
  intro y hy s t _ _ heq
  have hjson : (JsValue.array vs).IsJson :=
    JsValue.itemsAreJson_iff.mpr fun v hv ↦ (hvs v hv).1
  have hkind := N.kind_eq_of_append_eq hjson hy heq
  rcases y with _ | _ | (_ | _) | _ | _ | ws | _ | _ <;> simp only [kind, reduceCtorEq] at hkind
  simp only [render_array, List.cons_append, List.cons.injEq, true_and] at heq
  obtain ⟨hitems, hrest⟩ := closedList_delimited (D := ValueEnd) (Or.inl rfl) (Or.inr (Or.inl rfl))
    (by decide) (fun v hv ↦ N.render_head_ne hv (by decide)) hvs ws
    (JsValue.itemsAreJson_iff.mp hy) s t heq
  exact ⟨.array (sameItems_of_forall₂ hitems), hrest⟩

/-- One field: the key is a string literal, so the colon and the value are found behind it. -/
theorem renderField_delimited {f : JsString × JsValue} (hf : N.Readable f.2) :
    DelimitedAt ValueEnd (fun g ↦ g.2.IsJson) SameField N.renderField f := by
  intro g hg s t hs ht heq
  simp only [renderField, List.append_assoc, List.cons_append] at heq
  obtain ⟨hkey, hrest⟩ := stringLiteral_delimited (fun _ ↦ True) (fun _ ↦ True) f.1 g.1 trivial _ _
    (startsIn_cons.mpr trivial) (startsIn_cons.mpr trivial) heq
  rw [List.cons.injEq] at hrest
  obtain ⟨hvalue, hst⟩ := hf g.2 hg s t hs ht hrest.2
  exact ⟨⟨hkey, hvalue⟩, hst⟩

/-- Objects, from their fields. The text lists the fields by sorted key, so what it gives back is
the field list of the other object up to a permutation. -/
theorem readable_object {fs : List (JsString × JsValue)} (hjson : (JsValue.object fs).IsJson)
    (hfs : ∀ f ∈ fs, N.Readable f.2) : N.Readable (.object fs) := by
  intro y hy s t _ _ heq
  have hkind := N.kind_eq_of_append_eq hjson hy heq
  rcases y with _ | _ | (_ | _) | _ | _ | _ | gs | _ <;> simp only [kind, reduceCtorEq] at hkind
  simp only [render_object, List.cons_append, List.cons.injEq, true_and] at heq
  have hsorted : ∀ f ∈ sortByKey fs, f.2.IsJson ∧
      DelimitedAt ValueEnd (fun g ↦ g.2.IsJson) SameField N.renderField f := by
    intro f hf
    have hmem : f ∈ fs := (sortByKey_perm fs).mem_iff.mp hf
    exact ⟨JsValue.fieldsAreJson_iff.mp hjson.2 f hmem, N.renderField_delimited (hfs f hmem)⟩
  have hgs : ∀ g ∈ sortByKey gs, g.2.IsJson := fun g hg ↦
    JsValue.fieldsAreJson_iff.mp hy.2 g ((sortByKey_perm gs).mem_iff.mp hg)
  obtain ⟨hfields, hrest⟩ := closedList_delimited (D := ValueEnd) (Or.inl rfl)
    (Or.inr (Or.inr rfl)) (by decide)
    (fun f _ ↦ ⟨quote, _, by rw [renderField, stringLiteral]; rfl, by decide⟩) hsorted _ hgs s t heq
  obtain ⟨hs, hsame, hperm⟩ := List.perm_comp_forall₂ (sortByKey_perm fs).symm hfields
  exact ⟨.object (sameFields_of_forall₂ hsame) (hperm.trans (sortByKey_perm gs)), hrest⟩

mutual

/-- **The canonical text is readable**, by induction on the value. -/
theorem readable : ∀ {v : JsValue}, v.IsJson → N.Readable v
  | .null, _ => N.readable_null
  | .bool b, _ => N.readable_bool b
  | .number _, h => N.readable_number h
  | .string s, _ => N.readable_string s
  | .array _, h => N.readable_array (readable_items h)
  | .object _, h => N.readable_object h (readable_fields h.2)
  | .undefined, h => h.elim
  | .other, h => h.elim

theorem readable_items : ∀ {vs : List JsValue}, JsValue.ItemsAreJson vs →
    ∀ v ∈ vs, v.IsJson ∧ N.Readable v
  | [], _, _, hw => absurd hw List.not_mem_nil
  | v :: vs, h, w, hw => by
    rcases List.mem_cons.mp hw with heq | hw
    · rw [heq]
      exact ⟨h.1, readable h.1⟩
    · exact readable_items h.2 w hw

theorem readable_fields : ∀ {fs : List (JsString × JsValue)}, JsValue.FieldsAreJson fs →
    ∀ f ∈ fs, N.Readable f.2
  | [], _, _, hg => absurd hg List.not_mem_nil
  | (k, v) :: fs, h, g, hg => by
    rcases List.mem_cons.mp hg with heq | hg
    · rw [heq]
      exact readable h.1
    · exact readable_fields h.2 g hg

end

/-! ## Key order does not show -/

mutual

/-- The same value up to key order has the same text. -/
theorem render_eq_of_same : ∀ {v w : JsValue}, v.IsJson → w.IsJson → SameJson v w →
    N.render v = N.render w
  | .null, _, _, _, .null => rfl
  | .bool _, _, _, _, .bool _ => rfl
  | .number _, _, _, _, .number h => by rw [render, render, h]
  | .string _, _, _, _, .string _ => rfl
  | .array _, _, hv, hw, .array h => by
    rw [render, render, renderItems_eq_of_same hv hw h]
  | .object fs, .object gs, hv, hw, @SameJson.object _ _ hs h hperm => by
    have hhs : JsValue.FieldsAreJson hs := JsValue.fieldsAreJson_iff.mpr fun f hf ↦
      JsValue.fieldsAreJson_iff.mp hw.2 f (hperm.mem_iff.mp hf)
    have hfields : N.renderFields fs = N.renderFields hs :=
      renderFields_eq_of_same hv.2 hhs h
    have hrendered : (N.renderFields hs).Perm (N.renderFields gs) := by
      rw [renderFields_eq_map, renderFields_eq_map]
      exact hperm.map _
    have hkeys : (N.renderFields hs).map Prod.fst = hs.map Prod.fst := by
      rw [renderFields_eq_map, List.map_map]
      rfl
    have hnodup : ((N.renderFields hs).map Prod.fst).Nodup := by
      rw [hkeys]
      exact (hperm.map Prod.fst).nodup_iff.mpr hw.1
    rw [render, render, hfields, sortByKey_eq_of_perm hrendered hnodup]

theorem renderItems_eq_of_same : ∀ {vs ws : List JsValue}, JsValue.ItemsAreJson vs →
    JsValue.ItemsAreJson ws → SameItems vs ws → N.renderItems vs = N.renderItems ws
  | [], _, _, _, .nil => rfl
  | _ :: _, _, hv, hw, .cons h hs => by
    rw [renderItems, renderItems, render_eq_of_same hv.1 hw.1 h,
      renderItems_eq_of_same hv.2 hw.2 hs]

theorem renderFields_eq_of_same : ∀ {fs gs : List (JsString × JsValue)},
    JsValue.FieldsAreJson fs → JsValue.FieldsAreJson gs → SameFields fs gs →
      N.renderFields fs = N.renderFields gs
  | [], _, _, _, .nil => rfl
  | (_, _) :: _, _, hf, hg, .cons h hs => by
    rw [renderFields, renderFields, render_eq_of_same hf.1 hg.1 h,
      renderFields_eq_of_same hf.2 hg.2 hs]

end

/-- On JSON values the serializer identifies exactly the values that agree up to key order. -/
theorem render_eq_iff {v w : JsValue} (hv : v.IsJson) (hw : w.IsJson) :
    N.render v = N.render w ↔ SameJson v w :=
  ⟨fun h ↦ (N.readable hv).rel_of_eq hw h, N.render_eq_of_same hv hw⟩

end NumberLiterals

end LiteHarness
