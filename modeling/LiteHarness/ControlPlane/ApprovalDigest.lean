import LiteHarness.ControlPlane.CanonicalJson
import LiteHarness.Platform.Runtime

/-!
# Approval digests

An approval is tied to one tool call by two digests: one of the call's arguments and one of the
whole execution binding. Both hash the canonical text, so under a collision-free hash they agree
exactly when what they are taken of agrees.
-/

namespace LiteHarness

/-! ## Fields of equal objects -/

theorem SameFields.mem {fs gs : List (JsString × JsValue)} (h : SameFields fs gs) {k : JsString}
    {x : JsValue} (hx : (k, x) ∈ fs) : ∃ y, (k, y) ∈ gs ∧ SameJson x y := by
  induction fs generalizing gs with
  | nil => exact absurd hx List.not_mem_nil
  | cons f fs ih =>
    cases h with
    | cons hxy hrest =>
      rcases List.mem_cons.mp hx with heq | hx
      · obtain ⟨rfl, rfl⟩ := Prod.mk.inj heq
        exact ⟨_, List.mem_cons_self, hxy⟩
      · obtain ⟨y, hy, hsame⟩ := ih hrest hx
        exact ⟨y, List.mem_cons_of_mem _ hy, hsame⟩

/-- Equal objects have equal values at every key. -/
theorem SameJson.field {fs gs : List (JsString × JsValue)} (h : SameJson (.object fs) (.object gs))
    (hnodup : (gs.map Prod.fst).Nodup) {k : JsString} {x y : JsValue} (hx : (k, x) ∈ fs)
    (hy : (k, y) ∈ gs) : SameJson x y := by
  cases h with
  | object hsame hperm =>
    obtain ⟨z, hz, hxz⟩ := hsame.mem hx
    have hkey := List.inj_on_of_nodup_map hnodup (hperm.mem_iff.mp hz) hy rfl
    rwa [(Prod.mk.inj hkey).2] at hxz

theorem SameJson.string_eq {s t : JsString} (h : SameJson (.string s) (.string t)) : s = t := by
  cases h with
  | string => rfl

theorem SameJson.finite_eq {p q : ℚ} (h : SameJson (.number (.finite p)) (.number (.finite q))) :
    p = q := by
  cases h with
  | number h => exact Option.some.inj h

/-! ## The execution binding -/

/-- What an approval authorizes. -/
structure ApprovalExecutionBinding where
  runId : JsString
  toolCallId : JsString
  toolName : JsString
  toolArgumentsDigest : JsString
  appId : JsString
  tenantId : JsString
  userId : JsString
  workspaceId : JsString
  policyGeneration : ℤ
  routeGeneration : JsString
  expiresAt : JsString
  deriving DecidableEq

/-- `{ version: 1, ...binding }`. -/
def ApprovalExecutionBinding.fields (b : ApprovalExecutionBinding) : List (JsString × JsValue) :=
  [(js "version", .number (.finite 1)), (js "runId", .string b.runId),
    (js "toolCallId", .string b.toolCallId), (js "toolName", .string b.toolName),
    (js "toolArgumentsDigest", .string b.toolArgumentsDigest), (js "appId", .string b.appId),
    (js "tenantId", .string b.tenantId), (js "userId", .string b.userId),
    (js "workspaceId", .string b.workspaceId),
    (js "policyGeneration", .number (.finite b.policyGeneration)),
    (js "routeGeneration", .string b.routeGeneration), (js "expiresAt", .string b.expiresAt)]

/-- The keys of a binding, which do not repeat. -/
theorem ApprovalExecutionBinding.fields_keys_nodup (b : ApprovalExecutionBinding) :
    (b.fields.map Prod.fst).Nodup := by
  have hkeys : b.fields.map Prod.fst = [js "version", js "runId", js "toolCallId", js "toolName",
      js "toolArgumentsDigest", js "appId", js "tenantId", js "userId", js "workspaceId",
      js "policyGeneration", js "routeGeneration", js "expiresAt"] := rfl
  rw [hkeys]
  decide

theorem ApprovalExecutionBinding.fields_isJson (b : ApprovalExecutionBinding) :
    (JsValue.object b.fields).IsJson := by
  refine ⟨b.fields_keys_nodup, ?_⟩
  simp [fields, JsValue.FieldsAreJson, JsValue.IsJson]

/-- A binding is determined by its object. -/
theorem ApprovalExecutionBinding.eq_of_same {b c : ApprovalExecutionBinding}
    (h : SameJson (.object b.fields) (.object c.fields)) : b = c := by
  have hstring : ∀ {k s t : JsString}, (k, .string s) ∈ b.fields → (k, .string t) ∈ c.fields →
      s = t := fun hs ht ↦ (h.field c.fields_keys_nodup hs ht).string_eq
  have hpolicy : (b.policyGeneration : ℚ) = c.policyGeneration :=
    (h.field (k := js "policyGeneration") c.fields_keys_nodup
      (by simp [fields]) (by simp [fields])).finite_eq
  obtain ⟨b₁, b₂, b₃, b₄, b₅, b₆, b₇, b₈, b₉, b₁₀, b₁₁⟩ := b
  obtain ⟨c₁, c₂, c₃, c₄, c₅, c₆, c₇, c₈, c₉, c₁₀, c₁₁⟩ := c
  simp only [ApprovalExecutionBinding.mk.injEq]
  refine ⟨hstring (k := js "runId") ?_ ?_, hstring (k := js "toolCallId") ?_ ?_,
    hstring (k := js "toolName") ?_ ?_, hstring (k := js "toolArgumentsDigest") ?_ ?_,
    hstring (k := js "appId") ?_ ?_, hstring (k := js "tenantId") ?_ ?_,
    hstring (k := js "userId") ?_ ?_, hstring (k := js "workspaceId") ?_ ?_,
    Rat.intCast_inj.mp hpolicy, hstring (k := js "routeGeneration") ?_ ?_,
    hstring (k := js "expiresAt") ?_ ?_⟩
  all_goals simp [fields]

/-! ## The digests -/

namespace Platform

variable (P : Platform)

/-- The digest of a call's arguments. -/
def approvalArgumentsDigest (argumentsValue : List (JsString × JsValue)) :
    Except CanonicalJsonError JsString :=
  (P.canonicalApprovalJson (.object argumentsValue)).map P.sha256

/-- The digest of a binding, taken over its canonical text. A binding is always JSON, so unlike the
argument digest this one never throws; `approvalExecutionDigest_eq` is the evidence. -/
def approvalExecutionDigest (binding : ApprovalExecutionBinding) :
    Except CanonicalJsonError JsString :=
  (P.canonicalApprovalJson (.object binding.fields)).map P.sha256

theorem approvalArgumentsDigest_eq (args : JsonObject) :
    P.approvalArgumentsDigest args = .ok (P.sha256 (P.render (.object args))) := by
  rw [approvalArgumentsDigest, P.canonicalApprovalJson_eq_render args.2]
  rfl

theorem approvalExecutionDigest_eq (b : ApprovalExecutionBinding) :
    P.approvalExecutionDigest b = .ok (P.sha256 (P.render (.object b.fields))) := by
  rw [approvalExecutionDigest, P.canonicalApprovalJson_eq_render b.fields_isJson]
  rfl

theorem approvalArgumentsDigest_eq_iff (a b : JsonObject) :
    P.approvalArgumentsDigest a = P.approvalArgumentsDigest b
      ↔ SameJson (.object a) (.object b) := by
  rw [approvalArgumentsDigest_eq, approvalArgumentsDigest_eq, Except.ok.injEq,
    P.sha256_injective.eq_iff, P.render_eq_iff a.2 b.2]

theorem approvalExecutionDigest_eq_iff (b c : ApprovalExecutionBinding) :
    P.approvalExecutionDigest b = P.approvalExecutionDigest c ↔ b = c := by
  rw [approvalExecutionDigest_eq, approvalExecutionDigest_eq, Except.ok.injEq,
    P.sha256_injective.eq_iff, P.render_eq_iff b.fields_isJson c.fields_isJson]
  constructor
  · exact ApprovalExecutionBinding.eq_of_same
  · rintro rfl
    exact (P.render_eq_iff b.fields_isJson b.fields_isJson).mp rfl

/-- **The canonical text identifies a JSON value up to key order.** The serializer returns a text
on every JSON value, two texts agree exactly when the values do, and so do the two digests taken
over them. -/
theorem canonicalApprovalJson_identifies :
    (∀ a : JsonValue, ∃ text, P.canonicalApprovalJson a = .ok text) ∧
    (∀ a b : JsonValue, P.canonicalApprovalJson a = P.canonicalApprovalJson b ↔ SameJson a b) ∧
    (∀ a b : JsonObject, P.approvalArgumentsDigest a = P.approvalArgumentsDigest b
      ↔ SameJson (.object a) (.object b)) ∧
    (∀ b c : ApprovalExecutionBinding,
      P.approvalExecutionDigest b = P.approvalExecutionDigest c ↔ b = c) := by
  refine ⟨fun a ↦ ⟨_, P.canonicalApprovalJson_eq_render a.2⟩, fun a b ↦ ?_,
    P.approvalArgumentsDigest_eq_iff, P.approvalExecutionDigest_eq_iff⟩
  rw [P.canonicalApprovalJson_eq_render a.2, P.canonicalApprovalJson_eq_render b.2,
    Except.ok.injEq, P.render_eq_iff a.2 b.2]

end Platform

end LiteHarness
