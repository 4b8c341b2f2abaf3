import LiteHarness.ControlPlane.ApprovalDigest
import LiteHarness.Storage.Linked
import Mathlib.Data.List.Induction

/-!
# One run for one key

A key is stored with the length and the text of its user id in front, so that the keys of two users
never meet and the caller's own key can be read back. The fingerprint tells requests apart by what
they ask for. From both: a key has at most one run, a repeated request finds it, and a different
request under the key is refused.
-/

namespace LiteHarness

open Foundation Foundation.Eff

/-! ## Scoped keys -/

/-- A scoped key determines the user and the user's key. -/
theorem scopedIdempotencyKey_inj {u v k l : JsString}
    (h : scopedIdempotencyKey u k = scopedIdempotencyKey v l) : u = v ∧ k = l := by
  obtain ⟨huser, hkey⟩ := sized_append_inj h
  exact ⟨huser, (List.cons.inj hkey).2⟩

theorem digitValue_asciiUnit {c : Char} (h : c.isDigit) :
    digitValue (asciiUnit c) = some (c.toNat - 48) := by
  have hc := isDigit_toNat h
  rw [digitValue, asciiUnit_toNat h, if_pos hc]

/-- Reading digits adds them up as `Nat.ofDigitChars` does. -/
theorem parseDigits_map {cs : List Char} (h : ∀ c ∈ cs, c.isDigit) (acc : ℕ) :
    parseDigits acc (cs.map asciiUnit) = Nat.ofDigitChars 10 cs acc := by
  induction cs generalizing acc with
  | nil => rw [Nat.ofDigitChars_nil]; rfl
  | cons c cs ih =>
    obtain ⟨hc, hcs⟩ := List.forall_mem_cons.mp h
    rw [List.map_cons, parseDigits, digitValue_asciiUnit hc, Nat.ofDigitChars_cons]
    exact ih hcs _

/-- `parseInt` reads a decimal numeral back. -/
theorem parseInt_decimal (n : ℕ) : parseInt (decimal n) = some (n : ℤ) := by
  have hdigits : ∀ c ∈ Nat.toDigits 10 n, c.isDigit := fun c hc ↦
    Nat.isDigit_of_mem_toDigits (by norm_num) le_rfl hc
  have hvalue := parseDigits_map hdigits 0
  rw [Nat.ofDigitChars_ten_toDigits] at hvalue
  cases hn : decimal n with
  | nil => exact absurd hn (decimal_ne_nil n)
  | cons u rest =>
    have hu : 48 ≤ u.toNat ∧ u.toNat ≤ 57 := decimal_unit (hn ▸ List.mem_cons_self)
    have hskip : (u :: rest).dropWhile isStrWhiteSpace = u :: rest :=
      List.dropWhile_cons_of_neg (by simp [not_isStrWhiteSpace_digit hu])
    rw [show (Nat.toDigits 10 n).map asciiUnit = u :: rest from hn, parseDigits, digitValue,
      if_pos hu] at hvalue
    simp only [Nat.mul_zero, Nat.zero_add] at hvalue
    rw [parseInt, hskip]
    dsimp only
    split
    · rename_i heq
      obtain ⟨rfl, rfl⟩ := List.cons.inj heq
      exact absurd hu.1 (by decide)
    · rename_i heq
      obtain ⟨rfl, rfl⟩ := List.cons.inj heq
      exact absurd hu.1 (by decide)
    · simp only [digitValue, if_pos hu, Option.map_some, hvalue]
      rfl

/-- The prefix of a numbered value is removed where the number leads to a colon. -/
theorem publicIdempotencyKey_numbered {n : ℕ} (hn : (n : ℤ) ≤ maxSafeInteger) (body : JsString) :
    publicIdempotencyKey (decimal n ++ colon :: body)
      = if body[n]? = some colon then body.drop (n + 1) else decimal n ++ colon :: body := by
  have hfree : colon ∉ decimal n := fun h ↦ ne_colon_of_mem_decimal h rfl
  have hpos : 0 < (decimal n).length := List.length_pos_iff.mpr (decimal_ne_nil _)
  have hdelimiter : (decimal n ++ colon :: body).idxOf colon = (decimal n).length := by
    rw [List.idxOf_append_of_notMem hfree, List.idxOf_cons_self, Nat.add_zero]
  have htake : (decimal n ++ colon :: body).take (decimal n).length = decimal n := by
    rw [List.take_left']
    rfl
  have hfull : (decimal n).length ≠ (decimal n ++ colon :: body).length := by
    rw [List.length_append, List.length_cons]
    omega
  have hat : (decimal n ++ colon :: body)[(decimal n).length + 1 + n]? = body[n]? := by
    rw [List.getElem?_append_right (by omega),
      show (decimal n).length + 1 + n - (decimal n).length = n + 1 from by omega]
    rfl
  have hdrop : (decimal n ++ colon :: body).drop ((decimal n).length + 1 + n + 1)
      = body.drop (n + 1) := by
    rw [show (decimal n).length + 1 + n + 1 = (decimal n).length + (n + 1 + 1) from by omega,
      ← List.drop_drop, List.drop_left]
    rfl
  rw [publicIdempotencyKey, hdelimiter]
  simp only [if_neg (show ¬((decimal n).length < 1 ∨
    (decimal n).length = (decimal n ++ colon :: body).length) by omega), htake, parseInt_decimal]
  rw [if_neg (by omega), Int.toNat_natCast, hat, hdrop]

/-- **A caller reads its own key back**, for every string the host can hold. -/
theorem publicIdempotencyKey_scopedIdempotencyKey {u : JsString}
    (hu : (u.length : ℤ) ≤ maxSafeInteger) (k : JsString) :
    publicIdempotencyKey (scopedIdempotencyKey u k) = k := by
  have hvalue : scopedIdempotencyKey u k = decimal u.length ++ colon :: (u ++ colon :: k) := by
    simp [scopedIdempotencyKey, sized, lengthPrefixed]
  have hat : (u ++ colon :: k)[u.length]? = some colon := by
    rw [List.getElem?_append_right le_rfl, Nat.sub_self]
    rfl
  rw [hvalue, publicIdempotencyKey_numbered hu, if_pos hat, ← List.drop_drop, List.drop_left]
  rfl

/-! ## Fingerprints -/

/-- Equal objects have the same keys. -/
theorem SameJson.exists_field {fs gs : List (JsString × JsValue)}
    (h : SameJson (.object fs) (.object gs)) {k : JsString} {x : JsValue} (hx : (k, x) ∈ fs) :
    ∃ y, (k, y) ∈ gs ∧ SameJson x y := by
  cases h with
  | object hsame hperm =>
    obtain ⟨y, hy, hxy⟩ := hsame.mem hx
    exact ⟨y, hperm.mem_iff.mp hy, hxy⟩

/-- The requests ask for the same, with defaults filled in. Whether missing agents and workspaces
may be created is no part of what is asked for. -/
structure SameRequest (r s : InternalStartRunRequest) : Prop where
  principal : r.principal = s.principal
  agent : r.agent = s.agent
  workspace : r.workspace = s.workspace
  session : r.session = s.session
  providerConnectionId : truthy r.providerConnectionId = truthy s.providerConnectionId
  input : r.input = s.input
  budget : r.budget = s.budget
  parentRunId : r.parentRunId = s.parentRunId
  depth : r.depth.getD 0 = s.depth.getD 0
  deliveryAllowed : r.deliveryAllowed.getD true = s.deliveryAllowed.getD true

/-- The fields of a budget, given or not. -/
def RunBudgetOverrides.entries (b : RunBudgetOverrides) : List (JsString × Option ℚ) :=
  [(js "maxTurns", b.maxTurns), (js "maxToolCalls", b.maxToolCalls),
    (js "maxInputTokens", b.maxInputTokens), (js "maxOutputTokens", b.maxOutputTokens),
    (js "maxCostUsd", b.maxCostUsd), (js "totalTimeoutMs", b.totalTimeoutMs),
    (js "modelIdleTimeoutMs", b.modelIdleTimeoutMs), (js "commandTimeoutMs", b.commandTimeoutMs)]

namespace RunBudgetOverrides

theorem fields_eq (b : RunBudgetOverrides) :
    b.fields = b.entries.flatMap fun entry ↦ optionalField entry.1 entry.2 := by
  simp [fields, entries]

theorem mem_optionalField {key k : JsString} {value : Option ℚ} {x : JsValue} :
    (k, x) ∈ optionalField key value ↔ k = key ∧ ∃ q, value = some q ∧ x = .number (.finite q) := by
  cases value <;> simp [optionalField]

theorem mem_fields {b : RunBudgetOverrides} {k : JsString} {x : JsValue} :
    (k, x) ∈ b.fields ↔ ∃ q, (k, some q) ∈ b.entries ∧ x = .number (.finite q) := by
  rw [fields_eq, List.mem_flatMap]
  constructor
  · rintro ⟨⟨key, value⟩, hmem, hx⟩
    obtain ⟨rfl, q, rfl, rfl⟩ := mem_optionalField.mp hx
    exact ⟨q, hmem, rfl⟩
  · rintro ⟨q, hmem, rfl⟩
    exact ⟨(k, some q), hmem, mem_optionalField.mpr ⟨rfl, q, rfl, rfl⟩⟩

theorem entries_keys_nodup (b : RunBudgetOverrides) : (b.entries.map Prod.fst).Nodup := by
  have hkeys : b.entries.map Prod.fst = [js "maxTurns", js "maxToolCalls", js "maxInputTokens",
      js "maxOutputTokens", js "maxCostUsd", js "totalTimeoutMs", js "modelIdleTimeoutMs",
      js "commandTimeoutMs"] := rfl
  rw [hkeys]
  decide

theorem fields_isJson (b : RunBudgetOverrides) : (JsValue.object b.fields).IsJson := by
  refine ⟨?_, JsValue.fieldsAreJson_iff.mpr ?_⟩
  · have hsub : (b.fields.map Prod.fst).Sublist (b.entries.map Prod.fst) := by
      rw [fields_eq]
      generalize b.entries = entries
      induction entries with
      | nil => exact List.Sublist.refl _
      | cons entry entries ih =>
        obtain ⟨key, value⟩ := entry
        rw [List.flatMap_cons, List.map_append, List.map_cons]
        cases value with
        | none => exact ih.cons key
        | some q => exact ih.cons_cons key
    exact b.entries_keys_nodup.sublist hsub
  · rintro ⟨k, x⟩ hx
    obtain ⟨q, -, rfl⟩ := mem_fields.mp hx
    exact fun h ↦ nomatch h

/-- A budget is determined by its object. -/
theorem eq_of_same {b c : RunBudgetOverrides} (h : SameJson (.object b.fields) (.object c.fields))
    (h' : SameJson (.object c.fields) (.object b.fields)) : b = c := by
  have hgiven : ∀ {b c : RunBudgetOverrides}, SameJson (.object b.fields) (.object c.fields) →
      ∀ {k : JsString} {q : ℚ} {v : Option ℚ}, (k, some q) ∈ b.entries → (k, v) ∈ c.entries →
        v = some q := by
    intro b c hsame k q v hb hc
    obtain ⟨y, hy, hqy⟩ := hsame.exists_field (mem_fields.mpr ⟨q, hb, rfl⟩)
    obtain ⟨q', hc', rfl⟩ := mem_fields.mp hy
    have hentry := List.inj_on_of_nodup_map c.entries_keys_nodup hc hc' rfl
    rw [(Prod.mk.inj hentry).2, hqy.finite_eq]
  have hentry : ∀ {k : JsString} {v w : Option ℚ}, (k, v) ∈ b.entries → (k, w) ∈ c.entries →
      v = w := by
    intro k v w hb hc
    cases v with
    | some q => exact (hgiven h hb hc).symm
    | none =>
      cases w with
      | none => rfl
      | some q => exact hgiven h' hc hb
  obtain ⟨b₁, b₂, b₃, b₄, b₅, b₆, b₇, b₈⟩ := b
  obtain ⟨c₁, c₂, c₃, c₄, c₅, c₆, c₇, c₈⟩ := c
  simp only [mk.injEq]
  refine ⟨hentry (k := js "maxTurns") ?_ ?_, hentry (k := js "maxToolCalls") ?_ ?_,
    hentry (k := js "maxInputTokens") ?_ ?_, hentry (k := js "maxOutputTokens") ?_ ?_,
    hentry (k := js "maxCostUsd") ?_ ?_, hentry (k := js "totalTimeoutMs") ?_ ?_,
    hentry (k := js "modelIdleTimeoutMs") ?_ ?_, hentry (k := js "commandTimeoutMs") ?_ ?_⟩
  all_goals simp [entries]

end RunBudgetOverrides

theorem nullable_isJson (s : Option JsString) : (nullable s).IsJson := by
  cases s <;> exact trivial

theorem SameJson.nullable_eq {s t : Option JsString} (h : SameJson (nullable s) (nullable t)) :
    s = t := by
  cases s with
  | none =>
    cases t with
    | none => rfl
    | some t => cases h
  | some s =>
    cases t with
    | none => cases h
    | some t => exact congrArg some h.string_eq

namespace InternalStartRunRequest

theorem fingerprintFields_keys_nodup (r : InternalStartRunRequest) :
    (r.fingerprintFields.map Prod.fst).Nodup := by
  rw [fingerprintFields]
  cases truthy r.providerConnectionId <;>
    simp only [List.map_append, List.map_cons, List.map_nil] <;> decide

theorem fingerprintFields_isJson (r : InternalStartRunRequest) :
    (JsValue.object r.fingerprintFields).IsJson := by
  refine ⟨r.fingerprintFields_keys_nodup, JsValue.fieldsAreJson_iff.mpr ?_⟩
  have hbudget : ((r.budget.map fun b ↦ JsValue.object b.fields).getD .null).IsJson := by
    cases r.budget with
    | none => exact trivial
    | some b => exact b.fields_isJson
  rw [fingerprintFields, List.forall_mem_append, List.forall_mem_append]
  refine ⟨⟨?_, ?_⟩, ?_⟩
  · simp [JsValue.IsJson, nullable_isJson]
  · cases truthy r.providerConnectionId with
    | none => exact fun _ hf ↦ absurd hf List.not_mem_nil
    | some c =>
      intro f hf
      rw [List.mem_singleton.mp hf]
      exact trivial
  · simp [JsValue.IsJson, nullable_isJson, hbudget]

/-- The connection field is there where a connection is named. -/
theorem connection_mem {r : InternalStartRunRequest} {x : JsValue} :
    (js "providerConnectionId", x) ∈ r.fingerprintFields ↔
      ∃ c, truthy r.providerConnectionId = some c ∧ x = .string c := by
  have hfront : ∀ {fs : List (JsString × JsValue)},
      js "providerConnectionId" ∉ fs.map Prod.fst → (js "providerConnectionId", x) ∉ fs :=
    fun hkey hmem ↦ hkey (List.mem_map.mpr ⟨_, hmem, rfl⟩)
  rw [fingerprintFields, List.mem_append, List.mem_append, or_iff_left (hfront ?_),
    or_iff_right (hfront ?_)]
  · cases truthy r.providerConnectionId <;> simp
  · simp only [List.map_cons, List.map_nil]
    decide
  · simp only [List.map_cons, List.map_nil]
    decide

/-- What a fingerprint tells of a request. -/
theorem same_of_sameJson {r s : InternalStartRunRequest}
    (h : SameJson (.object r.fingerprintFields) (.object s.fingerprintFields))
    (h' : SameJson (.object s.fingerprintFields) (.object r.fingerprintFields)) :
    SameRequest r s := by
  have hfield : ∀ {k : JsString} {x y : JsValue}, (k, x) ∈ r.fingerprintFields →
      (k, y) ∈ s.fingerprintFields → SameJson x y :=
    fun hx hy ↦ h.field s.fingerprintFields_keys_nodup hx hy
  have hstring : ∀ {k t u : JsString}, (k, .string t) ∈ r.fingerprintFields →
      (k, .string u) ∈ s.fingerprintFields → t = u := fun hx hy ↦ (hfield hx hy).string_eq
  have hnullable : ∀ {k : JsString} {t u : Option JsString},
      (k, nullable t) ∈ r.fingerprintFields → (k, nullable u) ∈ s.fingerprintFields → t = u :=
    fun hx hy ↦ (hfield hx hy).nullable_eq
  have hprincipal : r.principal = s.principal := by
    have happ : r.principal.appId = s.principal.appId := hstring (k := js "appId")
      (by simp [fingerprintFields]) (by simp [fingerprintFields])
    have htenant : r.principal.tenantId = s.principal.tenantId := hstring (k := js "tenantId")
      (by simp [fingerprintFields]) (by simp [fingerprintFields])
    have huser : r.principal.userId = s.principal.userId := hstring (k := js "userId")
      (by simp [fingerprintFields]) (by simp [fingerprintFields])
    cases hr : r.principal
    cases hs : s.principal
    simp only [hr, hs] at happ htenant huser
    rw [happ, htenant, huser]
  have hconnection : truthy r.providerConnectionId = truthy s.providerConnectionId := by
    -- a connection named by one request is named by the other
    have hnamed : ∀ {r s : InternalStartRunRequest},
        SameJson (.object r.fingerprintFields) (.object s.fingerprintFields) →
        ∀ c, truthy r.providerConnectionId = some c → truthy s.providerConnectionId = some c := by
      intro r s hsame c hc
      obtain ⟨y, hy, hcy⟩ := hsame.exists_field (connection_mem.mpr ⟨c, hc, rfl⟩)
      obtain ⟨c', hc', rfl⟩ := connection_mem.mp hy
      rw [hc', hcy.string_eq]
    exact Option.ext fun c ↦ ⟨hnamed h c, hnamed h' c⟩
  have hbudget : r.budget = s.budget := by
    have hsame := hfield (k := js "budget")
      (x := (r.budget.map fun b ↦ JsValue.object b.fields).getD .null)
      (y := (s.budget.map fun b ↦ JsValue.object b.fields).getD .null)
      (by simp [fingerprintFields]) (by simp [fingerprintFields])
    have hsame' := h'.field (k := js "budget") r.fingerprintFields_keys_nodup
      (x := (s.budget.map fun b ↦ JsValue.object b.fields).getD .null)
      (y := (r.budget.map fun b ↦ JsValue.object b.fields).getD .null)
      (by simp [fingerprintFields]) (by simp [fingerprintFields])
    cases hr : r.budget with
    | none =>
      cases hs : s.budget with
      | none => rfl
      | some c =>
        rw [hr, hs] at hsame
        cases hsame
    | some b =>
      cases hs : s.budget with
      | none =>
        rw [hr, hs] at hsame
        cases hsame
      | some c =>
        rw [hr, hs] at hsame hsame'
        exact congrArg some (RunBudgetOverrides.eq_of_same hsame hsame')
  have hdepth : ((r.depth.getD 0 : ℤ) : ℚ) = ((s.depth.getD 0 : ℤ) : ℚ) :=
    (hfield (k := js "depth") (by simp [fingerprintFields])
      (by simp [fingerprintFields])).finite_eq
  have hdelivery : r.deliveryAllowed.getD true = s.deliveryAllowed.getD true := by
    have hsame := hfield (k := js "deliveryAllowed") (x := .bool (r.deliveryAllowed.getD true))
      (y := .bool (s.deliveryAllowed.getD true)) (by simp [fingerprintFields])
      (by simp [fingerprintFields])
    generalize r.deliveryAllowed.getD true = d at hsame
    generalize s.deliveryAllowed.getD true = e at hsame
    cases hsame
    rfl
  refine ⟨hprincipal, hstring (k := js "agent") ?_ ?_, hstring (k := js "workspace") ?_ ?_,
    hnullable (k := js "session") ?_ ?_, hconnection, hstring (k := js "input") ?_ ?_, hbudget,
    hnullable (k := js "parentRunId") ?_ ?_, Rat.intCast_inj.mp hdepth, hdelivery⟩
  all_goals simp [fingerprintFields]

theorem fingerprintFields_congr {r s : InternalStartRunRequest} (h : SameRequest r s) :
    r.fingerprintFields = s.fingerprintFields := by
  rw [fingerprintFields, fingerprintFields, h.principal, h.agent, h.workspace, h.session,
    h.providerConnectionId, h.input, h.budget, h.parentRunId, h.depth, h.deliveryAllowed]

end InternalStartRunRequest

/-- **The fingerprint tells requests apart** by what they ask for. -/
theorem Platform.requestFingerprint_eq_iff (P : Platform) (r s : InternalStartRunRequest) :
    P.requestFingerprint r = P.requestFingerprint s ↔ SameRequest r s := by
  rw [requestFingerprint, requestFingerprint, P.sha256_injective.eq_iff]
  constructor
  · intro h
    exact InternalStartRunRequest.same_of_sameJson
      ((P.render_eq_iff r.fingerprintFields_isJson s.fingerprintFields_isJson).mp h)
      ((P.render_eq_iff s.fingerprintFields_isJson r.fingerprintFields_isJson).mp h.symm)
  · intro h
    rw [InternalStartRunRequest.fingerprintFields_congr h]

namespace Store

/-! ## Histories -/

theorem after_concat (P : Platform) (S : Store) (history : List StoreOp) (op : StoreOp) :
    S.after P (history ++ [op]) = op.apply P (S.after P history) := by
  rw [after, List.foldl_append]
  rfl

/-- A call of the history returned the run for the request. -/
def Returned (P : Platform) (history : List StoreOp) (request : InternalStartRunRequest)
    (run : RunRecord) : Prop :=
  ∃ before now fresh id later created S',
    history = before ++ .createOrGetRun now fresh id request :: later ∧
    (createOrGetRun P now fresh id request).run (Store.after P {} before)
      = (.ok (run, created), S')

theorem Returned.concat {P : Platform} {history : List StoreOp}
    {request : InternalStartRunRequest} {run : RunRecord} (h : Returned P history request run)
    (op : StoreOp) : Returned P (history ++ [op]) request run := by
  obtain ⟨before, now, fresh, id, later, created, S', rfl, hcall⟩ := h
  refine ⟨before, now, fresh, id, later ++ [op], created, S', ?_, hcall⟩
  rw [List.append_assoc, List.cons_append]

/-- What the query for an earlier run goes by. -/
abbrev scope (run : RunRow.Registration) : JsString × JsString × JsString :=
  (run.owner.appId, run.owner.tenantId, run.idempotencyKey)

/-- The run was created for the request. -/
structure Answers (P : Platform) (run : RunRow.Registration) (request : InternalStartRunRequest) :
    Prop where
  owner : run.owner = request.principal
  key : run.idempotencyKey = scopedIdempotencyKey request.principal.userId request.idempotencyKey
  fingerprint : run.requestFingerprint = P.requestFingerprint request

theorem Answers.scope_eq {P : Platform} {run : RunRow.Registration}
    {request : InternalStartRunRequest} (h : Answers P run request) :
    scope run = (request.principal.appId, request.principal.tenantId,
      scopedIdempotencyKey request.principal.userId request.idempotencyKey) := by
  rw [scope, h.owner, h.key]

/-- The scopes of two runs differ, and each run was returned for a request of its owner. -/
structure OncePerKey (P : Platform) (history : List StoreOp) (S : Store) : Prop where
  apart : (S.registrations.map scope).Nodup
  answers : ∀ run ∈ S.registrations, ∃ request record, Returned P history request record ∧
    record.id = run.id ∧ Answers P run request

/-- A row the query finds has the scope that was asked for. -/
theorem existingRun_some {S : Store} {principal : ResourceOwner} {key : JsString} {row : RunRow}
    (h : S.existingRun principal key = some row) :
    row ∈ S.runs ∧ scope row.registration = (principal.appId, principal.tenantId, key) := by
  have hcond := List.find?_some h
  simp only [decide_eq_true_eq] at hcond
  refine ⟨List.mem_of_find?_eq_some h, ?_⟩
  rw [← hcond.1, ← hcond.2.1, ← hcond.2.2]
  rfl

theorem existingRun_none {S : Store} {principal : ResourceOwner} {key : JsString}
    (h : S.existingRun principal key = none) :
    ∀ run ∈ S.registrations, scope run ≠ (principal.appId, principal.tenantId, key) := by
  intro run hrun heq
  obtain ⟨row, hrow, rfl⟩ := List.mem_map.mp hrun
  obtain ⟨happ, hrest⟩ := Prod.mk.inj heq
  obtain ⟨htenant, hkey⟩ := Prod.mk.inj hrest
  have hnot := List.find?_eq_none.mp h row hrow
  simp only [decide_eq_true_eq] at hnot
  exact hnot ⟨happ, htenant, hkey⟩

section Key

variable {P : Platform} {history : List StoreOp} {S : Store} {request : InternalStartRunRequest}

/-- A row under the caller's key is the caller's, whatever keys others use. -/
theorem OncePerKey.owner_eq (h : OncePerKey P history S) {run : RunRow.Registration}
    (hrun : run ∈ S.registrations)
    (hscope : scope run = (request.principal.appId, request.principal.tenantId,
      scopedIdempotencyKey request.principal.userId request.idempotencyKey)) :
    ∃ earlier record, Returned P history earlier record ∧ record.id = run.id ∧
      Answers P run earlier ∧ earlier.principal = request.principal ∧
      earlier.idempotencyKey = request.idempotencyKey := by
  obtain ⟨earlier, record, hreturned, hid, hanswers⟩ := h.answers run hrun
  obtain ⟨happ, hrest⟩ := Prod.mk.inj (hanswers.scope_eq.symm.trans hscope)
  obtain ⟨htenant, hscoped⟩ := Prod.mk.inj hrest
  obtain ⟨huser, hkey⟩ := scopedIdempotencyKey_inj hscoped
  refine ⟨earlier, record, hreturned, hid, hanswers, ?_, hkey⟩
  cases hp : earlier.principal
  cases hq : request.principal
  simp only [hp, hq] at happ htenant huser
  rw [happ, htenant, huser]

/-- A call that returns leaves the run registered for its request. -/
theorem OncePerKey.registered (h : OncePerKey P history S) {now : ℤ} {fresh : FreshInternalIds}
    {id : JsString} {record : RunRecord} {created : Bool} {S' : Store}
    (hcall : (createOrGetRun P now fresh id request).run S = (.ok (record, created), S')) :
    ∃ run ∈ S'.registrations, record.id = run.id ∧ Answers P run request := by
  have hcases := createOrGetRun_cases P now fresh id request S
  split at hcases
  · rename_i existing hexisting
    obtain ⟨hmem, hscope⟩ := existingRun_some hexisting
    split_ifs at hcases with hfingerprint
    · obtain ⟨hresult, rfl⟩ := Prod.mk.inj (hcall.symm.trans hcases)
      obtain ⟨rfl, -⟩ := Prod.mk.inj (Except.ok.inj hresult)
      obtain ⟨earlier, _, -, -, hanswers, hprincipal, hkey⟩ :=
        h.owner_eq (mem_registrations hmem) hscope
      refine ⟨_, mem_registrations hmem, rfl, hanswers.owner.trans hprincipal, ?_, hfingerprint⟩
      rw [hanswers.key, hprincipal, hkey]
    · exact absurd (hcall.symm.trans hcases) (by simp)
  · rw [hcases, transaction_eq_ok_iff] at hcall
    obtain ⟨row, _, hrow, hpure⟩ := bind_eq_ok_iff.mp hcall
    obtain ⟨hresult, rfl⟩ := pure_eq_ok_iff.mp hpure
    obtain ⟨rfl, -⟩ := Prod.mk.inj hresult
    obtain ⟨_, _, _, rfl, hadmitted⟩ := createRun_admitted hrow
    refine ⟨_, hadmitted.registrations ▸ List.mem_append_right _ (List.mem_singleton.mpr rfl), rfl,
      rfl, rfl, rfl⟩

/-- A call registers nothing, or the run it returned under a scope that was free. -/
theorem createOrGetRun_registrations (P : Platform) (history : List StoreOp) (now : ℤ)
    (fresh : FreshInternalIds) (id : JsString) (request : InternalStartRunRequest) :
    let S := Store.after P {} history
    let op : StoreOp := .createOrGetRun now fresh id request
    (op.apply P S).registrations = S.registrations ∨
    ∃ run record, (op.apply P S).registrations = S.registrations ++ [run] ∧
      Returned P (history ++ [op]) request record ∧ record.id = run.id ∧ Answers P run request ∧
      scope run ∉ S.registrations.map scope := by
  intro S op
  rcases hrun : (op.call P).run S with ⟨e | u, S'⟩
  · rw [StoreOp.apply, hrun]
    exact Or.inl (congrArg registrations (StoreOp.call_atomic P _ _ e S' hrun))
  rw [StoreOp.apply, hrun]
  obtain ⟨⟨record, created⟩, hcall⟩ := discard_eq_ok hrun
  have hcases := createOrGetRun_cases P now fresh id request S
  split at hcases
  · split_ifs at hcases
    · exact Or.inl (congrArg (registrations ∘ Prod.snd) (hcall.symm.trans hcases))
    · exact absurd (hcall.symm.trans hcases) (by simp)
  · rename_i hnone
    have hreturned : Returned P (history ++ [op]) request record :=
      ⟨history, now, fresh, id, [], created, S', rfl, hcall⟩
    rw [hcases, transaction_eq_ok_iff] at hcall
    obtain ⟨row, _, hrow, hpure⟩ := bind_eq_ok_iff.mp hcall
    obtain ⟨hresult, rfl⟩ := pure_eq_ok_iff.mp hpure
    obtain ⟨rfl, -⟩ := Prod.mk.inj hresult
    obtain ⟨_, _, _, rfl, hadmitted⟩ := createRun_admitted hrow
    refine Or.inr ⟨_, _, hadmitted.registrations, hreturned, rfl, ⟨rfl, rfl, rfl⟩, fun hmem ↦ ?_⟩
    obtain ⟨other, hother, heq⟩ := List.mem_map.mp hmem
    exact existingRun_none hnone other hother heq

/-- No other operation registers a run. -/
theorem registrations_apply (S : Store) {op : StoreOp}
    (hop : ∀ now fresh id request, op ≠ .createOrGetRun now fresh id request) :
    (op.apply P S).registrations = S.registrations := by
  rcases op.registers P S with heq | hregisters
  · rw [heq]
  · generalize op.apply P S = S' at hregisters
    cases hregisters with
    | quiet hruns => exact hruns
    | created => exact absurd rfl (hop _ _ _ _)
    | _ => rfl

/-- **Keys stay apart**, and every run answers a request that was made, after any history. -/
theorem after_oncePerKey (P : Platform) (history : List StoreOp) :
    OncePerKey P history (Store.after P {} history) := by
  induction history using List.reverseRecOn with
  | nil => exact ⟨List.nodup_nil, fun _ h ↦ absurd h List.not_mem_nil⟩
  | append_singleton history op ih =>
    rw [after_concat]
    have hsame : (op.apply P (Store.after P {} history)).registrations
        = (Store.after P {} history).registrations →
        OncePerKey P (history ++ [op]) (op.apply P (Store.after P {} history)) := by
      intro heq
      refine ⟨heq ▸ ih.apart, fun run hrun ↦ ?_⟩
      obtain ⟨request, record, hreturned, hanswers⟩ := ih.answers run (heq ▸ hrun)
      exact ⟨request, record, hreturned.concat op, hanswers⟩
    by_cases hop : ∃ now fresh id request, op = .createOrGetRun now fresh id request
    · obtain ⟨now, fresh, id, request, rfl⟩ := hop
      rcases createOrGetRun_registrations P history now fresh id request with
        heq | ⟨run, record, heq, hreturned, hid, hanswers, hfree⟩
      · exact hsame heq
      · refine ⟨?_, fun other hother ↦ ?_⟩
        · rw [heq]
          exact Table.nodup_append_fresh ih.apart fun r hr hscope ↦
            hfree (List.mem_map.mpr ⟨r, hr, hscope⟩)
        · rw [heq] at hother
          rcases List.mem_append.mp hother with hother | hother
          · obtain ⟨earlier, earlierRecord, hearlier, hrest⟩ := ih.answers other hother
            exact ⟨earlier, earlierRecord, hearlier.concat _, hrest⟩
          · obtain rfl := List.mem_singleton.mp hother
            exact ⟨request, record, hreturned, hid, hanswers⟩
    · refine hsame (registrations_apply _ fun now fresh id request heq ↦ hop ?_)
      exact ⟨now, fresh, id, request, heq⟩

/-- Registrations stay. -/
theorem registrations_mono (P : Platform) (history : List StoreOp) (later : List StoreOp) :
    (Store.after P {} history).registrations
      ⊆ (Store.after P {} (history ++ later)).registrations := by
  induction later using List.reverseRecOn with
  | nil => rw [List.append_nil]
           exact List.Subset.refl _
  | append_singleton later op ih =>
    rw [← List.append_assoc, after_concat]
    refine List.Subset.trans ih ?_
    by_cases hop : ∃ now fresh id request, op = .createOrGetRun now fresh id request
    · obtain ⟨now, fresh, id, request, rfl⟩ := hop
      rcases createOrGetRun_registrations P (history ++ later) now fresh id request with
        heq | ⟨run, record, heq, -⟩
      · rw [heq]
        exact List.Subset.refl _
      · rw [heq]
        exact List.subset_append_left _ _
    · rw [registrations_apply _ fun now fresh id request heq ↦ hop ⟨now, fresh, id, request, heq⟩]
      exact List.Subset.refl _

/-- The run a call returned is there ever after. -/
theorem Returned.registered (h : Returned P history request record) :
    ∃ run ∈ (Store.after P {} history).registrations, record.id = run.id ∧ Answers P run request := by
  obtain ⟨before, now, fresh, id, later, created, S', rfl, hcall⟩ := h
  obtain ⟨run, hrun, hid, hanswers⟩ := (after_oncePerKey P before).registered hcall
  refine ⟨run, ?_, hid, hanswers⟩
  have happly : S' = StoreOp.apply P (.createOrGetRun now fresh id request)
      (Store.after P {} before) := by
    rw [StoreOp.apply, StoreOp.call, run_bind_of_ok hcall]
    rfl
  have hmono := registrations_mono P (before ++ [.createOrGetRun now fresh id request]) later
  rw [after_concat, ← happly, List.append_assoc, List.singleton_append] at hmono
  exact hmono hrun

end Key

/-! ## The guarantee -/

/-- The query finds the run that a key belongs to. -/
theorem existingRun_of_registered {P : Platform} {history : List StoreOp}
    {request earlier : InternalStartRunRequest} {run : RunRow.Registration}
    (hrun : run ∈ (Store.after P {} history).registrations) (hanswers : Answers P run earlier)
    (hprincipal : request.principal = earlier.principal)
    (hkey : request.idempotencyKey = earlier.idempotencyKey) :
    ∃ row, (Store.after P {} history).existingRun request.principal
        (scopedIdempotencyKey request.principal.userId request.idempotencyKey) = some row ∧
      row.registration = run ∧ (Store.after P {} history).run? run.id = some row := by
  have hscope : scope run = (request.principal.appId, request.principal.tenantId,
      scopedIdempotencyKey request.principal.userId request.idempotencyKey) := by
    rw [hanswers.scope_eq, hprincipal, hkey]
  cases hexisting : (Store.after P {} history).existingRun request.principal
      (scopedIdempotencyKey request.principal.userId request.idempotencyKey) with
  | none => exact absurd hscope (existingRun_none hexisting run hrun)
  | some row =>
    obtain ⟨hmem, hrow⟩ := existingRun_some hexisting
    have hsame : row.registration = run :=
      List.inj_on_of_nodup_map (after_oncePerKey P history).apart (mem_registrations hmem) hrun
        (hrow.trans hscope.symm)
    have hids : ((Store.after P {} history).runs.map RunRow.id).Nodup := by
      have hmap : (Store.after P {} history).registrations.map RunRow.Registration.id
          = (Store.after P {} history).runs.map RunRow.id := List.map_map
      exact hmap ▸ (after_linked P history).runIds
    refine ⟨row, rfl, hsame, ?_⟩
    rw [← hsame]
    exact run?_of_mem hids hmem

/-- A request that may create what it names. -/
def creatingRequest : InternalStartRunRequest where
  agent := js "agent"
  workspace := js "workspace"
  input := js "hello"
  idempotencyKey := js "key"
  principal := ⟨js "app", js "tenant", js "user"⟩

/-- The same request, which may not. -/
def nonCreatingRequest : InternalStartRunRequest :=
  { creatingRequest with createIfMissing := some false }

end Store

end LiteHarness
