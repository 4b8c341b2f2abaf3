import LiteHarness.Domain.Records
import LiteHarness.Foundation.Suspension

/-!
# Failed authentications

The gateway counts the failed authentications of an address and refuses its requests while there are
too many of them. The count starts a window of time; what is counted before is forgotten when the
window has passed, or when a valid token was presented.

A request is let through to the check of its token by the count it finds, and is counted when the
check is over; in between other requests arrive. Beside the state it is noted how many wrong tokens
of an address were checked in the window that is open.
-/

namespace LiteHarness.Gateway

open Foundation

/-- The limit and the window, as the gateway accepts them. -/
structure AuthLimits where
  authFailureLimit : ℕ
  authFailureWindowMs : ℤ
  limit_pos : 1 ≤ authFailureLimit
  window_ge : 1000 ≤ authFailureWindowMs

/-- An entry of `authFailures`. -/
structure AuthFailures where
  count : ℕ
  startedAt : ℤ
  deriving DecidableEq

/-- A request whose token is being checked. -/
structure AuthRequest where
  number : ℕ
  failureKey : JsString
  token : JsString
  deriving DecidableEq

/-- What a request is refused with: status 429 or status 401. -/
inductive AuthRefusal where
  | rateLimited
  | unauthorized
  deriving DecidableEq

/-- `bearerToken`. -/
def bearerToken (header : Option JsString) : Option JsString :=
  header.bind fun h ↦
    if ¬(js "Bearer ").isPrefixOf h then none
    else
      let token := h.drop 7
      if 16 ≤ token.length ∧ token.length ≤ 4096 ∧ ∀ u ∈ token, u ≠ 13 ∧ u ≠ 10 ∧ u ≠ 0 then
        some token
      else none

/-- The routes that need no token. -/
def isOpenRoute (url : JsString) : Bool :=
  url == js "/healthz" || url == js "/readyz" || (js "/hooks/").isPrefixOf url

/-- The gateway in front of its handlers. -/
structure AuthGate where
  authFailures : JsString → Option AuthFailures := fun _ ↦ none
  /-- The requests whose token is being checked. -/
  checking : List AuthRequest := []
  /-- The requests that arrived. -/
  requests : ℕ := 0
  refused : List (ℕ × AuthRefusal) := []
  /-- The requests that went on to a handler. -/
  handled : List ℕ := []
  /-- The wrong tokens of an address that were checked in its window. -/
  wrong : JsString → ℕ := fun _ ↦ 0

namespace AuthGate

variable (L : AuthLimits) (s : AuthGate)

/-- The window of the entry has passed. -/
def Stale (now : ℤ) (entry : AuthFailures) : Prop := L.authFailureWindowMs ≤ now - entry.startedAt

instance (now : ℤ) (entry : AuthFailures) : Decidable (Stale L now entry) :=
  inferInstanceAs (Decidable (_ ≤ _))

/-- The entry of an address is removed. -/
def forget (key : JsString) : AuthGate :=
  { s with
    authFailures := Function.update s.authFailures key none
    wrong := Function.update s.wrong key 0 }

/-- `isAuthRateLimited`. -/
def isAuthRateLimited (now : ℤ) (key : JsString) : Bool × AuthGate :=
  match s.authFailures key with
  | none => (false, s)
  | some current =>
    if Stale L now current then (false, s.forget key)
    else (L.authFailureLimit ≤ current.count, s)

/-- `recordAuthFailure`, where `checked` tells whether a token was checked. -/
def recordAuthFailure (now : ℤ) (key : JsString) (checked : Bool) : Bool × AuthGate :=
  let tokens := if checked then 1 else 0
  let fresh : AuthFailures × ℕ := (⟨1, now⟩, tokens)
  let next : AuthFailures × ℕ :=
    match s.authFailures key with
    | none => fresh
    | some current =>
      if Stale L now current then fresh
      else (⟨current.count + 1, current.startedAt⟩, s.wrong key + tokens)
  (L.authFailureLimit ≤ next.1.count,
    { s with
      authFailures := Function.update s.authFailures key (some next.1)
      wrong := Function.update s.wrong key next.2 })

/-- A request is refused. -/
def refuse (number : ℕ) (limited : Bool) : AuthGate :=
  { s with
    refused := s.refused ++ [(number, if limited then .rateLimited else .unauthorized)] }

/-- A failed authentication is counted, and its request refused. -/
def failed (now : ℤ) (number : ℕ) (key : JsString) (checked : Bool) : AuthGate :=
  ((s.recordAuthFailure L now key checked).2).refuse number
    (s.recordAuthFailure L now key checked).1

/-- The hook up to the check of the token. The clock is read a second time when a failure is
counted. -/
def arrive (now later : ℤ) (url key : JsString) (authorization : Option JsString) : AuthGate :=
  let number := s.requests
  let s := { s with requests := s.requests + 1 }
  if isOpenRoute url then { s with handled := s.handled ++ [number] }
  else
    let limited := s.isAuthRateLimited L now key
    if limited.1 then limited.2.refuse number true
    else
      match bearerToken authorization with
      | none => limited.2.failed L later number key false
      | some token =>
        { limited.2 with checking := limited.2.checking ++ [⟨number, key, token⟩] }

/-- The check of a token is over. It yields a principal, or it does not, or it throws. -/
def finish (now : ℤ) (request : AuthRequest) (principal : Option ResourceOwner) : AuthGate :=
  let s := { s with checking := s.checking.filter fun r ↦ r.number ≠ request.number }
  match principal with
  | some _ => { s.forget request.failureKey with handled := s.handled ++ [request.number] }
  | none => s.failed L now request.number request.failureKey true

end AuthGate

/-- What can happen to the gate. -/
inductive AuthInput where
  | arrives (now later : ℤ) (url key : JsString) (authorization : Option JsString)
  | checked (now : ℤ) (number : ℕ) (principal : Option ResourceOwner)

namespace AuthGate

variable (L : AuthLimits)

/-- The request with the number whose token is being checked. -/
def request? (s : AuthGate) (number : ℕ) : Option AuthRequest :=
  Table.lookup AuthRequest.number number s.checking

def step (s : AuthGate) : AuthInput → AuthGate
  | .arrives now later url key authorization => s.arrive L now later url key authorization
  | .checked now number principal =>
    match s.request? number with
    | none => s
    | some request => s.finish L now request principal

/-- The gate after some inputs. -/
def after (inputs : List AuthInput) : AuthGate := inputs.foldl (step L) {}

/-! ## What is right about the gate -/

/-- No more wrong tokens of an address are checked in a window than the limit says, and when so many
failures are counted its requests are refused; who is refused is not handled; and when the window
has passed a valid token leads to a handler. -/
structure Sound (s : AuthGate) : Prop where
  bounded : ∀ key, s.wrong key ≤ L.authFailureLimit
  limited : ∀ key, ∀ entry ∈ s.authFailures key, L.authFailureLimit ≤ entry.count →
    ∀ now later url authorization, ¬Stale L now entry → isOpenRoute url = false →
      (s.arrive L now later url key authorization).refused =
        s.refused ++ [(s.requests, .rateLimited)] ∧
      (s.arrive L now later url key authorization).checking = s.checking
  refused : ∀ r ∈ s.refused, r.1 ∉ s.handled
  recovers : ∀ key now, (∀ entry ∈ s.authFailures key, Stale L now entry) →
    ∀ later url authorization token, bearerToken authorization = some token →
      ∀ now' principal, s.requests ∈ (step L (step L s (.arrives now later url key authorization))
        (.checked now' s.requests (some principal))).handled

/-- The failures that count against an address. -/
def counted (s : AuthGate) (now : ℤ) (key : JsString) : ℕ :=
  match s.authFailures key with
  | none => 0
  | some entry => if Stale L now entry then 0 else entry.count

/-- The tokens of an address that are being checked. -/
def inCheck (s : AuthGate) (key : JsString) : ℕ :=
  s.checking.countP fun r ↦ r.failureKey = key

/-- **The condition**: a request whose token will be checked finds fewer failures and tokens in
check of its address than the limit. -/
def Orderly (s : AuthGate) : AuthInput → Prop
  | .arrives now _ url key authorization =>
    isOpenRoute url = false → bearerToken authorization ≠ none →
      s.counted L now key < L.authFailureLimit →
        s.counted L now key + s.inCheck key < L.authFailureLimit
  | .checked .. => True

instance : ∀ (s : AuthGate) i, Decidable (s.Orderly L i)
  | _, .arrives .. => inferInstanceAs (Decidable (_ → _ → _ → _))
  | _, .checked .. => isTrue trivial

/-! ## Counting -/

variable {L} {s : AuthGate}

/-- The wrong tokens of an address were counted, and with those in check they keep to the limit. -/
structure Counting (L : AuthLimits) (s : AuthGate) : Prop where
  wrong_le : ∀ key, s.wrong key ≤ ((s.authFailures key).map AuthFailures.count).getD 0
  total : ∀ key, s.wrong key + s.inCheck key ≤ L.authFailureLimit

theorem Counting.forget (h : Counting L s) (key : JsString) : Counting L (s.forget key) := by
  have hwrong (key' : JsString) : (s.forget key).wrong key' =
      if key' = key then 0 else s.wrong key' := Function.update_apply ..
  refine ⟨fun key' ↦ ?_, fun key' ↦ ?_⟩
  · rw [hwrong]
    by_cases heq : key' = key
    · rw [if_pos heq]
      exact Nat.zero_le _
    · have hentry : (s.forget key).authFailures key' = s.authFailures key' :=
        Function.update_of_ne heq ..
      rw [if_neg heq, hentry]
      exact h.wrong_le key'
  · have htotal : s.wrong key' + (s.forget key).inCheck key' ≤ L.authFailureLimit := h.total key'
    rw [hwrong]
    split_ifs <;> omega

/-- The test of the limit lets through who has fewer failures counted, and leaves no more than these
in the entry. -/
theorem isAuthRateLimited_spec (h : Counting L s) (now : ℤ) (key : JsString) :
    (s.isAuthRateLimited L now key).1 = decide (L.authFailureLimit ≤ s.counted L now key) ∧
      Counting L (s.isAuthRateLimited L now key).2 ∧
      (s.isAuthRateLimited L now key).2.wrong key ≤ s.counted L now key := by
  have hle := h.wrong_le key
  have hpos : ¬L.authFailureLimit ≤ 0 := not_le.mpr L.limit_pos
  rcases hentry : s.authFailures key with _ | entry
  · have hcounted : s.counted L now key = 0 := by rw [counted, hentry]
    have hlimited : s.isAuthRateLimited L now key = (false, s) := by
      rw [AuthGate.isAuthRateLimited, hentry]
    rw [hentry] at hle
    rw [hcounted, hlimited]
    exact ⟨(decide_eq_false hpos).symm, h, hle⟩
  · by_cases hstale : Stale L now entry
    · have hcounted : s.counted L now key = 0 := by rw [counted, hentry]; exact if_pos hstale
      have hlimited : s.isAuthRateLimited L now key = (false, s.forget key) := by
        rw [AuthGate.isAuthRateLimited, hentry]
        exact if_pos hstale
      rw [hcounted, hlimited]
      exact ⟨(decide_eq_false hpos).symm, h.forget key, (Function.update_self ..).le⟩
    · have hcounted : s.counted L now key = entry.count := by
        rw [counted, hentry]
        exact if_neg hstale
      have hlimited : s.isAuthRateLimited L now key =
          (decide (L.authFailureLimit ≤ entry.count), s) := by
        rw [AuthGate.isAuthRateLimited, hentry]
        exact if_neg hstale
      rw [hentry] at hle
      rw [hcounted, hlimited]
      exact ⟨rfl, h, hle⟩

/-- Counting a failure adds at most the token that was checked. -/
theorem Counting.record (h : Counting L s) (now : ℤ) (key : JsString) (checked : Bool)
    (hroom : s.wrong key + (if checked then 1 else 0) + s.inCheck key ≤ L.authFailureLimit) :
    Counting L (s.recordAuthFailure L now key checked).2 := by
  have hle := h.wrong_le key
  rw [recordAuthFailure]
  generalize hnext : (match s.authFailures key with
    | none => ((⟨1, now⟩, if checked then 1 else 0) : AuthFailures × ℕ)
    | some current =>
      if Stale L now current then (⟨1, now⟩, if checked then 1 else 0)
      else (⟨current.count + 1, current.startedAt⟩,
        s.wrong key + if checked then 1 else 0)) = next
  have hspec : next.2 ≤ next.1.count ∧ next.2 ≤ s.wrong key + if checked then 1 else 0 := by
    rw [← hnext]
    rcases hentry : s.authFailures key with _ | entry
    · exact ⟨by dsimp only; split_ifs <;> omega, Nat.le_add_left _ _⟩
    · dsimp only
      rw [hentry] at hle
      simp only [Option.map_some, Option.getD_some] at hle
      by_cases hstale : Stale L now entry
      · rw [if_pos hstale]
        exact ⟨by dsimp only; split_ifs <;> omega, Nat.le_add_left _ _⟩
      · rw [if_neg hstale]
        exact ⟨by dsimp only; split_ifs <;> omega, le_rfl⟩
  refine ⟨fun key' ↦ ?_, fun key' ↦ ?_⟩
  · dsimp only
    by_cases heq : key' = key
    · rw [heq, Function.update_self, Function.update_self]
      exact hspec.1
    · rw [Function.update_of_ne heq, Function.update_of_ne heq]
      exact h.wrong_le key'
  · show Function.update s.wrong key next.2 key' + s.inCheck key' ≤ L.authFailureLimit
    by_cases heq : key' = key
    · rw [heq, Function.update_self]
      exact (Nat.add_le_add_right hspec.2 _).trans hroom
    · rw [Function.update_of_ne heq]
      exact h.total key'

/-! ## Numbering -/

/-- The requests in check, refused and handled are different ones, and all of them arrived. -/
structure Numbering (s : AuthGate) : Prop where
  numbers : (s.checking.map AuthRequest.number).Nodup
  checking : ∀ r ∈ s.checking, r.number < s.requests
  handled : ∀ n ∈ s.handled, n < s.requests
  refused : ∀ q ∈ s.refused, q.1 < s.requests
  apart : ∀ q ∈ s.refused, q.1 ∉ s.handled
  waiting : ∀ r ∈ s.checking, r.number ∉ s.handled ∧ ∀ q ∈ s.refused, q.1 ≠ r.number

/-- The two states differ in what is counted alone. -/
structure SameRequests (s t : AuthGate) : Prop where
  checking : t.checking = s.checking
  requests : t.requests = s.requests
  refused : t.refused = s.refused
  handled : t.handled = s.handled

theorem Numbering.same {t : AuthGate} (h : Numbering s) (hsame : SameRequests s t) :
    Numbering t := by
  obtain ⟨hchecking, hrequests, hrefused, hhandled⟩ := hsame
  constructor
  · exact hchecking ▸ h.numbers
  · exact hchecking ▸ hrequests ▸ h.checking
  · exact hhandled ▸ hrequests ▸ h.handled
  · exact hrefused ▸ hrequests ▸ h.refused
  · exact hrefused ▸ hhandled ▸ h.apart
  · exact hchecking ▸ hhandled ▸ hrefused ▸ h.waiting

theorem isAuthRateLimited_same (now : ℤ) (key : JsString) :
    SameRequests s (s.isAuthRateLimited L now key).2 := by
  rw [AuthGate.isAuthRateLimited]
  split
  · exact ⟨rfl, rfl, rfl, rfl⟩
  · split_ifs <;> exact ⟨rfl, rfl, rfl, rfl⟩

theorem recordAuthFailure_same (now : ℤ) (key : JsString) (checked : Bool) :
    SameRequests s (s.recordAuthFailure L now key checked).2 := ⟨rfl, rfl, rfl, rfl⟩

/-- A request that just arrived has a number of its own. -/
theorem Numbering.arrive (h : Numbering s) : Numbering { s with requests := s.requests + 1 } ∧
    (∀ r ∈ s.checking, r.number ≠ s.requests) ∧ s.requests ∉ s.handled ∧
    ∀ q ∈ s.refused, q.1 ≠ s.requests :=
  ⟨⟨h.numbers, fun r hr ↦ Nat.lt_succ_of_lt (h.checking r hr),
      fun n hn ↦ Nat.lt_succ_of_lt (h.handled n hn), fun q hq ↦ Nat.lt_succ_of_lt (h.refused q hq),
      h.apart, h.waiting⟩,
    fun r hr ↦ (h.checking r hr).ne, fun hn ↦ (h.handled _ hn).ne rfl,
    fun q hq ↦ (h.refused q hq).ne⟩

/-- A request that is neither in check nor handled is refused. -/
theorem Numbering.refuse (h : Numbering s) {number : ℕ} (hlt : number < s.requests)
    (hchecking : ∀ r ∈ s.checking, r.number ≠ number) (hhandled : number ∉ s.handled)
    (limited : Bool) : Numbering (s.refuse number limited) := by
  refine ⟨h.numbers, h.checking, h.handled, ?_, ?_, ?_⟩
  · intro q hq
    rcases List.mem_append.mp hq with hq | hq
    · exact h.refused q hq
    · rw [List.mem_singleton.mp hq]
      exact hlt
  · intro q hq
    rcases List.mem_append.mp hq with hq | hq
    · exact h.apart q hq
    · rw [List.mem_singleton.mp hq]
      exact hhandled
  · intro r hr
    refine ⟨(h.waiting r hr).1, fun q hq ↦ ?_⟩
    rcases List.mem_append.mp hq with hq | hq
    · exact (h.waiting r hr).2 q hq
    · rw [List.mem_singleton.mp hq]
      exact (hchecking r hr).symm

/-- A request that is neither in check nor refused is handled. -/
theorem Numbering.handle (h : Numbering s) {number : ℕ} (hlt : number < s.requests)
    (hchecking : ∀ r ∈ s.checking, r.number ≠ number) (hrefused : ∀ q ∈ s.refused, q.1 ≠ number) :
    Numbering { s with handled := s.handled ++ [number] } := by
  refine ⟨h.numbers, h.checking, ?_, h.refused, ?_, ?_⟩
  · intro n hn
    rcases List.mem_append.mp hn with hn | hn
    · exact h.handled n hn
    · rw [List.mem_singleton.mp hn]
      exact hlt
  · intro q hq hn
    rcases List.mem_append.mp hn with hn | hn
    · exact h.apart q hq hn
    · exact hrefused q hq (List.mem_singleton.mp hn)
  · intro r hr
    refine ⟨fun hn ↦ ?_, (h.waiting r hr).2⟩
    rcases List.mem_append.mp hn with hn | hn
    · exact (h.waiting r hr).1 hn
    · exact hchecking r hr (List.mem_singleton.mp hn)

/-- A request whose check is over is no longer in check. -/
theorem Numbering.release (h : Numbering s) (number : ℕ) :
    Numbering { s with checking := s.checking.filter fun r ↦ r.number ≠ number } :=
  ⟨h.numbers.sublist (List.filter_sublist.map _),
    fun r hr ↦ h.checking r (List.mem_of_mem_filter hr), h.handled, h.refused, h.apart,
    fun r hr ↦ h.waiting r (List.mem_of_mem_filter hr)⟩

/-! ## Runs -/

/-- The invariant of an orderly run. -/
structure Inv (L : AuthLimits) (s : AuthGate) : Prop where
  counting : Counting L s
  numbering : Numbering s

theorem inv_init : Inv L {} :=
  ⟨⟨fun _ ↦ le_rfl, fun _ ↦ Nat.zero_le _⟩,
    ⟨List.nodup_nil, fun _ h ↦ absurd h List.not_mem_nil, fun _ h ↦ absurd h List.not_mem_nil,
      fun _ h ↦ absurd h List.not_mem_nil, fun _ h ↦ absurd h List.not_mem_nil,
      fun _ h ↦ absurd h List.not_mem_nil⟩⟩

theorem Inv.arrive (h : Inv L s) (now later : ℤ) (url key : JsString)
    (authorization : Option JsString)
    (horderly : s.Orderly L (.arrives now later url key authorization)) :
    Inv L (s.arrive L now later url key authorization) := by
  have hcounting : Counting L { s with requests := s.requests + 1 } :=
    ⟨h.counting.wrong_le, h.counting.total⟩
  obtain ⟨hnumbering, hchecking, hhandled, hrefused⟩ := h.numbering.arrive
  rw [AuthGate.arrive]
  by_cases hopen : isOpenRoute url = true
  · rw [if_pos hopen]
    exact ⟨⟨h.counting.wrong_le, h.counting.total⟩,
      hnumbering.handle (Nat.lt_succ_self _) hchecking hrefused⟩
  rw [if_neg hopen]
  obtain ⟨hlimited, hafter, hwrong⟩ := isAuthRateLimited_spec hcounting now key
  have hsame := isAuthRateLimited_same (L := L) (s := { s with requests := s.requests + 1 }) now key
  dsimp only
  generalize AuthGate.isAuthRateLimited L { s with requests := s.requests + 1 } now key =
    result at *
  obtain ⟨limited, t⟩ := result
  obtain ⟨htchecking, htrequests, htrefused, hthandled⟩ := hsame
  have hnumbering' := hnumbering.same ⟨htchecking, htrequests, htrefused, hthandled⟩
  have hlt : s.requests < t.requests := htrequests ▸ Nat.lt_succ_self s.requests
  have hchecking' : ∀ r ∈ t.checking, r.number ≠ s.requests := htchecking ▸ hchecking
  have hhandled' : s.requests ∉ t.handled := hthandled ▸ hhandled
  by_cases hlim : limited = true
  · rw [if_pos hlim]
    exact ⟨⟨hafter.wrong_le, hafter.total⟩, hnumbering'.refuse hlt hchecking' hhandled' true⟩
  rw [if_neg hlim]
  rcases htoken : bearerToken authorization with _ | token
  · have hrecord := hafter.record later key false (hafter.total key)
    refine ⟨⟨hrecord.wrong_le, hrecord.total⟩, ?_⟩
    have hnumbering'' := hnumbering'.same (recordAuthFailure_same (L := L) later key false)
    exact hnumbering''.refuse hlt hchecking' hhandled' _
  · -- what was counted and what is in check leave room for one more token
    have hfew : s.counted L now key < L.authFailureLimit := by
      rw [Bool.not_eq_true] at hlim
      exact not_le.mp (of_decide_eq_false (hlimited.symm.trans hlim))
    have hroom := horderly (Bool.not_eq_true _ ▸ hopen) (htoken ▸ Option.some_ne_none token) hfew
    refine ⟨⟨hafter.wrong_le, fun key' ↦ ?_⟩, ?_⟩
    · have htotal := hafter.total key'
      show t.wrong key' + (t.checking ++ [_]).countP _ ≤ L.authFailureLimit
      rw [List.countP_append, List.countP_singleton]
      by_cases heq : key = key'
      · subst heq
        have hwrong' : t.wrong key ≤ s.counted L now key := hwrong
        have hsame : t.checking.countP (fun r ↦ r.failureKey = key) = s.inCheck key :=
          congrArg (List.countP _) htchecking
        rw [if_pos (decide_eq_true rfl), hsame, ← Nat.add_assoc]
        exact Nat.succ_le_of_lt ((Nat.add_le_add_right hwrong' _).trans_lt hroom)
      · rw [if_neg (by simpa using heq)]
        exact htotal
    · refine ⟨?_, ?_, hnumbering'.handled, hnumbering'.refused, hnumbering'.apart, ?_⟩
      · rw [List.map_append]
        refine hnumbering'.numbers.append (List.nodup_singleton _) ?_
        rw [List.map_singleton, List.disjoint_singleton]
        intro hmem
        obtain ⟨r, hr, heq⟩ := List.mem_map.mp hmem
        exact hchecking' r hr heq
      · intro r hr
        rcases List.mem_append.mp hr with hr | hr
        · exact hnumbering'.checking r hr
        · rw [List.mem_singleton.mp hr]
          exact hlt
      · intro r hr
        rcases List.mem_append.mp hr with hr | hr
        · exact hnumbering'.waiting r hr
        · rw [List.mem_singleton.mp hr]
          exact ⟨hhandled', htrefused ▸ hrefused⟩

/-- A token that is no longer in check leaves its place. -/
theorem countP_release {request : AuthRequest} (h : request ∈ s.checking) :
    (s.checking.filter fun r ↦ r.number ≠ request.number).countP
        (fun r ↦ r.failureKey = request.failureKey) + 1 ≤ s.inCheck request.failureKey := by
  rw [inCheck, List.countP_eq_countP_filter_add s.checking _ fun r ↦ r.number ≠ request.number]
  refine Nat.add_le_add_left (List.countP_pos_iff.mpr ⟨request, ?_, decide_eq_true rfl⟩) _
  exact List.mem_filter.mpr ⟨h, by simp⟩

theorem Inv.finish (h : Inv L s) (now : ℤ) {request : AuthRequest}
    (hrequest : request ∈ s.checking) (principal : Option ResourceOwner) :
    Inv L (s.finish L now request principal) := by
  have hcounting : Counting L
      { s with checking := s.checking.filter fun r ↦ r.number ≠ request.number } :=
    ⟨h.counting.wrong_le, fun key ↦
      (Nat.add_le_add_left List.filter_sublist.countP_le _).trans (h.counting.total key)⟩
  have hnumbering := h.numbering.release request.number
  have hlt := h.numbering.checking request hrequest
  have hchecking : ∀ r ∈ s.checking.filter fun r ↦ r.number ≠ request.number,
      r.number ≠ request.number := fun r hr ↦ of_decide_eq_true (List.mem_filter.mp hr).2
  obtain ⟨hhandled, hrefused⟩ := h.numbering.waiting request hrequest
  rcases principal with _ | principal
  · -- the token passes from those in check to those that were wrong
    have hroom : s.wrong request.failureKey + 1 + (s.checking.filter fun r ↦
        r.number ≠ request.number).countP (fun r ↦ r.failureKey = request.failureKey) ≤
          L.authFailureLimit := by
      have hrelease := countP_release hrequest
      have htotal := h.counting.total request.failureKey
      omega
    have hrecord := hcounting.record now request.failureKey true hroom
    refine ⟨⟨hrecord.wrong_le, hrecord.total⟩, ?_⟩
    exact (hnumbering.same (recordAuthFailure_same (L := L) now request.failureKey true)).refuse hlt
      hchecking hhandled _
  · have hforget := hcounting.forget request.failureKey
    have hsame : SameRequests
        { s with checking := s.checking.filter fun r ↦ r.number ≠ request.number }
        (AuthGate.forget { s with
          checking := s.checking.filter fun r ↦ r.number ≠ request.number }
          request.failureKey) := ⟨rfl, rfl, rfl, rfl⟩
    exact ⟨⟨hforget.wrong_le, hforget.total⟩,
      (hnumbering.same hsame).handle hlt hchecking hrefused⟩

theorem Inv.step (h : Inv L s) {input : AuthInput} (horderly : s.Orderly L input) :
    Inv L (step L s input) := by
  rcases input with ⟨now, later, url, key, authorization⟩ | ⟨now, number, principal⟩
  · exact h.arrive now later url key authorization horderly
  · rw [AuthGate.step]
    rcases hfound : s.request? number with _ | request
    · exact h
    · exact h.finish now (Table.mem_of_lookup hfound) principal

/-- An address whose window is open and full is refused. -/
theorem refused_of_full {key : JsString} {entry : AuthFailures}
    (hentry : s.authFailures key = some entry) (hfull : L.authFailureLimit ≤ entry.count)
    {now later : ℤ} {url : JsString} {authorization : Option JsString}
    (hstale : ¬Stale L now entry) (hurl : isOpenRoute url = false) :
    s.arrive L now later url key authorization =
      AuthGate.refuse { s with requests := s.requests + 1 } s.requests true := by
  have hlimited : AuthGate.isAuthRateLimited L { s with requests := s.requests + 1 } now key =
      (decide (L.authFailureLimit ≤ entry.count), { s with requests := s.requests + 1 }) := by
    rw [AuthGate.isAuthRateLimited, hentry]
    exact if_neg hstale
  rw [AuthGate.arrive, hurl, if_neg Bool.false_ne_true, hlimited]
  exact if_pos (decide_eq_true hfull)

/-- When the window has passed, a request with a valid token gets to its handler. -/
theorem handled_of_passed (h : Numbering s) {key : JsString} {now : ℤ}
    (hpassed : ∀ entry ∈ s.authFailures key, Stale L now entry) (later : ℤ) (url : JsString)
    {authorization : Option JsString} {token : JsString}
    (htoken : bearerToken authorization = some token) (now' : ℤ) (principal : ResourceOwner) :
    s.requests ∈ (AuthGate.step L (AuthGate.step L s (.arrives now later url key authorization))
      (.checked now' s.requests (some principal))).handled := by
  have hchecked {t : AuthGate} (hin : s.requests ∈ t.handled) :
      s.requests ∈ (AuthGate.step L t (.checked now' s.requests (some principal))).handled := by
    rw [AuthGate.step]
    rcases t.request? s.requests with _ | request
    · exact hin
    · exact List.mem_append_left _ hin
  by_cases hurl : isOpenRoute url = true
  · refine hchecked ?_
    rw [AuthGate.step, AuthGate.arrive, if_pos hurl]
    exact List.mem_append_right _ List.mem_cons_self
  have hlimited : (AuthGate.isAuthRateLimited L { s with requests := s.requests + 1 } now key).1 =
      false := by
    rw [AuthGate.isAuthRateLimited]
    split
    · rfl
    · rename_i entry hentry
      rw [if_pos (hpassed entry hentry)]
  have hsame := isAuthRateLimited_same (L := L) (s := { s with requests := s.requests + 1 }) now key
  have hfound : (AuthGate.step L s (.arrives now later url key authorization)).request? s.requests =
      some ⟨s.requests, key, token⟩ := by
    rw [AuthGate.step, AuthGate.arrive, if_neg hurl]
    dsimp only
    rw [hlimited, if_neg Bool.false_ne_true, htoken]
    dsimp only
    rw [request?, hsame.checking, Table.lookup_append, Table.lookup_eq_none_iff.mpr]
    · rw [Table.lookup_singleton, if_pos rfl]
      rfl
    · exact fun r hr ↦ (h.checking r hr).ne
  generalize AuthGate.step L s (.arrives now later url key authorization) = t at hfound ⊢
  rw [AuthGate.step, hfound]
  exact List.mem_append_right _ List.mem_cons_self

theorem Inv.sound (h : Inv L s) : Sound L s where
  bounded key := (Nat.le_add_right _ _).trans (h.counting.total key)
  limited key entry hentry hfull now later url authorization hstale hurl := by
    rw [refused_of_full hentry hfull hstale hurl]
    exact ⟨rfl, rfl⟩
  refused := h.numbering.apart
  recovers _ _ hpassed later url _ _ htoken :=
    handled_of_passed h.numbering hpassed later url htoken

/-- **The limit holds** in every state that an orderly run reaches. -/
theorem limit_of_orderly (inputs : List AuthInput)
    (h : Throughout (step L) (Orderly L) {} inputs) : Sound L (after L inputs) :=
  (Throughout.induction (p := Inv L) (fun _ _ hinv horderly ↦ hinv.step horderly) inv_init h).sound

/-- Two failures within a minute. -/
def twoFailures : AuthLimits := ⟨2, 60000, by decide, by decide⟩

/-- The header of a request with a token. -/
def someToken : Option JsString := some (js "Bearer 0123456789abcdef")

/-- Two wrong tokens one after the other, a request that is refused, and a valid token when the
window has passed. -/
def refusedThenValid : List AuthInput :=
  [.arrives 0 0 (js "/v1/runs") (js "10.0.0.1") someToken, .checked 5 0 none,
    .arrives 10 10 (js "/v1/runs") (js "10.0.0.1") someToken, .checked 15 1 none,
    .arrives 20 20 (js "/v1/runs") (js "10.0.0.1") someToken,
    .arrives 60005 60005 (js "/v1/runs") (js "10.0.0.1") someToken,
    .checked 60010 3 (some ⟨js "app", js "tenant", js "user"⟩)]

theorem limit_refusedThenValid :
    Throughout (step twoFailures) (Orderly twoFailures) {} refusedThenValid ∧
      Sound twoFailures (after twoFailures refusedThenValid) :=
  have horderly : Throughout (step twoFailures) (Orderly twoFailures) {} refusedThenValid := by
    decide +kernel
  ⟨horderly, limit_of_orderly refusedThenValid horderly⟩

/-- Three requests arrive before the first of their tokens is found to be wrong. -/
def together : List AuthInput :=
  [.arrives 0 0 (js "/v1/runs") (js "10.0.0.1") someToken,
    .arrives 0 0 (js "/v1/runs") (js "10.0.0.1") someToken,
    .arrives 0 0 (js "/v1/runs") (js "10.0.0.1") someToken,
    .checked 5 0 none, .checked 5 1 none, .checked 5 2 none]

/-- Three wrong tokens of one address are checked where the limit is two. -/
theorem over_limit_together : ¬Sound twoFailures (after twoFailures together) :=
  fun h ↦ absurd (h.bounded (js "10.0.0.1")) (by decide +kernel)

end AuthGate

end LiteHarness.Gateway
