import LiteHarness.Foundation.Alternatives
import LiteHarness.Provider.Models

/-!
# A turn of the routed gateway

`streamTurn` tries the routes of a plan in order. A route that fails with a retryable error before
anything of it became visible is followed by the next one. The surroundings of a turn (credentials,
adapters, the usage hook) are what they are: `Attempt` lists what they do while one route is tried,
and a stream may also be left running, with the turn seen up to there.
-/

namespace LiteHarness.Provider

open Foundation

/-! ## The gateway -/

/-- How the stream of an adapter goes on after its events. -/
inductive StreamEnding where
  | returns
  | throws (error : Thrown)
  | runs
  deriving DecidableEq

/-- What the surroundings do while one route is tried. -/
structure Attempt where
  credential : Except Thrown Unit := .ok ()
  events : List ProviderAdapterEvent := []
  ending : StreamEnding := .returns
  /-- The exception of the usage hook for an event of the stream. -/
  onUsage : ℕ → Option Thrown := fun _ ↦ none

/-- A gateway as a turn finds it. -/
structure RoutedModelGateway where
  /-- The providers with an adapter. -/
  adapters : List JsString
  /-- The attempt at a route of the plan. -/
  attempt : ℕ → Attempt

structure TurnParams where
  /-- The image URLs of each message. -/
  imageDataUrls : List (List JsString) := []
  /-- `JSON.stringify({ messages, tools })`. -/
  request : JsString
  context : Option ModelRunContext := none

/-- `estimateModelContextTokens`: a token for four characters, rounded up. -/
def estimateModelContextTokens (params : TurnParams) : ℕ := (params.request.length + 3) / 4

/-- What a turn does that can be seen. -/
inductive TurnAction where
  /-- The stream of an adapter starts. -/
  | started (route : ℕ)
  /-- The provider has accepted the request. -/
  | accepted (route : ℕ)
  | yielded (route : ℕ) (event : ModelEvent)

namespace TurnAction

def isStart : TurnAction → Bool
  | started _ => true
  | _ => false

def route : TurnAction → ℕ
  | started route | accepted route | yielded route _ => route

end TurnAction

/-- What the loop over a stream has done, whether the request became visible, and its exception. -/
structure Consumed where
  actions : List TurnAction
  externallyVisible : Bool
  thrown : Option Thrown

def Consumed.after (action : TurnAction) (consumed : Consumed) : Consumed :=
  { consumed with actions := action :: consumed.actions }

/-- The body of the loop over a stream, for its `k`-th event. -/
def onEvent (params : TurnParams) (model : ModelDescriptor) (onUsage : ℕ → Option Thrown)
    (route k : ℕ) : ProviderAdapterEvent → Except Thrown TurnAction
  | .requestAccepted => .ok (.accepted route)
  | .event (.usage usage) =>
    match withAuthoritativeCost usage model with
    | .error e => .error (.provider e)
    | .ok usage =>
      match if params.context.isSome then onUsage k else none with
      | some e => .error e
      | none => .ok (.yielded route (.usage usage))
  | .event event => .ok (.yielded route event)

/-- The loop over the events of a stream, from the `k`-th on. -/
def consume (params : TurnParams) (model : ModelDescriptor) (onUsage : ℕ → Option Thrown)
    (route : ℕ) : ℕ → Bool → List ProviderAdapterEvent → Consumed
  | _, externallyVisible, [] => ⟨[], externallyVisible, none⟩
  | k, externallyVisible, event :: rest =>
    let visible := externallyVisible || providerRequestBecameVisible event
    match onEvent params model onUsage route k event with
    | .error e => ⟨[], visible, some e⟩
    | .ok action => (consume params model onUsage route (k + 1) visible rest).after action

def contextLimitExceeded (params : TurnParams) (model : ModelDescriptor) : ProviderError :=
  ⟨js "context_limit_exceeded",
    js "Selected model context window " ++ decimal model.contextWindow ++
      js " tokens is smaller than the estimated request size of " ++
      decimal (estimateModelContextTokens params) ++ js " tokens", false⟩

def contextRecompileRequired : ProviderError :=
  ⟨js "context_recompile_required",
    js "An optical request must be recompiled from canonical text after selecting a fallback model",
    true⟩

def unknownModelPrice (model : ModelDescriptor) : ProviderError :=
  ⟨js "unknown_model_price",
    js "Model pricing is required by the run cost ceiling: " ++ model.id, false⟩

def adapterMissing (model : ModelDescriptor) : ProviderError :=
  ⟨js "adapter_missing", js "Provider adapter is unavailable: " ++ model.providerId, false⟩

def routeExhausted : ProviderError :=
  ⟨js "route_exhausted", js "Every provider route failed", true⟩

/-- The result of a turn; a turn whose stream is left running has none. -/
abbrev TurnResult := Option (Except Thrown Unit)

/-- The `catch` clause of the loop. -/
def caught (actions : List TurnAction) (externallyVisible : Bool) (error : Thrown) :
    Verdict TurnAction Thrown TurnResult :=
  if error.retryable = false ∨ externallyVisible = true then .decides actions (some (.error error))
  else .passes actions error

namespace RoutedModelGateway

variable (G : RoutedModelGateway) (params : TurnParams)

/-- The stream of a route, once its credential is there. -/
def streamRoute (r : ModelDescriptor × ℕ) : Verdict TurnAction Thrown TurnResult :=
  let attempt := G.attempt r.2
  let consumed := consume params r.1 attempt.onUsage r.2 0 false attempt.events
  let actions := .started r.2 :: consumed.actions
  match consumed.thrown, attempt.ending with
  | some e, _ => caught actions consumed.externallyVisible e
  | none, .throws e => caught actions consumed.externallyVisible e
  | none, .returns => .decides actions (some (.ok ()))
  | none, .runs => .decides actions none

/-- One pass of the loop over the routes. -/
def tryRoute (r : ModelDescriptor × ℕ) : Verdict TurnAction Thrown TurnResult :=
  if r.1.contextWindow < estimateModelContextTokens params then
    .decides [] (some (.error (.provider (contextLimitExceeded params r.1))))
  else if 0 < r.2 ∧ params.imageDataUrls.any (fun urls ↦ !urls.isEmpty) then
    .decides [] (some (.error (.provider contextRecompileRequired)))
  else if (params.context.bind ModelRunContext.maxCostUsd).isSome ∧
      hasKnownModelPricing r.1 = false then
    .passes [] (.provider (unknownModelPrice r.1))
  else if r.1.providerId ∉ G.adapters then .passes [] (.provider (adapterMissing r.1))
  else
    match (G.attempt r.2).credential with
    | .error e => caught [] false e
    | .ok _ => G.streamRoute params r

/-- `streamTurn`, once the plan is there. -/
def streamTurn (plan : RoutePlan) : List TurnAction × TurnResult :=
  tryEach (G.tryRoute params) (fun last ↦ some (.error (last.getD (.provider routeExhausted)))) none
    plan.routes.zipIdx

/-! ## What one route does -/

/-- The request may be sent to the model of this route. -/
def Fits (r : ModelDescriptor × ℕ) : Prop :=
  estimateModelContextTokens params ≤ r.1.contextWindow ∧
    (0 < r.2 → ∀ urls ∈ params.imageDataUrls, urls = [])

/-- The route is skipped. -/
def Skipped (r : ModelDescriptor × ℕ) : Prop :=
  ((params.context.bind ModelRunContext.maxCostUsd).isSome ∧ hasKnownModelPricing r.1 = false) ∨
    r.1.providerId ∉ G.adapters

/-- The stream of this route starts, if its turn comes. -/
def Starts (r : ModelDescriptor × ℕ) : Prop :=
  Fits params r ∧ ¬G.Skipped params r ∧ (G.attempt r.2).credential.isOk = true

/-- The stream fails with a retryable error, and none of its events counts as visible. -/
def FailsUnseen (r : ModelDescriptor × ℕ) : Prop :=
  (∀ event ∈ (G.attempt r.2).events, providerRequestBecameVisible event = false) ∧
    ∃ error, (G.attempt r.2).ending = .throws error ∧ error.retryable = true

/-- The route leaves the turn to the next one. -/
def PassesOn (r : ModelDescriptor × ℕ) : Prop :=
  Fits params r ∧ (G.Skipped params r ∨
    (∃ error, (G.attempt r.2).credential = .error error ∧ error.retryable = true) ∨
    (G.attempt r.2).credential.isOk = true ∧ G.FailsUnseen r)

/-! ### The loop over a stream -/

section consume

variable (params : TurnParams) (model : ModelDescriptor) (onUsage : ℕ → Option Thrown) (route : ℕ)

/-- An event is handled by an action of its own stream, which is no start. -/
theorem onEvent_own {params : TurnParams} {model : ModelDescriptor}
    {onUsage : ℕ → Option Thrown} {route : ℕ} {k : ℕ} {event : ProviderAdapterEvent} {action : TurnAction}
    (h : onEvent params model onUsage route k event = .ok action) :
    action.route = route ∧ action.isStart = false := by
  unfold onEvent at h
  split at h
  · obtain rfl := Except.ok.inj h
    exact ⟨rfl, rfl⟩
  · split at h
    · exact absurd h (by simp)
    · split at h
      · exact absurd h (by simp)
      · obtain rfl := Except.ok.inj h
        exact ⟨rfl, rfl⟩
  · obtain rfl := Except.ok.inj h
    exact ⟨rfl, rfl⟩

/-- An event that does not count as visible is yielded as it is. -/
theorem onEvent_unseen (k : ℕ) {event : ProviderAdapterEvent}
    (h : providerRequestBecameVisible event = false) :
    ∃ action, onEvent params model onUsage route k event = .ok action := by
  cases event with
  | requestAccepted => exact absurd h (by decide)
  | event event =>
    cases event with
    | completed finishReason => exact ⟨_, rfl⟩
    | textDelta delta => exact absurd h (by simp [providerRequestBecameVisible])
    | toolCall call => exact absurd h (by simp [providerRequestBecameVisible])
    | usage usage => exact absurd h (by simp [providerRequestBecameVisible])

/-- The actions of a stream are its own, and none starts another. -/
theorem consume_own (k : ℕ) (externallyVisible : Bool) (events : List ProviderAdapterEvent) :
    ∀ a ∈ (consume params model onUsage route k externallyVisible events).actions,
      a.route = route ∧ a.isStart = false := by
  induction events generalizing k externallyVisible with
  | nil => exact fun a ha ↦ absurd ha List.not_mem_nil
  | cons event rest ih =>
    intro a ha
    rw [consume] at ha
    cases hevent : onEvent params model onUsage route k event with
    | error e =>
      rw [hevent] at ha
      exact absurd ha List.not_mem_nil
    | ok action =>
      rw [hevent] at ha
      rcases List.mem_cons.mp ha with rfl | ha
      · exact onEvent_own hevent
      · exact ih _ _ a ha

/-- Once visible, a request stays visible. -/
theorem consume_visible (k : ℕ) (events : List ProviderAdapterEvent) :
    (consume params model onUsage route k true events).externallyVisible = true := by
  induction events generalizing k with
  | nil => rfl
  | cons event rest ih =>
    rw [consume, Bool.true_or]
    cases onEvent params model onUsage route k event with
    | error e => rfl
    | ok action => exact ih _

/-- A stream stays unseen if and only if none of its events counts as visible. -/
theorem consume_unseen_iff (k : ℕ) (events : List ProviderAdapterEvent) :
    (consume params model onUsage route k false events).externallyVisible = false ↔
      ∀ event ∈ events, providerRequestBecameVisible event = false := by
  induction events generalizing k with
  | nil => simp [consume]
  | cons event rest ih =>
    rw [consume, Bool.false_or, List.forall_mem_cons]
    cases hvisible : providerRequestBecameVisible event with
    | true =>
      cases onEvent params model onUsage route k event with
      | error e => simp
      | ok action =>
        simp [Consumed.after, consume_visible params model onUsage route (k + 1) rest]
    | false =>
      obtain ⟨action, haction⟩ := onEvent_unseen params model onUsage route k hvisible
      rw [haction]
      simp only [Consumed.after, true_and]
      exact ih (k + 1)

/-- An unseen stream yields every one of its events. -/
theorem consume_of_unseen (k : ℕ) (externallyVisible : Bool) {events : List ProviderAdapterEvent}
    (h : ∀ event ∈ events, providerRequestBecameVisible event = false) :
    (consume params model onUsage route k externallyVisible events).thrown = none ∧
      (consume params model onUsage route k externallyVisible events).actions.length
        = events.length := by
  induction events generalizing k externallyVisible with
  | nil => exact ⟨rfl, rfl⟩
  | cons event rest ih =>
    obtain ⟨hevent, hrest⟩ := List.forall_mem_cons.mp h
    obtain ⟨action, haction⟩ := onEvent_unseen params model onUsage route k hevent
    obtain ⟨hthrown, hlength⟩ :=
      ih (k + 1) (externallyVisible || providerRequestBecameVisible event) hrest
    rw [consume, haction]
    exact ⟨hthrown, congrArg (· + 1) hlength⟩

end consume

/-! ### One route -/

section tryRoute

variable {G : RoutedModelGateway} {params : TurnParams} {r : ModelDescriptor × ℕ}

theorem caught_done (actions : List TurnAction) (externallyVisible : Bool) (error : Thrown) :
    (caught actions externallyVisible error).done = actions := by
  rw [caught]
  split_ifs <;> rfl

theorem caught_passes_iff {actions : List TurnAction} {externallyVisible : Bool} {error : Thrown} :
    (caught actions externallyVisible error).Passes ↔
      error.retryable = true ∧ externallyVisible = false := by
  rw [caught]
  split_ifs with h
  · rcases h with h | h <;> simp [h]
  · simpa using h

/-- A request that does not fit the route ends the turn. -/
theorem tryRoute_of_not_fits (h : ¬Fits params r) :
    ∃ error, G.tryRoute params r = .decides [] (some (.error error)) := by
  rw [tryRoute]
  split_ifs with hwindow himages
  · exact ⟨_, rfl⟩
  · exact ⟨_, rfl⟩
  all_goals
    refine absurd ⟨not_lt.mp hwindow, fun hroute urls hurls ↦ ?_⟩ h
    by_contra hne
    refine himages ⟨hroute, List.any_eq_true.mpr ⟨urls, hurls, ?_⟩⟩
    simpa using hne

theorem Fits.window (h : Fits params r) :
    ¬r.1.contextWindow < estimateModelContextTokens params := not_lt.mpr h.1

theorem Fits.images (h : Fits params r) :
    ¬(0 < r.2 ∧ params.imageDataUrls.any (fun urls ↦ !urls.isEmpty)) := by
  rintro ⟨hroute, hany⟩
  obtain ⟨urls, hurls, hne⟩ := List.any_eq_true.mp hany
  rw [h.2 hroute urls hurls] at hne
  exact absurd hne (by simp)

/-- A skipped route is passed over with its error. -/
theorem tryRoute_of_skipped (hfits : Fits params r) (h : G.Skipped params r) :
    ∃ error, G.tryRoute params r = .passes [] error := by
  rw [tryRoute, if_neg hfits.window, if_neg hfits.images]
  by_cases hpriced : (params.context.bind ModelRunContext.maxCostUsd).isSome ∧
      hasKnownModelPricing r.1 = false
  · exact ⟨_, if_pos hpriced⟩
  · rw [if_neg hpriced, if_pos (h.resolve_left hpriced)]
    exact ⟨_, rfl⟩

theorem tryRoute_of_not_skipped (hfits : Fits params r) (h : ¬G.Skipped params r) :
    G.tryRoute params r = match (G.attempt r.2).credential with
      | .error e => caught [] false e
      | .ok _ => G.streamRoute params r := by
  obtain ⟨hpriced, hadapter⟩ := not_or.mp h
  rw [tryRoute, if_neg hfits.window, if_neg hfits.images, if_neg hpriced, if_neg hadapter]

theorem tryRoute_of_starts (h : G.Starts params r) :
    G.tryRoute params r = G.streamRoute params r := by
  obtain ⟨hfits, hskipped, hcredential⟩ := h
  rw [tryRoute_of_not_skipped hfits hskipped]
  cases hc : (G.attempt r.2).credential with
  | error e =>
    rw [hc] at hcredential
    exact absurd hcredential Bool.false_ne_true
  | ok _ => rfl

/-- A stream begins with its start, and what follows is its own. -/
theorem streamRoute_done (G : RoutedModelGateway) (params : TurnParams) (r : ModelDescriptor × ℕ) :
    ∃ own, (G.streamRoute params r).done = .started r.2 :: own ∧
    (∀ a ∈ own, a.route = r.2 ∧ a.isStart = false) ∧
    ((∀ event ∈ (G.attempt r.2).events, providerRequestBecameVisible event = false) →
      own.length = (G.attempt r.2).events.length) := by
  refine ⟨(consume params r.1 (G.attempt r.2).onUsage r.2 0 false (G.attempt r.2).events).actions,
    ?_, consume_own _ _ _ _ _ _ _, fun h ↦ (consume_of_unseen _ _ _ _ _ _ h).2⟩
  rw [streamRoute]
  split
  · exact caught_done _ _ _
  · exact caught_done _ _ _
  · rfl
  · rfl

/-- A stream leaves the turn to the next route if and only if it fails unseen. -/
theorem streamRoute_passes_iff : (G.streamRoute params r).Passes ↔ G.FailsUnseen r := by
  have hunseen := consume_unseen_iff params r.1 (G.attempt r.2).onUsage r.2 0
    (G.attempt r.2).events
  rw [streamRoute, FailsUnseen]
  split
  case h_1 e ending hthrown =>
    -- an exception of the loop itself comes after a visible event
    rw [caught_passes_iff, hunseen]
    constructor
    · rintro ⟨-, hevents⟩
      rw [(consume_of_unseen _ _ _ _ _ _ hevents).1] at hthrown
      exact absurd hthrown (by simp)
    · rintro ⟨hevents, -⟩
      rw [(consume_of_unseen _ _ _ _ _ _ hevents).1] at hthrown
      exact absurd hthrown (by simp)
  case h_2 e hthrown hending =>
    rw [caught_passes_iff, hunseen, hending]
    constructor
    · rintro ⟨he, hevents⟩
      exact ⟨hevents, e, rfl, he⟩
    · rintro ⟨hevents, error, herror, hretryable⟩
      obtain rfl := StreamEnding.throws.inj herror
      exact ⟨hretryable, hevents⟩
  case h_3 hending => simp [hending]
  case h_4 hending => simp [hending]

/-- **Which routes leave the turn to the next one.** -/
theorem tryRoute_passes_iff : (G.tryRoute params r).Passes ↔ G.PassesOn params r := by
  by_cases hfits : Fits params r
  · by_cases hskipped : G.Skipped params r
    · obtain ⟨error, h⟩ := tryRoute_of_skipped hfits hskipped
      rw [h]
      simp [PassesOn, hfits, hskipped]
    · rw [tryRoute_of_not_skipped hfits hskipped, PassesOn]
      cases hc : (G.attempt r.2).credential with
      | error e => simp [caught_passes_iff, hfits, hskipped, Except.isOk, Except.toBool]
      | ok _ => simp [streamRoute_passes_iff, hfits, hskipped, Except.isOk, Except.toBool]
  · obtain ⟨error, h⟩ := tryRoute_of_not_fits (G := G) hfits
    rw [h]
    simp [PassesOn, hfits]

/-- A route whose stream does not start does nothing. -/
theorem tryRoute_done_of_not_starts (h : ¬G.Starts params r) :
    (G.tryRoute params r).done = [] := by
  by_cases hfits : Fits params r
  · by_cases hskipped : G.Skipped params r
    · obtain ⟨error, h⟩ := tryRoute_of_skipped hfits hskipped
      rw [h]
      rfl
    · rw [tryRoute_of_not_skipped hfits hskipped]
      cases hc : (G.attempt r.2).credential with
      | error e => exact caught_done _ _ _
      | ok _ => exact absurd ⟨hfits, hskipped, by rw [hc]; rfl⟩ h
  · obtain ⟨error, h⟩ := tryRoute_of_not_fits (G := G) hfits
    rw [h]
    rfl

end tryRoute

end RoutedModelGateway

end LiteHarness.Provider
