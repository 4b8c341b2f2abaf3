import LiteHarness.Provider.RoutedTurn

/-!
# Fallback to another route

What a turn owes to its consumer and to the owner's bill: one attempt at most may show, and no
stream starts once something of an earlier one has shown. `turnSound_iff` says exactly when
`streamTurn` does.

`providerRequestBecameVisible` leaves `completed` out. A stream of which nothing but `completed` was
yielded counts as unseen, and is followed by the next route if it then fails with a retryable error.
-/

namespace LiteHarness.Provider

open Foundation

namespace RoutedModelGateway

variable (G : RoutedModelGateway) (params : TurnParams)

/-! ## The property -/

/-- A route fails with an error, whether or not it leaves the turn to the next one. -/
def RouteFails (r : ModelDescriptor × ℕ) (error : Thrown) : Prop :=
  ∃ done, G.tryRoute params r = .passes done error ∨
    G.tryRoute params r = .decides done (some (.error error))

/-- The stream of a route starts, and its loop comes to the end of the stream. -/
def EndsNormally (r : ModelDescriptor × ℕ) : Prop :=
  G.Starts params r ∧ (G.attempt r.2).ending = .returns ∧
    (consume params r.1 (G.attempt r.2).onUsage r.2 0 false (G.attempt r.2).events).thrown = none

/-- A turn shows one attempt. -/
structure TurnSound (plan : RoutePlan) : Prop where
  /-- Once the provider has accepted a request or an event was yielded, no stream starts. -/
  once : (G.streamTurn params plan).1.Pairwise fun x y ↦ x.isStart = false → y.isStart = false
  /-- All that is accepted or yielded is of one attempt. -/
  one : (G.streamTurn params plan).1.Pairwise fun x y ↦
    x.isStart = false → y.isStart = false → x.route = y.route
  /-- A stream that ends normally ends the turn. -/
  ends : ∀ pre r post, plan.routes.zipIdx = pre ++ r :: post →
    (∀ c ∈ pre, G.PassesOn params c) → G.EndsNormally params r →
      (G.streamTurn params plan).2 = some (.ok ()) ∧
        ∀ x ∈ (G.streamTurn params plan).1, x.route ≤ r.2
  /-- The error raised is that of the last route tried. -/
  lastError : ∀ pre r post error, plan.routes.zipIdx = pre ++ r :: post →
    (∀ c ∈ pre, G.PassesOn params c) → post = [] ∨ ¬G.PassesOn params r →
      G.RouteFails params r error → (G.streamTurn params plan).2 = some (.error error)

/-- The stream of a route yields nothing but `completed`, at least once, and fails with a retryable
error. -/
def Masked (r : ModelDescriptor × ℕ) : Prop :=
  G.Starts params r ∧ (G.attempt r.2).events ≠ [] ∧ G.FailsUnseen r

/-! ## What one route shows -/

variable {G params} {r : ModelDescriptor × ℕ}

theorem Starts.of_mem_done {x : TurnAction} (h : x ∈ (G.tryRoute params r).done) :
    G.Starts params r := by
  by_contra hstarts
  rw [tryRoute_done_of_not_starts hstarts] at h
  exact absurd h List.not_mem_nil

/-- What is done while a route is tried is of this route. -/
theorem route_of_mem_done {x : TurnAction} (h : x ∈ (G.tryRoute params r).done) :
    x.route = r.2 := by
  rw [tryRoute_of_starts (Starts.of_mem_done h)] at h
  obtain ⟨own, hdone, hown, -⟩ := streamRoute_done G params r
  rw [hdone] at h
  rcases List.mem_cons.mp h with rfl | h
  · rfl
  · exact (hown x h).1

/-- A relation that is about streams being started after something else holds within a route. -/
theorem done_pairwise {R : TurnAction → TurnAction → Prop}
    (hstart : ∀ x, R (.started r.2) x)
    (hown : ∀ x y : TurnAction, x.route = r.2 → y.route = r.2 → y.isStart = false → R x y) :
    (G.tryRoute params r).done.Pairwise R := by
  by_cases hstarts : G.Starts params r
  · rw [tryRoute_of_starts hstarts]
    obtain ⟨own, hdone, hall, -⟩ := streamRoute_done G params r
    rw [hdone, List.pairwise_cons]
    refine ⟨fun x _ ↦ hstart x, List.pairwise_of_forall_mem_list fun x hx y hy ↦ ?_⟩
    exact hown x y (hall x hx).1 (hall y hy).1 (hall y hy).2
  · rw [tryRoute_done_of_not_starts hstarts]
    exact List.Pairwise.nil

/-- A route that leaves the turn to the next one has shown something if and only if it is
masked. -/
theorem shows_iff_masked (h : G.PassesOn params r) :
    (∃ x ∈ (G.tryRoute params r).done, x.isStart = false) ↔ G.Masked params r := by
  by_cases hstarts : G.Starts params r
  · rw [tryRoute_of_starts hstarts, Masked]
    have hfails : G.FailsUnseen r := by
      rw [← tryRoute_passes_iff, tryRoute_of_starts hstarts, streamRoute_passes_iff] at h
      exact h
    obtain ⟨own, hdone, hown, hlength⟩ := streamRoute_done G params r
    rw [hdone]
    constructor
    · rintro ⟨x, hx, hstart⟩
      rcases List.mem_cons.mp hx with rfl | hx
      · exact absurd hstart (by simp [TurnAction.isStart])
      · refine ⟨hstarts, fun hevents ↦ ?_, hfails⟩
        rw [hevents, List.length_nil] at hlength
        rw [List.length_eq_zero_iff.mp (hlength fun e he ↦ absurd he List.not_mem_nil)] at hx
        exact absurd hx List.not_mem_nil
    · rintro ⟨-, hevents, -⟩
      have hpos : 0 < own.length := by
        rw [hlength hfails.1]
        exact List.length_pos_of_ne_nil hevents
      obtain ⟨x, hx⟩ := List.exists_mem_of_length_pos hpos
      exact ⟨x, List.mem_cons_of_mem _ hx, (hown x hx).2⟩
  · rw [tryRoute_done_of_not_starts hstarts]
    constructor
    · rintro ⟨x, hx, -⟩
      exact absurd hx List.not_mem_nil
    · exact fun hmasked ↦ absurd hmasked.1 hstarts

/-- A stream that ends normally decides the turn. -/
theorem EndsNormally.tryRoute (h : G.EndsNormally params r) :
    ∃ done, G.tryRoute params r = .decides done (some (.ok ())) := by
  obtain ⟨hstarts, hending, hthrown⟩ := h
  rw [tryRoute_of_starts hstarts, streamRoute, hthrown, hending]
  exact ⟨_, rfl⟩

/-! ## The turn -/

variable {plan : RoutePlan}

theorem streamTurn_of_decides {pre post : List (ModelDescriptor × ℕ)} {r : ModelDescriptor × ℕ}
    (hsplit : plan.routes.zipIdx = pre ++ r :: post) (hpre : ∀ c ∈ pre, G.PassesOn params c)
    {done : List TurnAction} {result : TurnResult}
    (hr : G.tryRoute params r = .decides done result) :
    G.streamTurn params plan
      = (pre.flatMap (fun c ↦ (G.tryRoute params c).done) ++ done, result) := by
  rw [streamTurn, hsplit]
  exact tryEach_of_decides (fun c hc ↦ tryRoute_passes_iff.mpr (hpre c hc)) hr _ _

theorem zipIdx_split {pre post : List (ModelDescriptor × ℕ)} {r : ModelDescriptor × ℕ}
    (hsplit : plan.routes.zipIdx = pre ++ r :: post) : ∀ c ∈ pre, c.2 ≤ r.2 := by
  intro c hc
  have hsorted := List.pairwise_lt_range' (s := 0) (n := plan.routes.length)
  rw [← List.zipIdx_map_snd, hsplit, List.map_append, List.pairwise_append] at hsorted
  exact (hsorted.2.2 _ (List.mem_map_of_mem hc) _ (List.mem_map_of_mem List.mem_cons_self)).le

/-- No masked route is followed by one whose stream starts. -/
def NoMaskedFallback (G : RoutedModelGateway) (params : TurnParams) (plan : RoutePlan) : Prop :=
  ∀ pre a mid b post, plan.routes.zipIdx = pre ++ a :: (mid ++ b :: post) →
    (∀ c ∈ pre ++ a :: mid, G.PassesOn params c) → ¬(G.Masked params a ∧ G.Starts params b)

/-- The streams of a turn never start after something has shown if and only if no masked route is
followed by one whose stream starts. -/
theorem once_iff : ((G.streamTurn params plan).1.Pairwise
      fun x y ↦ x.isStart = false → y.isStart = false) ↔ G.NoMaskedFallback params plan := by
  rw [streamTurn, pairwise_tryEach]
  · refine ⟨fun h pre a mid b post hsplit hpass ↦ ?_, fun h pre a mid b post hsplit hpass ↦ ?_⟩
    · rintro ⟨hmasked, hstarts⟩
      have hpasses : ∀ c ∈ pre ++ a :: mid, (G.tryRoute params c).Passes := fun c hc ↦
        tryRoute_passes_iff.mpr (hpass c hc)
      obtain ⟨x, hx, hshown⟩ := (shows_iff_masked
        (hpass a (List.mem_append_right _ List.mem_cons_self))).mpr hmasked
      obtain ⟨own, hdone, -, -⟩ := streamRoute_done G params b
      have hy : TurnAction.started b.2 ∈ (G.tryRoute params b).done := by
        rw [tryRoute_of_starts hstarts, hdone]
        exact List.mem_cons_self
      exact absurd (h pre a mid b post hsplit hpasses x hx _ hy hshown)
        (by simp [TurnAction.isStart])
    · intro x hx y hy hshown
      have hpasses : ∀ c ∈ pre ++ a :: mid, G.PassesOn params c := fun c hc ↦
        tryRoute_passes_iff.mp (hpass c hc)
      have hmasked := (shows_iff_masked
        (hpasses a (List.mem_append_right _ List.mem_cons_self))).mp ⟨x, hx, hshown⟩
      exact absurd ⟨hmasked, Starts.of_mem_done hy⟩ (h pre a mid b post hsplit hpasses)
  · exact fun c _ ↦ done_pairwise (fun x hx ↦ absurd hx (by simp [TurnAction.isStart]))
      fun x y _ _ hy _ ↦ hy

/-- Where no masked route is followed, a turn shows one attempt. -/
theorem one_of_noMaskedFallback (h : G.NoMaskedFallback params plan) :
    (G.streamTurn params plan).1.Pairwise fun x y ↦
      x.isStart = false → y.isStart = false → x.route = y.route := by
  rw [streamTurn, pairwise_tryEach]
  · intro pre a mid b post hsplit hpass x hx y hy hshown
    have hpasses : ∀ c ∈ pre ++ a :: mid, G.PassesOn params c := fun c hc ↦
      tryRoute_passes_iff.mp (hpass c hc)
    have hmasked := (shows_iff_masked
      (hpasses a (List.mem_append_right _ List.mem_cons_self))).mp ⟨x, hx, hshown⟩
    exact absurd ⟨hmasked, Starts.of_mem_done hy⟩ (h pre a mid b post hsplit hpasses)
  · exact fun c _ ↦ done_pairwise (fun x hx ↦ absurd hx (by simp [TurnAction.isStart]))
      fun x y hx hy _ _ _ ↦ hx.trans hy.symm

/-- A stream that ends normally ends the turn. -/
theorem streamTurn_of_endsNormally {pre post : List (ModelDescriptor × ℕ)}
    {r : ModelDescriptor × ℕ} (hsplit : plan.routes.zipIdx = pre ++ r :: post)
    (hpre : ∀ c ∈ pre, G.PassesOn params c) (hends : G.EndsNormally params r) :
    (G.streamTurn params plan).2 = some (.ok ()) ∧
      ∀ x ∈ (G.streamTurn params plan).1, x.route ≤ r.2 := by
  obtain ⟨done, hdone⟩ := hends.tryRoute
  rw [streamTurn_of_decides hsplit hpre hdone]
  refine ⟨rfl, fun x hx ↦ ?_⟩
  rcases List.mem_append.mp hx with hx | hx
  · obtain ⟨c, hc, hx⟩ := List.mem_flatMap.mp hx
    rw [route_of_mem_done hx]
    exact zipIdx_split hsplit c hc
  · have hown : x ∈ (G.tryRoute params r).done := by rwa [hdone]
    exact (route_of_mem_done hown).le

/-- The error raised is that of the last route tried. -/
theorem streamTurn_of_routeFails {pre post : List (ModelDescriptor × ℕ)}
    {r : ModelDescriptor × ℕ} {error : Thrown} (hsplit : plan.routes.zipIdx = pre ++ r :: post)
    (hpre : ∀ c ∈ pre, G.PassesOn params c) (hlast : post = [] ∨ ¬G.PassesOn params r)
    (hfails : G.RouteFails params r error) :
    (G.streamTurn params plan).2 = some (.error error) := by
  obtain ⟨done, hr | hr⟩ := hfails
  · have hpasses : G.PassesOn params r := by
      rw [← tryRoute_passes_iff, hr]
      exact Verdict.passes_passes _ _
    obtain rfl := hlast.resolve_right (not_not_intro hpasses)
    have hall : ∀ c ∈ pre ++ [r], (G.tryRoute params c).Passes := by
      intro c hc
      rw [tryRoute_passes_iff]
      rcases List.mem_append.mp hc with hc | hc
      · exact hpre c hc
      · rwa [List.mem_singleton.mp hc]
    have hlastError : (G.tryRoute params r).error? = some error := by
      rw [hr]
      rfl
    rw [streamTurn, hsplit, tryEach_exhausted hall, getLast?_passedErrors hlastError]
    rfl
  · rw [streamTurn_of_decides hsplit hpre hr]

/-- **When a turn shows one attempt.** It does if and only if no route of which nothing but
`completed` was yielded, and whose stream then failed with a retryable error, is followed by one
whose stream starts. -/
theorem turnSound_iff : G.TurnSound params plan ↔ G.NoMaskedFallback params plan := by
  constructor
  · exact fun h ↦ once_iff.mp h.once
  · intro h
    exact
      { once := once_iff.mpr h
        one := one_of_noMaskedFallback h
        ends := fun _ _ _ ↦ streamTurn_of_endsNormally
        lastError := fun _ _ _ _ ↦ streamTurn_of_routeFails }

/-- Two routes: the stream of the first yields `completed` and then fails with a retryable error. -/
def afterCompleted : RoutedModelGateway where
  adapters := [js "p"]
  attempt route :=
    { events := [.event (.completed .stop)]
      ending := if route = 0 then .throws (.provider ⟨js "reset", js "Reset", true⟩) else .returns }

def textModel (id : JsString) : ModelDescriptor where
  id := id
  providerId := js "p"
  credentialProfileId := js "c"
  capabilities := [.text]
  contextWindow := 1000

/-- A plan with one fallback. -/
def twoRoutes : RoutePlan where
  id := js "plan"
  registryGeneration := 1
  selected := textModel (js "m1")
  fallbacks := [textModel (js "m2")]
  createdAt := 0

/-- The second stream starts after `completed` of the first was yielded. -/
theorem not_turnSound_completed :
    ¬afterCompleted.TurnSound { request := js "request" } twoRoutes := by
  intro h
  exact absurd h.once (by decide +kernel)

end RoutedModelGateway

end LiteHarness.Provider
