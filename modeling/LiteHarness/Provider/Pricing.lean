import LiteHarness.Foundation.Checks
import LiteHarness.Provider.Registry

/-!
# The price of a turn

The tokens a usage event counts fall into four categories of input and the output, each with a rate
of the model. A long context multiplies the rates. The cost an event is given is that of its tokens,
or the cost the provider reported where that is higher; more tokens never cost less.
-/

namespace LiteHarness.Provider

open Foundation

/-- The tokens of an event, by the rate they are priced at. -/
structure TokenCounts where
  ordinary : ℚ
  cached : ℚ
  cacheWrite : ℚ
  image : ℚ
  output : ℚ

namespace TokenCounts

variable (t : TokenCounts) (model : ModelDescriptor)

/-- All input tokens. -/
def input : ℚ := t.ordinary + t.cached + t.cacheWrite + t.image

/-- The context is over the threshold of the model. -/
def IsLong : Prop := ∃ threshold ∈ model.longContextThresholdTokens, (threshold : ℚ) < t.input

instance : Decidable (t.IsLong model) :=
  inferInstanceAs (Decidable (∃ threshold ∈ model.longContextThresholdTokens, _))

def inputMultiplier : ℚ :=
  if t.IsLong model then model.longContextInputMultiplier.getD 1 else 1

def outputMultiplier : ℚ :=
  if t.IsLong model then model.longContextOutputMultiplier.getD 1 else 1

/-- The rate of the ordinary input tokens, and of those whose category has none. -/
def inputRate : ℚ := model.inputUsdPerMillion.getD 0

/-- The price of the input tokens below the threshold, category by category. -/
def inputPrice : ℚ :=
  t.ordinary * inputRate model
    + t.cached * model.cachedInputUsdPerMillion.getD (inputRate model)
    + t.cacheWrite * model.cacheWriteInputUsdPerMillion.getD (inputRate model)
    + t.image * model.imageInputUsdPerMillion.getD (inputRate model)

/-- The cost of the tokens at the rates of the model. -/
def cost : ℚ :=
  (t.inputMultiplier model * t.inputPrice model
    + t.outputMultiplier model * t.output * model.outputUsdPerMillion.getD 0) / 1000000

end TokenCounts

namespace UsageEvent

variable (event : UsageEvent)

/-- The numbers of the event are these counts. -/
structure Counts (t : TokenCounts) : Prop where
  input : finiteNonNegative event.inputTokens = some t.input
  output : finiteNonNegative event.outputTokens = some t.output
  cached : safeCount (event.cachedInputTokens.getD (.finite 0)) = some t.cached
  cacheWrite : safeCount (event.cacheWriteInputTokens.getD (.finite 0)) = some t.cacheWrite
  image : safeCount (event.imageInputTokens.getD (.finite 0)) = some t.image
  ordinary : 0 ≤ t.ordinary

/-- The cost that the provider reported, none being zero. -/
def reported : ℚ := (event.costUsd.bind JsNumber.rat?).getD 0

/-- A reported cost is a number that is not negative. -/
def ReportsValid : Prop := ¬∃ cost ∈ event.costUsd, finiteNonNegative cost = none

end UsageEvent

/-! ## What a model that was accepted has -/

/-- The rates of a model are not negative, and a long context is not cheaper. -/
structure SoundRates (model : ModelDescriptor) : Prop where
  input : 0 ≤ TokenCounts.inputRate model
  output : 0 ≤ model.outputUsdPerMillion.getD 0
  cached : 0 ≤ model.cachedInputUsdPerMillion.getD (TokenCounts.inputRate model)
  cacheWrite : 0 ≤ model.cacheWriteInputUsdPerMillion.getD (TokenCounts.inputRate model)
  image : 0 ≤ model.imageInputUsdPerMillion.getD (TokenCounts.inputRate model)
  inputMultiplier : 1 ≤ model.longContextInputMultiplier.getD 1
  outputMultiplier : 1 ≤ model.longContextOutputMultiplier.getD 1

theorem le_getD {bound default : ℚ} {value : Option ℚ} (h : ¬∃ q ∈ value, q < bound)
    (hdefault : bound ≤ default) : bound ≤ value.getD default := by
  rcases value with _ | q
  · exact hdefault
  · exact not_lt.mp fun hlt ↦ h ⟨q, rfl, hlt⟩

theorem soundRates_of_validateModel {model : ModelDescriptor}
    (h : validateModel model = .ok ()) : SoundRates model := by
  unfold validateModel at h
  simp only [check_then_eq_ok_iff, except_bind_eq_ok_iff] at h
  obtain ⟨-, -, -, -, _, hrates, _, hmultipliers, -⟩ := h
  have hrates := (forIn_check_eq_ok_iff (c := fun x : String × Option ℚ ↦ ∃ rate ∈ x.2, rate < 0)
    fun _ _ ↦ rfl).mp hrates
  have hmultipliers := (forIn_check_eq_ok_iff
    (c := fun x : String × Option ℚ ↦ ∃ multiplier ∈ x.2, multiplier < 1)
    fun _ _ ↦ rfl).mp hmultipliers
  simp only [List.forall_mem_cons] at hrates hmultipliers
  obtain ⟨hinput, houtput, hcached, hcacheWrite, himage, -⟩ := hrates
  obtain ⟨hlongInput, hlongOutput, -⟩ := hmultipliers
  have hrate : 0 ≤ TokenCounts.inputRate model := le_getD hinput le_rfl
  exact ⟨hrate, le_getD houtput le_rfl, le_getD hcached hrate, le_getD hcacheWrite hrate,
    le_getD himage hrate, le_getD hlongInput le_rfl, le_getD hlongOutput le_rfl⟩

/-! ## More tokens cost no less -/

namespace TokenCounts

variable {t t' : TokenCounts} {model : ModelDescriptor}

theorem one_le_inputMultiplier (h : SoundRates model) (t : TokenCounts) :
    1 ≤ t.inputMultiplier model := by
  rw [inputMultiplier]
  split_ifs
  · exact h.inputMultiplier
  · exact le_rfl

theorem one_le_outputMultiplier (h : SoundRates model) (t : TokenCounts) :
    1 ≤ t.outputMultiplier model := by
  rw [outputMultiplier]
  split_ifs
  · exact h.outputMultiplier
  · exact le_rfl

theorem IsLong.mono (hlong : t.IsLong model) (hinput : t.input ≤ t'.input) : t'.IsLong model := by
  obtain ⟨threshold, hthreshold, hlt⟩ := hlong
  exact ⟨threshold, hthreshold, hlt.trans_le hinput⟩

/-- Crossing the threshold does not lower a multiplier. -/
theorem inputMultiplier_mono (h : SoundRates model) (hinput : t.input ≤ t'.input) :
    t.inputMultiplier model ≤ t'.inputMultiplier model := by
  by_cases hlong : t.IsLong model
  · rw [inputMultiplier, inputMultiplier, if_pos hlong, if_pos (hlong.mono hinput)]
  · rw [inputMultiplier, if_neg hlong]
    exact one_le_inputMultiplier h t'

theorem outputMultiplier_mono (h : SoundRates model) (hinput : t.input ≤ t'.input) :
    t.outputMultiplier model ≤ t'.outputMultiplier model := by
  by_cases hlong : t.IsLong model
  · rw [outputMultiplier, outputMultiplier, if_pos hlong, if_pos (hlong.mono hinput)]
  · rw [outputMultiplier, if_neg hlong]
    exact one_le_outputMultiplier h t'

/-- No count is negative. -/
structure Nonneg (t : TokenCounts) : Prop where
  ordinary : 0 ≤ t.ordinary
  cached : 0 ≤ t.cached
  cacheWrite : 0 ≤ t.cacheWrite
  image : 0 ≤ t.image
  output : 0 ≤ t.output

/-- The counts differ in more ordinary input and more output. -/
structure AtMost (t t' : TokenCounts) : Prop where
  ordinary : t.ordinary ≤ t'.ordinary
  cached : t.cached = t'.cached
  cacheWrite : t.cacheWrite = t'.cacheWrite
  image : t.image = t'.image
  output : t.output ≤ t'.output

theorem AtMost.input_le (h : t.AtMost t') : t.input ≤ t'.input := by
  rw [input, input, h.cached, h.cacheWrite, h.image]
  linarith [h.ordinary]

theorem inputPrice_nonneg (h : SoundRates model) (ht : t.Nonneg) : 0 ≤ t.inputPrice model := by
  have hordinary := mul_nonneg ht.ordinary h.input
  have hcached := mul_nonneg ht.cached h.cached
  have hcacheWrite := mul_nonneg ht.cacheWrite h.cacheWrite
  have himage := mul_nonneg ht.image h.image
  rw [inputPrice]
  linarith

theorem inputPrice_mono (h : SoundRates model) (hle : t.AtMost t') :
    t.inputPrice model ≤ t'.inputPrice model := by
  have hordinary := mul_le_mul_of_nonneg_right hle.ordinary h.input
  rw [inputPrice, inputPrice, hle.cached, hle.cacheWrite, hle.image]
  linarith

theorem cost_mono (h : SoundRates model) (ht : t.Nonneg) (hle : t.AtMost t') :
    t.cost model ≤ t'.cost model := by
  have hinput : t.inputMultiplier model * t.inputPrice model ≤
      t'.inputMultiplier model * t'.inputPrice model :=
    mul_le_mul (inputMultiplier_mono h hle.input_le) (inputPrice_mono h hle)
      (inputPrice_nonneg h ht) (zero_le_one.trans (one_le_inputMultiplier h t'))
  have houtput : t.outputMultiplier model * t.output ≤ t'.outputMultiplier model * t'.output :=
    mul_le_mul (outputMultiplier_mono h hle.input_le) hle.output ht.output
      (zero_le_one.trans (one_le_outputMultiplier h t'))
  rw [cost, cost]
  exact div_le_div_of_nonneg_right
    (add_le_add hinput (mul_le_mul_of_nonneg_right houtput h.output)) (by norm_num)

/-- The calculated cost is the cost of the counts. -/
theorem calculatedCost_eq (t : TokenCounts) {inputRate outputRate : ℚ}
    (hinput : model.inputUsdPerMillion = some inputRate)
    (houtput : model.outputUsdPerMillion = some outputRate) :
    calculatedCost model inputRate outputRate t.input t.output t.cached t.cacheWrite t.image =
      t.cost model := by
  have hordinary : t.input - t.cached - t.cacheWrite - t.image = t.ordinary := by
    rw [input]
    ring
  rw [calculatedCost, hordinary, cost, inputPrice, TokenCounts.inputRate, hinput, houtput]
  rfl

end TokenCounts

/-! ## What an event is given -/

theorem finiteNonNegative_nonneg {n : JsNumber} {q : ℚ} (h : finiteNonNegative n = some q) :
    0 ≤ q :=
  of_decide_eq_true (Option.filter_eq_some_iff.mp h).2

theorem safeCount_nonneg {n : JsNumber} {q : ℚ} (h : safeCount n = some q) : 0 ≤ q :=
  (of_decide_eq_true (Option.filter_eq_some_iff.mp h).2).2.1

namespace UsageEvent

variable {event event' : UsageEvent} {t t' : TokenCounts} {model : ModelDescriptor}

theorem Counts.nonneg (h : event.Counts t) : t.Nonneg :=
  ⟨h.ordinary, safeCount_nonneg h.cached, safeCount_nonneg h.cacheWrite,
    safeCount_nonneg h.image, finiteNonNegative_nonneg h.output⟩

/-- An event whose numbers make sense is given the cost of its tokens, or the reported one. -/
theorem Counts.withAuthoritativeCost_eq (h : event.Counts t) (hreports : event.ReportsValid)
    (hknown : hasKnownModelPricing model = true) :
    withAuthoritativeCost event model =
      .ok { event with costUsd := some (.finite (max event.reported (t.cost model))) } := by
  obtain ⟨hinput, houtput⟩ := Bool.and_eq_true_iff.mp hknown
  obtain ⟨inputRate, hinput⟩ := Option.isSome_iff_exists.mp hinput
  obtain ⟨outputRate, houtput⟩ := Option.isSome_iff_exists.mp houtput
  have hcategories : ¬t.input < t.cached + t.cacheWrite + t.image := by
    rw [not_lt, TokenCounts.input]
    linarith [h.ordinary]
  rw [withAuthoritativeCost, h.input, h.output]
  dsimp only
  rw [if_neg hreports, hinput, houtput, h.cached, h.cacheWrite, h.image]
  dsimp only
  rw [if_neg hcategories, t.calculatedCost_eq hinput houtput]
  rfl

/-- An event that was not rejected has numbers that make sense. -/
theorem counts_of_ok (hknown : hasKnownModelPricing model = true) {result : UsageEvent}
    (h : withAuthoritativeCost event model = .ok result) :
    ∃ t, event.Counts t ∧ event.ReportsValid := by
  obtain ⟨hinput, houtput⟩ := Bool.and_eq_true_iff.mp hknown
  obtain ⟨inputRate, hinput⟩ := Option.isSome_iff_exists.mp hinput
  obtain ⟨outputRate, houtput⟩ := Option.isSome_iff_exists.mp houtput
  rw [withAuthoritativeCost, hinput, houtput] at h
  split at h
  · rename_i input output hinputTokens houtputTokens
    split at h
    · exact absurd h nofun
    · rename_i hreports
      dsimp only at h
      split at h
      · rename_i cached cacheWrite image hcached hcacheWrite himage
        split at h
        · exact absurd h nofun
        · rename_i hcategories
          have hsum :
              input - cached - cacheWrite - image + cached + cacheWrite + image = input := by
            ring
          refine ⟨⟨input - cached - cacheWrite - image, cached, cacheWrite, image, output⟩,
            ⟨hinputTokens.trans (congrArg some hsum.symm), houtputTokens, hcached, hcacheWrite,
              himage, ?_⟩, hreports⟩
          dsimp only
          linarith [not_lt.mp hcategories]
      · exact absurd h nofun
  · exact absurd h nofun

/-- Without prices an event whose numbers make sense is left as it is. -/
theorem withAuthoritativeCost_of_unknown (hunknown : hasKnownModelPricing model = false) :
    withAuthoritativeCost event model = .ok event ∨
      (∃ e, withAuthoritativeCost event model = .error e) ∧
        (finiteNonNegative event.inputTokens = none ∨ finiteNonNegative event.outputTokens = none ∨
          ¬event.ReportsValid) := by
  rw [withAuthoritativeCost]
  rcases hinput : finiteNonNegative event.inputTokens with _ | input
  · exact Or.inr ⟨⟨_, rfl⟩, Or.inl rfl⟩
  rcases houtput : finiteNonNegative event.outputTokens with _ | output
  · exact Or.inr ⟨⟨_, rfl⟩, Or.inr (Or.inl rfl)⟩
  dsimp only
  by_cases hcost : ∃ cost ∈ event.costUsd, finiteNonNegative cost = none
  · rw [if_pos hcost]
    exact Or.inr ⟨⟨_, rfl⟩, Or.inr (Or.inr (not_not_intro hcost))⟩
  rw [if_neg hcost]
  refine Or.inl ?_
  split
  · rename_i hinput houtput
    rw [hasKnownModelPricing, hinput, houtput] at hunknown
    exact absurd hunknown Bool.noConfusion
  · rfl

end UsageEvent

/-- A model with a rate for every category and a dearer long context. -/
def pricedModel : ModelDescriptor where
  id := js "large"
  providerId := js "priced"
  credentialProfileId := js "priced-credential"
  capabilities := [.text]
  contextWindow := 1000000
  inputUsdPerMillion := some 1
  outputUsdPerMillion := some 6
  cachedInputUsdPerMillion := some (1 / 10)
  cacheWriteInputUsdPerMillion := some (5 / 4)
  imageInputUsdPerMillion := some 1
  longContextThresholdTokens := some 272000
  longContextInputMultiplier := some 2
  longContextOutputMultiplier := some (3 / 2)

/-- A turn with tokens in all categories. -/
def mixedTurn (input : ℚ) : UsageEvent where
  inputTokens := .finite input
  outputTokens := .finite 10000
  cachedInputTokens := some (.finite 20000)
  cacheWriteInputTokens := some (.finite 10000)
  imageInputTokens := some (.finite 40000)

end LiteHarness.Provider
