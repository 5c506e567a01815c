import Mathlib.Data.Rat.Floor
import Mathlib.Tactic.Positivity
import ModelConnector.Billing.CostSource
import ModelConnector.Foundations.Rounding

/-!
# From measured tokens to measured money

`measureCostUsd` prices one completed request: a cost the provider reports wins over any tariff,
and otherwise the tokens are priced class by class by the tariffs of the catalogue, in USD per
million tokens. Where the tariff or the token report does not determine a price the cost is zero
and says so in its source.

Numbers are rationals. What the source rounds to the six decimals of the columns goes through a
parameter, so that `measureCostUsd` is the function with that rounding and `exactCostUsd` is the
cost before it. The source's numbers are doubles, and each of its operations is rounded:
`measuredMicros` is the amount that is charged with these roundings.
-/

namespace ModelConnector.Billing

/-- How a connector is paid for. -/
inductive BillingLane
  | api
  | subscription
  deriving DecidableEq

/-- The pricing fields of a `model_catalog` row. -/
structure MeasuredCostPricing where
  inputPerMTok : Option ℚ
  outputPerMTok : Option ℚ
  /-- The price of an input token served from the provider's cache. -/
  cachedInputPerMTok : Option ℚ := none
  cacheWrite5mPerMTok : Option ℚ := none
  cacheWrite1hPerMTok : Option ℚ := none
  tier : Option String := none
  deriving DecidableEq

/-- Cache writes by their time to live. -/
structure CacheCreation where
  ephemeral5mInputTokens : Option ℚ := none
  ephemeral1hInputTokens : Option ℚ := none
  deriving DecidableEq

/-- What `measureCostUsd` is given. -/
structure MeasureInput where
  providerCostUsd : Option ℚ
  inputTokens : Option ℚ
  outputTokens : Option ℚ
  cachedInputTokens : Option ℚ := none
  cacheCreationInputTokens : Option ℚ := none
  cacheCreation : Option CacheCreation := none
  pricing : Option MeasuredCostPricing
  lane : BillingLane := .api
  estimatedUsage : Bool := false

/-- A cost, where it came from, and its halves where they are known. -/
structure MeasuredCost where
  costUsd : ℚ
  source : CostSource
  inputCostUsd : Option ℚ
  outputCostUsd : Option ℚ
  /-- Present on a subscription lane only. -/
  notionalCostUsd : Option (Option ℚ) := none
  deriving DecidableEq

/-- `TOKENS_PER_PRICE_UNIT`. -/
def TOKENS_PER_PRICE_UNIT : ℚ :=
  1000000

/-- `COST_DECIMALS`. -/
def COST_DECIMALS : ℕ :=
  6

/-- `roundToStorage`; `Math.round` rounds halves up. -/
def roundToStorage (usd : ℚ) : ℚ :=
  ⌊usd * 10 ^ COST_DECIMALS + 1 / 2⌋ / 10 ^ COST_DECIMALS

/-- `isUsablePrice`, with the price. -/
def usablePrice (value : Option ℚ) : Option ℚ :=
  value.filter fun price ↦ decide (0 ≤ price)

/-- A tariff of the catalogue row, when it is usable. -/
def tariff (pricing : Option MeasuredCostPricing) (field : MeasuredCostPricing → Option ℚ) :
    Option ℚ :=
  usablePrice (pricing.bind field)

/-- There is a numeric tariff. -/
def hasTariff (pricing : Option MeasuredCostPricing) : Bool :=
  (tariff pricing MeasuredCostPricing.inputPerMTok).isSome ||
    (tariff pricing MeasuredCostPricing.outputPerMTok).isSome

/-- The rate of a cached input token: the normal one when the catalogue has no cache tariff. -/
def cachedRate (pricing : Option MeasuredCostPricing) : ℚ :=
  ((tariff pricing MeasuredCostPricing.cachedInputPerMTok).or
    (tariff pricing MeasuredCostPricing.inputPerMTok)).getD 0

/-- `nonNegativeTokens`. -/
def nonNegativeTokens (value : Option ℚ) : ℚ :=
  match value with
  | some tokens => if 0 < tokens then tokens else 0
  | none => 0

namespace MeasureInput

variable (input : MeasureInput)

/-- The cost the provider reported, if it reported one. -/
def providerReported : Option ℚ :=
  input.providerCostUsd.filter fun cost ↦ decide (0 < cost)

/-- The input tokens that are counted. -/
def tokensIn : ℚ :=
  nonNegativeTokens input.inputTokens

/-- The output tokens that are counted. -/
def tokensOut : ℚ :=
  nonNegativeTokens input.outputTokens

/-- The input tokens that are counted as served from the cache. -/
def cachedIn : ℚ :=
  min (nonNegativeTokens input.cachedInputTokens) input.tokensIn

/-- The tokens written to the five-minute cache. -/
def write5m : ℚ :=
  nonNegativeTokens (input.cacheCreation.bind CacheCreation.ephemeral5mInputTokens)

/-- The tokens written to the one-hour cache. -/
def write1h : ℚ :=
  nonNegativeTokens (input.cacheCreation.bind CacheCreation.ephemeral1hInputTokens)

/-- The total of cache writes, as it is reported. -/
def reportedWrites : ℚ :=
  match input.cacheCreationInputTokens with
  | none => input.write5m + input.write1h
  | some tokens => nonNegativeTokens (some tokens)

/-- The report of the cache writes is conflicting or incomplete, or uses a tariff that is not
known. -/
def unpriceable : Bool :=
  decide (input.reportedWrites ≠ input.write5m + input.write1h) ||
    decide (input.tokensIn - input.cachedIn < input.write5m + input.write1h) ||
    (decide (0 < input.write5m) &&
      (tariff input.pricing MeasuredCostPricing.cacheWrite5mPerMTok).isNone) ||
    (decide (0 < input.write1h) &&
      (tariff input.pricing MeasuredCostPricing.cacheWrite1hPerMTok).isNone)

/-- The input half, class by class. -/
def inputCost : ℚ :=
  ((input.tokensIn - input.cachedIn - (input.write5m + input.write1h)) *
      (tariff input.pricing MeasuredCostPricing.inputPerMTok).getD 0 +
    input.cachedIn * cachedRate input.pricing +
    input.write5m * (tariff input.pricing MeasuredCostPricing.cacheWrite5mPerMTok).getD 0 +
    input.write1h * (tariff input.pricing MeasuredCostPricing.cacheWrite1hPerMTok).getD 0) /
  TOKENS_PER_PRICE_UNIT

/-- The output half. -/
def outputCost : ℚ :=
  input.tokensOut * (tariff input.pricing MeasuredCostPricing.outputPerMTok).getD 0 /
    TOKENS_PER_PRICE_UNIT

end MeasureInput

/-- `measureCostUsd`, over the rounding of its amounts. -/
def measureCostUsdBy (round : ℚ → ℚ) (input : MeasureInput) : MeasuredCost :=
  if input.providerReported = none ∧ input.tokensIn = 0 ∧ input.tokensOut = 0 then
    { costUsd := 0, source := .zeroUsage, inputCostUsd := some 0, outputCostUsd := some 0 }
  else if input.lane = .subscription then
    { costUsd := (input.providerReported.map round).getD 0
      source := .subscription
      inputCostUsd := none
      outputCostUsd := none
      notionalCostUsd := some (input.providerReported.map round) }
  else
    match input.providerReported with
    | some cost =>
      { costUsd := round cost, source := .provider, inputCostUsd := none, outputCostUsd := none }
    | none =>
      if hasTariff input.pricing then
        if input.unpriceable then
          { costUsd := 0, source := .unpriced, inputCostUsd := none, outputCostUsd := none }
        else
          { costUsd := round (input.inputCost + input.outputCost)
            source := if input.estimatedUsage then .estimatedInputUnbilled else .catalog
            inputCostUsd := some (round input.inputCost)
            outputCostUsd := some (round input.outputCost) }
      else if input.pricing.bind MeasuredCostPricing.tier = some "free" then
        { costUsd := 0, source := .catalogFree, inputCostUsd := some 0, outputCostUsd := some 0 }
      else
        { costUsd := 0, source := .unpriced, inputCostUsd := none, outputCostUsd := none }

/-- `measureCostUsd`. -/
def measureCostUsd (input : MeasureInput) : MeasuredCost :=
  measureCostUsdBy roundToStorage input

/-- The cost before it is rounded. -/
def exactCostUsd (input : MeasureInput) : ℚ :=
  (measureCostUsdBy id input).costUsd

/-- The cost of the tokens by the tariffs. -/
def MeasureInput.tokenCost (input : MeasureInput) : ℚ :=
  if hasTariff input.pricing = true ∧ input.unpriceable = false then
    input.inputCost + input.outputCost
  else 0

/-! ### In doubles -/

namespace MeasureInput

variable (input : MeasureInput)

/-- `writes`. -/
def writes : ℚ :=
  double (input.write5m + input.write1h)

/-- `unpriceable`, with the counts added up and subtracted in doubles. -/
def unpriceableInDoubles : Bool :=
  decide (input.cacheCreationInputTokens.elim input.writes (nonNegativeTokens <| some ·) ≠
      input.writes) ||
    decide (double (input.tokensIn - input.cachedIn) < input.writes) ||
    (decide (0 < input.write5m) &&
      (tariff input.pricing MeasuredCostPricing.cacheWrite5mPerMTok).isNone) ||
    (decide (0 < input.write1h) &&
      (tariff input.pricing MeasuredCostPricing.cacheWrite1hPerMTok).isNone)

/-- `uncachedInputTokens`. -/
def uncachedInputTokens : ℚ :=
  double (double (input.tokensIn - input.cachedIn) - input.writes)

/-- The input half, in doubles. -/
def inputCostInDoubles : ℚ :=
  let uncached := double (input.uncachedInputTokens *
    (tariff input.pricing MeasuredCostPricing.inputPerMTok).getD 0)
  let cached := double (input.cachedIn * cachedRate input.pricing)
  let write5m := double (input.write5m *
    (tariff input.pricing MeasuredCostPricing.cacheWrite5mPerMTok).getD 0)
  let write1h := double (input.write1h *
    (tariff input.pricing MeasuredCostPricing.cacheWrite1hPerMTok).getD 0)
  double (double (double (double (uncached + cached) + write5m) + write1h) / TOKENS_PER_PRICE_UNIT)

/-- The output half, in doubles. -/
def outputCostInDoubles : ℚ :=
  double (double (input.tokensOut *
    (tariff input.pricing MeasuredCostPricing.outputPerMTok).getD 0) / TOKENS_PER_PRICE_UNIT)

end MeasureInput

/-- `Math.round(usd * scale)`, in doubles. -/
def storedMicros (usd : ℚ) : ℤ :=
  ⌊double (usd * 10 ^ COST_DECIMALS) + 1 / 2⌋

/-- The cost of `measureCostUsd`, in doubles and in micro-dollars. -/
def measuredMicros (input : MeasureInput) : ℤ :=
  match input.providerReported with
  | some cost => storedMicros cost
  | none =>
    if input.lane = .subscription ∨ input.tokensIn = 0 ∧ input.tokensOut = 0 then 0
    else if hasTariff input.pricing = true ∧ input.unpriceableInDoubles = false then
      storedMicros (double (input.inputCostInDoubles + input.outputCostInDoubles))
    else 0

/-! ### Properties -/

section Properties

variable {input : MeasureInput}

theorem tariff_nonneg (pricing : Option MeasuredCostPricing)
    (field : MeasuredCostPricing → Option ℚ) : 0 ≤ (tariff pricing field).getD 0 := by
  unfold tariff
  cases pricing.bind field with
  | none => exact le_rfl
  | some price =>
    by_cases h : 0 ≤ price
    · rw [usablePrice, Option.filter_some_pos (by simpa using h)]
      exact h
    · rw [usablePrice, Option.filter_some_neg (by simpa using h)]
      exact le_rfl

theorem cachedRate_nonneg (pricing : Option MeasuredCostPricing) : 0 ≤ cachedRate pricing := by
  have hcached := tariff_nonneg pricing MeasuredCostPricing.cachedInputPerMTok
  unfold cachedRate
  cases htariff : tariff pricing MeasuredCostPricing.cachedInputPerMTok with
  | none => exact tariff_nonneg pricing MeasuredCostPricing.inputPerMTok
  | some price =>
    rw [htariff] at hcached
    exact hcached

theorem nonNegativeTokens_nonneg (value : Option ℚ) : 0 ≤ nonNegativeTokens value := by
  unfold nonNegativeTokens
  split
  · split
    · rename_i h
      exact h.le
    · exact le_rfl
  · exact le_rfl

/-- A count that is not negative is counted as it is. -/
theorem nonNegativeTokens_of_nonneg {tokens : ℚ} (h : 0 ≤ tokens) :
    nonNegativeTokens (some tokens) = tokens := by
  show (if 0 < tokens then tokens else 0) = tokens
  split_ifs with hpos
  · rfl
  · exact le_antisymm h (not_lt.1 hpos)

/-- **The cost**, by the lane and by who reports it, over a rounding that keeps zero. -/
theorem measureCostUsdBy_costUsd {round : ℚ → ℚ} (hround : round 0 = 0) (input : MeasureInput) :
    (measureCostUsdBy round input).costUsd = round
      (match input.providerReported with
      | some cost => cost
      | none =>
        if input.lane = .subscription ∨ input.tokensIn = 0 ∧ input.tokensOut = 0 then 0
        else input.tokenCost) := by
  unfold measureCostUsdBy MeasureInput.tokenCost
  cases hreported : input.providerReported with
  | some cost =>
    by_cases hlane : input.lane = .subscription <;> simp [hlane]
  | none =>
    by_cases hnone : input.tokensIn = 0 ∧ input.tokensOut = 0
    · simp [hnone, hround]
    · by_cases hlane : input.lane = .subscription
      · simp [hnone, hlane, hround]
      · by_cases htariff : hasTariff input.pricing = true
        · by_cases hprice : input.unpriceable = true
          · simp [hnone, hlane, htariff, hprice, hround]
          · simp [hnone, hlane, htariff, hprice]
        · by_cases hfree : input.pricing.bind MeasuredCostPricing.tier = some "free" <;>
            simp [hnone, hlane, htariff, hfree, hround]

theorem exactCostUsd_eq (input : MeasureInput) : exactCostUsd input =
    match input.providerReported with
    | some cost => cost
    | none =>
      if input.lane = .subscription ∨ input.tokensIn = 0 ∧ input.tokensOut = 0 then 0
      else input.tokenCost :=
  measureCostUsdBy_costUsd rfl input

/-- What is charged is the cost, rounded once. -/
theorem measureCostUsd_costUsd (input : MeasureInput) :
    (measureCostUsd input).costUsd = roundToStorage (exactCostUsd input) := by
  rw [exactCostUsd_eq]
  exact measureCostUsdBy_costUsd (by norm_num [roundToStorage]) input

/-- The input half is not negative, unless it cannot be priced. -/
theorem MeasureInput.inputCost_nonneg (h : input.unpriceable = false) : 0 ≤ input.inputCost := by
  have hroom : input.write5m + input.write1h ≤ input.tokensIn - input.cachedIn := by
    simp only [MeasureInput.unpriceable, Bool.or_eq_false_iff, decide_eq_false_iff_not] at h
    exact not_lt.1 h.1.1.2
  have huncached : 0 ≤ input.tokensIn - input.cachedIn - (input.write5m + input.write1h) :=
    sub_nonneg.2 hroom
  have hcached : 0 ≤ input.cachedIn :=
    le_min (nonNegativeTokens_nonneg _) (nonNegativeTokens_nonneg _)
  have h5m : 0 ≤ input.write5m := nonNegativeTokens_nonneg _
  have h1h : 0 ≤ input.write1h := nonNegativeTokens_nonneg _
  unfold MeasureInput.inputCost TOKENS_PER_PRICE_UNIT
  refine div_nonneg (add_nonneg (add_nonneg (add_nonneg ?_ ?_) ?_) ?_) (by norm_num)
  · exact mul_nonneg huncached (tariff_nonneg _ _)
  · exact mul_nonneg hcached (cachedRate_nonneg _)
  · exact mul_nonneg h5m (tariff_nonneg _ _)
  · exact mul_nonneg h1h (tariff_nonneg _ _)

theorem MeasureInput.outputCost_nonneg (input : MeasureInput) : 0 ≤ input.outputCost :=
  div_nonneg (mul_nonneg (nonNegativeTokens_nonneg _) (tariff_nonneg _ _))
    (by norm_num [TOKENS_PER_PRICE_UNIT])

theorem tokenCost_nonneg (input : MeasureInput) : 0 ≤ input.tokenCost := by
  unfold MeasureInput.tokenCost
  split_ifs with h
  · exact add_nonneg (MeasureInput.inputCost_nonneg h.2) input.outputCost_nonneg
  · exact le_rfl

theorem exactCostUsd_nonneg (input : MeasureInput) : 0 ≤ exactCostUsd input := by
  rw [exactCostUsd_eq]
  split
  · rename_i cost hreported
    have hpos : 0 < cost := by simpa using (Option.filter_eq_some_iff.1 hreported).2
    exact hpos.le
  · split_ifs
    · exact le_rfl
    · exact tokenCost_nonneg input

/-- **What stays unpriced**: tokens on a metered lane that the provider reported no cost for, when
the tariffs do not apply to them or there is neither a tariff nor a free tier. -/
theorem measureCostUsd_unpriced_iff (input : MeasureInput) :
    (measureCostUsd input).source = .unpriced ↔
      input.providerReported = none ∧ ¬ (input.tokensIn = 0 ∧ input.tokensOut = 0) ∧
        input.lane ≠ .subscription ∧
        (hasTariff input.pricing = true ∧ input.unpriceable = true ∨
          hasTariff input.pricing = false ∧
            input.pricing.bind MeasuredCostPricing.tier ≠ some "free") := by
  unfold measureCostUsd measureCostUsdBy
  cases hreported : input.providerReported with
  | some cost =>
    by_cases hlane : input.lane = .subscription
    · simp [hlane]
    · simp [hlane]
  | none =>
    by_cases hnone : input.tokensIn = 0 ∧ input.tokensOut = 0
    · simp [hnone]
    · by_cases hlane : input.lane = .subscription
      · simp [hnone, hlane]
      · by_cases htariff : hasTariff input.pricing = true
        · by_cases hprice : input.unpriceable = true
          · simp [hnone, hlane, htariff, hprice]
          · by_cases hestimated : input.estimatedUsage = true
            · simp [hnone, hlane, htariff, hprice, hestimated]
            · simp [hnone, hlane, htariff, hprice, hestimated]
        · by_cases hfree : input.pricing.bind MeasuredCostPricing.tier = some "free"
          · simp [hnone, hlane, htariff, hfree]
          · simp [hnone, hlane, htariff, hfree]

end Properties

end ModelConnector.Billing
