import ModelConnector.MeteringAdditivity

/-!
# The classes of the input tokens

A usage that is priced from tokens has its input tokens divided into four classes, none of them
negative: what is left uncached, what was served from the cache, and what was written to the caches
of five minutes and of an hour. The cost is the tokens of the classes, and the output, at their
rates.

So the cost is monotone where the classes are: in the output tokens, in the input tokens with the
cache counters fixed, and in the tariffs that are known.
-/

namespace ModelConnector

open Billing Connectors

variable {input input' : MeasureInput}

/-- The tokens of a class in a usage. -/
def Billing.MeasureInput.tokensOf (input : MeasureInput) : TokenClass → ℚ
  | .uncached => input.tokensIn - input.cachedIn - (input.write5m + input.write1h)
  | .cached => input.cachedIn
  | .write5m => input.write5m
  | .write1h => input.write1h
  | .output => input.tokensOut

/-- The cost was computed from tokens. -/
def PricedFromTokens (input : MeasureInput) : Prop :=
  (measureCostUsd input).source = .catalog ∨
    (measureCostUsd input).source = .estimatedInputUnbilled

theorem pricedFromTokens_iff : PricedFromTokens input ↔
    input.providerReported = none ∧ ¬(input.tokensIn = 0 ∧ input.tokensOut = 0) ∧
      input.lane ≠ .subscription ∧ hasTariff input.pricing = true ∧ input.unpriceable = false := by
  unfold PricedFromTokens measureCostUsd measureCostUsdBy
  cases hreported : input.providerReported with
  | some cost =>
    by_cases hlane : input.lane = .subscription <;> simp [hlane]
  | none =>
    by_cases hnone : input.tokensIn = 0 ∧ input.tokensOut = 0
    · simp [hnone]
    · by_cases hlane : input.lane = .subscription
      · simp [hnone, hlane]
      · by_cases htariff : hasTariff input.pricing = true
        · by_cases hprice : input.unpriceable = true
          · simp [hnone, hlane, htariff, hprice]
          · by_cases hestimated : input.estimatedUsage = true <;>
              simp [hnone, hlane, htariff, hprice, hestimated]
        · by_cases hfree : input.pricing.bind MeasuredCostPricing.tier = some "free" <;>
            simp [hnone, hlane, htariff, hfree]

/-! ### The classes -/

theorem writes_le_of_priceable (h : input.unpriceable = false) :
    input.write5m + input.write1h ≤ input.tokensIn - input.cachedIn := by
  unfold MeasureInput.unpriceable at h
  simp only [Bool.or_eq_false_iff, decide_eq_false_iff_not, not_lt] at h
  exact h.1.1.2

/-- No class has a negative count. -/
theorem tokensOf_nonneg (h : input.unpriceable = false) (c : TokenClass) :
    0 ≤ input.tokensOf c := by
  cases c with
  | uncached => exact sub_nonneg.2 (writes_le_of_priceable h)
  | cached => exact le_min (nonNegativeTokens_nonneg _) (nonNegativeTokens_nonneg _)
  | write5m => exact nonNegativeTokens_nonneg _
  | write1h => exact nonNegativeTokens_nonneg _
  | output => exact nonNegativeTokens_nonneg _

/-- The four classes of the input are the input. -/
theorem sum_tokensOf (input : MeasureInput) :
    input.tokensOf .uncached + input.tokensOf .cached + input.tokensOf .write5m +
      input.tokensOf .write1h = input.tokensIn := by
  simp only [MeasureInput.tokensOf]
  ring

/-- Tokens by class, each class at its rate. -/
def classCost (tokens rate : TokenClass → ℚ) : ℚ :=
  (TokenClass.all.map fun c ↦ tokens c * rate c).sum / TOKENS_PER_PRICE_UNIT

theorem classCost_mono {tokens tokens' rate rate' : TokenClass → ℚ} (hrate : ∀ c, 0 ≤ rate c)
    (htokens' : ∀ c, 0 ≤ tokens' c) (htokens : ∀ c, tokens c ≤ tokens' c)
    (hrates : ∀ c, rate c ≤ rate' c) : classCost tokens rate ≤ classCost tokens' rate' := by
  refine div_le_div_of_nonneg_right (List.sum_le_sum fun c _ ↦ ?_)
    (by norm_num [TOKENS_PER_PRICE_UNIT])
  exact mul_le_mul (htokens c) (hrates c) (hrate c) (htokens' c)

/-- What the meter adds up. -/
theorem inputCost_add_outputCost (input : MeasureInput) :
    input.inputCost + input.outputCost =
      classCost input.tokensOf (TokenClass.rate input.pricing) := by
  simp only [MeasureInput.inputCost, MeasureInput.outputCost, classCost, TokenClass.all,
    List.map_cons, List.map_nil, List.sum_cons, List.sum_nil, MeasureInput.tokensOf,
    TokenClass.rate]
  ring

theorem roundToStorage_mono {a b : ℚ} (h : a ≤ b) : roundToStorage a ≤ roundToStorage b := by
  unfold roundToStorage
  have hscaled : a * 10 ^ COST_DECIMALS + 1 / 2 ≤ b * 10 ^ COST_DECIMALS + 1 / 2 := by gcongr
  have hfloor : ((⌊a * 10 ^ COST_DECIMALS + 1 / 2⌋ : ℤ) : ℚ) ≤ ⌊b * 10 ^ COST_DECIMALS + 1 / 2⌋ :=
    Int.cast_le.2 (Int.floor_le_floor hscaled)
  exact div_le_div_of_nonneg_right hfloor (by positivity)

theorem roundToStorage_zero : roundToStorage 0 = 0 := by
  norm_num [roundToStorage]

/-! ### Usages that grow -/

theorem costUsd_nonneg (input : MeasureInput) : 0 ≤ (measureCostUsd input).costUsd := by
  rw [measureCostUsd_costUsd, ← roundToStorage_zero]
  exact roundToStorage_mono (exactCostUsd_nonneg input)

/-- A usage and one that is not smaller in any class, at rates that are not lower. -/
structure Grows (input input' : MeasureInput) : Prop where
  provider : input'.providerCostUsd = input.providerCostUsd
  lane : input'.lane = input.lane
  consumed : input'.tokensIn = 0 ∧ input'.tokensOut = 0 → input.tokensIn = 0 ∧ input.tokensOut = 0
  hasTariff : hasTariff input'.pricing = hasTariff input.pricing
  tokens : ∀ c, input.tokensOf c ≤ input'.tokensOf c
  rates : ∀ c : TokenClass, c.rate input.pricing ≤ c.rate input'.pricing

theorem Grows.tokenCost_le (h : Grows input input')
    (hpriced : Billing.hasTariff input'.pricing = true → input'.unpriceable = false) :
    input.tokenCost ≤ input'.tokenCost := by
  by_cases htariff : Billing.hasTariff input.pricing = true ∧ input.unpriceable = false
  · have htariff' : Billing.hasTariff input'.pricing = true := h.hasTariff.trans htariff.1
    unfold MeasureInput.tokenCost
    rw [if_pos htariff, if_pos ⟨htariff', hpriced htariff'⟩, inputCost_add_outputCost,
      inputCost_add_outputCost]
    exact classCost_mono (rate_nonneg _) (tokensOf_nonneg (hpriced htariff')) h.tokens h.rates
  · rw [MeasureInput.tokenCost, if_neg htariff]
    exact tokenCost_nonneg input'

/-- **The cost does not fall**, unless what grows cannot be priced. -/
theorem Grows.costUsd_le (h : Grows input input')
    (hpriced : (measureCostUsd input').source ≠ .unpriced) :
    (measureCostUsd input).costUsd ≤ (measureCostUsd input').costUsd := by
  have hreported : input'.providerReported = input.providerReported := by
    rw [MeasureInput.providerReported, h.provider, MeasureInput.providerReported]
  rw [measureCostUsd_costUsd, measureCostUsd_costUsd]
  refine roundToStorage_mono ?_
  rw [exactCostUsd_eq, exactCostUsd_eq, hreported, h.lane]
  cases hnone : input.providerReported with
  | some cost => exact le_rfl
  | none =>
    dsimp only
    by_cases hsubscription : input.lane = .subscription
    · rw [if_pos (.inl hsubscription), if_pos (.inl hsubscription)]
    · by_cases hzero : input'.tokensIn = 0 ∧ input'.tokensOut = 0
      · rw [if_pos (.inr (h.consumed hzero)), if_pos (.inr hzero)]
      · have hle : input.tokenCost ≤ input'.tokenCost := h.tokenCost_le fun htariff ↦ by
          by_contra hprice
          exact hpriced ((measureCostUsd_unpriced_iff input').2 ⟨hreported.trans hnone, hzero,
            h.lane ▸ hsubscription, .inl ⟨htariff, by simpa using hprice⟩⟩)
        rw [if_neg (not_or.2 ⟨hsubscription, hzero⟩)]
        split_ifs
        · exact tokenCost_nonneg input'
        · exact hle

theorem Grows.of_output {tokens : Option ℚ} (h : input.tokensOut ≤ nonNegativeTokens tokens) :
    Grows input { input with outputTokens := tokens } where
  provider := rfl
  lane := rfl
  consumed hzero := ⟨hzero.1, le_antisymm (h.trans_eq hzero.2) (nonNegativeTokens_nonneg _)⟩
  hasTariff := rfl
  tokens c := by
    cases c with
    | output => exact h
    | _ => exact le_rfl
  rates _ := le_rfl

/-- With the cache counters fixed, more input is more of what is cached and more of what is not. -/
theorem Grows.of_input {tokens : Option ℚ} (h : input.tokensIn ≤ nonNegativeTokens tokens) :
    Grows input { input with inputTokens := tokens } where
  provider := rfl
  lane := rfl
  consumed hzero := ⟨le_antisymm (h.trans_eq hzero.1) (nonNegativeTokens_nonneg _), hzero.2⟩
  hasTariff := rfl
  tokens c := by
    have hmin : ∀ a b c : ℚ, a ≤ b → a - min c a ≤ b - min c b := by
      intro a b c hab
      rcases le_total c a with hca | hac
      · rw [min_eq_left hca, min_eq_left (hca.trans hab)]
        linarith
      · rw [min_eq_right hac, sub_self]
        exact sub_nonneg.2 (min_le_right c b)
    cases c with
    | uncached => exact sub_le_sub_right (hmin _ _ _ h) _
    | cached => exact min_le_min_left _ h
    | _ => exact le_rfl
  rates _ := le_rfl

/-- The tariffs of a catalogue row. -/
def tariffFields : List (MeasuredCostPricing → Option ℚ) :=
  [MeasuredCostPricing.inputPerMTok, MeasuredCostPricing.outputPerMTok,
    MeasuredCostPricing.cachedInputPerMTok, MeasuredCostPricing.cacheWrite5mPerMTok,
    MeasuredCostPricing.cacheWrite1hPerMTok]

/-- A catalogue row with none of its known tariffs lowered, and no other one known. -/
def Raised (pricing pricing' : Option MeasuredCostPricing) : Prop :=
  ∀ field ∈ tariffFields,
    match tariff pricing field, tariff pricing' field with
    | none, none => True
    | some price, some price' => price ≤ price'
    | _, _ => False

theorem Raised.getD_le {pricing pricing' : Option MeasuredCostPricing}
    (h : Raised pricing pricing') (field : MeasuredCostPricing → Option ℚ)
    (hfield : field ∈ tariffFields) :
    (tariff pricing field).isSome = (tariff pricing' field).isSome ∧
      (tariff pricing field).getD 0 ≤ (tariff pricing' field).getD 0 := by
  have hraised := h field hfield
  split at hraised
  · rename_i hnone hnone'
    rw [hnone, hnone']
    exact ⟨rfl, le_rfl⟩
  · rename_i hsome hsome'
    rw [hsome, hsome']
    exact ⟨rfl, hraised⟩
  · exact hraised.elim

theorem Raised.cachedRate_le {pricing pricing' : Option MeasuredCostPricing}
    (h : Raised pricing pricing') : cachedRate pricing ≤ cachedRate pricing' := by
  obtain ⟨hknown, hcached⟩ := h.getD_le MeasuredCostPricing.cachedInputPerMTok
    (by simp [tariffFields])
  have hinput := (h.getD_le MeasuredCostPricing.inputPerMTok (by simp [tariffFields])).2
  unfold cachedRate
  cases hprice : tariff pricing MeasuredCostPricing.cachedInputPerMTok with
  | none =>
    cases hprice' : tariff pricing' MeasuredCostPricing.cachedInputPerMTok with
    | none => exact hinput
    | some price' =>
      rw [hprice, hprice'] at hknown
      cases hknown
  | some price =>
    cases hprice' : tariff pricing' MeasuredCostPricing.cachedInputPerMTok with
    | none =>
      rw [hprice, hprice'] at hknown
      cases hknown
    | some price' =>
      rw [hprice, hprice'] at hcached
      exact hcached

theorem Grows.of_raised {pricing : Option MeasuredCostPricing} (h : Raised input.pricing pricing) :
    Grows input { input with pricing } where
  provider := rfl
  lane := rfl
  consumed := id
  hasTariff := by
    have hin := (h.getD_le MeasuredCostPricing.inputPerMTok (by simp [tariffFields])).1
    have hout := (h.getD_le MeasuredCostPricing.outputPerMTok (by simp [tariffFields])).1
    unfold Billing.hasTariff
    rw [hin, hout]
  tokens c := by cases c <;> exact le_rfl
  rates c := by
    cases c with
    | uncached => exact (h.getD_le _ (by simp [tariffFields])).2
    | cached => exact h.cachedRate_le
    | write5m => exact (h.getD_le _ (by simp [tariffFields])).2
    | write1h => exact (h.getD_le _ (by simp [tariffFields])).2
    | output => exact (h.getD_le _ (by simp [tariffFields])).2

theorem costUsd_of_pricedFromTokens (h : PricedFromTokens input) :
    (measureCostUsd input).costUsd =
      roundToStorage (classCost input.tokensOf (TokenClass.rate input.pricing)) := by
  obtain ⟨hreported, hconsumed, hlane, htariff, hprice⟩ := pricedFromTokens_iff.1 h
  rw [measureCostUsd_costUsd, exactCostUsd_eq, hreported]
  dsimp only
  rw [if_neg (not_or.2 ⟨hlane, hconsumed⟩), MeasureInput.tokenCost, if_pos ⟨htariff, hprice⟩,
    inputCost_add_outputCost]

/-! ### The partition -/

/-- What the measured cost of a usage is made of. -/
structure Partitioned (input : MeasureInput) : Prop where
  /-- Priced from tokens, no class has a negative count, -/
  nonneg : PricedFromTokens input → ∀ c, 0 ≤ input.tokensOf c
  /-- the classes of the input are the input tokens that are reported, -/
  sum : PricedFromTokens input → input.tokensOf .uncached + input.tokensOf .cached +
    input.tokensOf .write5m + input.tokensOf .write1h = nonNegativeTokens input.inputTokens
  /-- and the cost is the classes at their rates, rounded. -/
  cost : PricedFromTokens input → (measureCostUsd input).costUsd =
    roundToStorage (classCost input.tokensOf (TokenClass.rate input.pricing))
  /-- A cost is not negative. -/
  costNonneg : 0 ≤ (measureCostUsd input).costUsd
  /-- It does not fall when output tokens grow, -/
  moreOutput : ∀ tokens, nonNegativeTokens input.outputTokens ≤ nonNegativeTokens tokens →
    (measureCostUsd { input with outputTokens := tokens }).source ≠ .unpriced →
    (measureCostUsd input).costUsd ≤
      (measureCostUsd { input with outputTokens := tokens }).costUsd
  /-- when input tokens grow and the cache counters are fixed, -/
  moreInput : ∀ tokens, nonNegativeTokens input.inputTokens ≤ nonNegativeTokens tokens →
    (measureCostUsd { input with inputTokens := tokens }).source ≠ .unpriced →
    (measureCostUsd input).costUsd ≤ (measureCostUsd { input with inputTokens := tokens }).costUsd
  /-- or when known tariffs are raised. -/
  raised : ∀ pricing, Raised input.pricing pricing →
    (measureCostUsd { input with pricing }).source ≠ .unpriced →
    (measureCostUsd input).costUsd ≤ (measureCostUsd { input with pricing }).costUsd

/-- **The tokens of a usage are partitioned**, and the cost is monotone in them. -/
theorem tokens_partitioned (input : MeasureInput) : Partitioned input where
  nonneg h := tokensOf_nonneg (pricedFromTokens_iff.1 h).2.2.2.2
  sum _ := sum_tokensOf input
  cost h := costUsd_of_pricedFromTokens h
  costNonneg := costUsd_nonneg input
  moreOutput _ h hpriced := (Grows.of_output h).costUsd_le hpriced
  moreInput _ h hpriced := (Grows.of_input h).costUsd_le hpriced
  raised _ h hpriced := (Grows.of_raised h).costUsd_le hpriced

/-- A usage of every class. -/
def cachedUsage : MeasureInput where
  providerCostUsd := none
  inputTokens := some 1000
  outputTokens := some 200
  cachedInputTokens := some 300
  cacheCreationInputTokens := some 500
  cacheCreation := some { ephemeral5mInputTokens := some 400, ephemeral1hInputTokens := some 100 }
  pricing := some
    { inputPerMTok := some 3
      outputPerMTok := some 15
      cachedInputPerMTok := some (3 / 10)
      cacheWrite5mPerMTok := some (15 / 4)
      cacheWrite1hPerMTok := some 6 }

example : (measureCostUsd cachedUsage).source = .catalog ∧
    (measureCostUsd cachedUsage).costUsd = 579 / 100000 := by
  decide +kernel

end ModelConnector
