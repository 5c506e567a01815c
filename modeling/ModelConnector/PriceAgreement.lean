import ModelConnector.Billing.PriceCoverage
import ModelConnector.Connectors.Catalog
import ModelConnector.MeteringAdditivity

/-!
# The mapper, the audit and the meter

Three functions read the same tariffs. `deriveTier` looks at the two main ones and at the free flag
and decides who may use a model for nothing; `classifyPriceCoverage` looks at the two main ones and
decides whether a model has a price; the meter looks at five of them, each on its own, and at the
tier last of all.

They do not agree. `free_charges_nothing_iff` says for which entries a free tier costs nothing:
those without a main tariff the meter can use, and those all of whose tariffs are zero.
`audited_never_unpriced_iff` says for which audited models no usage stays unpriced.
-/

namespace ModelConnector

open Billing Connectors

/-- A tariff of a routable model is a finite number that is not negative. -/
def Billing.RoutableModel.HasPrice (model : RoutableModel)
    (field : RoutablePricing → Option Number) : Prop :=
  ∃ price : ℚ, model.tariff field = some (.finite price) ∧ 0 ≤ price

namespace Connectors

/-- A tariff of an entry, as far as the meter can use it. -/
def CatalogModelEntry.usable (entry : CatalogModelEntry) (field : ModelPricing → Option Number) :
    Option ℚ :=
  usablePrice (meterPrice (entry.tariff field))

/-- The entry has a main tariff the meter can use. -/
def CatalogModelEntry.HasUsableTariff (entry : CatalogModelEntry) : Prop :=
  (entry.usable ModelPricing.inputPerMTok).isSome = true ∨
    (entry.usable ModelPricing.outputPerMTok).isSome = true

/-- Both main tariffs are zero, or one is unknown and the provider calls the model free. -/
def CatalogModelEntry.CountsAsFree (entry : CatalogModelEntry) : Prop :=
  entry.tariff ModelPricing.inputPerMTok = some (.finite 0) ∧
      entry.tariff ModelPricing.outputPerMTok = some (.finite 0) ∨
    (entry.tariff ModelPricing.inputPerMTok = none ∨
      entry.tariff ModelPricing.outputPerMTok = none) ∧ entry.free = true

/-- No tariff the meter can use is above zero. -/
def CatalogModelEntry.NoTariffAboveZero (entry : CatalogModelEntry) : Prop :=
  ∀ field ∈ [ModelPricing.inputPerMTok, ModelPricing.outputPerMTok,
      ModelPricing.cachedInputPerMTok, ModelPricing.cacheWrite5mPerMTok,
      ModelPricing.cacheWrite1hPerMTok], (entry.usable field).getD 0 = 0

end Connectors

/-! ### One class of tokens -/

section OneClass

variable {pricing : Option MeasuredCostPricing}

/-- A usage of one class of tokens. -/
def usageOf (pricing : Option MeasuredCostPricing) (tokens : ℚ) : TokenClass → MeasureInput
  | .uncached =>
    { providerCostUsd := none, inputTokens := some tokens, outputTokens := none, pricing }
  | .cached =>
    { providerCostUsd := none, inputTokens := some tokens, outputTokens := none
      cachedInputTokens := some tokens, pricing }
  | .write5m =>
    { providerCostUsd := none, inputTokens := some tokens, outputTokens := none
      cacheCreation := some { ephemeral5mInputTokens := some tokens }, pricing }
  | .write1h =>
    { providerCostUsd := none, inputTokens := some tokens, outputTokens := none
      cacheCreation := some { ephemeral1hInputTokens := some tokens }, pricing }
  | .output =>
    { providerCostUsd := none, inputTokens := none, outputTokens := some tokens, pricing }

theorem usageOf_pricing (tokens : ℚ) (c : TokenClass) :
    (usageOf pricing tokens c).pricing = pricing := by
  cases c <;> rfl

theorem usageOf_providerReported (tokens : ℚ) (c : TokenClass) :
    (usageOf pricing tokens c).providerReported = none := by
  cases c <;> rfl

theorem isSome_of_getD_pos {price : Option ℚ} (h : 0 < price.getD 0) : price.isNone = false := by
  cases price with
  | none => exact absurd h (lt_irrefl _)
  | some _ => rfl

/-- The tokens of a usage of one class are counted in that class. -/
theorem counts_usageOf (pricing : Option MeasuredCostPricing) {tokens : ℚ} (htokens : 0 ≤ tokens)
    (c : TokenClass) :
    (usageOf pricing tokens c).tokensIn = (if c = .output then 0 else tokens) ∧
      (usageOf pricing tokens c).tokensOut = (if c = .output then tokens else 0) ∧
      (usageOf pricing tokens c).cachedIn = (if c = .cached then tokens else 0) ∧
      (usageOf pricing tokens c).write5m = (if c = .write5m then tokens else 0) ∧
      (usageOf pricing tokens c).write1h = (if c = .write1h then tokens else 0) ∧
      (usageOf pricing tokens c).reportedWrites =
        (usageOf pricing tokens c).write5m + (usageOf pricing tokens c).write1h := by
  have hcount : nonNegativeTokens (some tokens) = tokens := nonNegativeTokens_of_nonneg htokens
  have hnone : nonNegativeTokens none = 0 := rfl
  cases c <;>
    simp [usageOf, MeasureInput.tokensIn, MeasureInput.tokensOut, MeasureInput.cachedIn,
      MeasureInput.write5m, MeasureInput.write1h, MeasureInput.reportedWrites, hcount, hnone,
      htokens]

/-- Tokens of a class that has a rate cost their number times the rate. -/
theorem exactCostUsd_usageOf {tokens : ℚ} (htokens : 0 < tokens) {c : TokenClass}
    (htariff : hasTariff pricing = true) (hrate : 0 < c.rate pricing) :
    exactCostUsd (usageOf pricing tokens c) = tokens * c.rate pricing / TOKENS_PER_PRICE_UNIT := by
  obtain ⟨hin, hout, hcached, hwrite5m, hwrite1h, hreported⟩ :=
    counts_usageOf pricing htokens.le c
  have hlane : (usageOf pricing tokens c).lane ≠ .subscription := by
    cases c <;> rintro ⟨⟩
  rw [exactCostUsd_eq, usageOf_providerReported]
  simp only [MeasureInput.tokenCost, MeasureInput.unpriceable, MeasureInput.inputCost,
    MeasureInput.outputCost, usageOf_pricing, hin, hout, hcached, hreported, hwrite5m, hwrite1h,
    hlane, false_or]
  cases c with
  | uncached => simp [htokens.ne', htokens.le, htariff, TokenClass.rate]
  | cached => simp [htokens.ne', htariff, TokenClass.rate]
  | write5m =>
    have hsome := isSome_of_getD_pos hrate
    simp [htokens.ne', htariff, hsome, TokenClass.rate]
  | write1h =>
    have hsome := isSome_of_getD_pos hrate
    simp [htokens.ne', htariff, hsome, TokenClass.rate]
  | output => simp [htokens.ne', htariff, TokenClass.rate]

end OneClass

/-! ### Free means free -/

/-- The meter charges nothing on a row, whatever is used. -/
def ChargesNothing (row : ModelCatalogUpsert) : Prop :=
  ∀ input : MeasureInput, input.pricing = some row.catalogPricing →
    input.providerReported = none → (measureCostUsd input).costUsd = 0

section Free

variable {pricing : Option MeasuredCostPricing}

theorem tokenCost_eq_zero_of_rate {input : MeasureInput}
    (h : ∀ c ∈ TokenClass.all, c.rate input.pricing = 0) : input.tokenCost = 0 := by
  have huncached : (tariff input.pricing MeasuredCostPricing.inputPerMTok).getD 0 = 0 :=
    h .uncached (by decide)
  have hcached : cachedRate input.pricing = 0 := h .cached (by decide)
  have h5m : (tariff input.pricing MeasuredCostPricing.cacheWrite5mPerMTok).getD 0 = 0 :=
    h .write5m (by decide)
  have h1h : (tariff input.pricing MeasuredCostPricing.cacheWrite1hPerMTok).getD 0 = 0 :=
    h .write1h (by decide)
  have houtput : (tariff input.pricing MeasuredCostPricing.outputPerMTok).getD 0 = 0 :=
    h .output (by decide)
  simp [MeasureInput.tokenCost, MeasureInput.inputCost, MeasureInput.outputCost, huncached,
    hcached, h5m, h1h, houtput]

/-- On a row the meter charges nothing exactly when it sees no tariff, or when every class of
tokens has the rate zero. -/
theorem costs_nothing_iff :
    (∀ input : MeasureInput, input.pricing = pricing → input.providerReported = none →
      (measureCostUsd input).costUsd = 0) ↔
    hasTariff pricing = false ∨ ∀ c ∈ TokenClass.all, c.rate pricing = 0 := by
  constructor
  · intro hall
    by_contra hnot
    obtain ⟨htariff, hrates⟩ := not_or.1 hnot
    push Not at hrates
    obtain ⟨c, -, hrate⟩ := hrates
    have hpos : 0 < c.rate pricing := lt_of_le_of_ne (rate_nonneg pricing c) (Ne.symm hrate)
    -- as many tokens of the class as one dollar pays for
    have htokens : 0 < TOKENS_PER_PRICE_UNIT / c.rate pricing :=
      div_pos (by norm_num [TOKENS_PER_PRICE_UNIT]) hpos
    have hcost := exactCostUsd_usageOf htokens (by simpa using htariff) hpos
    have hone : exactCostUsd (usageOf pricing (TOKENS_PER_PRICE_UNIT / c.rate pricing) c) = 1 := by
      rw [hcost, div_mul_cancel₀ _ hrate]
      norm_num [TOKENS_PER_PRICE_UNIT]
    have hzero := hall (usageOf pricing (TOKENS_PER_PRICE_UNIT / c.rate pricing) c)
      (usageOf_pricing _ c) (usageOf_providerReported _ c)
    rw [measureCostUsd_costUsd, hone] at hzero
    exact absurd hzero (by norm_num [roundToStorage, COST_DECIMALS])
  · rintro h input rfl hreported
    have htoken : input.tokenCost = 0 := by
      rcases h with htariff | hrates
      · rw [MeasureInput.tokenCost, if_neg (by simp [htariff])]
      · exact tokenCost_eq_zero_of_rate hrates
    have hexact : exactCostUsd input = 0 := by
      rw [exactCostUsd_eq, hreported]
      show (if _ then (0 : ℚ) else input.tokenCost) = 0
      rw [htoken, ite_self]
    rw [measureCostUsd_costUsd, hexact]
    norm_num [roundToStorage]

variable {now : ℤ} {useEnabled : Bool} {entry : CatalogModelEntry}

theorem hasTariff_row_iff :
    hasTariff (some (entryToRow now useEnabled entry).catalogPricing) = true ↔
      entry.HasUsableTariff :=
  Bool.or_eq_true_iff

theorem rates_row_iff :
    (∀ c ∈ TokenClass.all, c.rate (some (entryToRow now useEnabled entry).catalogPricing) = 0) ↔
      entry.NoTariffAboveZero := by
  have hcached : ∀ {a b : Option ℚ}, b.getD 0 = 0 → ((a.or b).getD 0 = 0 ↔ a.getD 0 = 0) := by
    intro a b hb
    cases a with
    | none => simpa using hb
    | some _ => rfl
  constructor
  · intro h
    have hinput : (entry.usable ModelPricing.inputPerMTok).getD 0 = 0 := h .uncached (by decide)
    have hcache : ((entry.usable ModelPricing.cachedInputPerMTok).or
        (entry.usable ModelPricing.inputPerMTok)).getD 0 = 0 := h .cached (by decide)
    intro field hfield
    simp only [List.mem_cons, List.not_mem_nil, or_false] at hfield
    rcases hfield with rfl | rfl | rfl | rfl | rfl
    · exact hinput
    · exact h .output (by decide)
    · exact (hcached hinput).1 hcache
    · exact h .write5m (by decide)
    · exact h .write1h (by decide)
  · intro h c _
    have hinput : (entry.usable ModelPricing.inputPerMTok).getD 0 = 0 := h _ (by simp)
    cases c with
    | uncached => exact hinput
    | cached => exact (hcached hinput).2 (h ModelPricing.cachedInputPerMTok (by simp))
    | write5m => exact h ModelPricing.cacheWrite5mPerMTok (by simp)
    | write1h => exact h ModelPricing.cacheWrite1hPerMTok (by simp)
    | output => exact h ModelPricing.outputPerMTok (by simp)

end Free

/-- **When free means free.** A row with the tier free is charged nothing exactly when the entry it
comes from does not count as free at all, has no main tariff the meter can use, or has none of the
five above zero. -/
theorem free_charges_nothing_iff (now : ℤ) (useEnabled : Bool) (entry : CatalogModelEntry) :
    ((entryToRow now useEnabled entry).tier = .free →
        ChargesNothing (entryToRow now useEnabled entry)) ↔
      (entry.CountsAsFree → ¬ entry.HasUsableTariff ∨ entry.NoTariffAboveZero) := by
  have htier : (entryToRow now useEnabled entry).tier = .free ↔ entry.CountsAsFree :=
    deriveTier_eq_free_iff
  have hcost : ChargesNothing (entryToRow now useEnabled entry) ↔
      ¬ entry.HasUsableTariff ∨ entry.NoTariffAboveZero := by
    rw [ChargesNothing, costs_nothing_iff, rates_row_iff, ← hasTariff_row_iff, Bool.not_eq_true]
  rw [htier, hcost]

/-- A model with a tariff for cache writes beside two zero tariffs. -/
def cacheWriteEntry : CatalogModelEntry where
  connector := "openrouter"
  model := "vendor/model:free"
  modality := .chat
  tags := []
  free := true
  cheap := true
  priceMultiplier := none
  rateLimits := none
  pricing := some
    { inputPerMTok := some (.finite 0)
      outputPerMTok := some (.finite 0)
      cacheWrite5mPerMTok := some (.finite 3)
      unit := "per_1m_tokens" }
  contextWindow := none
  maxOutputTokens := none
  capabilities := { supportsStreaming := true, supportsJsonSchema := false, supportsTools := false }
  routing := { connector := "openrouter", model := "vendor/model:free" }
  available := true

/-- A model with the free flag and a tariff for its output only. -/
def outputOnlyEntry : CatalogModelEntry :=
  { cacheWriteEntry with
    pricing := some
      { inputPerMTok := none
        outputPerMTok := some (.finite 15)
        unit := "per_1m_tokens" } }

/-- Free models that are charged for: the cache writes of one have a tariff, and the one tariff
that is known of the other is above zero. -/
theorem free_charges_something :
    (entryToRow 0 true cacheWriteEntry).tier = .free ∧
      ¬ ChargesNothing (entryToRow 0 true cacheWriteEntry) ∧
      (entryToRow 0 true outputOnlyEntry).tier = .free ∧
      ¬ ChargesNothing (entryToRow 0 true outputOnlyEntry) := by
  refine ⟨by decide +kernel, fun h ↦ ?_, by decide +kernel, fun h ↦ ?_⟩
  · have hzero := h (usageOf _ 1000000 .write5m) rfl rfl
    revert hzero
    decide +kernel
  · have hzero := h (usageOf _ 1000000 .output) rfl rfl
    revert hzero
    decide +kernel

/-! ### A green audit -/

/-- The entry carries the tariffs and the free flag the audit saw. -/
structure SameTariffs (model : RoutableModel) (entry : CatalogModelEntry) : Prop where
  input : entry.tariff ModelPricing.inputPerMTok = model.tariff RoutablePricing.inputPerMTok
  output : entry.tariff ModelPricing.outputPerMTok = model.tariff RoutablePricing.outputPerMTok
  free : entry.free = true ↔ model.free = some true

/-- On a metered lane no usage without cache writes stays unpriced on a row. -/
def NeverUnpriced (row : ModelCatalogUpsert) : Prop :=
  ∀ input : MeasureInput, input.pricing = some row.catalogPricing → input.lane = .api →
    input.reportedWrites = 0 → input.write5m = 0 → input.write1h = 0 →
    (measureCostUsd input).source ≠ .unpriced

section Audit

variable {now : ℤ} {useEnabled : Bool} {entry : CatalogModelEntry} {model : RoutableModel}

theorem usablePrice_isSome_iff {price : Option Number} :
    (usablePrice (meterPrice price)).isSome = true ↔
      ∃ q : ℚ, price = some (.finite q) ∧ 0 ≤ q := by
  rcases price with _ | value
  · simp [meterPrice, usablePrice]
  · cases value with
    | finite q => simp [meterPrice, usablePrice, Number.finite?, Option.isSome_filter]
    | infinite negative => simp [meterPrice, usablePrice, Number.finite?]
    | nan => simp [meterPrice, usablePrice, Number.finite?]

/-- Without cache writes the tariffs apply to every usage. -/
theorem unpriceable_eq_false {input : MeasureInput} (hreported : input.reportedWrites = 0)
    (h5m : input.write5m = 0) (h1h : input.write1h = 0) : input.unpriceable = false := by
  have hcached : input.cachedIn ≤ input.tokensIn := min_le_right _ _
  simp [MeasureInput.unpriceable, hreported, h5m, h1h, hcached]

theorem neverUnpriced_iff :
    NeverUnpriced (entryToRow now useEnabled entry) ↔
      entry.HasUsableTariff ∨ entry.CountsAsFree := by
  have htier : (some (entryToRow now useEnabled entry).catalogPricing).bind
      MeasuredCostPricing.tier = some "free" ↔ entry.CountsAsFree := by
    show some (entryToRow now useEnabled entry).tier.value = some "free" ↔ _
    rw [Option.some_inj, ModelTier.value_eq_free_iff]
    exact deriveTier_eq_free_iff
  have htariff : hasTariff (some (entryToRow now useEnabled entry).catalogPricing) = true ↔
      entry.HasUsableTariff := hasTariff_row_iff
  rw [← htariff, ← htier]
  constructor
  · intro hall
    by_contra hnot
    obtain ⟨htariff, hfree⟩ := not_or.1 hnot
    refine hall (usageOf (some (entryToRow now useEnabled entry).catalogPricing) 1 .uncached)
      rfl rfl (add_zero 0) rfl rfl ((measureCostUsd_unpriced_iff _).2 ⟨rfl, ?_, ?_, .inr ⟨?_, ?_⟩⟩)
    · simp [usageOf, MeasureInput.tokensIn, nonNegativeTokens]
    · simp [usageOf]
    · rw [usageOf_pricing]
      exact Bool.not_eq_true _ ▸ htariff
    · rwa [usageOf_pricing]
  · rintro hprice input hpricing - hreported h5m h1h hsource
    obtain ⟨-, -, -, ⟨-, hbad⟩ | ⟨htariff, hfree⟩⟩ := (measureCostUsd_unpriced_iff input).1 hsource
    · rw [unpriceable_eq_false hreported h5m h1h] at hbad
      cases hbad
    · rw [hpricing] at htariff hfree
      rcases hprice with hprice | hprice
      · rw [htariff] at hprice
        cases hprice
      · exact hfree hprice

end Audit

/-- **What a green audit rules out.** No usage of a model that the audit calls priced stays unpriced
exactly when one of its finite tariffs is not negative, or when the provider calls it free and one
tariff is unknown; and none of a model that it calls free exactly when one tariff is unknown. -/
theorem audited_never_unpriced_iff (now : ℤ) (useEnabled : Bool)
    (waivers : List PriceCoverageWaiver) {model : RoutableModel} {entry : CatalogModelEntry}
    (hsame : SameTariffs model entry) :
    (classifyPriceCoverage model waivers now = .priced →
      (NeverUnpriced (entryToRow now useEnabled entry) ↔
        model.HasPrice RoutablePricing.inputPerMTok ∨
        model.HasPrice RoutablePricing.outputPerMTok ∨
        model.free = some true ∧ (model.tariff RoutablePricing.inputPerMTok = none ∨
          model.tariff RoutablePricing.outputPerMTok = none))) ∧
    (classifyPriceCoverage model waivers now = .free →
      (NeverUnpriced (entryToRow now useEnabled entry) ↔
        model.tariff RoutablePricing.inputPerMTok = none ∨
          model.tariff RoutablePricing.outputPerMTok = none)) := by
  have htariff : entry.HasUsableTariff ↔
      model.HasPrice RoutablePricing.inputPerMTok ∨
        model.HasPrice RoutablePricing.outputPerMTok := by
    unfold CatalogModelEntry.HasUsableTariff CatalogModelEntry.usable RoutableModel.HasPrice
    rw [usablePrice_isSome_iff, usablePrice_isSome_iff, hsame.input, hsame.output]
  have hfree : entry.CountsAsFree ↔
      model.tariff RoutablePricing.inputPerMTok = some (.finite 0) ∧
          model.tariff RoutablePricing.outputPerMTok = some (.finite 0) ∨
        (model.tariff RoutablePricing.inputPerMTok = none ∨
          model.tariff RoutablePricing.outputPerMTok = none) ∧ model.free = some true := by
    unfold CatalogModelEntry.CountsAsFree
    rw [hsame.input, hsame.output, hsame.free]
  rw [neverUnpriced_iff, htariff, hfree]
  constructor
  · intro _
    constructor
    · rintro ((hinput | houtput) | ⟨hzero, -⟩ | ⟨hunknown, hflag⟩)
      · exact .inl hinput
      · exact .inr (.inl houtput)
      · exact .inl ⟨0, hzero, le_rfl⟩
      · exact .inr (.inr ⟨hflag, hunknown⟩)
    · rintro (hinput | houtput | ⟨hflag, hunknown⟩)
      · exact .inl (.inl hinput)
      · exact .inl (.inr houtput)
      · exact .inr (.inr ⟨hunknown, hflag⟩)
  · intro hverdict
    -- the audit calls a model free only when neither tariff is a finite number
    obtain ⟨hnone, hflag⟩ := classifyPriceCoverage_free_iff.1 hverdict
    obtain ⟨hinput, houtput⟩ := Bool.or_eq_false_iff.1 hnone
    constructor
    · rintro ((⟨q, hq, -⟩ | ⟨q, hq, -⟩) | ⟨hzero, -⟩ | ⟨hunknown, -⟩)
      · simp [hq, Number.finite?] at hinput
      · simp [hq, Number.finite?] at houtput
      · simp [hzero, Number.finite?] at hinput
      · exact hunknown
    · intro hunknown
      exact .inr (.inr ⟨hunknown, hflag⟩)

/-- A model whose listing gives both prices as `-1`, the way a provider says that they vary. -/
def variablyPriced : RoutableModel where
  connector := "openrouter"
  model := "openrouter/auto"
  pricing := some
    { inputPerMTok := normalizePerMTokPrice (.text "-1")
      outputPerMTok := normalizePerMTokPrice (.text "-1") }
  free := some false

/-- The entry of the same model. -/
def variablyPricedEntry : CatalogModelEntry :=
  { cacheWriteEntry with
    model := "openrouter/auto"
    free := false
    pricing := some
      { inputPerMTok := normalizePerMTokPrice (.text "-1")
        outputPerMTok := normalizePerMTokPrice (.text "-1")
        unit := "per_1m_tokens" }
    routing := { connector := "openrouter", model := "openrouter/auto" } }

theorem variablyPriced_sameTariffs : SameTariffs variablyPriced variablyPricedEntry where
  input := rfl
  output := rfl
  free := by decide

/-- The audit passes a model every call of which settles at nothing. -/
theorem audited_unpriced :
    classifyPriceCoverage variablyPriced [] 0 = .priced ∧
      SameTariffs variablyPriced variablyPricedEntry ∧
      ¬ NeverUnpriced (entryToRow 0 true variablyPricedEntry) := by
  refine ⟨by decide +kernel, variablyPriced_sameTariffs, fun h ↦ ?_⟩
  have hsource := h (usageOf _ 1000000 .uncached) rfl rfl (add_zero 0) rfl rfl
  revert hsource
  decide +kernel

/-- The condition at that model: it has no price, so its usages stay unpriced. -/
theorem audited_never_unpriced_iff_variablyPriced :
    NeverUnpriced (entryToRow 0 true variablyPricedEntry) ↔
      variablyPriced.HasPrice RoutablePricing.inputPerMTok ∨
        variablyPriced.HasPrice RoutablePricing.outputPerMTok ∨
        variablyPriced.free = some true ∧
          (variablyPriced.tariff RoutablePricing.inputPerMTok = none ∨
            variablyPriced.tariff RoutablePricing.outputPerMTok = none) :=
  (audited_never_unpriced_iff 0 true [] variablyPriced_sameTariffs).1 (by decide +kernel)

end ModelConnector
