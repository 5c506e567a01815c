import Mathlib.Algebra.Order.Archimedean.Basic
import Mathlib.Data.Finset.Max
import ModelConnector.Billing.CostEstimate
import ModelConnector.Billing.Store
import ModelConnector.PriceAgreement
import ModelConnector.TokenPartition

/-!
# Whether the hold covers the charge

What is held for a request is its estimate, which prices every input token at the input tariff and
every output token at the output tariff, as the catalogue row has them. What is charged prices the
tokens class by class, and ignores a tariff that is negative. So a hold covers the usages within the
estimated tokens when no class of tokens has a rate above the one it is estimated at: a write to the
cache, which costs more than a plain input token, breaks this.

Both are computed in doubles. The estimate is written as a decimal and rounded by its column, the
charge is scaled, rounded and divided again, so an estimate at half a micro-dollar can be held as
the number below it and charged as the one above. `Clear` keeps away from the halves by more than
all the roundings come to. -/

namespace ModelConnector

open Billing

variable {row : MeasuredCostPricing} {prompt : Option Prompt} {maxTokens : Option Number}
  {usage : MeasureInput}

/-- The rate a class of tokens is estimated at. -/
def TokenClass.estimateRate (row : MeasuredCostPricing) : TokenClass → ℚ
  | .output => row.outputPerMTok.getD 0
  | _ => row.inputPerMTok.getD 0

/-- The estimate of a request, as the column of the hold stores the decimal it is written as. -/
def heldMicros (row : MeasuredCostPricing) (prompt : Option Prompt) (maxTokens : Option Number) :
    ℤ :=
  toMicros (shortestDecimal (estimateRequestCost (some row) prompt maxTokens))

/-- Usages within the estimated tokens, that the provider reports no cost for, cost no more than is
held. -/
def HoldCovers (row : MeasuredCostPricing) (prompt : Option Prompt) (maxTokens : Option Number) :
    Prop :=
  ∀ usage : MeasureInput, usage.pricing = some row → usage.providerReported = none →
    usage.tokensIn ≤ estimateInputTokens prompt → usage.tokensOut ≤ assumedOutputTokens maxTokens →
    measuredMicros usage ≤ heldMicros row prompt maxTokens

/-- No class of tokens has a rate above the one it is estimated at. -/
def RatesCovered (row : MeasuredCostPricing) : Prop :=
  ∀ c : TokenClass, c.rate (some row) ≤ c.estimateRate row

/-- The estimate before any rounding, in micro-dollars. -/
def exactEstimate (row : MeasuredCostPricing) (prompt : Option Prompt)
    (maxTokens : Option Number) : ℚ :=
  row.inputPerMTok.getD 0 * estimateInputTokens prompt +
    row.outputPerMTok.getD 0 * assumedOutputTokens maxTokens

/-- What a token more on each side comes to, and a micro-dollar. -/
def estimateScale (row : MeasuredCostPricing) (prompt : Option Prompt)
    (maxTokens : Option Number) : ℚ :=
  row.inputPerMTok.getD 0 * (estimateInputTokens prompt + 1) +
    row.outputPerMTok.getD 0 * (assumedOutputTokens maxTokens + 1) + 1

/-- The exact estimate is not next to half a micro-dollar. -/
def Clear (row : MeasuredCostPricing) (prompt : Option Prompt) (maxTokens : Option Number) :
    Prop :=
  ∀ n : ℤ, estimateScale row prompt maxTokens / 2 ^ 40 <
    |exactEstimate row prompt maxTokens - (n + 1 / 2)|

theorem estimateScale_eq (row : MeasuredCostPricing) (prompt : Option Prompt)
    (maxTokens : Option Number) : estimateScale row prompt maxTokens =
      exactEstimate row prompt maxTokens + row.inputPerMTok.getD 0 + row.outputPerMTok.getD 0 + 1 := by
  rw [exactEstimate, estimateScale]
  ring

/-- The halves on both sides of the exact estimate are apart from it. -/
theorem Clear.apart (hclear : Clear row prompt maxTokens) :
    (⌊exactEstimate row prompt maxTokens + 1 / 2⌋ : ℚ) - 1 / 2 +
        estimateScale row prompt maxTokens / 2 ^ 40 < exactEstimate row prompt maxTokens ∧
      exactEstimate row prompt maxTokens + estimateScale row prompt maxTokens / 2 ^ 40 <
        (⌊exactEstimate row prompt maxTokens + 1 / 2⌋ : ℚ) + 1 / 2 := by
  have hfloor := Int.floor_le (exactEstimate row prompt maxTokens + 1 / 2)
  have hfloor' := Int.lt_floor_add_one (exactEstimate row prompt maxTokens + 1 / 2)
  have hbelow := hclear (⌊exactEstimate row prompt maxTokens + 1 / 2⌋ - 1)
  have habove := hclear ⌊exactEstimate row prompt maxTokens + 1 / 2⌋
  push_cast at hbelow
  rw [abs_of_nonneg (by linarith)] at hbelow
  rw [abs_of_nonpos (by linarith)] at habove
  exact ⟨by linarith, by linarith⟩

/-! ### The estimate in doubles -/

/-- What is held, before the column rounds it. -/
theorem near_held (hpriced : row.inputPerMTok ≠ none ∨ row.outputPerMTok ≠ none)
    (prompt : Option Prompt) (maxTokens : Option Number) :
    Near 4 (|row.inputPerMTok.getD 0 * estimateInputTokens prompt| +
        |row.outputPerMTok.getD 0 * assumedOutputTokens maxTokens| + 2)
      (shortestDecimal (estimateRequestCost (some row) prompt maxTokens) * 10 ^ 6)
      (exactEstimate row prompt maxTokens) := by
  have hhalf : ∀ q : ℚ,
      Near 2 ((|q| + 1) / 1000000) (double (double q / 1000000)) (q / 1000000) := by
    intro q
    have hq := abs_nonneg q
    have hfirst : Near 1 (|q| + 1) (double q) q :=
      (Near.refl (by linarith)).rounded (by linarith)
    exact (hfirst.div (by norm_num)).rounded (by linarith)
  set a := row.inputPerMTok.getD 0 * estimateInputTokens prompt with ha
  set b := row.outputPerMTok.getD 0 * assumedOutputTokens maxTokens with hb
  have hsize : (1 : ℚ) / 2 ^ 100 ≤ (|a| + 1) / 1000000 + (|b| + 1) / 1000000 := by
    have ha := abs_nonneg a
    have hb := abs_nonneg b
    linarith
  have hsum := ((hhalf a).add (hhalf b)).rounded hsize
  rw [← estimateRequestCost_of_priced hpriced] at hsum
  have hread : double (shortestDecimal (estimateRequestCost (some row) prompt maxTokens)) =
      estimateRequestCost (some row) prompt maxTokens := by
    refine double_shortestDecimal ?_
    rw [estimateRequestCost_of_priced hpriced, double_double]
  have hscaled := (hsum.readsBack hread hsize).mul_right (c := 10 ^ 6) (by norm_num)
  have hexact : (a / 1000000 + b / 1000000) * 10 ^ 6 = exactEstimate row prompt maxTokens := by
    rw [exactEstimate]
    ring
  rw [hexact] at hscaled
  exact hscaled.mono le_rfl (by linarith)

/-! ### The charge in doubles -/

/-- The cost of the tokens as the code counts them, before any rounding and in micro-dollars. -/
def exactMicros (input : MeasureInput) : ℚ :=
  (input.tokensIn - input.cachedIn - (input.write5m + input.write1h)) *
      TokenClass.uncached.rate input.pricing +
    input.cachedIn * TokenClass.cached.rate input.pricing +
    input.write5m * TokenClass.write5m.rate input.pricing +
    input.write1h * TokenClass.write1h.rate input.pricing +
    input.tokensOut * TokenClass.output.rate input.pricing

/-- What is written to the caches is at most the input, but for the roundings. -/
theorem writes_le (h : usage.unpriceableInDoubles = false) :
    usage.write5m + usage.write1h ≤ 2 * usage.tokensIn + 1 := by
  have hroom : usage.writes ≤ double (usage.tokensIn - usage.cachedIn) := by
    simp only [MeasureInput.unpriceableInDoubles, Bool.or_eq_false_iff, decide_eq_false_iff_not] at h
    exact not_lt.1 h.1.1.2
  have hin : 0 ≤ usage.tokensIn := nonNegativeTokens_nonneg _
  have hcached : 0 ≤ usage.cachedIn := le_min (nonNegativeTokens_nonneg _) hin
  have hle : usage.cachedIn ≤ usage.tokensIn := min_le_right _ _
  have h5m : 0 ≤ usage.write5m := nonNegativeTokens_nonneg _
  have h1h : 0 ≤ usage.write1h := nonNegativeTokens_nonneg _
  have hwrites := (abs_le.1 (abs_double_sub_le (usage.write5m + usage.write1h))).1
  have hrest := (abs_le.1 (abs_double_sub_le (usage.tokensIn - usage.cachedIn))).2
  rw [abs_of_nonneg (add_nonneg h5m h1h)] at hwrites
  rw [abs_of_nonneg (sub_nonneg.2 hle)] at hrest
  rw [MeasureInput.writes] at hroom
  linarith

/-- A count of tokens at a rate. -/
theorem near_term {k : ℕ} {b x y c B : ℚ} (h : Near k b x y) (hc : 0 ≤ c) (hle : b * c ≤ B)
    (hB : 1 ≤ B) : Near (k + 1) B (double (x * c)) (y * c) :=
  ((h.mul_right hc).mono le_rfl hle).rounded (hB.trans' (by norm_num))

/-- The input half, where no input token has a rate above `rate`. -/
theorem near_inputCost {rate : ℚ} (h : usage.unpriceableInDoubles = false)
    (hrate : ∀ c : TokenClass, c ≠ .output → c.rate usage.pricing ≤ rate) :
    Near 7 ((rate * (12 * usage.tokensIn + 16) + 4) / 1000000) usage.inputCostInDoubles
      (((usage.tokensIn - usage.cachedIn - (usage.write5m + usage.write1h)) *
          TokenClass.uncached.rate usage.pricing +
        usage.cachedIn * TokenClass.cached.rate usage.pricing +
        usage.write5m * TokenClass.write5m.rate usage.pricing +
        usage.write1h * TokenClass.write1h.rate usage.pricing) / 1000000) := by
  have hwrites := writes_le h
  have hin : 0 ≤ usage.tokensIn := nonNegativeTokens_nonneg _
  have hcached : 0 ≤ usage.cachedIn := le_min (nonNegativeTokens_nonneg _) hin
  have hle : usage.cachedIn ≤ usage.tokensIn := min_le_right _ _
  have h5m : 0 ≤ usage.write5m := nonNegativeTokens_nonneg _
  have h1h : 0 ≤ usage.write1h := nonNegativeTokens_nonneg _
  have hnonneg : ∀ c : TokenClass, 0 ≤ c.rate usage.pricing := rate_nonneg usage.pricing
  have hrate₀ : 0 ≤ rate := (hnonneg .uncached).trans (hrate .uncached (by decide))
  set B := rate * (3 * usage.tokensIn + 4) + 1 with hB
  have hone : 1 ≤ B := le_add_of_nonneg_left (by positivity)
  -- each class of input tokens, at its rate
  have hterm : ∀ {k : ℕ} {b x y : ℚ} (c : TokenClass), c ≠ .output → Near k b x y →
      b ≤ 3 * usage.tokensIn + 4 → Near (k + 1) B (double (x * c.rate usage.pricing))
        (y * c.rate usage.pricing) := by
    intro k b x y c hc hnear hb
    refine near_term hnear (hnonneg c) ?_ hone
    have hmul := mul_le_mul hb (hrate c hc) (hnonneg c) (by linarith)
    linarith
  have hcount : Near 2 ((usage.tokensIn + 1) + (usage.write5m + usage.write1h + 1))
      usage.uncachedInputTokens
      (usage.tokensIn - usage.cachedIn - (usage.write5m + usage.write1h)) := by
    have hsub : Near 1 (usage.tokensIn + 1) (double (usage.tokensIn - usage.cachedIn))
        (usage.tokensIn - usage.cachedIn) :=
      (Near.refl (abs_le.2 ⟨by linarith, by linarith⟩)).rounded (by linarith)
    have hadd : Near 1 (usage.write5m + usage.write1h + 1) usage.writes
        (usage.write5m + usage.write1h) :=
      (Near.refl (abs_le.2 ⟨by linarith, by linarith⟩)).rounded (by linarith)
    exact (hsub.sub hadd).rounded (by linarith)
  have hplain : ∀ {x : ℚ}, 0 ≤ x → Near 0 x x x := fun hx ↦ Near.refl (abs_of_nonneg hx).le
  have huncached := hterm .uncached (by decide) hcount (by linarith)
  have hcached := (hterm .cached (by decide) (hplain hcached) (by linarith)).mono
    (show 1 ≤ 3 by norm_num) le_rfl
  have h5m := (hterm .write5m (by decide) (hplain h5m) (by linarith)).mono
    (show 1 ≤ 4 by norm_num) le_rfl
  have h1h := (hterm .write1h (by decide) (hplain h1h) (by linarith)).mono
    (show 1 ≤ 5 by norm_num) le_rfl
  -- and their sum
  have htwo := (huncached.add hcached).rounded (by linarith)
  have hthree := (htwo.add h5m).rounded (by linarith)
  have hfour := (hthree.add h1h).rounded (by linarith)
  have hsize : B + B + B + B = rate * (12 * usage.tokensIn + 16) + 4 := by
    rw [hB]
    ring
  rw [← hsize]
  exact (hfour.div (by norm_num)).rounded (by linarith)

/-- The output half. -/
theorem near_outputCost (usage : MeasureInput) :
    Near 2 ((usage.tokensOut * TokenClass.output.rate usage.pricing + 1) / 1000000)
      usage.outputCostInDoubles
      (usage.tokensOut * TokenClass.output.rate usage.pricing / 1000000) := by
  have hout : 0 ≤ usage.tokensOut := nonNegativeTokens_nonneg _
  have hrate := rate_nonneg usage.pricing .output
  have hcost := mul_nonneg hout hrate
  have hproduct := near_term (B := usage.tokensOut * TokenClass.output.rate usage.pricing + 1)
    (Near.refl (abs_of_nonneg hout).le) hrate (by linarith) (by linarith)
  exact (hproduct.div (by norm_num)).rounded (by linarith)

/-- What is charged, before it is rounded. -/
theorem near_charged {rate : ℚ} (h : usage.unpriceableInDoubles = false)
    (hrate : ∀ c : TokenClass, c ≠ .output → c.rate usage.pricing ≤ rate) :
    Near 9 (rate * (12 * usage.tokensIn + 16) +
        usage.tokensOut * TokenClass.output.rate usage.pricing + 5)
      (double (double (usage.inputCostInDoubles + usage.outputCostInDoubles) * 10 ^ COST_DECIMALS))
      (exactMicros usage) := by
  have hin : 0 ≤ usage.tokensIn := nonNegativeTokens_nonneg _
  have hcost : 0 ≤ usage.tokensOut * TokenClass.output.rate usage.pricing :=
    mul_nonneg (nonNegativeTokens_nonneg _) (rate_nonneg usage.pricing .output)
  have hrate₀ : 0 ≤ rate := (rate_nonneg usage.pricing .uncached).trans (hrate _ (by decide))
  have hinput := mul_nonneg hrate₀ (show 0 ≤ 12 * usage.tokensIn + 16 by linarith)
  have hsum := ((near_inputCost h hrate).add
    ((near_outputCost usage).mono (show 2 ≤ 7 by norm_num) le_rfl)).rounded (by linarith)
  have hscaled := (hsum.mul_right (c := 10 ^ COST_DECIMALS) (by positivity)).rounded
    (by rw [COST_DECIMALS]; linarith)
  convert hscaled using 1
  · rw [COST_DECIMALS]
    ring
  · rw [exactMicros, COST_DECIMALS]
    ring

/-! ### Nearest micro-dollars -/

theorem abs_toMicros_sub_le (q : ℚ) : |(toMicros q : ℚ) - q * 10 ^ 6| ≤ 1 / 2 :=
  isNearest_roundHalfAway.near _

theorem lt_storedMicros_add (q : ℚ) : double (q * 10 ^ COST_DECIMALS) < storedMicros q + 1 / 2 := by
  have hfloor := Int.lt_floor_add_one (double (q * 10 ^ COST_DECIMALS) + 1 / 2)
  rw [storedMicros]
  linarith

/-! ### Rates that are covered -/

theorem getD_usablePrice {price : Option ℚ} (h : 0 ≤ price.getD 0) :
    (usablePrice price).getD 0 = price.getD 0 := by
  cases price with
  | none => rfl
  | some price => rw [usablePrice, Option.filter_some_pos (by simpa using h)]

namespace RatesCovered

variable (h : RatesCovered row)
include h

theorem estimateRate_nonneg (c : TokenClass) : 0 ≤ c.estimateRate row :=
  (rate_nonneg (some row) c).trans (h c)

theorem exactEstimate_nonneg (prompt : Option Prompt) (maxTokens : Option Number) :
    0 ≤ exactEstimate row prompt maxTokens :=
  add_nonneg
    (mul_nonneg (h.estimateRate_nonneg .uncached)
      (Int.cast_nonneg (estimateInputTokens_nonneg prompt)))
    (mul_nonneg (h.estimateRate_nonneg .output)
      (Int.cast_nonneg (assumedOutputTokens_nonneg maxTokens)))

/-- Before any rounding, the estimated rates cover the tokens class by class. -/
theorem exactMicros_le (hpricing : usage.pricing = some row) :
    exactMicros usage ≤
      row.inputPerMTok.getD 0 * usage.tokensIn + row.outputPerMTok.getD 0 * usage.tokensOut := by
  have huncached : TokenClass.uncached.rate (some row) = row.inputPerMTok.getD 0 :=
    getD_usablePrice (h.estimateRate_nonneg .uncached)
  have hin : 0 ≤ usage.tokensIn := nonNegativeTokens_nonneg _
  have hcached := mul_le_mul_of_nonneg_left (h .cached)
    (show 0 ≤ usage.cachedIn from le_min (nonNegativeTokens_nonneg _) hin)
  have h5m := mul_le_mul_of_nonneg_left (h .write5m)
    (show 0 ≤ usage.write5m from nonNegativeTokens_nonneg _)
  have h1h := mul_le_mul_of_nonneg_left (h .write1h)
    (show 0 ≤ usage.write1h from nonNegativeTokens_nonneg _)
  have hout := mul_le_mul_of_nonneg_left (h .output)
    (show 0 ≤ usage.tokensOut from nonNegativeTokens_nonneg _)
  simp only [TokenClass.estimateRate] at hcached h5m h1h hout
  rw [exactMicros, hpricing, huncached]
  linarith

/-- Away from the halves, no less is held than the exact estimate comes to when it is rounded. -/
theorem floor_le_held (hpriced : row.inputPerMTok ≠ none ∨ row.outputPerMTok ≠ none)
    (hclear : Clear row prompt maxTokens) :
    ⌊exactEstimate row prompt maxTokens + 1 / 2⌋ ≤ heldMicros row prompt maxTokens := by
  obtain ⟨hbelow, -⟩ := hclear.apart
  have hrateIn : 0 ≤ row.inputPerMTok.getD 0 := h.estimateRate_nonneg .uncached
  have hrateOut : 0 ≤ row.outputPerMTok.getD 0 := h.estimateRate_nonneg .output
  have hcostIn := mul_nonneg hrateIn (Int.cast_nonneg (estimateInputTokens_nonneg prompt))
  have hcostOut := mul_nonneg hrateOut (Int.cast_nonneg (assumedOutputTokens_nonneg maxTokens))
  have hnear := (abs_le.1 ((near_held hpriced prompt maxTokens).error_le (by norm_num))).1
  rw [abs_of_nonneg hcostIn, abs_of_nonneg hcostOut] at hnear
  have hround := (abs_le.1 (abs_toMicros_sub_le
    (shortestDecimal (estimateRequestCost (some row) prompt maxTokens)))).1
  rw [estimateScale_eq] at hbelow
  rw [exactEstimate] at hnear hbelow ⊢
  have hlt : ((⌊row.inputPerMTok.getD 0 * estimateInputTokens prompt +
      row.outputPerMTok.getD 0 * assumedOutputTokens maxTokens + 1 / 2⌋ - 1 : ℤ) : ℚ) <
        heldMicros row prompt maxTokens := by
    rw [heldMicros]
    push_cast
    linarith
  exact Int.sub_one_lt_iff.1 (Int.cast_lt.1 hlt)

/-- Away from the halves, no more is charged than the exact estimate comes to when it is rounded. -/
theorem charged_le_floor (hclear : Clear row prompt maxTokens) (hpricing : usage.pricing = some row)
    (hpriceable : usage.unpriceableInDoubles = false)
    (hin : usage.tokensIn ≤ estimateInputTokens prompt)
    (hout : usage.tokensOut ≤ assumedOutputTokens maxTokens) :
    storedMicros (double (usage.inputCostInDoubles + usage.outputCostInDoubles)) ≤
      ⌊exactEstimate row prompt maxTokens + 1 / 2⌋ := by
  obtain ⟨-, habove⟩ := hclear.apart
  have hrates : ∀ c : TokenClass, c ≠ .output →
      c.rate usage.pricing ≤ row.inputPerMTok.getD 0 := by
    intro c hc
    rw [hpricing]
    cases c with
    | output => exact absurd rfl hc
    | uncached => exact h .uncached
    | cached => exact h .cached
    | write5m => exact h .write5m
    | write1h => exact h .write1h
  have hrate : TokenClass.output.rate usage.pricing = row.outputPerMTok.getD 0 := by
    rw [hpricing]
    exact getD_usablePrice (h.estimateRate_nonneg .output)
  have hnear := (abs_le.1 ((near_charged hpriceable hrates).error_le le_rfl)).2
  rw [hrate] at hnear
  have hexact := h.exactMicros_le hpricing
  have hrateIn : 0 ≤ row.inputPerMTok.getD 0 := h.estimateRate_nonneg .uncached
  have hrateOut : 0 ≤ row.outputPerMTok.getD 0 := h.estimateRate_nonneg .output
  have hcostIn := mul_le_mul_of_nonneg_left hin hrateIn
  have hcostOut := mul_le_mul_of_nonneg_left hout hrateOut
  have hcostIn' := mul_nonneg hrateIn (show 0 ≤ usage.tokensIn from nonNegativeTokens_nonneg _)
  have hcostOut' := mul_nonneg hrateOut (show 0 ≤ usage.tokensOut from nonNegativeTokens_nonneg _)
  rw [estimateScale_eq] at habove
  rw [exactEstimate] at habove ⊢
  refine Int.lt_add_one_iff.1 (Int.floor_lt.2 ?_)
  push_cast
  linarith

/-- Away from the halves, what is charged and what is held are rounded as the exact estimate is. -/
theorem holdCovers (hpriced : row.inputPerMTok ≠ none ∨ row.outputPerMTok ≠ none)
    (hclear : Clear row prompt maxTokens) : HoldCovers row prompt maxTokens := by
  intro usage hpricing hreported hin hout
  have hheld := h.floor_le_held hpriced hclear
  have hnonneg : 0 ≤ ⌊exactEstimate row prompt maxTokens + 1 / 2⌋ :=
    Int.floor_nonneg.2 (add_nonneg (h.exactEstimate_nonneg prompt maxTokens) (by norm_num))
  rw [measuredMicros, hreported]
  dsimp only
  split_ifs with hnone hpriceable
  · exact hnonneg.trans hheld
  · exact (h.charged_le_floor hclear hpricing hpriceable.2 hin hout).trans hheld
  · exact hnonneg.trans hheld

end RatesCovered

/-! ### Rates that are not -/

theorem isSome_usablePrice {price : Option ℚ} (hsome : price ≠ none) (h : 0 ≤ price.getD 0) :
    (usablePrice price).isSome = true := by
  obtain ⟨price, rfl⟩ := Option.ne_none_iff_exists'.1 hsome
  rw [usablePrice, Option.filter_some_pos (by simpa using h)]
  rfl

/-- A usage of one class of input tokens, and of output tokens. -/
def boundUsage (row : MeasuredCostPricing) (c : TokenClass) (n m : ℚ) : MeasureInput :=
  { usageOf (some row) n c with outputTokens := some m }

theorem tokensIn_boundUsage {c : TokenClass} {n m : ℚ} (hc : c ≠ .output) (hn : 0 ≤ n) :
    (boundUsage row c n m).tokensIn = n :=
  (counts_usageOf (some row) hn c).1.trans (if_neg hc)

theorem tokensOut_boundUsage {c : TokenClass} {n m : ℚ} (hm : 0 ≤ m) :
    (boundUsage row c n m).tokensOut = m :=
  nonNegativeTokens_of_nonneg hm

/-- Such a usage can be priced, when its class has a rate. -/
theorem unpriceableInDoubles_boundUsage {c : TokenClass} {n m : ℚ} (hrate : 0 < c.rate (some row))
    (hn : 0 ≤ n) : (boundUsage row c n m).unpriceableInDoubles = false := by
  obtain ⟨hin, -, hcached, hwrite5m, hwrite1h, -⟩ := counts_usageOf (some row) hn c
  have hin : (boundUsage row c n m).tokensIn = if c = .output then 0 else n := hin
  have hcached : (boundUsage row c n m).cachedIn = if c = .cached then n else 0 := hcached
  have hwrite5m : (boundUsage row c n m).write5m = if c = .write5m then n else 0 := hwrite5m
  have hwrite1h : (boundUsage row c n m).write1h = if c = .write1h then n else 0 := hwrite1h
  have hpricing : (boundUsage row c n m).pricing = some row := usageOf_pricing n c
  have htotal : (boundUsage row c n m).cacheCreationInputTokens = none := by
    cases c <;> rfl
  have hdouble := double_nonneg hn
  simp only [MeasureInput.unpriceableInDoubles, MeasureInput.writes, htotal, hpricing, hin, hcached,
    hwrite5m, hwrite1h, Option.elim_none]
  cases c with
  | write5m => simp [isSome_of_getD_pos hrate]
  | write1h => simp [isSome_of_getD_pos hrate]
  | _ => simp [double_zero, hdouble]

/-- What such a usage comes to before any rounding. -/
theorem exactMicros_boundUsage {c : TokenClass} {n m : ℚ} (hc : c ≠ .output) (hn : 0 ≤ n)
    (hm : 0 ≤ m) : exactMicros (boundUsage row c n m) =
      n * c.rate (some row) + m * TokenClass.output.rate (some row) := by
  obtain ⟨-, -, hcached, hwrite5m, hwrite1h, -⟩ := counts_usageOf (some row) hn c
  have hin : (boundUsage row c n m).tokensIn = n := tokensIn_boundUsage hc hn
  have hout : (boundUsage row c n m).tokensOut = m := tokensOut_boundUsage hm
  have hcached : (boundUsage row c n m).cachedIn = if c = .cached then n else 0 := hcached
  have hwrite5m : (boundUsage row c n m).write5m = if c = .write5m then n else 0 := hwrite5m
  have hwrite1h : (boundUsage row c n m).write1h = if c = .write1h then n else 0 := hwrite1h
  have hpricing : (boundUsage row c n m).pricing = some row := usageOf_pricing n c
  simp only [exactMicros, hin, hout, hcached, hwrite5m, hwrite1h, hpricing]
  cases c with
  | output => exact absurd rfl hc
  | _ => simp

/-- What such a usage is charged. -/
theorem measuredMicros_boundUsage {c : TokenClass} {n m : ℚ} (hc : c ≠ .output)
    (htariff : hasTariff (some row) = true) (hrate : 0 < c.rate (some row)) (hn : 0 < n) :
    measuredMicros (boundUsage row c n m) = storedMicros (double
      ((boundUsage row c n m).inputCostInDoubles + (boundUsage row c n m).outputCostInDoubles)) := by
  have hreported : (boundUsage row c n m).providerReported = none := usageOf_providerReported n c
  have hpricing : (boundUsage row c n m).pricing = some row := usageOf_pricing n c
  have hin : (boundUsage row c n m).tokensIn = n := tokensIn_boundUsage hc hn.le
  have hlane : (boundUsage row c n m).lane ≠ .subscription := by
    cases c <;> exact fun h ↦ by cases h
  have hnone : ¬((boundUsage row c n m).lane = .subscription ∨
      (boundUsage row c n m).tokensIn = 0 ∧ (boundUsage row c n m).tokensOut = 0) := by
    rintro (h | ⟨h, -⟩)
    · exact hlane h
    · exact hn.ne' (hin.symm.trans h)
  rw [measuredMicros, hreported]
  dsimp only
  rw [if_neg hnone, hpricing, if_pos ⟨htariff, unpriceableInDoubles_boundUsage hrate hn.le⟩]

/-- There is a double above every number. -/
theorem exists_two_pow_ge (x : ℚ) : ∃ j : ℕ, x ≤ (2 ^ j : ℕ) := by
  obtain ⟨j, hj⟩ := exists_nat_ge x
  exact ⟨j, hj.trans (Nat.cast_le.2 Nat.lt_two_pow_self.le)⟩

section Necessity

variable (hpriced : row.inputPerMTok ≠ none ∨ row.outputPerMTok ≠ none)
  (h : ∀ prompt maxTokens, HoldCovers row prompt maxTokens)
include hpriced h

/-- No estimate is as much as a unit below zero, since nothing costs less than nothing. -/
theorem estimate_gt (n m : ℕ) (hm : ASSUMED_OUTPUT_TOKENS ≤ m) :
    -1 < row.inputPerMTok.getD 0 * n + row.outputPerMTok.getD 0 * m +
      (|row.inputPerMTok.getD 0| * n + |row.outputPerMTok.getD 0| * m) / 2 ^ 48 := by
  obtain ⟨prompt, hprompt⟩ := exists_prompt n
  have hmax := assumedOutputTokens_of_le hm
  have hcovers : (0 : ℤ) ≤ heldMicros row prompt (some (.finite m)) :=
    h prompt (some (.finite m))
      { providerCostUsd := none, inputTokens := none, outputTokens := none, pricing := some row } rfl
      rfl (by rw [hprompt]; exact_mod_cast Nat.cast_nonneg n)
      (by rw [hmax]; exact_mod_cast Nat.cast_nonneg m)
  have hround := (abs_le.1 (abs_toMicros_sub_le
    (shortestDecimal (estimateRequestCost (some row) prompt (some (.finite m)))))).2
  have hnear := (abs_le.1 ((near_held hpriced prompt (some (.finite m))).error_le (by norm_num))).2
  have hzero : (0 : ℚ) ≤ heldMicros row prompt (some (.finite m)) := Int.cast_nonneg hcovers
  rw [exactEstimate, hprompt, hmax] at hnear
  rw [heldMicros] at hzero
  push_cast at hnear
  rw [abs_mul, abs_mul, Nat.abs_cast, Nat.abs_cast] at hnear
  linarith

theorem inputRate_nonneg : 0 ≤ row.inputPerMTok.getD 0 := by
  by_contra hneg
  rw [not_le] at hneg
  set rate := row.inputPerMTok.getD 0
  set rate' := row.outputPerMTok.getD 0
  obtain ⟨n, hn⟩ := exists_nat_ge ((2 + 8000 * |rate'|) / -rate)
  have hscaled := (div_le_iff₀ (by linarith)).1 hn
  have hgt : -1 < rate * n + rate' * (2000 : ℕ) + (|rate| * n + |rate'| * (2000 : ℕ)) / 2 ^ 48 :=
    estimate_gt hpriced h n 2000 (by decide)
  have habs := le_abs_self rate'
  have hnonneg := abs_nonneg rate'
  rw [abs_of_neg hneg] at hgt
  push_cast at hgt
  linarith

theorem outputRate_nonneg : 0 ≤ row.outputPerMTok.getD 0 := by
  by_contra hneg
  rw [not_le] at hneg
  set rate' := row.outputPerMTok.getD 0
  obtain ⟨m, hm⟩ := exists_nat_ge (max 2000 (2 / -rate'))
  have hscaled := (div_le_iff₀ (by linarith)).1 ((le_max_right _ _).trans hm)
  have hfloor : (2000 : ℚ) ≤ m := (le_max_left _ _).trans hm
  have hassumed : (2000 : ℤ) ≤ m := by exact_mod_cast hfloor
  have hgt := estimate_gt hpriced h 0 m hassumed
  rw [abs_of_neg hneg] at hgt
  push_cast at hgt
  linarith

/-- The highest rate of the input classes is not visibly above the input tariff. -/
theorem rate_sub_le {c : TokenClass} (hc : c ≠ .output)
    (hmax : ∀ c' : TokenClass, c' ≠ .output → c'.rate (some row) ≤ c.rate (some row)) :
    c.rate (some row) - row.inputPerMTok.getD 0 ≤ c.rate (some row) / 2 ^ 40 := by
  have hin := inputRate_nonneg hpriced h
  have hout := outputRate_nonneg hpriced h
  have houtRate : TokenClass.output.rate (some row) = row.outputPerMTok.getD 0 :=
    getD_usablePrice hout
  have htariff : hasTariff (some row) = true := by
    refine Bool.or_eq_true_iff.2 (hpriced.imp (fun hsome ↦ ?_) fun hsome ↦ ?_)
    · exact isSome_usablePrice hsome hin
    · exact isSome_usablePrice hsome hout
  by_contra hlt
  rw [not_le] at hlt
  set rate := c.rate (some row) with hrate
  set rate' := row.outputPerMTok.getD 0 with hrate'
  have hpos : 0 < rate := by
    by_contra hnot
    have hzero := rate_nonneg (some row) c
    linarith
  -- as many tokens of the class as make the difference more than the roundings
  obtain ⟨j, hj⟩ := exists_two_pow_ge (2 ^ 41 * (2 + rate + rate') / rate)
  set n : ℕ := 2 ^ j
  have hscaled := (div_le_iff₀ hpos).1 hj
  have hn : (0 : ℚ) < n := Nat.cast_pos.2 (Nat.two_pow_pos j)
  obtain ⟨prompt, hprompt⟩ := exists_prompt n
  have hcovers := h prompt none (boundUsage row c n 2000) (usageOf_pricing _ c)
    (usageOf_providerReported _ c)
    (by rw [tokensIn_boundUsage hc hn.le, hprompt, Int.cast_natCast])
    (by rw [tokensOut_boundUsage (by norm_num)]; exact le_rfl)
  rw [measuredMicros_boundUsage hc htariff hpos hn, heldMicros] at hcovers
  have hcharged := lt_storedMicros_add (double ((boundUsage row c n 2000).inputCostInDoubles +
    (boundUsage row c n 2000).outputCostInDoubles))
  have hround := (abs_le.1 (abs_toMicros_sub_le
    (shortestDecimal (estimateRequestCost (some row) prompt none)))).2
  have hcast := Int.cast_le (R := ℚ).2 hcovers
  have hpricing : (boundUsage row c n 2000).pricing = some row := usageOf_pricing _ c
  have hrates : ∀ c' : TokenClass, c' ≠ .output →
      c'.rate (boundUsage row c n 2000).pricing ≤ rate := by
    rw [hpricing]
    exact hmax
  have hnear := (abs_le.1 ((near_charged (unpriceableInDoubles_boundUsage hpos hn.le (m := 2000))
    hrates).error_le le_rfl)).1
  have htokens : (boundUsage row c n 2000).tokensIn = n := tokensIn_boundUsage hc hn.le
  have htokens' : (boundUsage row c n 2000).tokensOut = 2000 := tokensOut_boundUsage (by norm_num)
  rw [exactMicros_boundUsage hc hn.le (by norm_num), hpricing, houtRate, htokens, htokens'] at hnear
  have hheld := (abs_le.1 ((near_held hpriced prompt none).error_le (by norm_num))).2
  have hassumed : assumedOutputTokens none = 2000 := rfl
  have hproduct := mul_nonneg hin hn.le
  rw [exactEstimate, hprompt, hassumed] at hheld
  push_cast at hheld
  rw [abs_of_nonneg hproduct, abs_of_nonneg (mul_nonneg hout (by norm_num))] at hheld
  have hmargin : 0 ≤ rate / 2 ^ 40 := div_nonneg hpos.le (by positivity)
  have hless := mul_le_mul_of_nonneg_right (show row.inputPerMTok.getD 0 ≤ rate by linarith) hn.le
  have hgap := mul_lt_mul_of_pos_right hlt hn
  linarith

end Necessity

/-- **Whether holds cover charges.** On a row with a tariff:
* where no class of tokens has a rate above the one it is estimated at, every hold that is clear of
  half a micro-dollar covers every usage within the estimated tokens;
* where every hold does, the main tariffs are not negative, and no class has a rate that is above
  the one it is estimated at by more than the roundings come to. -/
theorem holdCovers_iff (hpriced : row.inputPerMTok ≠ none ∨ row.outputPerMTok ≠ none) :
    (RatesCovered row →
      ∀ prompt maxTokens, Clear row prompt maxTokens → HoldCovers row prompt maxTokens) ∧
    ((∀ prompt maxTokens, HoldCovers row prompt maxTokens) →
      ∀ c : TokenClass, 0 ≤ c.estimateRate row ∧
        c.rate (some row) - c.estimateRate row ≤ c.rate (some row) / 2 ^ 40) := by
  refine ⟨fun h _ _ hclear ↦ h.holdCovers hpriced hclear, fun h c ↦ ?_⟩
  have hin := inputRate_nonneg hpriced h
  have hout := outputRate_nonneg hpriced h
  have hrate := rate_nonneg (some row) c
  by_cases hc : c = .output
  · subst hc
    have hequal : TokenClass.output.rate (some row) = row.outputPerMTok.getD 0 :=
      getD_usablePrice hout
    refine ⟨hout, ?_⟩
    rw [hequal, TokenClass.estimateRate, sub_self]
    positivity
  · have hestimate : c.estimateRate row = row.inputPerMTok.getD 0 := by
      cases c with
      | output => exact absurd rfl hc
      | _ => rfl
    obtain ⟨top, htop, hmax⟩ := Finset.exists_max_image
      ({.uncached, .cached, .write5m, .write1h} : Finset TokenClass)
      (fun c ↦ c.rate (some row)) ⟨.uncached, by decide⟩
    have hall : ∀ c' : TokenClass, c' ≠ .output → c'.rate (some row) ≤ top.rate (some row) := by
      intro c' hc'
      refine hmax c' ?_
      cases c' with
      | output => exact absurd rfl hc'
      | _ => decide
    have hne : top ≠ .output := by
      rintro rfl
      exact absurd htop (by decide)
    have hle := rate_sub_le hpriced h hne hall
    have hbelow := hall c hc
    rw [hestimate]
    exact ⟨hin, by linarith⟩

/-- A row whose cached tokens are cheaper than plain input. -/
def plainRow : MeasuredCostPricing where
  inputPerMTok := some 3
  outputPerMTok := some 15
  cachedInputPerMTok := some (double (3 / 10))

/-- A row whose cache writes cost a quarter more than plain input, and twice as much. -/
def cacheWriteRow : MeasuredCostPricing :=
  { plainRow with cacheWrite5mPerMTok := some (15 / 4), cacheWrite1hPerMTok := some 6 }

/-- The first row covers ten thousand tokens of input and as many of output as are assumed; the
second one does not cover everything. -/
theorem holdCovers_iff_rows :
    (∃ prompt, estimateInputTokens prompt = 10000 ∧ HoldCovers plainRow prompt none) ∧
      ¬∀ prompt maxTokens, HoldCovers cacheWriteRow prompt maxTokens := by
  constructor
  · obtain ⟨prompt, hprompt⟩ := exists_prompt 10000
    refine ⟨prompt, hprompt, (holdCovers_iff (.inl (by decide))).1 ?_ prompt none ?_⟩
    · intro c
      cases c <;> decide +kernel
    · intro n
      have hexact : exactEstimate plainRow prompt none = (60000 : ℤ) := by
        rw [exactEstimate, hprompt]
        decide +kernel
      have hscale : estimateScale plainRow prompt none = 60019 := by
        rw [estimateScale, hprompt]
        decide +kernel
      have hapart : ((60000 : ℤ) : ℚ) - (n + 1 / 2) = ((2 * (60000 - n) - 1 : ℤ) : ℚ) / 2 := by
        push_cast
        ring
      have hodd : (1 : ℚ) ≤ |((2 * (60000 - n) - 1 : ℤ) : ℚ)| := by
        exact_mod_cast Int.one_le_abs (by omega)
      rw [hexact, hscale, hapart, abs_div, abs_of_pos (show (0 : ℚ) < 2 by norm_num)]
      linarith
  · intro h
    have hle := ((holdCovers_iff (.inl (by decide))).2 h .write1h).2
    revert hle
    decide +kernel

/-- A row at whose rates some estimates are at half a micro-dollar. -/
def halfRow : MeasuredCostPricing where
  inputPerMTok := some (49 / 4)
  outputPerMTok := some (double (1153 / 100))

/-- Ten thousand tokens, all written to the cache of five minutes, and two thousand of output cost
0.0675 USD, with 0.06 USD held. And at rates that are covered, 6930 tokens and two thousand of
output cost 0.107953 USD, with 0.107952 USD held: the estimate is 0.10795249999999999, and scaling
it rounds it up to a half. -/
theorem cache_write_not_covered :
    (∃ prompt, ∃ usage : MeasureInput, usage.pricing = some cacheWriteRow ∧
      usage.providerReported = none ∧ usage.tokensIn = estimateInputTokens prompt ∧
      usage.tokensOut = assumedOutputTokens none ∧
      measuredMicros usage = 67500 ∧ heldMicros cacheWriteRow prompt none = 60000) ∧
    RatesCovered halfRow ∧ ∃ prompt, ∃ usage : MeasureInput, usage.pricing = some halfRow ∧
      usage.providerReported = none ∧ usage.tokensIn = estimateInputTokens prompt ∧
      usage.tokensOut = assumedOutputTokens none ∧
      measuredMicros usage = 107953 ∧ heldMicros halfRow prompt none = 107952 := by
  refine ⟨?_, ?_, ?_⟩
  · obtain ⟨prompt, hprompt⟩ := exists_prompt 10000
    refine ⟨prompt,
      { providerCostUsd := none
        inputTokens := some 10000
        outputTokens := some 2000
        cacheCreation := some { ephemeral5mInputTokens := some 10000 }
        pricing := some cacheWriteRow }, rfl, rfl, ?_, ?_, ?_, ?_⟩
    · rw [hprompt]
      decide +kernel
    · decide +kernel
    · decide +kernel
    · rw [heldMicros, estimateRequestCost_of_priced (.inl (by decide)), hprompt]
      decide +kernel
  · intro c
    cases c <;> decide +kernel
  · obtain ⟨prompt, hprompt⟩ := exists_prompt 6930
    refine ⟨prompt,
      { providerCostUsd := none
        inputTokens := some 6930
        outputTokens := some 2000
        pricing := some halfRow }, rfl, rfl, ?_, ?_, ?_, ?_⟩
    · rw [hprompt]
      decide +kernel
    · decide +kernel
    · decide +kernel
    · rw [heldMicros, estimateRequestCost_of_priced (.inl (by decide)), hprompt]
      decide +kernel

end ModelConnector
