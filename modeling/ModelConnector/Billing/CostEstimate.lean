import ModelConnector.Billing.MeasuredCost
import ModelConnector.Foundations.Json
import ModelConnector.Foundations.Number
import ModelConnector.Foundations.Rounding

/-!
# The estimate before a call

`estimateCostUsd` prices a request from the length of its prompt and a full-length response, before
it is dispatched, and the estimate is what is reserved. It reads the two main tariffs of the
catalogue row as they are, negative ones too; without either, it is a flat floor.

Amounts are doubles, so every operation on them is rounded; counts of tokens are whole numbers,
which doubles hold. A length is counted in UTF-16 code units. -/

namespace ModelConnector.Billing

/-- `CHARS_PER_TOKEN`. -/
def CHARS_PER_TOKEN : ℚ :=
  4

/-- `ASSUMED_OUTPUT_TOKENS`. -/
def ASSUMED_OUTPUT_TOKENS : ℤ :=
  2000

/-- `UNKNOWN_MODEL_ESTIMATE_USD`. -/
def UNKNOWN_MODEL_ESTIMATE_USD : ℚ :=
  double (1 / 100)

/-- `IMAGE_BLOCK_CHAR_ALLOWANCE`. -/
def IMAGE_BLOCK_CHAR_ALLOWANCE : ℕ :=
  4000

/-- The pricing fields of a `model_catalog` row that the estimate reads. -/
structure CatalogPricing where
  inputPerMTok : Option ℚ
  outputPerMTok : Option ℚ
  deriving DecidableEq

/-- A block of a prompt. -/
inductive ContentBlock
  | text (content : Option String)
  | imageUrl
  | other
  deriving DecidableEq

/-- A prompt: a string, or content blocks. -/
inductive Prompt
  | text (content : String)
  | blocks (blocks : List ContentBlock)
  deriving DecidableEq

/-- The characters a block counts for. -/
def ContentBlock.charLength : ContentBlock → ℕ
  | text content => (content.map utf16Length).getD 0
  | imageUrl => IMAGE_BLOCK_CHAR_ALLOWANCE
  | other => 0

/-- `promptCharLength`. -/
def promptCharLength : Option Prompt → ℕ
  | none => 0
  | some (.text text) => utf16Length text
  | some (.blocks blocks) => (blocks.map ContentBlock.charLength).sum

/-- `assumedOutputTokens`, where `maxTokens` is absent when it is not a number. -/
def assumedOutputTokens : Option Number → ℤ
  | some (.finite maxTokens) =>
    if maxTokens ≤ 0 then ASSUMED_OUTPUT_TOKENS else max ⌈maxTokens⌉ ASSUMED_OUTPUT_TOKENS
  | _ => ASSUMED_OUTPUT_TOKENS

/-- `estimateInputTokens`. -/
def estimateInputTokens (prompt : Option Prompt) : ℤ :=
  ⌈(promptCharLength prompt : ℚ) / CHARS_PER_TOKEN⌉

/-- `estimateCostUsd`. -/
def estimateCostUsd (promptLength : ℤ) (pricing : Option CatalogPricing)
    (maxTokens : Option Number) : ℚ :=
  match pricing with
  | none => UNKNOWN_MODEL_ESTIMATE_USD
  | some pricing =>
    if pricing.inputPerMTok = none ∧ pricing.outputPerMTok = none then UNKNOWN_MODEL_ESTIMATE_USD
    else
      let inputTokens := ⌈(max promptLength 0 : ℚ) / CHARS_PER_TOKEN⌉
      let outputTokens := assumedOutputTokens maxTokens
      let inputCost := double (double (pricing.inputPerMTok.getD 0 * inputTokens) / 1000000)
      let outputCost := double (double (pricing.outputPerMTok.getD 0 * outputTokens) / 1000000)
      double (inputCost + outputCost)

/-- What the estimate reads of a row. -/
def MeasuredCostPricing.estimated (row : MeasuredCostPricing) : CatalogPricing where
  inputPerMTok := row.inputPerMTok
  outputPerMTok := row.outputPerMTok

/-- `estimateRequestCost`, with the row of the catalogue, which is absent when it is not found or
the catalogue cannot be read. -/
def estimateRequestCost (row : Option MeasuredCostPricing) (prompt : Option Prompt)
    (maxTokens : Option Number) : ℚ :=
  estimateCostUsd (promptCharLength prompt) (row.map MeasuredCostPricing.estimated) maxTokens

/-! ### Properties -/

/-- The estimate of a row with a tariff. -/
theorem estimateRequestCost_of_priced {row : MeasuredCostPricing}
    (hpriced : row.inputPerMTok ≠ none ∨ row.outputPerMTok ≠ none) (prompt : Option Prompt)
    (maxTokens : Option Number) :
    estimateRequestCost (some row) prompt maxTokens =
      double (double (double (row.inputPerMTok.getD 0 * estimateInputTokens prompt) / 1000000) +
        double (double (row.outputPerMTok.getD 0 * assumedOutputTokens maxTokens) / 1000000)) := by
  have hnot : ¬(row.estimated.inputPerMTok = none ∧ row.estimated.outputPerMTok = none) :=
    fun h ↦ hpriced.elim (absurd h.1) (absurd h.2)
  have hlength : (max ((promptCharLength prompt : ℤ) : ℚ) 0) = promptCharLength prompt :=
    max_eq_left (by positivity)
  unfold estimateRequestCost estimateCostUsd
  rw [Option.map_some]
  dsimp only
  rw [if_neg hnot, hlength]
  rfl

/-- There is a prompt of every number of tokens. -/
theorem exists_prompt (n : ℕ) : ∃ prompt, estimateInputTokens prompt = n := by
  refine ⟨some (.text (String.ofList (List.replicate (4 * n) 'a'))), ?_⟩
  have hlength : promptCharLength (some (.text (String.ofList (List.replicate (4 * n) 'a')))) =
      4 * n := by
    simp [promptCharLength, utf16Length, utf16Units, codeUnits, isLoneSurrogate, utf16]
  rw [estimateInputTokens, hlength, CHARS_PER_TOKEN]
  push_cast
  rw [mul_div_cancel_left₀ _ (by norm_num), Int.ceil_natCast]

theorem estimateInputTokens_nonneg (prompt : Option Prompt) : 0 ≤ estimateInputTokens prompt :=
  Int.ceil_nonneg (div_nonneg (Nat.cast_nonneg _) (by norm_num [CHARS_PER_TOKEN]))

theorem assumedOutputTokens_nonneg (maxTokens : Option Number) :
    0 ≤ assumedOutputTokens maxTokens := by
  unfold assumedOutputTokens
  split
  · split
    · decide
    · exact le_max_of_le_right (by decide)
  · decide

/-- And a limit for every number of tokens from the floor on. -/
theorem assumedOutputTokens_of_le {n : ℕ} (h : ASSUMED_OUTPUT_TOKENS ≤ n) :
    assumedOutputTokens (some (.finite n)) = n := by
  have hpos : ¬(n : ℚ) ≤ 0 := by
    have : (0 : ℤ) < n := lt_of_lt_of_le (by decide) h
    exact not_le.2 (by exact_mod_cast this)
  show (if _ then _ else _) = _
  rw [if_neg hpos, Int.ceil_natCast, max_eq_left h]

end ModelConnector.Billing
