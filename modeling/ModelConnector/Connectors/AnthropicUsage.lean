import ModelConnector.Billing.MeasuredCost

/-!
# The usage that Anthropic reports

`mapUsage` of `AnthropicConnector`. The counters of the provider are disjoint: `input_tokens` is the
tail that the cache did not serve and that was not written to it. The counters of the response are
nested: `inputTokens` is all of the input. A counter that is not a number is not there.
-/

namespace ModelConnector.Connectors

open Billing

/-- `cache_creation` of a usage. -/
structure AnthropicCacheCreation where
  ephemeral_5m_input_tokens : Option ℕ := none
  ephemeral_1h_input_tokens : Option ℕ := none
  deriving DecidableEq

/-- `AnthropicUsage`. -/
structure AnthropicUsage where
  input_tokens : Option ℕ := none
  output_tokens : Option ℕ := none
  cache_read_input_tokens : Option ℕ := none
  cache_creation_input_tokens : Option ℕ := none
  cache_creation : Option AnthropicCacheCreation := none
  deriving DecidableEq

/-- What `mapUsage` returns. -/
structure MappedUsage where
  inputTokens : ℕ
  outputTokens : ℕ
  cachedInputTokens : Option ℕ := none
  cacheCreationInputTokens : Option ℕ := none
  cacheCreation : Option AnthropicCacheCreation := none
  providerUsage : Option AnthropicUsage := none
  usageMissing : Bool := false
  deriving DecidableEq

/-- `mapUsage`. -/
def mapUsage : Option AnthropicUsage → MappedUsage
  | none => { inputTokens := 0, outputTokens := 0, usageMissing := true }
  | some usage =>
    { inputTokens := usage.input_tokens.getD 0 + usage.cache_creation_input_tokens.getD 0 +
        usage.cache_read_input_tokens.getD 0
      outputTokens := usage.output_tokens.getD 0
      cachedInputTokens := usage.cache_read_input_tokens
      cacheCreationInputTokens := usage.cache_creation_input_tokens
      cacheCreation := usage.cache_creation
      providerUsage := some usage }

/-- What the meter is given of it: the connector reports no cost of its own, and its lane is the
metered one. -/
def MappedUsage.measureInput (usage : MappedUsage) (pricing : Option MeasuredCostPricing) :
    MeasureInput where
  providerCostUsd := some 0
  inputTokens := some usage.inputTokens
  outputTokens := some usage.outputTokens
  cachedInputTokens := usage.cachedInputTokens.map Nat.cast
  cacheCreationInputTokens := usage.cacheCreationInputTokens.map Nat.cast
  cacheCreation := usage.cacheCreation.map fun breakdown ↦
    { ephemeral5mInputTokens := breakdown.ephemeral_5m_input_tokens.map Nat.cast
      ephemeral1hInputTokens := breakdown.ephemeral_1h_input_tokens.map Nat.cast }
  pricing := pricing

end ModelConnector.Connectors
