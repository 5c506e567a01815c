import ModelConnector.Connectors.AnthropicUsage
import ModelConnector.TokenPartition

/-!
# Reported usage, priced

The connector nests the counters that Anthropic reports, and the meter takes them apart again. That
gives the counters back when the total of the cache writes is there. Without it the writes are not
in the input that the meter starts from, so it takes them from the tail; and where nothing else is
reported, or a total of zero, it takes the usage for nothing at all.
-/

namespace ModelConnector

open Billing Connectors

variable {usage : AnthropicUsage} {pricing : Option MeasuredCostPricing}

/-! ### What is wanted of the price -/

namespace Connectors.AnthropicUsage

/-- The tail of the input. -/
def uncachedTail (usage : AnthropicUsage) : ℕ :=
  usage.input_tokens.getD 0

/-- The input served from the cache. -/
def reads (usage : AnthropicUsage) : ℕ :=
  usage.cache_read_input_tokens.getD 0

/-- The input written to the cache of five minutes. -/
def writes5m (usage : AnthropicUsage) : ℕ :=
  (usage.cache_creation.bind AnthropicCacheCreation.ephemeral_5m_input_tokens).getD 0

/-- The input written to the cache of an hour. -/
def writes1h (usage : AnthropicUsage) : ℕ :=
  (usage.cache_creation.bind AnthropicCacheCreation.ephemeral_1h_input_tokens).getD 0

/-- The output. -/
def output (usage : AnthropicUsage) : ℕ :=
  usage.output_tokens.getD 0

/-- The tokens of each class, as they are reported. -/
def tokens (usage : AnthropicUsage) : TokenClass → ℚ
  | .uncached => usage.uncachedTail
  | .cached => usage.reads
  | .write5m => usage.writes5m
  | .write1h => usage.writes1h
  | .output => usage.output

/-- What the counters add up to that the connector counts as consumed. -/
def consumed (usage : AnthropicUsage) : ℕ :=
  usage.uncachedTail + usage.cache_creation_input_tokens.getD 0 + usage.reads + usage.output

end Connectors.AnthropicUsage

section Counts

variable (usage pricing)

/-- The input of the meter. -/
abbrev metered : MeasureInput :=
  (mapUsage (some usage)).measureInput pricing

end Counts

/-! ### The price -/

end ModelConnector
