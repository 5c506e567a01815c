import Mathlib.Algebra.BigOperators.Pi
import ModelConnector.Billing.MeasuredCost

/-!
# What a connector answers

The response of a connector with its usage report, as far as the retry loop, the output guard and
the meter read it. A usage report is a record of optional counts; `Usage.amount` is the same
report as a vector with one entry for each number, zero where nothing is reported, so that usage
adds up entry by entry.
-/

namespace ModelConnector.Connectors

open Billing

/-- The usage a response reports. -/
structure Usage where
  inputTokens : ℚ
  outputTokens : ℚ
  totalTokens : ℚ
  costUsd : ℚ
  /-- Input tokens served from the provider's cache, part of `inputTokens`. -/
  cachedInputTokens : Option ℚ := none
  /-- Cache-write tokens, part of `inputTokens`. -/
  cacheCreationInputTokens : Option ℚ := none
  /-- The cache writes by time to live. -/
  cacheCreation : Option CacheCreation := none
  /-- The counts were estimated from the prompt. -/
  estimated : Bool := false
  deriving DecidableEq

/-- The numbers of a usage report. -/
inductive UsageField
  | inputTokens
  | outputTokens
  | totalTokens
  | costUsd
  | cachedInputTokens
  | cacheWrites
  | ephemeral5m
  | ephemeral1h
  deriving DecidableEq

namespace Usage

variable (usage : Usage)

/-- `cacheCreation?.ephemeral5mInputTokens ?? 0`. -/
def ephemeral5m : ℚ :=
  (usage.cacheCreation.bind CacheCreation.ephemeral5mInputTokens).getD 0

/-- `cacheCreation?.ephemeral1hInputTokens ?? 0`. -/
def ephemeral1h : ℚ :=
  (usage.cacheCreation.bind CacheCreation.ephemeral1hInputTokens).getD 0

/-- The cache writes: their total, or what the times to live add up to. -/
def cacheWrites : ℚ :=
  usage.cacheCreationInputTokens.getD (usage.ephemeral5m + usage.ephemeral1h)

/-- The report as a vector. -/
def amount : UsageField → ℚ
  | .inputTokens => usage.inputTokens
  | .outputTokens => usage.outputTokens
  | .totalTokens => usage.totalTokens
  | .costUsd => usage.costUsd
  | .cachedInputTokens => usage.cachedInputTokens.getD 0
  | .cacheWrites => usage.cacheWrites
  | .ephemeral5m => usage.ephemeral5m
  | .ephemeral1h => usage.ephemeral1h

end Usage

/-- The report of a call that consumed nothing. -/
def Usage.zero : Usage :=
  ⟨0, 0, 0, 0, none, none, none, false⟩

@[simp]
theorem Usage.amount_zero : Usage.zero.amount = 0 := by
  funext field
  cases field <;>
    simp [zero, amount, cacheWrites, ephemeral5m, ephemeral1h]

/-- The status of a response. -/
inductive ResponseStatus
  | success
  | error
  | timeout
  | rateLimited
  deriving DecidableEq

/-- The error of a response. -/
structure ConnectorError where
  type : String
  message : String
  retryable : Bool
  recommendation : String
  deriving DecidableEq

/-- A response; `structured` is its JSON text. -/
structure ConnectorResponse where
  model : String
  result : String
  structured : Option String := none
  usage : Usage
  status : ResponseStatus
  error : Option ConnectorError := none
  attempt : Option ℕ := none
  maxAttempts : Option ℕ := none
  deriving DecidableEq

/-- The usages of a list of responses, added up. -/
def totalUsage (responses : List ConnectorResponse) : UsageField → ℚ :=
  (responses.map fun response ↦ response.usage.amount).sum

@[simp]
theorem totalUsage_nil : totalUsage [] = 0 :=
  rfl

theorem totalUsage_append (l l' : List ConnectorResponse) :
    totalUsage (l ++ l') = totalUsage l + totalUsage l' := by
  rw [totalUsage, List.map_append, List.sum_append]
  rfl

theorem totalUsage_singleton (response : ConnectorResponse) :
    totalUsage [response] = response.usage.amount := by
  simp [totalUsage]

end ModelConnector.Connectors
