import Mathlib.Tactic.Linarith
import ModelConnector.Connectors.Response

/-!
# The attempts of a request and its meter

`runAttempts` dispatches a request until an attempt succeeds, fails for good or is the last one
allowed, and adds up what the superseded attempts report. `mergeUsage` puts that on top of the
usage of the last attempt, and `meterCost` prices the result.

An attempt is what the connector answers, after redaction and sanitization, which leave the usage
alone. The connector is a function of what it has answered before, so it may answer the same
request differently each time; a connector that throws ends the request without a response.
-/

namespace ModelConnector.Connectors

open Billing

/-- `RETRYABLE_ERRORS`. -/
def RETRYABLE_ERRORS : List String :=
  ["json_parse_error", "rate_limited", "server_error", "execution_error", "network_error",
   "spawn_error", "parse_error", "http_error", "api_error", "structured_output_error"]

/-- What the connector answers, given its answers so far. -/
abbrev Dispatch :=
  List ConnectorResponse → Except String ConnectorResponse

/-- What the retry loop has recovered from superseded attempts. -/
structure Recovered where
  inputTokens : ℚ := 0
  outputTokens : ℚ := 0
  cachedInputTokens : ℚ := 0
  costUsd : ℚ := 0
  cacheCreationInputTokens : ℚ := 0
  ephemeral5mInputTokens : ℚ := 0
  ephemeral1hInputTokens : ℚ := 0
  deriving DecidableEq

/-- Carry forward what an attempt reports; on a number `x || 0` is `x`. -/
def Recovered.add (recovered : Recovered) (usage : Usage) : Recovered where
  inputTokens := recovered.inputTokens + usage.inputTokens
  outputTokens := recovered.outputTokens + usage.outputTokens
  cachedInputTokens := recovered.cachedInputTokens + usage.cachedInputTokens.getD 0
  costUsd := recovered.costUsd + usage.costUsd
  cacheCreationInputTokens := recovered.cacheCreationInputTokens + usage.cacheWrites
  ephemeral5mInputTokens := recovered.ephemeral5mInputTokens + usage.ephemeral5m
  ephemeral1hInputTokens := recovered.ephemeral1hInputTokens + usage.ephemeral1h

/-- The attempts made for a request. -/
structure AttemptsMade where
  /-- The superseded attempts, in order. -/
  retried : List ConnectorResponse
  lastResponse : ConnectorResponse
  recovered : Recovered

/-- A failed attempt that may be repeated. -/
def ConnectorResponse.retryable (response : ConnectorResponse) : Bool :=
  response.status != .success &&
    RETRYABLE_ERRORS.contains ((response.error.map ConnectorError.type).getD "")

/-- The loop of `runAttempts`, with `more` attempts left after this one. -/
def attemptsFrom (dispatch : Dispatch) (attemptsForRequest : ℕ) :
    ℕ → List ConnectorResponse → Recovered → Except String AttemptsMade
  | more, retried, recovered =>
    match dispatch retried with
    | .error e => .error e
    | .ok answer =>
      let response := { answer with
        attempt := some (retried.length + 1), maxAttempts := some attemptsForRequest }
      match more with
      | 0 => .ok ⟨retried, response, recovered⟩
      | more + 1 =>
        if response.retryable then
          attemptsFrom dispatch attemptsForRequest more (retried ++ [response])
            (recovered.add response.usage)
        else .ok ⟨retried, response, recovered⟩

/-- `runAttempts`, for a budget of at least one attempt. -/
def runAttempts (dispatch : Dispatch) (attemptsForRequest : ℕ) : Except String AttemptsMade :=
  attemptsFrom dispatch attemptsForRequest (attemptsForRequest - 1) [] {}

/-- `recoveredAnything`. -/
def Recovered.anything (recovered : Recovered) : Bool :=
  decide (0 < recovered.inputTokens) || decide (0 < recovered.outputTokens) ||
    decide (0 < recovered.cachedInputTokens) || decide (0 < recovered.costUsd)

/-- The usage of a request: of its last attempt and what was recovered from the others. -/
def mergeUsage (last : Usage) (recovered : Recovered) : Usage :=
  if recovered.anything then
    { last with
      inputTokens := last.inputTokens + recovered.inputTokens
      outputTokens := last.outputTokens + recovered.outputTokens
      totalTokens := last.totalTokens + recovered.inputTokens + recovered.outputTokens
      cachedInputTokens :=
        if last.cachedInputTokens.isSome || decide (0 < recovered.cachedInputTokens) then
          some (last.cachedInputTokens.getD 0 + recovered.cachedInputTokens)
        else last.cachedInputTokens
      cacheCreationInputTokens :=
        if 0 < recovered.cacheCreationInputTokens then
          some (last.cacheWrites + recovered.cacheCreationInputTokens)
        else last.cacheCreationInputTokens
      cacheCreation :=
        if 0 < recovered.cacheCreationInputTokens then
          some { ephemeral5mInputTokens := some (last.ephemeral5m + recovered.ephemeral5mInputTokens)
                 ephemeral1hInputTokens :=
                   some (last.ephemeral1h + recovered.ephemeral1hInputTokens) }
        else last.cacheCreation
      costUsd := last.costUsd + recovered.costUsd }
  else last

/-- The usage the meter is given. -/
def AttemptsMade.usage (made : AttemptsMade) : Usage :=
  mergeUsage made.lastResponse.usage made.recovered

/-- All attempts, in order. -/
def AttemptsMade.all (made : AttemptsMade) : List ConnectorResponse :=
  made.retried ++ [made.lastResponse]

/-- The reports of all attempts, in order. -/
def AttemptsMade.reports (made : AttemptsMade) : List (UsageField → ℚ) :=
  made.all.map fun response ↦ response.usage.amount

/-- What `meterCost` hands to `measureCostUsd`. -/
def Usage.measureInput (usage : Usage) (pricing : Option MeasuredCostPricing) (lane : BillingLane) :
    MeasureInput where
  providerCostUsd := some usage.costUsd
  inputTokens := some usage.inputTokens
  outputTokens := some usage.outputTokens
  cachedInputTokens := usage.cachedInputTokens
  cacheCreationInputTokens := usage.cacheCreationInputTokens
  cacheCreation := usage.cacheCreation
  pricing := pricing
  lane := lane
  estimatedUsage := usage.estimated

/-- `meterCost`, with the catalogue row of the model that was served. -/
def meterCost (pricing : Option MeasuredCostPricing) (lane : BillingLane) (usage : Usage) :
    MeasuredCost :=
  measureCostUsd (usage.measureInput pricing lane)

/-! ### The loop -/

/-- What the loop recovers is what the superseded attempts report. -/
theorem attemptsFrom_spec {dispatch : Dispatch} {total : ℕ} {more : ℕ}
    {retried : List ConnectorResponse} {recovered : Recovered} {made : AttemptsMade}
    (h : attemptsFrom dispatch total more retried recovered = .ok made)
    (hrecovered : recovered = (retried.map ConnectorResponse.usage).foldl Recovered.add {}) :
    made.recovered = (made.retried.map ConnectorResponse.usage).foldl Recovered.add {} := by
  induction more generalizing retried recovered with
  | zero =>
    unfold attemptsFrom at h
    split at h
    · cases h
    · cases h
      exact hrecovered
  | succ more ih =>
    unfold attemptsFrom at h
    split at h
    · cases h
    · simp only at h
      split at h
      · refine ih h ?_
        rw [List.map_append, List.foldl_append, ← hrecovered]
        rfl
      · cases h
        exact hrecovered

/-- What the superseded attempts of a request report is what the loop has recovered. -/
theorem runAttempts_recovered {dispatch : Dispatch} {attemptsForRequest : ℕ} {made : AttemptsMade}
    (h : runAttempts dispatch attemptsForRequest = .ok made) :
    made.recovered = (made.retried.map ConnectorResponse.usage).foldl Recovered.add {} :=
  attemptsFrom_spec h rfl

/-! ### The merge, as an addition of vectors -/

/-- What was recovered, as a report. -/
def Recovered.amount (recovered : Recovered) : UsageField → ℚ
  | .inputTokens => recovered.inputTokens
  | .outputTokens => recovered.outputTokens
  | .totalTokens => recovered.inputTokens + recovered.outputTokens
  | .costUsd => recovered.costUsd
  | .cachedInputTokens => recovered.cachedInputTokens
  | .cacheWrites => recovered.cacheCreationInputTokens
  | .ephemeral5m => recovered.ephemeral5mInputTokens
  | .ephemeral1h => recovered.ephemeral1hInputTokens

/-- The totals the attempts report are not read; theirs is the sum of the two halves. -/
theorem Recovered.add_amount (recovered : Recovered) (usage : Usage) {field : UsageField}
    (hfield : field ≠ .totalTokens) :
    (recovered.add usage).amount field = recovered.amount field + usage.amount field := by
  cases field <;> first | rfl | exact absurd rfl hfield

theorem foldl_add_amount (usages : List Usage) (recovered : Recovered) {field : UsageField}
    (hfield : field ≠ .totalTokens) :
    (usages.foldl Recovered.add recovered).amount field =
      recovered.amount field + (usages.map Usage.amount).sum field := by
  induction usages generalizing recovered with
  | nil => simp
  | cons usage usages ih =>
    rw [List.foldl_cons, ih, Recovered.add_amount recovered usage hfield, List.map_cons,
      List.sum_cons, Pi.add_apply, add_assoc]

theorem cached_merge (value : Option ℚ) {more : ℚ} (hmore : 0 ≤ more) :
    (if value.isSome || decide (0 < more) then some (value.getD 0 + more) else value).getD 0 =
      value.getD 0 + more := by
  split_ifs with h
  · rfl
  · simp only [Bool.or_eq_true, decide_eq_true_eq, not_or, not_lt] at h
    rw [le_antisymm h.2 hmore, add_zero]

/-- **The merge adds reports up**, when what was recovered does not go below zero and writes no
cache beyond its total. -/
theorem mergeUsage_amount (last : Usage) {recovered : Recovered} {field : UsageField}
    (hfield : field ≠ .totalTokens) (hnonneg : ∀ other, 0 ≤ recovered.amount other)
    (hwrites : recovered.ephemeral5mInputTokens + recovered.ephemeral1hInputTokens ≤
      recovered.cacheCreationInputTokens)
    (hinput : recovered.cacheCreationInputTokens ≤ recovered.inputTokens) :
    (mergeUsage last recovered).amount field = last.amount field + recovered.amount field := by
  have h5m : 0 ≤ recovered.ephemeral5mInputTokens := hnonneg .ephemeral5m
  have h1h : 0 ≤ recovered.ephemeral1hInputTokens := hnonneg .ephemeral1h
  have hcached : 0 ≤ recovered.cachedInputTokens := hnonneg .cachedInputTokens
  by_cases hanything : recovered.anything = true
  · rw [mergeUsage, if_pos hanything]
    by_cases hcache : 0 < recovered.cacheCreationInputTokens
    · cases field with
      | totalTokens => exact absurd rfl hfield
      | cachedInputTokens => exact cached_merge last.cachedInputTokens hcached
      | inputTokens | outputTokens | costUsd => rfl
      | cacheWrites | ephemeral5m | ephemeral1h =>
        simp [Usage.amount, Recovered.amount, Usage.cacheWrites, Usage.ephemeral5m,
          Usage.ephemeral1h, hcache]
    · -- without writes the report of the last attempt stands
      have hzero5m : recovered.ephemeral5mInputTokens = 0 := by linarith
      have hzero1h : recovered.ephemeral1hInputTokens = 0 := by linarith
      have hzero : recovered.cacheCreationInputTokens = 0 := by linarith
      cases field with
      | totalTokens => exact absurd rfl hfield
      | cachedInputTokens => exact cached_merge last.cachedInputTokens hcached
      | inputTokens | outputTokens | costUsd => rfl
      | cacheWrites | ephemeral5m | ephemeral1h =>
        simp [Usage.amount, Recovered.amount, Usage.cacheWrites, Usage.ephemeral5m,
          Usage.ephemeral1h, hzero, hzero5m, hzero1h]
  · -- nothing was recovered, and the merge leaves the last report alone
    rw [mergeUsage, if_neg hanything]
    simp only [Recovered.anything, Bool.or_eq_true, decide_eq_true_eq, not_or, not_lt] at hanything
    obtain ⟨⟨⟨hin, hout⟩, hcached'⟩, hcost⟩ := hanything
    have hzero : recovered.amount field = 0 := by
      refine le_antisymm ?_ (hnonneg field)
      cases field <;> simp only [Recovered.amount] <;> linarith
    rw [hzero, add_zero]

end ModelConnector.Connectors
