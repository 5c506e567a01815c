import Mathlib.Logic.Function.Basic
import ModelConnector.Metrics.Service

/-!
# What the watcher observes

The watcher reads the counters of every pair once in a cycle. `computeMetricDelta` is what they
have gained since the cycle before, and nothing if any of them fell. `normalizeMetrics` makes the
evidence of each pair, `RateWindow` judges the rate of errors, `classifyFailure` names the failure,
and `FailureTracker` knows since when it lasts.

A time is a date in milliseconds; the text the source writes it as is the date again.
-/

namespace ModelConnector.Watcher

open Metrics

/-- What a counter has gained, for each that was there before; nothing if one of them fell. -/
def computeMetricDelta (previous current : Counters) : Option Counters :=
  if previous.any fun p ↦ (current.get p.1).lt p.2 then none
  else some (previous.map fun p ↦ (p.1, (current.get p.1).sub p.2))

/-! ### Evidence -/

inductive CircuitState
  | closed
  | opened
  | halfOpen
  deriving DecidableEq

inductive WindowState
  | healthy
  | degraded
  deriving DecidableEq

/-- What is known of a pair. The window's judgement is absent when there is not enough data. -/
structure EvidenceSnapshot where
  provider : String
  model : String
  observedAt : ℤ
  reachable : Bool
  circuitState : CircuitState
  windowedErrorState : Option WindowState
  counters : Counters
  explicitErrorType : Option String

/-- The provider and the model of a key, which the first colon parts. -/
def splitKey (key : String) : String × String :=
  let chars := key.toList
  if chars.contains ':' then
    (String.ofList (chars.takeWhile (· ≠ ':')), String.ofList ((chars.dropWhile (· ≠ ':')).drop 1))
  else (key, "unknown")

/-- The evidence of one entry of the metrics. -/
def normalizeEntry (key : String) (counters : Counters) (observedAt : ℤ) : EvidenceSnapshot where
  provider := (splitKey key).1
  model := (splitKey key).2
  observedAt := observedAt
  reachable := true
  circuitState := if (counters.get "circuitOpenCount").positive then .opened else .closed
  windowedErrorState := none
  counters := counters
  explicitErrorType := none

def normalizeMetrics (metrics : List (String × Counters)) (observedAt : ℤ) :
    List EvidenceSnapshot :=
  metrics.map fun entry ↦ normalizeEntry entry.1 entry.2 observedAt

/-- `provider:model`. -/
def EvidenceSnapshot.pairKey (evidence : EvidenceSnapshot) : String :=
  evidence.provider ++ ":" ++ evidence.model

/-! ### The rate of errors -/

structure RateWindowConfig where
  minimumSamples : ℕ
  degradeRatio : ℚ
  degradeWindows : ℕ
  recoverRatio : ℚ
  recoverWindows : ℕ
  /-- The schema of the configuration asks for it; so no ratio is over zero samples. -/
  minimumSamples_pos : 0 < minimumSamples

structure RateWindow where
  state : WindowState
  degradedCount : ℕ
  recoveredCount : ℕ
  deriving DecidableEq

def RateWindow.init : RateWindow where
  state := .healthy
  degradedCount := 0
  recoveredCount := 0

structure WindowResult where
  state : WindowState
  ratio : Option MetricValue

/-- `observe`: the result, and the window afterwards. -/
def RateWindow.observe (config : RateWindowConfig) (window : RateWindow)
    (errors samples : MetricValue) : WindowResult × RateWindow :=
  if samples.lt (.num config.minimumSamples) then ({ state := window.state, ratio := none }, window)
  else
    let ratio := errors.div samples
    let window := match window.state with
      | .healthy =>
        let degradedCount := if ratio.ge config.degradeRatio then window.degradedCount + 1 else 0
        if config.degradeWindows ≤ degradedCount then
          { state := .degraded, degradedCount, recoveredCount := 0 }
        else { window with degradedCount }
      | .degraded =>
        let recoveredCount := if ratio.le config.recoverRatio then window.recoveredCount + 1 else 0
        if config.recoverWindows ≤ recoveredCount then
          { state := .healthy, degradedCount := 0, recoveredCount }
        else { window with recoveredCount }
    ({ state := window.state, ratio := some ratio }, window)

/-! ### Failures -/

inductive FailureClass
  | provider_outage
  | rate_or_quota
  | authentication
  | billing
  | circuit_open
  | unknown
  deriving DecidableEq

def RATE_ERRORS : List String :=
  ["rate_limited", "quota_exceeded", "too_many_requests"]

def AUTH_ERRORS : List String :=
  ["invalid_api_key", "unauthorized", "authentication_failed"]

def BILLING_ERRORS : List String :=
  ["insufficient_credits", "billing_required", "payment_required"]

/-- The error type that was given; an empty text is none. -/
def EvidenceSnapshot.errorType? (evidence : EvidenceSnapshot) : Option String :=
  evidence.explicitErrorType.filter fun error ↦ decide (error ≠ "")

def classifyFailure (evidence : EvidenceSnapshot) : Option FailureClass :=
  if !evidence.reachable then some .provider_outage
  else if evidence.errorType?.any RATE_ERRORS.contains then some .rate_or_quota
  else if evidence.errorType?.any AUTH_ERRORS.contains then some .authentication
  else if evidence.errorType?.any BILLING_ERRORS.contains then some .billing
  else if evidence.circuitState = .opened ∨
      (evidence.counters.get "circuitOpenCount").positive = true then some .circuit_open
  else if evidence.errorType?.isSome then some .unknown
  else if evidence.windowedErrorState = some .degraded then some .unknown
  else none

structure TrackedFailure where
  failureClass : Option FailureClass
  firstSeenAt : Option ℤ
  currentSeenAt : ℤ
  deriving DecidableEq

/-- The failures by pair. -/
abbrev FailureTracker := String → Option TrackedFailure

/-- `update`: the failure of the pair, and the tracker afterwards. -/
def FailureTracker.update (tracker : FailureTracker) (evidence : EvidenceSnapshot) :
    TrackedFailure × FailureTracker :=
  let previous := tracker evidence.pairKey
  let next : TrackedFailure := match classifyFailure evidence with
    | none => { failureClass := none, firstSeenAt := none, currentSeenAt := evidence.observedAt }
    | some failureClass =>
      { failureClass := some failureClass
        firstSeenAt :=
          if previous.any fun p ↦ decide (p.failureClass = some failureClass) then
            previous.bind TrackedFailure.firstSeenAt
          else some evidence.observedAt
        currentSeenAt := evidence.observedAt }
  (next, Function.update tracker evidence.pairKey (some next))

end ModelConnector.Watcher
