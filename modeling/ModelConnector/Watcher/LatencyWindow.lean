import Mathlib.Data.List.Sort
import ModelConnector.Watcher.Observation

/-!
# The latency of a pair

`LatencyWindow` judges the latency of a pair by the 95th percentile of its samples against a
baseline. While a pair is degraded, the baseline is the one it was degraded against. Times are
rational numbers here.
-/

namespace ModelConnector.Watcher

structure LatencyWindowConfig where
  minimumSamples : ℕ
  degradeMultiplier : ℚ
  degradeDeltaMs : ℚ
  degradeWindows : ℕ
  recoverMultiplier : ℚ
  recoverWindows : ℕ

structure LatencyWindow where
  state : WindowState
  degradedCount : ℕ
  recoveredCount : ℕ
  frozenBaseline : Option ℚ
  deriving DecidableEq

def LatencyWindow.init : LatencyWindow where
  state := .healthy
  degradedCount := 0
  recoveredCount := 0
  frozenBaseline := none

/-- The arguments of `observe`. -/
structure LatencyObservation where
  samples : List ℚ
  baselineMs : Option ℚ

structure LatencyResult where
  state : WindowState
  p95Ms : Option ℚ
  baselineMs : Option ℚ

/-- `sorted[Math.ceil(sorted.length * 0.95) - 1]`; nothing stands there without a sample. -/
def p95 (samples : List ℚ) : Option ℚ :=
  (samples.insertionSort (· ≤ ·))[(19 * samples.length + 19) / 20 - 1]?

namespace LatencyWindowConfig

variable (config : LatencyWindowConfig)

/-- `degradeAt`. -/
def degradeAt (baseline : ℚ) : ℚ :=
  max (baseline * config.degradeMultiplier) (baseline + config.degradeDeltaMs)

/-- `p95 > degradeAt`. -/
def isBad (baseline : ℚ) (samples : List ℚ) : Bool :=
  (p95 samples).any fun p ↦ decide (config.degradeAt baseline < p)

/-- `p95 <= effectiveBaseline * this.config.recoverMultiplier`. -/
def isGood (baseline : ℚ) (samples : List ℚ) : Bool :=
  (p95 samples).any fun p ↦ decide (p ≤ baseline * config.recoverMultiplier)

end LatencyWindowConfig

/-- `observe`: the result, and the window afterwards. -/
def LatencyWindow.observe (config : LatencyWindowConfig) (window : LatencyWindow)
    (x : LatencyObservation) : LatencyResult × LatencyWindow :=
  let effectiveBaseline := window.frozenBaseline.or x.baselineMs
  let unchanged : LatencyResult :=
    { state := window.state, p95Ms := none, baselineMs := effectiveBaseline }
  if x.samples.length < config.minimumSamples then (unchanged, window)
  else
    match effectiveBaseline with
    | none => (unchanged, window)
    | some baseline =>
      let window : LatencyWindow := match window.state with
        | .healthy =>
          let degradedCount :=
            if config.isBad baseline x.samples then window.degradedCount + 1 else 0
          if config.degradeWindows ≤ degradedCount then
            { window with state := .degraded, degradedCount, frozenBaseline := some baseline }
          else { window with degradedCount }
        | .degraded =>
          let recoveredCount :=
            if config.isGood baseline x.samples then window.recoveredCount + 1 else 0
          if config.recoverWindows ≤ recoveredCount then
            { state := .healthy, degradedCount := 0, recoveredCount, frozenBaseline := none }
          else { window with recoveredCount }
      ({ state := window.state, p95Ms := p95 x.samples, baselineMs := some baseline }, window)

end ModelConnector.Watcher
