import ModelConnector.Foundations.Hysteresis
import ModelConnector.Watcher.LatencyWindow

/-!
# The hysteresis of the windows

`RateWindow` clears its counter of good observations when a pair degrades, and `LatencyWindow` does
not. So the rate follows the rule of hysteresis over every sequence of observations, and the latency
does as long as no degraded phase but the first begins with a good observation; such a phase ends
with it. An observation with too few samples changes neither.
-/

namespace ModelConnector.Watcher

open Metrics

/-! ### Judging observations -/

/-- The errors and the samples of an observation. -/
abbrev RateObservation :=
  MetricValue × MetricValue

/-- There are too few samples. -/
def RateWindowConfig.tooFew (config : RateWindowConfig) (x : RateObservation) : Bool :=
  x.2.lt (.num config.minimumSamples)

/-- How `RateWindow` judges. -/
def RateWindowConfig.rule (config : RateWindowConfig) : Hysteresis RateObservation Unit where
  degradeWindows := config.degradeWindows
  recoverWindows := config.recoverWindows
  bad? x := if config.tooFew x then none else some ((x.1.div x.2).ge config.degradeRatio)
  good? _ x := if config.tooFew x then none else some ((x.1.div x.2).le config.recoverRatio)
  keep _ := ()

/-- There are too few samples. -/
def LatencyWindowConfig.tooFew (config : LatencyWindowConfig) (x : LatencyObservation) : Bool :=
  decide (x.samples.length < config.minimumSamples)

/-- How `LatencyWindow` judges: by the baseline of the observation, which has to have one, and by
the one that was kept when it degraded. -/
def LatencyWindowConfig.rule (config : LatencyWindowConfig) : Hysteresis LatencyObservation ℚ where
  degradeWindows := config.degradeWindows
  recoverWindows := config.recoverWindows
  bad? x :=
    if config.tooFew x then none
    else x.baselineMs.map fun baseline ↦ config.isBad baseline x.samples
  good? kept x := if config.tooFew x then none else some (config.isGood kept x.samples)
  keep x := x.baselineMs.getD 0

/-! ### Sequences of observations -/

/-- The window after a sequence of observations. -/
def RateWindow.after (config : RateWindowConfig) (xs : List RateObservation) : RateWindow :=
  xs.foldl (fun window x ↦ (window.observe config x.1 x.2).2) .init

/-- The window after a sequence of observations. -/
def LatencyWindow.after (config : LatencyWindowConfig) (xs : List LatencyObservation) :
    LatencyWindow :=
  xs.foldl (fun window x ↦ (window.observe config x).2) .init

/-- The state that a phase stands for. -/
def WindowState.ofPhase {β : Type} : Phase β → WindowState
  | .healthy => .healthy
  | .degraded _ => .degraded

/-- **What is wanted of the windows**: they have the phases of the rule over a sequence of
observations, and an observation with too few samples can be put in anywhere. -/
structure Hysteretic (rate : RateWindowConfig) (latency : LatencyWindowConfig)
    (xs : List RateObservation) (ys : List LatencyObservation) : Prop where
  rate_state : ∀ zs, zs <+: xs →
    (RateWindow.after rate zs).state = .ofPhase (zs.foldl rate.rule.next {}).phase
  latency_state : ∀ zs, zs <+: ys →
    (LatencyWindow.after latency zs).state = .ofPhase (zs.foldl latency.rule.next {}).phase
  rate_insert : ∀ before after x, rate.tooFew x = true →
    RateWindow.after rate (before ++ x :: after) = RateWindow.after rate (before ++ after)
  latency_insert : ∀ before after x, latency.tooFew x = true →
    LatencyWindow.after latency (before ++ x :: after) =
      LatencyWindow.after latency (before ++ after)

/-! ### The windows count -/

/-- The window that has a phase and counters. -/
def RateWindow.ofCounts (k : Hysteresis.Counts Unit) : RateWindow where
  state := .ofPhase k.phase
  degradedCount := k.degradedCount
  recoveredCount := k.recoveredCount

theorem RateWindow.observe_ofCounts (config : RateWindowConfig) (k : Hysteresis.Counts Unit)
    (x : RateObservation) : ((ofCounts k).observe config x.1 x.2).2 =
      ofCounts (config.rule.count true k x) := by
  obtain ⟨phase, degradedCount, recoveredCount⟩ := k
  unfold observe Hysteresis.count RateWindowConfig.rule RateWindowConfig.tooFew
  by_cases hfew : x.2.lt (.num config.minimumSamples) = true
  · cases phase <;> simp only [hfew, if_true]
  · cases phase with
    | healthy =>
      simp only [hfew, if_false, ofCounts, WindowState.ofPhase, Bool.false_eq_true]
      split_ifs <;> rfl
    | degraded kept =>
      simp only [hfew, if_false, ofCounts, WindowState.ofPhase, Bool.false_eq_true]
      split_ifs <;> rfl

theorem RateWindow.after_eq (config : RateWindowConfig) (xs : List RateObservation) :
    after config xs = ofCounts (xs.foldl (config.rule.count true) {}) := by
  have hall : ∀ k, xs.foldl (fun window x ↦ (window.observe config x.1 x.2).2) (ofCounts k) =
      ofCounts (xs.foldl (config.rule.count true) k) := by
    induction xs with
    | nil => exact fun k ↦ rfl
    | cons x xs ih =>
      intro k
      rw [List.foldl_cons, List.foldl_cons, RateWindow.observe_ofCounts, ih]
  exact hall {}

/-- The window that has a phase and counters; what was kept is the frozen baseline. -/
def LatencyWindow.ofCounts (k : Hysteresis.Counts ℚ) : LatencyWindow where
  state := .ofPhase k.phase
  degradedCount := k.degradedCount
  recoveredCount := k.recoveredCount
  frozenBaseline := match k.phase with
    | .healthy => none
    | .degraded kept => some kept

theorem LatencyWindow.observe_ofCounts (config : LatencyWindowConfig) (k : Hysteresis.Counts ℚ)
    (x : LatencyObservation) :
    ((ofCounts k).observe config x).2 = ofCounts (config.rule.count false k x) := by
  obtain ⟨phase, degradedCount, recoveredCount⟩ := k
  obtain ⟨samples, baselineMs⟩ := x
  unfold observe Hysteresis.count LatencyWindowConfig.rule LatencyWindowConfig.tooFew
  by_cases hfew : samples.length < config.minimumSamples
  · cases phase <;> simp only [hfew, decide_true, if_true]
  · cases phase with
    | healthy =>
      cases baselineMs with
      | none => simp only [hfew, if_false, ofCounts, Option.none_or, decide_false, Option.map_none,
          Bool.false_eq_true]
      | some baseline =>
        simp only [hfew, if_false, ofCounts, WindowState.ofPhase, Option.none_or, decide_false,
          Option.map_some, Option.getD_some, Bool.false_eq_true]
        split_ifs <;> rfl
    | degraded kept =>
      simp only [hfew, if_false, ofCounts, WindowState.ofPhase, Option.some_or, decide_false,
        Bool.false_eq_true]
      split_ifs <;> rfl

theorem LatencyWindow.after_eq (config : LatencyWindowConfig) (xs : List LatencyObservation) :
    after config xs = ofCounts (xs.foldl (config.rule.count false) {}) := by
  have hall : ∀ k, xs.foldl (fun window x ↦ (window.observe config x).2) (ofCounts k) =
      ofCounts (xs.foldl (config.rule.count false) k) := by
    induction xs with
    | nil => exact fun k ↦ rfl
    | cons x xs ih =>
      intro k
      rw [List.foldl_cons, List.foldl_cons, LatencyWindow.observe_ofCounts, ih]
  exact hall {}

/-! ### Observations with too few samples -/

theorem RateWindow.observe_of_tooFew {config : RateWindowConfig} {x : RateObservation}
    (hx : config.tooFew x = true) (window : RateWindow) :
    (window.observe config x.1 x.2).2 = window := by
  unfold observe
  unfold RateWindowConfig.tooFew at hx
  rw [if_pos hx]

theorem LatencyWindow.observe_of_tooFew {config : LatencyWindowConfig} {x : LatencyObservation}
    (hx : config.tooFew x = true) (window : LatencyWindow) :
    (window.observe config x).2 = window := by
  unfold observe
  dsimp only
  rw [if_pos (of_decide_eq_true hx)]

/-- What changes nothing can be put in anywhere. -/
theorem foldl_insert {ω σ : Type} {f : σ → ω → σ} {x : ω} (hx : ∀ s, f s x = s) (s : σ)
    (before after : List ω) :
    (before ++ x :: after).foldl f s = (before ++ after).foldl f s := by
  rw [List.foldl_append, List.foldl_cons, hx, List.foldl_append]

/-! ### The law of the windows -/

/-- **The windows follow the rule of hysteresis** exactly when no degraded phase of the latency but
the first begins with a good observation that is not enough to end it. -/
theorem hysteretic_iff (rate : RateWindowConfig) (latency : LatencyWindowConfig)
    (xs : List RateObservation) (ys : List LatencyObservation) :
    Hysteretic rate latency xs ys ↔
      ∀ zs y, zs ++ [y] <+: ys → ¬ latency.rule.Hasty (zs.foldl latency.rule.next {}) y := by
  have hiff := latency.rule.counts_iff WindowState.ofPhase (fun _ ↦ nofun) ys
  constructor
  · intro h
    refine hiff.1 fun zs hzs ↦ ?_
    rw [← h.latency_state zs hzs, LatencyWindow.after_eq]
    rfl
  · intro h
    refine ⟨fun zs _ ↦ ?_, fun zs hzs ↦ ?_, fun before after x hx ↦ ?_, fun before after x hx ↦ ?_⟩
    · rw [← rate.rule.count_phase_eq, RateWindow.after_eq]
      rfl
    · rw [← hiff.2 h zs hzs, LatencyWindow.after_eq]
      rfl
    · exact foldl_insert (fun window ↦ RateWindow.observe_of_tooFew hx window) .init before after
    · exact foldl_insert (fun window ↦ LatencyWindow.observe_of_tooFew hx window) .init before after

/-! ### A second degraded phase -/

/-- Degraded after three observations in a row, and healthy after three. -/
def latencyConfig : LatencyWindowConfig where
  minimumSamples := 2
  degradeMultiplier := 2
  degradeDeltaMs := 1000
  degradeWindows := 3
  recoverMultiplier := 3 / 2
  recoverWindows := 3

/-- Two samples of one latency, against a baseline of 500 ms. -/
def latencyOf (ms : ℚ) : LatencyObservation where
  samples := [ms, ms]
  baselineMs := some 500

/-- Three bad observations, three good ones, three bad ones and a good one. -/
def twoPhases : List LatencyObservation :=
  ([1600, 1600, 1600, 500, 500, 500, 1600, 1600, 1600, 500] : List ℚ).map latencyOf

/-- The second degraded phase ends with one good observation in place of three. -/
theorem recovers_at_once :
    (LatencyWindow.after latencyConfig (twoPhases.take 9)).state = .degraded ∧
      (LatencyWindow.after latencyConfig twoPhases).state = .healthy ∧
      (twoPhases.foldl latencyConfig.rule.next {}).phase = .degraded 500 ∧
      ∀ rate xs, ¬ Hysteretic rate latencyConfig xs twoPhases := by
  refine ⟨by decide +kernel, by decide +kernel, by decide +kernel, fun rate xs h ↦ ?_⟩
  have hstate := h.latency_state twoPhases (List.prefix_refl _)
  revert hstate
  decide +kernel

end ModelConnector.Watcher
