import ModelConnector.Foundations.Run
import ModelConnector.Watcher.Recovery

/-!
# What a cycle comes to

The loop of a cycle goes over the evidence of the pairs up to the first failure. `observed` lists
the observations it comes to, each with the state it is come to in. An observation is judged by what
`handleEvidence` is given, which is the evidence of the pair with the judgement of its window and,
if there is a baseline, with what the counters have gained.
-/

namespace ModelConnector.Watcher

open Metrics

variable {config : WatcherConfig} {s : WatcherState}

/-! ### Observations -/

/-- What the body of the loop makes of the evidence of a pair, and the state after that. -/
def WatcherState.enrich (config : WatcherConfig) (s : WatcherState) (raw : EvidenceSnapshot) :
    EvidenceSnapshot × WatcherState :=
  let pairKey := raw.pairKey
  let primed := { s with
    metricBaselines := Function.update s.metricBaselines pairKey (some raw.counters) }
  match s.metricBaselines pairKey with
  | none => ({ raw with windowedErrorState := none }, primed)
  | some previousBaseline =>
    match computeMetricDelta previousBaseline raw.counters with
    | none => ({ raw with windowedErrorState := none }, primed)
    | some delta =>
      let window := (s.rateWindows pairKey).getD RateWindow.init
      let (result, window) :=
        window.observe config.errorRate (delta.get "errorCount") (delta.get "totalRequests")
      ({ raw with
          counters := delta
          windowedErrorState := if result.ratio.isNone then none else some result.state },
        { primed with rateWindows := Function.update s.rateWindows pairKey (some window) })

/-- A pair's evidence, as the metrics give it, and the state in which the loop comes to it. -/
structure Observation where
  state : WatcherState
  raw : EvidenceSnapshot
  reading : Reading

namespace Observation

/-- The evidence that is handled. -/
def evidence (config : WatcherConfig) (o : Observation) : EvidenceSnapshot :=
  (o.state.enrich config o.raw).1

/-- What comes of the observation. -/
def outcome (config : WatcherConfig) (o : Observation) : Outcome :=
  observePair config o.raw o.reading o.state

end Observation

/-- The observations that the loop comes to. -/
def observed (config : WatcherConfig) :
    List (EvidenceSnapshot × Reading) → WatcherState → List Observation
  | [], _ => []
  | (raw, reading) :: rest, s =>
    ⟨s, raw, reading⟩ ::
      match observePair config raw reading s with
      | (s, true) => observed config rest s
      | (_, false) => []

/-- The observations that a cycle comes to. -/
def Cycle.observed (config : WatcherConfig) (cycle : Cycle) (s : WatcherState) :
    List Observation :=
  match cycle.metrics with
  | none => []
  | some metrics => Watcher.observed config (cycle.evidence metrics) s

/-! ### The body of the loop -/

theorem observePair_eq (raw : EvidenceSnapshot) (reading : Reading) :
    observePair config raw reading s =
      handleEvidence config (s.enrich config raw).1 reading (s.enrich config raw).2 := by
  unfold observePair WatcherState.enrich
  dsimp only
  cases s.metricBaselines raw.pairKey with
  | none => rfl
  | some previousBaseline =>
    dsimp only
    cases computeMetricDelta previousBaseline raw.counters with
    | none => rfl
    | some delta => rfl

/-- The evidence that is handled is that of the pair, apart from the counters and the judgement of
the window. -/
theorem enrich_fst (raw : EvidenceSnapshot) : ∃ counters windowedErrorState,
    (s.enrich config raw).1 = { raw with counters, windowedErrorState } := by
  unfold WatcherState.enrich
  dsimp only
  split
  · exact ⟨_, _, rfl⟩
  · split
    · exact ⟨_, _, rfl⟩
    · exact ⟨_, _, rfl⟩

theorem enrich_provider (raw : EvidenceSnapshot) :
    (s.enrich config raw).1.provider = raw.provider := by
  obtain ⟨counters, windowedErrorState, h⟩ := @enrich_fst config s raw
  rw [h]

theorem enrich_model (raw : EvidenceSnapshot) : (s.enrich config raw).1.model = raw.model := by
  obtain ⟨counters, windowedErrorState, h⟩ := @enrich_fst config s raw
  rw [h]

/-- Neither the audit log nor the requests are touched before the evidence is handled. -/
theorem enrich_snd (raw : EvidenceSnapshot) : (s.enrich config raw).2.audit = s.audit ∧
    (s.enrich config raw).2.requests = s.requests := by
  unfold WatcherState.enrich
  dsimp only
  split
  · exact ⟨rfl, rfl⟩
  · split
    · exact ⟨rfl, rfl⟩
    · exact ⟨rfl, rfl⟩

/-! ### The loop -/

/-- What every observation keeps, the loop keeps. -/
theorem observeAll_of_forall {P : WatcherState → Prop}
    {evidence : List (EvidenceSnapshot × Reading)} (h0 : P s)
    (hstep : ∀ o ∈ observed config evidence s, P o.state → P (o.outcome config).1) :
    P (observeAll config evidence s) := by
  induction evidence generalizing s with
  | nil => exact h0
  | cons p rest ih =>
    have hfirst : P (observePair config p.1 p.2 s).1 :=
      hstep ⟨s, p.1, p.2⟩ List.mem_cons_self h0
    have hrest : ∀ o ∈ (observed config (p :: rest) s).tail,
        P o.state → P (o.outcome config).1 :=
      fun o ho ↦ hstep o (List.mem_of_mem_tail ho)
    unfold observed at hrest
    unfold observeAll
    split
    · rename_i t hcont
      rw [hcont] at hfirst hrest
      exact ih hfirst hrest
    · rename_i t hstop
      rw [hstop] at hfirst
      exact hfirst

/-- What every observation keeps, a cycle keeps. -/
theorem runCycle_of_forall {P : WatcherState → Prop} {cycle : Cycle} (h0 : P s)
    (hstep : ∀ o ∈ cycle.observed config s, P o.state → P (o.outcome config).1) :
    P (runCycle config cycle s) := by
  unfold runCycle
  unfold Cycle.observed at hstep
  cases hmetrics : cycle.metrics with
  | none => exact h0
  | some metrics =>
    rw [hmetrics] at hstep
    exact observeAll_of_forall h0 hstep

/-! ### The entries of the metrics -/

theorem mem_of_mem_observed {o : Observation} {evidence : List (EvidenceSnapshot × Reading)}
    (ho : o ∈ observed config evidence s) : (o.raw, o.reading) ∈ evidence := by
  induction evidence generalizing s with
  | nil => cases ho
  | cons p rest ih =>
    unfold observed at ho
    rcases List.mem_cons.1 ho with rfl | ho
    · exact List.mem_cons_self
    · split at ho
      · exact List.mem_cons_of_mem _ (ih ho)
      · cases ho

/-- An observation is one of an entry of the metrics. -/
theorem exists_entry_of_mem_observed {o : Observation} {cycle : Cycle}
    (ho : o ∈ cycle.observed config s) : ∃ metrics ∈ cycle.metrics, ∃ entry ∈ metrics,
      o.raw = normalizeEntry entry.key entry.counters cycle.observedAt ∧
        o.reading = entry.reading := by
  unfold Cycle.observed at ho
  split at ho
  · cases ho
  · rename_i metrics hmetrics
    have hmem := mem_of_mem_observed ho
    unfold Cycle.evidence normalizeMetrics at hmem
    rw [List.map_map, List.zip_map', List.mem_map] at hmem
    obtain ⟨entry, hentry, heq⟩ := hmem
    obtain ⟨hraw, hreading⟩ := Prod.mk.inj heq
    exact ⟨metrics, hmetrics, entry, hentry, hraw.symm, hreading.symm⟩

end ModelConnector.Watcher
