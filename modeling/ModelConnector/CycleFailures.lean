import ModelConnector.DeprecationMisses
import ModelConnector.HealedCircuits
import ModelConnector.Watcher.Heartbeat

/-!
# Failures within a cycle

A side effect that fails ends the cycle: an alert that cannot be written or delivered leaves the
pairs after it unobserved, and this or a catalogue that cannot be fetched leaves the heartbeat of
the cycle before in the state file. So every pair is observed and the heartbeat is written exactly
when none of the side effects that the cycle comes to fails.
-/

namespace ModelConnector.Watcher

open Metrics

variable {config : WatcherConfig} {s : WatcherState} {o : Observation}

/-! ### What is wanted of a cycle -/

/-- What is in memory of a pair after its observation. -/
structure Observation.Updated (config : WatcherConfig) (o : Observation) : Prop where
  baseline : (o.outcome config).1.metricBaselines o.raw.pairKey = some o.raw.counters
  window : ∀ previousBaseline ∈ o.state.metricBaselines o.raw.pairKey,
    ∀ delta ∈ computeMetricDelta previousBaseline o.raw.counters,
      (o.outcome config).1.rateWindows o.raw.pairKey =
        some (((o.state.rateWindows o.raw.pairKey).getD RateWindow.init).observe config.errorRate
          (delta.get "errorCount") (delta.get "totalRequests")).2
  tracker : (o.outcome config).1.tracker = (o.state.tracker.update (o.evidence config)).2

/-- **What is wanted of a cycle**: every pair of the metrics is observed, its memory is updated, and
the heartbeat is written. -/
structure Attends (config : LoopConfig) (cycle : LoopCycle) (s : LoopState) : Prop where
  observed : (observed config.watcher cycle.evidence s.watcher).map (fun o ↦ (o.raw, o.reading)) =
    cycle.evidence
  updated : ∀ o ∈ Watcher.observed config.watcher cycle.evidence s.watcher,
    o.Updated config.watcher
  heartbeat : (runLoopCycle config cycle s).heartbeats =
    s.heartbeats ++ [⟨cycle.cycle.observedAt, cycle.ok, s.shadowStart⟩]

/-! ### Side effects -/

/-- The policy has a circuit reset, and resets are enabled. -/
def Observation.resets (config : WatcherConfig) (o : Observation) : Bool :=
  config.recovery.circuitResetEnabled &&
    (classifyFailure (o.evidence config)).any fun failureClass ↦
      decide ((config.recovery.decideRecovery o.state.resets
        (recoveryInput (o.evidence config) failureClass
          (o.state.tracker.update (o.evidence config)).1 o.reading)).action = .reset_circuit)

/-- No side effect of an observation fails: if its evidence shows a failure, the call for a reset
does not throw, and the alert is written and delivered. -/
structure Observation.Unharmed (config : WatcherConfig) (o : Observation) : Prop where
  reset : o.resets config = true → (executeRecovery o.reading.reply).isSome = true
  alert : (classifyFailure (o.evidence config)).isSome = true →
    o.reading.audited = true ∧ o.reading.delivered = true

instance : Decidable (o.Unharmed config) :=
  decidable_of_iff ((o.resets config = true → (executeRecovery o.reading.reply).isSome = true) ∧
      ((classifyFailure (o.evidence config)).isSome = true →
        o.reading.audited = true ∧ o.reading.delivered = true))
    ⟨fun h ↦ ⟨h.1, h.2⟩, fun h ↦ ⟨h.reset, h.alert⟩⟩

/-! ### The memory of a pair -/

/-- Two states with the same baselines, windows and failures. -/
structure SameMemory (s t : WatcherState) : Prop where
  metricBaselines : t.metricBaselines = s.metricBaselines
  rateWindows : t.rateWindows = s.rateWindows
  tracker : t.tracker = s.tracker

theorem SameMemory.trans {t u : WatcherState} (h : SameMemory s t) (h' : SameMemory t u) :
    SameMemory s u :=
  ⟨h'.1.trans h.1, h'.2.trans h.2, h'.3.trans h.3⟩

theorem sameMemory_emitAlert {evidence : EvidenceSnapshot} {failureClass : FailureClass}
    {attemptedAction outcome : String} {blockedAction : Option String} {reading : Reading}
    {fixApplied : Bool} : SameMemory s (emitAlert evidence failureClass attemptedAction
      blockedAction outcome reading fixApplied s).1 := by
  unfold emitAlert
  split
  · exact ⟨rfl, rfl, rfl⟩
  · exact ⟨rfl, rfl, rfl⟩

theorem sameMemory_handleCircuitReset {evidence : EvidenceSnapshot} {failureClass : FailureClass}
    {reading : Reading} :
    SameMemory s (handleCircuitReset config evidence failureClass reading s).1 := by
  have hsend : SameMemory s (s.send evidence reading) := by
    unfold WatcherState.send
    split
    · exact ⟨rfl, rfl, rfl⟩
    · exact ⟨rfl, rfl, rfl⟩
  unfold handleCircuitReset
  split
  · exact sameMemory_emitAlert
  · dsimp only
    split
    · exact hsend
    · refine SameMemory.trans (hsend.trans ?_) sameMemory_emitAlert
      split
      · exact ⟨rfl, rfl, rfl⟩
      · exact ⟨rfl, rfl, rfl⟩

/-- The handling of evidence changes what is known of failures, and nothing else of the memory. -/
theorem sameMemory_handleEvidence {evidence : EvidenceSnapshot} {reading : Reading} :
    SameMemory { s with tracker := (s.tracker.update evidence).2 }
      (handleEvidence config evidence reading s).1 := by
  unfold handleEvidence
  dsimp only
  split
  · exact ⟨rfl, rfl, rfl⟩
  · split
    · exact sameMemory_handleCircuitReset
    · split
      · exact sameMemory_emitAlert
      · exact sameMemory_emitAlert

/-- An observation updates the memory of its pair, whatever fails in it. -/
theorem updated_observation (o : Observation) : o.Updated config := by
  have hsame := @sameMemory_handleEvidence config (o.state.enrich config o.raw).2
    (o.evidence config) o.reading
  have houtcome : o.outcome config = handleEvidence config (o.evidence config) o.reading
      (o.state.enrich config o.raw).2 := observePair_eq o.raw o.reading
  rw [← houtcome] at hsame
  refine ⟨?_, ?_, ?_⟩
  · rw [hsame.metricBaselines]
    unfold WatcherState.enrich
    dsimp only
    split
    · exact Function.update_self ..
    · split
      · exact Function.update_self ..
      · exact Function.update_self ..
  · intro previousBaseline hprevious delta hdelta
    rw [hsame.rateWindows]
    unfold WatcherState.enrich
    dsimp only
    rw [Option.mem_def.1 hprevious]
    dsimp only
    rw [Option.mem_def.1 hdelta]
    exact Function.update_self ..
  · rw [hsame.tracker]
    unfold WatcherState.enrich
    dsimp only
    split
    · rfl
    · split
      · rfl
      · rfl

/-! ### Going on -/

theorem enrich_memory (raw : EvidenceSnapshot) :
    (s.enrich config raw).2.resets = s.resets ∧ (s.enrich config raw).2.tracker = s.tracker := by
  unfold WatcherState.enrich
  dsimp only
  split
  · exact ⟨rfl, rfl⟩
  · split
    · exact ⟨rfl, rfl⟩
    · exact ⟨rfl, rfl⟩

/-- An alert is made of a failure unless the call for a reset throws. -/
theorem isSome_handledAlert? {evidence : EvidenceSnapshot} {reading : Reading}
    {failureClass : FailureClass} (h : classifyFailure evidence = some failureClass) :
    (handledAlert? config evidence reading s).isSome = true ↔
      ((config.recovery.circuitResetEnabled && decide ((config.recovery.decideRecovery s.resets
        (recoveryInput evidence failureClass (s.tracker.update evidence).1 reading)).action =
          .reset_circuit)) = true → (executeRecovery reading.reply).isSome = true) := by
  unfold handledAlert? circuitResetAlert?
  rw [h, Option.bind_some]
  generalize config.recovery.decideRecovery s.resets
    (recoveryInput evidence failureClass (s.tracker.update evidence).1 reading) = decision
  dsimp only
  cases decision.action with
  | reset_circuit => cases config.recovery.circuitResetEnabled <;> simp
  | alert =>
    dsimp only
    split
    · simp
    · simp

/-- **The cycle goes on after an observation** exactly when none of its side effects fails. -/
theorem goesOn_iff (o : Observation) : (o.outcome config).2 = true ↔ o.Unharmed config := by
  obtain ⟨hresets, htracker⟩ := @enrich_memory config o.state o.raw
  rw [(alerted_outcome o).goesOn]
  cases hclass : classifyFailure (o.evidence config) with
  | none =>
    refine iff_of_true (.inl rfl) ⟨fun h ↦ ?_, fun h ↦ ?_⟩
    · unfold Observation.resets at h
      rw [hclass, Option.any_none, Bool.and_false] at h
      cases h
    · rw [hclass] at h
      cases h
  | some failureClass =>
    rw [isSome_handledAlert? hclass, hresets, htracker]
    constructor
    · rintro (h | ⟨hreset, haudited, hdelivered⟩)
      · cases h
      · refine ⟨fun h ↦ hreset ?_, fun _ ↦ ⟨haudited, hdelivered⟩⟩
        unfold Observation.resets at h
        rwa [hclass, Option.any_some] at h
    · intro h
      refine .inr ⟨fun hreset ↦ h.reset ?_, h.alert (by rw [hclass]; rfl)⟩
      unfold Observation.resets
      rwa [hclass, Option.any_some]

/-- The refresh of the catalogue returns exactly when none is due or it can be fetched. -/
theorem refresh_returns_iff {config : CatalogConfig} {provider : String} {cycle : LoopCycle}
    {s : CatalogState} :
    (refreshCatalogIfDue config provider cycle.catalogReading s).2.1 = true ↔
      (config.isDue cycle.refreshedAt s = true → cycle.fetched.isSome = true) := by
  unfold refreshCatalogIfDue LoopCycle.catalogReading
  dsimp only
  by_cases hdue : config.isDue cycle.refreshedAt s = true
  · rw [if_neg (by simp [hdue])]
    cases cycle.fetched with
    | none => simp [hdue]
    | some current =>
      have hreturns : (reconcile config.sync provider ((s.catalogs provider).getD []) current
          config.writeEnabled disabledCatalogWriter s).2.1 = true := by
        unfold reconcile disabledCatalogWriter
        simp
      dsimp only
      split
      · rename_i hstop
        rw [hstop] at hreturns
        cases hreturns
      · simp
  · simp [hdue]

/-! ### The law of the cycle -/

/-- **A cycle does what is wanted of it** exactly when no side effect that it comes to fails: no
call for a reset, no line of the audit log, no alert, and not the fetch of the catalogue if one is
due. -/
theorem attends_iff (config : LoopConfig) (cycle : LoopCycle) (s : LoopState)
    (hstored : cycle.stored = true) : Attends config cycle s ↔
      (∀ o ∈ observed config.watcher cycle.evidence s.watcher, o.Unharmed config.watcher) ∧
        (config.catalog.isDue cycle.refreshedAt s.catalogs = true → cycle.fetched.isSome = true) := by
  have hloop := @observeLoop_snd config.watcher s.watcher cycle.evidence
  simp only [goesOn_iff] at hloop
  rw [← hloop, ← @refresh_returns_iff _ config.provider]
  have hbeats : (runLoopCycle config cycle s).heartbeats =
      s.heartbeats ++ [⟨cycle.cycle.observedAt, cycle.ok, s.shadowStart⟩] ↔
        (observeLoop config.watcher cycle.evidence s.watcher).2 = true ∧
          (refreshCatalogIfDue config.catalog config.provider cycle.catalogReading
            s.catalogs).2.1 = true := by
    unfold runLoopCycle
    split
    · rename_i watcher hstop
      simp [hstop]
    · rename_i watcher hcont
      rw [hcont]
      split
      · rename_i fetch catalogs hfail
        simp [hfail]
      · rename_i fetch catalogs hreturn
        simp [hreturn, LoopState.beat, hstored]
  constructor
  · exact fun h ↦ hbeats.1 h.heartbeat
  · exact fun h ↦ ⟨map_observed_of_observeLoop h.1, fun o _ ↦ updated_observation o, hbeats.2 h⟩

/-! ### A message that is not delivered -/

def shadowLoop : LoopConfig where
  watcher := shadowConfig
  catalog := twoMisses
  provider := "openrouter"

/-- A pair with an open circuit, whose alert is delivered or is not. -/
def refusedPair (key : String) (delivered : Bool) : Scraped where
  key := key
  counters := [("totalRequests", .num 9), ("errorCount", .num 0), ("circuitOpenCount", .num 1)]
  reading := { agedAt := 0, decidedAt := 0, sentAt := 0, reply := .failed false, recordedAt := 0
               audited := true, delivered }

/-- A cycle in which all routes answer and the state file can be written. -/
def quietCycle (pairs : List Scraped) (fetched : Option Catalog) : LoopCycle where
  cycle := { observedAt := 0, metrics := some pairs }
  others := true
  refreshedAt := 0
  fetched := fetched
  stored := true

/-- The first of two alerts is not delivered. -/
def undelivered : LoopCycle :=
  quietCycle [refusedPair "openrouter:sonar" false, refusedPair "groq:llama" true] (some [])

/-- No side effect fails, and two pairs are observed. -/
theorem attends_delivered : Attends shadowLoop
    (quietCycle [refusedPair "openrouter:sonar" true, refusedPair "groq:llama" true] (some []))
    .init :=
  (attends_iff shadowLoop _ .init rfl).2 ⟨by decide +kernel, fun _ ↦ rfl⟩

/-- **An alert that is not delivered** leaves the other pair without a baseline, and no heartbeat is
written; nor is one in a cycle without pairs when the catalogue cannot be fetched. -/
theorem undelivered_blinds :
    (observed shadowLoop.watcher undelivered.evidence .init).length = 1 ∧
      (runLoopCycle shadowLoop undelivered .init).watcher.metricBaselines "groq:llama" = none ∧
      (runLoopCycle shadowLoop undelivered .init).heartbeats = [] ∧
      ¬ Attends shadowLoop undelivered .init ∧
      (runLoopCycle shadowLoop (quietCycle [] none) .init).heartbeats = [] ∧
      ¬ Attends shadowLoop (quietCycle [] none) .init := by
  have hbeats : (runLoopCycle shadowLoop undelivered .init).heartbeats = [] := by decide +kernel
  have hbeats' : (runLoopCycle shadowLoop (quietCycle [] none) .init).heartbeats = [] := by
    decide +kernel
  refine ⟨by decide +kernel, by decide +kernel, hbeats, fun h ↦ ?_, hbeats', fun h ↦ ?_⟩
  · exact absurd (hbeats.symm.trans h.heartbeat) (List.cons_ne_nil _ _).symm
  · exact absurd (hbeats'.symm.trans h.heartbeat) (List.cons_ne_nil _ _).symm

end ModelConnector.Watcher
