import ModelConnector.Foundations.Members
import ModelConnector.Watcher.Cycles

/-!
# Circuits that have healed

The state of a circuit is read off a count that never falls while the service runs: how many
requests it has ever refused because the circuit was open. A pair that is quiet otherwise, whose
count does not grow and whose window does not judge it degraded, is classified as an open circuit
whenever this count is positive, and raises an alarm for it in every cycle. It is left alone exactly
when the count is not positive.
-/

namespace ModelConnector.Watcher

open Metrics

variable {config : WatcherConfig} {s s₀ : WatcherState} {o : Observation} {key : String}

/-! ### What is wanted of the watcher -/

/-- The count of the requests that were refused because the circuit was open. -/
def Observation.circuitOpenCount (o : Observation) : MetricValue :=
  o.raw.counters.get "circuitOpenCount"

/-- The count has not grown since the pair was observed before, and the window does not judge the
pair degraded. -/
structure Observation.Calm (config : WatcherConfig) (o : Observation) : Prop where
  steady : ∀ previousBaseline ∈ o.state.metricBaselines o.raw.pairKey,
    (previousBaseline.get "circuitOpenCount").lt o.circuitOpenCount = false
  healthy : (o.evidence config).windowedErrorState ≠ some .degraded

instance : Decidable (o.Calm config) :=
  decidable_of_iff ((∀ previousBaseline ∈ o.state.metricBaselines o.raw.pairKey,
      (previousBaseline.get "circuitOpenCount").lt o.circuitOpenCount = false) ∧
    (o.evidence config).windowedErrorState ≠ some .degraded)
    ⟨fun h ↦ ⟨h.1, h.2⟩, fun h ↦ ⟨h.steady, h.healthy⟩⟩

/-- The lines that the audit log has about a pair. -/
def WatcherState.auditOf (s : WatcherState) (key : String) : List AuditRecord :=
  s.audit.filter fun line ↦ decide (line.provider ++ ":" ++ line.model = key)

/-- The requests for resets of a pair. -/
def WatcherState.requestsOf (s : WatcherState) (key : String) : List ResetRequest :=
  s.requests.filter fun request ↦ decide (request.provider ++ ":" ++ request.model = key)

/-- **What is wanted of a run**: no failure is classified for a pair, no alert goes out for it and
no reset is requested. -/
structure LeftAlone (config : WatcherConfig) (key : String) (s₀ : WatcherState)
    (h : List (WatcherState × Cycle)) (s : WatcherState) : Prop where
  unclassified : ∀ p ∈ h, ∀ o ∈ p.2.observed config p.1, o.raw.pairKey = key →
    classifyFailure (o.evidence config) = none
  audit : s.auditOf key = s₀.auditOf key
  requests : s.requestsOf key = s₀.requestsOf key

/-! ### What is classified -/

/-- A count that the delta has is positive exactly when it has grown. -/
theorem positive_get_delta {previous current delta : Counters} {name : String}
    (h : computeMetricDelta previous current = some delta) :
    (delta.get name).positive = (previous.get name).lt (current.get name) := by
  unfold computeMetricDelta at h
  split_ifs at h
  obtain rfl := Option.some.inj h
  unfold Counters.get
  rw [Members.lookup_map_mk fun name v ↦ ((current.lookup name).getD .nan).sub v]
  cases previous.lookup name with
  | none => rfl
  | some v =>
    cases (current.lookup name).getD .nan <;> cases v <;>
      simp [MetricValue.sub, MetricValue.positive, MetricValue.lt]

/-- A pair that has not grown, or that is seen for the first time, has a positive count among the
counters that are handled only if the count itself is positive. -/
theorem positive_of_evidence (hcalm : o.Calm config)
    (h : ((o.evidence config).counters.get "circuitOpenCount").positive = true) :
    o.circuitOpenCount.positive = true := by
  unfold Observation.evidence WatcherState.enrich at h
  dsimp only at h
  split at h
  · exact h
  · rename_i previousBaseline hbaseline
    split at h
    · exact h
    · rename_i delta hdelta
      have hsteady := hcalm.steady previousBaseline hbaseline
      rw [positive_get_delta hdelta] at h
      exact absurd h (by rw [← Observation.circuitOpenCount, hsteady]; decide)

/-- What is reachable and has no error type has a circuit that is open, or a window that judges it,
or no failure. -/
theorem classifyFailure_eq {evidence : EvidenceSnapshot} (hreachable : evidence.reachable = true)
    (herror : evidence.explicitErrorType = none) :
    classifyFailure evidence =
      if evidence.circuitState = .opened ∨
          (evidence.counters.get "circuitOpenCount").positive = true then some .circuit_open
      else if evidence.windowedErrorState = some .degraded then some .unknown
      else none := by
  unfold classifyFailure EvidenceSnapshot.errorType?
  simp [hreachable, herror]

/-- **A pair that is calm is classified by its count alone.** -/
theorem classifyFailure_eq_none_iff {cycle : Cycle} (ho : o ∈ cycle.observed config s)
    (hcalm : o.Calm config) :
    classifyFailure (o.evidence config) = none ↔ o.circuitOpenCount.positive = false := by
  obtain ⟨metrics, -, entry, -, hraw, -⟩ := exists_entry_of_mem_observed ho
  obtain ⟨counters, windowedErrorState, hevidence⟩ :=
    @enrich_fst config o.state o.raw
  have hreachable : (o.evidence config).reachable = true := by
    rw [Observation.evidence, hevidence, hraw]
    rfl
  have herror : (o.evidence config).explicitErrorType = none := by
    rw [Observation.evidence, hevidence, hraw]
    rfl
  have hcircuit : (o.evidence config).circuitState = .opened ↔
      o.circuitOpenCount.positive = true := by
    rw [Observation.evidence, hevidence, Observation.circuitOpenCount, hraw]
    unfold normalizeEntry
    dsimp only
    split <;> simp_all
  rw [classifyFailure_eq hreachable herror, if_neg hcalm.healthy]
  constructor
  · intro h
    split_ifs at h with hopen
    exact Bool.eq_false_iff.2 fun hcount ↦ hopen (.inl (hcircuit.2 hcount))
  · intro hcount
    rw [if_neg]
    rintro (hopen | hopen)
    · rw [hcircuit.1 hopen] at hcount
      cases hcount
    · rw [positive_of_evidence hcalm hopen] at hcount
      cases hcount

/-! ### What is done about it -/

variable {evidence : EvidenceSnapshot} {reading : Reading}

/-- What has to do with one pair leaves the lines and the requests of another as they are. -/
def Keeps (key : String) (s t : WatcherState) : Prop :=
  t.auditOf key = s.auditOf key ∧ t.requestsOf key = s.requestsOf key

theorem keeps_emitAlert {failureClass : FailureClass} {attemptedAction outcome : String}
    {blockedAction : Option String} {fixApplied : Bool} (hkey : evidence.pairKey ≠ key) :
    Keeps key s (emitAlert evidence failureClass attemptedAction blockedAction outcome reading
      fixApplied s).1 := by
  unfold emitAlert
  split
  · exact ⟨rfl, rfl⟩
  · refine ⟨?_, rfl⟩
    unfold WatcherState.auditOf
    rw [List.filter_append, List.filter_singleton]
    have : decide (evidence.provider ++ ":" ++ evidence.model = key) = false := decide_eq_false hkey
    rw [this, cond_false, List.append_nil]

theorem keeps_send (hkey : evidence.pairKey ≠ key) : Keeps key s (s.send evidence reading) := by
  unfold WatcherState.send
  split
  · exact ⟨rfl, rfl⟩
  · refine ⟨rfl, ?_⟩
    unfold WatcherState.requestsOf
    rw [List.filter_append, List.filter_singleton]
    have : decide (evidence.provider ++ ":" ++ evidence.model = key) = false := decide_eq_false hkey
    rw [this, cond_false, List.append_nil]

theorem Keeps.trans {t u : WatcherState} (h : Keeps key s t) (h' : Keeps key t u) :
    Keeps key s u :=
  ⟨h'.1.trans h.1, h'.2.trans h.2⟩

theorem keeps_handleCircuitReset {failureClass : FailureClass} (hkey : evidence.pairKey ≠ key) :
    Keeps key s (handleCircuitReset config evidence failureClass reading s).1 := by
  unfold handleCircuitReset
  split
  · exact keeps_emitAlert hkey
  · dsimp only
    split
    · exact keeps_send hkey
    · rename_i recovered outcome _
      have hrecord : ∀ t : WatcherState, Keeps key t (if recovered then
          t.recordReset evidence.provider evidence.model reading.recordedAt else t) := by
        intro t
        split
        · exact ⟨rfl, rfl⟩
        · exact ⟨rfl, rfl⟩
      exact (keeps_send hkey).trans ((hrecord _).trans (keeps_emitAlert hkey))

/-- Evidence of another pair, or evidence without a failure. -/
theorem keeps_handleEvidence (h : evidence.pairKey ≠ key ∨ classifyFailure evidence = none) :
    Keeps key s (handleEvidence config evidence reading s).1 := by
  unfold handleEvidence
  dsimp only
  have htracked : Keeps key s { s with tracker := (s.tracker.update evidence).2 } := ⟨rfl, rfl⟩
  split
  · exact htracked
  · rename_i failureClass hfailure
    have hkey : evidence.pairKey ≠ key := h.resolve_right (by rw [hfailure]; simp)
    refine htracked.trans ?_
    split
    · exact keeps_handleCircuitReset hkey
    · split
      · exact keeps_emitAlert hkey
      · exact keeps_emitAlert hkey

/-- An observation of another pair, or one without a failure. -/
theorem keeps_outcome (h : o.raw.pairKey ≠ key ∨ classifyFailure (o.evidence config) = none) :
    Keeps key o.state (o.outcome config).1 := by
  unfold Observation.outcome
  rw [observePair_eq]
  have hpairKey : (o.state.enrich config o.raw).1.pairKey = o.raw.pairKey := by
    unfold EvidenceSnapshot.pairKey
    rw [enrich_provider, enrich_model]
  obtain ⟨haudit, hrequests⟩ := @enrich_snd config o.state o.raw
  have hprimed : Keeps key o.state (o.state.enrich config o.raw).2 := by
    unfold Keeps WatcherState.auditOf WatcherState.requestsOf
    rw [haudit, hrequests]
    exact ⟨rfl, rfl⟩
  refine hprimed.trans (keeps_handleEvidence ?_)
  rw [hpairKey]
  exact h

/-! ### Runs -/

/-- A run in which nothing is classified for a pair leaves it alone. -/
theorem leftAlone_of_unclassified {h : List (WatcherState × Cycle)}
    (hr : Run (watcherStep config) s₀ h s)
    (hnone : ∀ p ∈ h, ∀ o ∈ p.2.observed config p.1, o.raw.pairKey = key →
      classifyFailure (o.evidence config) = none) : LeftAlone config key s₀ h s := by
  have hkeeps : Keeps key s₀ s := by
    refine hr.invariant_of_forall (P := Keeps key s₀) (c := fun s cycle ↦
      ∀ o ∈ cycle.observed config s, o.raw.pairKey = key →
        classifyFailure (o.evidence config) = none) ⟨rfl, rfl⟩ ?_ hnone
    rintro s cycle s' hs hc hstep
    obtain rfl := Option.some.inj hstep
    refine runCycle_of_forall hs fun o ho hstate ↦ hstate.trans (keeps_outcome ?_)
    by_cases hkey : o.raw.pairKey = key
    · exact .inr (hc o ho hkey)
    · exact .inl hkey
  exact ⟨hnone, hkeeps.1, hkeeps.2⟩

/-- **A pair that is calm is left alone exactly when its count is not positive**, over every run of
cycles, from whatever the watcher has seen before. -/
theorem leftAlone_iff {h : List (WatcherState × Cycle)} (hr : Run (watcherStep config) s₀ h s)
    (hcalm : ∀ p ∈ h, ∀ o ∈ p.2.observed config p.1, o.raw.pairKey = key → o.Calm config) :
    LeftAlone config key s₀ h s ↔ ∀ p ∈ h, ∀ o ∈ p.2.observed config p.1, o.raw.pairKey = key →
      o.circuitOpenCount.positive = false := by
  constructor
  · intro hleft p hp o ho hkey
    exact (classifyFailure_eq_none_iff ho (hcalm p hp o ho hkey)).1
      (hleft.unclassified p hp o ho hkey)
  · intro hcount
    refine leftAlone_of_unclassified hr fun p hp o ho hkey ↦ ?_
    exact (classifyFailure_eq_none_iff ho (hcalm p hp o ho hkey)).2 (hcount p hp o ho hkey)

/-! ### One refused request -/

theorem five_pos : 0 < 5 := by decide

/-- No resets, and an alarm for every three windows in which a quarter of the requests fail. -/
def shadowConfig : WatcherConfig where
  recovery :=
    { circuitResetEnabled := false, resetBudgetPerHour := 2, resetBudgetPerDay := 6,
      cooldownMs := 900000, naturalRecoveryGraceMs := some 60000 }
  errorRate :=
    { minimumSamples := 5, degradeRatio := 1 / 4, degradeWindows := 3, recoverRatio := 1 / 10,
      recoverWindows := 3, minimumSamples_pos := five_pos }

/-- A cycle with one pair: how many requests it has had, how many of them failed, and how many were
refused because its circuit was open. -/
def countsCycle (now : ℤ) (totalRequests errorCount circuitOpenCount : ℕ) : Cycle where
  observedAt := now
  metrics := some [{
    key := "openrouter:sonar"
    counters := [("totalRequests", .num totalRequests), ("errorCount", .num errorCount),
      ("circuitOpenCount", .num circuitOpenCount)]
    reading := { agedAt := now, decidedAt := now, sentAt := now, reply := .failed false,
                 recordedAt := now, audited := true, delivered := true } }]

/-- One request was refused before the watcher started. -/
def afterRefusal : WatcherState :=
  runCycle shadowConfig (countsCycle 0 9 0 1) WatcherState.init

/-- An hour later and a day later, when a hundred requests have gone well, there is an alarm about
the open circuit in every cycle. -/
theorem healed_circuit_alarms : ∃ h s, Run (watcherStep shadowConfig) afterRefusal h s ∧
    (∀ p ∈ h, ∀ o ∈ p.2.observed shadowConfig p.1, o.Calm shadowConfig) ∧
    h.length = 2 ∧ s.audit.length = afterRefusal.audit.length + 2 ∧
    ¬ LeftAlone shadowConfig "openrouter:sonar" afterRefusal h s := by
  obtain ⟨h, s, hr, hcheck⟩ := Run.exists_of_check (watcherStep shadowConfig) afterRefusal
    [countsCycle 3600000 59 0 1, countsCycle 86400000 109 0 1]
    (fun h s ↦ decide ((∀ p ∈ h, ∀ o ∈ p.2.observed shadowConfig p.1, o.Calm shadowConfig) ∧
      h.length = 2 ∧ s.audit.length = afterRefusal.audit.length + 2 ∧
      s.auditOf "openrouter:sonar" ≠ afterRefusal.auditOf "openrouter:sonar")) (by decide +kernel)
  obtain ⟨hcalm, hlength, haudit, hne⟩ := of_decide_eq_true hcheck
  exact ⟨h, s, hr, hcalm, hlength, haudit, fun hleft ↦ hne hleft.audit⟩

/-- Where no request was refused, a failure of long ago raises no alarm. -/
theorem leftAlone_old_failure : ∃ h s, Run (watcherStep shadowConfig) .init h s ∧ h.length = 3 ∧
    LeftAlone shadowConfig "openrouter:sonar" .init h s := by
  obtain ⟨h, s, hr, hcheck⟩ := Run.exists_of_check (watcherStep shadowConfig) .init
    [countsCycle 0 9 1 0, countsCycle 3600000 59 1 0, countsCycle 86400000 109 1 0]
    (fun h _ ↦ decide ((∀ p ∈ h, ∀ o ∈ p.2.observed shadowConfig p.1,
      o.Calm shadowConfig ∧ o.circuitOpenCount.positive = false) ∧ h.length = 3))
    (by decide +kernel)
  obtain ⟨hcalm, hlength⟩ := of_decide_eq_true hcheck
  exact ⟨h, s, hr, hlength, (leftAlone_iff hr fun p hp o ho _ ↦ (hcalm p hp o ho).1).2
    fun p hp o ho _ ↦ (hcalm p hp o ho).2⟩

end ModelConnector.Watcher
