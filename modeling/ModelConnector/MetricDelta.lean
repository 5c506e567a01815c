import ModelConnector.Watcher.Observation

/-!
# The watcher sees every request once

The watcher takes a fall of any exported member for a restart of the service. The counts never fall,
and the sums do only if what is recorded is negative. The mean latency, which is exported beside
them, is no counter: it falls as soon as the requests get faster. Then the delta is lost, and the
requests since the last snapshot with it.
-/

namespace ModelConnector.Watcher

open Metrics

variable {before between : List RecordOptions} {pair : String} {m m' : ConnectorMetrics}

/-! ### The fields of the counters -/

/-- The fields that count requests. -/
def countFields : List (ConnectorMetrics → ℕ) :=
  [ConnectorMetrics.totalRequests, ConnectorMetrics.successCount, ConnectorMetrics.errorCount,
    ConnectorMetrics.timeoutCount, ConnectorMetrics.rateLimitedCount,
    ConnectorMetrics.circuitOpenCount, ConnectorMetrics.queueTimeoutCount,
    ConnectorMetrics.retryCount, ConnectorMetrics.outputGuardFinalValid,
    ConnectorMetrics.outputGuardFinalGuarded, ConnectorMetrics.outputGuardFinalFailed]

/-- The fields that sum up an amount of each request, and the amounts. -/
def sumFields : List ((ConnectorMetrics → ℚ) × (RecordOptions → ℚ)) :=
  [(ConnectorMetrics.totalInputTokens, RecordOptions.inputTokens),
    (ConnectorMetrics.totalOutputTokens, RecordOptions.outputTokens),
    (ConnectorMetrics.totalCostUsd, RecordOptions.costUsd),
    (ConnectorMetrics.totalLatencyMs, RecordOptions.latencyMs),
    (ConnectorMetrics.totalQueueWaitMs, fun opts ↦ opts.queueWaitMs.getD 0),
    (ConnectorMetrics.outputGuardRetries,
      fun opts ↦ opts.outputGuard.elim 0 OutputGuardMetrics.retries)]

/-- **The exported members that are compared**: the counts, the sums and the mean latency. The
counts of the strategies are an object, and no object is less than another. -/
theorem isSome_computeMetricDelta :
    (computeMetricDelta m.exported m'.exported).isSome ↔
      (∀ field ∈ countFields, field m ≤ field m') ∧
        (∀ sum ∈ sumFields, sum.1 m ≤ sum.1 m') ∧ m.avgLatencyMs ≤ m'.avgLatencyMs := by
  unfold computeMetricDelta ConnectorMetrics.exported Counters.get countFields sumFields
  simp only [List.any_cons, List.any_nil, List.lookup_cons, List.forall_mem_cons]
  simp [MetricValue.lt]
  tauto

/-- What the delta holds of the two counters that are read. -/
theorem get_of_computeMetricDelta {gained : Counters}
    (h : computeMetricDelta m.exported m'.exported = some gained) :
    gained.get "totalRequests" = .num (m'.totalRequests - m.totalRequests) ∧
      gained.get "errorCount" = .num (m'.errorCount - m.errorCount) := by
  unfold computeMetricDelta at h
  split_ifs at h
  rw [← Option.some.inj h]
  exact ⟨rfl, rfl⟩

/-- A count never falls. -/
theorem countFields_le_foldl {field : ConnectorMetrics → ℕ} (hfield : field ∈ countFields)
    (m : ConnectorMetrics) (requests : List RecordOptions) :
    field m ≤ field (requests.foldl ConnectorMetrics.record m) := by
  have hstep : ∀ m opts, field m ≤ field (m.record opts) := by
    intro m opts
    simp only [countFields, List.mem_cons, List.not_mem_nil, or_false] at hfield
    rcases hfield with rfl | rfl | rfl | rfl | rfl | rfl | rfl | rfl | rfl | rfl | rfl <;>
      exact Nat.le_add_right _ _
  induction requests generalizing m with
  | nil => exact le_rfl
  | cons opts requests ih => exact (hstep m opts).trans (ih _)

/-- A sum is what its amounts add up to. -/
theorem sumFields_total {sum : (ConnectorMetrics → ℚ) × (RecordOptions → ℚ)}
    (hsum : sum ∈ sumFields) (requests : List RecordOptions) :
    sum.1 (total requests) = (requests.map sum.2).sum := by
  simp only [sumFields, List.mem_cons, List.not_mem_nil, or_false] at hsum
  rcases hsum with rfl | rfl | rfl | rfl | rfl | rfl <;>
    exact field_total _ _ rfl (fun _ _ ↦ rfl) requests

theorem totalRequests_total (requests : List RecordOptions) :
    (total requests).totalRequests = requests.length := by
  rw [count_total ConnectorMetrics.totalRequests (fun _ ↦ true) rfl fun _ _ ↦ rfl, List.countP_true]

theorem errorCount_total (requests : List RecordOptions) :
    (total requests).errorCount = requests.countP RecordOptions.isError :=
  count_total ConnectorMetrics.errorCount RecordOptions.isError rfl (fun _ _ ↦ rfl) requests

/-! ### Two snapshots -/

/-- The mean latency of some requests, rounded. -/
def meanLatencyMs (requests : List RecordOptions) : ℤ :=
  mathRound ((requests.map RecordOptions.latencyMs).sum / requests.length)

/-- Since the first snapshot no sum has fallen, and neither has the rounded mean latency. -/
def Steady (before between : List RecordOptions) : Prop :=
  (∀ sum ∈ sumFields, 0 ≤ (between.map sum.2).sum) ∧
    meanLatencyMs before ≤ meanLatencyMs (before ++ between)

/-- The delta is there, and it counts the requests and the errors of a list. -/
def Sees (delta : Option Counters) (requests : List RecordOptions) : Prop :=
  ∃ gained, delta = some gained ∧ gained.get "totalRequests" = .num requests.length ∧
    gained.get "errorCount" = .num (requests.countP RecordOptions.isError)

theorem avgLatencyMs_total (requests : List RecordOptions) :
    (total requests).avgLatencyMs = meanLatencyMs requests := by
  have hsum : (total requests).totalLatencyMs = (requests.map RecordOptions.latencyMs).sum :=
    @sumFields_total (ConnectorMetrics.totalLatencyMs, RecordOptions.latencyMs)
      (by simp [sumFields]) requests
  unfold ConnectorMetrics.avgLatencyMs meanLatencyMs
  rw [totalRequests_total, hsum]
  split_ifs with hpos
  · rfl
  · rw [List.eq_nil_of_length_eq_zero (Nat.eq_zero_of_not_pos hpos)]
    decide +kernel

/-- The snapshots of a pair differ by no restart exactly when what was recorded is steady. -/
theorem isSome_iff_steady (before between : List RecordOptions) :
    (computeMetricDelta (total before).exported (total (before ++ between)).exported).isSome ↔
      Steady before between := by
  rw [isSome_computeMetricDelta, avgLatencyMs_total, avgLatencyMs_total]
  have hcounts : ∀ field ∈ countFields, field (total before) ≤ field (total (before ++ between)) := by
    intro field hfield
    rw [total, total, List.foldl_append]
    exact countFields_le_foldl hfield _ _
  have hsums : ∀ sum ∈ sumFields, sum.1 (total before) ≤ sum.1 (total (before ++ between)) ↔
      0 ≤ (between.map sum.2).sum := by
    intro sum hsum
    rw [sumFields_total hsum, sumFields_total hsum, List.map_append, List.sum_append,
      le_add_iff_nonneg_right]
  constructor
  · rintro ⟨-, hall, hmean⟩
    exact ⟨fun sum hsum ↦ (hsums sum hsum).1 (hall sum hsum), hmean⟩
  · rintro ⟨hall, hmean⟩
    exact ⟨hcounts, fun sum hsum ↦ (hsums sum hsum).2 (hall sum hsum), hmean⟩

/-- A delta that is there counts what was recorded in between. -/
theorem sees_iff_isSome (before between : List RecordOptions) :
    Sees (computeMetricDelta (total before).exported (total (before ++ between)).exported) between ↔
      (computeMetricDelta (total before).exported (total (before ++ between)).exported).isSome := by
  refine ⟨fun ⟨gained, hgained, _⟩ ↦ by rw [hgained]; rfl, fun hsome ↦ ?_⟩
  obtain ⟨gained, hgained⟩ := Option.isSome_iff_exists.1 hsome
  obtain ⟨hrequests, herrors⟩ := get_of_computeMetricDelta hgained
  refine ⟨gained, hgained, ?_, ?_⟩
  · rw [hrequests, totalRequests_total, totalRequests_total, List.length_append, Nat.cast_add,
      add_sub_cancel_left]
  · rw [herrors, errorCount_total, errorCount_total, List.countP_append, Nat.cast_add,
      add_sub_cancel_left]

/-- For any requests recorded in one running service before a snapshot, and between it and the next:
the delta of a pair is there, with exactly the requests and the errors recorded for it in between,
if and only if no sum of the pair and not its rounded mean latency has fallen. -/
theorem sees_iff_steady {c c' : Counters}
    (h : (getAll (recorded before)).lookup pair = some c)
    (h' : (getAll (recorded (before ++ between))).lookup pair = some c') :
    Sees (computeMetricDelta c c') (ofPair pair between) ↔
      Steady (ofPair pair before) (ofPair pair between) := by
  have happend : ofPair pair (before ++ between) = ofPair pair before ++ ofPair pair between :=
    List.filter_append ..
  rw [(getAll_recorded h).2, (getAll_recorded h').2, happend, sees_iff_isSome, isSome_iff_steady]

/-- A request that succeeds after a while. -/
def sampleRequest (latencyMs : ℚ) : RecordOptions where
  connector := "openrouter"
  model := some "sonar"
  status := "success"
  errorType := none
  inputTokens := 10
  outputTokens := 20
  costUsd := 1 / 1000
  latencyMs := latencyMs
  queueWaitMs := none
  attempt := some 1
  outputGuard := none

/-- A slower request is seen. -/
theorem sees_iff_steady_slower : ∃ c c',
    (getAll (recorded [sampleRequest 50])).lookup "openrouter:sonar" = some c ∧
    (getAll (recorded [sampleRequest 50, sampleRequest 100])).lookup "openrouter:sonar" =
      some c' ∧
    Sees (computeMetricDelta c c') [sampleRequest 100] := by
  have hfirst : (getAll (recorded [sampleRequest 50])).lookup "openrouter:sonar" =
      some (total [sampleRequest 50]).exported := by decide +kernel
  have hsecond : (getAll (recorded ([sampleRequest 50] ++ [sampleRequest 100]))).lookup
      "openrouter:sonar" = some (total [sampleRequest 50, sampleRequest 100]).exported := by
    decide +kernel
  refine ⟨_, _, hfirst, hsecond, (sees_iff_steady hfirst hsecond).2 ⟨?_, ?_⟩⟩
  · unfold sumFields
    decide +kernel
  · decide +kernel

/-- A faster request is lost: the second snapshot is taken for a restart. -/
theorem faster_request_lost : ∃ c c',
    (getAll (recorded [sampleRequest 100])).lookup "openrouter:sonar" = some c ∧
    (getAll (recorded [sampleRequest 100, sampleRequest 50])).lookup "openrouter:sonar" =
      some c' ∧
    computeMetricDelta c c' = none ∧ ¬ Sees (computeMetricDelta c c') [sampleRequest 50] := by
  refine ⟨(total [sampleRequest 100]).exported,
    (total [sampleRequest 100, sampleRequest 50]).exported, by decide +kernel, by decide +kernel,
    by decide +kernel, fun ⟨gained, hgained, _⟩ ↦ ?_⟩
  have hnone : computeMetricDelta (total [sampleRequest 100]).exported
      (total [sampleRequest 100, sampleRequest 50]).exported = none := by decide +kernel
  rw [hnone] at hgained
  cases hgained

end ModelConnector.Watcher
