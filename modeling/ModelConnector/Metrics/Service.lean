import Mathlib.Algebra.Order.Floor.Ring
import Mathlib.Data.Rat.Floor
import ModelConnector.Foundations.Keyed

/-!
# The metrics of the connectors

`MetricsService` keeps counters and sums for each pair of a connector and a model, under the key
`connector:model`, or `connector` for a request without a model. `getAll` is what `/health/metrics`
answers: for each pair the counters as members of an object, and the mean latency derived from them.

The counters of speech, cascades and failovers are kept in maps of their own and are not part of
the answer.
-/

namespace ModelConnector.Metrics

/-- The value of a member of an exported object: a number, not a number (which an absent member is
in arithmetic), or an object of counts. -/
inductive MetricValue
  | num (value : ℚ)
  | nan
  | counts (members : List (String × ℕ))
  deriving DecidableEq

namespace MetricValue

/-- `a < b`. Two objects are compared as the same text. -/
def lt : MetricValue → MetricValue → Bool
  | num a, num b => decide (a < b)
  | _, _ => false

/-- `a - b`. -/
def sub : MetricValue → MetricValue → MetricValue
  | num a, num b => num (a - b)
  | _, _ => nan

/-- `a / b`, for a number `b` other than zero. -/
def div : MetricValue → MetricValue → MetricValue
  | num a, num b => num (a / b)
  | _, _ => nan

/-- `a >= b`. -/
def ge : MetricValue → ℚ → Bool
  | num a, b => decide (b ≤ a)
  | _, _ => false

/-- `a <= b`. -/
def le : MetricValue → ℚ → Bool
  | num a, b => decide (a ≤ b)
  | _, _ => false

/-- `a > 0`. -/
def positive : MetricValue → Bool
  | num a => decide (0 < a)
  | _ => false

end MetricValue

/-- An exported object of counters. -/
abbrev Counters := List (String × MetricValue)

/-- A member of the object. -/
def Counters.get (counters : Counters) (name : String) : MetricValue :=
  (counters.lookup name).getD .nan

/-! ### Recording -/

/-- How the output guard passed an answer. -/
inductive OutputGuardPass
  | native
  | guarded
  | failed
  deriving DecidableEq

/-- What the output guard reports of a request. -/
structure OutputGuardMetrics where
  retries : ℚ
  finalValid : Bool
  pass : OutputGuardPass
  strategiesApplied : List String

/-- The argument of `record`. -/
structure RecordOptions where
  connector : String
  model : Option String
  status : String
  errorType : Option String
  inputTokens : ℚ
  outputTokens : ℚ
  costUsd : ℚ
  latencyMs : ℚ
  queueWaitMs : Option ℚ
  attempt : Option ℚ
  outputGuard : Option OutputGuardMetrics

/-- The counters of a pair. -/
structure ConnectorMetrics where
  totalRequests : ℕ
  successCount : ℕ
  errorCount : ℕ
  timeoutCount : ℕ
  rateLimitedCount : ℕ
  circuitOpenCount : ℕ
  queueTimeoutCount : ℕ
  retryCount : ℕ
  totalInputTokens : ℚ
  totalOutputTokens : ℚ
  totalCostUsd : ℚ
  totalLatencyMs : ℚ
  totalQueueWaitMs : ℚ
  outputGuardRetries : ℚ
  outputGuardFinalValid : ℕ
  outputGuardFinalGuarded : ℕ
  outputGuardFinalFailed : ℕ
  outputGuardStrategyCounts : List (String × ℕ)

def emptyMetrics : ConnectorMetrics where
  totalRequests := 0
  successCount := 0
  errorCount := 0
  timeoutCount := 0
  rateLimitedCount := 0
  circuitOpenCount := 0
  queueTimeoutCount := 0
  retryCount := 0
  totalInputTokens := 0
  totalOutputTokens := 0
  totalCostUsd := 0
  totalLatencyMs := 0
  totalQueueWaitMs := 0
  outputGuardRetries := 0
  outputGuardFinalValid := 0
  outputGuardFinalGuarded := 0
  outputGuardFinalFailed := 0
  outputGuardStrategyCounts := []

/-- The key of the pair a request belongs to: an empty model is no model. -/
def RecordOptions.key (opts : RecordOptions) : String :=
  match opts.model with
  | none => opts.connector
  | some model => if model = "" then opts.connector else opts.connector ++ ":" ++ model

/-- A request that is neither a success nor timed out nor limited is an error. -/
def RecordOptions.isError (opts : RecordOptions) : Bool :=
  decide (opts.status ≠ "success" ∧ opts.status ≠ "timeout" ∧ opts.status ≠ "rate_limited")

/-- `counts[strategy] = (counts[strategy] ?? 0) + 1`. -/
def countStrategy (counts : List (String × ℕ)) (strategy : String) : List (String × ℕ) :=
  match counts with
  | [] => [(strategy, 1)]
  | (name, count) :: rest =>
    if name = strategy then (name, count + 1) :: rest
    else (name, count) :: countStrategy rest strategy

/-- What `record` does to the counters of the pair. -/
def ConnectorMetrics.record (m : ConnectorMetrics) (opts : RecordOptions) : ConnectorMetrics where
  totalRequests := m.totalRequests + 1
  successCount := m.successCount + (decide (opts.status = "success")).toNat
  errorCount := m.errorCount + opts.isError.toNat
  timeoutCount := m.timeoutCount + (decide (opts.status = "timeout")).toNat
  rateLimitedCount := m.rateLimitedCount + (decide (opts.status = "rate_limited")).toNat
  circuitOpenCount := m.circuitOpenCount + (decide (opts.errorType = some "circuit_open")).toNat
  queueTimeoutCount := m.queueTimeoutCount + (decide (opts.errorType = some "queue_timeout")).toNat
  retryCount := m.retryCount + (decide (1 < opts.attempt.getD 1)).toNat
  totalInputTokens := m.totalInputTokens + opts.inputTokens
  totalOutputTokens := m.totalOutputTokens + opts.outputTokens
  totalCostUsd := m.totalCostUsd + opts.costUsd
  totalLatencyMs := m.totalLatencyMs + opts.latencyMs
  totalQueueWaitMs := m.totalQueueWaitMs + opts.queueWaitMs.getD 0
  outputGuardRetries := m.outputGuardRetries + opts.outputGuard.elim 0 OutputGuardMetrics.retries
  outputGuardFinalValid :=
    m.outputGuardFinalValid + (opts.outputGuard.any OutputGuardMetrics.finalValid).toNat
  outputGuardFinalGuarded :=
    m.outputGuardFinalGuarded + (opts.outputGuard.any fun og ↦ decide (og.pass = .guarded)).toNat
  outputGuardFinalFailed :=
    m.outputGuardFinalFailed + (opts.outputGuard.any fun og ↦ decide (og.pass = .failed)).toNat
  outputGuardStrategyCounts :=
    (opts.outputGuard.elim [] OutputGuardMetrics.strategiesApplied).foldl countStrategy
      m.outputGuardStrategyCounts

/-- The map of the service, from keys to counters. -/
abbrev MetricsTable := Table (String × ConnectorMetrics) (Table.sameKey Prod.fst)

/-- `record`. -/
def record (metrics : MetricsTable) (opts : RecordOptions) : MetricsTable :=
  metrics.upsert (opts.key, emptyMetrics.record opts) (fun row ↦ (row.1, row.2.record opts))
    fun _ h ↦ h

/-- The map of a service that has started and recorded the requests of a list. -/
def recorded (requests : List RecordOptions) : MetricsTable :=
  requests.foldl record Table.empty

/-! ### The export -/

/-- `Math.round`. -/
def mathRound (q : ℚ) : ℤ :=
  ⌊q + 1 / 2⌋

/-- The mean latency, rounded. -/
def ConnectorMetrics.avgLatencyMs (m : ConnectorMetrics) : ℤ :=
  if 0 < m.totalRequests then mathRound (m.totalLatencyMs / m.totalRequests) else 0

/-- The object that is exported for a pair. -/
def ConnectorMetrics.exported (m : ConnectorMetrics) : Counters :=
  [("totalRequests", .num m.totalRequests), ("successCount", .num m.successCount),
    ("errorCount", .num m.errorCount), ("timeoutCount", .num m.timeoutCount),
    ("rateLimitedCount", .num m.rateLimitedCount), ("circuitOpenCount", .num m.circuitOpenCount),
    ("queueTimeoutCount", .num m.queueTimeoutCount), ("retryCount", .num m.retryCount),
    ("totalInputTokens", .num m.totalInputTokens),
    ("totalOutputTokens", .num m.totalOutputTokens), ("totalCostUsd", .num m.totalCostUsd),
    ("totalLatencyMs", .num m.totalLatencyMs), ("totalQueueWaitMs", .num m.totalQueueWaitMs),
    ("outputGuardRetries", .num m.outputGuardRetries),
    ("outputGuardFinalValid", .num m.outputGuardFinalValid),
    ("outputGuardFinalGuarded", .num m.outputGuardFinalGuarded),
    ("outputGuardFinalFailed", .num m.outputGuardFinalFailed),
    ("outputGuardStrategyCounts", .counts m.outputGuardStrategyCounts),
    ("avgLatencyMs", .num m.avgLatencyMs)]

/-- `getAll`: the pairs in the order in which they were first recorded. -/
def getAll (metrics : MetricsTable) : List (String × Counters) :=
  metrics.rows.map fun row ↦ (row.1, row.2.exported)

/-! ### What is recorded for a pair -/

/-- The requests that belong to a pair. -/
def ofPair (pair : String) (requests : List RecordOptions) : List RecordOptions :=
  requests.filter fun opts ↦ decide (opts.key = pair)

/-- The counters that a list of requests of one pair leads to. -/
def total (requests : List RecordOptions) : ConnectorMetrics :=
  requests.foldl ConnectorMetrics.record emptyMetrics

variable {requests : List RecordOptions} {pair : String}

/-- One request, key by key. -/
theorem lookup_record (metrics : MetricsTable) (opts : RecordOptions) (pair : String) :
    (record metrics opts).lookup pair =
      if pair = opts.key then
        some ((metrics.lookup pair).elim (opts.key, emptyMetrics.record opts)
          fun row ↦ (row.1, row.2.record opts))
      else metrics.lookup pair := by
  unfold record
  exact Table.lookup_upsert _ metrics pair

/-- A pair that has counters counts on with its own requests only. -/
theorem lookup_foldl_record_of_some {metrics : MetricsTable} {m : ConnectorMetrics}
    (h : metrics.lookup pair = some (pair, m)) (requests : List RecordOptions) :
    (requests.foldl record metrics).lookup pair =
      some (pair, (ofPair pair requests).foldl ConnectorMetrics.record m) := by
  induction requests generalizing metrics m with
  | nil => exact h
  | cons opts requests ih =>
    have hstep := lookup_record metrics opts pair
    rw [h] at hstep
    rw [List.foldl_cons, ofPair, List.filter_cons]
    split_ifs with hkey
    · exact ih (hstep.trans (if_pos (of_decide_eq_true hkey).symm))
    · exact ih (hstep.trans (if_neg fun heq ↦ hkey (decide_eq_true heq.symm)))

/-- **The counters of a pair** are those of the requests that belong to it. -/
theorem lookup_foldl_record_of_none {metrics : MetricsTable} (h : metrics.lookup pair = none)
    (requests : List RecordOptions) :
    (requests.foldl record metrics).lookup pair =
      if ofPair pair requests = [] then none else some (pair, total (ofPair pair requests)) := by
  induction requests generalizing metrics with
  | nil => exact h
  | cons opts requests ih =>
    have hstep := lookup_record metrics opts pair
    rw [h] at hstep
    by_cases hkey : opts.key = pair
    · have hfirst : (record metrics opts).lookup pair = some (pair, emptyMetrics.record opts) := by
        rw [hstep, if_pos hkey.symm, Option.elim_none, hkey]
      have hmember : ofPair pair (opts :: requests) = opts :: ofPair pair requests :=
        List.filter_cons_of_pos (decide_eq_true hkey)
      rw [List.foldl_cons, lookup_foldl_record_of_some hfirst, hmember, if_neg (by simp), total,
        List.foldl_cons]
    · have hother : ofPair pair (opts :: requests) = ofPair pair requests :=
        List.filter_cons_of_neg (by simpa using hkey)
      rw [List.foldl_cons, ih (hstep.trans (if_neg fun heq ↦ hkey heq.symm)), hother]

theorem lookup_getAll (metrics : MetricsTable) (pair : String) :
    (getAll metrics).lookup pair = (metrics.lookup pair).map fun row ↦ row.2.exported := by
  unfold getAll Table.lookup Table.find?
  induction metrics.rows with
  | nil => rfl
  | cons row rows ih =>
    rw [List.map_cons, List.lookup_cons, List.find?_cons]
    by_cases hkey : row.1 = pair
    · rw [hkey, beq_self_eq_true, decide_eq_true rfl]
      rfl
    · rw [beq_false_of_ne (Ne.symm hkey), decide_eq_false hkey]
      exact ih

/-- What is exported for a pair. -/
theorem getAll_recorded {c : Counters} (h : (getAll (recorded requests)).lookup pair = some c) :
    ofPair pair requests ≠ [] ∧ c = (total (ofPair pair requests)).exported := by
  rw [lookup_getAll, recorded, lookup_foldl_record_of_none rfl] at h
  split_ifs at h with hnone
  · cases h
  · exact ⟨hnone, (Option.some.inj h).symm⟩

/-! ### Totals -/

/-- A field to which every request adds an amount is the sum of the amounts. -/
theorem field_total {α : Type*} [AddMonoid α] (field : ConnectorMetrics → α)
    (amount : RecordOptions → α) (hzero : field emptyMetrics = 0)
    (hstep : ∀ m opts, field (m.record opts) = field m + amount opts)
    (requests : List RecordOptions) :
    field (total requests) = (requests.map amount).sum := by
  have hfold : ∀ m, field (requests.foldl ConnectorMetrics.record m) =
      field m + (requests.map amount).sum := by
    induction requests with
    | nil => simp
    | cons opts requests ih =>
      intro m
      rw [List.foldl_cons, ih, hstep, List.map_cons, List.sum_cons, add_assoc]
  rw [total, hfold, hzero, zero_add]

/-- A field to which every request adds one if it passes a test counts the requests that do. -/
theorem count_total (field : ConnectorMetrics → ℕ) (test : RecordOptions → Bool)
    (hzero : field emptyMetrics = 0)
    (hstep : ∀ m opts, field (m.record opts) = field m + (test opts).toNat)
    (requests : List RecordOptions) : field (total requests) = requests.countP test := by
  rw [field_total field (fun opts ↦ (test opts).toNat) hzero hstep]
  induction requests with
  | nil => rfl
  | cons opts requests ih =>
    rw [List.map_cons, List.sum_cons, ih, List.countP_cons, add_comm]
    cases test opts <;> rfl

end ModelConnector.Metrics
