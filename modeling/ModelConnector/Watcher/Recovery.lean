import ModelConnector.Watcher.Observation

/-!
# What the watcher does about it

`RecoveryPolicy.decide` permits the reset of a circuit breaker by the records of the resets before,
`executeRecovery` asks the service for it and then looks at the health of the connectors, and
`handleCircuitReset` makes the record, with a reading of the clock of its own. All of it belongs to
the one process the watcher is; `runCycle` is one of its cycles.

The clock, the replies and the failures are the environment's. A cycle reads the clock when it
begins, and `handleEvidence` twice before it decides. An alert is a line of the audit log and a
message, each of which can fail; a failure ends the cycle, and the next one goes on with what is in
memory. The reading of the catalogs and the heartbeat, which come after the metrics, touch nothing
of this.
-/

namespace ModelConnector.Watcher

open Metrics

/-! ### The policy -/

structure ResetRecord where
  provider : String
  model : String
  time : ℤ
  deriving DecidableEq

/-- The `recovery` section of the configuration. -/
structure RecoveryConfig where
  circuitResetEnabled : Bool
  resetBudgetPerHour : ℕ
  resetBudgetPerDay : ℕ
  cooldownMs : ℕ
  naturalRecoveryGraceMs : Option ℕ

inductive RecoveryAction
  | alert
  | reset_circuit
  deriving DecidableEq

structure RecoveryDecision where
  action : RecoveryAction
  reason : String
  deriving DecidableEq

/-- What is decided about. -/
structure RecoveryInput where
  provider : String
  model : String
  failureClass : FailureClass
  circuitOpenForMs : ℤ
  now : ℤ

/-- The records of a pair. -/
def matching (provider model : String) (resets : List ResetRecord) : List ResetRecord :=
  resets.filter fun record ↦ decide (record.provider = provider ∧ record.model = model)

/-- `decide`. -/
def RecoveryConfig.decideRecovery (config : RecoveryConfig) (resets : List ResetRecord)
    (input : RecoveryInput) : RecoveryDecision :=
  let graceMs : ℕ := config.naturalRecoveryGraceMs.getD 60000
  let own := matching input.provider input.model resets
  if input.failureClass ≠ .circuit_open ∨ input.model = "unknown" ∨
      input.circuitOpenForMs ≤ graceMs then ⟨.alert, "mutation_not_eligible"⟩
  else if own.getLast?.any fun last ↦ decide (input.now - last.time < config.cooldownMs) then
    ⟨.alert, "cooldown"⟩
  else if config.resetBudgetPerHour ≤
      own.countP fun record ↦ decide (input.now - record.time < 3600000) then
    ⟨.alert, "hourly_budget"⟩
  else if config.resetBudgetPerDay ≤
      own.countP fun record ↦ decide (input.now - record.time < 86400000) then
    ⟨.alert, "daily_budget"⟩
  else ⟨.reset_circuit, "eligible_circuit_open"⟩

/-! ### The environment -/

/-- The reply to the probe after a reset: none that can be read, or whether it is a success and the
status that its body names. -/
inductive ProbeReply
  | failed
  | answered (ok : Bool) (status : Option String)
  deriving DecidableEq

/-- The reply to the request for a reset: none, where the request may have left or not, a refusal,
or an acceptance, after which the probe is sent. -/
inductive ResetReply
  | failed (sent : Bool)
  | refused (status : ℕ)
  | accepted (probe : ProbeReply)
  deriving DecidableEq

/-- What happens while the evidence of one pair is handled. -/
structure Reading where
  /-- The clock when the age of the failure is computed. -/
  agedAt : ℤ
  /-- The clock that is decided by. -/
  decidedAt : ℤ
  /-- The clock when the request for a reset is sent. -/
  sentAt : ℤ
  reply : ResetReply
  /-- The clock when the reset is recorded. -/
  recordedAt : ℤ
  /-- Whether the alert can be written to the audit log. -/
  audited : Bool
  /-- Whether the alert can be delivered. -/
  delivered : Bool

/-! ### The watcher -/

/-- A line of the audit log. -/
structure AuditRecord where
  outcome : String
  provider : String
  model : String
  failureClass : FailureClass
  attemptedAction : String
  blockedAction : Option String
  fixApplied : Bool
  deriving DecidableEq

/-- A request for the reset of a circuit breaker, as the service receives it. -/
structure ResetRequest where
  provider : String
  model : String
  time : ℤ
  deriving DecidableEq

structure WatcherConfig where
  recovery : RecoveryConfig
  errorRate : RateWindowConfig

/-- The memory of the watcher, the audit log, and the requests it has sent so far. -/
structure WatcherState where
  tracker : FailureTracker
  resets : List ResetRecord
  metricBaselines : String → Option Counters
  rateWindows : String → Option RateWindow
  audit : List AuditRecord
  requests : List ResetRequest

/-- A watcher that has just started. -/
def WatcherState.init : WatcherState where
  tracker := fun _ ↦ none
  resets := []
  metricBaselines := fun _ ↦ none
  rateWindows := fun _ ↦ none
  audit := []
  requests := []

/-- What comes of a part of a cycle: the state, and whether the cycle goes on. -/
abbrev Outcome := WatcherState × Bool

/-- `emitAlert`. -/
def emitAlert (evidence : EvidenceSnapshot) (failureClass : FailureClass) (attemptedAction : String)
    (blockedAction : Option String) (outcome : String) (reading : Reading) (fixApplied : Bool)
    (s : WatcherState) : Outcome :=
  if !reading.audited then (s, false)
  else
    ({ s with
        audit := s.audit ++ [{ outcome, provider := evidence.provider, model := evidence.model,
                               failureClass, attemptedAction, blockedAction, fixApplied }] },
      reading.delivered)

/-- `executeRecovery`: nothing if it throws, else whether the circuit has recovered and the
outcome. -/
def executeRecovery : ResetReply → Option (Bool × String)
  | .failed _ => none
  | .refused status => some (false, "reset_http_" ++ toString status)
  | .accepted .failed => none
  | .accepted (.answered ok status) =>
    some (ok && decide (status = some "ok"), status.getD "unknown")

/-- The request for a reset leaves. -/
def WatcherState.send (s : WatcherState) (evidence : EvidenceSnapshot) (reading : Reading) :
    WatcherState :=
  if reading.reply = .failed false then s
  else { s with requests := s.requests ++ [⟨evidence.provider, evidence.model, reading.sentAt⟩] }

/-- `recordReset`. -/
def WatcherState.recordReset (s : WatcherState) (provider model : String) (time : ℤ) :
    WatcherState :=
  { s with resets := s.resets ++ [⟨provider, model, time⟩] }

def handleCircuitReset (config : WatcherConfig) (evidence : EvidenceSnapshot)
    (failureClass : FailureClass) (reading : Reading) (s : WatcherState) : Outcome :=
  if !config.recovery.circuitResetEnabled then
    emitAlert evidence failureClass "reset_circuit" (some "reset_circuit") "blocked_by_config"
      reading false s
  else
    let s := s.send evidence reading
    match executeRecovery reading.reply with
    | none => (s, false)
    | some (recovered, outcome) =>
      let s := if recovered then s.recordReset evidence.provider evidence.model reading.recordedAt
        else s
      emitAlert evidence failureClass "reset_circuit" none outcome reading recovered s

/-- What the policy is asked. -/
def recoveryInput (evidence : EvidenceSnapshot) (failureClass : FailureClass)
    (tracked : TrackedFailure) (reading : Reading) : RecoveryInput where
  provider := evidence.provider
  model := evidence.model
  failureClass := failureClass
  circuitOpenForMs := max 0 (reading.agedAt - tracked.firstSeenAt.getD reading.agedAt)
  now := reading.decidedAt

def handleEvidence (config : WatcherConfig) (evidence : EvidenceSnapshot) (reading : Reading)
    (s : WatcherState) : Outcome :=
  let (tracked, tracker) := s.tracker.update evidence
  let s := { s with tracker }
  match classifyFailure evidence with
  | none => (s, true)
  | some failureClass =>
    let decision := config.recovery.decideRecovery s.resets
      (recoveryInput evidence failureClass tracked reading)
    match decision.action with
    | .reset_circuit => handleCircuitReset config evidence failureClass reading s
    | .alert =>
      if failureClass = .circuit_open ∧ decision.reason ≠ "mutation_not_eligible" then
        emitAlert evidence failureClass "reset_circuit" (some "reset_circuit") decision.reason
          reading false s
      else emitAlert evidence failureClass "alert" none decision.reason reading false s

/-! ### Cycles -/

/-- An entry of the metrics, and what happens while it is handled. -/
structure Scraped where
  key : String
  counters : Counters
  reading : Reading

/-- A cycle: the clock at its beginning, and the metrics if the service answered. -/
structure Cycle where
  observedAt : ℤ
  metrics : Option (List Scraped)

/-- The body of the loop over the evidence. -/
def observePair (config : WatcherConfig) (evidence : EvidenceSnapshot) (reading : Reading)
    (s : WatcherState) : Outcome :=
  let pairKey := evidence.pairKey
  let primed := { s with
    metricBaselines := Function.update s.metricBaselines pairKey (some evidence.counters) }
  match s.metricBaselines pairKey with
  | none => handleEvidence config { evidence with windowedErrorState := none } reading primed
  | some previousBaseline =>
    match computeMetricDelta previousBaseline evidence.counters with
    | none => handleEvidence config { evidence with windowedErrorState := none } reading primed
    | some delta =>
      let window := (s.rateWindows pairKey).getD RateWindow.init
      let (result, window) :=
        window.observe config.errorRate (delta.get "errorCount") (delta.get "totalRequests")
      handleEvidence config
        { evidence with
          counters := delta
          windowedErrorState := if result.ratio.isNone then none else some result.state }
        reading { primed with rateWindows := Function.update s.rateWindows pairKey (some window) }

/-- The loop over the evidence, up to the first failure. -/
def observeAll (config : WatcherConfig) :
    List (EvidenceSnapshot × Reading) → WatcherState → WatcherState
  | [], s => s
  | (evidence, reading) :: rest, s =>
    match observePair config evidence reading s with
    | (s, true) => observeAll config rest s
    | (s, false) => s

/-- The evidence of a cycle, and what happens while each is handled. -/
def Cycle.evidence (cycle : Cycle) (metrics : List Scraped) : List (EvidenceSnapshot × Reading) :=
  (normalizeMetrics (metrics.map fun entry ↦ (entry.key, entry.counters)) cycle.observedAt).zip
    (metrics.map Scraped.reading)

/-- `runCycle`. -/
def runCycle (config : WatcherConfig) (cycle : Cycle) (s : WatcherState) : WatcherState :=
  match cycle.metrics with
  | none => s
  | some metrics => observeAll config (cycle.evidence metrics) s

/-- The watcher takes cycle after cycle. -/
def watcherStep (config : WatcherConfig) (s : WatcherState) (cycle : Cycle) : Option WatcherState :=
  some (runCycle config cycle s)

end ModelConnector.Watcher
