import ModelConnector.Connectors.Response
import ModelConnector.Foundations.Number
import ModelConnector.Foundations.Run
import ModelConnector.Resilience.CircuitBreaker

/-!
# Attempts of an API connector

`BaseApiConnector.execute`, as far as the breakers of the connector are concerned: an attempt checks
the breaker of its model when it arrives, is away while it queues and waits for the provider, and
records how it ended. Attempts overlap freely; each is known by a number, and `attempts` says what
every one of them asks for and how it ends if it is let through.
-/

namespace ModelConnector.Connectors

open Resilience

/-- How long an attempt may take, and whether its caller asked for less. -/
structure AttemptBudget where
  timeoutMs : ℚ
  callerBudgetIsShorter : Bool
  deriving DecidableEq

/-- The ceiling a connector advertises; what is not a positive number is none. -/
def advertisedCeiling (advertisedMaxTimeoutMs : Option Number) : Option ℚ :=
  (advertisedMaxTimeoutMs.bind Number.finite?).filter fun ms ↦ decide (0 < ms)

/-- `clamp`. -/
def clampToCeiling (ceiling : Option ℚ) (ms : ℚ) : ℚ :=
  match ceiling with
  | some limit => min ms limit
  | none => ms

/-- `resolveAttemptBudget`. -/
def resolveAttemptBudget (requestTimeoutMs : Option ℚ) (connectorBudgetMs : ℚ)
    (advertisedMaxTimeoutMs : Option Number) : AttemptBudget :=
  let clamp := clampToCeiling (advertisedCeiling advertisedMaxTimeoutMs)
  let connectorBudget := clamp connectorBudgetMs
  let callerBudget := requestTimeoutMs.map clamp
  { timeoutMs := callerBudget.getD connectorBudget
    callerBudgetIsShorter := callerBudget.any fun caller ↦ decide (caller < connectorBudget) }

/-- What is thrown while an attempt is under way. -/
inductive AttemptFault
  | timeoutAbort
  | syntaxError
  | other
  deriving DecidableEq

/-- The error type of what is thrown. -/
def AttemptFault.errorType : AttemptFault → String
  | timeoutAbort => "timeout"
  | syntaxError => "parse_error"
  | other => "network_error"

/-- How an attempt ends that its breaker has let through. -/
inductive AttemptEnd
  | queueTimeout
  | httpError (errorType : String)
  | answered (isError : Bool)
  | thrown (fault : AttemptFault)
  deriving DecidableEq

/-- The status of the response. -/
def AttemptEnd.status : AttemptEnd → ResponseStatus
  | queueTimeout => .error
  | httpError errorType => if errorType = "rate_limited" then .rateLimited else .error
  | answered isError => if isError then .error else .success
  | thrown fault => if fault = .timeoutAbort then .timeout else .error

/-- An attempt. -/
structure Attempt where
  model : Option String
  /-- The prompt is a list of content blocks and the connector takes none. -/
  unsupportedModality : Bool := false
  requestTimeoutMs : Option ℚ
  connectorBudgetMs : ℚ
  advertisedMaxTimeoutMs : Option Number
  ending : AttemptEnd

namespace Attempt

variable (attempt : Attempt)

/-- The key `getCircuitBreaker` is called with. -/
def breakerKey : String :=
  if attempt.model.getD "" = "" then "default" else attempt.model.getD ""

/-- The budget of the attempt. -/
def budget : AttemptBudget :=
  resolveAttemptBudget attempt.requestTimeoutMs attempt.connectorBudgetMs
    attempt.advertisedMaxTimeoutMs

/-- What the connector allows on its own. -/
def connectorTimeoutMs : ℚ :=
  (resolveAttemptBudget none attempt.connectorBudgetMs attempt.advertisedMaxTimeoutMs).timeoutMs

/-- What the attempt records at its end. -/
def record (now : ℤ) (b : CircuitBreaker) : CircuitBreaker :=
  match attempt.ending with
  | .queueTimeout => b
  | .httpError errorType => b.recordFailure now errorType
  | .answered true => b.recordFailure now "api_error"
  | .answered false => b.recordSuccess
  | .thrown fault =>
    if fault.errorType = "timeout" ∧ attempt.budget.callerBudgetIsShorter = true then b
    else b.recordFailure now fault.errorType

/-- The attempt ends in a timeout, and its caller gave it less time than the connector allows. -/
def impatient : Bool :=
  decide (attempt.ending.status = .timeout) &&
    attempt.requestTimeoutMs.any fun ms ↦ decide (ms < attempt.connectorTimeoutMs)

end Attempt

/-- The clock, the breakers of a connector by their key, and its attempts. -/
structure ApiConnector where
  now : ℤ
  breakers : String → CircuitBreaker
  arrived : List ℕ
  inFlight : List ℕ

/-- What happens at a connector. -/
inductive AttemptEvent
  | tick (ms : ℕ)
  | arrive (id : ℕ)
  | finish (id : ℕ)
  | resetModel (key : String)
  | resetAll
  deriving DecidableEq

/-- The attempt an event is about. -/
def AttemptEvent.id? : AttemptEvent → Option ℕ
  | arrive id => some id
  | finish id => some id
  | tick _ => none
  | resetModel _ => none
  | resetAll => none

/-- What an attempt is told when it arrives. -/
inductive Admission
  | unsupportedModality
  | circuitOpen (refusal : CircuitOpenError)
  | admitted
  deriving DecidableEq

namespace ApiConnector

variable (attempts : ℕ → Attempt)

/-- The answer to an attempt that arrives. -/
def admission (s : ApiConnector) (id : ℕ) : Admission :=
  if (attempts id).unsupportedModality then .unsupportedModality
  else
    match (s.breakers (attempts id).breakerKey).check s.now with
    | .ok _ => .admitted
    | .error refusal => .circuitOpen refusal

/-- The breaker of an attempt that has arrived. -/
def breakerAfterCheck (s : ApiConnector) (id : ℕ) : CircuitBreaker :=
  if (attempts id).unsupportedModality then s.breakers (attempts id).breakerKey
  else
    match (s.breakers (attempts id).breakerKey).check s.now with
    | .ok breaker => breaker
    | .error _ => s.breakers (attempts id).breakerKey

/-- One event. Only an attempt that was let through is in flight, and ends once. -/
def step (s : ApiConnector) : AttemptEvent → Option ApiConnector
  | .tick ms => some { s with now := s.now + ms }
  | .arrive id =>
    if id ∈ s.arrived then none
    else
      some
        { s with
          breakers := Function.update s.breakers (attempts id).breakerKey
            (s.breakerAfterCheck attempts id)
          arrived := id :: s.arrived
          inFlight :=
            if s.admission attempts id = .admitted then id :: s.inFlight else s.inFlight }
  | .finish id =>
    if id ∈ s.inFlight then
      some
        { s with
          breakers := Function.update s.breakers (attempts id).breakerKey
            ((attempts id).record s.now (s.breakers (attempts id).breakerKey))
          inFlight := s.inFlight.filter fun other ↦ other ≠ id }
    else none
  | .resetModel key =>
    some { s with breakers := Function.update s.breakers key (s.breakers key).reset }
  | .resetAll => some { s with breakers := fun key ↦ (s.breakers key).reset }

/-- The answers of a history, each with its attempt. -/
def answers (h : List (ApiConnector × AttemptEvent)) : List (ℕ × Admission) :=
  h.filterMap fun p ↦
    match p.2 with
    | .arrive id => some (id, p.1.admission attempts id)
    | _ => none

end ApiConnector

/-! ### Properties -/

theorem clampToCeiling_lt_iff (ceiling : Option ℚ) (a b : ℚ) :
    clampToCeiling ceiling a < clampToCeiling ceiling b ↔
      a < clampToCeiling ceiling b := by
  cases ceiling with
  | none => exact Iff.rfl
  | some limit =>
    show min a limit < min b limit ↔ a < min b limit
    rw [lt_min_iff, lt_min_iff, min_lt_iff, min_lt_iff]
    constructor
    · rintro ⟨hb, hl⟩
      have ha : a < limit := hl.resolve_right (lt_irrefl limit)
      exact ⟨hb.elim id fun h ↦ ha.trans h, ha⟩
    · rintro ⟨hb, hl⟩
      exact ⟨.inl hb, .inl hl⟩

/-- The caller's budget is the shorter one exactly when the caller asks for less than the connector
allows on its own. -/
theorem callerBudgetIsShorter_eq (attempt : Attempt) : attempt.budget.callerBudgetIsShorter =
    attempt.requestTimeoutMs.any fun ms ↦ decide (ms < attempt.connectorTimeoutMs) := by
  show (attempt.requestTimeoutMs.map _).any _ = _
  cases attempt.requestTimeoutMs with
  | none => rfl
  | some ms => exact decide_eq_decide.2 (clampToCeiling_lt_iff _ _ _)

/-- What an impatient attempt records: nothing. -/
theorem Attempt.record_of_impatient {attempt : Attempt} (h : attempt.impatient = true) (now : ℤ)
    (b : CircuitBreaker) : attempt.record now b = b := by
  obtain ⟨hstatus, hshorter⟩ := Bool.and_eq_true_iff.1 h
  rw [← callerBudgetIsShorter_eq] at hshorter
  have hending : attempt.ending = .thrown .timeoutAbort := by
    have hstatus := of_decide_eq_true hstatus
    cases hend : attempt.ending with
    | queueTimeout =>
      rw [hend] at hstatus
      cases hstatus
    | httpError errorType =>
      rw [hend] at hstatus
      simp only [AttemptEnd.status] at hstatus
      split at hstatus <;> cases hstatus
    | answered isError =>
      rw [hend] at hstatus
      cases isError <;> cases hstatus
    | thrown fault =>
      rw [hend] at hstatus
      cases fault with
      | timeoutAbort => rfl
      | syntaxError => cases hstatus
      | other => cases hstatus
  unfold record
  rw [hending]
  exact if_pos ⟨rfl, hshorter⟩

end ModelConnector.Connectors
