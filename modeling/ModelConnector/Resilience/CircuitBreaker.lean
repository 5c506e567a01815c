import Mathlib.Data.Int.Notation
import Mathlib.Tactic.Linarith
import ModelConnector.Foundations.Members

/-!
# The circuit breaker

A breaker counts failures in a row and opens at a threshold. What it stores is only part of what a
caller meets: an open breaker decays into a half-open one by the passage of time alone, and `check`
is the one operation that writes this down.
-/

namespace ModelConnector.Resilience

/-- What a breaker stores of its state. -/
inductive CircuitState
  | closed
  | opened
  | halfOpen
  deriving DecidableEq

/-- The refusal of a call. -/
structure CircuitOpenError where
  connectorName : String
  nextRetryAt : ℤ
  deriving DecidableEq

/-- `INSTANT_OPEN_ERRORS`. -/
def INSTANT_OPEN_ERRORS : List String :=
  ["auth_error", "binary_not_found"]

/-- A breaker. -/
structure CircuitBreaker where
  state : CircuitState := .closed
  consecutiveFailures : ℕ := 0
  lastFailureTime : ℤ := 0
  lastErrorType : Option String := none
  threshold : ℕ := 5
  cooldownMs : ℤ := 30000
  connectorName : String := "unknown"
  deriving DecidableEq

/-- What `getState` reports. -/
structure CircuitReport where
  state : CircuitState
  consecutiveFailures : ℕ
  nextRetryAt : Option ℤ
  lastErrorType : Option String
  deriving DecidableEq

namespace CircuitBreaker

variable (b : CircuitBreaker)

/-- `cooldownElapsed`. -/
def cooldownElapsed (now : ℤ) : Bool :=
  decide (b.lastFailureTime + b.cooldownMs < now)

/-- `effectiveState`: the state the next call would meet. -/
def effectiveState (now : ℤ) : CircuitState :=
  if b.state = .opened ∧ b.cooldownElapsed now = true then .halfOpen else b.state

/-- `check`. -/
def check (now : ℤ) : Except CircuitOpenError CircuitBreaker :=
  match b.state with
  | .closed => .ok b
  | .opened =>
    if b.cooldownElapsed now then .ok { b with state := .halfOpen }
    else .error ⟨b.connectorName, b.lastFailureTime + b.cooldownMs⟩
  -- the source's comment allows one probe here; nothing counts them
  | .halfOpen => .ok b

/-- `recordSuccess`. -/
def recordSuccess : CircuitBreaker :=
  { b with consecutiveFailures := 0, lastErrorType := none, state := .closed }

/-- `recordFailure`. -/
def recordFailure (now : ℤ) (errorType : String) : CircuitBreaker :=
  if errorType ∈ INSTANT_OPEN_ERRORS then
    { b with
      lastFailureTime := now
      lastErrorType := some errorType
      consecutiveFailures := b.threshold
      state := .opened }
  else
    { b with
      lastFailureTime := now
      lastErrorType := some errorType
      consecutiveFailures := b.consecutiveFailures + 1
      state :=
        if b.state = .halfOpen ∨ b.threshold ≤ b.consecutiveFailures + 1 then .opened
        else b.state }

/-- `getState`. -/
def getState (now : ℤ) : CircuitReport where
  state := b.effectiveState now
  consecutiveFailures := b.consecutiveFailures
  nextRetryAt :=
    if b.effectiveState now = .opened then some (b.lastFailureTime + b.cooldownMs) else none
  lastErrorType := b.lastErrorType

/-- `reset`. -/
def reset : CircuitBreaker :=
  { b with state := .closed, consecutiveFailures := 0, lastFailureTime := 0, lastErrorType := none }

/-- The breaker lets the next call pass. -/
def passes (now : ℤ) : Bool :=
  match b.check now with
  | .ok _ => true
  | .error _ => false

/-! ### Properties -/

variable {b}

/-- What `check` does: it refuses, or it passes and leaves the state the call met. -/
theorem check_eq (b : CircuitBreaker) (now : ℤ) : b.check now =
    if b.effectiveState now = .opened then
      .error ⟨b.connectorName, b.lastFailureTime + b.cooldownMs⟩
    else .ok { b with state := b.effectiveState now } := by
  unfold check effectiveState
  cases hstate : b.state with
  | closed =>
    obtain ⟨state, failures, time, type, threshold, cooldown, name⟩ := b
    subst hstate
    rfl
  | opened =>
    by_cases helapsed : b.cooldownElapsed now = true
    · simp [helapsed]
    · simp [helapsed]
  | halfOpen =>
    obtain ⟨state, failures, time, type, threshold, cooldown, name⟩ := b
    subst hstate
    rfl

/-- The report at an instant says what a call meets at it. -/
theorem passes_iff {now : ℤ} : b.passes now = true ↔ b.effectiveState now ≠ .opened := by
  unfold passes
  rw [check_eq]
  split_ifs with hopen
  · simp [hopen]
  · simp [hopen]

theorem cooldownElapsed_mono {now later : ℤ} (h : now ≤ later)
    (helapsed : b.cooldownElapsed now = true) : b.cooldownElapsed later = true := by
  have hlt : b.lastFailureTime + b.cooldownMs < now := of_decide_eq_true helapsed
  exact decide_eq_true (hlt.trans_le h)

end CircuitBreaker

/-! ### A breaker for each model -/

/-- `CircuitBreakerResetResult`. -/
structure CircuitBreakerResetResult where
  model : String
  previousState : CircuitState
  deriving DecidableEq

/-- What `getStates` reports of all breakers together. -/
structure CircuitAggregate where
  state : CircuitState := .closed
  consecutiveFailures : ℕ := 0
  lastErrorType : Option String := none
  deriving DecidableEq

/-- One turn of the loop of `getStates`. An error type that is the empty text is passed over. -/
def CircuitAggregate.add (a : CircuitAggregate) (s : CircuitReport) : CircuitAggregate where
  state :=
    if s.state = .opened then .opened
    else if s.state = .halfOpen ∧ a.state ≠ .opened then .halfOpen
    else a.state
  consecutiveFailures := a.consecutiveFailures + s.consecutiveFailures
  lastErrorType := (s.lastErrorType.filter (· ≠ "")).or a.lastErrorType

/-- `CircuitBreakerManager`; its map holds the breakers in the order they were made. -/
structure CircuitBreakerManager where
  circuitBreakers : List (String × CircuitBreaker) := []
  connectorName : String
  threshold : ℕ := 5
  cooldownMs : ℤ := 30000
  deriving DecidableEq

/-- `model || 'default'`. -/
def breakerKey (model : String) : String :=
  if model = "" then "default" else model

namespace CircuitBreakerManager

variable (m : CircuitBreakerManager)

/-- The breaker that is made for a key. -/
def fresh (key : String) : CircuitBreaker where
  threshold := m.threshold
  cooldownMs := m.cooldownMs
  connectorName := m.connectorName ++ ":" ++ key

/-- The map with a breaker of a key. -/
def put (key : String) (cb : CircuitBreaker) : CircuitBreakerManager :=
  { m with circuitBreakers := Members.set m.circuitBreakers key cb }

/-- `getCircuitBreaker`. -/
def getCircuitBreaker (model : String) : CircuitBreaker × CircuitBreakerManager :=
  let key := breakerKey model
  match m.circuitBreakers.lookup key with
  | some cb => (cb, m)
  | none => (m.fresh key, m.put key (m.fresh key))

/-- `resetAll`. -/
def resetAll (now : ℤ) : List CircuitBreakerResetResult × CircuitBreakerManager :=
  (m.circuitBreakers.map fun p ↦ ⟨p.1, (p.2.getState now).state⟩,
    { m with circuitBreakers := m.circuitBreakers.map fun p ↦ (p.1, p.2.reset) })

/-- `resetModel`. -/
def resetModel (now : ℤ) (model : String) :
    Option CircuitBreakerResetResult × CircuitBreakerManager :=
  let key := breakerKey model
  match m.circuitBreakers.lookup key with
  | none => (none, m)
  | some cb => (some ⟨key, (cb.getState now).state⟩, m.put key cb.reset)

/-- `getStates`: the aggregate, and the report of each key. -/
def getStates (now : ℤ) : CircuitAggregate × List (String × CircuitReport) :=
  let perModel := m.circuitBreakers.map fun p ↦ (p.1, p.2.getState now)
  ((perModel.map Prod.snd).foldl CircuitAggregate.add {}, perModel)

end CircuitBreakerManager

end ModelConnector.Resilience
