import ModelConnector.Connectors.ApiAttempt
import ModelConnector.Connectors.Failover
import ModelConnector.Foundations.Rounding

/-!
# The cascade router

`CascadeRouterService.execute` tries free candidates before paid ones and keeps, over all requests,
what paid candidates have cost on the current day. Requests overlap: each is started, routed, and
then goes hop by hop, and between any two of these the others go on. The budget is reset when a
request starts, checked when a paid hop is dispatched, and charged when its response arrives.

Costs and the limit are the decimals that are reported and configured; the router has them as
doubles, and so is its sum.
-/

namespace ModelConnector.Connectors

/-- What a hop returns. A reported cost is not negative. -/
structure BilledResponse extends HopResponse where
  cost_nonneg : 0 ≤ response.usage.costUsd

/-- How a hop ends. -/
inductive CascadeResult
  | returned (response : BilledResponse)
  | threw

/-- What is found out about the candidates before the first hop. -/
inductive CascadeRouting
  | invalidPolicy
  | noCredentials
  | notPermitted
  | routed (candidate : CascadeCandidate) (rest : List CascadeCandidate)

/-- How a request ends. -/
inductive CascadeOutcome
  | denied (type message : String)
  | deadline (tried : List FailoverAttempt) (lastHop : Option ChainHopFailure)
  | budgetExceeded (spentUsd limitUsd : ℚ)
  | success (response : BilledResponse)
  | exhausted (tried : List FailoverAttempt)

/-- Where a request stands. -/
inductive CascadePhase
  | routing
  | looping (rest : List CascadeCandidate)
  | waiting (candidate : CascadeCandidate) (timeoutMs : ℤ) (rest : List CascadeCandidate)
  | ended (outcome : CascadeOutcome)

/-- A request in the router. -/
structure CascadeRequest where
  requestTimeoutMs : Option ℚ
  startedAt : ℕ
  tried : List FailoverAttempt := []
  lastHop : Option ChainHopFailure := none
  phase : CascadePhase := .routing

/-- The configuration of the router. -/
structure CascadeConfig where
  /-- `CASCADE_PAID_DAILY_BUDGET_USD`. -/
  limitUsd : ℚ
  deadlineMs : ℚ
  connectorBudgetMs : String → ℚ
  maxTimeout : String → Option Number
  /-- The transport of a connector is one HTTP completion. -/
  isApi : String → Bool

/-- The router, the clock and its requests. -/
structure CascadeRouter where
  now : ℕ
  dailyPaidCostUsd : ℚ
  budgetResetDate : ℕ
  requests : ℕ → Option CascadeRequest

/-- What happens at the router. -/
inductive CascadeEvent
  | tick (ms : ℕ)
  | start (id : ℕ) (requestTimeoutMs : Option ℚ)
  | route (id : ℕ) (routing : CascadeRouting)
  | hop (id : ℕ)
  | receive (id : ℕ) (result : CascadeResult)

/-- The UTC day of a time in milliseconds. -/
def utcDay (now : ℕ) : ℕ :=
  now / 86400000

theorem utcDay_mono {a b : ℕ} (h : a ≤ b) : utcDay a ≤ utcDay b :=
  Nat.div_le_div_right h

namespace CascadeRouter

variable (config : CascadeConfig) (s : CascadeRouter)

/-- A router that has just been constructed. -/
def fresh (now : ℕ) : CascadeRouter where
  now
  dailyPaidCostUsd := 0
  budgetResetDate := utcDay now
  requests _ := none

/-- `resetDailyBudgetIfNeeded`. -/
def resetDailyBudgetIfNeeded : CascadeRouter :=
  if utcDay s.now = s.budgetResetDate then s
  else { s with dailyPaidCostUsd := 0, budgetResetDate := utcDay s.now }

/-- The router after a change of one request. -/
def set (id : ℕ) (request : CascadeRequest) : CascadeRouter :=
  { s with requests := Function.update s.requests id (some request) }

/-- The request after it was routed. -/
def route (request : CascadeRequest) : CascadeRouting → CascadeRequest
  | .invalidPolicy =>
    { request with phase := .ended (.denied "config_error"
        "The access policy stored for this API key is invalid; contact the administrator.") }
  | .noCredentials =>
    { request with phase := .ended (.denied "config_error"
        "No provider credentials are configured for this request.") }
  | .notPermitted =>
    { request with phase := .ended (.denied "policy_violation"
        "No cascade candidates are permitted by this API key's access policy.") }
  | .routed candidate rest =>
    { request with startedAt := s.now, phase := .looping (candidate :: rest) }

/-- The request after the next turn of its loop. -/
def hop (request : CascadeRequest) : List CascadeCandidate → CascadeRequest
  | [] => { request with phase := .ended (.exhausted request.tried) }
  | candidate :: rest =>
    let remaining := config.deadlineMs - (s.now - request.startedAt)
    if remaining < 1 then
      { request with phase := .ended (.deadline request.tried request.lastHop) }
    else if candidate.tier = .paid ∧ double config.limitUsd ≤ s.dailyPaidCostUsd then
      { request with phase := .ended (.budgetExceeded s.dailyPaidCostUsd (double config.limitUsd)) }
    else
      let ownTimeoutMs := (resolveAttemptBudget request.requestTimeoutMs
        (config.connectorBudgetMs candidate.connector)
        (config.maxTimeout candidate.connector)).timeoutMs
      { request with
        phase := .waiting candidate (capHopTimeout (some ownTimeoutMs) remaining) rest }

/-- The failure of a hop. -/
def failure (candidate : CascadeCandidate) : CascadeResult → ChainHopFailure
  | .threw =>
    { connector := candidate.connector
      model := candidate.model
      errorType := "connector_not_found"
      message := "Connector unavailable" }
  | .returned response => hopFailure candidate (.returned response.toHopResponse)

/-- The request after a failed hop. -/
def advance (request : CascadeRequest) (failed : ChainHopFailure) (phase : CascadePhase) :
    CascadeRequest :=
  { request with tried := request.tried ++ [failed.attempt], lastHop := some failed, phase }

/-- The request after the response of a hop. -/
def receive (request : CascadeRequest) (candidate : CascadeCandidate)
    (rest : List CascadeCandidate) (result : CascadeResult) : CascadeRequest :=
  let failed := failure candidate result
  match result with
  | .threw => advance request failed (.looping rest)
  | .returned response =>
    if response.response.status = .success then
      { request with phase := .ended (.success response) }
    else if chainShouldAdvance failed.errorType (responseDeliveredChunk response.toHopResponse)
        (config.isApi candidate.connector) then
      advance request failed (.looping rest)
    else
      advance request failed (.ended (.exhausted (request.tried ++ [failed.attempt])))

/-- The cost of the day after a response: a paid success is added, and nothing else. -/
def charged (candidate : CascadeCandidate) : CascadeResult → ℚ
  | .threw => s.dailyPaidCostUsd
  | .returned response =>
    if response.response.status = .success ∧ candidate.tier = .paid then
      double (s.dailyPaidCostUsd + double response.response.usage.costUsd)
    else s.dailyPaidCostUsd

/-- One event. -/
def step : CascadeEvent → Option CascadeRouter
  | .tick ms => some { s with now := s.now + ms }
  | .start id requestTimeoutMs =>
    match s.requests id with
    | some _ => none
    | none => some (s.resetDailyBudgetIfNeeded.set id { requestTimeoutMs, startedAt := s.now })
  | .route id routing =>
    (s.requests id).bind fun request ↦
      match request.phase with
      | .routing => some (s.set id (s.route request routing))
      | _ => none
  | .hop id =>
    (s.requests id).bind fun request ↦
      match request.phase with
      | .looping rest => some (s.set id (s.hop config request rest))
      | _ => none
  | .receive id result =>
    (s.requests id).bind fun request ↦
      match request.phase with
      | .waiting candidate _ rest =>
        some
          { s.set id (receive config request candidate rest result) with
            dailyPaidCostUsd := s.charged candidate result }
      | _ => none

/-- The candidate a request waits for. -/
def waitingFor (id : ℕ) : Option CascadeCandidate :=
  (s.requests id).bind fun request ↦
    match request.phase with
    | .waiting candidate _ _ => some candidate
    | _ => none

/-! ### Properties -/

variable {config s} {s' : CascadeRouter} {e : CascadeEvent}

@[simp]
theorem set_now (id : ℕ) (request : CascadeRequest) : (s.set id request).now = s.now :=
  rfl

@[simp]
theorem set_dailyPaidCostUsd (id : ℕ) (request : CascadeRequest) :
    (s.set id request).dailyPaidCostUsd = s.dailyPaidCostUsd :=
  rfl

@[simp]
theorem set_budgetResetDate (id : ℕ) (request : CascadeRequest) :
    (s.set id request).budgetResetDate = s.budgetResetDate :=
  rfl

/-- What a step does to the clock and to the budget. -/
theorem step_budget (hs : s.step config e = some s') :
    (∃ ms, e = .tick ms ∧ s'.now = s.now + ms ∧ s'.dailyPaidCostUsd = s.dailyPaidCostUsd ∧
      s'.budgetResetDate = s.budgetResetDate) ∨
    (∃ id requestTimeoutMs, e = .start id requestTimeoutMs ∧ s'.now = s.now ∧
      s'.dailyPaidCostUsd = s.resetDailyBudgetIfNeeded.dailyPaidCostUsd ∧
      s'.budgetResetDate = s.resetDailyBudgetIfNeeded.budgetResetDate) ∨
    (∃ id, (e = .hop id ∨ ∃ routing, e = .route id routing) ∧ s'.now = s.now ∧
      s'.dailyPaidCostUsd = s.dailyPaidCostUsd ∧ s'.budgetResetDate = s.budgetResetDate) ∨
    (∃ id result candidate, e = .receive id result ∧ s.waitingFor id = some candidate ∧
      s'.now = s.now ∧ s'.dailyPaidCostUsd = s.charged candidate result ∧
      s'.budgetResetDate = s.budgetResetDate) := by
  cases e with
  | tick ms =>
    cases hs
    exact .inl ⟨ms, rfl, rfl, rfl, rfl⟩
  | start id requestTimeoutMs =>
    simp only [step] at hs
    split at hs
    · cases hs
    · cases hs
      refine .inr (.inl ⟨id, requestTimeoutMs, rfl, ?_, rfl, rfl⟩)
      unfold resetDailyBudgetIfNeeded
      split <;> rfl
  | route id routing =>
    obtain ⟨request, -, hphase⟩ := Option.bind_eq_some_iff.1 hs
    split at hphase
    · cases hphase
      exact .inr (.inr (.inl ⟨id, .inr ⟨routing, rfl⟩, rfl, rfl, rfl⟩))
    · cases hphase
  | hop id =>
    obtain ⟨request, -, hphase⟩ := Option.bind_eq_some_iff.1 hs
    split at hphase
    · cases hphase
      exact .inr (.inr (.inl ⟨id, .inl rfl, rfl, rfl, rfl⟩))
    · cases hphase
  | receive id result =>
    obtain ⟨request, hrequest, hphase⟩ := Option.bind_eq_some_iff.1 hs
    split at hphase
    · rename_i candidate timeoutMs rest hwaiting
      cases hphase
      refine .inr (.inr (.inr ⟨id, result, candidate, rfl, ?_, rfl, rfl, rfl⟩))
      simp only [waitingFor, hrequest, Option.bind_some, hwaiting]
    · cases hphase

/-- A paid hop is dispatched only while the cost of the day is below the limit. -/
theorem hop_waiting {request : CascadeRequest} {candidates : List CascadeCandidate}
    {candidate : CascadeCandidate} {timeoutMs : ℤ} {rest : List CascadeCandidate}
    (h : (s.hop config request candidates).phase = .waiting candidate timeoutMs rest)
    (hpaid : candidate.tier = .paid) :
    s.dailyPaidCostUsd < double config.limitUsd := by
  cases candidates with
  | nil => cases h
  | cons first others =>
    simp only [hop] at h
    split at h
    · cases h
    · split at h
      · cases h
      · rename_i hbudget
        cases h
        exact not_le.1 fun hle ↦ hbudget ⟨hpaid, hle⟩

end CascadeRouter

end ModelConnector.Connectors
