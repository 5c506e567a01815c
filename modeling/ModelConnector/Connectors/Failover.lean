import Mathlib.Data.Rat.Floor
import Mathlib.Data.NNRat.Defs
import ModelConnector.Connectors.Response

/-!
# The failover chain

`runFailoverChain` tries its candidates in order until one succeeds, an error says that trying
another one would not help, the deadline of the whole chain is spent, or none is left. What the
candidates do is a parameter: a hop returns a response or throws, may have told the chain before
that the client received a chunk, and ends at some time. The clock moves while hops run.
-/

namespace ModelConnector.Connectors

/-! ### Errors -/

/-- What a caller can do about an error. -/
inductive ErrorAction
  | retry
  | wait
  | abort
  | reauth
  deriving DecidableEq

/-- `ERROR_ACTION_MAP`: the error type, whether it is retryable, and the recommendation. -/
def ERROR_ACTION_MAP : List (String × Bool × ErrorAction) :=
  [("rate_limited", true, .wait), ("timeout", false, .abort), ("server_error", true, .retry),
    ("json_parse_error", true, .retry), ("execution_error", true, .retry),
    ("queue_timeout", true, .wait), ("network_error", true, .retry), ("spawn_error", true, .retry),
    ("circuit_open", false, .wait), ("auth_error", false, .reauth),
    ("binary_not_found", false, .abort), ("validation_error", false, .abort),
    ("billing_error", false, .abort), ("credit_depleted", false, .abort),
    ("budget_exceeded", false, .abort), ("max_turns_exceeded", false, .abort),
    ("max_output_tokens", false, .abort), ("structured_output_error", true, .retry),
    ("parse_error", true, .retry), ("http_error", true, .retry), ("model_not_found", false, .abort),
    ("api_error", true, .retry), ("unsupported_modality", false, .abort),
    ("idempotency_conflict", true, .wait), ("idempotency_key_reused", false, .abort),
    ("idempotency_replay_unavailable", false, .abort),
    ("request_cost_limit_exceeded", false, .abort)]

/-- `classifyErrorAction`. -/
def classifyErrorAction (errorType : String) : Bool × ErrorAction :=
  (ERROR_ACTION_MAP.lookup errorType).getD (false, .abort)

/-- Whether a candidate is paid for. -/
inductive CascadeTier
  | free
  | paid
  deriving DecidableEq

/-- A candidate of a chain. -/
structure CascadeCandidate where
  connector : String
  model : String
  tier : CascadeTier
  deriving DecidableEq

/-- A failed hop. -/
structure ChainHopFailure where
  connector : String
  model : String
  errorType : String
  message : String
  deriving DecidableEq

/-- A failed hop in the trace of a chain. -/
structure FailoverAttempt where
  connector : String
  model : String
  errorType : String
  deriving DecidableEq

/-- The entry a failure leaves in the trace. -/
def ChainHopFailure.attempt (failure : ChainHopFailure) : FailoverAttempt where
  connector := failure.connector
  model := failure.model
  errorType := failure.errorType

/-! ### Hops -/

/-- What a hop returns. -/
structure HopResponse where
  response : ConnectorResponse
  clientChunkSent : Bool := false
  /-- The delay of `response.error`. -/
  retryAfter : Option ℚ := none
  deriving DecidableEq

/-- How a hop ends. -/
inductive HopResult
  | returned (response : HopResponse)
  | threw
  deriving DecidableEq

/-- What a hop did. -/
structure HopRun where
  result : HopResult
  /-- It called `noteChunkSent`. -/
  noted : Bool := false
  endsAt : ℚ
  deriving DecidableEq

/-- What a hop is asked for. -/
structure HopRequest where
  connector : String
  model : String
  timeoutMs : ℤ
  deriving DecidableEq

/-- `responseDeliveredChunk`. -/
def responseDeliveredChunk (response : HopResponse) : Bool :=
  response.clientChunkSent

/-- `chainShouldAdvance`. -/
def chainShouldAdvance (errorType : String) (chunkSent allowTimeoutAdvance : Bool) : Bool :=
  if chunkSent then false
  else if (classifyErrorAction errorType).1 || errorType == "circuit_open" then true
  else errorType == "timeout" && allowTimeoutAdvance

/-- `capHopTimeout`. -/
def capHopTimeout (ownTimeoutMs : Option ℚ) (remainingMs : ℚ) : ℤ :=
  max 1 ⌊min (ownTimeoutMs.getD remainingMs) remainingMs⌋

/-- The failure of a hop that did not succeed. -/
def hopFailure (candidate : CascadeCandidate) : HopResult → ChainHopFailure
  | .threw =>
    { connector := candidate.connector
      model := candidate.model
      errorType := "connector_unavailable"
      message := "Connector unavailable" }
  | .returned response =>
    let errorType := (response.response.error.map ConnectorError.type).getD
      (if response.response.status = .timeout then "timeout" else "unknown")
    { connector := candidate.connector
      model := candidate.model
      errorType
      message := (response.response.error.map ConnectorError.message).getD
        ("Upstream " ++ errorType) }

/-! ### The chain -/

/-- What the chain is given. `execute` is told the number of the hop and the time it starts at. -/
structure ChainArgs where
  execute : ℕ → ℚ → HopRequest → HopRun
  requestTimeoutMs : Option ℚ := none
  deadlineMs : ℚ≥0 := 180000
  hopOwnTimeoutMs : CascadeCandidate → Option ℚ := fun _ ↦ none
  allowTimeoutAdvance : CascadeCandidate → Bool := fun _ ↦ true

/-- What the chain does after a hop. -/
inductive HopOutcome
  | success (response : HopResponse)
  | advance (failure : ChainHopFailure)
  | abort (failure : ChainHopFailure) (retryAfter : Option ℚ)
  deriving DecidableEq

/-- How the chain ends. -/
inductive ChainOutcome
  | success (response : HopResponse)
  | abort (failure : ChainHopFailure) (retryAfter : Option ℚ)
  | deadline (tried : List FailoverAttempt) (lastHop : Option ChainHopFailure)
  | exhausted (tried : List FailoverAttempt)
  deriving DecidableEq

/-- A hop that was executed. -/
structure HopRecord where
  candidate : CascadeCandidate
  startedAt : ℚ
  timeoutMs : ℤ
  run : HopRun
  deriving DecidableEq

/-- A whole run of the chain. -/
structure ChainRun where
  outcome : ChainOutcome
  hops : List HopRecord
  endedAt : ℚ
  deriving DecidableEq

/-- The run with a hop in front. -/
def ChainRun.after (run : ChainRun) (hop : HopRecord) : ChainRun :=
  { run with hops := hop :: run.hops }

/-- What the chain does after a hop. -/
def settleHop (args : ChainArgs) (candidate : CascadeCandidate) (run : HopRun) : HopOutcome :=
  match run.result with
  -- whatever was noted, a hop that throws is passed over
  | .threw => .advance (hopFailure candidate run.result)
  | .returned response =>
    if response.response.status = .success then .success response
    else if chainShouldAdvance (hopFailure candidate run.result).errorType
        (run.noted || responseDeliveredChunk response) (args.allowTimeoutAdvance candidate) then
      .advance (hopFailure candidate run.result)
    else .abort (hopFailure candidate run.result) response.retryAfter

/-- The hop on a candidate with `remaining` milliseconds left. -/
def runHop (args : ChainArgs) (index : ℕ) (now remaining : ℚ) (candidate : CascadeCandidate) :
    HopRecord :=
  let timeoutMs := capHopTimeout
    ((args.hopOwnTimeoutMs candidate).or args.requestTimeoutMs) remaining
  { candidate
    startedAt := now
    timeoutMs
    run := args.execute index now
      { connector := candidate.connector, model := candidate.model, timeoutMs } }

/-- The loop of `runFailoverChain`, at the hop `index` and the time `now`. -/
def runHops (args : ChainArgs) (startedAt : ℚ) (index : ℕ) (now : ℚ)
    (tried : List FailoverAttempt) (lastHop : Option ChainHopFailure) :
    List CascadeCandidate → ChainRun
  | [] => { outcome := .exhausted tried, hops := [], endedAt := now }
  | candidate :: rest =>
    let remaining := args.deadlineMs - (now - startedAt)
    if remaining < 1 then { outcome := .deadline tried lastHop, hops := [], endedAt := now }
    else
      let hop := runHop args index now remaining candidate
      match settleHop args candidate hop.run with
      | .success response =>
        { outcome := .success response, hops := [hop], endedAt := hop.run.endsAt }
      | .abort failure retryAfter =>
        { outcome := .abort failure retryAfter, hops := [hop], endedAt := hop.run.endsAt }
      | .advance failure =>
        (runHops args startedAt (index + 1) hop.run.endsAt (tried ++ [failure.attempt])
          (some failure) rest).after hop

/-- `runFailoverChain`. -/
def runFailoverChain (args : ChainArgs) (startedAt : ℚ) (candidates : List CascadeCandidate) :
    ChainRun :=
  runHops args startedAt 0 startedAt [] none candidates

/-! ### Properties -/

section Properties

variable {args : ChainArgs} {candidate : CascadeCandidate} {run : HopRun}

theorem chainShouldAdvance_of_chunkSent (errorType : String) (allowTimeoutAdvance : Bool) :
    chainShouldAdvance errorType true allowTimeoutAdvance = false :=
  rfl

/-- The timeout of a hop is at least a millisecond, and no more than what is left. -/
theorem capHopTimeout_bounds (ownTimeoutMs : Option ℚ) {remainingMs : ℚ} (h : 1 ≤ remainingMs) :
    1 ≤ capHopTimeout ownTimeoutMs remainingMs ∧
      (capHopTimeout ownTimeoutMs remainingMs : ℚ) ≤ remainingMs := by
  refine ⟨le_max_left _ _, ?_⟩
  have hfloor : (⌊min (ownTimeoutMs.getD remainingMs) remainingMs⌋ : ℚ) ≤ remainingMs :=
    (Int.floor_le _).trans (min_le_right _ _)
  unfold capHopTimeout
  rw [Int.cast_max, Int.cast_one]
  exact max_le h hfloor

/-- A hop succeeds when it returns a success. -/
theorem settleHop_success_iff {response : HopResponse} :
    settleHop args candidate run = .success response ↔
      run.result = .returned response ∧ response.response.status = .success := by
  unfold settleHop
  cases hresult : run.result with
  | threw => simp
  | returned returned =>
    by_cases hstatus : returned.response.status = .success
    · simp only [if_pos hstatus, HopOutcome.success.injEq, HopResult.returned.injEq]
      constructor
      · rintro rfl
        exact ⟨rfl, hstatus⟩
      · exact And.left
    · simp only [if_neg hstatus]
      constructor
      · intro h
        split at h <;> cases h
      · rintro ⟨heq, hsuccess⟩
        cases heq
        exact absurd hsuccess hstatus

/-- An aborting hop returned its error. -/
theorem settleHop_abort {failure : ChainHopFailure} {retryAfter : Option ℚ}
    (h : settleHop args candidate run = .abort failure retryAfter) :
    ∃ response, run.result = .returned response ∧ response.response.status ≠ .success ∧
      failure = hopFailure candidate run.result ∧ retryAfter = response.retryAfter := by
  unfold settleHop at h
  split at h
  · cases h
  · rename_i response hresult
    split at h
    · cases h
    · rename_i hstatus
      split at h
      · cases h
      · cases h
        exact ⟨response, hresult, hstatus, rfl, rfl⟩

/-- A hop that is passed over failed, and threw or delivered nothing. -/
theorem settleHop_advance {failure : ChainHopFailure}
    (h : settleHop args candidate run = .advance failure) :
    failure = hopFailure candidate run.result ∧
      (run.result = .threw ∨ ∃ response, run.result = .returned response ∧
        response.response.status ≠ .success ∧ run.noted = false ∧
        responseDeliveredChunk response = false) := by
  unfold settleHop at h
  split at h
  · rename_i hresult
    cases h
    exact ⟨rfl, .inl hresult⟩
  · rename_i response hresult
    split at h
    · cases h
    · rename_i hstatus
      split at h
      · rename_i hadvance
        cases h
        refine ⟨rfl, .inr ⟨response, hresult, hstatus, ?_⟩⟩
        cases hchunk : run.noted || responseDeliveredChunk response with
        | true =>
          rw [hchunk, chainShouldAdvance_of_chunkSent] at hadvance
          cases hadvance
        | false => exact Bool.or_eq_false_iff.1 hchunk
      · cases h

end Properties

end ModelConnector.Connectors
