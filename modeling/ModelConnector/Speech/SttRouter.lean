import ModelConnector.Billing.Store
import ModelConnector.Connectors.Cascade
import ModelConnector.Policy.ApiKeyPolicy

/-!
# Routing transcriptions

`SttRouterService.transcribe`: a request is checked against the daily budget and the policy of its
key, and is then sent to the providers of the configured order until one answers, or to the first
only. What a provider answers is checked against the schema of the provider, and each answer leaves
a row, from which the cost of the day is read back.

What the database and the providers do in a request, and how long it takes, is an argument. The
registry holds every provider that can be enabled, under its own name.
-/

namespace ModelConnector.Speech

open Billing Connectors Policy

/-! ### Configuration and requests -/

/-- The configuration, as far as the router reads it; the schema of the environment admits no
negative budget. -/
structure SttConfig where
  /-- The names in `STT_PROVIDERS_ORDER`, trimmed and in lower case. -/
  providersOrder : List String := ["groq"]
  multiProvider : Bool := false
  groqEnabled : Bool := true
  deepgramEnabled : Bool := false
  assemblyaiEnabled : Bool := false
  openaiEnabled : Bool := false
  localWhisperEnabled : Bool := false
  maxAudioBytes : ℕ := 26214400
  dailyBudgetUsd : ℚ := 10

/-- `STT_ALLOWED_MIME_TYPES`. -/
def STT_ALLOWED_MIME_TYPES : List String :=
  ["audio/wav", "audio/x-wav", "audio/mpeg", "audio/mp3", "audio/mp4", "audio/x-m4a", "audio/webm",
    "audio/ogg", "audio/flac", "audio/x-flac"]

/-- `SttConnectorRequest`, as far as the router reads it. -/
structure SttConnectorRequest where
  mimeType : String
  audioBytes : ℕ
  model : Option String := none
  requestId : String

/-- `SttConnectorResult`; the cost is a price for a duration, and not negative. -/
structure SttConnectorResult where
  transcription : String
  detectedLanguage : Option String := none
  audioDurationSeconds : Option ℚ := none
  model : String
  costUsd : ℚ
  latencyMs : ℕ
  providerRequestId : Option String := none
  cost_nonneg : 0 ≤ costUsd

/-- `SttSuccessResponse`. -/
structure SttSuccessResponse where
  transcription : String
  model : String
  provider : String
  language : Option String
  latencyMs : ℕ
  costUsd : ℚ
  audioDurationSeconds : Option ℚ
  fallbackCount : ℕ
  requestId : String

/-- `SttProviderError`. -/
structure SttProviderError where
  provider : String
  type : String
  message : String

/-- What `transcribe` throws. -/
inductive SttError
  | unsupportedMime (mimeType : String)
  | audioTooLarge (received max : ℕ)
  | budgetExhausted (dailyCostUsd budgetUsd : ℚ)
  | policyConfig
  | policyViolation (providersDenied : List String)
  | allProvidersExhausted (providersTried : List String) (lastError : Option SttProviderError)
  | other (message : String)

/-! ### What happens in a request -/

/-- What a provider answers. -/
inductive SttAnswer
  | returned (result : SttConnectorResult)
  | providerError (type message : String)
  | threw (message : String)

/-- What happens at a candidate; times are in milliseconds. -/
structure SttAttemptWorld where
  /-- `getTier` of the candidate, when it is asked for. -/
  tier : Except String (Option Policy.ModelTier) := .ok none
  dispatchAfter : ℕ := 0
  answer : SttAnswer
  answerAfter : ℕ := 0
  /-- The row of the attempt is written. -/
  written : Bool := true
  writtenAfter : ℕ := 0

/-- What happens in a request. -/
structure SttWorld where
  startAfter : ℕ := 0
  /-- The sum of the rows is read. -/
  costRead : Bool := true
  /-- The policy is read. -/
  policyRead : Bool := true
  attempts : ℕ → SttAttemptWorld

/-! ### State -/

/-- The status of a row. -/
inductive SttStatus
  | success
  | error
  deriving DecidableEq

/-- A row of `SttTranscription`; the cost is in micro-dollars. -/
structure SttRow where
  apiKeyId : String
  provider : String
  model : String
  costUsd : ℤ
  status : SttStatus
  errorType : Option String := none
  fallbackCount : ℕ
  driftStatus : Option String := none
  createdAt : ℕ

/-- A result that a provider returned. -/
structure Returned where
  at_ : ℕ
  costUsd : ℚ
  cost_nonneg : 0 ≤ costUsd

/-- A request that was sent to a provider, with what earlier results of its day had cost. -/
structure SttDispatch where
  provider : String
  spentUsd : ℚ

/-- The clock and the rows, and what was sent to providers and returned by them so far. -/
structure SttState where
  now : ℕ := 0
  rows : List SttRow := []
  returned : List Returned := []
  dispatched : List SttDispatch := []

/-- The costs of what was returned on a day. -/
def spentOn (day : ℕ) (returned : List Returned) : ℚ :=
  (returned.map fun r ↦ if utcDay r.at_ = day then r.costUsd else 0).sum

/-- The costs of the rows of successes created since the start of a day. -/
def recordedSince (day : ℕ) (rows : List SttRow) : ℚ :=
  (rows.map fun r ↦
    if day ≤ utcDay r.createdAt ∧ r.status = .success then ofMicros r.costUsd else 0).sum

namespace SttState

variable (s : SttState)

/-- The clock moves on. -/
def wait (ms : ℕ) : SttState :=
  { s with now := s.now + ms }

/-- A provider is called. -/
def dispatch (provider : String) : SttState :=
  { s with dispatched := s.dispatched ++ [⟨provider, spentOn (utcDay s.now) s.returned⟩] }

/-- A provider returns a result. -/
def receive (result : SttConnectorResult) : SttState :=
  { s with returned := s.returned ++ [⟨s.now, result.costUsd, result.cost_nonneg⟩] }

/-- A row is inserted, unless the database fails or its cost does not fit the column; the caller is
not told. -/
def insert (written : Bool) (costUsd : ℚ) (row : SttRow) : SttState :=
  match storeDecimal 10 costUsd with
  | .error _ => s
  | .ok stored =>
    if written then { s with rows := s.rows ++ [{ row with costUsd := stored, createdAt := s.now }] }
    else s

/-- `getDailyCostUsd`. -/
def getDailyCostUsd (costRead : Bool) : ℚ :=
  if costRead then recordedSince (utcDay s.now) s.rows else 0

end SttState

/-! ### The router -/

/-- `filterEnabled`. -/
def enabled (config : Option SttConfig) (name : String) : Bool :=
  if name = "groq" then (config.map SttConfig.groqEnabled).getD true
  else if name = "deepgram" then (config.map SttConfig.deepgramEnabled).getD false
  else if name = "assemblyai" then (config.map SttConfig.assemblyaiEnabled).getD false
  else if name = "openai" then (config.map SttConfig.openaiEnabled).getD false
  else if name = "local-whisper" then (config.map SttConfig.localWhisperEnabled).getD false
  else false

/-- The candidates of a request. -/
def sttCandidates (config : Option SttConfig) : List String :=
  ((config.map SttConfig.providersOrder).getD ["groq"]).filter (enabled config)

/-- `detectDrift` finds a result that the schema of its provider rejects. -/
def detectDrift (provider : String) (result : SttConnectorResult) : Bool :=
  (provider = "deepgram" || provider = "assemblyai") &&
    (result.providerRequestId.getD "" = "" || result.audioDurationSeconds.any (· < 0))

/-- `isCandidatePolicyAllowed`; without a policy there is nothing to ask. -/
def isCandidatePolicyAllowed (policy : Option ApiKeyPolicy) (provider : String)
    (model : Option String) (tier : Except String (Option Policy.ModelTier)) : Except String Bool :=
  if !isProviderAllowed policy provider then .ok false
  else
    match model.filter (· ≠ ""), policy.bind fun p ↦ p.models with
    | some model, some models =>
      match models.mode with
      | .all => .ok true
      | .list => .ok (isModelAllowed policy provider model none).isOk
      | .freeOnly => tier.map fun tier ↦ (isModelAllowed policy provider model tier).isOk
    | _, _ => .ok true

/-- `toEnvelope`; the cost is rounded to six decimals. -/
def toEnvelope (provider : String) (result : SttConnectorResult) (request : SttConnectorRequest)
    (fallbackCount : ℕ) : SttSuccessResponse where
  transcription := result.transcription
  model := result.model
  provider
  language := result.detectedLanguage
  latencyMs := result.latencyMs
  costUsd := ofMicros (toMicros result.costUsd)
  audioDurationSeconds := result.audioDurationSeconds
  fallbackCount
  requestId := request.requestId

section Router

variable (request : SttConnectorRequest) (apiKeyId : String)

/-- `persist`. -/
def persist (attempt : SttAttemptWorld) (provider : String) (result : SttConnectorResult)
    (fallbackCount : ℕ) (s : SttState) : SttState :=
  (s.wait attempt.writtenAfter).insert attempt.written result.costUsd
    { apiKeyId, provider, model := result.model, costUsd := 0, status := .success
      fallbackCount, driftStatus := some "schema_pass", createdAt := 0 }

/-- `persistFailure`. -/
def persistFailure (attempt : SttAttemptWorld) (error : SttProviderError)
    (driftStatus : Option String) (fallbackCount : ℕ) (s : SttState) : SttState :=
  (s.wait attempt.writtenAfter).insert attempt.written 0
    { apiKeyId, provider := error.provider, model := request.model.getD "unknown", costUsd := 0
      status := .error, errorType := some error.type, fallbackCount, driftStatus, createdAt := 0 }

/-- How an attempt at a provider ends. -/
inductive AttemptEnd
  | success (response : SttSuccessResponse)
  | failure (error : SttProviderError)
  | threw (message : String)

/-- An attempt at a provider, with the rows it leaves. -/
def attemptProvider (attempt : SttAttemptWorld) (provider : String) (fallbackCount : ℕ)
    (s : SttState) : AttemptEnd × SttState :=
  let s := ((s.wait attempt.dispatchAfter).dispatch provider).wait attempt.answerAfter
  match attempt.answer with
  | .returned result =>
    let s := s.receive result
    if detectDrift provider result then
      let error := ⟨provider, "drift", provider ++ " response failed schema validation"⟩
      (.failure error,
        persistFailure request apiKeyId attempt error (some "schema_fail") fallbackCount s)
    else
      (.success (toEnvelope provider result request fallbackCount),
        persist apiKeyId attempt provider result fallbackCount s)
  | .providerError type message =>
    let error := ⟨provider, type, message⟩
    (.failure error, persistFailure request apiKeyId attempt error none fallbackCount s)
  | .threw message => (.threw message, s)

/-- The error when no candidate has answered. -/
def noAnswer (tried denied : List String) (lastError : Option SttProviderError) : SttError :=
  if tried = [] ∧ denied ≠ [] then .policyViolation denied
  else .allProvidersExhausted tried lastError

/-- The loop over the candidates, at the candidate `index`. -/
def tryCandidates (policy : Option ApiKeyPolicy) (multi : Bool) (attempts : ℕ → SttAttemptWorld) :
    ℕ → List String → List String → List String → Option SttProviderError → SttState →
      Except SttError SttSuccessResponse × SttState
  | _, [], tried, denied, lastError, s => (.error (noAnswer tried denied lastError), s)
  | index, provider :: rest, tried, denied, lastError, s =>
    match isCandidatePolicyAllowed policy provider request.model (attempts index).tier with
    | .error message => (.error (.other message), s)
    | .ok false =>
      tryCandidates policy multi attempts (index + 1) rest tried (denied ++ [provider]) lastError s
    | .ok true =>
      match attemptProvider request apiKeyId (attempts index) provider tried.length s with
      | (.success response, s) => (.ok response, s)
      | (.threw message, s) => (.error (.other message), s)
      | (.failure error, s) =>
        if multi then
          tryCandidates policy multi attempts (index + 1) rest (tried ++ [provider]) denied
            (some error) s
        else (.error (noAnswer (tried ++ [provider]) denied (some error)), s)

/-- `transcribe`. -/
def transcribe (config : Option SttConfig) (policyOf : String → Except Unit (Option ApiKeyPolicy))
    (w : SttWorld) (s : SttState) : Except SttError SttSuccessResponse × SttState :=
  let s := s.wait w.startAfter
  let maxBytes := (config.map SttConfig.maxAudioBytes).getD 26214400
  if !STT_ALLOWED_MIME_TYPES.contains request.mimeType then
    (.error (.unsupportedMime request.mimeType), s)
  else if maxBytes < request.audioBytes then
    (.error (.audioTooLarge request.audioBytes maxBytes), s)
  else
    let dailyCost := s.getDailyCostUsd w.costRead
    match config.filter fun c ↦ c.dailyBudgetUsd ≤ dailyCost with
    | some config => (.error (.budgetExhausted dailyCost config.dailyBudgetUsd), s)
    | none =>
      if !w.policyRead then (.error (.other "The policy could not be read."), s)
      else
        match policyOf apiKeyId with
        | .error () => (.error .policyConfig, s)
        | .ok policy =>
          match sttCandidates config with
          | [] => (.error (.allProvidersExhausted [] none), s)
          | candidates => tryCandidates request apiKeyId policy
              ((config.map SttConfig.multiProvider).getD false) w.attempts 0 candidates [] [] none s

end Router

end ModelConnector.Speech
