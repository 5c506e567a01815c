import ModelConnector.Foundations.EcmaString
import ModelConnector.Foundations.Recorded
import ModelConnector.Speech.SttRouter

/-!
# The connectors of speech-to-text providers

`transcribe` of `BaseSttConnector`, with what its subclasses make of an answer, and `transcribe` of
`AssemblyAiSttConnector`, which uploads the audio, submits a transcript and polls for it. Both ask
the circuit breaker and the semaphore first. What the provider answers is an argument, and so is the
time that passes; a timer takes at least one millisecond.

What an attempt records at the circuit breaker is the log of a computation. An error of a connector
is one thing and an error that the language raises is another: the first pipeline catches the second
kind, the other does not.
-/

namespace ModelConnector.Speech

open Ecma

/-! ### What a provider does -/

/-- A body that is read. -/
inductive BodyRead
  | text (body : Text)
  /-- It breaks off, or is not there in time. -/
  | brokeOff (isTimeout : Bool) (message : Text)

/-- What `fetch` comes to. -/
inductive Fetched
  | rejected (isTimeout : Bool) (message : Text)
  | answered (status : ℕ) (body : BodyRead)

/-- The circuit breaker and the semaphore, before anything is sent. -/
inductive SttAdmission
  | circuitOpen
  | queueTimeout (message : Text)
  | admitted
  deriving DecidableEq

/-! ### Errors -/

/-- `SttProviderErrorType`, as far as connectors use it. -/
inductive SttErrorType
  | rateLimited
  | timeout
  | authFailed
  | serverError
  | httpError
  | parseError
  | networkError
  deriving DecidableEq

/-- The type, as it is spelled. -/
def SttErrorType.name : SttErrorType → String
  | rateLimited => "rate_limited"
  | timeout => "timeout"
  | authFailed => "auth_failed"
  | serverError => "server_error"
  | httpError => "http_error"
  | parseError => "parse_error"
  | networkError => "network_error"

/-- An `SttProviderError` of a connector. -/
structure ConnectorError where
  type : SttErrorType
  message : Text
  upstreamCode : Option Value := none
  upstreamStatus : Option ℕ := none

/-- An error that the language raises. -/
inductive Fault
  /-- `JSON.parse` cannot read the text. -/
  | unreadable (body : Text)
  /-- A property of `null`. -/
  | noProperty (name : String)
  /-- A method that the value does not have. -/
  | noMethod (name : String)
  /-- A value that cannot be converted. -/
  | noPrimitive

/-- What the engine says of an error, and what its Unicode tables make of a text. -/
structure Engine where
  message : Fault → Text
  toLowerCase : Text → Text

/-- What a step throws. -/
inductive Thrown
  | provider (error : ConnectorError)
  | raised (isTimeout : Bool) (message : Text)

/-- What the circuit breaker is told. -/
inductive BreakerOutcome
  | success
  | failure (type : SttErrorType)
  deriving DecidableEq

/-- A part of an attempt. -/
abbrev Attempt :=
  Recorded Thrown BreakerOutcome

/-! ### Requests and results -/

/-- A request, as far as a connector reads it to make something of the answer. -/
structure SpeechRequest where
  language : Option Text := none
  model : Option Text := none
  timeoutMs : Option ℕ := none

/-- `SttConnectorResult`. What a provider sends may be of any type. -/
structure SpeechResult where
  transcription : Text
  detectedLanguage : Option Value
  audioDurationSeconds : Option Value
  model : Text
  /-- The duration that `costUsd` is the price of, unless nothing is charged. -/
  charged : Option Value
  latencyMs : ℕ
  providerRequestId : Option Value

/-- What `transcribe` comes to, and what it does on the way. -/
structure SpeechAttempt where
  result : Except Thrown SpeechResult
  recorded : List BreakerOutcome
  /-- The provider is called. -/
  dispatched : Bool
  acquired : ℕ
  released : ℕ

section Engine

variable (engine : Engine)

/-- Raise an error of the language. -/
def raise {α : Type} (fault : Fault) : Attempt α :=
  .raise (.raised false (engine.message fault))

/-- A property of a value that may be `null`. -/
def readProperty (name : String) (v : Value) : Attempt (Option Value) :=
  match v.property? name with
  | some v => pure v
  | none => raise engine (.noProperty name)

/-- `${v}`. -/
def interpolate (v : Value) : Attempt Text :=
  match v.string? with
  | some t => pure t
  | none => raise engine .noPrimitive

/-- `(v ?? '').trim()`. -/
def trimmed (v : Option Value) : Attempt Text :=
  match v with
  | none | some .null => pure []
  | some (.str s) => pure (trim s)
  | some _ => raise engine (.noMethod "trim")

/-- `text` of a response. -/
def readText : BodyRead → Attempt Text
  | .text body => pure body
  | .brokeOff isTimeout message => .raise (.raised isTimeout message)

/-- `json` of a response. -/
def readJson (body : BodyRead) : Attempt Value := do
  let body ← readText body
  match parse body with
  | some json => pure json
  | none => raise engine (.unreadable body)

/-- `classifyHttpError`. -/
def classifyHttpError (status : ℕ) : SttErrorType :=
  if status = 429 then .rateLimited
  else if status = 408 then .timeout
  else if status = 401 ∨ status = 403 then .authFailed
  else if 500 ≤ status then .serverError
  else .httpError

/-- `shouldCountTowardCircuitBreaker`. -/
def shouldCountTowardCircuitBreaker (status : ℕ) : Bool :=
  500 ≤ status || status = 429 || status = 408

/-- `extractUpstreamCode`. -/
def extractUpstreamCode (body : Text) : Option Value :=
  match parse body with
  | none | some .null => none
  | some parsed => optional "code" (optional "error" (some parsed))

/-- The error for an answer that is not ok. -/
def refusal (provider : String) (code : Text → Option Value) (status : ℕ) (text : Text) :
    ConnectorError where
  type := classifyHttpError status
  message := ascii provider ++ ascii " responded " ++ (digitsOf status).map digitUnit ++
    ascii ": " ++ text.take 200
  upstreamCode := code text
  upstreamStatus := some status

/-- An answer that is not ok: it is counted if it should be, and thrown. -/
def refuse {α : Type} (provider : String) (code : Text → Option Value) (status : ℕ)
    (body : BodyRead) : Attempt α := do
  let text ← readText body
  if shouldCountTowardCircuitBreaker status then .record (.failure (classifyHttpError status))
  .raise (.provider (refusal provider code status text))

/-- Record a failure, and throw it. -/
def failWith {α : Type} (type : SttErrorType) (message : Text) : Attempt α := do
  .record (.failure type)
  .raise (.provider { type, message })

/-! ### `BaseSttConnector` -/

/-- The subclasses. -/
inductive BaseSttConnector
  | groq
  | deepgram
  | openai
  | localWhisper
  deriving DecidableEq

/-- What `parseSttResponse` returns. -/
structure ParsedSpeech where
  transcription : Text
  detectedLanguage : Option Value := none
  audioDurationSeconds : Option Value := none
  model : Text
  providerRequestId : Option Value := none

namespace BaseSttConnector

/-- `provider`. -/
def provider : BaseSttConnector → String
  | groq => "groq"
  | deepgram => "deepgram"
  | openai => "openai"
  | localWhisper => "local-whisper"

/-- The labels that `normaliseLanguage` knows. -/
def languageLabels : List (String × String) :=
  [("english", "en"), ("russian", "ru"), ("spanish", "es"), ("french", "fr"), ("german", "de"),
    ("italian", "it"), ("portuguese", "pt"), ("chinese", "zh"), ("japanese", "ja"),
    ("korean", "ko"), ("ukrainian", "uk")]

/-- `normaliseLanguage` of `GroqSttConnector`. -/
def normaliseLanguage (providerLabel : Option Value) (requestLang : Option Text) :
    Attempt (Option Value) :=
  match requestLang.filter (· ≠ []) with
  | some language => pure (some (.str language))
  | none =>
    if !truthy providerLabel then pure none
    else
      match providerLabel with
      | some (.str label) =>
        let lower := engine.toLowerCase label
        pure (some (.str (((languageLabels.map fun p ↦ (ascii p.1, ascii p.2)).lookup
          lower).getD lower)))
      | _ => raise engine (.noMethod "toLowerCase")

/-- `parseSttResponse`; the model of the configuration is an argument. -/
def parseSttResponse (defaultModel : Text) (request : SpeechRequest) (json : Value) :
    BaseSttConnector → Attempt ParsedSpeech
  | groq => do
    let transcription ← trimmed engine (← readProperty engine "text" json)
    let detectedLanguage ←
      normaliseLanguage engine (optional "language" (some json)) request.language
    pure
      { transcription, detectedLanguage
        audioDurationSeconds := optional "duration" (some json)
        model := request.model.getD defaultModel
        providerRequestId := optional "id" (optional "x_groq" (some json)) }
  | deepgram => do
    let transcript := optional "transcript" (first? (optional "alternatives" (first?
      (optional "channels" (← readProperty engine "results" json)))))
    let transcription ← trimmed engine transcript
    pure
      { transcription, detectedLanguage := request.language.map .str
        audioDurationSeconds := optional "duration" (optional "metadata" (some json))
        model := request.model.getD defaultModel
        providerRequestId := optional "request_id" (optional "metadata" (some json)) }
  | openai => do
    let transcription ← trimmed engine (← readProperty engine "text" json)
    pure
      { transcription, detectedLanguage := request.language.map .str
        model := request.model.getD defaultModel }
  | localWhisper => do
    let transcription ← trimmed engine (← readProperty engine "text" json)
    let language := optional "language" (some json)
    pure
      { transcription
        detectedLanguage := if nullish language then request.language.map .str else language
        audioDurationSeconds := optional "duration" (some json)
        model := request.model.getD defaultModel }

end BaseSttConnector

/-- The duration whose price is charged, where a minute has a price; the comparison with zero and
the division want a number. -/
def computeCost (audioDurationSeconds : Option Value) : Attempt (Option Value) :=
  match audioDurationSeconds with
  | none => pure none
  | some v => if v.Converts then pure (some v) else raise engine .noPrimitive

/-- `getCostUsd`. -/
def BaseSttConnector.getCostUsd (audioDurationSeconds : Option Value) :
    BaseSttConnector → Attempt (Option Value)
  | groq | deepgram | openai => computeCost engine audioDurationSeconds
  | localWhisper => pure none

/-- What happens when a provider is called once. -/
structure SttCallWorld where
  admission : SttAdmission := .admitted
  answer : Fetched
  latencyMs : ℕ := 0

/-- The `try` block, from `fetch` on. -/
def callOnce (c : BaseSttConnector) (defaultModel : Text) (request : SpeechRequest)
    (w : SttCallWorld) : Attempt SpeechResult :=
  match w.answer with
  | .rejected isTimeout message => .raise (.raised isTimeout message)
  | .answered status body =>
    if !isOk status then refuse c.provider extractUpstreamCode status body
    else do
      let json ← readJson engine body
      let parsed ← c.parseSttResponse engine defaultModel request json
      .record .success
      let charged ← c.getCostUsd engine parsed.audioDurationSeconds
      pure
        { transcription := parsed.transcription, detectedLanguage := parsed.detectedLanguage
          audioDurationSeconds := parsed.audioDurationSeconds, model := parsed.model, charged
          latencyMs := w.latencyMs, providerRequestId := parsed.providerRequestId }

/-- The type of an error that the `catch` block finds. -/
def caughtType (isTimeout : Bool) (message : Text) : SttErrorType :=
  if isTimeout then .timeout
  else if includes message (ascii "SyntaxError") || includes message (ascii "Unexpected") then
    .parseError
  else .networkError

/-- The `catch` block. -/
def caught {α : Type} : Thrown → Attempt α
  | .provider error => .raise (.provider error)
  | .raised isTimeout message => failWith (caughtType isTimeout message) message

/-- The circuit breaker and the semaphore around an attempt; the `finally` block gives the slot back
however the attempt ends. -/
def withSlot (open_ : Text) (admission : SttAdmission) (body : Attempt SpeechResult) :
    SpeechAttempt :=
  match admission with
  | .circuitOpen =>
    { result := .error (.provider { type := .serverError, message := open_ })
      recorded := [], dispatched := false, acquired := 0, released := 0 }
  | .queueTimeout message =>
    { result := .error (.provider { type := .timeout, message })
      recorded := [], dispatched := false, acquired := 0, released := 0 }
  | .admitted =>
    { result := body.result, recorded := body.log
      dispatched := true, acquired := 1, released := 1 }

/-- What is said when the circuit is open. -/
def circuitOpenMessage (name : String) (request : SpeechRequest) : Text :=
  ascii "Circuit breaker open for " ++ ascii name ++ ascii ":" ++
    request.model.getD (ascii "default")

namespace BaseSttConnector

/-- `name`. -/
def name : BaseSttConnector → String
  | groq => "groq-stt"
  | deepgram => "deepgram-stt"
  | openai => "openai-stt"
  | localWhisper => "local-whisper"

/-- `transcribe`. -/
def transcribe (c : BaseSttConnector) (defaultModel : Text) (request : SpeechRequest)
    (w : SttCallWorld) : SpeechAttempt :=
  withSlot (circuitOpenMessage c.name request) w.admission
    ((callOnce engine c defaultModel request w).handle caught)

end BaseSttConnector

/-! ### `AssemblyAiSttConnector` -/

/-- A round of polling; times are in milliseconds. -/
structure PollWorld where
  answer : Fetched
  answerAfter : ℕ := 0
  /-- How late the timer is. -/
  lateBy : ℕ := 0

/-- What happens when a transcript is made. -/
structure AssemblyAiWorld where
  admission : SttAdmission := .admitted
  start : ℕ := 0
  upload : Fetched
  uploadAfter : ℕ := 0
  submit : Fetched
  submitAfter : ℕ := 0
  polls : ℕ → PollWorld

/-- The configuration; times are in milliseconds. -/
structure AssemblyAiConfig where
  timeoutMs : ℕ := 120000
  pollIntervalMs : ℕ := 2000
  defaultModel : Text := ascii "universal-2"

/-- `fetchWithDeadline`, up to a response that is ok. -/
def fetchWithDeadline : Fetched → Attempt BodyRead
  | .rejected isTimeout message =>
    failWith (if isTimeout then .timeout else .networkError) message
  | .answered status body =>
    if !isOk status then refuse "AssemblyAI" (fun _ ↦ none) status body else pure body

/-- `fetchWithDeadline`, and `json` of the response. -/
def fetchJson (answer : Fetched) : Attempt Value := do
  let res ← fetchWithDeadline answer
  readJson engine res

/-- A property that the answer to a step has to have. -/
def fetchProperty (name : String) (missing : Text) (answer : Fetched) : Attempt Value := do
  let json ← fetchJson engine answer
  let v ← readProperty engine name json
  match v.filter fun v ↦ truthy (some v) with
  | some v => pure v
  | none => failWith .parseError missing

/-- `uploadAudio`. -/
def uploadAudio : Fetched → Attempt Value :=
  fetchProperty engine "upload_url" (ascii "AssemblyAI /v2/upload response missing upload_url")

/-- `submitTranscript`. -/
def submitTranscript : Fetched → Attempt Value :=
  fetchProperty engine "id" (ascii "AssemblyAI /v2/transcript response missing id")

/-- `json.status === status`. -/
def hasStatus (status : String) (v : Option Value) : Bool :=
  match v with
  | some (.str s) => s == ascii status
  | _ => false

/-- `json.error ?? 'unknown'`. -/
def shownError (json : Value) : Value :=
  match optional "error" (some json) with
  | none | some .null => .str (ascii "unknown")
  | some error => error

/-- What is thrown for a transcript in error. -/
def transcriptError (json : Value) : Attempt Value := do
  .record (.failure .serverError)
  let text ← interpolate engine (shownError json)
  .raise (.provider
    { type := .serverError, message := ascii "AssemblyAI transcript error: " ++ text })

/-- When the next round of polling begins. -/
def afterPoll (config : AssemblyAiConfig) (deadline now : ℕ) (poll : PollWorld) : ℕ :=
  let now := now + poll.answerAfter
  now + max 1 (min config.pollIntervalMs (deadline - now)) + poll.lateBy

theorem lt_afterPoll (config : AssemblyAiConfig) (deadline now : ℕ) (poll : PollWorld) :
    now < afterPoll config deadline now poll := by
  simp only [afterPoll]
  omega

/-- `pollTranscript`, at a round and a time. -/
def pollTranscript (config : AssemblyAiConfig) (polls : ℕ → PollWorld) (id : Value)
    (deadline : ℕ) (round now : ℕ) : Attempt Value :=
  if now < deadline then do
    let _ ← interpolate engine id
    let json ← fetchJson engine (polls round).answer
    let status ← readProperty engine "status" json
    if hasStatus "completed" status then pure json
    else if hasStatus "error" status then transcriptError engine json
    else
      pollTranscript config polls id deadline (round + 1)
        (afterPoll config deadline now (polls round))
  else
    failWith .timeout (ascii "AssemblyAI polling timeout after " ++
      (digitsOf config.timeoutMs).map digitUnit ++ ascii " ms")
termination_by deadline - now
decreasing_by
  have := lt_afterPoll config deadline now (polls round)
  omega

/-- What is made of a transcript that is completed. -/
def complete (config : AssemblyAiConfig) (request : SpeechRequest) (latencyMs : ℕ)
    (completed : Value) : Attempt SpeechResult := do
  let transcription ← trimmed engine (← readProperty engine "text" completed)
  let audioDurationSeconds := optional "audio_duration" (some completed)
  .record .success
  let charged ← computeCost engine audioDurationSeconds
  let language := optional "language_code" (some completed)
  pure
    { transcription
      detectedLanguage := if nullish language then request.language.map .str else language
      audioDurationSeconds, model := request.model.getD config.defaultModel, charged, latencyMs
      providerRequestId := optional "id" (some completed) }

/-- When polling begins. -/
def AssemblyAiWorld.pollFrom (w : AssemblyAiWorld) : ℕ :=
  w.start + w.uploadAfter + w.submitAfter

/-- When the time is over. -/
def AssemblyAiWorld.deadline (w : AssemblyAiWorld) (config : AssemblyAiConfig)
    (request : SpeechRequest) : ℕ :=
  w.start + request.timeoutMs.getD config.timeoutMs

/-- The three steps; how long they took is an argument. -/
def makeTranscript (config : AssemblyAiConfig) (request : SpeechRequest) (w : AssemblyAiWorld)
    (latencyMs : ℕ) : Attempt SpeechResult := do
  let _ ← uploadAudio engine w.upload
  let transcriptId ← submitTranscript engine w.submit
  let completed ← pollTranscript engine config w.polls transcriptId (w.deadline config request) 0
    w.pollFrom
  complete engine config request latencyMs completed

/-- `transcribe` of `AssemblyAiSttConnector`. -/
def assemblyAiTranscribe (config : AssemblyAiConfig) (request : SpeechRequest) (w : AssemblyAiWorld)
    (latencyMs : ℕ) : SpeechAttempt :=
  withSlot (circuitOpenMessage "assemblyai-stt" request) w.admission
    (makeTranscript engine config request w latencyMs)

end Engine

end ModelConnector.Speech
