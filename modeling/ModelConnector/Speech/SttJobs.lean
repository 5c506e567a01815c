import ModelConnector.Foundations.EcmaString
import ModelConnector.Foundations.Run
import ModelConnector.Speech.SttAsync

/-!
# The runs of a transcription job

`SttAsyncController.submit` writes a row and queues a job, `SttJobProcessor.process` runs the job up
to twice and writes the row at the start and at the end of each run, and `getJobStatus` reads the
row. Each of these goes on from one await to the next, and any of the awaits may fail; an update
that fails may or may not have been applied.
-/

namespace ModelConnector.Speech

open Billing Ecma

/-! ### Rows -/

/-- The status of the row of a job. -/
inductive SttJobStatus
  | queued
  | processing
  | success
  | error
  deriving DecidableEq

/-- The row of a job; the cost is in micro-dollars. -/
structure SttJobRow where
  apiKeyId : String
  provider : String := PROVIDER_NAME
  model : Text
  language : Option Text
  audioDurationSeconds : Option Ecma.Number := none
  transcriptionPreview : Text := []
  costUsd : ℤ := 0
  latencyMs : ℕ := 0
  status : SttJobStatus := .queued
  errorType : Option Text := none
  errorMessage : Option Text := none

/-- `SttConnectorResult`. What a provider sends may be of any type. -/
structure TranscriptionResult where
  transcription : Text
  detectedLanguage : Option Value := none
  audioDurationSeconds : Option Value := none
  model : Text
  costUsd : ℚ
  latencyMs : ℕ

/-- The database can keep the text: it has no half of a pair of surrogates, and no zero. -/
def storable (t : Text) : Bool :=
  (codePoints t).all fun c ↦ c ≠ 0 && !(0xD800 ≤ c && c < 0xE000)

/-- A nullable column: `undefined` leaves it as it is, and a value of another type is refused. -/
def setColumn {α : Type} (read : Value → Option α) (old : Option α) :
    Option Value → Option (Option α)
  | none => some old
  | some .null => some none
  | some v => (read v).map some

/-- A text, for a column of texts. -/
def textColumn : Value → Option Text
  | .str t => if storable t then some t else none
  | _ => none

/-- A number, for a column of numbers. -/
def numberColumn : Value → Option Ecma.Number
  | .num n => some n
  | _ => none

namespace SttJobRow

variable (row : SttJobRow)

/-- The update at the start of a run. -/
def start : SttJobRow :=
  { row with status := .processing }

/-- The update with a result, unless its values do not fit the columns. -/
def store (result : TranscriptionResult) : Option SttJobRow :=
  match setColumn textColumn row.language result.detectedLanguage,
    setColumn numberColumn row.audioDurationSeconds result.audioDurationSeconds,
    storeDecimal 10 result.costUsd with
  | some language, some audioDurationSeconds, .ok costUsd =>
    if storable result.model && storable (result.transcription.take 80) then
      some
        { row with
          status := .success, provider := PROVIDER_NAME, model := result.model, language
          audioDurationSeconds, transcriptionPreview := result.transcription.take 80, costUsd
          latencyMs := result.latencyMs }
    else none
  | _, _, _ => none

/-- The update with an error. -/
def fail (errorType message : Text) : Option SttJobRow :=
  if storable errorType && storable (message.take 500) then
    some { row with status := .error, errorType := some errorType
                    errorMessage := some (message.take 500) }
  else none

end SttJobRow

/-! ### Jobs -/

/-- How an update ends. -/
inductive UpdateEnd
  | done
  /-- It is applied, and an error is reported. -/
  | lost (message : Text)
  /-- It is not applied. -/
  | refused (message : Text)
  deriving DecidableEq

/-- How far a job has come; a run has a number, from one on. -/
inductive SttJobPhase
  /-- The row is there. -/
  | submitted
  /-- The job could not be added to the queue. -/
  | rejected
  /-- It is in the queue, after so many runs. -/
  | waiting (attemptsMade : ℕ)
  | transcribing (attempt : ℕ)
  /-- The result of the connector is being stored. -/
  | storing (attempt : ℕ) (result : TranscriptionResult)
  /-- An error is being stored, before it is thrown again. -/
  | marking (attempt : ℕ) (errorType message : Text)
  /-- The queue makes no further run. -/
  | over

/-- A job, and its row. -/
structure SttJob where
  row : SttJobRow
  phase : SttJobPhase := .submitted

/-- What happens to a job. -/
inductive SttJobEvent
  | enqueued (accepted : Bool)
  /-- A run begins with its update. -/
  | started (update : UpdateEnd)
  | returned (result : TranscriptionResult)
  | threw (errorType message : Text)
  | stored (update : UpdateEnd)
  | marked (update : UpdateEnd)

/-- What the queue does after a run has thrown. -/
def afterAttempt (attempt : ℕ) : SttJobPhase :=
  if attempt < STT_JOB_ATTEMPTS then .waiting attempt else .over

/-- `submit` and `process`, from one await to the next. -/
def SttJob.step (job : SttJob) : SttJobEvent → Option SttJob
  | .enqueued accepted =>
    match job.phase with
    | .submitted => some { job with phase := if accepted then .waiting 0 else .rejected }
    | _ => none
  | .started update =>
    match job.phase with
    | .waiting attemptsMade =>
      match update with
      | .done => some { row := job.row.start, phase := .transcribing (attemptsMade + 1) }
      -- The first update is outside the `try` block: its error is only thrown.
      | .lost _ => some { row := job.row.start, phase := afterAttempt (attemptsMade + 1) }
      | .refused _ => some { job with phase := afterAttempt (attemptsMade + 1) }
    | _ => none
  | .returned result =>
    match job.phase with
    | .transcribing attempt => some { job with phase := .storing attempt result }
    | _ => none
  | .threw errorType message =>
    match job.phase with
    | .transcribing attempt => some { job with phase := .marking attempt errorType message }
    | _ => none
  | .stored update =>
    match job.phase with
    | .storing attempt result =>
      match update with
      | .done => (job.row.store result).map fun row ↦ { row, phase := .over }
      | .lost message => (job.row.store result).map fun row ↦
          { row, phase := .marking attempt (ascii "unknown_error") message }
      | .refused message =>
        some { job with phase := .marking attempt (ascii "unknown_error") message }
    | _ => none
  | .marked update =>
    match job.phase with
    | .marking attempt errorType message =>
      match update with
      | .done | .lost _ => (job.row.fail errorType message).map fun row ↦
          { row, phase := afterAttempt attempt }
      | .refused _ => some { job with phase := afterAttempt attempt }
    | _ => none

/-- What an accepted form leaves in the row; a form without a key is not accepted. -/
structure SttJobForm where
  apiKeyId : String
  model : Option Text := none
  language : Option Text := none
  apiKeyId_ne : apiKeyId ≠ ""

/-- The row that `submit` writes. -/
def SttJobForm.row (form : SttJobForm) : SttJobRow where
  apiKeyId := form.apiKeyId
  model := form.model.getD (ascii "Systran/faster-distil-whisper-large-v3")
  language := form.language

/-- The jobs, in the order they were submitted. -/
abbrev SttJobs :=
  List SttJob

/-- What happens to the jobs. -/
inductive SttJobsEvent
  | submitted (form : SttJobForm)
  | job (i : ℕ) (e : SttJobEvent)

/-- A step of one job. -/
def SttJobs.step (jobs : SttJobs) : SttJobsEvent → Option SttJobs
  | .submitted form => some (jobs ++ [{ row := form.row }])
  | .job i e =>
    match jobs[i]? with
    | some job => (job.step e).map fun job' ↦ jobs.set i job'
    | none => none

/-! ### Polling -/

/-- The state of a job, as it is reported. -/
inductive ApiJobStatus
  | queued
  | processing
  | completed
  | failed
  deriving DecidableEq

/-- `mapDbStatusToApi`. -/
def mapDbStatusToApi : SttJobStatus → ApiJobStatus
  | .queued => .queued
  | .processing => .processing
  | .success => .completed
  | .error => .failed

/-- The result of a job, as it is reported. -/
structure AsyncJobResult where
  transcription : Text
  language : Option Text
  durationSeconds : Option Ecma.Number
  costUsd : ℚ
  provider : String
  model : Text

/-- `AsyncJobStatusResponse`. -/
structure AsyncJobStatusResponse where
  jobId : ℕ
  status : ApiJobStatus
  result : Option AsyncJobResult := none
  /-- Its code and its message. -/
  error : Option (Text × Text) := none

/-- What a row says of the result. -/
def SttJobRow.result (row : SttJobRow) : AsyncJobResult where
  transcription := row.transcriptionPreview
  language := row.language
  durationSeconds := row.audioDurationSeconds
  costUsd := ofMicros row.costUsd
  provider := row.provider
  model := row.model

/-- What a row is reported as. -/
def SttJobRow.response (row : SttJobRow) (jobId : ℕ) : AsyncJobStatusResponse where
  jobId
  status := mapDbStatusToApi row.status
  result := if mapDbStatusToApi row.status = .completed then some row.result else none
  error :=
    if mapDbStatusToApi row.status = .failed then
      some (row.errorType.getD (ascii "unknown_error"),
        row.errorMessage.getD (ascii "Transcription failed"))
    else none

/-- `getJobStatus`: the status of the error, or the response. -/
def getJobStatus (jobs : SttJobs) (apiKeyId : Option String) (id : ℕ) :
    Except ℕ AsyncJobStatusResponse :=
  match apiKeyId.filter (· ≠ "") with
  | none => .error 401
  | some apiKeyId =>
    match jobs[id]?.filter fun job ↦ job.row.apiKeyId = apiKeyId with
    | none => .error 404
    | some job => .ok (job.row.response id)

/-! ### The synchronous endpoint -/

/-- What `SttSuccessResponse` and the result of a job have in common. -/
structure SyncResult where
  transcription : Text
  language : Option Value
  audioDurationSeconds : Option Value
  costUsd : ℚ
  provider : String
  model : Text

/-- `toEnvelope` of the router, for a result of the connector of a provider. -/
def syncResult (provider : String) (result : TranscriptionResult) : SyncResult where
  transcription := result.transcription
  language := result.detectedLanguage
  audioDurationSeconds := result.audioDurationSeconds
  costUsd := ofMicros (toMicros result.costUsd)
  provider
  model := result.model

end ModelConnector.Speech
