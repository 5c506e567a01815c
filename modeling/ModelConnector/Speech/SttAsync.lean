import ModelConnector.Speech.SttRouter

/-!
# Transcriptions through the queue

`SttAsyncController.submit` accepts a form, writes a row for it and queues a job, and
`SttJobProcessor.process` hands the audio of the job to the self-hosted connector. Neither asks the
policy of the key. What the database, the queue and the connector do is an argument.
-/

namespace ModelConnector.Speech

/-- `PROVIDER_NAME`: the provider of every job. -/
def PROVIDER_NAME : String :=
  "local-whisper"

/-- What `sttRequestSchema` makes of the fields of a form. -/
structure SttRequestDto where
  language : Option String := none
  model : Option String := none

/-- What is uploaded. -/
inductive Upload
  | notMultipart
  | tooLarge
  | missing
  /-- A file with its media type, without parameters and in lower case, and the fields as
  `sttRequestSchema` reads them, or the message of what it finds wrong with them. -/
  | file (mimeType : String) (audioBytes : ℕ) (fields : Except String SttRequestDto)

/-- A request to submit a job. -/
structure SttSubmission where
  apiKeyId : Option String
  upload : Upload

/-- `SpeechErrorEnvelope`. -/
structure SpeechErrorEnvelope where
  statusCode : ℕ
  errorCode : String
  message : String
  deriving DecidableEq

/-- A row that is queued. -/
structure QueuedRow where
  apiKeyId : String
  model : String
  language : Option String
  audioBytes : ℕ
  mimeType : String

/-- The checks of `submit`, before anything is looked up. -/
def acceptSubmission (submission : SttSubmission) : Except SpeechErrorEnvelope QueuedRow :=
  match submission.apiKeyId.filter (· ≠ "") with
  | none => .error ⟨401, "unauthorized", "API key required"⟩
  | some apiKeyId =>
    match submission.upload with
    | .notMultipart =>
      .error ⟨400, "stt_validation_error", "Content-Type must be multipart/form-data"⟩
    | .tooLarge =>
      .error ⟨413, "stt_audio_too_large", "Audio payload exceeds the configured maximum"⟩
    | .missing =>
      .error ⟨400, "stt_validation_error", "Multipart file field \"file\" is required"⟩
    | .file mimeType audioBytes fields =>
      if !STT_ALLOWED_MIME_TYPES.contains mimeType then
        .error ⟨400, "stt_unsupported_mime", "Unsupported audio MIME \"" ++ mimeType ++
          "\"; allowed: " ++ ", ".intercalate STT_ALLOWED_MIME_TYPES⟩
      else
        match fields with
        | .error message => .error ⟨400, "stt_validation_error", message⟩
        | .ok fields => .ok
          { apiKeyId, model := fields.model.getD "Systran/faster-distil-whisper-large-v3"
            language := fields.language, audioBytes, mimeType }

/-- What happens in a run of a job. -/
structure SttJobWorld where
  /-- The row is marked as being processed. -/
  started : Bool := true
  /-- The connector answers, and its answer is recorded. -/
  recorded : Bool := true

/-- What happens to a submission. -/
structure SttAsyncWorld where
  /-- `precheck`: what it allows, unless it throws. -/
  precheck : Except String Bool := .ok true
  /-- The row is created, and the database says so. -/
  created : Bool := true
  /-- The job is added to the queue. -/
  queued : Bool := true
  /-- The queue says so. -/
  answered : Bool := true
  jobs : ℕ → SttJobWorld := fun _ ↦ {}

/-- `attempts` of the queue. -/
def STT_JOB_ATTEMPTS : ℕ := 2

/-- The providers a job is handed to, over its runs. -/
def runSttJob : List SttJobWorld → List String
  | [] => []
  | w :: rest =>
    if !w.started then runSttJob rest
    else if w.recorded then [PROVIDER_NAME]
    else PROVIDER_NAME :: runSttJob rest

/-- `submit`, and after it what it has queued: what is refused, and the providers that are called.
-/
def submit (w : SttAsyncWorld) (submission : SttSubmission) :
    Option SpeechErrorEnvelope × List String :=
  match acceptSubmission submission with
  | .error envelope => (some envelope, [])
  | .ok _ =>
    match w.precheck with
    | .error message => (some ⟨500, "stt_provider_failed", message⟩, [])
    | .ok false => (some ⟨503, "stt_budget_exhausted", "STT daily budget exhausted"⟩, [])
    | .ok true =>
      if !w.created then (some ⟨500, "stt_provider_failed", "The row was not created."⟩, [])
      else
        (if w.queued && w.answered then none
          else some ⟨500, "stt_provider_failed", "The job was not queued."⟩,
          if w.queued then runSttJob ((List.range STT_JOB_ATTEMPTS).map w.jobs) else [])

/-- A job is handed to one provider only. -/
theorem runSttJob_eq {provider : String} {worlds : List SttJobWorld}
    (h : provider ∈ runSttJob worlds) : provider = PROVIDER_NAME := by
  induction worlds with
  | nil => cases h
  | cons w rest ih =>
    unfold runSttJob at h
    split at h
    · exact ih h
    · split at h
      · exact List.mem_singleton.1 h
      · exact (List.mem_cons.1 h).elim id ih

/-- Only what is accepted reaches a provider. -/
theorem submit_dispatched {w : SttAsyncWorld} {submission : SttSubmission} {provider : String}
    (h : provider ∈ (submit w submission).2) :
    (acceptSubmission submission).isOk = true ∧ provider = PROVIDER_NAME := by
  unfold submit at h
  split at h
  · cases h
  · rename_i hrow
    refine ⟨by rw [hrow]; rfl, ?_⟩
    split at h
    · cases h
    · cases h
    · split at h
      · cases h
      · dsimp only at h
        split at h
        · exact runSttJob_eq h
        · cases h

/-- What is accepted reaches the provider when nothing fails. -/
theorem submit_of_accepted {submission : SttSubmission}
    (h : (acceptSubmission submission).isOk = true) :
    PROVIDER_NAME ∈ (submit {} submission).2 := by
  unfold submit
  cases hrow : acceptSubmission submission with
  | error envelope =>
    rw [hrow] at h
    cases h
  | ok row => exact List.mem_singleton.2 rfl

end ModelConnector.Speech
