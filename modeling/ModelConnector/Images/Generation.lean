import Mathlib.Logic.Function.Basic
import ModelConnector.Images.Router

/-!
# Generating images

`ImageGenerationService.handleRequest` and the job processor behind its queue. A request is routed,
a row is written for it, and it is either queued or sent to the connector of its provider, and when
the provider is not provisioned it is routed again, with a row of its own for each attempt. What the
circuit breakers, the database, the queue and the connectors do is an argument: each attempt, and
each run of a job, is given what happens in it.

The rows of a request are numbered by its attempts. The loop of `handleRequest` need not end, so it
is given the number of attempts that are looked at.
-/

namespace ModelConnector.Images

/-! ### Requests and rows -/

/-- The values of `outputAsync`. -/
inductive AsyncMode
  | auto
  | force
  | never
  deriving DecidableEq

/-- `ImageGenerationRequest`, as far as the service reads it. -/
structure ImageGenerationRequest where
  tier : Tier := .mid
  model : Option String := none
  outputAsync : AsyncMode := .auto
  deriving DecidableEq

/-- The status of a row. -/
inductive ImageStatus
  | pending
  | processing
  | completed
  | failed
  deriving DecidableEq

/-- Nothing moves a row on from the status. -/
def ImageStatus.terminal : ImageStatus → Bool
  | completed => true
  | failed => true
  | pending => false
  | processing => false

/-- A row of `ImageGeneration`. -/
structure ImageRow where
  apiKeyId : String
  provider : ProviderId
  model : String
  status : ImageStatus
  resultUrl : Option String := none
  costUsd : Option ℚ := none
  latencyMs : Option ℕ := none
  errorMessage : Option String := none

/-- What a connector answers. -/
structure GeneratedImages where
  urls : Option (List String)
  costUsd : ℚ
  latencyMs : Option ℕ

/-- What the service answers. -/
inductive ImageGenerationResult
  | completed (images : GeneratedImages) (requestId : ℕ)
  | queued (requestId : ℕ) (routing : RoutingDecision)

/-- What the service throws. -/
inductive ImageError
  | routing (message : String)
  | notProvisioned (provider vaultPath : String)
  | other (message : String)

/-- The message of an error. -/
def ImageError.message : ImageError → String
  | routing message => message
  | notProvisioned provider vaultPath => "Provider " ++ provider ++
      " is not provisioned. Missing credentials at Vault path " ++ vaultPath ++ "."
  | other message => message

/-- `ImageJobData`. -/
structure ImageJobData where
  request : ImageGenerationRequest
  apiKeyId : String
  imageGenerationId : ℕ

/-! ### What happens to a request -/

/-- How a write to the database or the queue ends. -/
inductive WriteEnd
  | done
  | refused (message : String)
  /-- The write is made, and its answer is lost. -/
  | unanswered (message : String)
  deriving DecidableEq

/-- The write is made. -/
def WriteEnd.applied : WriteEnd → Bool
  | done => true
  | refused _ => false
  | unanswered _ => true

/-- What the caller of a write is told. -/
def WriteEnd.answer : WriteEnd → Except ImageError Unit
  | done => .ok ()
  | refused message => .error (.other message)
  | unanswered message => .error (.other message)

/-- How `generate` of a connector ends; storing the images is part of it. -/
inductive GenerateEnd
  | completed (images : GeneratedImages)
  | notProvisioned (provider vaultPath : String)
  | failed (message : String)

/-- What a connector is asked for: its provider, and the model when one is named. -/
abbrev Generate :=
  ProviderId → Option String → GenerateEnd

/-- What happens in an attempt of `handleRequest`. -/
structure AttemptWorld where
  /-- The circuit of a model is open when the attempt is routed. -/
  isOpen : String → Bool
  create : WriteEnd
  enqueue : WriteEnd
  generate : Generate
  update : WriteEnd

/-- What happens in a run of a job. -/
structure JobWorld where
  isOpen : String → Bool
  start : WriteEnd
  generate : Generate
  complete : WriteEnd
  fail : WriteEnd

/-! ### State -/

/-- The rows of a request, its jobs, and the providers whose connector was called for it. -/
structure ImageState where
  rows : ℕ → Option ImageRow := fun _ ↦ none
  jobs : List ImageJobData := []
  dispatched : List ProviderId := []

namespace ImageState

variable (s : ImageState)

/-- `imageGeneration.create`. -/
def create (write : WriteEnd) (id : ℕ) (row : ImageRow) : ImageState :=
  if write.applied then { s with rows := Function.update s.rows id (some row) } else s

/-- `imageJobQueue.add`. -/
def enqueue (write : WriteEnd) (job : ImageJobData) : ImageState :=
  if write.applied then { s with jobs := s.jobs ++ [job] } else s

/-- `imageGeneration.update`. -/
def update (write : WriteEnd) (id : ℕ) (change : ImageRow → ImageRow) :
    Except ImageError Unit × ImageState :=
  match s.rows id with
  | none => (.error (.other "No record was found for an update."), s)
  | some row =>
    (write.answer, if write.applied then
      { s with rows := Function.update s.rows id (some (change row)) } else s)

/-- A connector was called, or none was. -/
def call (provider : Option ProviderId) : ImageState :=
  { s with dispatched := s.dispatched ++ provider.toList }

/-! What the writes leave alone. -/

variable {s}

@[simp]
theorem create_dispatched (write : WriteEnd) (id : ℕ) (row : ImageRow) :
    (s.create write id row).dispatched = s.dispatched := by
  unfold create
  split <;> rfl

@[simp]
theorem create_jobs (write : WriteEnd) (id : ℕ) (row : ImageRow) :
    (s.create write id row).jobs = s.jobs := by
  unfold create
  split <;> rfl

@[simp]
theorem enqueue_dispatched (write : WriteEnd) (job : ImageJobData) :
    (s.enqueue write job).dispatched = s.dispatched := by
  unfold enqueue
  split <;> rfl

@[simp]
theorem update_dispatched (write : WriteEnd) (id : ℕ) (change : ImageRow → ImageRow) :
    (s.update write id change).2.dispatched = s.dispatched := by
  unfold update
  split
  · rfl
  · dsimp only
    split <;> rfl

@[simp]
theorem update_jobs (write : WriteEnd) (id : ℕ) (change : ImageRow → ImageRow) :
    (s.update write id change).2.jobs = s.jobs := by
  unfold update
  split
  · rfl
  · dsimp only
    split <;> rfl

@[simp]
theorem call_jobs (provider : Option ProviderId) : (s.call provider).jobs = s.jobs :=
  rfl

end ImageState

/-! ### The service -/

section Service

-- the providers that have a connector
variable (served : ProviderId → Bool)

/-- `shouldRunAsync`. -/
def shouldRunAsync (modelId : String) : AsyncMode → Bool
  | .never => false
  | .force => true
  | .auto => ASYNC_PROVIDERS.contains modelId

/-- The path in the error of a provider without a connector. -/
def disabledPath (provider : ProviderId) : String :=
  "IMAGE_PROVIDER_" ++ (provider.value.map fun c ↦ if c = '-' then '_' else c.toUpper) ++
    "_ENABLED=false or key missing"

/-- The end of `processRequest` for a provider: the connector that is called, and what it answers.
-/
def callConnector (generate : Generate) (provider : ProviderId) (model : Option String) :
    Option ProviderId × Except ImageError GeneratedImages :=
  if served provider then
    (some provider,
      match generate provider model with
      | .completed images => .ok images
      | .notProvisioned provider vaultPath => .error (.notProvisioned provider vaultPath)
      | .failed message => .error (.other message))
  else (none, .error (.notProvisioned provider.value (disabledPath provider)))

/-- `processRequest`: without a provider it routes the request itself. -/
def processRequest (isOpen : String → Bool) (generate : Generate) (request : ImageGenerationRequest)
    (routing : Option RoutingDecision) : Option ProviderId × Except ImageError GeneratedImages :=
  match routing with
  | some routing =>
    callConnector served generate routing.chosenProvider (some routing.chosenModel)
  | none =>
    match route isOpen request.tier request.model with
    | .error message => (none, .error (.routing message))
    | .ok routing => callConnector served generate routing.chosenProvider request.model

/-- The row of a finished request. -/
def ImageRow.complete (images : GeneratedImages) (row : ImageRow) : ImageRow :=
  { row with
    status := .completed
    resultUrl := images.urls.bind List.head?
    costUsd := some images.costUsd
    latencyMs := images.latencyMs }

/-- The row of a failed request. -/
def ImageRow.fail (message : String) (row : ImageRow) : ImageRow :=
  { row with status := .failed, errorMessage := some message }

/-- The row of an attempt. -/
def initialRow (apiKeyId : String) (routing : RoutingDecision) (runAsync : Bool) : ImageRow where
  apiKeyId
  provider := routing.chosenProvider
  model := routing.chosenModel
  status := if runAsync then .pending else .processing

variable (request : ImageGenerationRequest) (apiKeyId : String)

/-- The synchronous path of `_handleWithRouting`. -/
def handleSync (w : AttemptWorld) (routing : RoutingDecision) (id : ℕ) (s : ImageState) :
    Except ImageError ImageGenerationResult × ImageState :=
  let (called, answer) := processRequest served w.isOpen w.generate request (some routing)
  let s := s.call called
  match answer with
  | .error e => (.error e, s)
  | .ok images =>
    let (updated, s) := s.update w.update id (ImageRow.complete images)
    (updated.map fun () ↦ .completed images id, s)

/-- `_handleWithRouting`. -/
def handleWithRouting (w : AttemptWorld) (routing : RoutingDecision) (id : ℕ) (s : ImageState) :
    Except ImageError ImageGenerationResult × ImageState :=
  let runAsync := shouldRunAsync routing.chosenModel request.outputAsync
  let s := s.create w.create id (initialRow apiKeyId routing runAsync)
  match w.create.answer with
  | .error e => (.error e, s)
  | .ok () =>
    if runAsync then
      (w.enqueue.answer.map fun () ↦ .queued id routing,
        s.enqueue w.enqueue { request, apiKeyId, imageGenerationId := id })
    else handleSync served request w routing id s

/-- The error when no provider is left. -/
def allUnprovisioned (excluded : List ProviderId) : ImageError :=
  .notProvisioned ("[" ++ providerTexts excluded ++ "]")
    ("All providers for tier " ++ request.tier.value ++ " unprovisioned: " ++
      providerTexts excluded)

variable (world : ℕ → AttemptWorld)

/-- The loop of `handleRequest`, over the next attempts; without an answer it goes on. -/
def handleLoop : ℕ → ℕ → RoutingDecision → List ProviderId → ImageState →
    Option (Except ImageError ImageGenerationResult) × ImageState
  | 0, _, _, _, s => (none, s)
  | attempts + 1, id, routing, excluded, s =>
    match handleWithRouting served request apiKeyId (world id) routing id s with
    | (.error (.notProvisioned _ _), s) =>
      let excluded := excluded ++ [routing.chosenProvider]
      match routeExcluding (world (id + 1)).isOpen request.tier request.model excluded with
      | .error _ => (some (.error (allUnprovisioned request excluded)), s)
      | .ok routing => handleLoop attempts (id + 1) routing excluded s
    | (answer, s) => (some answer, s)

/-- `handleRequest`. -/
def handleRequest (attempts : ℕ) :
    Option (Except ImageError ImageGenerationResult) × ImageState :=
  match route (world 0).isOpen request.tier request.model with
  | .error message => (some (.error (.routing message)), {})
  | .ok routing => handleLoop served request apiKeyId world attempts 0 routing [] {}

end Service

/-! ### The jobs -/

section Jobs

variable (served : ProviderId → Bool)

/-- The `try` block of `ImageJobProcessor.process`. -/
def tryJob (w : JobWorld) (job : ImageJobData) (s : ImageState) :
    Except ImageError GeneratedImages × ImageState :=
  let (started, s) := s.update w.start job.imageGenerationId fun row ↦
    { row with status := .processing }
  match started with
  | .error e => (.error e, s)
  | .ok () =>
    let (called, answer) := processRequest served w.isOpen w.generate job.request none
    let s := s.call called
    match answer with
    | .error e => (.error e, s)
    | .ok images =>
      let (completed, s) := s.update w.complete job.imageGenerationId (ImageRow.complete images)
      (completed.map fun () ↦ images, s)

/-- `ImageJobProcessor.process`. -/
def processJob (w : JobWorld) (job : ImageJobData) (s : ImageState) :
    Except ImageError GeneratedImages × ImageState :=
  match tryJob served w job s with
  | (.ok images, s) => (.ok images, s)
  | (.error e, s) =>
    let (failed, s) := s.update w.fail job.imageGenerationId (ImageRow.fail e.message)
    (failed.bind fun () ↦ .error e, s)

/-- A job is run again until it succeeds or its attempts are used up. -/
def runJob (job : ImageJobData) : List JobWorld → ImageState → ImageState
  | [], s => s
  | w :: rest, s =>
    match processJob served w job s with
    | (.ok _, s) => s
    | (.error _, s) => runJob job rest s

/-- `attempts` of the queue. -/
def JOB_ATTEMPTS : ℕ := 2

variable (request : ImageGenerationRequest) (apiKeyId : String) (world : ℕ → AttemptWorld)
  (jobs : ℕ → JobWorld)

/-- What happens in the attempts of a job. -/
def jobWorlds : List JobWorld :=
  (List.range JOB_ATTEMPTS).map jobs

/-- A request, and after it what it has queued. -/
def imageRequest (attempts : ℕ) :
    Option (Except ImageError ImageGenerationResult) × ImageState :=
  let (answer, s) := handleRequest served request apiKeyId world attempts
  (answer, s.jobs.foldl (fun s job ↦ runJob served job (jobWorlds jobs) s) s)

end Jobs

end ModelConnector.Images
