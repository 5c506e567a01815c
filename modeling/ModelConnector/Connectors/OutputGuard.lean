import Mathlib.Data.Rat.Floor
import ModelConnector.Connectors.Response

/-!
# The output guard

`wrapExecute` sits between the retry loop and the connector when a request asks for structured
output. It validates and repairs the text the connector answers, and sends an answer that cannot be
repaired back with a correction prompt, as often as its configuration allows. What it calls outside
the repository, the repair library and the compiler of schemas, is a parameter.

The connector is a function of what it has answered before and of what it is asked, and the guard
returns the list of all answers beside its outcome; a connector that throws ends the request.
-/

namespace ModelConnector.Connectors

/-- The formats of structured output. -/
inductive Format
  | json
  | yaml
  | toml
  | python
  | auto
  deriving DecidableEq

/-- A prompt: a text, or content blocks as their JSON text. -/
inductive Prompt
  | text (text : String)
  | blocks (json : String)
  deriving DecidableEq

/-- What a connector is asked, as far as the guard and the injectors read or write it; the values
in `extra` are JSON texts. -/
structure ConnectorRequest where
  prompt : Prompt
  model : Option String := none
  systemPrompt : Option String := none
  extra : Option (List (String × String)) := none
  deriving DecidableEq

/-- A request with the fields of the guard; the schema is its JSON text. -/
structure GuardRequest extends ConnectorRequest where
  outputFormat : Option Format
  schema : Option String := none
  deriving DecidableEq

/-- `stripGuardFields`. -/
def stripGuardFields (request : GuardRequest) : ConnectorRequest :=
  request.toConnectorRequest

/-- The configuration of the guard; the schema of the environment admits any number of retries. -/
structure OutputGuardRuntimeConfig where
  enabled : Bool := true
  maxRetries : ℚ := 3

/-- What `repair` throws. -/
inductive RepairError
  | schemaValidation (issues : List String) (message : String)
  | parse (message : String)
  | unexpected (message : String)

/-- What `repair` returns; the data is its JSON text. -/
structure RepairResult where
  repaired : Bool
  raw : String
  data : Option String
  strategiesApplied : List String

/-- What the guard calls outside the repository, over the compiled schemas. -/
structure GuardLibrary (SchemaValidator : Type) where
  /-- `getAjv().compile`. -/
  compile : String → Except String SchemaValidator
  /-- `repair`. -/
  repair : String → Format → Option SchemaValidator → Except RepairError RepairResult
  /-- `retryPrompt`, of the previous response, the schema and the errors. -/
  retryPrompt : String → Option String → Option (List String) → String

/-- What a connector says it can do, as far as the guard reads it. -/
structure ConnectorCapabilities where
  name : String
  supportsJsonSchema : Bool
  deriving DecidableEq

/-- A connector, as the guard sees it. -/
structure Connector where
  capabilities : ConnectorCapabilities
  /-- `execute`, given the answers so far. -/
  execute : List ConnectorResponse → ConnectorRequest → Except String ConnectorResponse

/-! ### Schemas -/

/-- A strategy that tells the provider about the schema. -/
structure SchemaInjector where
  id : String
  appliesTo : ConnectorCapabilities → Bool
  inject : ConnectorRequest → Option String → ConnectorRequest

/-- Set the keys of an object, as `{ ...object, ...entries }` does. -/
def spread (object entries : List (String × String)) : List (String × String) :=
  entries.foldl (fun object entry ↦
    if object.any (·.1 == entry.1) then
      object.map fun old ↦ if old.1 == entry.1 then entry else old
    else object ++ [entry]) object

/-- The injector of a provider with structured output, by what it sets in `extra`. -/
def extraInjector (id : String) (entries : String → List (String × String)) : SchemaInjector where
  id := id
  appliesTo cap := cap.name == id && cap.supportsJsonSchema
  inject request schema :=
    match schema with
    | none => request
    | some schema => { request with extra := some (spread (request.extra.getD []) (entries schema)) }

/-- The entry `response_format` of a schema. -/
def responseFormat (schema : String) : List (String × String) :=
  [("response_format", "\x7b\"type\":\"json_schema\",\"json_schema\":" ++
    "\x7b\"name\":\"output_guard_schema\",\"strict\":true,\"schema\":" ++ schema ++ "\x7d\x7d")]

/-- `openrouterInjector`. -/
def openrouterInjector : SchemaInjector :=
  extraInjector "openrouter" responseFormat

/-- `openaiInjector`. -/
def openaiInjector : SchemaInjector :=
  extraInjector "openai" responseFormat

/-- `anthropicInjector`. -/
def anthropicInjector : SchemaInjector :=
  extraInjector "anthropic" fun schema ↦
    [("tools", "[\x7b\"name\":\"output_guard_emit\"," ++
      "\"description\":\"Emit the structured response payload.\",\"input_schema\":" ++ schema ++
      "\x7d]"),
    ("tool_choice", "\x7b\"type\":\"tool\",\"name\":\"output_guard_emit\"\x7d")]

/-- `geminiInjector`. -/
def geminiInjector : SchemaInjector :=
  extraInjector "gemini" fun schema ↦
    [("generationConfig", "\x7b\"responseMimeType\":\"application/json\",\"responseSchema\":" ++
      schema ++ "\x7d")]

/-- `PROMPT_HEADER`. -/
def PROMPT_HEADER : String :=
  "You MUST respond with a single JSON value that strictly validates against the schema below. " ++
    "No prose, no markdown fences, no commentary."

/-- `cliInjector`, the fallback; an empty system prompt is replaced. -/
def cliInjector : SchemaInjector where
  id := "cli"
  appliesTo _ := true
  inject request schema :=
    match schema with
    | none => request
    | some schema =>
      let block := PROMPT_HEADER ++ "\n\nSchema:\n" ++ schema
      { request with
        systemPrompt := some
          (match request.systemPrompt.filter (· ≠ "") with
          | some systemPrompt => systemPrompt ++ "\n\n" ++ block
          | none => block) }

/-- `INJECTORS`. -/
def INJECTORS : List SchemaInjector :=
  [openrouterInjector, openaiInjector, anthropicInjector, geminiInjector, cliInjector]

/-- `pickInjector`. -/
def pickInjector (capabilities : ConnectorCapabilities) : SchemaInjector :=
  (INJECTORS.find? fun injector ↦ injector.appliesTo capabilities).getD cliInjector

/-- `OUTPUT_FORMAT_SCHEMA_SIZE_LIMIT`. -/
def OUTPUT_FORMAT_SCHEMA_SIZE_LIMIT : ℕ :=
  32768

/-- The length of a text in the UTF-16 units in which the source counts. -/
def utf16Length (text : String) : ℕ :=
  (text.toList.map fun c ↦ if c.toNat < 65536 then 1 else 2).sum

/-- `buildAjvAdapter`; a schema is a plain object by the type of the request. -/
def buildAjvAdapter {SchemaValidator : Type} (library : GuardLibrary SchemaValidator)
    (schema : String) : Except String SchemaValidator :=
  if OUTPUT_FORMAT_SCHEMA_SIZE_LIMIT < utf16Length schema then
    .error ("schema exceeds " ++ toString OUTPUT_FORMAT_SCHEMA_SIZE_LIMIT ++
      "-byte limit (got " ++ toString (utf16Length schema) ++ ")")
  else library.compile schema

/-! ### The guard -/

/-- How structured output came about. -/
inductive OutputGuardPass
  | native
  | guarded
  | failed
  deriving DecidableEq

/-- `OutputGuardReport`. -/
structure OutputGuardReport where
  strategiesApplied : List String
  retries : ℕ
  finalValid : Bool
  pass : OutputGuardPass
  error : Option String := none
  deriving DecidableEq

/-- `GuardedExecuteOutcome`. -/
structure GuardedExecuteOutcome where
  response : ConnectorResponse
  report : Option OutputGuardReport
  bypassed : Bool
  deriving DecidableEq

/-- An outcome with all answers of the connector, in order. -/
structure GuardedExecution where
  outcome : GuardedExecuteOutcome
  calls : List ConnectorResponse
  deriving DecidableEq

/-- What `attemptValidate` returns. -/
structure AttemptValidation where
  valid : Bool
  text : String
  data : Option String := none
  strategiesApplied : List String := []
  error : Option String := none

section Guard

variable {SchemaValidator : Type} (library : GuardLibrary SchemaValidator)

/-- `attemptValidate`. -/
def attemptValidate (text : String) (format : Format) (validator : Option SchemaValidator) :
    AttemptValidation :=
  match library.repair text format validator with
  | .ok result =>
    { valid := true
      text := if result.repaired then result.raw else text
      data := result.data
      strategiesApplied := result.strategiesApplied }
  | .error (.schemaValidation issues message) =>
    { valid := false, text := text
      error := some (if issues = [] then message else "; ".intercalate issues) }
  | .error (.parse message) => { valid := false, text := text, error := some message }
  | .error (.unexpected message) => { valid := false, text := text, error := some message }

/-- `buildSchemaCompileError`. -/
def buildSchemaCompileError (request : GuardRequest) (message : String) : ConnectorResponse where
  model := request.model.getD ""
  result := ""
  usage := .zero
  status := .error
  error := some ⟨"validation_error", "output_format schema rejected: " ++ message, false, "abort"⟩

/-- The error of a report that has none of its own. -/
def GUARD_RETRIES_EXHAUSTED : String :=
  "guard repair retries exhausted"

/-- The request that sends an answer back for correction; an empty error is not mentioned. -/
def correctionOf (schema : Option String) (response : ConnectorResponse)
    (outcome : AttemptValidation) (modifiedRequest : ConnectorRequest) : ConnectorRequest :=
  { modifiedRequest with
    prompt := .text (library.retryPrompt response.result schema
      ((outcome.error.filter (· ≠ "")).map fun error ↦ [error])) }

/-- The outcome of an answer that is valid, after `retries` others. -/
def guardSucceeded (connector : Connector) (retries : ℕ) (response : ConnectorResponse)
    (outcome : AttemptValidation) : GuardedExecuteOutcome where
  response := { response with result := outcome.text, structured := outcome.data }
  report := some
    { strategiesApplied := outcome.strategiesApplied
      retries := retries
      finalValid := true
      pass := if retries = 0 ∧ outcome.strategiesApplied = [] ∧
          connector.capabilities.supportsJsonSchema then .native
        else .guarded }
  bypassed := false

/-- The outcome of an invalid answer that is not sent back. -/
def guardExhausted (retries : ℕ) (response : ConnectorResponse) (outcome : AttemptValidation) :
    GuardedExecuteOutcome where
  response := { response with
    status := .error
    error := some
      ⟨"guard_exhausted", outcome.error.getD GUARD_RETRIES_EXHAUSTED, false, "abort"⟩ }
  report := some
    { strategiesApplied := outcome.strategiesApplied
      retries := retries
      finalValid := false
      pass := .failed
      error := some (outcome.error.getD GUARD_RETRIES_EXHAUSTED) }
  bypassed := false

/-- The loop of `wrapExecute`, with `more` retries left after this call. -/
def guardLoop (connector : Connector) (format : Format) (schema : Option String)
    (validator : Option SchemaValidator) :
    ℕ → List ConnectorResponse → ConnectorRequest → Except String GuardedExecution
  | more, calls, modifiedRequest =>
    match connector.execute calls modifiedRequest with
    | .error e => .error e
    | .ok response =>
      -- a failure of the transport belongs to the retry loop outside
      if response.status ≠ .success then .ok ⟨⟨response, none, false⟩, calls ++ [response]⟩
      else
        let outcome := attemptValidate library response.result format validator
        if outcome.valid then
          .ok ⟨guardSucceeded connector calls.length response outcome, calls ++ [response]⟩
        else
          match more with
          | 0 => .ok ⟨guardExhausted calls.length response outcome, calls ++ [response]⟩
          | more + 1 => guardLoop connector format schema validator more (calls ++ [response])
            (correctionOf library schema response outcome modifiedRequest)

/-- The retries of a configuration: attempts are counted up to `max(0, maxRetries) + 1`. -/
def OutputGuardRuntimeConfig.retries (cfg : OutputGuardRuntimeConfig) : ℕ :=
  ⌊max 0 cfg.maxRetries⌋₊

/-- The request of a guard that is disabled or not asked for. -/
def bypassGuard (connector : Connector) (request : GuardRequest) :
    Except String GuardedExecution :=
  match connector.execute [] (stripGuardFields request) with
  | .error e => .error e
  | .ok response => .ok ⟨⟨response, none, true⟩, [response]⟩

/-- `wrapExecute`. -/
def wrapExecute (config : Option OutputGuardRuntimeConfig) (connector : Connector)
    (request : GuardRequest) : Except String GuardedExecution :=
  let cfg := config.getD {}
  match cfg.enabled, request.outputFormat with
  | true, some format =>
    match request.schema.mapM (buildAjvAdapter library) with
    | .error message =>
      .ok ⟨⟨buildSchemaCompileError request message,
        some { strategiesApplied := [], retries := 0, finalValid := false, pass := .failed
               error := some message }, false⟩, []⟩
    | .ok validator =>
      guardLoop library connector format request.schema validator cfg.retries []
        ((pickInjector connector.capabilities).inject (stripGuardFields request) request.schema)
  | _, _ => bypassGuard connector request

end Guard

end ModelConnector.Connectors
