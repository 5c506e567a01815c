import ModelConnector.Connectors.ApiAttempt
import ModelConnector.Connectors.Capabilities

/-!
# The facade for OpenAI clients

`OpenAiCompatController` answers a chat completion by the failover chain of `FailoverRouterService`,
over the connectors the policy of the key leaves, and lists the chat models a key is shown. Each hop
is one attempt of `ConnectorsService.execute`. What happens in a hop is an argument.
-/

namespace ModelConnector.Connectors

open Policy

/-! ### The request -/

/-- The role of a message. -/
inductive OpenAiRole
  | system
  | user
  | assistant
  | tool
  | developer
  | function
  deriving DecidableEq

/-- The content of a message. A part need not have a text. -/
inductive OpenAiContent
  | text (text : String)
  | parts (texts : List (Option String))
  | absent
  deriving DecidableEq

/-- `OpenAiChatMessage`. -/
structure OpenAiChatMessage where
  role : OpenAiRole
  content : OpenAiContent
  deriving DecidableEq

/-- `OpenAiChatCompletionRequest`, as far as the facade reads it. -/
structure OpenAiChatCompletionRequest where
  model : String
  messages : List OpenAiChatMessage
  temperature : Option ℚ := none
  topP : Option ℚ := none
  maxTokens : Option ℚ := none
  stream : Option Bool := none
  /-- The type of the format of the response. -/
  responseFormat : Option String := none
  /-- It has tools. -/
  tools : Bool := false
  /-- It says how to choose a tool. -/
  toolChoice : Bool := false
  deriving DecidableEq

/-- A `TranslatedRequest`. -/
structure TranslatedRequest where
  prompt : String
  systemPrompt : Option String
  /-- The response is to be a JSON object. -/
  jsonObject : Bool
  extra : List (String × ℚ)
  requestedModel : String
  deriving DecidableEq

/-- `messageText`. -/
def messageText : OpenAiContent → String
  | .text text => text
  | .parts texts => "\n".intercalate ((texts.map fun text ↦ text.getD "").filter (· ≠ ""))
  | .absent => ""

/-- A turn of a transcript. -/
def OpenAiChatMessage.labelled (m : OpenAiChatMessage) : String :=
  (if m.role = .assistant then "Assistant" else "User") ++ ": " ++ messageText m.content

/-- `toConnectorRequest`. -/
def toConnectorRequest (body : OpenAiChatCompletionRequest) : TranslatedRequest :=
  let systemParts := (body.messages.filter fun m ↦ m.role = .system).map fun m ↦
    messageText m.content
  let turns := body.messages.filter fun m ↦ m.role ≠ .system
  { prompt :=
      match turns with
      | [] => ""
      | [turn] => messageText turn.content
      | turns => "\n\n".intercalate (turns.map OpenAiChatMessage.labelled)
    systemPrompt := if systemParts = [] then none else some ("\n\n".intercalate systemParts)
    jsonObject := body.responseFormat == some "json_object"
    extra := (body.temperature.map ("temperature", ·)).toList ++
      (body.topP.map ("top_p", ·)).toList ++ (body.maxTokens.map ("max_tokens", ·)).toList
    requestedModel := body.model }

/-! ### The router -/

/-- `FailoverConfig`. -/
structure FailoverConfig where
  providerOrder : List String
  deepseekModel : String := "deepseek-v4-flash"
  paidEnabled : Bool := false
  allowFreeDowngrade : Bool := true
  chainDeadlineMs : ℚ≥0 := 180000

/-- The registered connectors, with what the router reads of them. -/
structure FailoverRouterService extends ConnectorRegistry where
  config : FailoverConfig
  /-- The connector is reached over an API. -/
  isApi : String → Bool
  maxTimeout : String → Option Number
  /-- `configuredConnectorTimeoutMs`. -/
  connectorTimeoutMs : String → ℚ

/-- What `complete` throws. -/
inductive FailoverError
  | abort (connector model errorType message : String)
  | exhausted (tried : List FailoverAttempt)
  | deadline (tried : List FailoverAttempt) (lastHop : Option ChainHopFailure)
  /-- A list that puts paid candidates before free ones. -/
  | disordered (message : String)
  deriving DecidableEq

/-- The text of an error. -/
def FailoverError.message : FailoverError → String
  | abort _ _ _ message => message
  | exhausted tried =>
    "Failover chain exhausted after " ++ toString tried.length ++ " candidate(s): " ++
      ", ".intercalate (tried.map fun t ↦ t.connector ++ ":" ++ t.model ++ "=" ++ t.errorType)
  | deadline _ none => "Chain deadline exceeded. No hop ran."
  | deadline _ (some lastHop) =>
    "Chain deadline exceeded. Last hop " ++ lastHop.connector ++ ":" ++ lastHop.model ++
      " failed with " ++ lastHop.errorType ++ ": " ++ lastHop.message
  | disordered message => message

/-- What happens while a chat completion is served. -/
structure ChatWorld where
  /-- The policy of the key can be read. -/
  policyRead : Bool := true
  startedAt : ℚ := 0
  /-- What happens in a hop, and when it ends. -/
  hop : TranslatedRequest → ℕ → ℚ → HopRequest → ExecuteWorld × ℚ
  /-- `randomUUID`. -/
  uuid : String
  /-- `nowUnixSeconds`, when the completion is written. -/
  created : ℤ

namespace FailoverRouterService

variable (f : FailoverRouterService)

/-- `canUseForPolicy`. -/
def canUseForPolicy (connector : String) (policy : Option ApiKeyPolicy) : Bool :=
  (f.access connector).use && f.isCredentialReadyForPolicy connector policy

/-- `globallyRoutableCapabilities`. -/
def globallyRoutable : List DeclaredCapabilities :=
  f.listCapabilities.filter fun caps ↦ (f.access caps.name).use

/-- `eligibleCapabilities`. -/
def eligible (policy : Option ApiKeyPolicy) : List DeclaredCapabilities :=
  f.globallyRoutable.filter fun caps ↦ f.canUseForPolicy caps.name policy

/-- What the candidates are built from. -/
def candidatesInput (policy : Option ApiKeyPolicy) (requestedModel : String) :
    BuildFailoverCandidatesInput where
  capabilities := f.eligible policy
  requestedModel := some requestedModel
  providerOrder := f.config.providerOrder
  deepseekModel := f.config.deepseekModel
  paidEnabled := f.config.paidEnabled
  allowFreeDowngrade := f.config.allowFreeDowngrade

/-- `isCandidateAllowedByPolicy`, for a key that has a policy. -/
def isCandidateAllowedByPolicy (policy : Option ApiKeyPolicy) (c : CascadeCandidate) : Bool :=
  policy.all fun policy ↦
    isProviderAllowed (some policy) c.connector && f.modelAllowed policy c.connector c.model

/-- `getKeyPolicy`, with what is thrown when a policy is not there to be read. -/
def getKeyPolicy (policyRead : Bool) (apiKeyId requestedModel : String) :
    Except FailoverError (Option ApiKeyPolicy) :=
  match if policyRead then f.policyOf apiKeyId else .error () with
  | .ok policy => .ok policy
  | .error () => .error (.abort "none" requestedModel "config_error"
      "The access policy stored for this API key is invalid; contact the administrator.")

/-- The candidates of `complete`. -/
def candidates (policy : Option ApiKeyPolicy) (requestedModel : String) :
    Except FailoverError (List CascadeCandidate) :=
  if f.listCapabilities ≠ [] ∧ f.globallyRoutable = [] then
    .error (.abort "none" requestedModel "provider_not_routable"
      "No provider is currently enabled for routing.")
  else
    match buildFailoverCandidates (f.candidatesInput policy requestedModel) with
    | .error message => .error (.disordered message)
    | .ok built =>
      let filtered := built.filter (f.isCandidateAllowedByPolicy policy)
      if policy.isSome ∧ filtered = [] then
        .error (.abort "none" requestedModel "policy_violation"
          "No candidate models are permitted by this API key's access policy.")
      else .ok filtered

/-- A hop: one attempt of `execute`, which is not told how to note a chunk. -/
def runChatHop (apiKeyId : String) (w : ChatWorld) (request : TranslatedRequest) (index : ℕ)
    (now : ℚ) (hop : HopRequest) : HopRun where
  result :=
    match (execute f.deployment (w.hop request index now hop).1 hop.connector
      { model := some hop.model } apiKeyId).1 with
    | .ok response => .returned { response }
    | .error _ => .threw
  endsAt := (w.hop request index now hop).2

/-- What the chain is given. -/
def chainArgs (apiKeyId : String) (w : ChatWorld) (request : TranslatedRequest) : ChainArgs where
  execute := f.runChatHop apiKeyId w request
  deadlineMs := f.config.chainDeadlineMs
  hopOwnTimeoutMs c := some (resolveAttemptBudget none (f.connectorTimeoutMs c.connector)
    (f.maxTimeout c.connector)).timeoutMs
  allowTimeoutAdvance c := f.isApi c.connector

/-- What a chain answers or throws. -/
def answerOf : ChainOutcome → Except FailoverError ConnectorResponse
  | .success response => .ok response.response
  | .abort failure _ =>
    .error (.abort failure.connector failure.model failure.errorType failure.message)
  | .deadline tried lastHop => .error (.deadline tried lastHop)
  | .exhausted tried => .error (.exhausted tried)

/-- `complete`, with the hops that were made. -/
def complete (apiKeyId : String) (w : ChatWorld) (request : TranslatedRequest) :
    Except FailoverError ConnectorResponse × List HopRecord :=
  match f.getKeyPolicy w.policyRead apiKeyId request.requestedModel with
  | .error e => (.error e, [])
  | .ok policy =>
    match f.candidates policy request.requestedModel with
    | .error e => (.error e, [])
    | .ok candidates =>
      let run := runFailoverChain (f.chainArgs apiKeyId w request) w.startedAt candidates
      (answerOf run.outcome, run.hops)

end FailoverRouterService

/-! ### The answer -/

/-- The body of an `openAiError`, with its status. -/
structure OpenAiError where
  status : ℕ
  message : String
  type : String
  code : Option String
  deriving DecidableEq

/-- `HTTP_ERROR_STATUS`. -/
def HTTP_ERROR_STATUS : List (String × ℕ) :=
  [("rate_limited", 429), ("circuit_open", 503), ("auth_error", 503), ("queue_timeout", 503),
    ("unsupported_modality", 400), ("validation_error", 400), ("credit_depleted", 402),
    ("policy_violation", 403), ("config_error", 500)]

/-- The status of an error of a connector. -/
def httpErrorStatus (errorType : String) : ℕ :=
  (HTTP_ERROR_STATUS.lookup errorType).getD 502

/-- `OpenAiChatCompletion`, with its only choice. -/
structure OpenAiChatCompletion where
  id : String
  created : ℤ
  model : String
  content : String
  finishReason : String
  promptTokens : ℚ
  completionTokens : ℚ
  totalTokens : ℚ
  deriving DecidableEq

/-- `toOpenAiChatCompletion`. -/
def toOpenAiChatCompletion (resp : ConnectorResponse) (uuid : String) (nowUnixSeconds : ℤ) :
    OpenAiChatCompletion where
  id := "chatcmpl-" ++ uuid
  created := nowUnixSeconds
  model := resp.model
  content := resp.result
  finishReason := "stop"
  promptTokens := resp.usage.inputTokens
  completionTokens := resp.usage.outputTokens
  totalTokens := resp.usage.totalTokens

/-- What a chat completion is answered with. -/
inductive ChatAnswer
  | completion (completion : OpenAiChatCompletion)
  | refused (error : OpenAiError)
  | threw (error : FailoverError)
  deriving DecidableEq

/-- The features the facade does not have: the first one a request asks for. -/
def unsupported (idempotencyKey : Option String) (body : OpenAiChatCompletionRequest) :
    Option OpenAiError :=
  if idempotencyKey.any fun key ↦ Number.trim key.toList ≠ [] then
    some
      { status := 400
        message := "Idempotency-Key is not supported by the Model Connector failover gateway " ++
          "yet: a request may be dispatched to several providers in turn and one key cannot " ++
          "span them safely. Use POST /execute with an explicit `connector` for idempotent calls."
        type := "unsupported"
        code := some "idempotency_unsupported" }
  else if body.stream = some true then
    some
      { status := 400
        message := "Streaming responses (stream:true) are not supported by the Model Connector " ++
          "failover gateway yet."
        type := "unsupported"
        code := some "stream_unsupported" }
  else if body.tools || body.toolChoice then
    some
      { status := 400
        message := "Tool/function calling is not supported by the Model Connector failover " ++
          "gateway yet."
        type := "unsupported"
        code := some "tools_unsupported" }
  else none

/-- The answer to what `complete` returns or throws. -/
def chatAnswer (w : ChatWorld) : Except FailoverError ConnectorResponse → ChatAnswer
  | .ok response =>
    if response.status = .success then
      .completion (toOpenAiChatCompletion response w.uuid w.created)
    else
      let errorType := (response.error.map ConnectorError.type).getD "api_error"
      .refused
        { status := httpErrorStatus errorType
          message := (response.error.map ConnectorError.message).getD "Upstream provider error"
          type := errorType
          code := some errorType }
  | .error e =>
    match e with
    | .abort _ _ errorType message =>
      .refused { status := httpErrorStatus errorType, message, type := errorType
                 code := some errorType }
    | .exhausted _ =>
      .refused { status := 503, message := e.message, type := "cascade_exhausted", code := none }
    | .deadline _ lastHop =>
      .refused { status := 503, message := e.message, type := "chain_deadline_exceeded"
                 code := some ((lastHop.map ChainHopFailure.errorType).getD
                   "chain_deadline_exceeded") }
    | .disordered _ => .threw e

/-- `chatCompletions`, with the hops that were made. -/
def chatCompletions (f : FailoverRouterService) (w : ChatWorld) (idempotencyKey : Option String)
    (apiKeyId : Option String) (body : OpenAiChatCompletionRequest) :
    ChatAnswer × List HopRecord :=
  match unsupported idempotencyKey body with
  | some error => (.refused error, [])
  | none =>
    let completed := f.complete (apiKeyId.getD "unknown") w (toConnectorRequest body)
    (chatAnswer w completed.1, completed.2)

/-! ### The models -/

/-- An entry of an `OpenAiModelList`. -/
structure OpenAiModel where
  id : String
  created : ℤ
  ownedBy : String
  deriving DecidableEq

/-- `toOpenAiModelList`. -/
def toOpenAiModelList (capabilities : List DeclaredCapabilities) (nowUnixSeconds : ℤ) :
    List OpenAiModel :=
  firsts OpenAiModel.id [] (capabilities.flatMap fun caps ↦
    (caps.metas.filter fun info ↦
      decide (info.modality.getD (caps.modality.getD .chat) = .chat)).map fun info ↦
        { id := info.id, created := nowUnixSeconds, ownedBy := caps.name })

/-- `listModels`. -/
def listModels (f : FailoverRouterService) (apiKeyId : Option String) (nowUnixSeconds : ℤ) :
    List OpenAiModel :=
  toOpenAiModelList (f.listCapabilitiesForKey apiKeyId) nowUnixSeconds

end ModelConnector.Connectors
