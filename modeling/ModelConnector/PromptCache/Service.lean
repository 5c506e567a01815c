import ModelConnector.Foundations.Logs
import ModelConnector.Foundations.Run
import ModelConnector.PromptCache.Policy

/-!
# The prompt cache policy as a service

`PromptCachePolicyService` runs the evaluator in a mode that its owner switches. What it decides and
every switch is an event, which is given to a sink and kept in a ring. The connector of Anthropic is
its only caller: it builds the body of a request, has it evaluated as it is, and goes on to the
provider, or answers with a refusal.
-/

namespace ModelConnector.PromptCache

/-! ### Modes -/

/-- `PolicyMode`. -/
inductive PolicyMode
  | off | observe | enforce
  deriving DecidableEq

/-- `POLICY_MODES`, by their names. -/
def POLICY_MODES : List (String × PolicyMode) :=
  [("off", .off), ("observe", .observe), ("enforce", .enforce)]

/-- The mode the evaluator is called with. -/
def PolicyMode.active? : PolicyMode → Option ActiveMode
  | .off => none
  | .observe => some .observe
  | .enforce => some .enforce

/-- `PromptCachePolicyConfigError`. -/
structure PromptCachePolicyConfigError where
  reason : String
  deriving DecidableEq

/-! ### Events -/

/-- `PolicyModeSwitchReceipt`. -/
structure PolicyModeSwitchReceipt where
  receipt_id : String
  ts : ℤ
  fromMode : PolicyMode
  toMode : PolicyMode
  changed : Bool
  actor : String
  reason : String
  contract_digest : String
  revert : PolicyMode
  deriving DecidableEq

/-- What an event says of a decision: codes, layers and hashes. -/
structure DecisionEvent where
  decision_id : String
  tenant : String
  session_id : Option String
  session_epoch : Option String
  model : Option String
  verdict : PolicyVerdict
  action : PolicyAction
  codes : List (FindingCode × Severity × FindingLayer)
  prefix_hash : Option String
  cache_identity : Option String
  prefix_changed : Bool
  prewarm : Bool
  deriving DecidableEq

/-- The event of a `PromptCachePolicyEvent`, with what it carries. -/
inductive PolicyEventKind
  | contract_loaded
  | decision (decision : DecisionEvent)
  | mode_switched (receipt : PolicyModeSwitchReceipt)
  deriving DecidableEq

/-- `PromptCachePolicyEvent`. -/
structure PromptCachePolicyEvent where
  event : PolicyEventKind
  ts : ℤ
  mode : PolicyMode
  contract_digest : String
  deriving DecidableEq

/-- What is said of a decision. -/
def PromptCachePolicyDecision.toEvent (decision : PromptCachePolicyDecision) : DecisionEvent where
  decision_id := decision.decision_id
  tenant := decision.tenant
  session_id := decision.session.id
  session_epoch := decision.session.epoch
  model := decision.model
  verdict := decision.verdict
  action := decision.action
  codes := decision.findings.map fun f ↦ (f.code, f.severity, f.layer)
  prefix_hash := decision.prefix_hash
  cache_identity := decision.cache_identity
  prefix_changed := decision.session.prefix_changed
  prewarm := decision.prewarm

/-! ### The service -/

/-- `EVENT_RING`. -/
def EVENT_RING : ℕ := 500

/-- `RECEIPT_RING`. -/
def RECEIPT_RING : ℕ := 100

/-- `PromptCachePolicyService`. -/
structure PromptCachePolicyService where
  contract : PromptLayoutContract
  limits : StoreOptions
  bootMode : PolicyMode
  mode : PolicyMode
  store : PolicyStore
  events : List PromptCachePolicyEvent := []
  receipts : List PolicyModeSwitchReceipt := []
  /-- What the sink was given, whether it took it or threw. -/
  sunk : List PromptCachePolicyEvent := []

namespace PromptCachePolicyService

/-- `emit`. What the sink throws is caught. -/
def emit (s : PromptCachePolicyService) (event : PolicyEventKind) (ts : ℤ) :
    PromptCachePolicyService :=
  let event : PromptCachePolicyEvent := ⟨event, ts, s.mode, s.contract.digest⟩
  { s with
    events := Logs.pushRing EVENT_RING s.events event
    sunk := s.sunk ++ [event] }

/-- The service as it is constructed. -/
def boot (contract : PromptLayoutContract) (limits : StoreOptions) (store : PolicyStore)
    (bootMode : PolicyMode) (ts : ℤ) : PromptCachePolicyService :=
  emit { contract, limits, bootMode, mode := bootMode, store } .contract_loaded ts

/-- `evaluate`: nothing while the policy is off. -/
def evaluate (sha256Text : String → String) (call : EvaluateCall) (ts : ℤ)
    (s : PromptCachePolicyService) :
    Option (Except String PromptCachePolicyDecision) × PromptCachePolicyService :=
  match s.mode.active? with
  | none => (none, s)
  | some mode =>
    match evaluatePromptCachePolicy sha256Text { contract := s.contract, mode, limits := s.limits }
        call s.store with
    | (.error e, store) => (some (.error e), { s with store })
    | (.ok decision, store) =>
      (some (.ok decision),
        if decision.caching_claimed || decision.verdict = .UNDETERMINED then
          emit { s with store } (.decision decision.toEvent) ts
        else { s with store })

/-- Who switches the mode, and why. -/
structure Switch where
  next : String
  actor : String
  reason : String
  receiptId : String
  ts : ℤ

/-- The receipt of a switch. -/
def receiptOf (switch : Switch) (next : PolicyMode) (s : PromptCachePolicyService) :
    PolicyModeSwitchReceipt where
  receipt_id := switch.receiptId
  ts := switch.ts
  fromMode := s.mode
  toMode := next
  changed := s.mode ≠ next
  actor := switch.actor
  reason := switch.reason
  contract_digest := s.contract.digest
  revert := s.mode

/-- `setMode`. -/
def setMode (switch : Switch) (s : PromptCachePolicyService) :
    Except PromptCachePolicyConfigError PolicyModeSwitchReceipt × PromptCachePolicyService :=
  match POLICY_MODES.lookup switch.next with
  | none => (.error ⟨"mode " ++ stringify switch.next ++ " is not one of " ++
      "/".intercalate (POLICY_MODES.map Prod.fst)⟩, s)
  | some next =>
    let receipt := receiptOf switch next s
    (.ok receipt, emit { s with
      mode := next
      receipts := Logs.pushRing RECEIPT_RING s.receipts receipt }
        (.mode_switched receipt) switch.ts)

/-- `recentEvents`. A limit of none leaves out none. -/
def recentEvents (limit : ℤ) (s : PromptCachePolicyService) : List PromptCachePolicyEvent :=
  let n := (max 0 (min limit EVENT_RING)).toNat
  if n = 0 then s.events else s.events.rtake n

end PromptCachePolicyService

/-! ### The connector -/

/-- What the connector reads of a request; the members of `extra` in their order. -/
structure MessagesRequest where
  model : Option String := none
  prompt : String ⊕ List Json
  systemPrompt : Option String := none
  extra : Option (List (String × Json)) := none

/-- What building a body throws: `MessagesApiValidationError`, or another error. -/
inductive BuildError
  | messagesApi (reason : String)
  | other (message : String)
  deriving DecidableEq

/-- A member of `extra`. -/
def MessagesRequest.extra? (request : MessagesRequest) (key : String) : Option Json :=
  request.extra.bind (List.lookup key)

/-- `MESSAGES_API_PASSTHROUGH_KEYS`. -/
def MESSAGES_API_PASSTHROUGH_KEYS : List String :=
  ["tools", "tool_choice", "system", "messages", "temperature", "top_p", "top_k", "stop_sequences",
    "metadata", "thinking", "output_config", "service_tier"]

/-- `readMessagesApi`. -/
def readMessagesApi (request : MessagesRequest) :
    Except BuildError (Option (List (String × Json))) :=
  match request.extra? "messages_api" with
  | none => .ok none
  | some raw =>
    match raw.members? with
    | none => .error (.messagesApi "it is not an object")
    | some members =>
      match members.find? fun member ↦ !MESSAGES_API_PASSTHROUGH_KEYS.contains member.1 with
      | some member =>
        .error (.messagesApi (stringify member.1 ++ " is not a passthrough field"))
      | none =>
        if (arrayMember raw "messages").isEmpty then
          .error (.messagesApi "messages must be a non-empty array")
        else .ok (some members)

/-- `PromptCacheRequestFields`. -/
structure PromptCacheRequestFields where
  session_id : Option String := none
  session_epoch : Option String := none
  prefix_hash : Option String := none
  deriving DecidableEq

/-- A field that names a session or a prefix. -/
def promptCacheField (raw : Json) (key : String) : Except BuildError (Option String) :=
  match raw.get? key with
  | none => .ok none
  | some (.str s) =>
    if s = "" ∨ 200 < utf16Length s then
      .error (.messagesApi ("extra.prompt_cache." ++ key ++
        " must be a non-empty string (max 200 chars)"))
    else .ok (some s)
  | some _ => .error (.messagesApi ("extra.prompt_cache." ++ key ++
      " must be a non-empty string (max 200 chars)"))

/-- `readPromptCacheFields`. -/
def readPromptCacheFields (request : MessagesRequest) :
    Except BuildError PromptCacheRequestFields :=
  match request.extra? "prompt_cache" with
  | none => .ok {}
  | some raw =>
    match raw.members? with
    | none => .error (.messagesApi "extra.prompt_cache is not an object")
    | some members => do
      let session_id ← promptCacheField raw "session_id"
      let session_epoch ← promptCacheField raw "session_epoch"
      let prefix_hash ← promptCacheField raw "prefix_hash"
      match members.find? fun member ↦
          !(["session_id", "session_epoch", "prefix_hash"].contains member.1) with
      | some member =>
        .error (.messagesApi ("extra.prompt_cache." ++ member.1 ++ " is not a known field"))
      | none => return { session_id, session_epoch, prefix_hash }

/-- `DEFAULT_MODEL`. -/
def DEFAULT_MODEL : String := "claude-sonnet-4-5"

/-- `DEFAULT_MAX_TOKENS`. -/
def DEFAULT_MAX_TOKENS : ℕ := 4096

/-- What stands for a value that is `null` or absent. -/
def presentOr (value : Option Json) (default : Json) : Json :=
  match value with
  | none | some .null => default
  | some v => v

/-- The URL of an image in a block. -/
def imageUrl (block : Json) : Option String :=
  (block.get? "image_url").bind fun image ↦ stringMember image "url"

/-- The media type and the data of a data URL of an image. -/
def dataUrl? (url : String) : Option (String × String) :=
  ["image/jpeg", "image/png", "image/gif", "image/webp"].findSome? fun mediaType ↦
    let head := ("data:" ++ mediaType ++ ";base64,").toList
    if head.isPrefixOf url.toList && decide (head.length < url.toList.length) then
      some (mediaType, String.ofList (url.toList.drop head.length))
    else none

/-- `mapContentBlock`. -/
def mapContentBlock (block : Json) : Except BuildError Json :=
  if stringMember block "type" = some "text" then .ok block
  else
    match (imageUrl block).bind dataUrl? with
    | none => .error (.other "Anthropic image prompts require a base64 data URL")
    | some (mediaType, data) =>
      .ok (.obj [("type", .str "image"), ("source", .obj [("type", .str "base64"),
        ("media_type", .str mediaType), ("data", .str data)])])

/-- The model of a body. -/
def MessagesRequest.modelOr (request : MessagesRequest) (default : String) : String :=
  match request.model with
  | none | some "" => default
  | some model => model

/-- The members every body has. -/
def MessagesRequest.head (request : MessagesRequest) : List (String × Json) :=
  [("model", .str (request.modelOr DEFAULT_MODEL)),
    ("max_tokens", presentOr (request.extra? "max_tokens") (.num (.ofNat DEFAULT_MAX_TOKENS)))]

/-- The content of the one message of a prompt. -/
def messageContent : String ⊕ List Json → Except BuildError Json
  | .inl text => .ok (.str text)
  | .inr blocks => (blocks.mapM mapContentBlock).map Json.arr

/-- `buildRequestBody`. -/
def buildRequestBody (request : MessagesRequest) : Except BuildError Json := do
  match ← readMessagesApi request with
  | some messagesApi => return .obj (request.head ++ messagesApi)
  | none =>
    let content ← messageContent request.prompt
    return .obj (request.head ++
      [("messages", .arr [.obj [("role", .str "user"), ("content", content)]])] ++
      (match request.systemPrompt with
        | none | some "" => []
        | some system => [("system", .str system)]) ++
      ["temperature", "stop_sequences", "tools", "tool_choice"].filterMap fun key ↦
        match request.extra? key with
        | none | some .null => none
        | some v => some (key, v))

/-- What the connector does with a request. -/
inductive GateOutcome
  /-- `refusal`. -/
  | refused (type message : String) (details : Option PromptCachePolicyDecision)
  /-- `super.execute`, and the decision that rides on its response. -/
  | base (promptCachePolicy : Option PromptCachePolicyDecision)
  /-- An error of the evaluator. -/
  | thrown (message : String)

/-- A call of the connector, with the tenant of its routing context. -/
structure GateCall where
  request : MessagesRequest
  tenantId : Option String
  decisionId : String := ""
  nowMs : ℕ := 0
  ts : ℤ := 0

/-- What is evaluated of a call. -/
def GateCall.evaluateCall (call : GateCall) (fields : PromptCacheRequestFields) (body : Json) :
    EvaluateCall where
  body
  ctx :=
    { tenantId := call.tenantId
      sessionId := fields.session_id
      sessionEpoch := fields.session_epoch
      prefixHashClaimed := fields.prefix_hash }
  decisionId := call.decisionId
  nowMs := call.nowMs

/-- The message of a refusal. -/
def refusalMessage (decision : PromptCachePolicyDecision) : String :=
  "Prompt-cache policy (" ++ decision.contract.1 ++ ", enforce) refused the request: " ++
    ", ".intercalate ((decision.findings.filter fun f ↦
      f.severity = .error || f.severity = .refusal).map fun f ↦
        f.code.text ++ "@" ++ f.layer.text) ++
    ". The gateway does not rewrite requests; fix the prefix or advance session_epoch explicitly."

/-- The fields and the body of a request, as far as they are read. -/
def readRequest (request : MessagesRequest) :
    Except BuildError (PromptCacheRequestFields × Json) := do
  let fields ← readPromptCacheFields request
  let body ← buildRequestBody request
  return (fields, body)

/-- `execute`, before and after `super.execute`. -/
def gate (sha256Text : String → String) (call : GateCall) (s : PromptCachePolicyService) :
    GateOutcome × PromptCachePolicyService :=
  match readRequest call.request with
  | .error (.messagesApi reason) =>
    (.refused "validation_error" ("extra.messages_api is invalid: " ++ reason) none, s)
  | .error (.other _) => (.base none, s)
  | .ok (fields, body) =>
    match s.evaluate sha256Text (call.evaluateCall fields body) call.ts with
    | (none, s) => (.base none, s)
    | (some (.error e), s) => (.thrown e, s)
    | (some (.ok decision), s) =>
      if decision.action = .refuse then
        (.refused "policy_violation" (refusalMessage decision) (some decision), s)
      else (.base (if decision.caching_claimed then some decision else none), s)

/-- The body that `super.execute` sends: it builds it once more. -/
def sentBody (sha256Text : String → String) (call : GateCall) (s : PromptCachePolicyService) :
    Option Json :=
  match (gate sha256Text call s).1 with
  | .base _ => (buildRequestBody call.request).toOption
  | _ => none

/-! ### Steps -/

/-- What is asked of the service. -/
inductive ServiceCall
  | execute (call : GateCall)
  | setMode (switch : PromptCachePolicyService.Switch)

/-- One call. -/
def serviceStep (sha256Text : String → String) (s : PromptCachePolicyService) :
    ServiceCall → Option PromptCachePolicyService
  | .execute call => some (gate sha256Text call s).2
  | .setMode switch => some (s.setMode switch).2

end ModelConnector.PromptCache
