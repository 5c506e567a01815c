import Mathlib.Data.List.AList
import ModelConnector.PromptCache.Layout

/-!
# The prompt cache policy

`evaluatePromptCachePolicy` looks at one request. It reports findings, of the request alone, of its
session and of the tenants that own the prefix and the session, and lets the request through or
refuses it by the worst of them. The store is written only for a request that is let through.
-/

namespace ModelConnector.PromptCache

/-! ### Findings -/

/-- Where a finding comes from. -/
inductive FindingSource
  | contract | gateway
  deriving DecidableEq

/-- `PolicyFinding`. -/
structure PolicyFinding where
  code : FindingCode
  severity : Severity
  scope : FindingScope
  source : FindingSource
  layer : FindingLayer
  detail : String
  deriving DecidableEq

/-- `contractFinding`. -/
def contractFinding (code : FindingCode) (layer : FindingLayer) (detail : String) :
    PolicyFinding where
  code
  severity := code.severity
  scope := code.scope
  source := .contract
  layer
  detail

/-- `gatewayFinding`. -/
def gatewayFinding (code : FindingCode) (layer : FindingLayer) (detail : String) :
    PolicyFinding where
  code
  severity := code.severity
  scope := code.scope
  source := .gateway
  layer
  detail

/-- `JSON.stringify` of a string. -/
def stringify (s : String) : String :=
  String.ofList (Json.quote s)

/-- The rank of a TTL. -/
def ttlRank (ttl : String) : Option ℕ :=
  if ttl = "1h" then some 2 else if ttl = "5m" then some 1 else none

/-- A breakpoint of an hour after one of five minutes. -/
def ttlOrder : List (FindingLayer × ℕ) → List PolicyFinding
  | prev :: cur :: rest =>
    (if prev.2 < cur.2 then
      [contractFinding .TTL_ORDER cur.1 (cur.1.text ++ " ttl 1h follows " ++ prev.1.text ++
        " ttl 5m (1h blocks must precede 5m blocks)")] else []) ++ ttlOrder (cur :: rest)
  | _ => []

/-- The names of the tools that have one. -/
def toolNames (tools : List Json) : List String :=
  tools.filterMap fun tool ↦ stringMember tool "name"

/-- The text of a layer that is scanned. -/
def PrefixText.layers (text : PrefixText) : List (FindingLayer × String) :=
  [(.L0, text.L0), (.L1, text.L1), (.L2, text.L2), (.L3, text.L3)]

/-- The findings of the scan rules. -/
def scanFindings (contract : PromptLayoutContract) (text : PrefixText) : List PolicyFinding :=
  contract.scanRules.flatMap fun rule ↦
    (text.layers.filter fun (layer, text) ↦
      (rule.code ≠ .DYN_UUID || layer ≠ .L3) && text ≠ "").flatMap fun (layer, text) ↦
        rule.patterns.zipIdx.filterMap fun (pattern, index) ↦
          if pattern text then
            some (contractFinding rule.code layer ("pattern #" ++ toString index ++ " of " ++
              rule.code.text ++ " matched in " ++ layer.text))
          else none

/-- The findings of the secret patterns after the last breakpoint. -/
def secretTailFindings (contract : PromptLayoutContract) (L4 : List Json) : List PolicyFinding :=
  match contract.scanRules.find? (·.code = .SECRET_IN_PREFIX) with
  | none => []
  | some rule =>
    if L4.isEmpty then []
    else rule.patterns.zipIdx.filterMap fun (pattern, index) ↦
      if pattern (deepText (.arr L4)) then
        some (contractFinding .SECRET_IN_TAIL .L4 ("secret pattern #" ++ toString index ++
          " after the last breakpoint (not cached; must not be there either)"))
      else none

/-- `requestFindings`. -/
def requestFindings (contract : PromptLayoutContract) (d : Derivation)
    (resolved : Option (String × ℕ)) : List PolicyFinding :=
  (if d.systemIsString then
    [contractFinding .SYSTEM_NOT_BLOCKS .L1 "system is a string; breakpoints cannot be placed"]
    else []) ++
  (d.missing.map fun layer ↦ contractFinding .MISSING_BREAKPOINT layer
    ("end of " ++ layer.text ++ " carries no cache_control")) ++
  (if contract.maxExplicitBreakpoints < d.explicitTotal then
    [contractFinding .BREAKPOINT_EXCESS .request (toString d.explicitTotal ++
      " explicit breakpoints > " ++ toString contract.maxExplicitBreakpoints)] else []) ++
  (if 0 < d.toolCc then
    [contractFinding .BREAKPOINT_MISPLACED .L0 (toString d.toolCc ++
      " tool definition(s) carry cache_control")] else []) ++
  (d.misplaced.map fun detail ↦ contractFinding .BREAKPOINT_MISPLACED .L3 detail) ++
  (if 0 < d.l4NotLast then
    [contractFinding .L4_BREAKPOINT_NOT_LAST .L4 (toString d.l4Breakpoints ++
      " L4 breakpoint(s); " ++ toString d.l4NotLast ++
        " not on the last content block of the last message")] else []) ++
  (d.breakpoints.filterMap fun bp ↦ bp.ttl.bind fun ttl ↦
    if contract.ttlValues.contains ttl then none
    else some (contractFinding .TTL_INVALID bp.layer ("ttl " ++ stringify ttl ++ " not in " ++
      "/".intercalate contract.ttlValues))) ++
  ttlOrder (d.breakpoints.filterMap fun bp ↦ (bp.ttl.bind ttlRank).map (bp.layer, ·)) ++
  (match resolved with
    | none => [contractFinding .MODEL_UNKNOWN .request
        "model not in the contract table; minimum prefix unknown"]
    | some (modelKey, minPrefix) =>
      if d.estPrefixTokens < minPrefix then
        [contractFinding .PREFIX_BELOW_MINIMUM .wholePrefix ("est_tokens_chars4=" ++
          toString d.estPrefixTokens ++ " < " ++ toString minPrefix ++ " for " ++ modelKey ++
            " (silently uncached)")]
      else []) ++
  (d.nonText.map fun (layer, type) ↦ contractFinding .NON_TEXT_IN_PREFIX layer
    ("block type " ++ stringify type ++ " inside the stable prefix")) ++
  ((toolNames d.L0).eraseDups.filterMap fun name ↦
    let count := (toolNames d.L0).count name
    if 1 < count then
      some (contractFinding .TOOL_DUPLICATE .L0
        ("tool " ++ stringify name ++ " defined " ++ toString count ++ " times"))
    else none) ++
  scanFindings contract d.prefixText ++
  secretTailFindings contract d.L4

/-! ### Sessions -/

/-- The definitions of the tools by name, and the names in order. -/
structure ToolDefs where
  defs : AList fun _ : String ↦ String
  order : List String

/-- The name a tool is recorded under. -/
def toolName (tool : Json) (index : ℕ) : String :=
  (stringMember tool "name").getD ("#" ++ toString index)

/-- The names the tools are recorded under. -/
def toolOrder (tools : List Json) : List String :=
  tools.zipIdx.map fun (tool, index) ↦ toolName tool index

/-- `toolDefs`. -/
def toolDefs (tools : List Json) : Except String ToolDefs := do
  let texts ← tools.mapM fun tool ↦ canonicalText (stripCacheControl tool)
  return {
    defs := ((toolOrder tools).zip texts).foldl (fun defs (name, text) ↦ defs.insert name text) ∅
    order := toolOrder tools }

/-- `paramsSignature`. -/
def paramsSignature (req : Json) : Except String String :=
  canonicalText (.obj [("tool_choice", (req.get? "tool_choice").getD .null),
    ("thinking", (req.get? "thinking").getD .null),
    ("effort", (((req.get? "output_config").bind fun config ↦ config.get? "effort").getD .null))])

/-- `messageDigests`. -/
def messageDigests (req : Json) : Except String (List String) :=
  (arrayMember req "messages").mapM fun message ↦ canonicalText (stripCacheControl message)

/-- `sameDefs`. -/
def sameDefs (a b : AList fun _ : String ↦ String) : Bool :=
  a.entries.length = b.entries.length && a.entries.all fun entry ↦ b.lookup entry.1 = some entry.2

/-- `SessionBaseline`. -/
structure SessionBaseline where
  epoch : Option String
  model : Option String
  tools : ToolDefs
  layerHashes : LayerHashes
  paramsSig : String

/-- `SessionSnapshot`. -/
structure SessionSnapshot where
  baseline : SessionBaseline
  lastPrefixHash : String
  lastLayerHashes : LayerHashes
  lastMessages : List String
  requestCount : ℕ
  firstSeenMs : ℕ
  lastSeenMs : ℕ

/-- `sessionFindings`. -/
def sessionFindings (model : Option String) (tools : ToolDefs) (hashes : LayerHashes)
    (params : String) (baseline : SessionBaseline) (index : ℕ) : List PolicyFinding :=
  let request := "request " ++ toString index ++ ": "
  (if model ≠ baseline.model then
    [contractFinding .SESSION_MODEL_CHANGED .request (request ++
      "model differs from the session's first request (no session_epoch given)")] else []) ++
  (if !sameDefs tools.defs baseline.tools.defs then
    [contractFinding .SESSION_TOOLS_CHANGED .L0 (request ++ "tool set or a tool definition " ++
      "differs from the first request (no session_epoch given)")]
  else if " ".intercalate tools.order ≠ " ".intercalate baseline.tools.order then
    [contractFinding .TOOL_ORDER_NONDETERMINISTIC .L0 (request ++ "same tools, different order")]
  else []) ++
  (if hashes.L1 ≠ baseline.layerHashes.L1 then
    [contractFinding .SESSION_SYSTEM_CHANGED .L1 (request ++
      "L1 hash differs from the first request (no session_epoch given)")] else []) ++
  (if hashes.L2 ≠ baseline.layerHashes.L2 then
    [contractFinding .SESSION_SYSTEM_CHANGED .L2 (request ++
      "L2 hash differs from the first request (no session_epoch given)")] else []) ++
  (if hashes.L3 ≠ baseline.layerHashes.L3 then
    [contractFinding .SESSION_L3_CHANGED .L3 (request ++
      "L3 hash differs from the first request (no session_epoch given)")] else []) ++
  (if params ≠ baseline.paramsSig then
    [contractFinding .PARAMS_CHANGED .request (request ++ "tool_choice/thinking/effort differ " ++
      "from the first request (messages-level invalidation)")] else [])

/-- The first position at which a list is not continued. -/
def firstRewritten : List String → List String → ℕ → Option ℕ
  | p :: previous, c :: current, i =>
    if p ≠ c then some i else firstRewritten previous current (i + 1)
  | _, _, _ => none

/-- `appendOnlyFinding`. -/
def appendOnlyFinding (previous current : List String) (index : ℕ) : Option PolicyFinding :=
  let request := "request " ++ toString index ++ ": "
  if current.length < previous.length then
    some (contractFinding .L4_NOT_APPEND_ONLY .L4 (request ++ "previous messages (" ++
      toString previous.length ++ ") are not a prefix of current (" ++ toString current.length ++
        ")"))
  else (firstRewritten previous current 0).map fun i ↦
    contractFinding .L4_NOT_APPEND_ONLY .L4 (request ++ "message " ++ toString i ++
      " was rewritten")

/-! ### Verdict and action -/

inductive ActiveMode
  | observe | enforce
  deriving DecidableEq

inductive PolicyVerdict
  | CONFORMANT | VIOLATION | UNDETERMINED | NOT_CLAIMED
  deriving DecidableEq

inductive PolicyAction
  | pass | mark | refuse
  deriving DecidableEq

/-- `verdictOf`. -/
def verdictOf (findings : List PolicyFinding) : PolicyVerdict :=
  if findings.any fun f ↦ f.severity = .refusal || f.severity = .error then .VIOLATION
  else if findings.any (·.severity = .undetermined) then .UNDETERMINED
  else .CONFORMANT

/-- `actionOf`. -/
def actionOf (mode : ActiveMode) : PolicyVerdict → PolicyAction
  | .NOT_CLAIMED | .CONFORMANT => .pass
  | .UNDETERMINED => .mark
  | .VIOLATION => if mode = .enforce then .refuse else .mark

/-! ### The store -/

structure Owner where
  tenantId : String
  atMs : ℕ

/-- The limits of `InMemoryPolicyStore`. -/
structure StoreOptions where
  sessionIdleMs : ℕ := 2 * 60 * 60000
  maxSessions : ℕ := 10000
  maxOwners : ℕ := 50000

/-- `InMemoryPolicyStore`. The entries of a map stand with the newest first. -/
structure PolicyStore where
  sessions : AList (fun _ : String ↦ SessionSnapshot) := ∅
  prefixOwners : AList (fun _ : String ↦ Owner) := ∅
  sessionOwners : AList (fun _ : String ↦ Owner) := ∅

/-- The newest entries of a map. -/
def newest {α : Type} (n : ℕ) (m : AList fun _ : String ↦ α) : AList fun _ : String ↦ α where
  entries := m.entries.take n
  nodupKeys := m.nodupKeys.sublist (List.take_sublist n _)

/-- Claim a key for a tenant, unless it has an owner, and forget the oldest ones. -/
def claim (maxOwners : ℕ) (owners : AList fun _ : String ↦ Owner) (key tenantId : String)
    (nowMs : ℕ) : AList fun _ : String ↦ Owner :=
  if (owners.lookup key).isSome then owners
  else newest maxOwners (owners.insert key ⟨tenantId, nowMs⟩)

namespace PolicyStore

/-- `getSession`. -/
def getSession (s : PolicyStore) (key : String) : Option SessionSnapshot :=
  s.sessions.lookup key

/-- `sweepSessions`. -/
def sweepSessions (options : StoreOptions) (nowMs : ℕ) (s : PolicyStore) : PolicyStore :=
  let live : AList fun _ : String ↦ SessionSnapshot :=
    { entries := s.sessions.entries.filter fun entry ↦
        decide ((nowMs : ℤ) - entry.2.lastSeenMs ≤ options.sessionIdleMs)
      nodupKeys := s.sessions.nodupKeys.sublist List.filter_sublist }
  { s with sessions := newest options.maxSessions live }

/-- `setSession`. -/
def setSession (options : StoreOptions) (key : String) (snapshot : SessionSnapshot)
    (s : PolicyStore) : PolicyStore :=
  let s := { s with sessions := s.sessions.insert key snapshot }
  if options.maxSessions < s.sessions.entries.length then
    s.sweepSessions options snapshot.lastSeenMs
  else s

/-- `prefixOwner`. -/
def prefixOwner (s : PolicyStore) (prefixHash : String) : Option String :=
  (s.prefixOwners.lookup prefixHash).map Owner.tenantId

/-- `claimPrefix`. -/
def claimPrefix (options : StoreOptions) (prefixHash tenantId : String) (nowMs : ℕ)
    (s : PolicyStore) : PolicyStore :=
  { s with prefixOwners := claim options.maxOwners s.prefixOwners prefixHash tenantId nowMs }

/-- `sessionOwner`. -/
def sessionOwner (s : PolicyStore) (sessionId : String) : Option String :=
  (s.sessionOwners.lookup sessionId).map Owner.tenantId

/-- `claimSession`. -/
def claimSession (options : StoreOptions) (sessionId tenantId : String) (nowMs : ℕ)
    (s : PolicyStore) : PolicyStore :=
  { s with sessionOwners := claim options.maxOwners s.sessionOwners sessionId tenantId nowMs }

end PolicyStore

/-! ### Evaluation -/

/-- `PolicyContext`. -/
structure PolicyContext where
  tenantId : Option String
  sessionId : Option String := none
  sessionEpoch : Option String := none
  prefixHashClaimed : Option String := none

/-- The baseline a decision was made against. -/
inductive BaselineKind
  | none | new | kept | epoch_advanced
  deriving DecidableEq

/-- `SessionDecision`. -/
structure SessionDecision where
  id : Option String := none
  epoch : Option String := none
  request_index : ℕ := 0
  baseline : BaselineKind := .none
  prefix_changed : Bool := false
  changed_layers : List FindingLayer := []

/-- `PromptCachePolicyDecision`, its time apart. -/
structure PromptCachePolicyDecision where
  decision_id : String
  contract : String × String
  mode : ActiveMode
  tenant : String
  caching_claimed : Bool
  verdict : PolicyVerdict
  action : PolicyAction
  findings : List PolicyFinding
  not_evaluated : List String := ["L3_GRAMMAR", "L3_KEY_NOT_ALLOWED", "DYN_UUID@L3"]
  model : Option String
  model_resolved : Option String := none
  min_prefix_tokens : Option ℕ := none
  est_prefix_tokens : Option ℕ := none
  prefix_hash : Option String := none
  layer_hashes : Option LayerHashes := none
  cache_identity : Option String := none
  prewarm : Bool
  session : SessionDecision := {}

/-- `EvaluateOptions`, and the limits of the store. -/
structure EvaluateOptions where
  contract : PromptLayoutContract
  mode : ActiveMode
  limits : StoreOptions := {}

/-- A call of the evaluator. -/
structure EvaluateCall where
  body : Json
  ctx : PolicyContext
  decisionId : String := ""
  nowMs : ℕ := 0

/-- `UNATTRIBUTED_TENANT`. -/
def UNATTRIBUTED_TENANT : String := "unattributed"

/-- The tenant a request is evaluated under. -/
def PolicyContext.tenant (ctx : PolicyContext) : String :=
  ctx.tenantId.getD UNATTRIBUTED_TENANT

/-- The key of a session. -/
def sessionKey (tenant sessionId : String) : String :=
  tenant ++ " " ++ sessionId

/-- `cachingClaimed`. -/
def cachingClaimed (req : Json) (ctx : PolicyContext) : Bool :=
  ctx.prefixHashClaimed.isSome || (arrayMember req "tools").any hasCacheControl ||
    (arrayMember req "system").any hasCacheControl ||
    (arrayMember req "messages").any fun message ↦
      (arrayMember message "content").any hasCacheControl

/-- What is found of a request in its session, what is decided of it, and the next snapshot. -/
structure SessionEvaluation where
  findings : List PolicyFinding := []
  decision : SessionDecision := {}
  next : Option SessionSnapshot := none

/-- The session of a request that its tenant may use. -/
def evaluateSession (call : EvaluateCall) (model : Option String) (d : Derivation)
    (sessionId : String) (previous : Option SessionSnapshot) : Except String SessionEvaluation := do
  let messages ← messageDigests call.body
  let tools ← toolDefs d.L0
  let params ← paramsSignature call.body
  let epochAdvanced := previous.any fun previous ↦
    call.ctx.sessionEpoch.isSome && call.ctx.sessionEpoch ≠ previous.baseline.epoch
  let index := previous.elim 0 SessionSnapshot.requestCount
  let fresh : SessionBaseline := ⟨call.ctx.sessionEpoch, model, tools, d.layerHashes, params⟩
  let kept := if epochAdvanced then none else previous
  let baseline := kept.elim fresh SessionSnapshot.baseline
  return {
    findings := kept.elim [] fun previous ↦
      sessionFindings model tools d.layerHashes params previous.baseline index ++
        (appendOnlyFinding previous.lastMessages messages index).toList
    decision := {
      id := some sessionId
      epoch := baseline.epoch
      request_index := index
      baseline := if previous.isNone then .new else if epochAdvanced then .epoch_advanced else .kept
      prefix_changed := previous.any (·.lastPrefixHash ≠ d.prefixHash)
      changed_layers := previous.elim [] fun previous ↦
        [(FindingLayer.L0, previous.lastLayerHashes.L0, d.layerHashes.L0),
          (.L1, previous.lastLayerHashes.L1, d.layerHashes.L1),
          (.L2, previous.lastLayerHashes.L2, d.layerHashes.L2),
          (.L3, previous.lastLayerHashes.L3, d.layerHashes.L3)].filterMap fun (layer, last, now) ↦
            if last ≠ now then some layer else none }
    next := some {
      baseline
      lastPrefixHash := d.prefixHash
      lastLayerHashes := d.layerHashes
      lastMessages := messages
      requestCount := index + 1
      firstSeenMs := previous.elim call.nowMs SessionSnapshot.firstSeenMs
      lastSeenMs := call.nowMs } }

section Evaluate

variable (sha256Text : String → String) (options : EvaluateOptions)

/-- A decision without an evaluation. -/
def unevaluated (call : EvaluateCall) (caching_claimed : Bool) (verdict : PolicyVerdict)
    (action : PolicyAction) (findings : List PolicyFinding) (model : Option String)
    (prewarm : Bool) : PromptCachePolicyDecision where
  decision_id := call.decisionId
  contract := (options.contract.id, options.contract.digest)
  mode := options.mode
  tenant := call.ctx.tenant
  caching_claimed
  verdict
  action
  findings
  model
  prewarm

/-- The findings of the request and of the tenants that own its prefix. -/
def prefixFindings (call : EvaluateCall) (resolved : Option (String × ℕ)) (d : Derivation)
    (store : PolicyStore) : List PolicyFinding :=
  requestFindings options.contract d resolved ++
  (if call.ctx.tenantId.isNone then
    [gatewayFinding .TENANT_UNATTRIBUTED .request "no routing context carried a tenant"]
    else []) ++
  (match call.ctx.prefixHashClaimed with
    | none => []
    | some claimed =>
      if claimed ≠ d.prefixHash then
        [gatewayFinding .PREFIX_HASH_CONFLICT .wholePrefix ("claimed " ++
          String.ofList (claimed.toList.take 23) ++ " differs from computed " ++
            String.ofList (d.prefixHash.toList.take 23))]
      else []) ++
  (if (store.prefixOwner d.prefixHash).any (· ≠ call.ctx.tenant) then
    [gatewayFinding .CROSS_TENANT_PREFIX .wholePrefix
      "prefix_hash first cached under another tenant"]
    else [])

/-- The session rules. -/
def evaluateSessionOf (call : EvaluateCall) (model : Option String) (d : Derivation)
    (store : PolicyStore) : Except String SessionEvaluation :=
  match call.ctx.sessionId with
  | none => .ok {}
  | some sessionId =>
    if (store.sessionOwner sessionId).any (· ≠ call.ctx.tenant) then
      .ok {
        findings := [gatewayFinding .SESSION_TENANT_MISMATCH .session
          "session_id is owned by another tenant"]
        decision := { id := some sessionId, epoch := call.ctx.sessionEpoch } }
    else evaluateSession call model d sessionId
      (store.getSession (sessionKey call.ctx.tenant sessionId))

/-- What is written of a request that is let through. -/
def record (call : EvaluateCall) (d : Derivation) (next : Option SessionSnapshot)
    (store : PolicyStore) : PolicyStore :=
  let store := store.claimPrefix options.limits d.prefixHash call.ctx.tenant call.nowMs
  match call.ctx.sessionId, next with
  | some sessionId, some snapshot =>
    (store.claimSession options.limits sessionId call.ctx.tenant call.nowMs).setSession
      options.limits (sessionKey call.ctx.tenant sessionId) snapshot
  | _, _ => store

/-- The decision on a request whose layers are derived. -/
def derivedDecision (call : EvaluateCall) (model : Option String) (prewarm : Bool) (d : Derivation)
    (findings : List PolicyFinding) (session : SessionDecision) : PromptCachePolicyDecision :=
  let resolved := resolveContractModel options.contract model
  { decision_id := call.decisionId
    contract := (options.contract.id, options.contract.digest)
    mode := options.mode
    tenant := call.ctx.tenant
    caching_claimed := true
    verdict := verdictOf findings
    action := actionOf options.mode (verdictOf findings)
    findings
    model
    model_resolved := resolved.map Prod.fst
    min_prefix_tokens := resolved.map Prod.snd
    est_prefix_tokens := some d.estPrefixTokens
    prefix_hash := some d.prefixHash
    layer_hashes := some d.layerHashes
    cache_identity := some (sha256Text (call.ctx.tenant ++ "\n" ++ d.prefixHash))
    prewarm
    session }

/-- A request whose layers are derived. -/
def evaluateDerived (call : EvaluateCall) (model : Option String) (prewarm : Bool)
    (d : Derivation) (store : PolicyStore) :
    Except String PromptCachePolicyDecision × PolicyStore :=
  match evaluateSessionOf call model d store with
  | .error e => (.error e, store)
  | .ok session =>
    let findings := prefixFindings options call (resolveContractModel options.contract model) d
      store ++ session.findings
    let decision :=
      derivedDecision sha256Text options call model prewarm d findings session.decision
    (.ok decision,
      if decision.action = .refuse then store else record options call d session.next store)

/-- `evaluatePromptCachePolicy`. -/
def evaluatePromptCachePolicy (call : EvaluateCall) (store : PolicyStore) :
    Except String PromptCachePolicyDecision × PolicyStore :=
  if !call.body.isRecord then
    (.ok (unevaluated options call false .UNDETERMINED .mark
      [gatewayFinding .REQUEST_UNREADABLE .request "body is not an object"] none false), store)
  else
    let model := stringMember call.body "model"
    let prewarm := (call.body.get? "max_tokens").any fun v ↦
      match v with
      | .num n => n = .ofNat 0
      | _ => false
    if !cachingClaimed call.body call.ctx then
      (.ok (unevaluated options call false .NOT_CLAIMED .pass [] model prewarm), store)
    else
      match derive sha256Text call.body with
      | .error message =>
        (.ok (unevaluated options call true .UNDETERMINED .mark
          [gatewayFinding .REQUEST_UNREADABLE .request message] model prewarm), store)
      | .ok d => evaluateDerived sha256Text options call model prewarm d store

/-- One call, as a step of the store. -/
def evaluateStep (store : PolicyStore) (call : EvaluateCall) : Option PolicyStore :=
  some (evaluatePromptCachePolicy sha256Text options call store).2

end Evaluate

/-! ### What an evaluation does -/

section Spec

variable {sha256Text : String → String} {options : EvaluateOptions} {call : EvaluateCall}
  {store : PolicyStore}

/-- A request whose layers are derived is let through and recorded. -/
structure Recorded (sha256Text : String → String) (options : EvaluateOptions) (call : EvaluateCall)
    (store : PolicyStore) (d : Derivation) (session : SessionEvaluation)
    (decision : PromptCachePolicyDecision) : Prop where
  derived : derive sha256Text call.body = .ok d
  evaluated : evaluateSessionOf call (stringMember call.body "model") d store = .ok session
  findings_eq : decision.findings = prefixFindings options call
    (resolveContractModel options.contract (stringMember call.body "model")) d store ++
      session.findings
  action_eq : decision.action = actionOf options.mode (verdictOf decision.findings)
  passed : decision.action ≠ .refuse
  tenant_eq : decision.tenant = call.ctx.tenant
  model_eq : decision.model = stringMember call.body "model"
  prefix_hash_eq : decision.prefix_hash = some d.prefixHash
  session_eq : decision.session = session.decision
  caching_claimed : decision.caching_claimed = true
  result : evaluatePromptCachePolicy sha256Text options call store =
    (.ok decision, record options call d session.next store)

/-- A request changes nothing, and is then refused, failed or not evaluated, or it is recorded. -/
theorem evaluate_cases (sha256Text : String → String) (options : EvaluateOptions)
    (call : EvaluateCall) (store : PolicyStore) :
    ((evaluatePromptCachePolicy sha256Text options call store).2 = store ∧
      ∀ decision, (evaluatePromptCachePolicy sha256Text options call store).1 = .ok decision →
        decision.action = .refuse ∨ (decision.session = {} ∧ decision.prefix_hash = none ∧
          (decision.caching_claimed = true → (derive sha256Text call.body).isOk = false))) ∨
    ∃ d session decision, Recorded sha256Text options call store d session decision := by
  cases hrecord : call.body.isRecord with
  | false =>
    refine .inl ⟨by simp [evaluatePromptCachePolicy, hrecord], fun decision hdecision ↦ .inr ?_⟩
    simp only [evaluatePromptCachePolicy, hrecord, Bool.not_false, if_true, Except.ok.injEq]
      at hdecision
    subst hdecision
    exact ⟨rfl, rfl, fun h ↦ by cases h⟩
  | true =>
    cases hclaimed : cachingClaimed call.body call.ctx with
    | false =>
      refine .inl ⟨by simp [evaluatePromptCachePolicy, hrecord, hclaimed],
        fun decision hdecision ↦ .inr ?_⟩
      simp only [evaluatePromptCachePolicy, hrecord, hclaimed, Bool.not_false, Bool.not_true,
        Bool.false_eq_true, if_true, if_false, Except.ok.injEq] at hdecision
      subst hdecision
      exact ⟨rfl, rfl, fun h ↦ by cases h⟩
    | true =>
      cases hderive : derive sha256Text call.body with
      | error message =>
        refine .inl ⟨by simp [evaluatePromptCachePolicy, hrecord, hclaimed, hderive],
          fun decision hdecision ↦ .inr ?_⟩
        simp only [evaluatePromptCachePolicy, hrecord, hclaimed, hderive, Bool.not_true,
          Bool.false_eq_true, if_false, Except.ok.injEq] at hdecision
        subst hdecision
        exact ⟨rfl, rfl, fun _ ↦ rfl⟩
      | ok d =>
        have heq : ∃ prewarm, evaluatePromptCachePolicy sha256Text options call store =
            evaluateDerived sha256Text options call (stringMember call.body "model") prewarm d
              store := by
          simp only [evaluatePromptCachePolicy, hrecord, hclaimed, hderive, Bool.not_true,
            Bool.false_eq_true, if_false]
          exact ⟨_, rfl⟩
        obtain ⟨prewarm, heq⟩ := heq
        cases hsession : evaluateSessionOf call (stringMember call.body "model") d store with
        | error e =>
          refine .inl ⟨by simp [heq, evaluateDerived, hsession], fun decision hdecision ↦ ?_⟩
          simp [heq, evaluateDerived, hsession] at hdecision
        | ok session =>
          obtain ⟨decision, hdecision, hresult⟩ : ∃ decision, decision =
              derivedDecision sha256Text options call (stringMember call.body "model") prewarm d
                (prefixFindings options call (resolveContractModel options.contract
                  (stringMember call.body "model")) d store ++ session.findings) session.decision ∧
              evaluatePromptCachePolicy sha256Text options call store = (.ok decision,
                if decision.action = .refuse then store
                else record options call d session.next store) :=
            ⟨_, rfl, by simp only [heq, evaluateDerived, hsession]⟩
          rw [hresult]
          by_cases hrefused : decision.action = .refuse
          · refine .inl ⟨by simp [hrefused], fun other hother ↦ .inl ?_⟩
            exact Except.ok.inj hother ▸ hrefused
          · rw [if_neg hrefused] at hresult
            have hfields := congrArg PromptCachePolicyDecision.findings hdecision
            exact .inr ⟨d, session, decision, hderive, hsession, hfields,
              by rw [hfields, hdecision, derivedDecision], hrefused,
              by rw [hdecision, derivedDecision],
              by rw [hdecision, derivedDecision], by rw [hdecision, derivedDecision],
              by rw [hdecision, derivedDecision], by rw [hdecision, derivedDecision], hresult⟩

/-- In enforce mode no finding of a request that is let through is an error or a refusal. -/
theorem Recorded.severity_ne {d : Derivation} {session : SessionEvaluation}
    {decision : PromptCachePolicyDecision}
    (h : Recorded sha256Text options call store d session decision)
    (hmode : options.mode = .enforce) {finding : PolicyFinding}
    (hfinding : finding ∈ decision.findings) :
    finding.severity ≠ .refusal ∧ finding.severity ≠ .error := by
  by_contra hbad
  have hany : (decision.findings.any fun f ↦ f.severity = .refusal || f.severity = .error) = true :=
    List.any_eq_true.2 ⟨finding, hfinding, by
      simpa [or_iff_not_imp_left] using hbad⟩
  exact h.passed (by rw [h.action_eq, verdictOf, if_pos hany, actionOf, if_pos hmode])

end Spec

end ModelConnector.PromptCache
