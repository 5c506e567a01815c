import ModelConnector.Foundations.Json

/-!
# The layout of a prompt

A Messages API body is cut into the layers of the prompt layout contract: the tools (L0), up to
three closed partitions of the system blocks (L1 to L3, the last one perhaps at the head of the
first message), and the messages that remain (L4). `derive` fails where the tools or a layer have no
canonical text.

An object with a member `toString` cannot be converted to a string, and a copy made member by
member has no member `__proto__`: both are as the language has it.
-/

namespace ModelConnector.PromptCache

/-! ### The contract -/

/-- The layer a finding is about. -/
inductive FindingLayer
  | L0 | L1 | L2 | L3 | L4
  | wholePrefix
  | request
  | session
  deriving DecidableEq

/-- `FindingLayer`, as text. -/
def FindingLayer.text : FindingLayer → String
  | .L0 => "L0"
  | .L1 => "L1"
  | .L2 => "L2"
  | .L3 => "L3"
  | .L4 => "L4"
  | .wholePrefix => "prefix"
  | .request => "request"
  | .session => "session"

/-- `ContractSeverity`. -/
inductive Severity
  | refusal | error | undetermined | warning
  deriving DecidableEq

/-- `FindingScope`. -/
inductive FindingScope
  | request | session | gateway
  deriving DecidableEq

/-- The codes of the findings. -/
inductive FindingCode
  | SYSTEM_NOT_BLOCKS | MISSING_BREAKPOINT | BREAKPOINT_EXCESS | BREAKPOINT_MISPLACED
  | L4_BREAKPOINT_NOT_LAST | TTL_INVALID | TTL_ORDER | PREFIX_BELOW_MINIMUM | MODEL_UNKNOWN
  | NON_TEXT_IN_PREFIX | TOOL_DUPLICATE
  | DYN_TIMESTAMP | DYN_UUID | DYN_COUNTER | DYN_ENV | SESSION_ID_IN_PREFIX | FEATURE_FLAG_IN_PREFIX
  | USER_IDENTITY_IN_PREFIX | TENANT_IN_PREFIX | SECRET_IN_PREFIX | SECRET_IN_TAIL
  | SESSION_MODEL_CHANGED | SESSION_TOOLS_CHANGED | TOOL_ORDER_NONDETERMINISTIC
  | SESSION_SYSTEM_CHANGED | SESSION_L3_CHANGED | L4_NOT_APPEND_ONLY | PARAMS_CHANGED
  | CROSS_TENANT_PREFIX | SESSION_TENANT_MISMATCH | PREFIX_HASH_CONFLICT | TENANT_UNATTRIBUTED
  | REQUEST_UNREADABLE
  deriving DecidableEq

/-- A code, as text. -/
def FindingCode.text : FindingCode → String
  | .SYSTEM_NOT_BLOCKS => "SYSTEM_NOT_BLOCKS"
  | .MISSING_BREAKPOINT => "MISSING_BREAKPOINT"
  | .BREAKPOINT_EXCESS => "BREAKPOINT_EXCESS"
  | .BREAKPOINT_MISPLACED => "BREAKPOINT_MISPLACED"
  | .L4_BREAKPOINT_NOT_LAST => "L4_BREAKPOINT_NOT_LAST"
  | .TTL_INVALID => "TTL_INVALID"
  | .TTL_ORDER => "TTL_ORDER"
  | .PREFIX_BELOW_MINIMUM => "PREFIX_BELOW_MINIMUM"
  | .MODEL_UNKNOWN => "MODEL_UNKNOWN"
  | .NON_TEXT_IN_PREFIX => "NON_TEXT_IN_PREFIX"
  | .TOOL_DUPLICATE => "TOOL_DUPLICATE"
  | .DYN_TIMESTAMP => "DYN_TIMESTAMP"
  | .DYN_UUID => "DYN_UUID"
  | .DYN_COUNTER => "DYN_COUNTER"
  | .DYN_ENV => "DYN_ENV"
  | .SESSION_ID_IN_PREFIX => "SESSION_ID_IN_PREFIX"
  | .FEATURE_FLAG_IN_PREFIX => "FEATURE_FLAG_IN_PREFIX"
  | .USER_IDENTITY_IN_PREFIX => "USER_IDENTITY_IN_PREFIX"
  | .TENANT_IN_PREFIX => "TENANT_IN_PREFIX"
  | .SECRET_IN_PREFIX => "SECRET_IN_PREFIX"
  | .SECRET_IN_TAIL => "SECRET_IN_TAIL"
  | .SESSION_MODEL_CHANGED => "SESSION_MODEL_CHANGED"
  | .SESSION_TOOLS_CHANGED => "SESSION_TOOLS_CHANGED"
  | .TOOL_ORDER_NONDETERMINISTIC => "TOOL_ORDER_NONDETERMINISTIC"
  | .SESSION_SYSTEM_CHANGED => "SESSION_SYSTEM_CHANGED"
  | .SESSION_L3_CHANGED => "SESSION_L3_CHANGED"
  | .L4_NOT_APPEND_ONLY => "L4_NOT_APPEND_ONLY"
  | .PARAMS_CHANGED => "PARAMS_CHANGED"
  | .CROSS_TENANT_PREFIX => "CROSS_TENANT_PREFIX"
  | .SESSION_TENANT_MISMATCH => "SESSION_TENANT_MISMATCH"
  | .PREFIX_HASH_CONFLICT => "PREFIX_HASH_CONFLICT"
  | .TENANT_UNATTRIBUTED => "TENANT_UNATTRIBUTED"
  | .REQUEST_UNREADABLE => "REQUEST_UNREADABLE"

/-- The severities of the contract, and of the codes of the gateway. -/
def FindingCode.severity : FindingCode → Severity
  | .SECRET_IN_PREFIX | .SESSION_TENANT_MISMATCH => .refusal
  | .MODEL_UNKNOWN | .REQUEST_UNREADABLE => .undetermined
  | .SECRET_IN_TAIL | .PARAMS_CHANGED | .PREFIX_HASH_CONFLICT | .TENANT_UNATTRIBUTED => .warning
  | _ => .error

/-- The scopes of the contract, and of the codes of the gateway. -/
def FindingCode.scope : FindingCode → FindingScope
  | .SESSION_MODEL_CHANGED | .SESSION_TOOLS_CHANGED | .TOOL_ORDER_NONDETERMINISTIC
  | .SESSION_SYSTEM_CHANGED | .SESSION_L3_CHANGED | .L4_NOT_APPEND_ONLY | .PARAMS_CHANGED => .session
  | .CROSS_TENANT_PREFIX | .SESSION_TENANT_MISMATCH | .PREFIX_HASH_CONFLICT | .TENANT_UNATTRIBUTED
  | .REQUEST_UNREADABLE => .gateway
  | _ => .request

/-- The patterns of a scan rule, each as its `test`. -/
structure CompiledScanRule where
  code : FindingCode
  patterns : List (String → Bool)

/-- `PromptLayoutContract`: what the evaluator reads of it besides the table of codes. -/
structure PromptLayoutContract where
  id : String
  digest : String
  /-- The minimum prefix of every model, in tokens. -/
  models : List (String × ℕ)
  maxExplicitBreakpoints : ℕ
  ttlValues : List String
  scanRules : List CompiledScanRule

/-- `resolveContractModel`: the longest name that the model starts with. -/
def resolveContractModel (contract : PromptLayoutContract) (model : Option String) :
    Option (String × ℕ) :=
  model.bind fun model ↦
    contract.models.foldl (fun best entry ↦
      if entry.1.toList.isPrefixOf model.toList then
        match best with
        | none => some entry
        | some (key, _) => if key.length < entry.1.length then some entry else best
      else best) none

/-! ### Values -/

/-- A member that is an array, or no elements. -/
def arrayMember (req : Json) (key : String) : List Json :=
  ((req.get? key).bind Json.elems?).getD []

/-- A member that is a string. -/
def stringMember (req : Json) (key : String) : Option String :=
  (req.get? key).bind Json.str?

/-- `canonicalJson`, as the source calls it. -/
def canonicalText (v : Json) : Except String String :=
  match v.canonicalJson with
  | some text => .ok text
  | none => .error "request is not canonicalisable: non-finite number"

mutual

/-- `String` of a value. -/
def jsString : Json → Except String String
  | .null => .ok "null"
  | .bool b => .ok (if b then "true" else "false")
  | .num n => .ok (String.ofList n.text)
  | .nonFinite => .ok "Infinity"
  | .str s => .ok s
  | .arr elems => do
    let texts ← jsStrings elems
    return ",".intercalate texts
  | .obj members =>
    if members.any (·.1 = "toString") then .error "Cannot convert object to primitive value"
    else .ok "[object Object]"

/-- `String` of the elements of an array: nothing for `null`. -/
def jsStrings : List Json → Except String (List String)
  | [] => .ok []
  | .null :: rest => do
    let texts ← jsStrings rest
    return "" :: texts
  | v :: rest => do
    let text ← jsString v
    let texts ← jsStrings rest
    return text :: texts

end

mutual

/-- `stripCacheControl`. -/
def stripCacheControl : Json → Json
  | .arr elems => .arr (stripAll elems)
  | .obj members => .obj (stripMembers members)
  | v => v

/-- The elements, stripped. -/
def stripAll : List Json → List Json
  | [] => []
  | v :: rest => stripCacheControl v :: stripAll rest

/-- The members that are copied, stripped. -/
def stripMembers : List (String × Json) → List (String × Json)
  | [] => []
  | p :: rest =>
    if p.1 = "cache_control" ∨ p.1 = "__proto__" then stripMembers rest
    else stripPair p :: stripMembers rest

/-- The member, stripped. -/
def stripPair : String × Json → String × Json
  | (key, v) => (key, stripCacheControl v)

end

mutual

/-- `deepText`. -/
def deepText : Json → String
  | .str s => s
  | .arr elems => "\n".intercalate (deepTexts elems)
  | .obj members => "\n".intercalate (memberTexts members)
  | _ => ""

/-- `deepText` of the elements. -/
def deepTexts : List Json → List String
  | [] => []
  | v :: rest => deepText v :: deepTexts rest

/-- `deepText` of the members, markers apart. -/
def memberTexts : List (String × Json) → List String
  | [] => []
  | p :: rest => if p.1 = "cache_control" then memberTexts rest else pairText p :: memberTexts rest

/-- `deepText` of a member. -/
def pairText : String × Json → String
  | (_, v) => deepText v

end

/-- `textOfBlocks`. -/
def textOfBlocks (blocks : List Json) : Except String String := do
  let texts ← blocks.mapM fun block ↦
    match block with
    | .str s => .ok (some s)
    | _ =>
      if stringMember block "type" = some "text" then
        match block.get? "text" with
        | none | some .null => .ok (some "")
        | some v => (jsString v).map some
      else .ok none
  return "\n".intercalate (texts.filterMap id)

/-- `hasCacheControl`. -/
def hasCacheControl (block : Json) : Bool :=
  (block.get? "cache_control").isSome

/-- `ttlOf`. -/
def ttlOf (block : Json) : Option String :=
  (block.get? "cache_control").bind fun cc ↦
    if cc.isRecord then some ((stringMember cc "ttl").getD "5m") else none

/-! ### The derivation -/

/-- The stable layers after the tools. -/
structure PrefixLayers where
  L1 : List Json := []
  L2 : List Json := []
  L3 : List Json := []

/-- `LayerHashes`. -/
structure LayerHashes where
  L0 : String
  L1 : String
  L2 : String
  L3 : String
  deriving DecidableEq

/-- The texts that are scanned. -/
structure PrefixText where
  L0 : String
  L1 : String
  L2 : String
  L3 : String

structure Breakpoint where
  layer : FindingLayer
  ttl : Option String

/-- How the system blocks, and perhaps the first message, are cut into layers. -/
structure Placement where
  layers : PrefixLayers := {}
  breakpoints : List Breakpoint := []
  /-- The breakpoints of the system, and of L3 at the head of the messages. -/
  explicit : ℕ := 0
  missing : List FindingLayer := []
  misplaced : List String := []
  /-- The content left to the first message, when L3 is at its head. -/
  m0Rest : Option (List Json) := none

structure Derivation where
  L0 : List Json
  layers : PrefixLayers
  L4 : List Json
  breakpoints : List Breakpoint
  explicitTotal : ℕ
  systemIsString : Bool
  missing : List FindingLayer
  misplaced : List String
  toolCc : ℕ
  l4NotLast : ℕ
  l4Breakpoints : ℕ
  estPrefixTokens : ℕ
  layerHashes : LayerHashes
  prefixHash : String
  prefixText : PrefixText
  nonText : List (FindingLayer × String)

/-- The system blocks cut after every breakpoint, and those after the last. -/
def partitions (blocks : List Json) : List (List Json) × List Json :=
  blocks.foldl (fun (parts, current) block ↦
    if hasCacheControl block then (parts ++ [current ++ [block]], [])
    else (parts, current ++ [block])) ([], [])

/-- The breakpoint at the end of a part. -/
def breakpointOf (layer : FindingLayer) (part : List Json) : Breakpoint where
  layer
  ttl := part.getLast?.bind ttlOf

/-- The blocks of the first message up to its first breakpoint, and those after it. -/
def splitHead (messages : List Json) : Option (List Json × List Json) :=
  messages.head?.bind fun first ↦
    if stringMember first "role" = some "user" then
      let (before, after) := (arrayMember first "content").span fun block ↦ !hasCacheControl block
      match after with
      | [] => none
      | marked :: rest => some (before ++ [marked], rest)
    else none

/-- How the blocks of a system are placed. -/
def placeBlocks (blocks messages : List Json) : Placement :=
  let (parts, tail) := partitions blocks
  let layers : PrefixLayers :=
    { L1 := parts.getD 0 [], L2 := parts.getD 1 [], L3 := parts.getD 2 [] }
  let breakpoints :=
    ([FindingLayer.L1, .L2, .L3].zip (parts.take 3)).map fun (layer, part) ↦
      breakpointOf layer part
  if 3 ≤ parts.length then
    { layers, breakpoints
      explicit := parts.length
      misplaced :=
        (if 3 < parts.length then
          [toString (parts.length - 3) ++ " extra system partition(s) after L3"] else []) ++
        if tail.isEmpty then [] else
          [toString tail.length ++ " system block(s) after the L3 breakpoint"] }
  else if parts.length = 2 ∧ tail.isEmpty then
    match splitHead messages with
    | some (head, rest) =>
      { layers := { layers with L3 := head }
        breakpoints := breakpoints ++ [breakpointOf .L3 head]
        explicit := parts.length + 1
        m0Rest := some rest }
    | none => { layers, breakpoints, explicit := parts.length, missing := [.L3] }
  else
    -- what is left open is scanned with the layer it would have ended
    { layers :=
        match parts.length with
        | 0 => { layers with L1 := tail }
        | 1 => { layers with L2 := tail }
        | _ => { layers with L3 := tail }
      breakpoints
      explicit := parts.length
      missing := [FindingLayer.L1, .L2, .L3].drop parts.length }

/-- How the system of a body is placed. -/
def place (req : Json) : Placement :=
  match stringMember req "system" with
  | some system =>
    { layers := { L1 := [.obj [("type", .str "text"), ("text", .str system)]] }
      missing := [.L1, .L2, .L3] }
  | none => placeBlocks (arrayMember req "system") (arrayMember req "messages")

/-- The messages without the layer at their head. -/
def tailMessages (messages : List Json) : Option (List Json) → List Json
  | none => messages
  | some [] => messages.tail
  | some rest =>
    match messages with
    | .obj members :: others =>
      .obj (members.map fun p ↦ if p.1 = "content" then (p.1, .arr rest) else p) :: others
    | _ => messages

/-- The breakpoints of the messages, by message and block. -/
def l4Breakpoints (messages : List Json) : List (ℕ × ℕ × Option String) :=
  messages.zipIdx.flatMap fun (message, mi) ↦
    (arrayMember message "content").zipIdx.filterMap fun (block, bi) ↦
      if hasCacheControl block then some (mi, bi, ttlOf block) else none

/-- The last content block of the last message. -/
def lastBlock (messages : List Json) : Option (ℕ × ℕ) :=
  messages.getLast?.bind fun message ↦
    match arrayMember message "content" with
    | [] => none
    | content => some (messages.length - 1, content.length - 1)

/-- The block types of a layer other than text. -/
def nonTextOf (layer : FindingLayer) (blocks : List Json) :
    Except String (List (FindingLayer × String)) :=
  (blocks.filter fun block ↦ block.isRecord && !decide (stringMember block "type" = some "text")).mapM
    fun block ↦
      match block.get? "type" with
      | none => .ok (layer, "undefined")
      | some v => (jsString v).map (layer, ·)

/-- What the prefix hash is taken of. -/
def prefixValue (tools : List Json) (layers : PrefixLayers) : Json :=
  .obj [("tools", .arr tools), ("L1", .arr layers.L1), ("L2", .arr layers.L2),
    ("L3", .arr layers.L3)]

/-- `estTokens`. -/
def estTokens (chars : ℕ) : ℕ :=
  (chars + 3) / 4

section Derive

variable (sha256Text : String → String)

/-- `derive`. -/
def derive (req : Json) : Except String Derivation := do
  let tools := arrayMember req "tools"
  let toolCc := (tools.filter hasCacheControl).length
  let placed := place req
  let messages := tailMessages (arrayMember req "messages") placed.m0Rest
  let l4Cc := l4Breakpoints messages
  let last := lastBlock messages
  let notLast := if l4Cc.length ≤ 1 then l4Cc.filter fun cc ↦ last ≠ some (cc.1, cc.2.1) else l4Cc
  let l4Last := (if l4Cc.length = 1 then l4Cc else []).filter fun cc ↦ last = some (cc.1, cc.2.1)
  let l0Canonical ← canonicalText (.arr tools)
  let text1 ← textOfBlocks placed.layers.L1
  let text2 ← textOfBlocks placed.layers.L2
  let text3 ← textOfBlocks placed.layers.L3
  let canonical1 ← canonicalText (.arr placed.layers.L1)
  let canonical2 ← canonicalText (.arr placed.layers.L2)
  let canonical3 ← canonicalText (.arr placed.layers.L3)
  let canonical ← canonicalText (prefixValue tools placed.layers)
  let nonText1 ← nonTextOf .L1 placed.layers.L1
  let nonText2 ← nonTextOf .L2 placed.layers.L2
  let nonText3 ← nonTextOf .L3 placed.layers.L3
  return {
    L0 := tools
    layers := placed.layers
    L4 := messages
    breakpoints := placed.breakpoints ++ l4Last.map fun cc ↦ ⟨.L4, cc.2.2⟩
    explicitTotal := toolCc + placed.explicit + l4Cc.length
    systemIsString := (stringMember req "system").isSome
    missing := placed.missing
    misplaced := placed.misplaced
    toolCc
    l4NotLast := notLast.length
    l4Breakpoints := l4Cc.length
    estPrefixTokens := estTokens (utf16Length l0Canonical + utf16Length text1 + utf16Length text2 +
      utf16Length text3)
    layerHashes := ⟨sha256Text l0Canonical, sha256Text canonical1, sha256Text canonical2,
      sha256Text canonical3⟩
    prefixHash := sha256Text canonical
    prefixText := ⟨l0Canonical, text1, text2, text3⟩
    nonText := nonText1 ++ nonText2 ++ nonText3 }

end Derive

end ModelConnector.PromptCache
