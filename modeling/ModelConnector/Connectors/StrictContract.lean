import Mathlib.Data.Finset.Card
import ModelConnector.Foundations.Json

/-!
# The contract of strict chat

`strictChatSchema` reads a closed request off a JSON value, and `parseStrictChat` accepts it after
one pass over its messages, which keeps the ids of all tool calls that were made and of those that
are not answered yet.

What `JSON.parse` does with the text of arguments is a parameter; whether it throws is all that is
used. The members of a request that can have one value only are checked and not kept.
-/

namespace ModelConnector.Connectors.StrictContract

/-! ### Requests -/

/-- A tool call of an assistant. -/
structure ToolCall where
  id : String
  name : String
  arguments : String
  deriving DecidableEq

/-- A message of a conversation. -/
inductive Message
  | system (content : String)
  | user (content : String)
  | assistant (content : Option String) (reasoning_content : Option String)
      (tool_calls : Option (List ToolCall))
  | tool (content : String) (tool_call_id : String)
  deriving DecidableEq

/-- A declared tool. -/
structure Tool where
  name : String
  description : Option String
  parameters : List (String × Json)

/-- `tool_choice`. -/
inductive ToolChoice
  | auto
  | none
  deriving DecidableEq

/-- `thinking`. -/
inductive Thinking
  | enabled
  | disabled
  deriving DecidableEq

/-- `reasoning_effort`. -/
inductive ReasoningEffort
  | low
  | high
  | max
  deriving DecidableEq

/-- `StrictChatRequest`. -/
structure StrictChatBody where
  intent : String
  attempt : String
  generation : String
  model : String
  capability_sha256 : String
  admission_sha256 : String
  rate_sha256 : String
  checkpoint_sha256 : String
  deadline_ms : ℕ
  messages : List Message
  tools : Option (List Tool)
  tool_choice : Option ToolChoice
  thinking : Thinking
  reasoning_effort : Option ReasoningEffort
  max_tokens : ℕ
  input_token_bound : ℕ
  output_byte_bound : ℕ

/-! ### Fields -/

/-- A character of an identifier. -/
def isIdChar (c : Char) : Bool :=
  decide (c ∈ ['_', '-']) || ('a' ≤ c && c ≤ 'z') || ('A' ≤ c && c ≤ 'Z') || ('0' ≤ c && c ≤ '9')

/-- `/^[A-Za-z0-9_-]{1,128}$/u`. -/
def isId (s : String) : Bool :=
  decide (1 ≤ s.length ∧ s.length ≤ 128) && s.toList.all isIdChar

/-- `/^[a-f0-9]{64}$/u`. -/
def isHash (s : String) : Bool :=
  decide (s.length = 64) && s.toList.all fun c ↦ ('a' ≤ c && c ≤ 'f') || ('0' ≤ c && c ≤ '9')

/-- `/^[1-9][0-9]{0,18}$/u`. -/
def isGeneration (s : String) : Bool :=
  decide (1 ≤ s.length ∧ s.length ≤ 19) && s.toList.all Char.isDigit &&
    decide (s.toList.head? ≠ some '0')

/-- `Number.MAX_SAFE_INTEGER`. -/
def MAX_SAFE_INTEGER : ℕ :=
  9007199254740991

/-- The strings that pass a check. -/
def string (check : String → Bool) (v : Json) : Option String :=
  v.str?.filter check

/-- `id`. -/
def id : Json → Option String :=
  string isId

/-- `hash`. -/
def hash : Json → Option String :=
  string isHash

/-- `z.string().max(limit)`. -/
def stringMax (limit : ℕ) : Json → Option String :=
  string fun s ↦ decide ((utf16Units s).length ≤ limit)

/-- `text`. -/
def text : Json → Option String :=
  stringMax 262144

/-- `text.nullable()`. -/
def textOrNull : Json → Option (Option String)
  | .null => some none
  | v => (text v).map some

/-- `z.number().int().min(1).max(limit)`. The text of an integer below `10 ^ 21` is its decimal
digits. -/
def integer (limit : ℕ) : Json → Option ℕ
  | .num n =>
    let value := Nat.ofDigitChars 10 n.text 0
    if n.text.all Char.isDigit ∧ 1 ≤ value ∧ value ≤ limit then some value else none
  | _ => none

/-- `z.literal(b)`. -/
def boolean (b : Bool) : Json → Option Unit
  | .bool b' => if b = b' then some () else none
  | _ => none

/-- `z.enum`, with the values its members stand for. -/
def oneOf {α : Type} (members : List (String × α)) (v : Json) : Option α :=
  v.str?.bind fun s ↦ List.lookup s members

/-- `z.array(element)` with bounds on its length. -/
def array {α : Type} (least most : ℕ) (element : Json → Option α) (v : Json) : Option (List α) :=
  (v.elems?.filter fun elems ↦ decide (least ≤ elems.length ∧ elems.length ≤ most)).bind
    fun elems ↦ elems.mapM element

/-- `z.object({...}).strict()`: an object without other keys. -/
def strict {α : Type} (keys : List String) (fields : Json → Option α) (v : Json) : Option α :=
  (v.members?.filter fun members ↦ members.all fun p ↦ keys.contains p.1).bind fun _ ↦ fields v

/-- A field of an object. -/
def field {α : Type} (v : Json) (key : String) (decode : Json → Option α) : Option α :=
  (v.get? key).bind decode

/-- A field of an object that may be missing. -/
def optional {α : Type} (v : Json) (key : String) (decode : Json → Option α) :
    Option (Option α) :=
  match v.get? key with
  | none => some none
  | some member => (decode member).map some

/-! ### The schema -/

/-- `fn`, and `call` around it. -/
def call : Json → Option ToolCall :=
  strict ["id", "type", "function"] fun v ↦ do
    let callId ← field v "id" id
    field v "type" (oneOf [("function", ())])
    field v "function" <| strict ["name", "arguments"] fun fn ↦ do
      some ⟨callId, ← field fn "name" id, ← field fn "arguments" text⟩

/-- `message`. -/
def message (v : Json) : Option Message := do
  match ← field v "role" Json.str? with
  | "system" => strict ["role", "content"] (fun v ↦ do some (.system (← field v "content" text))) v
  | "user" => strict ["role", "content"] (fun v ↦ do some (.user (← field v "content" text))) v
  | "assistant" =>
    strict ["role", "content", "reasoning_content", "tool_calls"] (fun v ↦ do
      some (.assistant (← field v "content" textOrNull) (← optional v "reasoning_content" text)
        (← optional v "tool_calls" (array 1 32 call)))) v
  | "tool" =>
    strict ["role", "content", "tool_call_id"] (fun v ↦ do
      some (.tool (← field v "content" text) (← field v "tool_call_id" id))) v
  | _ => none

/-- A declared tool. -/
def tool : Json → Option Tool :=
  strict ["type", "function"] fun v ↦ do
    field v "type" (oneOf [("function", ())])
    field v "function" <| strict ["name", "description", "parameters"] fun fn ↦ do
      some ⟨← field fn "name" id, ← optional fn "description" (stringMax 8192),
        ← field fn "parameters" Json.members?⟩

/-- `strictChatSchema`. -/
def strictChatSchema : Json → Option StrictChatBody :=
  strict ["version", "intent", "attempt", "generation", "model", "capability_sha256",
      "admission_sha256", "rate_sha256", "checkpoint_sha256", "deadline_ms", "messages", "tools",
      "tool_choice", "parallel_tool_calls", "thinking", "reasoning_effort", "stream",
      "stream_options", "max_tokens", "input_token_bound", "output_byte_bound"] fun v ↦ do
    field v "version" (oneOf [("mc-chat/v1", ())])
    let intent ← field v "intent" id
    let attempt ← field v "attempt" id
    let generation ← field v "generation" (string isGeneration)
    let model ← field v "model" id
    let capability_sha256 ← field v "capability_sha256" hash
    let admission_sha256 ← field v "admission_sha256" hash
    let rate_sha256 ← field v "rate_sha256" hash
    let checkpoint_sha256 ← field v "checkpoint_sha256" hash
    let deadline_ms ← field v "deadline_ms" (integer MAX_SAFE_INTEGER)
    let messages ← field v "messages" (array 1 128 message)
    let tools ← optional v "tools" (array 0 32 tool)
    let tool_choice ← optional v "tool_choice" (oneOf [("auto", .auto), ("none", .none)])
    field v "parallel_tool_calls" (boolean false)
    let thinking ← field v "thinking" <| strict ["type"] fun v ↦
      field v "type" (oneOf [("enabled", .enabled), ("disabled", .disabled)])
    let reasoning_effort ← optional v "reasoning_effort"
      (oneOf [("low", .low), ("high", .high), ("max", .max)])
    field v "stream" (boolean true)
    field v "stream_options" (strict ["include_usage"] fun v ↦ field v "include_usage" (boolean true))
    let max_tokens ← field v "max_tokens" (integer 1048576)
    let input_token_bound ← field v "input_token_bound" (integer MAX_SAFE_INTEGER)
    let output_byte_bound ← field v "output_byte_bound" (integer 8388608)
    some ⟨intent, attempt, generation, model, capability_sha256, admission_sha256, rate_sha256,
      checkpoint_sha256, deadline_ms, messages, tools, tool_choice, thinking, reasoning_effort,
      max_tokens, input_token_bound, output_byte_bound⟩

/-! ### The conversation -/

/-- Why a request is not accepted. -/
inductive Refusal
  | error (message : String)
  | schema
  /-- `JSON.parse` threw. -/
  | malformed
  deriving DecidableEq

/-- `body.tools ?? []`. -/
def StrictChatBody.declared (body : StrictChatBody) : List Tool :=
  body.tools.getD []

/-- The names of the declared tools. -/
def StrictChatBody.names (body : StrictChatBody) : Finset String :=
  (body.declared.map Tool.name).toFinset

/-- `BigInt(body.generation)`. -/
def StrictChatBody.generationValue (body : StrictChatBody) : ℕ :=
  Nat.ofDigitChars 10 body.generation.toList 0

/-- The ids the pass keeps. -/
structure Scan where
  seen : Finset String
  pending : Finset String
  deriving DecidableEq

variable (parses : String → Bool)

/-- One tool call. -/
def scanCall (names : Finset String) (scan : Scan) (c : ToolCall) : Except Refusal Scan :=
  if c.id ∈ scan.seen ∨ c.name ∉ names then .error (.error "chat-tool-binding-refused")
  else if parses c.arguments = false then .error .malformed
  else .ok ⟨insert c.id scan.seen, insert c.id scan.pending⟩

/-- One message. -/
def scanMessage (body : StrictChatBody) (scan : Scan) : Message → Except Refusal Scan
  | .tool _ tool_call_id =>
    if tool_call_id ∈ scan.pending then
      .ok { scan with pending := scan.pending.erase tool_call_id }
    else .error (.error "chat-tool-order-refused")
  | .assistant content reasoning_content tool_calls =>
    if scan.pending ≠ ∅ then .error (.error "chat-tool-results-missing")
    else if content = none ∧ tool_calls = none then .error (.error "chat-empty-assistant-refused")
    else if body.thinking = .enabled ∧ body.declared ≠ [] ∧ reasoning_content = none then
      .error (.error "chat-continuation-missing")
    else (tool_calls.getD []).foldlM (scanCall parses body.names) scan
  | _ =>
    if scan.pending ≠ ∅ then .error (.error "chat-tool-results-missing") else .ok scan

/-- The message is the user's. -/
def Message.isUser : Message → Bool
  | .user _ => true
  | _ => false

/-- What `parseStrictChat` does with a request that has the schema. -/
def checkConversation (body : StrictChatBody) : Except Refusal StrictChatBody := do
  if 9223372036854775807 < body.generationValue then .error (.error "chat-generation-refused")
  else if body.names.card ≠ body.declared.length then .error (.error "chat-tools-refused")
  else
    let scan ← body.messages.foldlM (scanMessage parses body) ⟨∅, ∅⟩
    if scan.pending ≠ ∅ ∨ body.messages.any Message.isUser = false then
      .error (.error "chat-conversation-refused")
    else .ok body

/-- `parseStrictChat`. The order of members does not change the size of the text of a value. -/
def parseStrictChat (value : Json) : Except Refusal StrictChatBody :=
  if 8388608 < (String.ofList value.text).utf8ByteSize then
    .error (.error "chat-body-refused")
  else
    match strictChatSchema value with
    | none => .error .schema
    | some body => checkConversation parses body

end ModelConnector.Connectors.StrictContract
