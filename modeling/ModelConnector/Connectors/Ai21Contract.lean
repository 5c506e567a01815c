import Mathlib.Data.Rat.Defs
import Mathlib.Data.Rat.Floor
import ModelConnector.Foundations.EcmaBytes

/-!
# The stream of the AI21 contract

`parseAi21NativeChatSse` reads the transcript of a stream: `data: ` lines with one chunk each, of
which the first one names the role, the last one has a finish reason and usage, and `[DONE]` at the
end. Every chunk is inspected as a whole (`inspectValue`) and then read field by field
(`parseSseChunk`). Whatever is wrong, the same error is thrown.

The double that a number is read as is a parameter; there is none where a number is too large.
-/

namespace ModelConnector.Connectors.Ai21Native

open Ecma

/-! ### Inspection -/

/-- `POLLUTION_KEYS`. -/
def POLLUTION_KEYS : List Text :=
  [ascii "__proto__", ascii "prototype", ascii "constructor"]

namespace AI21_NATIVE_LIMITS

def maxDepth : ℕ := 8
def maxKeysPerObject : ℕ := 32
def maxArrayLength : ℕ := 128
def maxStringBytes : ℕ := 262144
def maxResponseBytes : ℕ := 4194304
def maxSseEvents : ℕ := 8192

end AI21_NATIVE_LIMITS

open AI21_NATIVE_LIMITS

variable (double : Ecma.Number → Option ℚ)

/-- `addBytes`: the bytes with those of a string. -/
def addBytes (maxAggregateBytes aggregateBytes : ℕ) (s : Text) : Option ℕ := do
  guard (byteLength s ≤ maxStringBytes)
  guard (aggregateBytes + byteLength s ≤ maxAggregateBytes)
  return aggregateBytes + byteLength s

mutual

/-- `inspectValue`, of a value that was parsed: the bytes with those of its strings and keys. -/
def inspectValue (maxAggregateBytes depth aggregateBytes : ℕ) (value : Value) : Option ℕ :=
  if maxDepth < depth then none
  else
    match value with
    | .null | .bool _ => some aggregateBytes
    | .str s => addBytes maxAggregateBytes aggregateBytes s
    | .num n => if (double n).isSome then some aggregateBytes else none
    | .arr elems =>
      if maxArrayLength < elems.length then none
      else inspectElems maxAggregateBytes (depth + 1) aggregateBytes elems
    | .obj members =>
      if maxKeysPerObject < members.length then none
      else inspectMembers maxAggregateBytes (depth + 1) aggregateBytes members

/-- The elements of an array. -/
def inspectElems (maxAggregateBytes depth aggregateBytes : ℕ) : List Value → Option ℕ
  | [] => some aggregateBytes
  | v :: rest =>
    match inspectValue maxAggregateBytes depth aggregateBytes v with
    | none => none
    | some aggregateBytes => inspectElems maxAggregateBytes depth aggregateBytes rest

/-- The members of an object. -/
def inspectMembers (maxAggregateBytes depth aggregateBytes : ℕ) :
    List (Text × Value) → Option ℕ
  | [] => some aggregateBytes
  | p :: rest =>
    match inspectPair maxAggregateBytes depth aggregateBytes p with
    | none => none
    | some aggregateBytes => inspectMembers maxAggregateBytes depth aggregateBytes rest

/-- A member of an object. -/
def inspectPair (maxAggregateBytes depth aggregateBytes : ℕ) : Text × Value → Option ℕ
  | (key, v) =>
    if POLLUTION_KEYS.contains key then none
    else
      match addBytes maxAggregateBytes aggregateBytes key with
      | none => none
      | some aggregateBytes => inspectValue maxAggregateBytes depth aggregateBytes v

end

/-- `inspectSafeValue`. -/
def inspectSafeValue (value : Value) (maxAggregateBytes : ℕ) : Option Unit :=
  (inspectValue double maxAggregateBytes 0 0 value).map fun _ ↦ ()

/-! ### Fields -/

/-- `asRecord`. -/
def asRecord : Value → Option (List (Text × Value))
  | .obj members => some members
  | .null | .bool _ | .num _ | .str _ | .arr _ => none

/-- `assertExactKeys`, without optional ones. -/
def assertExactKeys (record : List (Text × Value)) (required : List String) : Option Unit := do
  guard (required.all fun key ↦ (record.lookup (ascii key)).isSome)
  guard (record.all fun p ↦ required.any fun key ↦ decide (p.1 = ascii key))

/-- `asBoundedString`. -/
def asBoundedString (value : Value) (allowEmpty : Bool) : Option Text :=
  match value with
  | .str s => do
    guard (allowEmpty = true ∨ s ≠ [])
    guard (byteLength s ≤ maxStringBytes)
    return s
  | .null | .bool _ | .num _ | .arr _ | .obj _ => none

/-- `Number.MAX_SAFE_INTEGER`. -/
def MAX_SAFE_INTEGER : ℕ :=
  2 ^ 53 - 1

/-- `asInteger`, with the minimum 0 and the maximum `MAX_SAFE_INTEGER`. -/
def asInteger (value : Value) : Option ℕ :=
  match value with
  | .num n => do
    let q ← double n
    guard (q.den = 1 ∧ 0 ≤ q.num ∧ q.num ≤ MAX_SAFE_INTEGER)
    return q.num.toNat
  | .null | .bool _ | .str _ | .arr _ | .obj _ => none

structure Ai21NativeUsage where
  prompt_tokens : ℕ
  completion_tokens : ℕ
  total_tokens : ℕ
  deriving DecidableEq

def parseUsage (value : Value) : Option Ai21NativeUsage := do
  let usage ← asRecord value
  assertExactKeys usage ["prompt_tokens", "completion_tokens", "total_tokens"]
  let promptTokens ← (usage.lookup (ascii "prompt_tokens")).bind (asInteger double)
  let completionTokens ← (usage.lookup (ascii "completion_tokens")).bind (asInteger double)
  let totalTokens ← (usage.lookup (ascii "total_tokens")).bind (asInteger double)
  guard (promptTokens + completionTokens = totalTokens)
  return { prompt_tokens := promptTokens, completion_tokens := completionTokens
           total_tokens := totalTokens }

inductive FinishReason
  | stop
  | length
  deriving DecidableEq

def parseFinishReason : Value → Option FinishReason
  | .str s =>
    if s = ascii "stop" then some .stop else if s = ascii "length" then some .length else none
  | .null | .bool _ | .num _ | .arr _ | .obj _ => none

/-! ### Chunks -/

inductive Role
  | assistant
  deriving DecidableEq

structure ParsedSseChunk where
  id : Text
  index : ℕ
  role : Option Role
  content : Option Text
  finishReason : Option FinishReason
  usage : Option Ai21NativeUsage
  deriving DecidableEq

/-- The role and the content of a delta. -/
def parseDelta (delta : List (Text × Value)) : Option (Option Role × Option Text) := do
  guard (delta.length = 1)
  match delta.lookup (ascii "role") with
  | some role =>
    match role with
    | .str s => if s = ascii "assistant" then some (some .assistant, none) else none
    | .null | .bool _ | .num _ | .arr _ | .obj _ => none
  | none =>
    let content ← (delta.lookup (ascii "content")).bind fun v ↦ asBoundedString v true
    return (none, some content)

/-- What `parse` makes of a value, or nothing of `null`. -/
def orNull {α : Type} (parse : Value → Option α) : Value → Option (Option α)
  | .null => some none
  | v => (parse v).map some

def parseSseChunk (value : Value) : Option ParsedSseChunk := do
  inspectSafeValue double value maxResponseBytes
  let chunk ← asRecord value
  assertExactKeys chunk ["id", "choices", "usage"]
  let id ← (chunk.lookup (ascii "id")).bind fun v ↦ asBoundedString v false
  let choices ← chunk.lookup (ascii "choices")
  match choices with
  | .arr [first] =>
    let choice ← asRecord first
    assertExactKeys choice ["index", "delta", "finish_reason"]
    let index ← (choice.lookup (ascii "index")).bind (asInteger double)
    guard (index = 0)
    let delta ← (choice.lookup (ascii "delta")).bind asRecord
    let (role, content) ← parseDelta delta
    let finishReason ← (choice.lookup (ascii "finish_reason")).bind (orNull parseFinishReason)
    let usage ← (chunk.lookup (ascii "usage")).bind (orNull (parseUsage double))
    return { id, index, role, content, finishReason, usage }
  | _ => none

/-! ### The stream -/

structure Ai21NativeSseResult where
  id : Text
  content : Text
  finish_reason : FinishReason
  usage : Ai21NativeUsage
  event_count : ℕ
  deriving DecidableEq

/-- The variables of the loop. -/
structure SseScan where
  done : Bool := false
  terminal : Bool := false
  requestId : Option Text := none
  roleSeen : Bool := false
  finishReason : Option FinishReason := none
  usage : Option Ai21NativeUsage := none
  content : Text := []
  eventCount : ℕ := 0

/-- What follows the first six units of a line, if these are `data: `. -/
def dataOf (line : Text) : Option Text :=
  if ascii "data: " <+: line then some (line.drop 6) else none

/-- The chunk of a line. -/
def chunkOf (data : Text) : Option ParsedSseChunk :=
  (parse data).bind (parseSseChunk double)

/-- The body of the loop. -/
def SseScan.step (s : SseScan) (data : Text) : Option SseScan := do
  guard (s.done = false)
  if data = ascii "[DONE]" then return { s with done := true }
  guard (s.terminal = false)
  let s := { s with eventCount := s.eventCount + 1 }
  guard (s.eventCount ≤ maxSseEvents)
  let chunk ← chunkOf double data
  let requestId := s.requestId.getD chunk.id
  guard (chunk.id = requestId)
  let s := { s with requestId := some requestId }
  if s.roleSeen = false then
    guard (chunk.role = some .assistant ∧ chunk.content = none)
    guard (chunk.finishReason = none ∧ chunk.usage = none)
    return { s with roleSeen := true }
  guard (chunk.role = none)
  let text ← chunk.content
  let s := { s with content := s.content ++ text }
  guard (byteLength s.content ≤ maxResponseBytes)
  match chunk.finishReason with
  | none =>
    guard (chunk.usage = none)
    return s
  | some finishReason =>
    let usage ← chunk.usage
    return { s with terminal := true, finishReason := some finishReason, usage := some usage }

/-- The end of `parseAi21NativeChatSse`. -/
def SseScan.result (s : SseScan) : Option Ai21NativeSseResult := do
  guard (s.done = true ∧ s.terminal = true ∧ s.roleSeen = true)
  let id ← s.requestId
  let finish_reason ← s.finishReason
  let usage ← s.usage
  return { id, content := s.content, finish_reason, usage, event_count := s.eventCount }

/-- The data of the lines that are not empty. -/
def dataLines (transcript : Text) : Option (List Text) :=
  ((splitLines transcript).filter fun line ↦ decide (line ≠ [])).mapM dataOf

def parseAi21NativeChatSse (transcript : Text) : Option Ai21NativeSseResult := do
  guard (byteLength transcript ≤ maxResponseBytes)
  let data ← dataLines transcript
  guard (data ≠ [])
  let s ← data.foldlM (SseScan.step double) {}
  s.result

end ModelConnector.Connectors.Ai21Native
