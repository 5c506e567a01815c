import ModelConnector.Foundations.EcmaString
import ModelConnector.Foundations.Members

/-!
# The schema normalizer of Codex

`normalizeSchema` makes a JSON schema strict before it is written to the file that Codex is given.
It refuses what is too large, has alternatives at its top or refers to itself, and rewrites object
schemas on its way through `properties` and `items`, down to a depth.
-/

namespace ModelConnector.Connectors.Codex

open Ecma

/-- `MAX_DEPTH`. -/
def MAX_DEPTH : ℕ :=
  5

/-- `MAX_SIZE_BYTES`. -/
def MAX_SIZE_BYTES : ℕ :=
  65536

/-- `SchemaNormalizationError`. -/
structure SchemaNormalizationError where
  message : String
  deriving DecidableEq

/-- What is thrown for a schema whose text has this length. -/
def SchemaNormalizationError.tooLarge (length : ℕ) : SchemaNormalizationError where
  message := s!"schema exceeds max size {MAX_SIZE_BYTES} bytes (got {length})"

/-- What is thrown for alternatives at the top. -/
def SchemaNormalizationError.alternatives : SchemaNormalizationError where
  message := "top-level anyOf is not allowed"

/-- What is thrown for a reference to the whole schema. -/
def SchemaNormalizationError.selfReference : SchemaNormalizationError where
  message := "inline self-references ($ref:\"#\") are not allowed"

/-- What is thrown below the depth. -/
def SchemaNormalizationError.tooDeep : SchemaNormalizationError where
  message := s!"schema depth exceeds {MAX_DEPTH}"

/-- `JSON.stringify`: members are written in the order they stand. -/
def stringify : Writer where
  number := Number.text
  body := quoteBody
  sortKey _ := []

mutual

/-- `containsSelfRef`. -/
def containsSelfRef : Value → Bool
  | .arr elems => someSelfRef elems
  | .obj members => isString "#" (members.lookup (ascii "$ref")) || someMemberSelfRef members
  | .null | .bool _ | .num _ | .str _ => false

/-- `node.some(containsSelfRef)`. -/
def someSelfRef : List Value → Bool
  | [] => false
  | v :: rest => containsSelfRef v || someSelfRef rest

/-- `Object.values(obj).some(containsSelfRef)`. -/
def someMemberSelfRef : List (Text × Value) → Bool
  | [] => false
  | p :: rest => pairSelfRef p || someMemberSelfRef rest

/-- `containsSelfRef` of the value of a member. -/
def pairSelfRef : Text × Value → Bool
  | (_, v) => containsSelfRef v

end

/-- The key of an element of an array. -/
def indexKey (i : ℕ) : Text :=
  (digitsOf i).map digitUnit

/-- The members `Object.keys` goes through, of a value that is no primitive one. -/
def entries? : Option Value → Option (List (Text × Value))
  | some (.obj members) => some members
  | some (.arr elems) => some (elems.mapIdx fun i v ↦ (indexKey i, v))
  | _ => none

/-- The properties of what is taken for an object schema. -/
def properties? (members : List (Text × Value)) : Option (List (Text × Value)) :=
  if isString "object" (members.lookup (ascii "type")) then
    entries? (members.lookup (ascii "properties"))
  else none

/-- The items of what is taken for an array schema. -/
def items? (members : List (Text × Value)) : Option Value :=
  let items := members.lookup (ascii "items")
  if isString "array" (members.lookup (ascii "type")) && truthy items then items else none

/-- `newProps`, of the values that were walked. Assigning to `__proto__` sets no member. -/
def newProps (walked : List (Text × Value)) : List (Text × Value) :=
  walked.filter fun p ↦ decide (p.1 ≠ ascii "__proto__")

/-- What becomes of the members of an object schema with these properties. -/
def strictMembers (members props walked : List (Text × Value)) : List (Text × Value) :=
  Members.set
    (Members.set
      (Members.set members (ascii "additionalProperties") (.bool false))
      (ascii "required") (.arr (props.map fun p ↦ .str p.1)))
    (ascii "properties") (.obj (newProps walked))

/-- `walk`, with the number of levels that are left. -/
def walk : ℕ → Value → Except SchemaNormalizationError Value
  | 0, _ => .error .tooDeep
  | left + 1, .arr elems => do return .arr (← elems.mapM (walk left))
  | left + 1, .obj members =>
    match properties? members with
    | some props => do
      let walked ← props.mapM fun p ↦ do return (p.1, ← walk left p.2)
      return .obj (strictMembers members props walked)
    | none =>
      match items? members with
      | some items => do return .obj (Members.set members (ascii "items") (← walk left items))
      | none => .ok (.obj members)
  | _ + 1, v => .ok v

/-- Whether a value is an array. -/
def isArray : Option Value → Bool
  | some (.arr _) => true
  | _ => false

/-- `normalizeSchema`. -/
def normalizeSchema (schema : List (Text × Value)) : Except SchemaNormalizationError Value :=
  let json := stringify.text (.obj schema)
  if MAX_SIZE_BYTES < json.length then .error (.tooLarge json.length)
  else if isArray (schema.lookup (ascii "anyOf")) then .error .alternatives
  else if containsSelfRef (.obj schema) then .error .selfReference
  else walk (MAX_DEPTH + 1) (.obj schema)

end ModelConnector.Connectors.Codex
