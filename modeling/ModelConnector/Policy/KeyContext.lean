import ModelConnector.Foundations.EcmaJson
import ModelConnector.Foundations.Splits

/-!
# The provider key of a request

`redactProviderSecrets`: while a request runs with a provider key of its own, that key is replaced
in every string of a value, and in the keys of its objects.
-/

namespace ModelConnector.Policy

open Ecma Splits

/-- What stands in the place of a key. -/
def REDACTED : Text :=
  ascii "[REDACTED]"

/-- `split(secret).join('[REDACTED]')`. -/
def redactText (secret t : Text) : Text :=
  replaceAll secret REDACTED t

mutual

/-- `visit`. -/
def visit (secret : Text) : Value → Value
  | .str s => .str (redactText secret s)
  | .arr elems => .arr (visitAll secret elems)
  | .obj members => .obj (assign (visitMembers secret members))
  | .null => .null
  | .bool b => .bool b
  | .num n => .num n

/-- The elements of an array. -/
def visitAll (secret : Text) : List Value → List Value
  | [] => []
  | v :: rest => visit secret v :: visitAll secret rest

/-- The entries of an object. -/
def visitMembers (secret : Text) : List (Text × Value) → List (Text × Value)
  | [] => []
  | p :: rest => visitMember secret p :: visitMembers secret rest

/-- An entry of an object. -/
def visitMember (secret : Text) : Text × Value → Text × Value
  | (key, v) => (redactText secret key, visit secret v)

end

/-- `redactProviderSecrets`, with the key of the context, if there is one. -/
def redactProviderSecrets (apiKey : Option Text) (value : Value) : Value :=
  match apiKey with
  | none | some [] => value
  | some (u :: us) => visit (u :: us) value

theorem visitAll_eq_map (secret : Text) (elems : List Value) :
    visitAll secret elems = elems.map (visit secret) := by
  induction elems with
  | nil => rfl
  | cons v rest ih => rw [visitAll, ih, List.map_cons]

theorem visitMembers_eq_map (secret : Text) (members : List (Text × Value)) :
    visitMembers secret members =
      members.map fun p ↦ (redactText secret p.1, visit secret p.2) := by
  induction members with
  | nil => rfl
  | cons p rest ih => rw [visitMembers, ih, List.map_cons, visitMember]

end ModelConnector.Policy
