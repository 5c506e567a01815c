import ModelConnector.Foundations.JsonOrder

/-!
# The fingerprint of a request

An intent keeps a fingerprint of the request it was opened for: SHA-256 of a text of the payload in
which the members of every object are sorted by key. `stableStringify` is given a value of the
script, where a member can be undefined; the payloads that are JSON values are those of `ofJson`.
-/

namespace ModelConnector.Billing

/-- A value of the script. -/
inductive Payload
  | undefined
  | null
  | bool (b : Bool)
  | num (n : JsonNumber)
  /-- A number that `JSON.stringify` writes as `null`. -/
  | nonFinite
  | str (s : String)
  | arr (elems : List Payload)
  | obj (members : List (String × Payload))

namespace Payload

mutual

/-- `stableStringify`, the text as a list of characters. -/
def stableStringify : Payload → List Char
  -- `JSON.stringify(undefined)` is undefined itself.
  | .undefined => ['n', 'u', 'l', 'l']
  | .null => ['n', 'u', 'l', 'l']
  | .bool true => ['t', 'r', 'u', 'e']
  | .bool false => ['f', 'a', 'l', 's', 'e']
  | .num n => n.text
  | .nonFinite => ['n', 'u', 'l', 'l']
  | .str s => Json.quote s
  | .arr elems => '[' :: [','].intercalate (stringifyElems elems) ++ [']']
  | .obj members =>
    '{' :: [','].intercalate
      (((stringifyEntries members).insertionSort Json.KeyLE).map Json.memberText) ++ ['}']

/-- The texts of elements. -/
def stringifyElems : List Payload → List (List Char)
  | [] => []
  | v :: rest => v.stableStringify :: stringifyElems rest

/-- The entries that are not undefined, with the texts of their values. -/
def stringifyEntries : List (String × Payload) → List (String × List Char)
  | [] => []
  | p :: rest => stringifyEntry p ++ stringifyEntries rest

/-- The entry with its text, unless it is undefined. -/
def stringifyEntry : String × Payload → List (String × List Char)
  | (_, .undefined) => []
  | (key, v) => [(key, v.stableStringify)]

end

mutual

/-- What the script holds of a JSON value. -/
def ofJson : Json → Payload
  | .null => .null
  | .bool b => .bool b
  | .num n => .num n
  | .nonFinite => .nonFinite
  | .str s => .str s
  | .arr elems => .arr (ofElems elems)
  | .obj members => .obj (ofMembers members)

/-- The elements. -/
def ofElems : List Json → List Payload
  | [] => []
  | v :: rest => ofJson v :: ofElems rest

/-- The members. -/
def ofMembers : List (String × Json) → List (String × Payload)
  | [] => []
  | p :: rest => ofMember p :: ofMembers rest

/-- A member. -/
def ofMember : String × Json → String × Payload
  | (key, v) => (key, ofJson v)

end

end Payload

/-- `{ [key]: value, ...members }`: a member with the key takes the place of the value. -/
def spreadAfter {α : Type} (key : String) (value : α) (members : List (String × α)) :
    List (String × α) :=
  (key, (members.lookup key).getD value) :: members.filter fun p ↦ p.1 != key

/-- `intentPayloadFingerprint`, over the digest of a text. -/
def intentPayloadFingerprint (sha256Hex : String → String) (payload : Payload) : String :=
  sha256Hex (String.ofList payload.stableStringify)

/-- What of a request is fingerprinted: all but the key of its replay and its measurement. -/
def fingerprinted {α : Type} (request : List (String × α)) : List (String × α) :=
  request.filter fun p ↦ p.1 != "idempotencyKey" && p.1 != "firstDispatchMeasurement"

/-- `requestFingerprint`. -/
def requestFingerprint (sha256Hex : String → String) (connectorName : String)
    (request : List (String × Payload)) : String :=
  intentPayloadFingerprint sha256Hex
    (.obj (spreadAfter "connector" (.str connectorName) (fingerprinted request)))

/-! ### Payloads that are JSON values -/

namespace Payload

theorem ofElems_eq_map (elems : List Json) : ofElems elems = elems.map ofJson := by
  induction elems with
  | nil => rfl
  | cons v rest ih => rw [ofElems, ih, List.map_cons]

theorem ofMembers_eq_map (members : List (String × Json)) :
    ofMembers members = members.map fun p ↦ (p.1, ofJson p.2) := by
  induction members with
  | nil => rfl
  | cons p rest ih => rw [ofMembers, ih, List.map_cons, ofMember]

theorem stringifyElems_eq_map (elems : List Payload) :
    stringifyElems elems = elems.map stableStringify := by
  induction elems with
  | nil => rfl
  | cons v rest ih => rw [stringifyElems, ih, List.map_cons]

/-- A member that is a JSON value is written. -/
theorem stringifyEntry_ofJson (key : String) (v : Json) :
    stringifyEntry (key, ofJson v) = [(key, (ofJson v).stableStringify)] := by
  cases v <;> rfl

/-- Of a JSON value the text is the canonical one. -/
theorem stableStringify_ofJson (v : Json) : (ofJson v).stableStringify = v.text := by
  induction v using Json.induction with
  | null | num _ | nonFinite | str _ => rfl
  | bool b => cases b <;> rfl
  | arr elems ih =>
    have htexts : elems.map (stableStringify ∘ ofJson) = elems.map Json.text :=
      List.map_congr_left ih
    rw [ofJson, stableStringify, stringifyElems_eq_map, ofElems_eq_map, List.map_map, htexts,
      Json.text, Json.texts_eq_map]
  | obj members ih =>
    have hentries : stringifyEntries (members.map fun p ↦ (p.1, ofJson p.2)) =
        members.map fun p ↦ (p.1, p.2.text) := by
      induction members with
      | nil => rfl
      | cons p rest ihrest =>
        rw [List.map_cons, List.map_cons, stringifyEntries, stringifyEntry_ofJson,
          ih p List.mem_cons_self, ihrest fun q hq ↦ ih q (List.mem_cons_of_mem _ hq)]
        rfl
    rw [ofJson, stableStringify, ofMembers_eq_map, hentries, Json.text, Json.memberTexts_eq_map]

end Payload

end ModelConnector.Billing
