import ModelConnector.Foundations.Number

/-!
# The error paths of the two clients

The TypeScript and the Python client of `/execute` turn a response without success into an
exception, which carries the error envelope of the body if there is one. Each has a decoder of its
own: `TypeScript.extractError` checks every field and falls back, `Python.extract_envelope` hands
the object to the declarations of a model, which accept it or not.

Of the envelope's values only texts, numbers and members are looked at. The validation of the Python
model is taken to reject what the declared types exclude, and nothing else.
-/

namespace ModelConnector.Sdk

/-! ### The response -/

/-- A JSON value. What an array holds is never looked at. -/
inductive Value
  | null
  | bool (b : Bool)
  | num (n : Number)
  | str (s : String)
  | arr
  | obj (members : List (String × Value))

/-- The members of an object, each name once. -/
abbrev Members := List (String × Value)

/-- The body of a response. The literals `NaN`, `Infinity` and `-Infinity` make a text that only the
decoder of Python accepts, and an integer of more than 4300 digits one that only the decoder of
TypeScript does. -/
inductive Body
  | empty
  | json (value : Value)
  | lenient (text : String) (value : Value)
  | longInteger (text : String) (value : Value)
  | plain (text : String)

/-- A character of the value of a header: visible, a blank or a tab. -/
def isFieldChar (c : Char) : Bool :=
  c == '\t' || (decide (0x20 ≤ c.toNat) && decide (c.toNat ≤ 0x7E))

/-- The value of a header. -/
structure HeaderValue where
  text : List Char
  isField : ∀ c ∈ text, isFieldChar c = true

/-- A response without success. -/
structure Failure where
  status : ℕ
  status_ne : status ≠ 200 ∧ status ≠ 201
  retryAfter : Option HeaderValue
  body : Body

/-- The envelope an exception carries. -/
structure ExecuteErrorEnvelope where
  type : String
  message : String
  retryAfter : Option Number
  retryAfterSeconds : Option Number
  retryable : Value
  recommendation : Value

/-- What is reported by an exception of the connector: `GuardExhaustedError` or the general
`ConnectorError`, and its fields. -/
structure ConnectorError where
  guardExhausted : Bool
  status : ℕ
  type : Option String
  message : String
  retryAfter : Option Number
  retryAfterSeconds : Option Number
  deriving DecidableEq

/-- `number > 0`. -/
def positive : Number → Bool
  | .finite value => decide (0 < value)
  | .infinite negative => !negative
  | .nan => false

def isFinite : Number → Bool
  | .finite _ => true
  | .infinite _ => false
  | .nan => false

/-- A delay in milliseconds, in whole seconds. -/
def ceilSeconds : Number → Number
  | .finite value => .finite ⌈value / 1000⌉
  | .infinite negative => .infinite negative
  | .nan => .nan

/-- `HTTP <status>`. -/
def httpStatus (status : ℕ) : String :=
  "HTTP " ++ String.ofList (Nat.toDigits 10 status)

/-- The object that is looked at, if its type is a text. -/
def typed? (candidate : Option Members) : Option (String × Members) :=
  candidate.bind fun candidate ↦
    match candidate.lookup "type" with
    | some (.str type) => some (type, candidate)
    | _ => none

/-! ### TypeScript -/

namespace TypeScript

/-- What `JSON.parse` makes of the body; other text is wrapped. -/
def parseBody : Body → Value
  | .empty => .null
  | .json value => value
  | .lenient text _ => .obj [("raw", .str text)]
  | .longInteger _ value => value
  | .plain text => .obj [("raw", .str text)]

/-- `obj.error ?? obj`, if it can have members of its own. -/
def candidate : Value → Option Members
  | .obj members =>
    match members.lookup "error" with
    | none => some members
    | some .null => some members
    | some (.obj error) => some error
    | some _ => none
  | _ => none

/-- `Number(res.headers.get('retry-after'))`; no header is zero. -/
def headerSeconds (header : Option HeaderValue) : Number :=
  header.elim (.finite 0) fun value ↦ Number.ofString value.text

/-- The delay the header asks for, in milliseconds. -/
def headerDelay (header : Option HeaderValue) : Option Number :=
  let seconds := headerSeconds header
  if isFinite seconds && positive seconds then some (seconds.scale 1000) else none

/-- The delay in milliseconds: the member, or what the header asks for. -/
def retryAfter (candidate : Members) (header : Option HeaderValue) : Option Number :=
  match candidate.lookup "retryAfter" with
  | some (.num n) => some n
  | _ => headerDelay header

/-- The delay in seconds: the member, or the other one rounded up. -/
def retryAfterSeconds (candidate : Members) (retryAfter : Option Number) : Option Number :=
  match candidate.lookup "retryAfterSeconds" with
  | some (.num n) => some n
  | _ => retryAfter.map ceilSeconds

def extractError (body : Value) (res : Failure) : Option ExecuteErrorEnvelope :=
  (typed? (candidate body)).map fun (type, candidate) ↦
    let retryAfter := retryAfter candidate res.retryAfter
    { type
      message := match candidate.lookup "message" with
        | some (.str message) => message
        | _ => httpStatus res.status
      retryAfter
      retryAfterSeconds := retryAfterSeconds candidate retryAfter
      retryable := match candidate.lookup "retryable" with
        | none => .bool false
        | some .null => .bool false
        | some value => value
      recommendation := match candidate.lookup "recommendation" with
        | none => .str "abort"
        | some .null => .str "abort"
        | some value => value }

/-- The error path of `execute`: what is thrown. -/
def execute (res : Failure) : ConnectorError :=
  let envelope := extractError (parseBody res.body) res
  { guardExhausted := decide (envelope.map ExecuteErrorEnvelope.type = some "guard_exhausted")
    status := res.status
    type := envelope.map ExecuteErrorEnvelope.type
    message := (envelope.map ExecuteErrorEnvelope.message).getD (httpStatus res.status)
    retryAfter := envelope.bind ExecuteErrorEnvelope.retryAfter
    retryAfterSeconds := envelope.bind ExecuteErrorEnvelope.retryAfterSeconds }

end TypeScript

/-! ### Python -/

namespace Python

/-- The other exceptions that can leave the error path. -/
inductive OtherException
  | validationError
  | overflowError
  | valueError
  deriving DecidableEq

/-- Underscores are dropped, each of which must stand between two digits. -/
def dropUnderscores (previous : Char) : List Char → Option (List Char)
  | [] => some []
  | '_' :: c :: rest =>
    if previous.isDigit && c.isDigit then (dropUnderscores c rest).map (c :: ·) else none
  | '_' :: [] => none
  | c :: rest => (dropUnderscores c rest).map (c :: ·)

/-- `float(text)`, or a `ValueError`. -/
def float? (text : List Char) : Option Number :=
  match Number.takeSign (Number.trim text) with
  | (negative, unsigned) =>
    let lower := unsigned.map Char.toLower
    if lower = "inf".toList ∨ lower = "infinity".toList then some (.infinite negative)
    else if lower = "nan".toList then some .nan
    else
      ((dropUnderscores ' ' unsigned).bind Number.unsigned?).map fun value ↦
        Number.ofRat (if negative then -value else value)

/-- `_retry_after_seconds`. -/
def retry_after_seconds (header : Option HeaderValue) : Option Number :=
  (header.bind fun value ↦ float? value.text).filter positive

/-- `_decode`. -/
def decode : Body → Value
  | .empty => .null
  | .json value => value
  | .lenient _ value => value
  | .longInteger text _ => .obj [("raw", .str text)]
  | .plain text => .obj [("raw", .str text)]

/-- The object that is looked at: the member `error` if it is one, else the body. -/
def candidate : Value → Option Members
  | .obj members =>
    match members.lookup "error" with
    | some (.obj error) => some error
    | _ => some members
  | _ => none

def ErrorAction : List String :=
  ["retry", "abort", "wait", "reauth"]

/-- A field declared `float | None`, under its alias or, by `populate_by_name`, under its name. -/
def optionalFloat (payload : Members) (aliasName name : String) :
    Except OtherException (Option Number) :=
  match (payload.lookup aliasName).or (payload.lookup name) with
  | none => .ok none
  | some .null => .ok none
  | some (.num n) => .ok (some n)
  | some _ => .error .validationError

/-- A field declared `str`. -/
def text (payload : Members) (name : String) : Except OtherException String :=
  match payload.lookup name with
  | some (.str s) => .ok s
  | _ => .error .validationError

/-- The field `retryable`. -/
def retryable (payload : Members) : Except OtherException Value :=
  match payload.lookup "retryable" with
  | none => .ok (.bool false)
  | some (.bool b) => .ok (.bool b)
  | some _ => .error .validationError

/-- The field `recommendation`. -/
def recommendation (payload : Members) : Except OtherException Value :=
  match payload.lookup "recommendation" with
  | none => .ok (.str "abort")
  | some (.str s) => if s ∈ ErrorAction then .ok (.str s) else .error .validationError
  | some _ => .error .validationError

/-- `ExecuteErrorEnvelope.model_validate`. -/
def model_validate (payload : Members) : Except OtherException ExecuteErrorEnvelope := do
  let type ← text payload "type"
  let message ← text payload "message"
  let retryAfter ← optionalFloat payload "retryAfter" "retry_after"
  let retryAfterSeconds ← optionalFloat payload "retryAfterSeconds" "retry_after_seconds"
  let retryable ← retryable payload
  let recommendation ← recommendation payload
  return { type, message, retryAfter, retryAfterSeconds, retryable, recommendation }

/-- `math.ceil(delay / 1000)`. -/
def ceil : Number → Except OtherException Number
  | .finite value => .ok (.finite ⌈value / 1000⌉)
  | .infinite _ => .error .overflowError
  | .nan => .error .valueError

/-- The object with the delay of the header, unless it has one of its own. -/
def withHeader (candidate : Members) (retry_after : Option Number) : Members :=
  match retry_after with
  | none => candidate
  | some seconds =>
    if (candidate.lookup "retryAfter").isNone && (candidate.lookup "retry_after").isNone then
      candidate ++ [("retryAfter", .num (seconds.scale 1000))]
    else candidate

/-- The delay in seconds, derived from the other one if it is absent. -/
def deriveSeconds (retry_after retry_after_seconds : Option Number) :
    Except OtherException (Option Number) :=
  match retry_after, retry_after_seconds with
  | some delay, none => (ceil delay).map some
  | _, seconds => .ok seconds

/-- `_extract_envelope`. -/
def extract_envelope (body : Value) (retry_after : Option Number) :
    Except OtherException (Option ExecuteErrorEnvelope) :=
  match typed? (candidate body) with
  | none => .ok none
  | some (_, candidate) => do
    let envelope ← model_validate (withHeader candidate retry_after)
    let seconds ← deriveSeconds envelope.retryAfter envelope.retryAfterSeconds
    return some { envelope with retryAfterSeconds := seconds }

/-- A blank of a regular expression. -/
def isSpace (c : Char) : Bool :=
  [0x85, 0xA0, 0x1680, 0x2028, 0x2029, 0x202F, 0x205F, 0x3000].contains c.toNat ||
    (decide (0x09 ≤ c.toNat) && decide (c.toNat ≤ 0x0D)) ||
    (decide (0x1C ≤ c.toNat) && decide (c.toNat ≤ 0x20)) ||
    (decide (0x2000 ≤ c.toNat) && decide (c.toNat ≤ 0x200A))

/-- A character of a token. -/
def isToken (c : Char) : Bool :=
  c.isAlphanum || ['.', '_', '-', '+', '/', '='].contains c

/-- What follows a match of `Bearer\s+[A-Za-z0-9._\-+/=]+`. -/
def afterBearer : List Char → Option (List Char)
  | 'B' :: 'e' :: 'a' :: 'r' :: 'e' :: 'r' :: rest =>
    let blank := rest.takeWhile isSpace
    let token := (rest.dropWhile isSpace).takeWhile isToken
    if blank = [] ∨ token = [] then none else some ((rest.dropWhile isSpace).dropWhile isToken)
  | _ => none

/-- Replace the matches, from the left; the bound is the length of the text. -/
def redactChars : ℕ → List Char → List Char
  | 0, chars => chars
  | _, [] => []
  | bound + 1, c :: rest =>
    match afterBearer (c :: rest) with
    | some rest => "Bearer [REDACTED]".toList ++ redactChars bound rest
    | none => c :: redactChars bound rest

/-- `_redact_str`. -/
def redact_str (s : String) : String :=
  String.ofList (redactChars s.toList.length s.toList)

/-- `_raise_from_response`: what is raised, an exception of the connector or another. -/
def execute (response : Failure) : Except OtherException ConnectorError := do
  let envelope ← extract_envelope (decode response.body) (retry_after_seconds response.retryAfter)
  let message := (envelope.map ExecuteErrorEnvelope.message).getD (httpStatus response.status)
  return {
    guardExhausted := decide (envelope.map ExecuteErrorEnvelope.type = some "guard_exhausted")
    status := response.status
    type := envelope.map ExecuteErrorEnvelope.type
    message := redact_str message
    retryAfter := envelope.bind ExecuteErrorEnvelope.retryAfter
    retryAfterSeconds := envelope.bind ExecuteErrorEnvelope.retryAfterSeconds }

end Python

end ModelConnector.Sdk
