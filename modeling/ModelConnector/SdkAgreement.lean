import ModelConnector.Foundations.Result
import ModelConnector.Sdk.Redaction

/-!
# The two clients agree on errors

The clients find the error in the same object, unless `error` is there and no object. In that object
the Python client accepts what its model declares, and every other value is an exception of another
kind; the TypeScript client falls back. So they agree exactly on the responses whose error object
meets the declarations, and whose delay both of them read alike.
-/

namespace ModelConnector.Sdk

variable {response : Failure} {error payload : Members} {type : String}

/-- The two clients throw the same exception, which is the one for an exhausted guard exactly when
the type of the error says so. -/
def Agree (response : Failure) : Prop :=
  Python.execute response = .ok (TypeScript.execute response) ∧
    ((TypeScript.execute response).guardExhausted = true ↔
      (TypeScript.execute response).type = some "guard_exhausted")

/-- Both clients read the same delay, by the members `retryAfter` and `retry_after`: the first is a
number; or it is `null`, and the header asks for nothing; or it is absent, and the second, which the
TypeScript client does not know, says what the header says. -/
def SameDelay (header : Option HeaderValue) : Option Value → Option Value → Prop
  | some (.num _), _ => True
  | some .null, _ => TypeScript.headerDelay header = none
  | some _, _ => False
  | none, none => TypeScript.headerDelay header =
      (Python.retry_after_seconds header).map (Number.scale 1000)
  | none, some (.num n) => TypeScript.headerDelay header = some n
  | none, some .null => TypeScript.headerDelay header = none
  | none, some _ => False

/-- Both clients report the same seconds, by the members `retryAfterSeconds` and
`retry_after_seconds`: the first is a number; or it is `null` or absent, and there is no delay that
is not finite, and the second does not say otherwise. -/
def SameSeconds (delay : Option Number) : Option Value → Option Value → Prop
  | some (.num _), _ => True
  | some .null, _ => ∀ n ∈ delay, isFinite n = true
  | some _, _ => False
  | none, none => ∀ n ∈ delay, isFinite n = true
  | none, some .null => ∀ n ∈ delay, isFinite n = true
  | none, some (.num n) => delay.map ceilSeconds = some n
  | none, some _ => False

/-- The members of the error object are of the declared types, both clients read the same delay, and
the message holds no token that would be redacted. -/
structure Declared (response : Failure) (error : Members) : Prop where
  message : ∃ message, error.lookup "message" = some (.str message) ∧
    Python.redact_str message = message
  retryable : ∀ value, error.lookup "retryable" = some value → ∃ b, value = .bool b
  recommendation : ∀ value, error.lookup "recommendation" = some value →
    ∃ action ∈ Python.ErrorAction, value = .str action
  retryAfter : SameDelay response.retryAfter (error.lookup "retryAfter")
    (error.lookup "retry_after")
  retryAfterSeconds : SameSeconds (TypeScript.retryAfter error response.retryAfter)
    (error.lookup "retryAfterSeconds") (error.lookup "retry_after_seconds")

end ModelConnector.Sdk
