import ModelConnector.Foundations.EcmaString
import ModelConnector.Foundations.Replacement
import ModelConnector.Sdk.Clients

/-!
# The causes of SDK errors

Both clients attach the body of a response without success to the error that they raise, after
`redactCause` and `redact_cause` have gone through it. They replace bearer tokens in texts and what
stands under a key `authorization`, and return what is too deep as it is. The TypeScript client
makes an object of an array, and its assignment to `__proto__` sets the prototype of the object: a
value that is none is dropped, and what is one is read under this name again.

A text is a list of code units in TypeScript and of characters in Python, where the surrogates that
`json.loads` leaves alone are left out. Numbers are not looked at.
-/

namespace ModelConnector.Sdk

/-! ### Causes -/

/-- A JSON value. -/
inductive Cause (α ν : Type)
  | null
  | bool (b : Bool)
  | num (n : ν)
  | str (s : List α)
  | arr (elems : List (Cause α ν))
  | obj (members : List (List α × Cause α ν))

/-- A value occurs in another one. -/
inductive Within {α ν : Type} (w : Cause α ν) : Cause α ν → Prop
  | refl : Within w w
  | elem {v : Cause α ν} {elems : List (Cause α ν)} : v ∈ elems → Within w v → Within w (.arr elems)
  | member {p : List α × Cause α ν} {members : List (List α × Cause α ν)} :
    p ∈ members → Within w p.2 → Within w (.obj members)

variable {α ν : Type}

/-- `typeof cause === 'object'`, and not null. -/
def Cause.isObject : Cause α ν → Bool
  | .arr _ | .obj _ => true
  | .null | .bool _ | .num _ | .str _ => false

/-! ### Going through a cause -/

/-- What one client does. -/
structure Redactor (α : Type) where
  /-- The bearer tokens, and what replaces them. -/
  bearer : TokenPattern α
  isAuthorization : List α → Bool
  /-- The keys of the elements of an array, if it becomes an object. -/
  indexKey? : Option (ℕ → List α)
  /-- The key that sets the prototype of an object. -/
  isProto : List α → Bool

namespace Redactor

variable (R : Redactor α)

/-- `'[REDACTED]'`. -/
def redacted : Cause α ν :=
  .str R.bearer.closing

/-- The members that an assignment keeps; redaction leaves an object an object. -/
def kept (members : List (List α × Cause α ν)) : List (List α × Cause α ν) :=
  members.filter fun p ↦ !R.isProto p.1 || p.2.isObject

/-- `Object.entries` of an array. -/
def indexed (key : ℕ → List α) (elems : List (Cause α ν)) : List (List α × Cause α ν) :=
  elems.zipIdx.map fun (v, i) ↦ (key i, v)

variable [DecidableEq α]

/-- A cause, as many levels deep. -/
def redact : ℕ → Cause α ν → Cause α ν
  | 0, cause => cause
  | _ + 1, .str s => .str (R.bearer.replace s)
  | n + 1, .arr elems =>
    match R.indexKey? with
    | none => .arr (elems.map (redact n))
    | some key => .obj ((R.kept (indexed key elems)).map fun p ↦
      (p.1, if R.isAuthorization p.1 then R.redacted else redact n p.2))
  | n + 1, .obj members => .obj ((R.kept members).map fun p ↦
      (p.1, if R.isAuthorization p.1 then R.redacted else redact n p.2))
  | _ + 1, .null => .null
  | _ + 1, .bool b => .bool b
  | _ + 1, .num n => .num n

end Redactor

/-! ### The two clients -/

/-- A letter of ASCII in lower case. No other letter is one of ASCII in lower case, but for the sign
of the kelvin, which the word has not got. -/
def lowerLetter (n : ℕ) : ℕ :=
  if 0x41 ≤ n && n ≤ 0x5A then n + 0x20 else n

/-- The numbers of the letters of a key are those of `authorization`, but for the case. -/
def isAuthorization (key : List ℕ) : Bool :=
  decide (key.map lowerLetter = "authorization".toList.map Char.toNat)

namespace TypeScript

open Ecma

/-- `[A-Za-z0-9._\-+/=]`. -/
def isToken (u : CodeUnit) : Bool :=
  (0x30 ≤ u.val && u.val ≤ 0x39) || (0x41 ≤ u.val && u.val ≤ 0x5A) ||
    (0x61 ≤ u.val && u.val ≤ 0x7A) || [0x2E, 0x5F, 0x2D, 0x2B, 0x2F, 0x3D].contains u.val

/-- `BEARER_RE`. -/
def bearer : TokenPattern CodeUnit where
  head := 0x42
  tail := ascii "earer"
  space := isSpace
  token := isToken
  blank := 0x20
  closing := ascii "[REDACTED]"
  disjoint x hx := by
    simp [isSpace, isToken] at hx ⊢
    omega
  space_head := by decide
  head_not_mem := by decide
  closing_ne x hx := by
    obtain rfl := Option.some.inj hx
    decide
  closing_ne_nil := by decide

def redactor : Redactor CodeUnit where
  bearer := bearer
  isAuthorization key := isAuthorization (key.map Fin.val)
  indexKey? := some fun i ↦ ascii (toString i)
  isProto key := decide (key = ascii "__proto__")

/-- `redactCause`. -/
def redactCause (cause : Cause CodeUnit ν) (depth : ℕ) : Cause CodeUnit ν :=
  redactor.redact (11 - depth) cause

end TypeScript

namespace Python

theorem toNat_of_isToken {c : Char} (h : isToken c = true) : 0x21 ≤ c.toNat ∧ c.toNat ≤ 0x7E := by
  have hval : ∀ d : Char, c = d → c.toNat = d.toNat := fun d hd ↦ congrArg Char.toNat hd
  have hletter : c.isAlphanum = (decide ('A'.val ≤ c.val ∧ c.val ≤ 'Z'.val) ||
      (decide ('a'.val ≤ c.val) && decide (c.val ≤ 'z'.val)) || c.isDigit) := rfl
  unfold isToken at h
  simp only [hletter, Char.isDigit, Bool.or_eq_true, Bool.and_eq_true, decide_eq_true_eq,
    List.contains_eq_mem, List.mem_cons, List.not_mem_nil, or_false, ge_iff_le,
    UInt32.le_iff_toNat_le] at h
  rcases h with ((⟨hl, hu⟩ | ⟨hl, hu⟩) | ⟨hl, hu⟩) | h
  · exact ⟨le_trans (by decide) hl, le_trans hu (by decide)⟩
  · exact ⟨le_trans (by decide) hl, le_trans hu (by decide)⟩
  · exact ⟨le_trans (by decide) hl, le_trans hu (by decide)⟩
  · rcases h with h | h | h | h | h | h
    all_goals
      rw [hval _ h]
      decide

/-- `_BEARER_RE`. -/
def bearer : TokenPattern Char where
  head := 'B'
  tail := "earer".toList
  space := isSpace
  token := isToken
  blank := ' '
  closing := "[REDACTED]".toList
  disjoint c hc := by
    have hrange := toNat_of_isToken hc
    simp [isSpace]
    omega
  space_head := by decide
  head_not_mem := by decide
  closing_ne c hc := by
    obtain rfl := Option.some.inj hc
    decide
  closing_ne_nil := by decide

def redactor : Redactor Char where
  bearer := bearer
  isAuthorization key := isAuthorization (key.map Char.toNat)
  indexKey? := none
  isProto _ := false

/-- `redact_cause`. -/
def redact_cause (cause : Cause Char ν) (depth : ℕ) : Cause Char ν :=
  redactor.redact (11 - depth) cause

end Python

end ModelConnector.Sdk
