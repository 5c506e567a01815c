import ModelConnector.Foundations.EcmaJson

/-!
# Values as strings

What the language does where it wants a string: it trims one, reads a property, and converts a value
that is none. The conversion of an object calls its `toString`. A JSON object that has a member of
this name has no method of this name, and the conversion throws. `encodeURIComponent` writes a
string for a URL.
-/

namespace Ecma

/-- White space and line terminators. -/
def isSpace (u : CodeUnit) : Bool :=
  [0x09, 0x0A, 0x0B, 0x0C, 0x0D, 0x20, 0xA0, 0x1680, 0x2028, 0x2029, 0x202F, 0x205F, 0x3000,
    0xFEFF].contains u.val || (0x2000 ≤ u.val && u.val ≤ 0x200A)

/-- `trim`. -/
def trim (t : Text) : Text :=
  (t.dropWhile isSpace).rdropWhile isSpace

/-- `includes`. -/
def includes (t piece : Text) : Bool :=
  decide (piece <:+: t)

/-- The property of a value, or nothing when the value is `null` and reading it throws; `undefined`
is `some none`. The name is one that nothing inherits. -/
def Value.property? (name : String) : Value → Option (Option Value)
  | .null => none
  | .obj members => some (members.lookup (ascii name))
  | .bool _ | .num _ | .str _ | .arr _ => some none

/-- `?.` of a property that may be missing. -/
def optional (name : String) (v : Option Value) : Option Value :=
  (v.bind (Value.property? name)).join

/-- Whether the property is a given string. -/
def isString (s : String) : Option Value → Bool
  | some (.str t) => t = ascii s
  | _ => false

/-- `ok` of a response. -/
def isOk (status : ℕ) : Bool :=
  decide (200 ≤ status) && decide (status ≤ 299)

/-- `?.[0]`. -/
def first? : Option Value → Option Value
  | some (.arr (v :: _)) => some v
  | some (.str (u :: _)) => some (.str [u])
  | some (.obj members) => members.lookup (ascii "0")
  | _ => none

/-- What is not `undefined` or `null`. -/
def nullish (v : Option Value) : Bool :=
  match v with
  | none | some .null => true
  | some _ => false

/-- Whether a condition holds that is the value. -/
def truthy : Option Value → Bool
  | none | some .null | some (.bool false) | some (.num .zero) | some (.str []) => false
  | some _ => true

mutual

/-- `ToString`, unless it throws. -/
def Value.string? : Value → Option Text
  | .null => some (ascii "null")
  | .bool b => some (ascii (if b then "true" else "false"))
  | .num n => some n.text
  | .str s => some s
  | .arr elems => (Value.strings? elems).map fun ts ↦ [0x2C].intercalate ts
  | .obj members =>
    if (members.lookup (ascii "toString")).isSome then none else some (ascii "[object Object]")

/-- The pieces of a `join`. -/
def Value.strings? : List Value → Option (List Text)
  | [] => some []
  | v :: rest =>
    match (if nullish (some v) then some [] else v.string?), Value.strings? rest with
    | some t, some ts => some (t :: ts)
    | _, _ => none

end

/-- The value is converted without an error, be it to a string or to a number. -/
def Value.Converts (v : Value) : Prop :=
  v.string?.isSome = true

instance : DecidablePred Value.Converts := fun v ↦
  inferInstanceAs (Decidable (v.string?.isSome = true))

/-! ### Strings in URLs

`encodeURIComponent`: the UTF-8 bytes of the code points that are not kept, with a percent sign
each. A surrogate that is not in a pair is no code point, and the function throws. -/

/-- The UTF-8 bytes of a code point. -/
def utf8Bytes (c : ℕ) : List ℕ :=
  if c < 0x80 then [c]
  else if c < 0x800 then [0xC0 + c / 0x40, 0x80 + c % 0x40]
  else if c < 0x10000 then [0xE0 + c / 0x1000, 0x80 + c / 0x40 % 0x40, 0x80 + c % 0x40]
  else [0xF0 + c / 0x40000, 0x80 + c / 0x1000 % 0x40, 0x80 + c / 0x40 % 0x40, 0x80 + c % 0x40]

/-- A hexadecimal digit, in upper case. -/
def upperHexDigit (n : ℕ) : CodeUnit :=
  if n < 10 then Fin.ofNat 0x10000 (0x30 + n) else Fin.ofNat 0x10000 (0x37 + n)

/-- A byte after its percent sign. -/
def percentByte (b : ℕ) : Text :=
  [0x25, upperHexDigit (b / 0x10), upperHexDigit (b % 0x10)]

/-- What `encodeURIComponent` keeps. -/
def isUriKept (c : ℕ) : Bool :=
  (0x30 ≤ c && c ≤ 0x39) || (0x41 ≤ c && c ≤ 0x5A) || (0x61 ≤ c && c ≤ 0x7A) ||
    [0x2D, 0x5F, 0x2E, 0x21, 0x7E, 0x2A, 0x27, 0x28, 0x29].contains c

/-- `encodeURIComponent`, unless it throws. -/
def encodeURIComponent (t : Text) : Option Text :=
  ((codePoints t).mapM fun c ↦
    if isUriKept c then some [Fin.ofNat 0x10000 c]
    else if 0xD800 ≤ c ∧ c < 0xE000 then none
    else some ((utf8Bytes c).flatMap percentByte)).map List.flatten

example : encodeURIComponent (ascii "a/b c") = some (ascii "a%2Fb%20c") := by decide

end Ecma
