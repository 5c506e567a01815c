import ModelConnector.Foundations.EcmaWriters

/-!
# Canonical texts

`canonical` and `monetaryCanonical` on values whose strings are lists of code units, so that a
string may hold half of a surrogate pair; and what `json.dumps` of the incumbent makes of the same
value. All three sort the members of objects by key and write no blank. `monetaryCanonical` rewrites
the text of `canonical`, one code unit at a time; the Python encoder goes by code points. -/

namespace ModelConnector.Signatures

open Ecma

/-! ### `canonical` -/

/-- `JSON.stringify` of numbers and strings, and the order of keys that `<` gives. -/
def stringify : Writer where
  number := Number.text
  body := quoteBody
  sortKey s := s.map Fin.val

/-- `canonical`. -/
def canonical (value : Value) : Text :=
  stringify.text value

/-- What stands for a code unit in `monetaryCanonical`: one that is not ASCII is escaped. -/
def asciiUnit (c : CodeUnit) : Text :=
  if c.val < 0x80 then [c] else unicodeEscape c

/-- `monetaryCanonical`. -/
def monetaryCanonical (value : Value) : Text :=
  (canonical value).flatMap asciiUnit

/-! ### `json.dumps` -/

/-- The replacement of `py_encode_basestring_ascii`, on a code point: what is not between a space
and a tilde is escaped, beyond 16 bits as two halves. -/
def pythonEscape (c : ℕ) : Text :=
  if c < 0x10000 then
    match shortEscape? (Fin.ofNat 0x10000 c) with
    | some escape => escape
    | none =>
      if 0x20 ≤ c ∧ c ≤ 0x7E then [Fin.ofNat 0x10000 c] else unicodeEscape (Fin.ofNat 0x10000 c)
  else
    unicodeEscape (Fin.ofNat 0x10000 (0xD800 + (c - 0x10000) / 0x400)) ++
      unicodeEscape (Fin.ofNat 0x10000 (0xDC00 + (c - 0x10000) % 0x400))

/-- The integer a number is, if it is one. -/
def integer? : Ecma.Number → Option ℤ
  | .zero => some 0
  | .nonzero negative digits point =>
    if digits.digits.length ≤ point then
      let magnitude := natOf (digits.digits ++
        List.replicate (point.toNat - digits.digits.length) 0)
      some (if negative then -magnitude else magnitude)
    else none

/-- `int.__repr__`. -/
def integerText (n : ℤ) : Text :=
  (if n < 0 then [0x2D] else []) ++ (digitsOf n.natAbs).map digitUnit

/-- `json.dumps(…, sort_keys=True, separators=(',', ':'), ensure_ascii=True)`: what it writes of
integers and of strings, which it sorts by code points. Floats are not meant. -/
def dumps : Writer where
  number n := integerText ((integer? n).getD 0)
  body s := (codePoints s).flatMap pythonEscape
  sortKey := codePoints

/-- The text of the incumbent. -/
def pythonDumps (value : Value) : Text :=
  dumps.text value

end ModelConnector.Signatures
