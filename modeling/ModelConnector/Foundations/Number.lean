import Mathlib.Algebra.Order.Field.Rat
import ModelConnector.Foundations.Rounding

/-!
# Numbers of a script

A number of a scripting language is a rational, one of the two infinities, or not a number.
Rounding to a double is not modelled, its overflow is: `Number.ofRat` is infinite from the bound on
from which the nearest double is. `Number.ofString` is the conversion of a text, by the grammar of
numeric literals, and `Number.toFixed` the one there and back with a fixed number of decimals.
-/

/-- A number. -/
inductive Number
  | finite (value : ℚ)
  | infinite (negative : Bool)
  | nan
  deriving DecidableEq

namespace Number

/-- The value of a number, when it is finite. -/
def finite? : Number → Option ℚ
  | finite value => some value
  | infinite _ => none
  | nan => none

/-- The number a value is stored as. -/
def ofRat (value : ℚ) : Number :=
  if |value| < 2 ^ 1024 - 2 ^ 970 then finite value else infinite (decide (value < 0))

/-- `Number(value.toFixed(decimals))`; from `10 ^ 21` on, `toFixed` keeps the value. -/
def toFixed (decimals : ℕ) : Number → Number
  | finite value =>
    if |value| < 10 ^ 21 then ofRat (roundHalfAway (value * 10 ^ decimals) / 10 ^ decimals)
    else finite value
  | number => number

/-- `a * b` for a finite `b`. -/
def scale (b : ℚ) : Number → Number
  | finite value => ofRat (value * b)
  | infinite negative =>
    if b = 0 then nan else infinite (xor negative (decide (b < 0)))
  | nan => nan

/-- The characters that are trimmed. -/
def isWhiteSpace (c : Char) : Bool :=
  [0x09, 0x0A, 0x0B, 0x0C, 0x0D, 0x20, 0xA0, 0x1680, 0x2028, 0x2029, 0x202F, 0x205F, 0x3000,
      0xFEFF].contains c.toNat ||
    (decide (0x2000 ≤ c.toNat) && decide (c.toNat ≤ 0x200A))

/-- `text.trim()`. -/
def trim (text : List Char) : List Char :=
  ((text.dropWhile isWhiteSpace).reverse.dropWhile isWhiteSpace).reverse

/-- The value of a digit in a base. -/
def digit? (base : ℕ) (c : Char) : Option ℕ :=
  let value :=
    if '0' ≤ c ∧ c ≤ '9' then some (c.toNat - '0'.toNat)
    else if 'a' ≤ c ∧ c ≤ 'f' then some (c.toNat - 'a'.toNat + 10)
    else if 'A' ≤ c ∧ c ≤ 'F' then some (c.toNat - 'A'.toNat + 10)
    else none
  value.filter fun digit ↦ decide (digit < base)

/-- Read the digits at the front, after a value and a count of digits read before. -/
def takeDigits (base value count : ℕ) : List Char → ℕ × ℕ × List Char
  | [] => (value, count, [])
  | c :: cs =>
    match digit? base c with
    | some digit => takeDigits base (value * base + digit) (count + 1) cs
    | none => (value, count, c :: cs)

/-- A sign at the front. -/
def takeSign : List Char → Bool × List Char
  | '-' :: cs => (true, cs)
  | '+' :: cs => (false, cs)
  | cs => (false, cs)

/-- The exponent part, which must be the whole text. -/
def exponent? : List Char → Option ℤ
  | [] => some 0
  | c :: cs =>
    if c = 'e' ∨ c = 'E' then
      match takeSign cs with
      | (negative, digits) =>
        match takeDigits 10 0 0 digits with
        | (value, count, []) =>
          if count = 0 then none else some (if negative then -value else value)
        | (_, _, _ :: _) => none
    else none

/-- A decimal literal without a sign. -/
def unsigned? (text : List Char) : Option ℚ :=
  match takeDigits 10 0 0 text with
  | (whole, digits, '.' :: rest) =>
    match takeDigits 10 whole 0 rest with
    | (mantissa, decimals, rest) =>
      if digits + decimals = 0 then none
      else (exponent? rest).map fun e : ℤ ↦ mantissa * (10 : ℚ) ^ (e - (decimals : ℤ))
  | (whole, digits, rest) =>
    if digits = 0 then none else (exponent? rest).map fun e : ℤ ↦ whole * (10 : ℚ) ^ e

/-- A literal in the base its prefix names. -/
def inBase (base : ℕ) (digits : List Char) : Number :=
  match takeDigits base 0 0 digits with
  | (value, count, []) => if count = 0 then nan else ofRat value
  | (_, _, _ :: _) => nan

/-- `Number(text)`. -/
def ofString (text : List Char) : Number :=
  match trim text with
  | [] => finite 0
  | '0' :: 'x' :: digits | '0' :: 'X' :: digits => inBase 16 digits
  | '0' :: 'o' :: digits | '0' :: 'O' :: digits => inBase 8 digits
  | '0' :: 'b' :: digits | '0' :: 'B' :: digits => inBase 2 digits
  | literal =>
    match takeSign literal with
    | (negative, unsigned) =>
      if unsigned = "Infinity".toList then infinite negative
      else
        match unsigned? unsigned with
        | some value => ofRat (if negative then -value else value)
        | none => nan

end Number
