import Mathlib.Algebra.GroupWithZero.Nat
import Mathlib.Data.List.Lex
import Mathlib.Data.List.Sort

/-!
# ECMAScript strings, and their JSON text

A string of the language is a list of 16-bit code units. Nothing says that its surrogates are in
pairs, and the JSON text of a string takes care of the ones that are not: `quoteBody` is the body of
`QuoteJSONString`, which escapes them, and `readBody` reads the body of a JSON string back, one code
unit at a time.

What a body says does not depend on how it is spelled: `Spelled` relates a string to the bodies
whose pieces stand for its code units, and `readBody` inverts every one of them. -/

namespace Ecma

/-- A code unit. -/
abbrev CodeUnit :=
  Fin 0x10000

instance instNeZeroCodeUnits : NeZero 0x10000 :=
  ⟨by decide⟩

/-- A string. -/
abbrev Text :=
  List CodeUnit

/-- The text of ASCII characters. -/
def ascii (s : String) : Text :=
  s.toList.map fun c ↦ Fin.ofNat 0x10000 c.toNat

/-! ### Surrogates -/

/-- The first half of a pair. -/
def isLead (u : CodeUnit) : Bool :=
  decide (0xD800 ≤ u.val) && decide (u.val < 0xDC00)

/-- The second half of a pair. -/
def isTrail (u : CodeUnit) : Bool :=
  decide (0xDC00 ≤ u.val) && decide (u.val < 0xE000)

/-- The code points of a string; a surrogate that is not in a pair stands for itself. -/
def codePoints : Text → List ℕ
  | [] => []
  | [u] => [u.val]
  | u :: v :: rest =>
    if isLead u && isTrail v then
      (0x10000 + 0x400 * (u.val - 0xD800) + (v.val - 0xDC00)) :: codePoints rest
    else u.val :: codePoints (v :: rest)

/-! ### Escapes -/

/-- A hexadecimal digit, in lower case. -/
def hexDigit (n : ℕ) : CodeUnit :=
  if n < 10 then Fin.ofNat 0x10000 (0x30 + n) else Fin.ofNat 0x10000 (0x57 + n)

/-- `UnicodeEscape`. -/
def unicodeEscape (u : CodeUnit) : Text :=
  [0x5C, 0x75, hexDigit (u.val / 0x1000), hexDigit (u.val / 0x100 % 0x10),
    hexDigit (u.val / 0x10 % 0x10), hexDigit (u.val % 0x10)]

/-- The short escapes, and what they stand for. -/
def shortEscape? (u : CodeUnit) : Option Text :=
  if u.val = 0x08 then some [0x5C, 0x62]
  else if u.val = 0x09 then some [0x5C, 0x74]
  else if u.val = 0x0A then some [0x5C, 0x6E]
  else if u.val = 0x0C then some [0x5C, 0x66]
  else if u.val = 0x0D then some [0x5C, 0x72]
  else if u.val = 0x22 then some [0x5C, 0x22]
  else if u.val = 0x5C then some [0x5C, 0x5C]
  else none

/-- What stands for a code unit that is not in a pair. -/
def quoteUnit (u : CodeUnit) : Text :=
  match shortEscape? u with
  | some escape => escape
  | none => if u.val < 0x20 || isLead u || isTrail u then unicodeEscape u else [u]

/-- What `QuoteJSONString` writes between the quotation marks. -/
def quoteBody : Text → Text
  | [] => []
  | [u] => quoteUnit u
  | u :: v :: rest =>
    if isLead u && isTrail v then u :: v :: quoteBody rest
    else quoteUnit u ++ quoteBody (v :: rest)

/-! ### Reading -/

/-- The value of a hexadecimal digit. -/
def hexValue? (u : CodeUnit) : Option ℕ :=
  if 0x30 ≤ u.val ∧ u.val ≤ 0x39 then some (u.val - 0x30)
  else if 0x61 ≤ u.val ∧ u.val ≤ 0x66 then some (u.val - 0x57)
  else if 0x41 ≤ u.val ∧ u.val ≤ 0x46 then some (u.val - 0x37)
  else none

/-- What a short escape stands for, by the code unit after the backslash. -/
def unescape? (u : CodeUnit) : Option CodeUnit :=
  if u.val = 0x22 then some 0x22
  else if u.val = 0x5C then some 0x5C
  else if u.val = 0x2F then some 0x2F
  else if u.val = 0x62 then some 0x08
  else if u.val = 0x66 then some 0x0C
  else if u.val = 0x6E then some 0x0A
  else if u.val = 0x72 then some 0x0D
  else if u.val = 0x74 then some 0x09
  else none

/-- Where in a string the reader is. -/
inductive StringMode
  | plain
  /-- After a backslash. -/
  | escape
  /-- In `\uXXXX`, with so many digits to come after the next one, of the value so far. -/
  | hex (more value : ℕ)
  deriving DecidableEq

/-- Put a code unit before what was read. -/
def consUnit (u : CodeUnit) (p : Text × Text) : Text × Text :=
  (u :: p.1, p.2)

/-- Read a string up to its closing quotation mark: the string, and the text after it. -/
def readBody : StringMode → Text → Option (Text × Text)
  | _, [] => none
  | .plain, u :: rest =>
    if u.val = 0x22 then some ([], rest)
    else if u.val = 0x5C then readBody .escape rest
    else if u.val < 0x20 then none
    else (readBody .plain rest).map (consUnit u)
  | .escape, u :: rest =>
    if u.val = 0x75 then readBody (.hex 3 0) rest
    else
      match unescape? u with
      | some v => (readBody .plain rest).map (consUnit v)
      | none => none
  | .hex more value, u :: rest =>
    match hexValue? u with
    | none => none
    | some digit =>
      match more with
      | 0 => (readBody .plain rest).map (consUnit (Fin.ofNat 0x10000 (0x10 * value + digit)))
      | more + 1 => readBody (.hex more (0x10 * value + digit)) rest

/-! ### Spellings -/

/-- A piece of a body stands for a code unit, whatever follows. -/
def Spells (piece : Text) (u : CodeUnit) : Prop :=
  ∀ t, readBody .plain (piece ++ t) = (readBody .plain t).map (consUnit u)

/-- The body of a string whose pieces stand for its code units. -/
inductive Spelled : Text → Text → Prop
  | nil : Spelled [] []
  | cons {piece : Text} {u : CodeUnit} {body s : Text} (h : Spells piece u) (hs : Spelled body s) :
      Spelled (piece ++ body) (u :: s)

/-- Every spelling of a string is read as it. -/
theorem Spelled.readBody {body s : Text} (h : Spelled body s) (t : Text) :
    readBody .plain (body ++ 0x22 :: t) = some (s, t) := by
  induction h with
  | nil => rfl
  | cons h _ ih =>
    rw [List.append_assoc, h, ih]
    rfl

theorem Spelled.append {body body' s s' : Text} (h : Spelled body s) (h' : Spelled body' s') :
    Spelled (body ++ body') (s ++ s') := by
  induction h with
  | nil => exact h'
  | cons h _ ih =>
    rw [List.append_assoc, List.cons_append]
    exact .cons h ih

theorem Spells.spelled {piece : Text} {u : CodeUnit} (h : Spells piece u) : Spelled piece [u] := by
  have hone := Spelled.cons h .nil
  rwa [List.append_nil] at hone

/-- A code unit that needs no escape stands for itself. -/
theorem spells_self {u : CodeUnit} (hquote : u.val ≠ 0x22) (hslash : u.val ≠ 0x5C)
    (hcontrol : 0x20 ≤ u.val) : Spells [u] u := by
  intro t
  rw [List.singleton_append, readBody, if_neg hquote, if_neg hslash, if_neg (not_lt.2 hcontrol)]

theorem hexValue?_hexDigit : ∀ n < 0x10, hexValue? (hexDigit n) = some n := by
  decide

/-- The four digits of an escape are read as the code unit. -/
theorem spells_unicodeEscape (u : CodeUnit) : Spells (unicodeEscape u) u := by
  intro t
  have hu := u.isLt
  have hvalue : Fin.ofNat 0x10000 (0x10 * (0x10 * (0x10 * (0x10 * 0 + u.val / 0x1000) +
      u.val / 0x100 % 0x10) + u.val / 0x10 % 0x10) + u.val % 0x10) = u := by
    refine Fin.ext ?_
    rw [Fin.val_ofNat]
    omega
  simp only [unicodeEscape, List.cons_append, List.nil_append]
  rw [readBody, if_neg (by decide), if_pos (by decide), readBody, if_pos (by decide)]
  simp only [readBody, hexValue?_hexDigit _ (show u.val / 0x1000 < 0x10 by omega),
    hexValue?_hexDigit _ (Nat.mod_lt _ (show 0 < 0x10 by decide)), hvalue]

/-- A short escape stands for its code unit. -/
theorem spells_shortEscape {u : CodeUnit} {escape : Text} (h : shortEscape? u = some escape) :
    Spells escape u := by
  have hshort : ∀ (v : CodeUnit) (n : ℕ), u.val = n → v.val ≠ 0x75 →
      (unescape? v).map Fin.val = some n → Spells [0x5C, v] u := by
    intro v n hn hv hw t
    obtain ⟨w, hw, hwn⟩ := Option.map_eq_some_iff.1 hw
    rw [List.cons_append, List.singleton_append, readBody, if_neg (by decide), if_pos (by decide),
      readBody, if_neg hv, hw, Fin.ext (hn.trans hwn.symm)]
  unfold shortEscape? at h
  split_ifs at h with hu hu hu hu hu hu hu
  all_goals
    cases h
    exact hshort _ _ hu (by decide) (by decide)

theorem spells_quoteUnit (u : CodeUnit) : Spells (quoteUnit u) u := by
  unfold quoteUnit
  cases h : shortEscape? u with
  | some escape => exact spells_shortEscape h
  | none =>
    split_ifs with hescape
    · exact spells_unicodeEscape u
    · have hquote : u.val ≠ 0x22 := by
        rintro hu
        simp [shortEscape?, hu] at h
      have hslash : u.val ≠ 0x5C := by
        rintro hu
        simp [shortEscape?, hu] at h
      simp only [Bool.or_eq_true, decide_eq_true_eq, not_or, not_lt] at hescape
      exact spells_self hquote hslash hescape.1.1

/-- `QuoteJSONString` spells the string. -/
theorem spelled_quoteBody (s : Text) : Spelled (quoteBody s) s := by
  fun_induction quoteBody s with
  | case1 => exact .nil
  | case2 u => exact (spells_quoteUnit u).spelled
  | case3 u v rest hpair ih =>
    -- The halves of a pair stand for themselves.
    simp only [isLead, isTrail, Bool.and_eq_true, decide_eq_true_eq] at hpair
    have hself : ∀ c : CodeUnit, 0xD800 ≤ c.val → Spells [c] c := fun c hc ↦
      spells_self (by omega) (by omega) (by omega)
    exact .cons (hself u (by omega)) (.cons (hself v (by omega)) ih)
  | case4 u v rest hpair ih => exact .cons (spells_quoteUnit u) ih

end Ecma
