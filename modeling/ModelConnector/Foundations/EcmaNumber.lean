import Mathlib.Algebra.Order.Field.Rat
import Mathlib.Data.List.DropRight
import Mathlib.Data.Nat.Digits.Lemmas
import Mathlib.Data.Rat.Defs
import Mathlib.Tactic.Ring
import ModelConnector.Foundations.EcmaText

/-!
# ECMAScript numbers, and their text

A finite number is kept as what `Number::toString` makes of it: its shortest decimal digits, without
zeros at either end, and the position of the point. The two zeros have one text, and are one number
here. Reading does not round to a double; of what is written, the digits are the shortest ones of
some double, and reading gives that one.

`readNumber_text` says that the text of a number is read as the number.
-/

namespace Ecma

/-- A decimal digit. -/
abbrev Digit :=
  Fin 10

instance instNeZeroDigits : NeZero 10 :=
  ⟨by decide⟩

/-- The digits of a number, without zeros at either end. -/
structure Significant where
  digits : List Digit
  ne_nil : digits ≠ []
  head_ne : digits.head? ≠ some 0
  last_ne : digits.getLast? ≠ some 0
  deriving DecidableEq

/-- A finite number: `0.d₁…dₖ · 10^point`, or zero. -/
inductive Number
  | zero
  | nonzero (negative : Bool) (digits : Significant) (point : ℤ)
  deriving DecidableEq

/-! ### Digits -/

theorem head?_dropWhile_zero (ds : List Digit) : (ds.dropWhile (· = 0)).head? ≠ some 0 := by
  intro h
  have hnot := List.head?_dropWhile_not (fun d : Digit ↦ decide (d = 0)) ds
  rw [h] at hnot
  exact absurd hnot (by decide)

/-- The digits of a list without the zeros at either end, if any are left. -/
def significant? (ds : List Digit) : Option Significant :=
  if h : (ds.dropWhile (· = 0)).rdropWhile (· = 0) = [] then none
  else
    some
      { digits := (ds.dropWhile (· = 0)).rdropWhile (· = 0)
        ne_nil := h
        head_ne := by
          obtain ⟨dropped, hdropped⟩ := List.rdropWhile_prefix (fun d : Digit ↦ decide (d = 0))
            (ds.dropWhile (· = 0))
          rw [← List.head?_append_of_ne_nil _ h, hdropped]
          exact head?_dropWhile_zero ds
        last_ne := by
          rw [List.rdropWhile, List.getLast?_reverse]
          exact head?_dropWhile_zero _ }

/-- The number `0.d₁…dₖ · 10^point`, whose digits may be zeros at either end. -/
def Number.ofDecimal (negative : Bool) (ds : List Digit) (point : ℤ) : Number :=
  match significant? ds with
  | none => .zero
  | some digits => .nonzero negative digits (point - (ds.takeWhile (· = 0)).length)

/-- The number the digits of a natural number stand for. -/
def natOf (ds : List Digit) : ℕ :=
  ds.foldl (fun n d ↦ 10 * n + d.val) 0

/-- The digits of a natural number. -/
def digitsOf (n : ℕ) : List Digit :=
  if n = 0 then [0] else ((Nat.digits 10 n).map (Fin.ofNat 10)).reverse

theorem dropWhile_padded (digits : Significant) (a : ℕ) (ds : List Digit) :
    (List.replicate a 0 ++ digits.digits ++ ds).dropWhile (· = 0) = digits.digits ++ ds := by
  have hzeros : ∀ d ∈ List.replicate a (0 : Digit), decide (d = 0) = true := fun d hd ↦
    decide_eq_true (List.eq_of_mem_replicate hd)
  rw [List.append_assoc, List.dropWhile_append_of_pos hzeros]
  have hhead := digits.head_ne
  cases hdigits : digits.digits with
  | nil => exact absurd hdigits digits.ne_nil
  | cons d rest =>
    rw [hdigits] at hhead
    rw [List.cons_append, List.dropWhile_cons_of_neg]
    simpa using hhead

theorem takeWhile_padded (digits : Significant) (a : ℕ) (ds : List Digit) :
    (List.replicate a 0 ++ digits.digits ++ ds).takeWhile (· = 0) = List.replicate a 0 := by
  have hzeros : ∀ d ∈ List.replicate a (0 : Digit), decide (d = 0) = true := fun d hd ↦
    decide_eq_true (List.eq_of_mem_replicate hd)
  rw [List.append_assoc, List.takeWhile_append_of_pos hzeros]
  have hhead := digits.head_ne
  cases hdigits : digits.digits with
  | nil => exact absurd hdigits digits.ne_nil
  | cons d rest =>
    rw [hdigits] at hhead
    rw [List.cons_append, List.takeWhile_cons_of_neg, List.append_nil]
    simpa using hhead

theorem rdropWhile_padded (digits : Significant) (b : ℕ) :
    (digits.digits ++ List.replicate b 0).rdropWhile (· = 0) = digits.digits := by
  have hzeros : ∀ d ∈ List.replicate b (0 : Digit), decide (d = 0) = true := fun d hd ↦
    decide_eq_true (List.eq_of_mem_replicate hd)
  rw [List.rdropWhile, List.reverse_append, List.reverse_replicate,
    List.dropWhile_append_of_pos hzeros]
  have hlast := digits.last_ne
  rw [← List.head?_reverse] at hlast
  cases hdigits : digits.digits.reverse with
  | nil => exact absurd (List.reverse_eq_nil_iff.1 hdigits) digits.ne_nil
  | cons d rest =>
    rw [hdigits] at hlast
    rw [List.dropWhile_cons_of_neg, ← hdigits, List.reverse_reverse]
    simpa using hlast

/-- Zeros at either end do not count, but for the point. -/
theorem ofDecimal_padded (negative : Bool) (digits : Significant) (a b : ℕ) (point : ℤ) :
    Number.ofDecimal negative (List.replicate a 0 ++ digits.digits ++ List.replicate b 0) point =
      .nonzero negative digits (point - a) := by
  have hsignificant : significant? (List.replicate a 0 ++ digits.digits ++ List.replicate b 0) =
      some digits := by
    have hdigits : ((List.replicate a 0 ++ digits.digits ++ List.replicate b 0).dropWhile
        (· = 0)).rdropWhile (· = 0) = digits.digits := by
      rw [dropWhile_padded, rdropWhile_padded]
    unfold significant?
    rw [dif_neg (by rw [hdigits]; exact digits.ne_nil)]
    cases digits
    simp only [hdigits]
  rw [Number.ofDecimal, hsignificant, takeWhile_padded, List.length_replicate]

theorem natOf_reverse (ds : List ℕ) (h : ∀ d ∈ ds, d < 10) :
    natOf ((ds.map (Fin.ofNat 10)).reverse) = Nat.ofDigits 10 ds := by
  induction ds with
  | nil => rfl
  | cons d ds ih =>
    have hd := h d List.mem_cons_self
    rw [List.map_cons, List.reverse_cons, natOf, List.foldl_append, ← natOf,
      ih fun d hd ↦ h d (List.mem_cons_of_mem _ hd), Nat.ofDigits_cons]
    simp only [List.foldl_cons, List.foldl_nil, Fin.val_ofNat, Nat.mod_eq_of_lt hd]
    ring

theorem natOf_digitsOf (n : ℕ) : natOf (digitsOf n) = n := by
  unfold digitsOf
  split_ifs with hn
  · rw [hn]
    rfl
  · rw [natOf_reverse _ fun d hd ↦ Nat.digits_lt_base (by decide) hd, Nat.ofDigits_digits]

theorem digitsOf_ne_nil (n : ℕ) : digitsOf n ≠ [] := by
  unfold digitsOf
  split_ifs with hn
  · exact List.cons_ne_nil _ _
  · simpa [Nat.digits_eq_nil_iff_eq_zero] using hn

/-! ### Text -/

/-- A digit as a code unit. -/
def digitUnit (d : Digit) : CodeUnit :=
  Fin.ofNat 0x10000 (0x30 + d.val)

/-- The digit a code unit stands for. -/
def digit? (u : CodeUnit) : Option Digit :=
  if h : 0x30 ≤ u.val ∧ u.val ≤ 0x39 then some ⟨u.val - 0x30, by omega⟩ else none

/-- What stands before the point, after it, and in the exponent. -/
structure Layout where
  integer : List Digit
  fraction : List Digit
  exponent : Option ℤ

/-- The cases of `Number::toString`. -/
def layout (digits : List Digit) (point : ℤ) : Layout :=
  if digits.length ≤ point ∧ point ≤ 21 then
    ⟨digits ++ List.replicate (point.toNat - digits.length) 0, [], none⟩
  else if 0 < point ∧ point ≤ 21 then
    ⟨digits.take point.toNat, digits.drop point.toNat, none⟩
  else if -6 < point ∧ point ≤ 0 then
    ⟨[0], List.replicate (-point).toNat 0 ++ digits, none⟩
  else ⟨digits.take 1, digits.drop 1, some (point - 1)⟩

/-- The digits after the point, if there are any. -/
def fractionText (fraction : List Digit) : Text :=
  if fraction = [] then [] else 0x2E :: fraction.map digitUnit

/-- The exponent, with its sign. -/
def exponentText : Option ℤ → Text
  | none => []
  | some exponent =>
    0x65 :: (if exponent < 0 then 0x2D else 0x2B) :: (digitsOf exponent.natAbs).map digitUnit

/-- The text of a layout. -/
def Layout.text (l : Layout) : Text :=
  l.integer.map digitUnit ++ fractionText l.fraction ++ exponentText l.exponent

/-- `Number::toString`. -/
def Number.text : Number → Text
  | zero => [0x30]
  | nonzero negative digits point =>
    (if negative then [0x2D] else []) ++ (layout digits.digits point).text

/-! ### Reading -/

/-- The digits at the start of a text. -/
def takeDigits : Text → List Digit × Text
  | [] => ([], [])
  | u :: rest =>
    match digit? u with
    | some d => (d :: (takeDigits rest).1, (takeDigits rest).2)
    | none => ([], u :: rest)

/-- `-`, if it is there. -/
def readSign : Text → Bool × Text
  | [] => (false, [])
  | u :: rest => if u.val = 0x2D then (true, rest) else (false, u :: rest)

/-- A zero, or digits that do not start with one. -/
def readInteger : Text → Option (List Digit × Text)
  | [] => none
  | u :: rest =>
    match digit? u with
    | none => none
    | some d =>
      if d = 0 then some ([0], rest) else some (d :: (takeDigits rest).1, (takeDigits rest).2)

/-- A point and at least one digit, if the point is there. -/
def readFraction : Text → Option (List Digit × Text)
  | [] => some ([], [])
  | u :: rest =>
    if u.val = 0x2E then if (takeDigits rest).1 = [] then none else some (takeDigits rest)
    else some ([], u :: rest)

/-- The digits of an exponent, at least one. -/
def readExponentDigits (negative : Bool) (t : Text) : Option (ℤ × Text) :=
  if (takeDigits t).1 = [] then none
  else some (if negative then -natOf (takeDigits t).1 else natOf (takeDigits t).1, (takeDigits t).2)

/-- `e`, a sign and digits, if the `e` is there. -/
def readExponent : Text → Option (ℤ × Text)
  | [] => some (0, [])
  | u :: rest =>
    if u.val = 0x65 ∨ u.val = 0x45 then
      match rest with
      | [] => none
      | v :: rest' =>
        if v.val = 0x2D then readExponentDigits true rest'
        else if v.val = 0x2B then readExponentDigits false rest'
        else readExponentDigits false rest
    else some (0, u :: rest)

/-- Read a number: the number, and the text after it. -/
def readNumber (t : Text) : Option (Number × Text) := do
  let (negative, t) := readSign t
  let (integer, t) ← readInteger t
  let (fraction, t) ← readFraction t
  let (exponent, t) ← readExponent t
  some (.ofDecimal negative (integer ++ fraction) (integer.length + exponent), t)

/-! ### The text is read as the number -/

/-- What comes next does not go on with digits. -/
def DigitsEnd (t : Text) : Prop :=
  ∀ u ∈ t.head?, digit? u = none

/-- What comes next does not go on with a number. -/
def NumberEnds (t : Text) : Prop :=
  ∀ u ∈ t.head?, digit? u = none ∧ u.val ≠ 0x2E ∧ u.val ≠ 0x65 ∧ u.val ≠ 0x45

theorem NumberEnds.digitsEnd {t : Text} (h : NumberEnds t) : DigitsEnd t :=
  fun u hu ↦ (h u hu).1

theorem digit?_digitUnit : ∀ d : Digit, digit? (digitUnit d) = some d := by
  decide

theorem digitUnit_ne_minus : ∀ d : Digit, (digitUnit d).val ≠ 0x2D := by
  decide

theorem takeDigits_append (ds : List Digit) {t : Text} (h : DigitsEnd t) :
    takeDigits (ds.map digitUnit ++ t) = (ds, t) := by
  induction ds with
  | nil =>
    cases t with
    | nil => rfl
    | cons u rest =>
      rw [List.map_nil, List.nil_append, takeDigits, h u rfl]
  | cons d ds ih =>
    rw [List.map_cons, List.cons_append, takeDigits, digit?_digitUnit, ih]

theorem readInteger_append {integer : List Digit} {t : Text}
    (hinteger : integer = [0] ∨ integer ≠ [] ∧ integer.head? ≠ some 0) (h : DigitsEnd t) :
    readInteger (integer.map digitUnit ++ t) = some (integer, t) := by
  rcases hinteger with rfl | ⟨hnil, hhead⟩
  · rfl
  · cases integer with
    | nil => exact absurd rfl hnil
    | cons d ds =>
      have hd : d ≠ 0 := by simpa using hhead
      rw [List.map_cons, List.cons_append, readInteger, digit?_digitUnit]
      simp only [if_neg hd, takeDigits_append ds h]

theorem readFraction_append (fraction : List Digit) {t : Text} (h : DigitsEnd t)
    (hpoint : ∀ u ∈ t.head?, u.val ≠ 0x2E) :
    readFraction (fractionText fraction ++ t) = some (fraction, t) := by
  unfold fractionText
  split_ifs with hnil
  · subst hnil
    cases t with
    | nil => rfl
    | cons u rest => rw [List.nil_append, readFraction, if_neg (hpoint u rfl)]
  · rw [List.cons_append, readFraction, if_pos (by decide), takeDigits_append fraction h,
      if_neg hnil]

theorem readExponentDigits_append (negative : Bool) (n : ℕ) {t : Text} (h : DigitsEnd t) :
    readExponentDigits negative ((digitsOf n).map digitUnit ++ t) =
      some (if negative then -(n : ℤ) else n, t) := by
  rw [readExponentDigits, takeDigits_append _ h, if_neg (digitsOf_ne_nil n), natOf_digitsOf]

theorem readExponent_append (exponent : Option ℤ) {t : Text} (h : NumberEnds t) :
    readExponent (exponentText exponent ++ t) = some (exponent.getD 0, t) := by
  cases exponent with
  | none =>
    cases t with
    | nil => rfl
    | cons u rest =>
      rw [exponentText, List.nil_append, readExponent.eq_def]
      exact if_neg (not_or.2 ⟨(h u rfl).2.2.1, (h u rfl).2.2.2⟩)
  | some e =>
    rw [exponentText, List.cons_append, List.cons_append, readExponent.eq_def]
    simp only []
    rw [if_pos (.inl (by decide))]
    by_cases he : e < 0
    · simp only [if_pos he]
      rw [if_pos (by decide), readExponentDigits_append true _ h.digitsEnd, if_pos rfl,
        Option.getD_some]
      congr 2
      omega
    · simp only [if_neg he]
      rw [if_neg (by decide), if_pos (by decide), readExponentDigits_append false _ h.digitsEnd,
        if_neg Bool.false_ne_true, Option.getD_some]
      congr 2
      omega

/-- The text of a layout is read as what it lays out. -/
theorem readNumber_layout (negative : Bool) {l : Layout} {t : Text}
    (hinteger : l.integer = [0] ∨ l.integer ≠ [] ∧ l.integer.head? ≠ some 0) (h : NumberEnds t) :
    readNumber ((if negative then [0x2D] else []) ++ l.text ++ t) =
      some (.ofDecimal negative (l.integer ++ l.fraction) (l.integer.length + l.exponent.getD 0),
        t) := by
  -- what follows the integer, and what follows the fraction
  have hexponent : DigitsEnd (exponentText l.exponent ++ t) ∧
      ∀ u ∈ (exponentText l.exponent ++ t).head?, u.val ≠ 0x2E := by
    cases l.exponent with
    | none => exact ⟨h.digitsEnd, fun u hu ↦ (h u hu).2.1⟩
    | some e => exact ⟨fun u hu ↦ by cases hu; decide, fun u hu ↦ by cases hu; decide⟩
  have hfraction : DigitsEnd (fractionText l.fraction ++ (exponentText l.exponent ++ t)) := by
    unfold fractionText
    split_ifs
    · exact hexponent.1
    · exact fun u hu ↦ by cases hu; decide
  have hsign : readSign ((if negative then [0x2D] else []) ++ l.text ++ t) =
      (negative, l.integer.map digitUnit ++
        (fractionText l.fraction ++ (exponentText l.exponent ++ t))) := by
    have htext : l.text ++ t = l.integer.map digitUnit ++
        (fractionText l.fraction ++ (exponentText l.exponent ++ t)) := by
      simp only [Layout.text, List.append_assoc]
    cases negative with
    | true => rw [if_pos rfl, List.append_assoc, htext]; rfl
    | false =>
      rw [if_neg Bool.false_ne_true, List.nil_append, htext]
      cases hdigits : l.integer with
      | nil => simp [hdigits] at hinteger
      | cons d ds =>
        rw [List.map_cons, List.cons_append, readSign, if_neg (digitUnit_ne_minus d)]
  simp only [readNumber, hsign, readInteger_append hinteger hfraction,
    readFraction_append l.fraction hexponent.1 hexponent.2, readExponent_append l.exponent h,
    Option.bind_eq_bind, Option.bind_some]

theorem layout_integer (digits : Significant) (point : ℤ) :
    (layout digits.digits point).integer = [0] ∨ (layout digits.digits point).integer ≠ [] ∧
      (layout digits.digits point).integer.head? ≠ some 0 := by
  have hhead := digits.head_ne
  cases hdigits : digits.digits with
  | nil => exact absurd hdigits digits.ne_nil
  | cons d ds =>
    rw [hdigits] at hhead
    have hd : d ≠ 0 := by simpa using hhead
    unfold layout
    split_ifs with hlong hshort hsmall
    · exact .inr ⟨by simp, by simpa using hd⟩
    · obtain ⟨n, hn⟩ : ∃ n, point.toNat = n + 1 := ⟨point.toNat - 1, by omega⟩
      exact .inr ⟨by simp [hn], by simpa [hn] using hd⟩
    · exact .inl rfl
    · exact .inr ⟨by simp, by simpa using hd⟩

/-- A layout has the digits and the point that were laid out. -/
theorem ofDecimal_layout (negative : Bool) (digits : Significant) (point : ℤ) :
    Number.ofDecimal negative
      ((layout digits.digits point).integer ++ (layout digits.digits point).fraction)
      ((layout digits.digits point).integer.length + (layout digits.digits point).exponent.getD 0) =
        .nonzero negative digits point := by
  have hplain := fun a b point ↦ ofDecimal_padded negative digits a b point
  have hlength : 0 < digits.digits.length := List.length_pos_iff.2 digits.ne_nil
  unfold layout
  split_ifs with hlong hshort hsmall
  · -- digits and zeros
    have h := hplain 0 (point.toNat - digits.digits.length) point
    simp only [List.replicate_zero, List.nil_append, Nat.cast_zero, sub_zero] at h
    simp only [List.append_nil, List.length_append, List.length_replicate, Option.getD_none]
    rw [← h]
    congr 1
    omega
  · -- the point among the digits
    have h := hplain 0 0 point
    simp only [List.replicate_zero, List.nil_append, List.append_nil, Nat.cast_zero, sub_zero] at h
    simp only [List.take_append_drop, List.length_take, Option.getD_none]
    rw [← h]
    congr 1
    omega
  · -- zeros after the point
    have h := hplain ((-point).toNat + 1) 0 1
    simp only [List.replicate_zero, List.append_nil, List.replicate_succ] at h
    simp only [List.singleton_append, ← List.cons_append, List.length_singleton, Option.getD_none,
      Nat.cast_one, add_zero]
    rw [h]
    congr 1
    omega
  · -- an exponent
    have h := hplain 0 0 point
    simp only [List.replicate_zero, List.nil_append, List.append_nil, Nat.cast_zero, sub_zero] at h
    simp only [List.take_append_drop, List.length_take, Option.getD_some]
    rw [← h]
    congr 1
    omega

/-- **The text of a number is read as the number.** -/
theorem readNumber_text (n : Number) {t : Text} (h : NumberEnds t) :
    readNumber (n.text ++ t) = some (n, t) := by
  cases n with
  | zero =>
    have hzero := readNumber_layout false (l := ⟨[0], [], none⟩) (.inl rfl) h
    exact hzero
  | nonzero negative digits point =>
    rw [Number.text, readNumber_layout negative (layout_integer digits point) h, ofDecimal_layout]

/-! ### Numbers as rationals -/

/-- The rational a number is. -/
def Number.value : Number → ℚ
  | .zero => 0
  | .nonzero negative digits point =>
    let magnitude := natOf digits.digits * (10 : ℚ) ^ (point - digits.digits.length)
    if negative then -magnitude else magnitude

end Ecma
