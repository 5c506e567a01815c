import Mathlib.Data.List.Basic
import Mathlib.Data.Nat.Notation

/-!
# Regular expressions that look around

Regular expressions over characters with conditions on the two characters around a position, as word
boundaries and one-character lookbehinds are. `Regex.Matches r a x b` says that `r` matches `x`
after the character `a` and before the character `b`, where `none` is an end of the text.

A search is decided by derivatives: the derivative of an expression by a character, at a position
after a given one, matches what the expression matches behind that character. Conditions are asked
where a derivative takes a step, and at the end of a match.
-/

/-- Regular expressions, with conditions on the characters before and after a position. -/
inductive Regex
  | none
  | eps
  | char (p : Char → Bool)
  | seq (r s : Regex)
  | alt (r s : Regex)
  | star (r : Regex)
  | look (cond : Option Char → Option Char → Bool)

namespace Regex

/-! ### Matches -/

/-- What an expression matches between two characters. -/
inductive Matches : Regex → Option Char → List Char → Option Char → Prop
  | eps {a b : Option Char} : Matches .eps a [] b
  | char {p : Char → Bool} {a b : Option Char} {c : Char} (h : p c = true) :
    Matches (.char p) a [c] b
  | seq {r s : Regex} {a b : Option Char} {x y : List Char} (hr : Matches r a x (y.head?.or b))
    (hs : Matches s (x.getLast?.or a) y b) : Matches (.seq r s) a (x ++ y) b
  | left {r s : Regex} {a b : Option Char} {x : List Char} (h : Matches r a x b) :
    Matches (.alt r s) a x b
  | right {r s : Regex} {a b : Option Char} {x : List Char} (h : Matches s a x b) :
    Matches (.alt r s) a x b
  | nil {r : Regex} {a b : Option Char} : Matches (.star r) a [] b
  | more {r : Regex} {a b : Option Char} {x y : List Char} (hr : Matches r a x (y.head?.or b))
    (hs : Matches (.star r) (x.getLast?.or a) y b) : Matches (.star r) a (x ++ y) b
  | look {cond : Option Char → Option Char → Bool} {a b : Option Char} (h : cond a b = true) :
    Matches (.look cond) a [] b

/-- The expression matches somewhere in a text. -/
def Found (r : Regex) (w : List Char) : Prop :=
  ∃ x y z, w = x ++ y ++ z ∧ r.Matches x.getLast? y z.head?

/-- The expression does not ask for the characters around it. -/
def anchored : Regex → Bool
  | seq r s => r.anchored || s.anchored
  | alt r s => r.anchored || s.anchored
  | star r => r.anchored
  | look _ => true
  | _ => false

/-- The expression reads a character. -/
def reads : Regex → Char → Bool
  | char p, c => p c
  | seq r s, c => r.reads c || s.reads c
  | alt r s, c => r.reads c || s.reads c
  | star r, c => r.reads c
  | _, _ => false

/-- The conditions of the expression do not tell related contexts apart. -/
def Insensitive (R : Option Char → Option Char → Prop) : Regex → Prop
  | seq r s => r.Insensitive R ∧ s.Insensitive R
  | alt r s => r.Insensitive R ∧ s.Insensitive R
  | star r => r.Insensitive R
  | look cond => ∀ a a' b b', R a a' → R b b' → cond a b = true → cond a' b' = true
  | _ => True

/-- Only characters that are read are matched. -/
theorem Matches.reads {r : Regex} {a b : Option Char} {x : List Char} (h : r.Matches a x b) :
    ∀ c ∈ x, r.reads c = true := by
  induction h with
  | eps => simp
  | char h => simpa [Regex.reads] using h
  | seq _ _ ihr ihs =>
    intro c hc
    rcases List.mem_append.1 hc with hc | hc
    · simp [Regex.reads, ihr c hc]
    · simp [Regex.reads, ihs c hc]
  | left _ ih => exact fun c hc ↦ by simp [Regex.reads, ih c hc]
  | right _ ih => exact fun c hc ↦ by simp [Regex.reads, ih c hc]
  | nil => simp
  | more _ _ ihr ihs =>
    intro c hc
    rcases List.mem_append.1 hc with hc | hc
    · exact ihr c hc
    · exact ihs c hc
  | look => simp

/-- A match stays one between characters that are not told apart. -/
theorem Matches.congr {R : Option Char → Option Char → Prop} (hR : ∀ a, R a a) {r : Regex}
    {a b : Option Char} {x : List Char} (h : r.Matches a x b) (hr : r.Insensitive R) :
    ∀ {a' b'}, R a a' → R b b' → r.Matches a' x b' := by
  have hor : ∀ {o a a' : Option Char}, R a a' → R (o.or a) (o.or a') := by
    rintro (_ | c) a a' haa
    · simpa using haa
    · exact hR _
  induction h with
  | eps => exact fun {_ _} _ _ ↦ .eps
  | char h => exact fun {_ _} _ _ ↦ .char h
  | seq _ _ ihr ihs => exact fun {_ _} ha hb ↦ .seq (ihr hr.1 ha (hor hb)) (ihs hr.2 (hor ha) hb)
  | left _ ih => exact fun {_ _} ha hb ↦ .left (ih hr.1 ha hb)
  | right _ ih => exact fun {_ _} ha hb ↦ .right (ih hr.2 ha hb)
  | nil => exact fun {_ _} _ _ ↦ .nil
  | more _ _ ihr ihs => exact fun {_ _} ha hb ↦ .more (ihr hr ha (hor hb)) (ihs hr (hor ha) hb)
  | look h => exact fun {_ _} ha hb ↦ .look (hr _ _ _ _ ha hb h)

/-- An expression without conditions matches between any two characters. -/
theorem insensitive_of_not_anchored {R : Option Char → Option Char → Prop} {r : Regex}
    (h : r.anchored = false) : r.Insensitive R := by
  induction r with
  | none => trivial
  | eps => trivial
  | char p => trivial
  | seq r s ihr ihs =>
    obtain ⟨hr, hs⟩ := Bool.or_eq_false_iff.1 h
    exact ⟨ihr hr, ihs hs⟩
  | alt r s ihr ihs =>
    obtain ⟨hr, hs⟩ := Bool.or_eq_false_iff.1 h
    exact ⟨ihr hr, ihs hs⟩
  | star r ih => exact ih h
  | look cond => cases h

/-! ### Derived expressions -/

/-- Expressions one after the other. -/
def seqs (rs : List Regex) : Regex :=
  rs.foldr seq eps

/-- One of some expressions. -/
def alts (rs : List Regex) : Regex :=
  rs.foldr alt none

/-- A text, character by character. -/
def lit (s : String) : Regex :=
  seqs (s.toList.map fun c ↦ char (· == c))

/-- A text in any case. Only the letters of the Latin alphabet have two. -/
def litI (s : String) : Regex :=
  seqs (s.toList.map fun c ↦ char (·.toLower == c.toLower))

/-- The expression, or nothing: `?`. -/
def opt (r : Regex) : Regex :=
  alt r eps

/-- The expression so many times. -/
def times (n : ℕ) (r : Regex) : Regex :=
  seqs (List.replicate n r)

/-- The expression so many times, or more. -/
def atLeast (n : ℕ) (r : Regex) : Regex :=
  seq (times n r) (star r)

/-- The expression, or more of it: `+`. -/
def plus (r : Regex) : Regex :=
  atLeast 1 r

/-- `\w`. -/
def isWord (c : Char) : Bool :=
  c.isAlphanum || c == '_'

/-- `\b`. -/
def boundary : Regex :=
  look fun a b ↦ a.any isWord != b.any isWord

/-- A lookbehind that forbids a character. -/
def notAfter (p : Char → Bool) : Regex :=
  look fun a _ ↦ !a.any p

section Derived

variable {R : Option Char → Option Char → Prop} {rs : List Regex} {r : Regex} {s : String}

@[simp]
theorem insensitive_seqs : (seqs rs).Insensitive R ↔ ∀ r ∈ rs, r.Insensitive R := by
  induction rs with
  | nil => simp [seqs, Insensitive]
  | cons r rs ih => simpa [seqs, Insensitive] using fun _ ↦ ih

@[simp]
theorem insensitive_alts : (alts rs).Insensitive R ↔ ∀ r ∈ rs, r.Insensitive R := by
  induction rs with
  | nil => simp [alts, Insensitive]
  | cons r rs ih => simpa [alts, Insensitive] using fun _ ↦ ih

@[simp]
theorem insensitive_char {p : Char → Bool} : (char p).Insensitive R :=
  trivial

@[simp]
theorem insensitive_star : (star r).Insensitive R ↔ r.Insensitive R :=
  Iff.rfl

@[simp]
theorem insensitive_seq {s : Regex} : (seq r s).Insensitive R ↔ r.Insensitive R ∧ s.Insensitive R :=
  Iff.rfl

@[simp]
theorem insensitive_lit : (lit s).Insensitive R := by
  simp [lit]

@[simp]
theorem insensitive_litI : (litI s).Insensitive R := by
  simp [litI]

@[simp]
theorem insensitive_opt : (opt r).Insensitive R ↔ r.Insensitive R :=
  and_iff_left trivial

@[simp]
theorem insensitive_times {n : ℕ} (h : r.Insensitive R) : (times n r).Insensitive R := by
  rw [times, insensitive_seqs]
  exact fun r' hr' ↦ List.eq_of_mem_replicate hr' ▸ h

@[simp]
theorem insensitive_atLeast {n : ℕ} (h : r.Insensitive R) : (atLeast n r).Insensitive R :=
  ⟨insensitive_times h, h⟩

@[simp]
theorem insensitive_plus (h : r.Insensitive R) : (plus r).Insensitive R :=
  insensitive_atLeast h

@[simp]
theorem reads_seqs {c : Char} : (seqs rs).reads c = rs.any (·.reads c) := by
  induction rs with
  | nil => rfl
  | cons r rs ih => simp [seqs, reads, ← ih]

@[simp]
theorem reads_lit {c : Char} : (lit s).reads c = s.toList.contains c := by
  rw [lit, reads_seqs, List.any_map]
  exact (List.contains_eq_any_beq).symm

@[simp]
theorem reads_times {c : Char} {n : ℕ} (h : r.reads c = false) : (times n r).reads c = false := by
  rw [times, reads_seqs, List.any_eq_false]
  exact fun r' hr' ↦ by simp [List.eq_of_mem_replicate hr', h]

@[simp]
theorem reads_atLeast {c : Char} {n : ℕ} (h : r.reads c = false) :
    (atLeast n r).reads c = false := by
  simp [atLeast, reads, h]

end Derived

/-! ### Derivatives -/

/-- A sequence, unless its first part matches nothing. -/
def mkSeq : Regex → Regex → Regex
  | none, _ => none
  | eps, s => s
  | r, s => seq r s

/-- An alternative, unless one part matches nothing. -/
def mkAlt : Regex → Regex → Regex
  | none, s => s
  | r, none => r
  | r, s => alt r s

/-- The expression matches the empty text between two characters. -/
def nullable : Regex → Option Char → Option Char → Bool
  | none, _, _ => false
  | eps, _, _ => true
  | char _, _, _ => false
  | seq r s, a, b => r.nullable a b && s.nullable a b
  | alt r s, a, b => r.nullable a b || s.nullable a b
  | star _, _, _ => true
  | look cond, a, b => cond a b

/-- What is left to match behind a character, after another one. -/
def deriv (a : Option Char) (c : Char) : Regex → Regex
  | char p => if p c then eps else none
  | seq r s =>
    mkAlt (mkSeq (r.deriv a c) s) (if r.nullable a (some c) then s.deriv a c else none)
  | alt r s => mkAlt (r.deriv a c) (s.deriv a c)
  | star r => mkSeq (r.deriv a c) (star r)
  | _ => none

/-- The expression matches nothing, at a glance. -/
def isNone : Regex → Bool
  | none => true
  | _ => false

/-- The expression matches some start of a text, after a character. -/
def matchesStart (a : Option Char) (r : Regex) : List Char → Bool
  | [] => r.nullable a .none
  | c :: w =>
    if r.isNone then false
    else r.nullable a (some c) || matchesStart (some c) (r.deriv a c) w

/-- The expression matches somewhere in a text that goes on after a character. -/
def search (r : Regex) (a : Option Char) : List Char → Bool
  | [] => r.matchesStart a []
  | c :: w => r.matchesStart a (c :: w) || r.search (some c) w

/-- `RegExp.prototype.test`. -/
def test (r : Regex) (s : String) : Bool :=
  r.search .none s.toList

section Derivatives

variable {r s : Regex} {a b : Option Char} {c : Char} {x : List Char}

theorem matches_none : ¬ Regex.none.Matches a x b := by
  intro h
  cases h

theorem matches_eps_iff : Regex.eps.Matches a x b ↔ x = [] := by
  constructor
  · intro h
    cases h
    rfl
  · rintro rfl
    exact .eps

theorem matches_seq_iff : (seq r s).Matches a x b ↔
    ∃ y z, x = y ++ z ∧ r.Matches a y (z.head?.or b) ∧ s.Matches (y.getLast?.or a) z b := by
  constructor
  · intro h
    cases h with
    | seq hr hs => exact ⟨_, _, rfl, hr, hs⟩
  · rintro ⟨y, z, rfl, hr, hs⟩
    exact .seq hr hs

theorem matches_alt_iff : (alt r s).Matches a x b ↔ r.Matches a x b ∨ s.Matches a x b := by
  constructor
  · intro h
    cases h with
    | left h => exact .inl h
    | right h => exact .inr h
  · rintro (h | h)
    exacts [.left h, .right h]

@[simp]
theorem matches_mkSeq_iff : (mkSeq r s).Matches a x b ↔ (seq r s).Matches a x b := by
  cases r with
  | none =>
    simp only [mkSeq, matches_seq_iff]
    exact ⟨fun h ↦ (matches_none h).elim, fun ⟨_, _, _, h, _⟩ ↦ (matches_none h).elim⟩
  | eps =>
    simp only [mkSeq, matches_seq_iff, matches_eps_iff]
    constructor
    · exact fun h ↦ ⟨[], x, rfl, rfl, h⟩
    · rintro ⟨y, z, rfl, rfl, h⟩
      exact h
  | _ => rfl

@[simp]
theorem matches_mkAlt_iff : (mkAlt r s).Matches a x b ↔ (alt r s).Matches a x b := by
  rw [matches_alt_iff]
  cases r with
  | none => simp [mkAlt, matches_none]
  | _ => cases s <;> simp [mkAlt, matches_none, matches_alt_iff]

theorem nullable_iff : r.nullable a b = true ↔ r.Matches a [] b := by
  induction r with
  | none => simp [nullable, matches_none]
  | eps => simp [nullable, matches_eps_iff]
  | char p =>
    simp only [nullable, Bool.false_eq_true, false_iff]
    intro h
    cases h
  | seq r s ihr ihs =>
    rw [nullable, Bool.and_eq_true, ihr, ihs, matches_seq_iff]
    constructor
    · exact fun ⟨hr, hs⟩ ↦ ⟨[], [], rfl, hr, hs⟩
    · rintro ⟨y, z, hyz, hr, hs⟩
      obtain ⟨rfl, rfl⟩ := List.append_eq_nil_iff.1 hyz.symm
      exact ⟨hr, hs⟩
  | alt r s ihr ihs => rw [nullable, Bool.or_eq_true, ihr, ihs, matches_alt_iff]
  | star r => exact ⟨fun _ ↦ .nil, fun _ ↦ rfl⟩
  | look cond =>
    constructor
    · exact fun h ↦ .look h
    · intro h
      cases h with
      | look h => exact h

/-- The first part of a repetition that is not empty. -/
theorem matches_star_cons (h : (star r).Matches a (c :: x) b) :
    ∃ y z, x = y ++ z ∧ r.Matches a (c :: y) (z.head?.or b) ∧
      (star r).Matches ((c :: y).getLast?.or a) z b := by
  generalize hs : star r = s at h
  generalize hw : c :: x = w at h
  induction h with
  | nil => cases hw
  | @more r' a b u v hr hrest _ ih =>
    cases hs
    cases u with
    | nil => exact ih rfl hw
    | cons d y =>
      obtain ⟨rfl, rfl⟩ := List.cons.inj hw
      exact ⟨y, v, rfl, hr, hrest⟩
  | _ => cases hs

theorem getLast?_cons_or {y : List Char} : (c :: y).getLast?.or a = y.getLast?.or (some c) := by
  rw [List.getLast?_cons]
  cases y.getLast? <;> rfl

/-- The derivative matches what stands behind the character. -/
theorem matches_deriv_iff : ∀ {b x}, (r.deriv a c).Matches (some c) x b ↔
    r.Matches a (c :: x) b := by
  induction r with
  | none =>
    intro b x
    exact ⟨fun h ↦ (matches_none h).elim, fun h ↦ (by cases h)⟩
  | eps =>
    intro b x
    exact ⟨fun h ↦ (matches_none h).elim, fun h ↦ (by cases h)⟩
  | look cond =>
    intro b x
    exact ⟨fun h ↦ (matches_none h).elim, fun h ↦ (by cases h)⟩
  | char p =>
    intro b x
    rw [deriv]
    split
    · rename_i hp
      rw [matches_eps_iff]
      constructor
      · rintro rfl
        exact .char hp
      · intro h
        cases h
        rfl
    · rename_i hp
      constructor
      · exact fun h ↦ (matches_none h).elim
      · intro h
        cases h with
        | char h => exact absurd h hp
  | alt r s ihr ihs =>
    intro b x
    rw [deriv, matches_mkAlt_iff, matches_alt_iff, matches_alt_iff, ihr, ihs]
  | star r ih =>
    intro b x
    rw [deriv, matches_mkSeq_iff, matches_seq_iff]
    constructor
    · rintro ⟨y, z, rfl, hr, hs⟩
      rw [← getLast?_cons_or (a := a)] at hs
      exact .more (ih.1 hr) hs
    · intro h
      obtain ⟨y, z, rfl, hr, hs⟩ := matches_star_cons h
      rw [getLast?_cons_or] at hs
      exact ⟨y, z, rfl, ih.2 hr, hs⟩
  -- the character is read by the first part, or by the second after an empty first
  | seq r s ihr ihs =>
    intro b x
    rw [deriv, matches_mkAlt_iff, matches_alt_iff, matches_mkSeq_iff, matches_seq_iff,
      matches_seq_iff]
    constructor
    · rintro (⟨y, z, rfl, hr, hs⟩ | h)
      · rw [← getLast?_cons_or (a := a)] at hs
        exact ⟨c :: y, z, rfl, ihr.1 hr, hs⟩
      · split at h
        · rename_i hnull
          exact ⟨[], c :: x, rfl, nullable_iff.1 hnull, ihs.1 h⟩
        · exact (matches_none h).elim
    · rintro ⟨y, z, hyz, hr, hs⟩
      cases y with
      | nil =>
        obtain rfl : z = c :: x := hyz.symm
        have hnull : r.nullable a (some c) = true := nullable_iff.2 hr
        refine .inr ?_
        rw [if_pos hnull]
        exact ihs.2 hs
      | cons d y =>
        obtain ⟨rfl, rfl⟩ := List.cons.inj hyz
        rw [getLast?_cons_or] at hs
        exact .inl ⟨y, z, rfl, ihr.2 hr, hs⟩

theorem matchesStart_iff : ∀ {w : List Char} {r : Regex} {a : Option Char},
    r.matchesStart a w = true ↔ ∃ y z, w = y ++ z ∧ r.Matches a y z.head? := by
  intro w
  induction w with
  | nil =>
    intro r a
    rw [matchesStart, nullable_iff]
    constructor
    · exact fun h ↦ ⟨[], [], rfl, h⟩
    · rintro ⟨y, z, hyz, h⟩
      obtain ⟨rfl, rfl⟩ := List.append_eq_nil_iff.1 hyz.symm
      exact h
  | cons c w ih =>
    intro r a
    have hnone : r.isNone = true → ¬ ∃ y z, c :: w = y ++ z ∧ r.Matches a y z.head? := by
      rintro hr ⟨y, z, -, h⟩
      cases r with
      | none => exact matches_none h
      | _ => cases hr
    rw [matchesStart]
    split
    · rename_i hr
      exact ⟨fun h ↦ (by cases h), fun h ↦ (hnone hr h).elim⟩
    · rw [Bool.or_eq_true, ih, nullable_iff]
      constructor
      · rintro (h | ⟨y, z, rfl, h⟩)
        · exact ⟨[], c :: w, rfl, h⟩
        · exact ⟨c :: y, z, rfl, matches_deriv_iff.1 h⟩
      · rintro ⟨y, z, hyz, h⟩
        cases y with
        | nil =>
          obtain rfl : z = c :: w := hyz.symm
          exact .inl h
        | cons d y =>
          obtain ⟨rfl, rfl⟩ := List.cons.inj hyz
          exact .inr ⟨y, z, rfl, matches_deriv_iff.2 h⟩

theorem search_iff : ∀ {w : List Char} {a : Option Char}, r.search a w = true ↔
    ∃ x y z, w = x ++ y ++ z ∧ r.Matches (x.getLast?.or a) y z.head? := by
  intro w
  induction w with
  | nil =>
    intro a
    rw [search, matchesStart_iff]
    constructor
    · rintro ⟨y, z, hyz, h⟩
      exact ⟨[], y, z, hyz, h⟩
    · rintro ⟨x, y, z, hxyz, h⟩
      obtain ⟨hxy, rfl⟩ := List.append_eq_nil_iff.1 hxyz.symm
      obtain ⟨rfl, rfl⟩ := List.append_eq_nil_iff.1 hxy
      exact ⟨[], [], rfl, h⟩
  | cons c w ih =>
    intro a
    rw [search, Bool.or_eq_true, matchesStart_iff, ih]
    constructor
    · rintro (⟨y, z, hyz, h⟩ | ⟨x, y, z, rfl, h⟩)
      · exact ⟨[], y, z, hyz, h⟩
      · rw [← getLast?_cons_or (a := a)] at h
        exact ⟨c :: x, y, z, rfl, h⟩
    · rintro ⟨x, y, z, hxyz, h⟩
      cases x with
      | nil => exact .inl ⟨y, z, hxyz, h⟩
      | cons d x =>
        obtain ⟨rfl, rfl⟩ := List.cons.inj hxyz
        rw [getLast?_cons_or] at h
        exact .inr ⟨x, y, z, rfl, h⟩

/-- The search finds the expression wherever it matches. -/
theorem test_iff {t : String} : r.test t = true ↔ r.Found t.toList := by
  simp only [test, search_iff, Option.or_none]
  rfl

end Derivatives

end Regex
