import Mathlib.Data.List.Lex
import Mathlib.Data.List.Sort
import Mathlib.Data.Prod.Lex
import Mathlib.Data.String.Basic
import Mathlib.Data.Set.Function
import ModelConnector.Foundations.Members

/-!
# JSON values and their canonical text

The canonical text of a value sorts the members of every object by key and writes no blank. A
value read from a request may hold a number that no text stands for (a literal too large to be
read as a finite one), and then it has no canonical text.

A string of the language may hold a surrogate that is in no pair, which no `Char` is. The last 2048
private-use characters, U+10F800 and on, stand for these here, and not for themselves.

The text determines the value up to the order of members (`Json.normalize_eq_of_canonicalJson`):
sorting commutes with writing, and what is written of a sorted value can be read back, because no
text of a value continues that of another one before a comma or a closing bracket.
-/

/-! ### Strings as a JavaScript engine sees them -/

/-- The character stands for a surrogate that is in no pair. -/
def isLoneSurrogate (c : Char) : Bool :=
  0x10F800 ≤ c.toNat

/-- The UTF-16 code units of a character. -/
def utf16 (c : Char) : List ℕ :=
  if c.toNat < 0x10000 then [c.toNat]
  else [0xD800 + (c.toNat - 0x10000) / 0x400, 0xDC00 + (c.toNat - 0x10000) % 0x400]

/-- The code units that a character of a string stands for. -/
def codeUnits (c : Char) : List ℕ :=
  if isLoneSurrogate c then [0xD800 + (c.toNat - 0x10F800)] else utf16 c

/-- The UTF-16 code units of a string. -/
def utf16Units (s : String) : List ℕ :=
  s.toList.flatMap codeUnits

/-- The length of a string in UTF-16 code units. -/
def utf16Length (s : String) : ℕ :=
  (utf16Units s).length

/-! ### Numbers and values -/

/-- A character of the text of a number. -/
def isNumeric (c : Char) : Bool :=
  c.isDigit || c == '-' || c == '+' || c == '.' || c == 'e'

/-- A finite number, given by its shortest decimal text. -/
structure JsonNumber where
  text : List Char
  text_ne_nil : text ≠ []
  numeric : ∀ c ∈ text, isNumeric c
  deriving DecidableEq

/-- A natural number. -/
def JsonNumber.ofNat (n : ℕ) : JsonNumber where
  text := Nat.toDigits 10 n
  text_ne_nil := Nat.toDigits_ne_nil
  numeric c hc := by
    have hdigit : c.isDigit = true := Nat.isDigit_of_mem_toDigits (by decide) (by decide) hc
    simp [isNumeric, hdigit]

theorem JsonNumber.ofNat_injective : Function.Injective JsonNumber.ofNat := by
  intro n m h
  have htext : Nat.toDigits 10 n = Nat.toDigits 10 m := congrArg JsonNumber.text h
  rw [← Nat.ofDigitChars_ten_toDigits (n := n), htext, Nat.ofDigitChars_ten_toDigits]

/-- A JSON value. The members of an object stand in the order they were written in. -/
inductive Json
  | null
  | bool (b : Bool)
  | num (n : JsonNumber)
  /-- A number too large to be read as a finite one. -/
  | nonFinite
  | str (s : String)
  | arr (elems : List Json)
  | obj (members : List (String × Json))

namespace Json

/-- Induction on a value, its elements and the values of its members. -/
@[elab_as_elim]
theorem induction {P : Json → Prop} (null : P .null) (bool : ∀ b, P (.bool b))
    (num : ∀ n, P (.num n)) (nonFinite : P .nonFinite) (str : ∀ s, P (.str s))
    (arr : ∀ elems, (∀ v ∈ elems, P v) → P (.arr elems))
    (obj : ∀ members : List (String × Json), (∀ p ∈ members, P p.2) → P (.obj members))
    (v : Json) : P v := by
  refine Json.rec (motive_1 := P) (motive_2 := fun elems ↦ ∀ v ∈ elems, P v)
    (motive_3 := fun members ↦ ∀ p ∈ members, P p.2) (motive_4 := fun p ↦ P p.2)
    null bool num nonFinite str arr obj ?_ ?_ ?_ ?_ ?_ v
  · simp
  · rintro head tail hhead htail w (_ | ⟨_, hw⟩)
    exacts [hhead, htail w hw]
  · simp
  · rintro head tail hhead htail p (_ | ⟨_, hp⟩)
    exacts [hhead, htail p hp]
  · exact fun _ _ h ↦ h

/-- A natural number as a value. -/
def nat (n : ℕ) : Json :=
  .num (.ofNat n)

/-- The members of an object. -/
def members? : Json → Option (List (String × Json))
  | .obj members => some members
  | _ => none

/-- The elements of an array. -/
def elems? : Json → Option (List Json)
  | .arr elems => some elems
  | _ => none

/-- The characters of a string value. -/
def str? : Json → Option String
  | .str s => some s
  | _ => none

/-- The value is an object. -/
def isRecord (v : Json) : Bool :=
  v.members?.isSome

/-- A member of an object. -/
def get? (v : Json) (key : String) : Option Json :=
  v.members?.bind (List.lookup key)

/-! ### Text -/

/-- A hexadecimal digit. -/
def hexDigit (n : ℕ) : Char :=
  Nat.digitChar n

/-- What stands for a character inside a quoted string. -/
def quoteChar (c : Char) : List Char :=
  if c = '"' then ['\\', '"']
  else if c = '\\' then ['\\', '\\']
  else if c = '\x08' then ['\\', 'b']
  else if c = '\x0c' then ['\\', 'f']
  else if c = '\n' then ['\\', 'n']
  else if c = '\r' then ['\\', 'r']
  else if c = '\t' then ['\\', 't']
  else if c.toNat < 0x20 then
    ['\\', 'u', '0', '0', hexDigit (c.toNat / 16), hexDigit (c.toNat % 16)]
  else if isLoneSurrogate c then
    let unit := 0x800 + (c.toNat - 0x10F800)
    ['\\', 'u', 'd', hexDigit (unit / 256), hexDigit (unit / 16 % 16), hexDigit (unit % 16)]
  else [c]

/-- `JSON.stringify` of a string. -/
def quote (s : String) : List Char :=
  '"' :: s.toList.flatMap quoteChar ++ ['"']

/-- What keys are ordered by: their code units. Only strings that are one and the same in the
language have the same ones. -/
def keyRank (s : String) : List ℕ ×ₗ String :=
  toLex (utf16Units s, s)

theorem keyRank_injective : Function.Injective keyRank := fun _ _ h ↦
  congrArg Prod.snd (toLex_inj.1 h)

/-- The order in which the members of an object are written. -/
def KeyLE {α : Type*} (p q : String × α) : Prop :=
  keyRank p.1 ≤ keyRank q.1

instance {α : Type*} : DecidableRel (@KeyLE α) := fun p q ↦
  inferInstanceAs (Decidable (keyRank p.1 ≤ keyRank q.1))

/-- The text of a member, of whose value the text is given. -/
def memberText (p : String × List Char) : List Char :=
  quote p.1 ++ ':' :: p.2

mutual

/-- The canonical text of a value. -/
def text : Json → List Char
  | .null => ['n', 'u', 'l', 'l']
  | .bool true => ['t', 'r', 'u', 'e']
  | .bool false => ['f', 'a', 'l', 's', 'e']
  | .num n => n.text
  | .nonFinite => ['n', 'u', 'l', 'l']
  | .str s => quote s
  | .arr elems => '[' :: [','].intercalate (texts elems) ++ [']']
  | .obj members =>
    '{' :: [','].intercalate (((memberTexts members).insertionSort KeyLE).map memberText) ++ ['}']

/-- The texts of elements. -/
def texts : List Json → List (List Char)
  | [] => []
  | v :: rest => v.text :: texts rest

/-- The texts of the values of members. -/
def memberTexts : List (String × Json) → List (String × List Char)
  | [] => []
  | p :: rest => pairText p :: memberTexts rest

/-- The text of the value of a member. -/
def pairText : String × Json → String × List Char
  | (key, v) => (key, v.text)

end

mutual

/-- No number of the value is too large. -/
def finite : Json → Bool
  | .nonFinite => false
  | .arr elems => allFinite elems
  | .obj members => membersFinite members
  | _ => true

/-- The elements are finite. -/
def allFinite : List Json → Bool
  | [] => true
  | v :: rest => v.finite && allFinite rest

/-- The values of members are finite. -/
def membersFinite : List (String × Json) → Bool
  | [] => true
  | p :: rest => pairFinite p && membersFinite rest

/-- The value of a member is finite. -/
def pairFinite : String × Json → Bool
  | (_, v) => v.finite

end

/-- `canonicalJson`: the canonical text, unless some number is not finite. -/
def canonicalJson (v : Json) : Option String :=
  if v.finite then some (String.ofList v.text) else none

/-! ### The text determines the value -/

mutual

/-- The value with the members of every object in the order they are written in. -/
def normalize : Json → Json
  | .arr elems => .arr (normalizeAll elems)
  | .obj members => .obj ((normalizeMembers members).insertionSort KeyLE)
  | .null => .null
  | .bool b => .bool b
  | .num n => .num n
  | .nonFinite => .nonFinite
  | .str s => .str s

/-- The elements, normalized. -/
def normalizeAll : List Json → List Json
  | [] => []
  | v :: rest => v.normalize :: normalizeAll rest

/-- The members with normalized values. -/
def normalizeMembers : List (String × Json) → List (String × Json)
  | [] => []
  | p :: rest => normalizePair p :: normalizeMembers rest

/-- The member with a normalized value. -/
def normalizePair : String × Json → String × Json
  | (key, v) => (key, v.normalize)

end

theorem texts_eq_map (elems : List Json) : texts elems = elems.map text := by
  induction elems with
  | nil => rfl
  | cons v rest ih => rw [texts, ih, List.map_cons]

theorem memberTexts_eq_map (members : List (String × Json)) :
    memberTexts members = members.map fun p ↦ (p.1, p.2.text) := by
  induction members with
  | nil => rfl
  | cons p rest ih => rw [memberTexts, ih, List.map_cons, pairText]

theorem normalizeAll_eq_map (elems : List Json) : normalizeAll elems = elems.map normalize := by
  induction elems with
  | nil => rfl
  | cons v rest ih => rw [normalizeAll, ih, List.map_cons]

theorem normalizeMembers_eq_map (members : List (String × Json)) :
    normalizeMembers members = members.map fun p ↦ (p.1, p.2.normalize) := by
  induction members with
  | nil => rfl
  | cons p rest ih => rw [normalizeMembers, ih, List.map_cons, normalizePair]

theorem allFinite_iff {elems : List Json} :
    allFinite elems = true ↔ ∀ v ∈ elems, v.finite = true := by
  induction elems with
  | nil => simp [allFinite]
  | cons v rest ih => rw [allFinite, Bool.and_eq_true, ih, List.forall_mem_cons]

theorem membersFinite_iff {members : List (String × Json)} :
    membersFinite members = true ↔ ∀ p ∈ members, p.2.finite = true := by
  induction members with
  | nil => simp [membersFinite]
  | cons p rest ih => rw [membersFinite, Bool.and_eq_true, ih, List.forall_mem_cons, pairFinite]

/-- Members are sorted by their keys, so what is computed of their values can be computed before
or after. -/
theorem map_insertionSort_members {α β : Type*} (f : α → β) (members : List (String × α)) :
    (members.map fun p ↦ (p.1, f p.2)).insertionSort KeyLE =
      (members.insertionSort KeyLE).map fun p ↦ (p.1, f p.2) :=
  (List.map_insertionSort KeyLE KeyLE (fun p : String × α ↦ (p.1, f p.2)) members
    fun _ _ _ _ ↦ Iff.rfl).symm

theorem text_obj (members : List (String × Json)) :
    (Json.obj members).text = '{' :: [','].intercalate ((members.insertionSort KeyLE).map
      fun p ↦ memberText (p.1, p.2.text)) ++ ['}'] := by
  rw [text, memberTexts_eq_map, map_insertionSort_members, List.map_map]
  rfl

theorem normalize_obj (members : List (String × Json)) :
    (Json.obj members).normalize =
      .obj ((members.insertionSort KeyLE).map fun p ↦ (p.1, p.2.normalize)) := by
  rw [normalize, normalizeMembers_eq_map, map_insertionSort_members]

/-! #### Strings -/

/-- The value of a hexadecimal digit. -/
def hexValue (c : Char) : ℕ :=
  if c.toNat < 58 then c.toNat - 48 else c.toNat - 87

/-- Read back what stands for a character. -/
def unquoteChar : List Char → Option (Char × List Char)
  | '\\' :: 'u' :: '0' :: '0' :: a :: b :: rest =>
    some (Char.ofNat (16 * hexValue a + hexValue b), rest)
  | '\\' :: 'u' :: 'd' :: a :: b :: c :: rest =>
    some (Char.ofNat (0x10F000 + (256 * hexValue a + 16 * hexValue b + hexValue c)), rest)
  | '\\' :: 'b' :: rest => some ('\x08', rest)
  | '\\' :: 'f' :: rest => some ('\x0c', rest)
  | '\\' :: 'n' :: rest => some ('\n', rest)
  | '\\' :: 'r' :: rest => some ('\r', rest)
  | '\\' :: 't' :: rest => some ('\t', rest)
  | '\\' :: c :: rest => some (c, rest)
  | c :: rest => some (c, rest)
  | [] => none

/-- A digit is read back. -/
theorem hexValue_hexDigit : ∀ n < 16, hexValue (hexDigit n) = n := by
  decide

theorem unquoteChar_quoteChar (c : Char) (rest : List Char) :
    unquoteChar (quoteChar c ++ rest) = some (c, rest) := by
  unfold quoteChar
  split_ifs with hquote hbackslash hbackspace hfeed hline hreturn htab hcontrol hlone
  · subst hquote
    rfl
  · subst hbackslash
    rfl
  · subst hbackspace
    rfl
  · subst hfeed
    rfl
  · subst hline
    rfl
  · subst hreturn
    rfl
  · subst htab
    rfl
  · simp only [List.cons_append, List.nil_append, unquoteChar]
    rw [hexValue_hexDigit (c.toNat / 16) (by omega),
      hexValue_hexDigit (c.toNat % 16) (Nat.mod_lt _ (by decide)), Nat.div_add_mod,
      Char.ofNat_toNat]
  · have hlow : 0x10F800 ≤ c.toNat := of_decide_eq_true hlone
    have hhigh : c.toNat < 0x110000 := by
      have hvalid : c.toNat < 0xD800 ∨ 0xDFFF < c.toNat ∧ c.toNat < 0x110000 := c.valid
      omega
    simp only [List.cons_append, List.nil_append, unquoteChar]
    generalize hunit : 0x800 + (c.toNat - 0x10F800) = unit
    rw [hexValue_hexDigit (unit / 256) (by omega),
      hexValue_hexDigit (unit / 16 % 16) (Nat.mod_lt _ (by decide)),
      hexValue_hexDigit (unit % 16) (Nat.mod_lt _ (by decide))]
    have hsum : 0x10F000 + (256 * (unit / 256) + 16 * (unit / 16 % 16) + unit % 16) = c.toNat := by
      omega
    rw [hsum, Char.ofNat_toNat]
  · rw [List.singleton_append, unquoteChar.eq_def]
    split <;> simp_all

theorem quoteChar_ne_nil (c : Char) : quoteChar c ≠ [] := by
  intro h
  have hread := unquoteChar_quoteChar c []
  rw [h] at hread
  cases hread

/-- No character is written as one that starts with a quotation mark. -/
theorem head?_quoteChar (c : Char) : (quoteChar c).head? ≠ some '"' := by
  unfold quoteChar
  repeat' split
  all_goals simp_all

/-- The end of a quoted string is found. -/
theorem flatMap_quoteChar_inj {cs ds r s : List Char}
    (h : cs.flatMap quoteChar ++ '"' :: r = ds.flatMap quoteChar ++ '"' :: s) :
    cs = ds ∧ r = s := by
  have hend : ∀ (c : Char) (t u : List Char), quoteChar c ++ t ≠ '"' :: u := by
    intro c t u heq
    have hhead := congrArg List.head? heq
    rw [List.head?_append_of_ne_nil _ (quoteChar_ne_nil c)] at hhead
    exact head?_quoteChar c hhead
  induction cs generalizing ds with
  | nil =>
    cases ds with
    | nil => simpa using h
    | cons d ds =>
      rw [List.flatMap_cons, List.append_assoc] at h
      exact absurd h.symm (hend d _ _)
  | cons c cs ih =>
    cases ds with
    | nil =>
      rw [List.flatMap_cons, List.append_assoc] at h
      exact absurd h (hend c _ _)
    | cons d ds =>
      simp only [List.flatMap_cons, List.append_assoc] at h
      have hread := congrArg unquoteChar h
      simp only [unquoteChar_quoteChar, Option.some.injEq, Prod.mk.injEq] at hread
      obtain ⟨rfl, hrest⟩ := hread
      obtain ⟨rfl, rfl⟩ := ih hrest
      exact ⟨rfl, rfl⟩

theorem quote_append_inj {a b : String} {r s : List Char}
    (h : quote a ++ r = quote b ++ s) : a = b ∧ r = s := by
  simp only [quote, List.cons_append, List.append_assoc, List.nil_append, List.cons.injEq,
    true_and] at h
  obtain ⟨hchars, rfl⟩ := flatMap_quoteChar_inj h
  exact ⟨String.toList_injective hchars, rfl⟩

/-! #### Values -/

/-- What can follow a value. -/
def Ends (r : List Char) : Prop :=
  ∀ c ∈ r.head?, c = ',' ∨ c = ']' ∨ c = '}'

theorem ends_nil : Ends [] := by
  simp [Ends]

theorem ends_comma (r : List Char) : Ends (',' :: r) := by
  simp [Ends]

/-- A text is written of at least one character, and does not start as what follows a value. -/
def Starts (t : List Char) : Prop :=
  ∃ c rest, t = c :: rest ∧ ¬(c = ',' ∨ c = ']' ∨ c = '}')

/-- The list of texts from the second on, with the comma before it. -/
def restText {α : Type*} (f : α → List Char) (t : List Char) : List α → List Char
  | [] => t
  | xs => ',' :: ([','].intercalate (xs.map f) ++ t)

theorem intercalate_map_cons {α : Type*} (f : α → List Char) (x : α) (xs : List α)
    (t : List Char) :
    [','].intercalate ((x :: xs).map f) ++ t = f x ++ restText f t xs := by
  cases xs with
  | nil => simp [restText]
  | cons y ys => simp [restText, List.intercalate_cons_cons]

/-- Texts that are told apart whatever follows are told apart in a bracketed list. -/
theorem intercalate_inj {α : Type*} {f : α → List Char} {R : α → α → Prop} {close : Char}
    (hclose : close = ']' ∨ close = '}') {xs ys : List α}
    (hinj : ∀ x ∈ xs, ∀ y ∈ ys, ∀ {r s}, Ends r → Ends s → f x ++ r = f y ++ s → R x y ∧ r = s)
    (hxs : ∀ x ∈ xs, Starts (f x)) (hys : ∀ y ∈ ys, Starts (f y)) {r s : List Char}
    (h : [','].intercalate (xs.map f) ++ close :: r = [','].intercalate (ys.map f) ++ close :: s) :
    List.Forall₂ R xs ys ∧ r = s := by
  have hcloses : ∀ t, Ends (close :: t) := by
    rintro t c hc
    cases hc
    exact .inr hclose
  have hends : ∀ (zs : List α) (t : List Char), Ends (restText f (close :: t) zs) := by
    rintro (_ | ⟨z, zs⟩) t
    exacts [hcloses t, ends_comma _]
  -- no element begins with the closing bracket, so that lists of different lengths differ
  have hstart : ∀ (z : α) (t u : List Char), Starts (f z) → f z ++ t ≠ close :: u := by
    rintro z t u ⟨c, rest, htext, hc⟩ heq
    rw [htext] at heq
    cases heq
    exact hc (.inr hclose)
  induction xs generalizing ys with
  | nil =>
    cases ys with
    | nil =>
      cases h
      exact ⟨.nil, rfl⟩
    | cons y ys =>
      rw [intercalate_map_cons] at h
      exact absurd h.symm (hstart y _ _ (hys y (by simp)))
  | cons x xs ih =>
    cases ys with
    | nil =>
      rw [intercalate_map_cons] at h
      exact absurd h (hstart x _ _ (hxs x (by simp)))
    | cons y ys =>
      rw [intercalate_map_cons, intercalate_map_cons] at h
      obtain ⟨hfirst, hrest⟩ :=
        hinj x (by simp) y (by simp) (hends xs r) (hends ys s) h
      have hcomma : ∀ (zs : List α) (z : α) (t u : List Char),
          close :: t ≠ restText f u (z :: zs) := by
        rintro zs z t u heq
        cases heq
        rcases hclose with hc | hc <;> cases hc
      match xs, ys with
      | [], [] =>
        cases hrest
        exact ⟨.cons hfirst .nil, rfl⟩
      | [], z :: zs => exact absurd hrest (hcomma zs z r _)
      | z :: zs, [] => exact absurd hrest.symm (hcomma zs z s _)
      | z :: zs, z' :: zs' =>
        obtain ⟨hall, hr⟩ := ih
          (fun a ha b hb ↦ hinj a (List.mem_cons_of_mem _ ha) b (List.mem_cons_of_mem _ hb))
          (fun a ha ↦ hxs a (List.mem_cons_of_mem _ ha))
          (fun b hb ↦ hys b (List.mem_cons_of_mem _ hb)) (List.cons.inj hrest).2
        exact ⟨.cons hfirst hall, hr⟩

theorem map_eq_map_of_forall₂ {α β : Type*} {f : α → β} {xs ys : List α}
    (h : List.Forall₂ (fun x y ↦ f x = f y) xs ys) : xs.map f = ys.map f := by
  induction h with
  | nil => rfl
  | cons hfirst _ ih => rw [List.map_cons, List.map_cons, hfirst, ih]

/-- The kind of a value, as its first character shows it. -/
def kind : Json → ℕ
  | .null => 0
  | .bool _ => 1
  | .num _ => 2
  | .nonFinite => 0
  | .str _ => 3
  | .arr _ => 4
  | .obj _ => 5

/-- The kind of the values whose text starts with a character. -/
def charKind (c : Char) : ℕ :=
  if c = 'n' then 0
  else if c = 't' ∨ c = 'f' then 1
  else if isNumeric c then 2
  else if c = '"' then 3
  else if c = '[' then 4
  else 5

theorem text_eq_cons (v : Json) :
    ∃ c rest, v.text = c :: rest ∧ charKind c = v.kind ∧ ¬(c = ',' ∨ c = ']' ∨ c = '}') := by
  cases v with
  | null => exact ⟨'n', _, rfl, by decide, by decide⟩
  | bool b => cases b <;> exact ⟨_, _, rfl, by decide, by decide⟩
  | num n =>
    obtain ⟨c, rest, htext⟩ := List.exists_cons_of_ne_nil n.text_ne_nil
    have hc : isNumeric c = true := n.numeric c (by simp [htext])
    have hne : ∀ d, isNumeric d = false → c ≠ d := by
      rintro d hd rfl
      rw [hd] at hc
      cases hc
    refine ⟨c, rest, htext, ?_, ?_⟩
    · rw [charKind, if_neg (hne 'n' (by decide)),
        if_neg (not_or.2 ⟨hne 't' (by decide), hne 'f' (by decide)⟩), if_pos hc, kind]
    · exact not_or.2 ⟨hne ',' (by decide), not_or.2 ⟨hne ']' (by decide), hne '}' (by decide)⟩⟩
  | nonFinite => exact ⟨'n', _, rfl, by decide, by decide⟩
  | str s => exact ⟨'"', _, rfl, rfl, by decide⟩
  | arr elems => exact ⟨'[', _, rfl, rfl, by decide⟩
  | obj members => exact ⟨'{', _, rfl, rfl, by decide⟩

theorem starts_text (v : Json) : Starts v.text := by
  obtain ⟨c, rest, htext, -, hc⟩ := v.text_eq_cons
  exact ⟨c, rest, htext, hc⟩

theorem starts_memberText (p : String × List Char) : Starts (memberText p) :=
  ⟨'"', _, rfl, by decide⟩

theorem kind_eq_of_text_append {v w : Json} {r s : List Char}
    (h : v.text ++ r = w.text ++ s) : v.kind = w.kind := by
  obtain ⟨c, t, hv, hc, -⟩ := v.text_eq_cons
  obtain ⟨d, u, hw, hd, -⟩ := w.text_eq_cons
  rw [hv, hw] at h
  rw [← hc, ← hd, (List.cons.inj h).1]

/-- The end of a number is found. -/
theorem number_append_inj {n m : JsonNumber} {r s : List Char} (hr : Ends r) (hs : Ends s)
    (h : n.text ++ r = m.text ++ s) : n = m ∧ r = s := by
  have hdrop : ∀ {t : List Char}, Ends t → t.takeWhile isNumeric = [] ∧
      t.dropWhile isNumeric = t := by
    rintro (_ | ⟨c, t⟩) ht
    · exact ⟨rfl, rfl⟩
    · have hc : isNumeric c = false := by
        rcases ht c rfl with rfl | rfl | rfl <;> decide
      simp [hc]
  have htake := congrArg (List.takeWhile isNumeric) h
  have hrest := congrArg (List.dropWhile isNumeric) h
  rw [List.takeWhile_append_of_pos n.numeric, List.takeWhile_append_of_pos m.numeric,
    (hdrop hr).1, (hdrop hs).1, List.append_nil, List.append_nil] at htake
  rw [List.dropWhile_append_of_pos n.numeric, List.dropWhile_append_of_pos m.numeric,
    (hdrop hr).2, (hdrop hs).2] at hrest
  refine ⟨?_, hrest⟩
  cases n
  cases m
  cases htake
  rfl

/-- The end of a value is found, and what was written is known up to the order of members. -/
theorem text_append_inj {v w : Json} (hv : v.finite = true) (hw : w.finite = true)
    {r s : List Char} (hr : Ends r) (hs : Ends s) (h : v.text ++ r = w.text ++ s) :
    v.normalize = w.normalize ∧ r = s := by
  induction v using Json.induction generalizing w r s with
  | null =>
    have hkind := kind_eq_of_text_append h
    cases w <;> cases hkind
    · cases h
      exact ⟨rfl, rfl⟩
    · cases hw
  | bool b =>
    have hkind := kind_eq_of_text_append h
    cases w <;> cases hkind
    rename_i b'
    cases b <;> cases b' <;> cases h
    all_goals exact ⟨rfl, rfl⟩
  | num n =>
    have hkind := kind_eq_of_text_append h
    cases w <;> cases hkind
    obtain ⟨rfl, rfl⟩ := number_append_inj hr hs h
    exact ⟨rfl, rfl⟩
  | nonFinite => cases hv
  | str a =>
    have hkind := kind_eq_of_text_append h
    cases w <;> cases hkind
    obtain ⟨rfl, rfl⟩ := quote_append_inj h
    exact ⟨rfl, rfl⟩
  | arr elems ih =>
    have hkind := kind_eq_of_text_append h
    cases w <;> cases hkind
    rename_i elems'
    simp only [text, texts_eq_map, List.cons_append, List.append_assoc, List.nil_append,
      List.cons.injEq, true_and] at h
    obtain ⟨hall, rfl⟩ := intercalate_inj (R := fun x y ↦ x.normalize = y.normalize) (.inl rfl)
      (fun x hx y hy {_ _} hr hs heq ↦ ih x hx (allFinite_iff.1 hv x hx)
        (allFinite_iff.1 hw y hy) hr hs heq)
      (fun x _ ↦ x.starts_text) (fun y _ ↦ y.starts_text) h
    refine ⟨?_, rfl⟩
    rw [normalize, normalize, normalizeAll_eq_map, normalizeAll_eq_map]
    exact congrArg Json.arr (map_eq_map_of_forall₂ hall)
  | obj members ih =>
    have hkind := kind_eq_of_text_append h
    cases w <;> cases hkind
    rename_i members'
    simp only [text_obj, List.cons_append, List.append_assoc, List.nil_append, List.cons.injEq,
      true_and] at h
    have hmem : ∀ {p : String × Json} {l : List (String × Json)},
        p ∈ l.insertionSort KeyLE → p ∈ l :=
      (List.mem_insertionSort KeyLE).1
    -- a member is told apart by its key, and then by its value
    obtain ⟨hall, rfl⟩ := intercalate_inj
      (R := fun p q ↦ (p.1, p.2.normalize) = (q.1, q.2.normalize)) (.inr rfl)
      (fun p hp q hq {_ _} hr hs heq ↦ by
        simp only [memberText, List.append_assoc, List.cons_append] at heq
        obtain ⟨hkey, hvalue⟩ := quote_append_inj heq
        obtain ⟨hnorm, htail⟩ := ih p (hmem hp) (membersFinite_iff.1 hv p (hmem hp))
          (membersFinite_iff.1 hw q (hmem hq)) hr hs (List.cons.inj hvalue).2
        exact ⟨Prod.ext hkey hnorm, htail⟩)
      (fun p _ ↦ starts_memberText _) (fun q _ ↦ starts_memberText _) h
    rw [normalize_obj, normalize_obj, map_eq_map_of_forall₂ hall]
    exact ⟨rfl, rfl⟩

/-- Finite values with the same text are the same up to the order of members. -/
theorem normalize_eq_of_text_eq {v w : Json} (hv : v.finite = true) (hw : w.finite = true)
    (htext : v.text = w.text) : v.normalize = w.normalize := by
  have h : v.text ++ [] = w.text ++ [] := by
    rw [htext]
  exact (text_append_inj hv hw ends_nil ends_nil h).1

/-- Values with the same canonical text are the same up to the order of members. -/
theorem normalize_eq_of_canonicalJson {v w : Json} {t : String}
    (hv : canonicalJson v = some t) (hw : canonicalJson w = some t) :
    v.normalize = w.normalize := by
  obtain ⟨hfv, htv⟩ := Option.ite_none_right_eq_some.1 hv
  obtain ⟨hfw, htw⟩ := Option.ite_none_right_eq_some.1 hw
  exact normalize_eq_of_text_eq hfv hfw
    (String.ofList_injective (Option.some.inj (htv.trans htw.symm)))

/-! #### Members -/

/-- A member of a normalized object. -/
theorem get?_normalize {members : List (String × Json)} (hkeys : (members.map Prod.fst).Nodup)
    (key : String) :
    (Json.obj members).normalize.get? key = ((Json.obj members).get? key).map normalize := by
  rw [normalize_obj]
  have hperm := (members.perm_insertionSort KeyLE).symm
  simp only [get?, members?, Option.bind_some]
  rw [Members.lookup_map_snd, Members.lookup_eq_of_perm hperm hkeys]

/-- Objects that are the same up to the order of members have the same members. -/
theorem get?_eq_of_normalize_eq {members members' : List (String × Json)}
    (hkeys : (members.map Prod.fst).Nodup) (hkeys' : (members'.map Prod.fst).Nodup)
    (h : (Json.obj members).normalize = (Json.obj members').normalize) (key : String) :
    ((Json.obj members).get? key).map normalize = ((Json.obj members').get? key).map normalize := by
  rw [← get?_normalize hkeys, ← get?_normalize hkeys', h]

end Json
