import ModelConnector.Foundations.EcmaNumber

/-!
# JSON in ECMAScript

The values JSON stands for, `JSON.parse`, and the writers of canonical texts: without blanks, the
members of an object sorted by their keys. A writer has its own spelling of numbers and strings and
its own order of the keys. What it writes is read as the value with sorted members
(`Writer.parse_text`) when it is lawful, that is when its numbers and strings are read as
themselves. -/

namespace Ecma

/-- A value. The members of an object stand in the order they were set in. -/
inductive Value
  | null
  | bool (b : Bool)
  | num (n : Number)
  | str (s : Text)
  | arr (elems : List Value)
  | obj (members : List (Text × Value))

/-- Induction on a value, its elements and the values of its members. -/
@[elab_as_elim]
theorem Value.induction {P : Value → Prop} (null : P .null) (bool : ∀ b, P (.bool b))
    (num : ∀ n, P (.num n)) (str : ∀ s, P (.str s))
    (arr : ∀ elems, (∀ v ∈ elems, P v) → P (.arr elems))
    (obj : ∀ members : List (Text × Value), (∀ p ∈ members, P p.2) → P (.obj members))
    (v : Value) : P v := by
  refine Value.rec (motive_1 := P) (motive_2 := fun elems ↦ ∀ v ∈ elems, P v)
    (motive_3 := fun members ↦ ∀ p ∈ members, P p.2) (motive_4 := fun p ↦ P p.2)
    null bool num str arr obj ?_ ?_ ?_ ?_ ?_ v
  · simp
  · rintro head tail hhead htail w (_ | ⟨_, hw⟩)
    exacts [hhead, htail w hw]
  · simp
  · rintro head tail hhead htail p (_ | ⟨_, hp⟩)
    exacts [hhead, htail p hp]
  · exact fun _ _ h ↦ h

/-! ### Reading -/

/-- JSON white space. -/
def isBlank (u : CodeUnit) : Bool :=
  u.val = 0x20 || u.val = 0x09 || u.val = 0x0A || u.val = 0x0D

/-- The text from its first unit that is not white space on. -/
def skipBlank (t : Text) : Text :=
  t.dropWhile isBlank

/-- Read a word. -/
def readWord (word : Text) (v : Value) (t : Text) : Option (Value × Text) :=
  if word.isPrefixOf t then some (v, t.drop word.length) else none

/-- Read a key and the colon after it. -/
def readKey : Text → Option (Text × Text)
  | [] => none
  | u :: rest =>
    if u.val = 0x22 then
      match readBody .plain rest with
      | none => none
      | some (key, t) =>
        match skipBlank t with
        | [] => none
        | v :: t' => if v.val = 0x3A then some (key, t') else none
    else none

/-- The members of an object that is read: a key that is read again gets the later value. -/
def assign {α : Type} : List (Text × α) → List (Text × α)
  | [] => []
  | (key, v) :: rest =>
    match (assign rest).lookup key with
    | none => (key, v) :: assign rest
    | some w => (key, w) :: (assign rest).eraseP fun p ↦ p.1 = key

mutual

/-- Read a value, from its first unit on: the value, and the text after it. -/
def readValue : ℕ → Text → Option (Value × Text)
  | 0, _ => none
  | _ + 1, [] => none
  | fuel + 1, u :: rest =>
    if u.val = 0x7B then
      if (skipBlank rest).head? = some 0x7D then some (.obj [], (skipBlank rest).tail)
      else (readMembers fuel (skipBlank rest)).map fun p ↦ (.obj (assign p.1), p.2)
    else if u.val = 0x5B then
      if (skipBlank rest).head? = some 0x5D then some (.arr [], (skipBlank rest).tail)
      else (readElems fuel (skipBlank rest)).map fun p ↦ (.arr p.1, p.2)
    else if u.val = 0x22 then (readBody .plain rest).map fun p ↦ (.str p.1, p.2)
    else if u.val = 0x6E then readWord (ascii "null") .null (u :: rest)
    else if u.val = 0x74 then readWord (ascii "true") (.bool true) (u :: rest)
    else if u.val = 0x66 then readWord (ascii "false") (.bool false) (u :: rest)
    else (readNumber (u :: rest)).map fun p ↦ (.num p.1, p.2)

/-- Read the elements of an array from the first one on, and its closing bracket. -/
def readElems : ℕ → Text → Option (List Value × Text)
  | 0, _ => none
  | fuel + 1, t =>
    match readValue fuel t with
    | none => none
    | some (v, t') =>
      match skipBlank t' with
      | [] => none
      | u :: rest =>
        if u.val = 0x2C then (readElems fuel (skipBlank rest)).map fun p ↦ (v :: p.1, p.2)
        else if u.val = 0x5D then some ([v], rest)
        else none

/-- Read the members of an object from the first one on, and its closing brace. -/
def readMembers : ℕ → Text → Option (List (Text × Value) × Text)
  | 0, _ => none
  | fuel + 1, t =>
    match readKey t with
    | none => none
    | some (key, t') =>
      match readValue fuel (skipBlank t') with
      | none => none
      | some (v, t'') =>
        match skipBlank t'' with
        | [] => none
        | u :: rest =>
          if u.val = 0x2C then
            (readMembers fuel (skipBlank rest)).map fun p ↦ ((key, v) :: p.1, p.2)
          else if u.val = 0x7D then some ([(key, v)], rest)
          else none

end

/-- `JSON.parse`. -/
def parse (t : Text) : Option Value :=
  match readValue (2 * t.length + 2) (skipBlank t) with
  | none => none
  | some (v, rest) => if skipBlank rest = [] then some v else none

/-! ### Writing -/

/-- How numbers and strings are written, and how keys are sorted. -/
structure Writer where
  number : Number → Text
  /-- What stands between the quotation marks. -/
  body : Text → Text
  sortKey : Text → List ℕ

namespace Writer

variable (w : Writer)

/-- A string with its quotation marks. -/
def quote (s : Text) : Text :=
  0x22 :: w.body s ++ [0x22]

/-- The order in which members are written. -/
def KeyLE {α : Type} (p q : Text × α) : Prop :=
  w.sortKey p.1 ≤ w.sortKey q.1

instance {α : Type} : DecidableRel (@KeyLE w α) := fun p q ↦
  inferInstanceAs (Decidable (w.sortKey p.1 ≤ w.sortKey q.1))

/-- The text of a member, of whose value the text is given. -/
def memberText (p : Text × Text) : Text :=
  w.quote p.1 ++ 0x3A :: p.2

mutual

/-- The text of a value. -/
def text : Value → Text
  | .null => ascii "null"
  | .bool true => ascii "true"
  | .bool false => ascii "false"
  | .num n => w.number n
  | .str s => w.quote s
  | .arr elems => 0x5B :: [0x2C].intercalate (texts elems) ++ [0x5D]
  | .obj members =>
    0x7B :: [0x2C].intercalate (((memberTexts members).insertionSort w.KeyLE).map w.memberText) ++
      [0x7D]

/-- The texts of elements. -/
def texts : List Value → List Text
  | [] => []
  | v :: rest => text v :: texts rest

/-- The texts of the values of members. -/
def memberTexts : List (Text × Value) → List (Text × Text)
  | [] => []
  | p :: rest => pairText p :: memberTexts rest

/-- The text of the value of a member. -/
def pairText : Text × Value → Text × Text
  | (key, v) => (key, text v)

end

mutual

/-- The value with the members of every object in the order they are written in. -/
def normalize : Value → Value
  | .arr elems => .arr (normalizeAll elems)
  | .obj members => .obj ((normalizeMembers members).insertionSort w.KeyLE)
  | .null => .null
  | .bool b => .bool b
  | .num n => .num n
  | .str s => .str s

/-- The elements, normalized. -/
def normalizeAll : List Value → List Value
  | [] => []
  | v :: rest => normalize v :: normalizeAll rest

/-- The members with normalized values. -/
def normalizeMembers : List (Text × Value) → List (Text × Value)
  | [] => []
  | p :: rest => normalizePair p :: normalizeMembers rest

/-- The member with a normalized value. -/
def normalizePair : Text × Value → Text × Value
  | (key, v) => (key, normalize v)

end

theorem texts_eq_map (elems : List Value) : w.texts elems = elems.map w.text := by
  induction elems with
  | nil => rfl
  | cons v rest ih => rw [texts, ih, List.map_cons]

theorem memberTexts_eq_map (members : List (Text × Value)) :
    w.memberTexts members = members.map fun p ↦ (p.1, w.text p.2) := by
  induction members with
  | nil => rfl
  | cons p rest ih => rw [memberTexts, ih, List.map_cons, pairText]

theorem normalizeAll_eq_map (elems : List Value) :
    w.normalizeAll elems = elems.map w.normalize := by
  induction elems with
  | nil => rfl
  | cons v rest ih => rw [normalizeAll, ih, List.map_cons]

theorem normalizeMembers_eq_map (members : List (Text × Value)) :
    w.normalizeMembers members = members.map fun p ↦ (p.1, w.normalize p.2) := by
  induction members with
  | nil => rfl
  | cons p rest ih => rw [normalizeMembers, ih, List.map_cons, normalizePair]

/-- Members are sorted by their keys, so what is computed of their values can be computed before
or after. -/
theorem map_insertionSort_members {α β : Type} (f : α → β) (members : List (Text × α)) :
    (members.map fun p ↦ (p.1, f p.2)).insertionSort w.KeyLE =
      (members.insertionSort w.KeyLE).map fun p ↦ (p.1, f p.2) :=
  (List.map_insertionSort w.KeyLE w.KeyLE (fun p : Text × α ↦ (p.1, f p.2)) members
    fun _ _ _ _ ↦ Iff.rfl).symm

theorem text_arr (elems : List Value) :
    w.text (.arr elems) = 0x5B :: [0x2C].intercalate (elems.map w.text) ++ [0x5D] := by
  rw [text, texts_eq_map]

theorem text_obj (members : List (Text × Value)) :
    w.text (.obj members) = 0x7B :: [0x2C].intercalate ((members.insertionSort w.KeyLE).map
      fun p ↦ w.memberText (p.1, w.text p.2)) ++ [0x7D] := by
  rw [text, memberTexts_eq_map, map_insertionSort_members, List.map_map]
  rfl

theorem normalize_arr (elems : List Value) :
    w.normalize (.arr elems) = .arr (elems.map w.normalize) := by
  rw [normalize, normalizeAll_eq_map]

theorem normalize_obj (members : List (Text × Value)) :
    w.normalize (.obj members) =
      .obj ((members.insertionSort w.KeyLE).map fun p ↦ (p.1, w.normalize p.2)) := by
  rw [normalize, normalizeMembers_eq_map, map_insertionSort_members]

end Writer

/-! ### What is written is read -/

/-- No object has a key twice. -/
inductive Value.Proper : Value → Prop
  | null : Proper .null
  | bool (b : Bool) : Proper (.bool b)
  | num (n : Number) : Proper (.num n)
  | str (s : Text) : Proper (.str s)
  | arr {elems : List Value} : (∀ v ∈ elems, Proper v) → Proper (.arr elems)
  | obj {members : List (Text × Value)} : (members.map Prod.fst).Nodup →
      (∀ p ∈ members, Proper p.2) → Proper (.obj members)

theorem Value.Proper.elems {elems : List Value} (h : Proper (.arr elems)) :
    ∀ v ∈ elems, Proper v := by
  cases h
  assumption

theorem Value.Proper.keys {members : List (Text × Value)} (h : Proper (.obj members)) :
    (members.map Prod.fst).Nodup := by
  cases h
  assumption

theorem Value.Proper.members {members : List (Text × Value)} (h : Proper (.obj members)) :
    ∀ p ∈ members, Proper p.2 := by
  cases h
  assumption

/-- A unit with which a number starts. -/
def StartsNumber (u : CodeUnit) : Prop :=
  u.val = 0x2D ∨ 0x30 ≤ u.val ∧ u.val ≤ 0x39

/-- Numbers and strings are read as themselves. -/
structure Writer.Lawful (w : Writer) : Prop where
  number : ∀ n {t : Text}, NumberEnds t → readNumber (w.number n ++ t) = some (n, t)
  starts : ∀ n, ∃ u rest, w.number n = u :: rest ∧ StartsNumber u
  body : ∀ s, Spelled (w.body s) s

/-- Where no key is set twice, the members are the ones that were read. -/
theorem assign_of_nodup {α : Type} {members : List (Text × α)}
    (h : (members.map Prod.fst).Nodup) : assign members = members := by
  induction members with
  | nil => rfl
  | cons p rest ih =>
    obtain ⟨key, v⟩ := p
    obtain ⟨hfresh, hrest⟩ := List.nodup_cons.1 h
    have hnone : rest.lookup key = none := by
      rw [List.lookup_eq_none_iff]
      intro q hq
      rw [bne_iff_ne]
      exact fun heq ↦ hfresh (List.mem_map.2 ⟨q, hq, heq.symm⟩)
    rw [assign, ih hrest, hnone]

theorem readWord_append (word : Text) (v : Value) (t : Text) :
    readWord word v (word ++ t) = some (v, t) := by
  rw [readWord, if_pos (List.isPrefixOf_iff_prefix.2 (List.prefix_append word t)),
    List.drop_left]

theorem skipBlank_cons {u : CodeUnit} (t : Text) (h : isBlank u = false) :
    skipBlank (u :: t) = u :: t := by
  rw [skipBlank, List.dropWhile_cons_of_neg]
  rw [h]
  exact Bool.false_ne_true

namespace Writer

variable {w : Writer}

/-- A text is not empty, and starts neither with white space nor as an array or an object ends. -/
def Starts (t : Text) : Prop :=
  ∃ u rest, t = u :: rest ∧ isBlank u = false ∧ u.val ≠ 0x5D ∧ u.val ≠ 0x7D

theorem Starts.skipBlank {t : Text} (h : Starts t) (t' : Text) : skipBlank (t ++ t') = t ++ t' := by
  obtain ⟨u, rest, rfl, hblank, -⟩ := h
  exact skipBlank_cons _ hblank

theorem Starts.head?_ne {t : Text} (h : Starts t) (t' : Text) :
    (t ++ t').head? ≠ some 0x5D ∧ (t ++ t').head? ≠ some 0x7D := by
  obtain ⟨u, rest, rfl, -, hbracket, hbrace⟩ := h
  refine ⟨fun hhead ↦ ?_, fun hhead ↦ ?_⟩
  · cases hhead
    exact hbracket rfl
  · cases hhead
    exact hbrace rfl

theorem starts_intercalate {t : Text} (h : Starts t) (ts : List Text) :
    Starts ([0x2C].intercalate (t :: ts)) := by
  obtain ⟨u, rest, rfl, hu⟩ := h
  cases ts with
  | nil => exact ⟨u, rest, List.intercalate_singleton, hu⟩
  | cons t' ts =>
    rw [List.intercalate_cons_cons]
    exact ⟨u, _, rfl, hu⟩

theorem Lawful.starts_text (h : w.Lawful) (v : Value) : Starts (w.text v) := by
  cases v with
  | null => exact ⟨_, _, rfl, by decide, by decide, by decide⟩
  | bool b => cases b <;> exact ⟨_, _, rfl, by decide, by decide, by decide⟩
  | num n =>
    obtain ⟨u, rest, htext, hu⟩ := h.starts n
    unfold StartsNumber at hu
    refine ⟨u, rest, by rw [text, htext], ?_, by omega, by omega⟩
    simp only [isBlank, Bool.or_eq_false_iff, decide_eq_false_iff_not]
    omega
  | str s => exact ⟨_, _, rfl, by decide, by decide, by decide⟩
  | arr elems => exact ⟨_, _, rfl, by decide, by decide, by decide⟩
  | obj members => exact ⟨_, _, rfl, by decide, by decide, by decide⟩

theorem Lawful.readBody_quote (h : w.Lawful) (s t : Text) :
    readBody .plain (w.body s ++ [0x22] ++ t) = some (s, t) := by
  rw [List.append_assoc, List.singleton_append]
  exact (h.body s).readBody t

theorem Lawful.readKey_quote (h : w.Lawful) (key t : Text) :
    readKey (w.quote key ++ 0x3A :: t) = some (key, t) := by
  have hcolon : Ecma.skipBlank (0x3A :: t) = 0x3A :: t := skipBlank_cons _ (by decide)
  rw [quote, List.cons_append, List.cons_append, readKey, if_pos (by decide), h.readBody_quote]
  simp only [hcolon]
  rw [if_pos (by decide)]

theorem numberEnds_cons {u : CodeUnit} (t : Text) (h : digit? u = none ∧ u.val ≠ 0x2E ∧
    u.val ≠ 0x65 ∧ u.val ≠ 0x45) : NumberEnds (u :: t) := by
  intro v hv
  cases hv
  exact h

/-- A value is read from its text with enough fuel, whatever follows that ends a number. -/
def Reads (w : Writer) (v : Value) : Prop :=
  ∀ (fuel : ℕ) (t : Text), 2 * (w.text v).length ≤ fuel → NumberEnds t →
    readValue fuel (w.text v ++ t) = some (w.normalize v, t)

theorem Lawful.readElems_texts (h : w.Lawful) {elems : List Value} (hne : elems ≠ [])
    (ih : ∀ v ∈ elems, w.Reads v) {fuel : ℕ} {t : Text}
    (hfuel : 2 * ([0x2C].intercalate (elems.map w.text)).length + 1 ≤ fuel) :
    readElems fuel ([0x2C].intercalate (elems.map w.text) ++ 0x5D :: t) =
      some (elems.map w.normalize, t) := by
  induction elems generalizing fuel with
  | nil => exact absurd rfl hne
  | cons v rest ihr =>
    obtain ⟨fuel, rfl⟩ : ∃ n, fuel = n + 1 := ⟨fuel - 1, by omega⟩
    have hv := ih v List.mem_cons_self
    cases rest with
    | nil =>
      simp only [List.map_cons, List.map_nil, List.intercalate_singleton] at hfuel ⊢
      have hread := hv fuel _ (by omega) (numberEnds_cons t (u := 0x5D) (by decide))
      have hclose : Ecma.skipBlank (0x5D :: t) = 0x5D :: t := skipBlank_cons _ (by decide)
      rw [readElems, hread]
      simp only [hclose]
      rw [if_neg (by decide), if_pos (by decide)]
    | cons v' rest =>
      simp only [List.map_cons, List.intercalate_cons_cons, List.length_append, List.length_cons,
        List.append_assoc, List.cons_append, List.nil_append] at hfuel ⊢
      set tail := [0x2C].intercalate (w.text v' :: rest.map w.text) with htail
      have hread := hv fuel _ (by omega)
        (numberEnds_cons (tail ++ 0x5D :: t) (u := 0x2C) (by decide))
      have hcomma : Ecma.skipBlank (0x2C :: (tail ++ 0x5D :: t)) = 0x2C :: (tail ++ 0x5D :: t) :=
        skipBlank_cons _ (by decide)
      have hstart : Ecma.skipBlank (tail ++ 0x5D :: t) = tail ++ 0x5D :: t :=
        (starts_intercalate (h.starts_text v') _).skipBlank _
      have hrest : readElems fuel ([0x2C].intercalate ((v' :: rest).map w.text) ++ 0x5D :: t) =
          some ((v' :: rest).map w.normalize, t) :=
        ihr (List.cons_ne_nil _ _) (fun v hv ↦ ih v (List.mem_cons_of_mem _ hv))
          (by rw [List.map_cons, ← htail]; omega)
      rw [List.map_cons, ← htail] at hrest
      rw [readElems, hread]
      simp only [hcomma]
      rw [if_pos (by decide), hstart, hrest]
      rfl

theorem starts_memberText (p : Text × Text) : Starts (w.memberText p) :=
  ⟨_, _, rfl, by decide, by decide, by decide⟩

theorem Lawful.readMembers_texts (h : w.Lawful) {members : List (Text × Value)} (hne : members ≠ [])
    (ih : ∀ p ∈ members, w.Reads p.2) {fuel : ℕ} {t : Text}
    (hfuel : 2 * ([0x2C].intercalate
      (members.map fun p ↦ w.memberText (p.1, w.text p.2))).length + 1 ≤ fuel) :
    readMembers fuel ([0x2C].intercalate (members.map fun p ↦ w.memberText (p.1, w.text p.2)) ++
        0x7D :: t) =
      some (members.map fun p ↦ (p.1, w.normalize p.2), t) := by
  induction members generalizing fuel with
  | nil => exact absurd rfl hne
  | cons p rest ihr =>
    obtain ⟨fuel, rfl⟩ : ∃ n, fuel = n + 1 := ⟨fuel - 1, by omega⟩
    obtain ⟨key, v⟩ := p
    have hv : w.Reads v := ih (key, v) List.mem_cons_self
    have hvalue : ∀ t', Ecma.skipBlank (w.text v ++ t') = w.text v ++ t' :=
      fun t' ↦ (h.starts_text v).skipBlank t'
    cases rest with
    | nil =>
      simp only [List.map_cons, List.map_nil, List.intercalate_singleton, memberText,
        List.length_append, List.length_cons, List.append_assoc, List.cons_append] at hfuel ⊢
      have hread := hv fuel _ (by omega) (numberEnds_cons t (u := 0x7D) (by decide))
      have hclose : Ecma.skipBlank (0x7D :: t) = 0x7D :: t := skipBlank_cons _ (by decide)
      rw [readMembers, h.readKey_quote]
      simp only [hvalue, hread, hclose]
      rw [if_neg (by decide), if_pos (by decide)]
    | cons p' rest =>
      have hrest : 2 * ([0x2C].intercalate ((p' :: rest).map fun p ↦
          w.memberText (p.1, w.text p.2))).length + 1 ≤ fuel → readMembers fuel ([0x2C].intercalate
            ((p' :: rest).map fun p ↦ w.memberText (p.1, w.text p.2)) ++ 0x7D :: t) =
              some ((p' :: rest).map fun p ↦ (p.1, w.normalize p.2), t) :=
        ihr (List.cons_ne_nil _ _) fun p hp ↦ ih p (List.mem_cons_of_mem _ hp)
      simp only [List.map_cons] at hrest
      simp only [List.map_cons, List.intercalate_cons_cons] at hfuel ⊢
      set tail := [0x2C].intercalate (w.memberText (p'.1, w.text p'.2) ::
        rest.map fun p ↦ w.memberText (p.1, w.text p.2)) with htail
      have hstart : Ecma.skipBlank (tail ++ 0x7D :: t) = tail ++ 0x7D :: t :=
        (starts_intercalate (starts_memberText _) _).skipBlank _
      simp only [memberText, List.length_append, List.length_cons, List.append_assoc,
        List.cons_append, List.nil_append] at hfuel ⊢
      have hread := hv fuel _ (by omega)
        (numberEnds_cons (tail ++ 0x7D :: t) (u := 0x2C) (by decide))
      have hcomma : Ecma.skipBlank (0x2C :: (tail ++ 0x7D :: t)) = 0x2C :: (tail ++ 0x7D :: t) :=
        skipBlank_cons _ (by decide)
      rw [readMembers, h.readKey_quote]
      simp only [hvalue, hread, hcomma]
      rw [if_pos (by decide), hstart, hrest (by omega)]
      rfl

theorem nodup_insertionSort {α : Type} {members : List (Text × α)}
    (h : (members.map Prod.fst).Nodup) :
    ((members.insertionSort w.KeyLE).map Prod.fst).Nodup :=
  (((members.perm_insertionSort w.KeyLE).map Prod.fst).nodup_iff).2 h

/-- **A value is read from its text.** -/
theorem Lawful.reads (h : w.Lawful) {v : Value} (hv : v.Proper) : w.Reads v := by
  induction v using Value.induction with
  | null =>
    intro fuel t hfuel _
    obtain ⟨fuel, rfl⟩ : ∃ n, fuel = n + 1 := ⟨fuel - 1, by simp [text, ascii] at hfuel; omega⟩
    exact readWord_append (ascii "null") .null t
  | bool b =>
    intro fuel t hfuel _
    cases b with
    | true =>
      obtain ⟨fuel, rfl⟩ : ∃ n, fuel = n + 1 := ⟨fuel - 1, by simp [text, ascii] at hfuel; omega⟩
      exact readWord_append (ascii "true") (.bool true) t
    | false =>
      obtain ⟨fuel, rfl⟩ : ∃ n, fuel = n + 1 := ⟨fuel - 1, by simp [text, ascii] at hfuel; omega⟩
      exact readWord_append (ascii "false") (.bool false) t
  | num n =>
    intro fuel t hfuel hends
    obtain ⟨u, rest, htext, hu⟩ := h.starts n
    have hread := h.number n hends
    simp only [text] at hfuel ⊢
    rw [htext] at hfuel hread ⊢
    rw [List.length_cons] at hfuel
    obtain ⟨fuel, rfl⟩ : ∃ n, fuel = n + 1 := ⟨fuel - 1, by omega⟩
    unfold StartsNumber at hu
    rw [List.cons_append] at hread ⊢
    rw [readValue, if_neg (by omega), if_neg (by omega), if_neg (by omega), if_neg (by omega),
      if_neg (by omega), if_neg (by omega), hread]
    rfl
  | str s =>
    intro fuel t hfuel _
    simp only [text, quote, List.length_append, List.length_cons] at hfuel ⊢
    obtain ⟨fuel, rfl⟩ : ∃ n, fuel = n + 1 := ⟨fuel - 1, by omega⟩
    rw [List.cons_append, List.cons_append, readValue, if_neg (by decide), if_neg (by decide),
      if_pos (by decide), h.readBody_quote]
    rfl
  | arr elems ih =>
    intro fuel t hfuel _
    rw [text_arr, normalize_arr] at *
    simp only [List.length_append, List.length_cons, List.length_nil, List.append_assoc,
      List.cons_append, List.nil_append] at hfuel ⊢
    obtain ⟨fuel, rfl⟩ : ∃ n, fuel = n + 1 := ⟨fuel - 1, by omega⟩
    rw [readValue, if_neg (by decide), if_pos (by decide)]
    cases elems with
    | nil => rfl
    | cons v rest =>
      have hstarts : Starts ([0x2C].intercalate ((v :: rest).map w.text)) :=
        starts_intercalate (h.starts_text v) _
      rw [hstarts.skipBlank, if_neg (hstarts.head?_ne _).1,
        h.readElems_texts (List.cons_ne_nil _ _)
          (fun v hmem ↦ ih v hmem (hv.elems v hmem)) (by omega)]
      rfl
  | obj members ih =>
    intro fuel t hfuel _
    rw [text_obj, normalize_obj] at *
    simp only [List.length_append, List.length_cons, List.length_nil, List.append_assoc,
      List.cons_append, List.nil_append] at hfuel ⊢
    obtain ⟨fuel, rfl⟩ : ∃ n, fuel = n + 1 := ⟨fuel - 1, by omega⟩
    -- the members are written in the order of their keys, and no key twice
    have hkeys := nodup_insertionSort (w := w) hv.keys
    have hmem : ∀ {p}, p ∈ members.insertionSort w.KeyLE → p ∈ members :=
      (List.mem_insertionSort w.KeyLE).1
    rw [readValue, if_pos (by decide)]
    cases hsorted : members.insertionSort w.KeyLE with
    | nil => rfl
    | cons p rest =>
      rw [hsorted] at hfuel hkeys hmem
      have hstarts : Starts ([0x2C].intercalate
          ((p :: rest).map fun p ↦ w.memberText (p.1, w.text p.2))) :=
        starts_intercalate (starts_memberText _) _
      have hassign : ((p :: rest).map fun p ↦ (p.1, w.normalize p.2)).map Prod.fst =
          (p :: rest).map Prod.fst := by
        rw [List.map_map]
        rfl
      rw [hstarts.skipBlank, if_neg (hstarts.head?_ne _).2,
        h.readMembers_texts (List.cons_ne_nil _ _)
          (fun p hp ↦ ih p (hmem hp) (hv.members p (hmem hp)))
          (by omega), Option.map_some, assign_of_nodup (hassign ▸ hkeys)]

/-- **What a lawful writer writes is read as the value with sorted members.** -/
theorem Lawful.parse_text (h : w.Lawful) {v : Value} (hv : v.Proper) :
    parse (w.text v) = some (w.normalize v) := by
  have hread := h.reads hv (2 * (w.text v).length + 2) [] (by omega) fun u hu ↦ by cases hu
  have hstart := (h.starts_text v).skipBlank []
  rw [List.append_nil] at hread hstart
  rw [parse, hstart, hread]
  exact if_pos rfl

end Writer

end Ecma
