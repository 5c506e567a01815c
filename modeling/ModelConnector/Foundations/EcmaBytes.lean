import ModelConnector.Foundations.EcmaJson
import ModelConnector.Foundations.Members
import ModelConnector.Foundations.Splits

/-!
# Bytes of strings

How many bytes a string has in UTF-8, where a surrogate that is not in a pair is replaced. The parts
of a string have no more bytes than the whole (`byteLength_flatten_splitLines_le`), and a string
that `JSON.parse` finds in a text has no more than the text (`byteLength_le_of_parse`): an escape
never has fewer bytes than the unit it stands for. -/

namespace Ecma

/-! ### Counting -/

/-- How many bytes a code unit adds, after the first half of a pair or not: the second half adds the
one byte that a pair has more than a surrogate that is replaced. -/
def unitBytes (afterLead : Bool) (u : CodeUnit) : ℕ :=
  if u.val < 0x80 then 1
  else if u.val < 0x800 then 2
  else if isTrail u && afterLead then 1
  else 3

/-- The bytes of a string from some place on. -/
def bytesFrom : Bool → Text → ℕ
  | _, [] => 0
  | afterLead, u :: rest => unitBytes afterLead u + bytesFrom (isLead u) rest

/-- `Buffer.byteLength`. -/
def byteLength (t : Text) : ℕ :=
  bytesFrom false t

variable {s t : Text} {u : CodeUnit} {p q : Bool}

@[simp]
theorem byteLength_nil : byteLength [] = 0 :=
  rfl

theorem bytesFrom_cons (p : Bool) (u : CodeUnit) (t : Text) :
    bytesFrom p (u :: t) = unitBytes p u + bytesFrom (isLead u) t :=
  rfl

theorem unitBytes_le : unitBytes p u ≤ 3 := by
  unfold unitBytes
  split_ifs <;> omega

theorem unitBytes_pos : 1 ≤ unitBytes p u := by
  unfold unitBytes
  split_ifs <;> omega

/-- After the first half of a pair a unit has no more bytes. -/
theorem unitBytes_mono (h : p = true → q = true) : unitBytes q u ≤ unitBytes p u := by
  cases p with
  | true => rw [h rfl]
  | false =>
    unfold unitBytes
    cases q <;> split_ifs <;> simp_all

theorem bytesFrom_mono (h : p = true → q = true) (t : Text) : bytesFrom q t ≤ bytesFrom p t := by
  cases t with
  | nil => exact le_rfl
  | cons u rest => exact Nat.add_le_add_right (unitBytes_mono h) _

/-- What comes after the beginning of a string has no more bytes than the whole, and neither has the
beginning. -/
theorem bytesFrom_append_le (s t : Text) (p : Bool) :
    bytesFrom p (s ++ t) ≤ bytesFrom p s + byteLength t := by
  induction s generalizing p with
  | nil =>
    rw [List.nil_append]
    exact (bytesFrom_mono (fun h ↦ absurd h Bool.false_ne_true) t).trans (Nat.le_add_left _ _)
  | cons u rest ih =>
    rw [List.cons_append]
    unfold bytesFrom
    rw [Nat.add_assoc]
    exact Nat.add_le_add_left (ih _) _

theorem byteLength_append_le (s t : Text) : byteLength (s ++ t) ≤ byteLength s + byteLength t :=
  bytesFrom_append_le s t false

/-- After the first half of a pair a string has at most two bytes less. -/
theorem byteLength_le_bytesFrom (t : Text) : byteLength t ≤ bytesFrom true t + 2 := by
  cases t with
  | nil => exact Nat.zero_le _
  | cons u rest =>
    have hfirst : unitBytes false u ≤ unitBytes true u + 2 := by
      have h3 : unitBytes false u ≤ 3 := unitBytes_le
      have h1 : 1 ≤ unitBytes true u := unitBytes_pos
      omega
    unfold byteLength
    rw [bytesFrom_cons, bytesFrom_cons]
    omega

theorem unitBytes_of_isLead (h : isLead u = true) : unitBytes p u = 3 := by
  unfold isLead at h
  unfold unitBytes isTrail
  simp only [Bool.and_eq_true, decide_eq_true_eq] at h ⊢
  split_ifs <;> omega

theorem byteLength_le_cons (u : CodeUnit) (t : Text) : byteLength t ≤ byteLength (u :: t) := by
  have hpos : 1 ≤ unitBytes false u := unitBytes_pos
  have hrest := byteLength_le_bytesFrom t
  have hcons : byteLength (u :: t) = unitBytes false u + bytesFrom (isLead u) t := rfl
  cases hlead : isLead u with
  | true =>
    rw [hlead, unitBytes_of_isLead hlead] at hcons
    omega
  | false =>
    rw [hlead, show bytesFrom false t = byteLength t from rfl] at hcons
    omega

/-- The end of a string has no more bytes than the whole. -/
theorem byteLength_le_of_suffix (h : s <:+ t) : byteLength s ≤ byteLength t := by
  obtain ⟨r, rfl⟩ := h
  induction r with
  | nil => exact le_rfl
  | cons u r ih => exact ih.trans (byteLength_le_cons u _)

theorem bytesFrom_cons_of_lt (h : u.val < 0x80) (t : Text) (p : Bool) :
    bytesFrom p (u :: t) = 1 + byteLength t := by
  have hlead : isLead u = false := by
    unfold isLead
    simp only [Bool.and_eq_false_iff, decide_eq_false_iff_not]
    omega
  rw [bytesFrom_cons, hlead, unitBytes, if_pos h]
  rfl

/-! ### Lines -/

/-- `split(/\r?\n/)`. -/
def splitLines : Text → List Text :=
  Splits.splitLines 0x0D 0x0A

/-- The bytes of lines, of which the first one comes after something else. -/
def linesBytes (p : Bool) : List Text → ℕ
  | [] => 0
  | line :: lines => bytesFrom p line + (lines.map byteLength).sum

theorem linesBytes_splitLines_le (t : Text) (p : Bool) :
    linesBytes p (splitLines t) ≤ bytesFrom p t := by
  unfold splitLines
  induction t generalizing p with
  | nil => exact le_rfl
  | cons u rest ih =>
    have hrest := ih false
    unfold Splits.splitLines
    split_ifs with hfeed hreturn
    · rw [bytesFrom_cons_of_lt (hfeed ▸ by decide)]
      cases hlines : Splits.splitLines 0x0D 0x0A rest with
      | nil => exact Nat.zero_le _
      | cons line lines =>
        rw [hlines] at hrest
        exact (Nat.zero_add _).trans_le (hrest.trans (Nat.le_add_left _ _))
    · rw [bytesFrom_cons_of_lt (hreturn.1 ▸ by decide)]
      calc linesBytes p (Splits.splitLines 0x0D 0x0A rest)
          ≤ bytesFrom p rest := ih p
        _ ≤ byteLength rest := bytesFrom_mono (fun h ↦ absurd h Bool.false_ne_true) rest
        _ ≤ 1 + byteLength rest := Nat.le_add_left _ _
    · have hnext := ih (isLead u)
      rw [bytesFrom_cons]
      cases hlines : Splits.splitLines 0x0D 0x0A rest with
      | nil => exact Nat.add_le_add_left (Nat.zero_le _) _
      | cons line lines =>
        rw [hlines] at hnext
        exact (Nat.add_assoc _ _ _).trans_le (Nat.add_le_add_left hnext _)

/-- **The lines of a string** have no more bytes than the string. -/
theorem sum_byteLength_splitLines_le (t : Text) :
    ((splitLines t).map byteLength).sum ≤ byteLength t := by
  have hle := linesBytes_splitLines_le t false
  cases hlines : splitLines t with
  | nil => exact Nat.zero_le _
  | cons line lines =>
    rw [hlines] at hle
    exact hle

/-! ### Strings that are read -/

/-- A string that a value has somewhere within it, besides its keys. -/
inductive Value.Has (s : Text) : Value → Prop
  | str : Has s (.str s)
  | elem {v : Value} {elems : List Value} : v ∈ elems → Has s v → Has s (.arr elems)
  | member {p : Text × Value} {members : List (Text × Value)} :
    p ∈ members → Has s p.2 → Has s (.obj members)

/-- The bytes of an escape that were read before. -/
def StringMode.read : StringMode → ℕ
  | .plain => 0
  | .escape => 1
  | .hex more _ => 5 - more

theorem unitBytes_of_unescape? {v : CodeUnit} (h : unescape? u = some v) : unitBytes p v = 1 := by
  unfold unescape? at h
  split_ifs at h <;> cases h <;> rfl

theorem lt_of_hexValue? {n : ℕ} (h : hexValue? u = some n) : u.val < 0x80 := by
  unfold hexValue? at h
  split_ifs at h <;> omega

theorem lt_of_unescape? {v : CodeUnit} (h : unescape? u = some v) : u.val < 0x80 := by
  unfold unescape? at h
  split_ifs at h <;> omega

/-- A body has no fewer bytes than the string it is read as, with what was read of an escape. -/
theorem bytesFrom_le_of_readBody {mode : StringMode} {rest : Text}
    (h : readBody mode t = some (s, rest)) (hpq : q = true → p = true) :
    bytesFrom p s ≤ bytesFrom q t + mode.read := by
  induction t generalizing mode s p q with
  | nil => simp [readBody] at h
  | cons u t ih =>
    have hfalse : ∀ {p : Bool}, false = true → p = true := fun h ↦ absurd h Bool.false_ne_true
    -- a unit that is read, and the string after it
    have hcons : ∀ {v : CodeUnit} {q : Bool}, (q = true → isLead v = true) →
        (readBody .plain t).map (consUnit v) = some (s, rest) →
          bytesFrom p s ≤ unitBytes p v + bytesFrom q t := by
      intro v q hq hread
      obtain ⟨⟨s', rest'⟩, hbody, heq⟩ := Option.map_eq_some_iff.1 hread
      obtain ⟨rfl, rfl⟩ := Prod.mk.inj heq
      exact Nat.add_le_add_left (ih hbody hq) _
    cases mode with
    | plain =>
      unfold readBody at h
      split_ifs at h with hquote hslash hcontrol
      · obtain ⟨rfl, rfl⟩ := Prod.mk.inj (Option.some.inj h)
        exact Nat.zero_le _
      · rw [bytesFrom_cons_of_lt (by omega)]
        have hrest : bytesFrom p s ≤ byteLength t + 1 := ih h hfalse
        have hread : StringMode.read .plain = 0 := rfl
        omega
      · rw [bytesFrom_cons]
        exact (hcons id h).trans (Nat.add_le_add_right (unitBytes_mono hpq) _)
    | escape =>
      unfold readBody at h
      have hread : StringMode.read .escape = 1 := rfl
      split_ifs at h with hunicode
      · rw [bytesFrom_cons_of_lt (by omega)]
        have hrest : bytesFrom p s ≤ byteLength t + 2 := ih h hfalse
        omega
      · cases hescape : unescape? u with
        | none => simp [hescape] at h
        | some v =>
          rw [hescape] at h
          rw [bytesFrom_cons_of_lt (lt_of_unescape? hescape)]
          have hrest : bytesFrom p s ≤ unitBytes p v + byteLength t := hcons hfalse h
          rw [unitBytes_of_unescape? hescape] at hrest
          omega
    | hex more value =>
      unfold readBody at h
      cases hdigit : hexValue? u with
      | none => simp [hdigit] at h
      | some digit =>
        rw [hdigit] at h
        rw [bytesFrom_cons_of_lt (lt_of_hexValue? hdigit)]
        cases more with
        | zero =>
          have hrest : bytesFrom p s ≤ unitBytes p _ + byteLength t := hcons hfalse h
          have hle := @unitBytes_le (Fin.ofNat 0x10000 (0x10 * value + digit)) p
          have hread : StringMode.read (.hex 0 value) = 5 := rfl
          omega
        | succ more =>
          have hrest : bytesFrom p s ≤ byteLength t + (5 - more) := ih h hfalse
          have hread : StringMode.read (.hex (more + 1) value) = 5 - (more + 1) := rfl
          omega

/-- What comes after a body is an end of it. -/
theorem suffix_of_readBody {mode : StringMode} {rest : Text}
    (h : readBody mode t = some (s, rest)) : rest <:+ t := by
  induction t generalizing mode s with
  | nil => simp [readBody] at h
  | cons u t ih =>
    have hcons : ∀ v : CodeUnit, (readBody .plain t).map (consUnit v) = some (s, rest) →
        rest <:+ t := by
      intro v hread
      obtain ⟨⟨s', rest'⟩, hbody, heq⟩ := Option.map_eq_some_iff.1 hread
      obtain ⟨rfl, rfl⟩ := Prod.mk.inj heq
      exact ih hbody
    refine List.IsSuffix.trans ?_ (List.suffix_cons u t)
    cases mode with
    | plain =>
      unfold readBody at h
      split_ifs at h
      · obtain ⟨rfl, rfl⟩ := Prod.mk.inj (Option.some.inj h)
        exact List.suffix_refl _
      · exact ih h
      · exact hcons u h
    | escape =>
      unfold readBody at h
      split_ifs at h
      · exact ih h
      · cases hescape : unescape? u with
        | none => simp [hescape] at h
        | some v =>
          rw [hescape] at h
          exact hcons v h
    | hex more value =>
      unfold readBody at h
      cases hdigit : hexValue? u with
      | none => simp [hdigit] at h
      | some digit =>
        rw [hdigit] at h
        cases more with
        | zero => exact hcons _ h
        | succ more => exact ih h

/-- What was read: the text after it is an end of the text, and no string in it has more bytes. -/
def Bounded {α : Type} (has : Text → α → Prop) (t : Text) (p : α × Text) : Prop :=
  p.2 <:+ t ∧ ∀ s, has s p.1 → byteLength s ≤ byteLength t

theorem Bounded.of_suffix {α : Type} {has : Text → α → Prop} {t' : Text} {p : α × Text}
    (h : Bounded has t p) (ht : t <:+ t') : Bounded has t' p :=
  ⟨h.1.trans ht, fun s hs ↦ (h.2 s hs).trans (byteLength_le_of_suffix ht)⟩

theorem Bounded.map {α β : Type} {has : Text → α → Prop} {has' : Text → β → Prop} {p : α × Text}
    (h : Bounded has t p) {f : α → β} (hf : ∀ s a, has' s (f a) → has s a) :
    Bounded has' t (f p.1, p.2) :=
  ⟨h.1, fun s hs ↦ h.2 s (hf s p.1 hs)⟩

theorem skipBlank_suffix (t : Text) : skipBlank t <:+ t :=
  List.dropWhile_suffix _

theorem byteLength_le_of_readBody {rest : Text} (h : readBody .plain t = some (s, rest)) :
    byteLength s ≤ byteLength t :=
  bytesFrom_le_of_readBody h id

theorem suffix_of_readWord {word : Text} {v : Value} {p : Value × Text}
    (h : readWord word v t = some p) : p.1 = v ∧ p.2 <:+ t := by
  unfold readWord at h
  split_ifs at h
  obtain rfl := Option.some.inj h
  exact ⟨rfl, List.drop_suffix _ _⟩

theorem suffix_of_readKey {p : Text × Text} (h : readKey t = some p) : p.2 <:+ t := by
  cases t with
  | nil => simp [readKey] at h
  | cons u rest =>
    unfold readKey at h
    dsimp only at h
    split_ifs at h
    cases hbody : readBody .plain rest with
    | none => simp [hbody] at h
    | some r =>
      obtain ⟨key, t'⟩ := r
      have hsuffix := (suffix_of_readBody hbody).trans (List.suffix_cons u rest)
      simp only [hbody] at h
      cases hskip : skipBlank t' with
      | nil => simp [hskip] at h
      | cons v t'' =>
        simp only [hskip] at h
        split_ifs at h
        obtain rfl := Option.some.inj h
        have hrest : t'' <:+ t' := (List.suffix_cons v t'').trans (hskip ▸ skipBlank_suffix t')
        exact hrest.trans hsuffix

theorem takeDigits_suffix (t : Text) : (takeDigits t).2 <:+ t := by
  induction t with
  | nil => exact List.suffix_refl _
  | cons u rest ih =>
    unfold takeDigits
    cases digit? u with
    | none => exact List.suffix_refl _
    | some d => exact ih.trans (List.suffix_cons u rest)

theorem readSign_suffix (t : Text) : (readSign t).2 <:+ t := by
  cases t with
  | nil => exact List.suffix_refl _
  | cons u rest =>
    unfold readSign
    dsimp only
    split_ifs
    · exact List.suffix_cons u rest
    · exact List.suffix_refl _

theorem suffix_of_readInteger {p : List Digit × Text} (h : readInteger t = some p) : p.2 <:+ t := by
  cases t with
  | nil => simp [readInteger] at h
  | cons u rest =>
    unfold readInteger at h
    cases hdigit : digit? u with
    | none => simp [hdigit] at h
    | some d =>
      simp only [hdigit] at h
      split_ifs at h
      · obtain rfl := Option.some.inj h
        exact List.suffix_cons u rest
      · obtain rfl := Option.some.inj h
        exact (takeDigits_suffix rest).trans (List.suffix_cons u rest)

theorem suffix_of_readFraction {p : List Digit × Text} (h : readFraction t = some p) :
    p.2 <:+ t := by
  cases t with
  | nil =>
    obtain rfl := Option.some.inj h
    exact List.suffix_refl _
  | cons u rest =>
    unfold readFraction at h
    dsimp only at h
    split_ifs at h
    · obtain rfl := Option.some.inj h
      exact (takeDigits_suffix rest).trans (List.suffix_cons u rest)
    · obtain rfl := Option.some.inj h
      exact List.suffix_refl _

theorem suffix_of_readExponentDigits {negative : Bool} {p : ℤ × Text}
    (h : readExponentDigits negative t = some p) : p.2 <:+ t := by
  unfold readExponentDigits at h
  split_ifs at h
  all_goals
    obtain rfl := Option.some.inj h
    exact takeDigits_suffix t

theorem suffix_of_readExponent {p : ℤ × Text} (h : readExponent t = some p) : p.2 <:+ t := by
  cases t with
  | nil =>
    obtain rfl := Option.some.inj h
    exact List.suffix_refl _
  | cons u rest =>
    simp only [readExponent] at h
    split_ifs at h
    · cases rest with
      | nil => cases h
      | cons v rest' =>
        have hrest : v :: rest' <:+ u :: v :: rest' := List.suffix_cons u _
        dsimp only at h
        split_ifs at h
        · exact (suffix_of_readExponentDigits h).trans ((List.suffix_cons v rest').trans hrest)
        · exact (suffix_of_readExponentDigits h).trans ((List.suffix_cons v rest').trans hrest)
        · exact (suffix_of_readExponentDigits h).trans hrest
    · obtain rfl := Option.some.inj h
      exact List.suffix_refl _

theorem suffix_of_readNumber {p : Number × Text} (h : readNumber t = some p) : p.2 <:+ t := by
  unfold readNumber at h
  simp only [Option.bind_eq_bind, Option.bind_eq_some_iff] at h
  obtain ⟨integer, hinteger, fraction, hfraction, exponent, hexponent, hp⟩ := h
  obtain rfl := Option.some.inj hp
  exact (suffix_of_readExponent hexponent).trans ((suffix_of_readFraction hfraction).trans
    ((suffix_of_readInteger hinteger).trans (readSign_suffix t)))

theorem mem_assign {α : Type} {members : List (Text × α)} {p : Text × α} (h : p ∈ assign members) :
    ∃ q ∈ members, q.2 = p.2 := by
  induction members generalizing p with
  | nil => cases h
  | cons first rest ih =>
    obtain ⟨key, v⟩ := first
    unfold assign at h
    cases hlookup : (assign rest).lookup key with
    | none =>
      simp only [hlookup] at h
      rcases List.mem_cons.1 h with rfl | h
      · exact ⟨_, List.mem_cons_self, rfl⟩
      · obtain ⟨q, hq, heq⟩ := ih h
        exact ⟨q, List.mem_cons_of_mem _ hq, heq⟩
    | some w =>
      simp only [hlookup] at h
      rcases List.mem_cons.1 h with rfl | h
      · obtain ⟨q, hq, heq⟩ := ih (Members.mem_of_lookup hlookup)
        exact ⟨q, List.mem_cons_of_mem _ hq, heq⟩
      · obtain ⟨q, hq, heq⟩ := ih (List.mem_of_mem_eraseP h)
        exact ⟨q, List.mem_cons_of_mem _ hq, heq⟩

/-- A value has a string. -/
def HasValue (s : Text) (v : Value) : Prop :=
  v.Has s

/-- Some element of an array has a string. -/
def HasElem (s : Text) (elems : List Value) : Prop :=
  ∃ v ∈ elems, v.Has s

/-- The value of some member has a string. -/
def HasMember (s : Text) (members : List (Text × Value)) : Prop :=
  ∃ p ∈ members, p.2.Has s

/-- What the readers read, whatever their fuel. -/
structure Reading (fuel : ℕ) : Prop where
  value : ∀ t p, readValue fuel t = some p → Bounded HasValue t p
  elems : ∀ t p, readElems fuel t = some p → Bounded HasElem t p
  members : ∀ t p, readMembers fuel t = some p → Bounded HasMember t p

theorem bounded_readValue {fuel : ℕ} (ih : Reading fuel) (t : Text) (p : Value × Text)
    (h : readValue (fuel + 1) t = some p) : Bounded HasValue t p := by
  cases t with
  | nil => simp [readValue] at h
  | cons u rest =>
    have hrest : skipBlank rest <:+ u :: rest :=
      (skipBlank_suffix rest).trans (List.suffix_cons u rest)
    have hword : ∀ {word : Text} {v : Value}, (∀ s, ¬ v.Has s) →
        readWord word v (u :: rest) = some p → Bounded HasValue (u :: rest) p := by
      intro word v hv hread
      obtain ⟨hvalue, hsuffix⟩ := suffix_of_readWord hread
      exact ⟨hsuffix, fun s hs ↦ absurd (hvalue ▸ hs) (hv s)⟩
    unfold readValue at h
    split_ifs at h
    · obtain rfl := Option.some.inj h
      refine ⟨(List.tail_suffix _).trans hrest, fun s hs ↦ ?_⟩
      cases hs with
      | member hmem _ => cases hmem
    · obtain ⟨q, hq, rfl⟩ := Option.map_eq_some_iff.1 h
      refine ((ih.members _ _ hq).of_suffix hrest).map (f := fun members ↦ Value.obj (assign members))
        fun s members hs ↦ ?_
      cases hs with
      | member hmem hs =>
        obtain ⟨q, hq, heq⟩ := mem_assign hmem
        exact ⟨q, hq, heq ▸ hs⟩
    · obtain rfl := Option.some.inj h
      refine ⟨(List.tail_suffix _).trans hrest, fun s hs ↦ ?_⟩
      cases hs with
      | elem hmem _ => cases hmem
    · obtain ⟨q, hq, rfl⟩ := Option.map_eq_some_iff.1 h
      refine ((ih.elems _ _ hq).of_suffix hrest).map (f := Value.arr) fun s elems hs ↦ ?_
      cases hs with
      | elem hmem hs => exact ⟨_, hmem, hs⟩
    · obtain ⟨q, hq, rfl⟩ := Option.map_eq_some_iff.1 h
      refine ⟨(suffix_of_readBody hq).trans (List.suffix_cons u rest), fun s hs ↦ ?_⟩
      cases hs
      exact (byteLength_le_of_readBody hq).trans (byteLength_le_cons u rest)
    · exact hword (fun s hs ↦ by cases hs) h
    · exact hword (fun s hs ↦ by cases hs) h
    · exact hword (fun s hs ↦ by cases hs) h
    · obtain ⟨q, hq, rfl⟩ := Option.map_eq_some_iff.1 h
      exact ⟨suffix_of_readNumber hq, fun s hs ↦ by cases hs⟩

theorem bounded_readElems {fuel : ℕ} (ih : Reading fuel) (t : Text) (p : List Value × Text)
    (h : readElems (fuel + 1) t = some p) : Bounded HasElem t p := by
  unfold readElems at h
  cases hvalue : readValue fuel t with
  | none => simp [hvalue] at h
  | some q =>
    obtain ⟨v, t'⟩ := q
    obtain ⟨hsuffix, hstrings⟩ := ih.value _ _ hvalue
    simp only [hvalue] at h
    cases hskip : skipBlank t' with
    | nil => simp [hskip] at h
    | cons u rest =>
      have hrest : rest <:+ t :=
        ((List.suffix_cons u rest).trans (hskip ▸ skipBlank_suffix t')).trans hsuffix
      simp only [hskip] at h
      split_ifs at h
      · obtain ⟨q, hq, rfl⟩ := Option.map_eq_some_iff.1 h
        obtain ⟨hsuffix', hstrings'⟩ :=
          (ih.elems _ _ hq).of_suffix ((skipBlank_suffix rest).trans hrest)
        refine ⟨hsuffix', ?_⟩
        rintro s ⟨w, hw, hs⟩
        rcases List.mem_cons.1 hw with rfl | hw
        · exact hstrings s hs
        · exact hstrings' s ⟨w, hw, hs⟩
      · obtain rfl := Option.some.inj h
        refine ⟨hrest, ?_⟩
        rintro s ⟨w, hw, hs⟩
        obtain rfl := List.mem_singleton.1 hw
        exact hstrings s hs

theorem bounded_readMembers {fuel : ℕ} (ih : Reading fuel) (t : Text) (p : List (Text × Value) × Text)
    (h : readMembers (fuel + 1) t = some p) : Bounded HasMember t p := by
  unfold readMembers at h
  cases hkey : readKey t with
  | none => simp [hkey] at h
  | some k =>
    obtain ⟨key, t'⟩ := k
    have hafter : skipBlank t' <:+ t := (skipBlank_suffix t').trans (suffix_of_readKey hkey)
    simp only [hkey] at h
    cases hvalue : readValue fuel (skipBlank t') with
    | none => simp [hvalue] at h
    | some q =>
      obtain ⟨v, t''⟩ := q
      obtain ⟨hsuffix, hstrings⟩ := (ih.value _ _ hvalue).of_suffix hafter
      simp only [hvalue] at h
      cases hskip : skipBlank t'' with
      | nil => simp [hskip] at h
      | cons u rest =>
        have hrest : rest <:+ t :=
          ((List.suffix_cons u rest).trans (hskip ▸ skipBlank_suffix t'')).trans hsuffix
        simp only [hskip] at h
        split_ifs at h
        · obtain ⟨q, hq, rfl⟩ := Option.map_eq_some_iff.1 h
          obtain ⟨hsuffix', hstrings'⟩ :=
            (ih.members _ _ hq).of_suffix ((skipBlank_suffix rest).trans hrest)
          refine ⟨hsuffix', ?_⟩
          rintro s ⟨w, hw, hs⟩
          rcases List.mem_cons.1 hw with rfl | hw
          · exact hstrings s hs
          · exact hstrings' s ⟨w, hw, hs⟩
        · obtain rfl := Option.some.inj h
          refine ⟨hrest, ?_⟩
          rintro s ⟨w, hw, hs⟩
          obtain rfl := List.mem_singleton.1 hw
          exact hstrings s hs

/-- What is read, by induction on the fuel. -/
theorem bounded_read (fuel : ℕ) : Reading fuel := by
  induction fuel with
  | zero => exact ⟨fun t p h ↦ by simp [readValue] at h, fun t p h ↦ by simp [readElems] at h,
      fun t p h ↦ by simp [readMembers] at h⟩
  | succ fuel ih => exact ⟨bounded_readValue ih, bounded_readElems ih, bounded_readMembers ih⟩

/-- **No string of a value that is parsed** has more bytes than the text. -/
theorem byteLength_le_of_parse {v : Value} (h : parse t = some v) (hs : v.Has s) :
    byteLength s ≤ byteLength t := by
  unfold parse at h
  cases hvalue : readValue (2 * t.length + 2) (skipBlank t) with
  | none => simp [hvalue] at h
  | some p =>
    obtain ⟨w, rest⟩ := p
    simp only [hvalue] at h
    split_ifs at h
    obtain rfl := Option.some.inj h
    exact ((bounded_read _).value _ _ hvalue).of_suffix (skipBlank_suffix t) |>.2 s hs

end Ecma
