import Mathlib.Data.List.Infix
import Mathlib.Data.List.TakeWhile

/-!
# Replacing tokens after a word

A pattern is a word, then some space, then a token. `replace` puts a mark in the place of every
match from left to right, as a global replacement does; space and tokens have no letter in common,
so there is one way to match at a place. The mark begins with the word as well, but what it has in
place of the token is neither space nor token, and so no match is left (`not_matches_replace`). -/

/-- A word, the letters of space and of tokens, and what stands after the word in the mark. The
first letter of the word is found neither in the rest of it nor in the rest of the mark. -/
structure TokenPattern (α : Type*) where
  head : α
  tail : List α
  space : α → Bool
  token : α → Bool
  blank : α
  closing : List α
  disjoint : ∀ x, token x = true → space x = false
  space_head : space head = false
  head_not_mem : head ∉ tail ++ blank :: closing
  closing_ne : ∀ x ∈ closing.head?, space x = false ∧ token x = false
  closing_ne_nil : closing ≠ []

namespace TokenPattern

variable {α : Type*} (P : TokenPattern α)

def word : List α :=
  P.head :: P.tail

def mark : List α :=
  P.word ++ P.blank :: P.closing

/-- A text begins with a match. -/
def Matches (t : List α) : Prop :=
  ∃ spaces k rest, t = P.word ++ spaces ++ k :: rest ∧ spaces ≠ [] ∧
    (∀ x ∈ spaces, P.space x = true) ∧ P.token k = true

/-- A match somewhere in a text. -/
def Contains (t : List α) : Prop :=
  ∃ s, s <:+ t ∧ P.Matches s

/-! ### Matches and the mark -/

variable {P} {t : List α}

/-- The end of two texts is an end of the second, or it has something of the first. -/
theorem suffix_append_cases {s a b : List α} (h : s <:+ a ++ b) :
    s <:+ b ∨ ∃ s', s' <:+ a ∧ s' ≠ [] ∧ s = s' ++ b := by
  obtain ⟨r, hr⟩ := h
  rcases List.append_eq_append_iff.1 hr with ⟨s', rfl, rfl⟩ | ⟨r', rfl, rfl⟩
  · cases s' with
    | nil => exact .inl (List.suffix_refl _)
    | cons x s' => exact .inr ⟨x :: s', List.suffix_append _ _, List.cons_ne_nil _ _, rfl⟩
  · exact .inl (List.suffix_append _ _)

/-- The mark is not the beginning of a match. -/
theorem not_matches_of_suffix_mark {s rest : List α} (hs : s <:+ P.mark) (hne : s ≠ []) :
    ¬ P.Matches (s ++ rest) := by
  rintro ⟨spaces, k, rest', heq, hspaces, hall, hk⟩
  have hmark : P.mark = P.head :: (P.tail ++ P.blank :: P.closing) := rfl
  rw [hmark] at hs
  rcases List.suffix_cons_iff.1 hs with rfl | hs
  · -- the word of the mark: a blank, and then neither space nor token
    cases hclosing : P.closing with
    | nil => exact P.closing_ne_nil hclosing
    | cons x closing =>
      obtain ⟨hspace, htoken⟩ := P.closing_ne x (by rw [hclosing]; rfl)
      unfold word at heq
      simp only [List.cons_append, List.append_assoc] at heq
      have hrest := List.append_cancel_left (List.cons.inj heq).2
      cases spaces with
      | nil => exact hspaces rfl
      | cons y spaces =>
        rw [hclosing] at hrest
        have hnext := (List.cons.inj hrest).2
        cases spaces with
        | nil =>
          obtain ⟨rfl, -⟩ := List.cons.inj hnext
          exact absurd hk (by simp [htoken])
        | cons z spaces =>
          obtain ⟨rfl, -⟩ := List.cons.inj hnext
          exact absurd (hall x (by simp)) (by simp [hspace])
  · -- later on there is no first letter of the word
    cases s with
    | nil => exact hne rfl
    | cons y s =>
      unfold word at heq
      obtain ⟨rfl, -⟩ := List.cons.inj heq
      exact P.head_not_mem (hs.subset List.mem_cons_self)

/-- What stands in the mark after the word has no match. -/
theorem not_contains_closing (P : TokenPattern α) : ¬ P.Contains P.closing := by
  rintro ⟨s, hs, hmatches⟩
  have hmark : P.closing <:+ P.mark := ⟨P.word ++ [P.blank], by simp [mark]⟩
  refine not_matches_of_suffix_mark (hs.trans hmark) ?_ (by rwa [List.append_nil])
  rintro rfl
  obtain ⟨spaces, k, rest, heq, -⟩ := hmatches
  cases heq

/-- A match before the first letter of the word comes again does not see what follows. -/
theorem matches_of_agrees {u : α} {a b c : List α} (h : P.Matches (u :: (a ++ P.head :: c))) :
    P.Matches (u :: (a ++ P.head :: b)) := by
  obtain ⟨spaces, k, rest, heq, hspaces, hall, hk⟩ := h
  have hhead : P.head ∉ P.tail ++ spaces := by
    intro hmem
    rcases List.mem_append.1 hmem with hmem | hmem
    · exact P.head_not_mem (List.mem_append_left _ hmem)
    · exact absurd (hall _ hmem) (by simp [P.space_head])
  unfold word at heq
  rw [List.cons_append, List.cons_append] at heq
  obtain ⟨rfl, hrest⟩ := List.cons.inj heq
  refine ⟨spaces, k, ?_⟩
  rcases List.append_eq_append_iff.1 hrest with ⟨a', heq', hk'⟩ | ⟨a', heq', hk'⟩
  · -- the word would have its first letter again
    cases a' with
    | nil =>
      rw [List.append_nil] at heq'
      obtain ⟨rfl, -⟩ := List.cons.inj hk'
      refine ⟨b, ?_, hspaces, hall, hk⟩
      unfold word
      rw [← heq']
      rfl
    | cons y a' =>
      obtain ⟨rfl, -⟩ := List.cons.inj hk'
      exact absurd (heq' ▸ List.mem_append_right a List.mem_cons_self) hhead
  · cases a' with
    | nil =>
      obtain ⟨rfl, -⟩ := List.cons.inj hk'
      refine ⟨b, ?_, hspaces, hall, hk⟩
      rw [heq', List.append_nil]
      rfl
    | cons y a' =>
      obtain ⟨rfl, -⟩ := List.cons.inj hk'
      refine ⟨a' ++ P.head :: b, ?_, hspaces, hall, hk⟩
      rw [heq']
      unfold word
      simp only [List.append_assoc, List.cons_append]

/-! ### Replacing -/

variable [DecidableEq α]

/-- How long the match is that a text begins with. -/
def length? (P : TokenPattern α) (t : List α) : Option ℕ :=
  let rest := t.drop P.word.length
  let spaces := rest.takeWhile P.space
  let token := (rest.dropWhile P.space).takeWhile P.token
  if P.word <+: t ∧ spaces ≠ [] ∧ token ≠ [] then
    some (P.word.length + spaces.length + token.length)
  else none

/-- A text from some place on. -/
def replaceFrom (P : TokenPattern α) : ℕ → List α → List α
  | _, [] => []
  | skip + 1, _ :: rest => replaceFrom P skip rest
  | 0, u :: rest =>
    match P.length? (u :: rest) with
    | some n => P.mark ++ replaceFrom P (n - 1) rest
    | none => u :: replaceFrom P 0 rest

/-- Every match is replaced. -/
def replace (P : TokenPattern α) (t : List α) : List α :=
  P.replaceFrom 0 t

theorem isSome_length?_iff : (P.length? t).isSome = true ↔ P.Matches t := by
  unfold length?
  dsimp only
  rw [Option.isSome_ite]
  constructor
  · rintro ⟨⟨rest, rfl⟩, hspaces, htoken⟩
    rw [List.drop_left] at hspaces htoken
    cases hdrop : rest.dropWhile P.space with
    | nil =>
      rw [hdrop] at htoken
      exact absurd rfl htoken
    | cons k rest' =>
      refine ⟨rest.takeWhile P.space, k, rest', ?_, hspaces, fun x hx ↦ List.mem_takeWhile_imp hx,
        ?_⟩
      · rw [List.append_assoc, ← hdrop, List.takeWhile_append_dropWhile]
      · by_contra hk
        rw [hdrop, List.takeWhile_cons_of_neg hk] at htoken
        exact htoken rfl
  · rintro ⟨spaces, k, rest, rfl, hspaces, hall, hk⟩
    have hneg : ¬ P.space k = true := by simp [P.disjoint k hk]
    rw [List.append_assoc, List.drop_left, List.takeWhile_append_of_pos hall,
      List.takeWhile_cons_of_neg hneg, List.append_nil, List.dropWhile_append_of_pos hall,
      List.dropWhile_cons_of_neg hneg, List.takeWhile_cons_of_pos hk]
    exact ⟨List.prefix_append _ _, hspaces, List.cons_ne_nil _ _⟩

instance : Decidable (P.Matches t) :=
  decidable_of_iff _ isSome_length?_iff

instance : Decidable (P.Contains t) :=
  decidable_of_iff (∃ s ∈ t.tails, P.Matches s) (by simp only [List.mem_tails, Contains])

theorem matches_of_length?_eq_some {n : ℕ} (h : P.length? t = some n) : P.Matches t :=
  isSome_length?_iff.1 (h ▸ rfl)

theorem not_matches_of_length?_eq_none (h : P.length? t = none) : ¬ P.Matches t := by
  rw [← isSome_length?_iff, h]
  exact Bool.false_ne_true

/-- What a text is replaced by is the text up to the first match, where both have the first letter
of the word. -/
theorem replace_agrees (t : List α) : P.replace t = t ∨
    ∃ a b c, t = a ++ P.head :: b ∧ P.replace t = a ++ P.head :: c := by
  induction t with
  | nil => exact .inl rfl
  | cons u rest ih =>
    unfold replace replaceFrom
    split
    · rename_i n hsome
      obtain ⟨spaces, k, rest', heq, -⟩ := matches_of_length?_eq_some hsome
      exact .inr ⟨[], _, _, heq, rfl⟩
    · rcases ih with heq | ⟨a, b, c, heq, hreplace⟩
      · exact .inl (congrArg _ heq)
      · exact .inr ⟨u :: a, b, c, congrArg _ heq, congrArg _ hreplace⟩

/-- **No match is left.** -/
theorem not_contains_replace (t : List α) : ¬ P.Contains (P.replace t) := by
  have hall : ∀ skip, ¬ P.Contains (P.replaceFrom skip t) := by
    induction t with
    | nil =>
      rintro (_ | skip) ⟨s, hs, spaces, k, rest, rfl, -⟩
      · cases List.suffix_nil.1 hs
      · cases List.suffix_nil.1 hs
    | cons u rest ih =>
      intro skip
      cases skip with
      | succ skip => exact ih skip
      | zero =>
        unfold replaceFrom
        split
        · rename_i n _
          rintro ⟨s, hs, hmatches⟩
          rcases suffix_append_cases hs with hs | ⟨s', hs', hne, rfl⟩
          · exact ih (n - 1) ⟨s, hs, hmatches⟩
          · exact not_matches_of_suffix_mark hs' hne hmatches
        · rename_i hnone
          rintro ⟨s, hs, hmatches⟩
          rcases List.suffix_cons_iff.1 hs with rfl | hs
          · refine not_matches_of_length?_eq_none hnone ?_
            rcases P.replace_agrees rest with heq | ⟨a, b, c, heq, hreplace⟩
            · rwa [show P.replaceFrom 0 rest = rest from heq] at hmatches
            · rw [show P.replaceFrom 0 rest = _ from hreplace] at hmatches
              rw [heq]
              exact matches_of_agrees hmatches
          · exact ih 0 ⟨s, hs, hmatches⟩
  exact hall 0

end TokenPattern
