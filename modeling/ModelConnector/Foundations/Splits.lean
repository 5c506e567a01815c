import Mathlib.Data.List.Infix
import Mathlib.Data.List.Basic

/-!
# Split and join

A list is split at the occurrences of a separator, each one the first that does not overlap the one
before, and the pieces are joined again with something in its place. When what is put there is in
brackets that the separator does not have, and the separator is no part of the word between them,
then it does not occur in the result: it would have to stand in a piece.
-/

namespace Splits

variable {α : Type} [DecidableEq α] {sep t word : List α} {a b : α} {skip : ℕ}

/-- The pieces of a list, from where a number of its members are passed over. -/
def splitFrom (sep : List α) : ℕ → List α → List (List α)
  | _, [] => [[]]
  | skip + 1, _ :: t => splitFrom sep skip t
  | 0, a :: t =>
    if sep <+: a :: t then [] :: splitFrom sep (sep.length - 1) t
    else (splitFrom sep 0 t).modifyHead (a :: ·)

/-- `split(/\r?\n/)`: the pieces between line feeds, with or without a carriage return before
them. -/
def splitLines (cr lf : α) : List α → List (List α)
  | [] => [[]]
  | a :: t =>
    if a = lf then [] :: splitLines cr lf t
    else if a = cr ∧ t.head? = some lf then splitLines cr lf t
    else
      match splitLines cr lf t with
      | [] => [[a]]
      | line :: lines => (a :: line) :: lines

/-- `split` at a separator that is not empty. -/
def split (sep t : List α) : List (List α) :=
  splitFrom sep 0 t

/-- `split` and `join`. -/
def replaceAll (sep mark t : List α) : List α :=
  mark.intercalate (split sep t)

/-! ### Pieces -/

theorem splitFrom_ne_nil : splitFrom sep skip t ≠ [] := by
  induction t generalizing skip with
  | nil => simp [splitFrom]
  | cons a t ih =>
    cases skip with
    | succ skip => exact ih
    | zero =>
      rw [splitFrom]
      split_ifs
      · exact List.cons_ne_nil _ _
      · obtain ⟨piece, pieces, h⟩ := List.exists_cons_of_ne_nil (@ih 0)
        simp [h]

theorem splitFrom_of_begins (h : sep <+: a :: t) :
    splitFrom sep 0 (a :: t) = [] :: splitFrom sep (sep.length - 1) t := by
  rw [splitFrom, if_pos h]

theorem splitFrom_of_not_begins (h : ¬ sep <+: a :: t) :
    splitFrom sep 0 (a :: t) = (splitFrom sep 0 t).modifyHead (a :: ·) := by
  rw [splitFrom, if_neg h]

/-- The first piece is where the list starts. -/
theorem head_prefix {piece : List α} {pieces : List (List α)}
    (h : splitFrom sep 0 t = piece :: pieces) : piece <+: t := by
  induction t generalizing piece pieces with
  | nil =>
    cases h
    exact List.prefix_rfl
  | cons a t ih =>
    by_cases hprefix : sep <+: a :: t
    · rw [splitFrom_of_begins hprefix] at h
      cases h
      exact List.nil_prefix
    · rw [splitFrom_of_not_begins hprefix] at h
      obtain ⟨piece', pieces', h'⟩ := List.exists_cons_of_ne_nil (splitFrom_ne_nil (t := t))
      rw [h', List.modifyHead_cons] at h
      cases h
      exact List.cons_prefix_cons.2 ⟨rfl, ih h'⟩

/-- A list without the separator is one piece. -/
theorem split_of_not_infix (h : ¬ sep <:+: t) : split sep t = [t] := by
  unfold split
  induction t with
  | nil => rfl
  | cons a t ih =>
    rw [List.infix_cons_iff, not_or] at h
    rw [splitFrom_of_not_begins h.1, ih h.2, List.modifyHead_cons]

theorem replaceAll_of_not_infix (mark : List α) (h : ¬ sep <:+: t) : replaceAll sep mark t = t := by
  rw [replaceAll, split_of_not_infix h, List.intercalate_singleton]

/-! ### Across a mark -/

omit [DecidableEq α] in
/-- What does not have a member stands on one side of it. -/
theorem infix_append_cons_iff (ha : a ∉ sep) {x y : List α} :
    sep <:+: x ++ a :: y ↔ sep <:+: x ∨ sep <:+: y := by
  constructor
  · rintro ⟨before, after, h⟩
    rw [List.append_assoc] at h
    rcases List.append_eq_append_iff.1 h with ⟨l, rfl, hl⟩ | ⟨l, rfl, hl⟩
    · -- the separator begins before the member
      rcases List.append_eq_append_iff.1 hl with ⟨l', rfl, -⟩ | ⟨l', hsep, hl'⟩
      · exact .inl (List.infix_append' before sep l')
      · cases l' with
        | nil => exact .inl ⟨before, [], by simp [hsep]⟩
        | cons c l' =>
          obtain ⟨rfl, -⟩ := List.cons.inj hl'
          exact absurd (hsep ▸ List.mem_append_right l List.mem_cons_self) ha
    · cases l with
      | nil =>
        cases sep with
        | nil => exact .inl List.nil_infix
        | cons c sep =>
          obtain ⟨rfl, -⟩ := List.cons.inj hl
          exact absurd List.mem_cons_self ha
      | cons c l =>
        obtain ⟨-, rfl⟩ := List.cons.inj hl
        exact .inr ⟨l, after, List.append_assoc l sep after⟩
  · rintro (h | h)
    · exact h.trans (List.infix_append_left)
    · exact h.trans ((List.suffix_cons a y).isInfix.trans List.infix_append_right)

omit [DecidableEq α] in
theorem prefix_of_prefix_append_cons (ha : a ∉ sep) {x y : List α} (h : sep <+: x ++ a :: y) :
    sep <+: x := by
  rcases List.prefix_or_prefix_of_prefix h (List.prefix_append x (a :: y)) with hsep | ⟨l, rfl⟩
  · exact hsep
  · cases l with
    | nil => rw [List.append_nil]
    | cons c l =>
      obtain ⟨rfl, -⟩ := List.cons_prefix_cons.1 ((List.prefix_append_right_inj x).1 h)
      exact absurd (List.mem_append_right x List.mem_cons_self) ha

/-- **A replaced separator is gone**, when the mark in its place is a word between brackets. -/
theorem not_infix_replaceAll (hsep : sep ≠ []) (ha : a ∉ sep) (hb : b ∉ sep)
    (hword : ¬ sep <:+: word) : ¬ sep <:+: replaceAll sep (a :: word ++ [b]) t := by
  have hall : ∀ skip, ¬ sep <:+: (a :: word ++ [b]).intercalate (splitFrom sep skip t) := by
    induction t with
    | nil =>
      intro skip h
      rw [splitFrom, List.intercalate_singleton, List.infix_nil] at h
      exact hsep h
    | cons c t ih =>
      intro skip
      cases skip with
      | succ skip => exact ih skip
      | zero =>
        by_cases hprefix : sep <+: c :: t
        · rw [splitFrom_of_begins hprefix, List.intercalate_cons_of_ne_nil splitFrom_ne_nil,
            List.nil_append, List.append_assoc, List.cons_append, List.singleton_append,
            ← List.nil_append (a :: _), infix_append_cons_iff ha, infix_append_cons_iff hb]
          rintro (h | h | h)
          · exact hsep (List.infix_nil.1 h)
          · exact hword h
          · exact ih _ h
        · obtain ⟨piece, pieces, h⟩ := List.exists_cons_of_ne_nil (splitFrom_ne_nil (t := t))
          have hrest := ih 0
          rw [h] at hrest
          rw [splitFrom_of_not_begins hprefix, h, List.modifyHead_cons,
            List.intercalate_cons_cons_left, List.infix_cons_iff, not_or]
          refine ⟨fun hstart ↦ hprefix ?_, hrest⟩
          -- an occurrence at the start ends before the first mark
          have hhead : sep <+: c :: piece := by
            cases pieces with
            | nil => rwa [List.intercalate_singleton] at hstart
            | cons piece' pieces =>
              rw [List.intercalate_cons_cons, List.append_assoc, List.cons_append,
                List.cons_append] at hstart
              exact prefix_of_prefix_append_cons (x := c :: piece) ha hstart
          exact hhead.trans (List.cons_prefix_cons.2 ⟨rfl, head_prefix h⟩)
  exact hall 0

end Splits
