import Mathlib.Data.List.DropRight

/-!
# Logs

Ways of keeping track of what happened. A ring holds the last entries of a log and forgets the
others. A log of handovers, in which every entry says what it takes over and what it leaves, tells
at each of its places what is in force. A log is traced when each entry is as those before it say.
-/

universe u v

namespace Logs

variable {α : Type u} {β : Type v}

/-! ### Rings -/

/-- Add an entry to a ring, and drop the oldest one when there are more than `n`. -/
def pushRing (n : ℕ) (ring : List α) (a : α) : List α :=
  if n < (ring ++ [a]).length then (ring ++ [a]).tail else ring ++ [a]

/-- The ring of a log is that of the log with one more entry. -/
theorem pushRing_rtake (n : ℕ) (log : List α) (a : α) :
    pushRing n (log.rtake n) a = (log ++ [a]).rtake n := by
  unfold pushRing List.rtake
  rw [List.length_append, List.length_append, List.length_singleton, List.length_drop]
  rcases Nat.lt_or_ge log.length n with hlt | hge
  · have hfits : ¬n < log.length - (log.length - n) + 1 := by omega
    rw [if_neg hfits, Nat.sub_eq_zero_of_le hlt.le, Nat.sub_eq_zero_of_le hlt, List.drop_zero,
      List.drop_zero]
  · have hover : n < log.length - (log.length - n) + 1 := by omega
    have hdrop : (log ++ [a]).drop (log.length - n) = log.drop (log.length - n) ++ [a] :=
      List.drop_append_of_le_length (Nat.sub_le _ _)
    rw [if_pos hover, ← hdrop, List.tail_drop]
    congr 1
    omega

/-- What a ring shows of a log, it shows of its own entries. -/
theorem rtake_rtake {m n : ℕ} (h : m ≤ n) (log : List α) : (log.rtake n).rtake m = log.rtake m := by
  unfold List.rtake
  rw [List.length_drop, List.drop_drop]
  congr 1
  omega

/-! ### Traces -/

/-- Every entry of a log is as those before it say. -/
def Traced (P : List α → α → Prop) (log : List α) : Prop :=
  ∀ before a after, log = before ++ a :: after → P before a

theorem Traced.nil {P : List α → α → Prop} : Traced P [] := by
  intro before a after h
  cases before <;> cases h

theorem Traced.snoc {P : List α → α → Prop} {log : List α} (h : Traced P log) {a : α}
    (ha : P log a) : Traced P (log ++ [a]) := by
  intro before b after heq
  rcases List.eq_nil_or_concat after with rfl | ⟨after', last, rfl⟩
  · obtain ⟨rfl, hb⟩ := List.append_inj' heq rfl
    cases hb
    exact ha
  · rw [List.concat_eq_append, ← List.cons_append, ← List.append_assoc] at heq
    exact h before b after' (List.append_inj' heq rfl).1

/-! ### Handovers -/

/-- Every entry of a log takes over what the one before it leaves, from `first` to `last`. -/
def Handed (source target : α → β) : β → List α → β → Prop
  | first, [], last => first = last
  | first, a :: log, last => source a = first ∧ Handed source target (target a) log last

/-- What is in force after a log. -/
def inForce (target : α → β) (first : β) (log : List α) : β :=
  (log.getLast?.map target).getD first

variable {source target : α → β} {first last : β} {log : List α}

theorem inForce_append (before : List α) : inForce target first (before ++ log) =
    inForce target (inForce target first before) log := by
  unfold inForce
  rw [List.getLast?_append]
  cases log.getLast? <;> rfl

theorem Handed.snoc (h : Handed source target first log last) {a : α} (ha : source a = last) :
    Handed source target first (log ++ [a]) (target a) := by
  induction log generalizing first with
  | nil => exact ⟨ha.trans (Eq.symm h), rfl⟩
  | cons b log ih => exact ⟨h.1, ih h.2⟩

/-- A log of handovers ends with what is in force after it. -/
theorem Handed.inForce_eq (h : Handed source target first log last) :
    inForce target first log = last := by
  induction log generalizing first with
  | nil => exact h
  | cons a log ih =>
    rw [← List.singleton_append, inForce_append]
    exact ih h.2

end Logs
