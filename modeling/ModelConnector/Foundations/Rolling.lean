import Mathlib.Algebra.Order.Group.Defs
import Mathlib.Data.List.Chain
import Mathlib.Data.List.Forall2

/-!
# Rolling windows

Two properties of a list of times, in the order in which something happened: at most `limit` of
them lie in any half-open window of a given span, and each is at least a gap after the one before.

A limiter that looks back from the present keeps both, and it need not know the times themselves.
It is enough that it keeps a *record* for each, made no earlier than the time it stands for, and
that the next one follows the decision: `Bounded.snoc` and `Spaced.snoc`. Nothing is asked of the
clock between two decisions.
-/

namespace Rolling

variable {α : Type*} [AddCommGroup α] [LinearOrder α] {span gap now next : α} {limit : ℕ}
  {times records : List α}

/-- At most `limit` of the times lie in a window `[start, start + span)`. -/
def Bounded (span : α) (limit : ℕ) (times : List α) : Prop :=
  ∀ start, times.countP (fun t ↦ decide (start ≤ t ∧ t < start + span)) ≤ limit

/-- Each time is at least `gap` after the one before. -/
def Spaced (gap : α) (times : List α) : Prop :=
  times.IsChain fun a b ↦ a + gap ≤ b

/-- Each time has its record, which is no earlier. -/
def Recorded (times records : List α) : Prop :=
  List.Forall₂ (· ≤ ·) times records

theorem bounded_nil : Bounded span limit ([] : List α) :=
  fun _ ↦ Nat.zero_le _

theorem spaced_nil : Spaced gap ([] : List α) :=
  List.isChain_nil

omit [AddCommGroup α] in
/-- The last time has the last record. -/
theorem Recorded.exists_getLast? (h : Recorded times records) {t : α} (ht : t ∈ times.getLast?) :
    ∃ r ∈ records.getLast?, t ≤ r := by
  have hreverse : List.Forall₂ (· ≤ ·) times.reverse records.reverse := List.rel_reverse h
  rw [List.getLast?_eq_head?_reverse] at ht ⊢
  generalize times.reverse = front at ht hreverse
  generalize records.reverse = front' at hreverse ⊢
  cases hreverse with
  | nil => cases ht
  | @cons t' r _ _ hle _ =>
    obtain rfl : t' = t := Option.some.inj ht
    exact ⟨r, rfl, hle⟩

variable [IsOrderedAddMonoid α]

/-- The records that are still young count at least the times of a window that is not over. -/
theorem Recorded.countP_le {start : α} (h : Recorded times records) (hnow : now < start + span) :
    times.countP (fun t ↦ decide (start ≤ t ∧ t < start + span)) ≤
      records.countP fun r ↦ decide (now - r < span) := by
  induction h with
  | nil => exact le_rfl
  | @cons t r times records hle _ ih =>
    have hyoung : start ≤ t → now - r < span := fun hstart ↦
      sub_lt_iff_lt_add'.2 (hnow.trans_le (add_le_add_left (hstart.trans hle) span))
    simp only [List.countP_cons, decide_eq_true_eq]
    split_ifs with hwindow hrecord
    · exact Nat.succ_le_succ ih
    · exact absurd (hyoung hwindow.1) hrecord
    · exact ih.trans (Nat.le_succ _)
    · exact ih

/-- **A limit on the young records is a limit on every window.** -/
theorem Bounded.snoc (h : Bounded span limit times) (hrecorded : Recorded times records)
    (hlt : records.countP (fun r ↦ decide (now - r < span)) < limit) (hnow : now ≤ next) :
    Bounded span limit (times ++ [next]) := by
  intro start
  rw [List.countP_append, List.countP_singleton]
  split_ifs with hwindow
  · -- The new time is in the window, so at the decision the window was not over.
    have hwindow' : now < start + span := hnow.trans_lt (of_decide_eq_true hwindow).2
    exact Nat.succ_le_of_lt ((hrecorded.countP_le hwindow').trans_lt hlt)
  · exact h start

/-- **A gap after the last record is a gap after the last time.** -/
theorem Spaced.snoc (h : Spaced gap times) (hrecorded : Recorded times records)
    (hgap : ∀ r ∈ records.getLast?, gap ≤ now - r) (hnow : now ≤ next) :
    Spaced gap (times ++ [next]) := by
  refine List.isChain_append.2 ⟨h, List.isChain_singleton _, fun t ht b hb ↦ ?_⟩
  obtain rfl : next = b := Option.some.inj hb
  obtain ⟨r, hr, hle⟩ := hrecorded.exists_getLast? ht
  calc t + gap ≤ r + (now - r) := add_le_add hle (hgap r hr)
    _ = now := add_sub_cancel r now
    _ ≤ next := hnow

end Rolling
