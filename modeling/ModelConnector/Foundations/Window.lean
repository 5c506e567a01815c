import Mathlib.Data.List.Basic
import Mathlib.Tactic.Linarith

/-!
# Aligned windows

Time is counted in steps and cut into windows of `w` steps, the `k`-th of which begins at `k * w`.
What is left of a window leads into the next one, and a span that is no longer than a window meets
two of them at most. So a bound on what happens in every aligned window is, doubled, a bound on
what happens in any span of one window's length.
-/

namespace Window

/-- The rest of the window leads into the next one. -/
theorem add_rest_div {w : ℕ} (hw : 0 < w) (t : ℕ) : (t + (w - t % w)) / w = t / w + 1 := by
  have hrest : t + (w - t % w) = w * (t / w + 1) := by
    have hsplit := Nat.div_add_mod t w
    have hlt := Nat.mod_lt t hw
    rw [Nat.mul_succ]
    omega
  rw [hrest, Nat.mul_div_cancel_left _ hw]

/-- The window a time lies in begins no later and ends later. -/
theorem mul_div_le_lt {w : ℕ} (hw : 0 < w) (t : ℕ) : w * (t / w) ≤ t ∧ t < w * (t / w + 1) := by
  have hsplit := Nat.div_add_mod t w
  have hlt := Nat.mod_lt t hw
  rw [Nat.mul_succ]
  omega

/-- A closed span of one window's length meets two windows. -/
theorem div_eq_of_span {w : ℕ} (hw : 0 < w) {start t : ℕ} (hle : start ≤ t)
    (hlt : t ≤ start + w) : t / w = start / w ∨ t / w = start / w + 1 := by
  have hlow : start / w ≤ t / w := Nat.div_le_div_right hle
  have hhigh : t / w ≤ start / w + 1 := by
    rw [← Nat.add_div_right start hw]
    exact Nat.div_le_div_right hlt
  omega

section Counting

variable {α : Type*} {l : List α}

/-- A count splits along two predicates that cover it. -/
theorem countP_le_add {p q r : α → Bool} (hcover : ∀ a ∈ l, p a = true → q a = true ∨ r a = true) :
    l.countP p ≤ l.countP q + l.countP r := by
  induction l with
  | nil => exact le_rfl
  | cons a l ih =>
    have hrest := ih fun b hb ↦ hcover b (List.mem_cons_of_mem _ hb)
    have hhead := hcover a List.mem_cons_self
    simp only [List.countP_cons]
    split
    · rename_i hp
      rcases hhead hp with hq | hr
      · rw [if_pos hq]
        omega
      · rw [if_pos hr]
        omega
    · omega

/-- **From aligned windows to any span.** What happens at most `limit` times in every aligned
window happens at most twice as often in any closed span of one window's length. -/
theorem countP_span_le (time : α → ℕ) (p : α → Bool) {w limit : ℕ} (hw : 0 < w)
    (hwindow : ∀ k, (l.countP fun a ↦ p a && decide (time a / w = k)) ≤ limit) (start : ℕ) :
    (l.countP fun a ↦ p a && decide (start ≤ time a ∧ time a ≤ start + w)) ≤ 2 * limit := by
  have hcover := countP_le_add (l := l)
    (p := fun a ↦ p a && decide (start ≤ time a ∧ time a ≤ start + w))
    (q := fun a ↦ p a && decide (time a / w = start / w))
    (r := fun a ↦ p a && decide (time a / w = start / w + 1)) fun a _ ha ↦ by
      obtain ⟨hp, hspan⟩ := Bool.and_eq_true_iff.1 ha
      obtain ⟨hle, hlt⟩ := of_decide_eq_true hspan
      rcases div_eq_of_span hw hle hlt with heq | heq
      · exact .inl (Bool.and_eq_true_iff.2 ⟨hp, decide_eq_true heq⟩)
      · exact .inr (Bool.and_eq_true_iff.2 ⟨hp, decide_eq_true heq⟩)
  have hfirst := hwindow (start / w)
  have hsecond := hwindow (start / w + 1)
  omega

end Counting

end Window
