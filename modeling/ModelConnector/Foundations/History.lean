import ModelConnector.Foundations.Run

/-!
# History variables

What matters about the past of a run is often not in its state: who made a reservation, which of
two owners came last. A **history variable** is a value of a type `γ` that `upd` carries along a
run, from the state before a step, the event and the state after it. It is read off the history,
so it changes nothing about which runs there are.

`History.track` is the variable after a history, and `History.Meets` says that every step of the
history was taken in a state, and with the variable having a value, that meet a condition.
`History.invariant` is the invariant rule for properties of the variable and the state together.
-/

universe u v w

namespace History

variable {σ : Type u} {ε : Type v} {γ : Type w} (step : σ → ε → Option σ) (upd : γ → σ → ε → σ → γ)
  (c : γ → σ → ε → Prop)

/-- The variable after one step. -/
def advance (g : γ) (p : σ × ε) : γ :=
  match step p.1 p.2 with
  | some s' => upd g p.1 p.2 s'
  | none => g

/-- The variable after a history. -/
def track (g : γ) (h : List (σ × ε)) : γ :=
  h.foldl (advance step upd) g

/-- Every step of the history met the condition when it was taken. -/
def Meets : γ → List (σ × ε) → Prop
  | _, [] => True
  | g, p :: h => c g p.1 p.2 ∧ Meets (advance step upd g p) h

instance Meets.decidable [∀ g s e, Decidable (c g s e)] :
    ∀ g h, Decidable (Meets step upd c g h)
  | _, [] => inferInstanceAs (Decidable True)
  | g, p :: h =>
    have := Meets.decidable (advance step upd g p) h
    inferInstanceAs (Decidable (c g p.1 p.2 ∧ Meets step upd c (advance step upd g p) h))

variable {step upd c} {g₀ : γ} {s₀ s : σ} {h : List (σ × ε)}

theorem track_snoc {s' : σ} {e : ε} (hs : step s e = some s') :
    track step upd g₀ (h ++ [(s, e)]) = upd (track step upd g₀ h) s e s' := by
  rw [track, List.foldl_append, List.foldl_cons, List.foldl_nil, ← track, advance]
  simp only [hs]

theorem meets_snoc {p : σ × ε} : Meets step upd c g₀ (h ++ [p]) ↔
    Meets step upd c g₀ h ∧ c (track step upd g₀ h) p.1 p.2 := by
  induction h generalizing g₀ with
  | nil => simp [Meets, track]
  | cons q h ih =>
    rw [List.cons_append, Meets, ih, Meets, and_assoc]
    rfl

/-- **The invariant rule with a history variable.** -/
theorem invariant {P : γ → σ → Prop} (h0 : P g₀ s₀)
    (hstep : ∀ {g s e s'}, P g s → c g s e → step s e = some s' → P (upd g s e s') s')
    (hr : Run step s₀ h s) (hc : Meets step upd c g₀ h) : P (track step upd g₀ h) s := by
  induction hr with
  | nil => exact h0
  | @snoc h s s' e _ hs ih =>
    obtain ⟨hpast, hnow⟩ := meets_snoc.1 hc
    rw [track_snoc hs]
    exact hstep (ih hpast) hnow hs

/-- What such an invariant gives at every step of the history, the history gives as a condition
its steps met. -/
theorem meets_of_invariant {P : γ → σ → Prop} {d : γ → σ → ε → Prop} (h0 : P g₀ s₀)
    (hstep : ∀ {g s e s'}, P g s → c g s e → step s e = some s' → P (upd g s e s') s')
    (hd : ∀ {g s e}, P g s → c g s e → d g s e)
    (hr : Run step s₀ h s) (hc : Meets step upd c g₀ h) : Meets step upd d g₀ h := by
  induction hr with
  | nil => trivial
  | @snoc h s s' e hr hs ih =>
    obtain ⟨hpast, hnow⟩ := meets_snoc.1 hc
    exact meets_snoc.2 ⟨ih hpast, hd (invariant h0 hstep hr hpast) hnow⟩

end History
