import Mathlib.Order.Notation

/-!
# Computations that record as they go

A computation returns or throws, and has recorded something by then. What is recorded before a step
throws stays recorded. `Ends P Q` says what is thrown with which record and what is returned with
which; after a step that records nothing when it returns, it can be decided step by step
(`ends_bind_iff`).
-/

/-- What a computation comes to, and what it has recorded by then. -/
structure Recorded (ε ω α : Type) where
  result : Except ε α
  log : List ω := []

namespace Recorded

variable {ε ω α β : Type} {P : ε → List ω → Prop} {Q : α → List ω → Prop} {R : β → List ω → Prop}
  {c : Recorded ε ω α} {f : α → Recorded ε ω β} {v : α} {e : ε}

instance : Monad (Recorded ε ω) where
  pure v := { result := .ok v }
  bind c f :=
    match c.result with
    | .error e => { result := .error e, log := c.log }
    | .ok v => { result := (f v).result, log := c.log ++ (f v).log }

/-- Record something. -/
def record (entry : ω) : Recorded ε ω Unit where
  result := .ok ()
  log := [entry]

/-- Throw something. -/
def raise (e : ε) : Recorded ε ω α where
  result := .error e

/-- `try`, with the `catch` block. -/
def handle (c : Recorded ε ω α) (block : ε → Recorded ε ω α) : Recorded ε ω α :=
  match c.result with
  | .ok _ => c
  | .error e => { result := (block e).result, log := c.log ++ (block e).log }

theorem pure_def (v : α) : (pure v : Recorded ε ω α) = { result := .ok v } :=
  rfl

theorem bind_of_ok (h : c.result = .ok v) :
    c >>= f = { result := (f v).result, log := c.log ++ (f v).log } := by
  change (match c.result with | .error e => _ | .ok v => _ : Recorded ε ω β) = _
  rw [h]

theorem bind_of_error (h : c.result = .error e) :
    c >>= f = { result := .error e, log := c.log } := by
  change (match c.result with | .error e => _ | .ok v => _ : Recorded ε ω β) = _
  rw [h]

/-- Nothing is recorded by the time it returns. -/
def Silent (c : Recorded ε ω α) : Prop :=
  ∀ v, c.result = .ok v → c.log = []

/-- What it throws is in relation with what it has recorded. -/
def Fails (P : ε → List ω → Prop) (c : Recorded ε ω α) : Prop :=
  ∀ e, c.result = .error e → P e c.log

/-- So is what it throws, and what it returns. -/
structure Ends (P : ε → List ω → Prop) (Q : α → List ω → Prop) (c : Recorded ε ω α) : Prop where
  fails : c.Fails P
  returns : ∀ v, c.result = .ok v → Q v c.log

theorem Silent.bind_of_ok (hc : c.Silent) (h : c.result = .ok v) : c >>= f = f v := by
  rw [Recorded.bind_of_ok h, hc v h, List.nil_append]

theorem Silent.bind (hc : c.Silent) (hf : ∀ v, c.result = .ok v → (f v).Silent) :
    (c >>= f).Silent := by
  intro w hw
  cases h : c.result with
  | error e =>
    rw [bind_of_error h] at hw
    cases hw
  | ok v =>
    rw [hc.bind_of_ok h] at hw ⊢
    exact hf v h w hw

/-- A return goes through every step. -/
theorem Silent.bind_eq_ok_iff (hc : c.Silent) {w : β} :
    (c >>= f).result = .ok w ↔ ∃ v, c.result = .ok v ∧ (f v).result = .ok w := by
  cases h : c.result with
  | error e =>
    rw [bind_of_error h]
    simp
  | ok v =>
    rw [hc.bind_of_ok h]
    simp

theorem ends_bind_iff (hc : c.Silent) :
    (c >>= f).Ends P R ↔ c.Fails P ∧ ∀ v, c.result = .ok v → (f v).Ends P R := by
  cases h : c.result with
  | error e =>
    rw [bind_of_error h]
    constructor
    · intro hends
      refine ⟨fun e' he' ↦ ?_, fun v hv ↦ (by cases hv)⟩
      obtain rfl := Except.error.inj (h.symm.trans he')
      exact hends.fails e rfl
    · rintro ⟨hfails, -⟩
      refine ⟨fun e' he' ↦ ?_, fun w hw ↦ (by cases hw)⟩
      obtain rfl := Except.error.inj he'
      exact hfails e h
  | ok v =>
    rw [hc.bind_of_ok h]
    constructor
    · intro hends
      refine ⟨fun e he ↦ ?_, fun w hw ↦ ?_⟩
      · rw [h] at he
        cases he
      · obtain rfl := Except.ok.inj hw
        exact hends
    · exact fun hends ↦ hends.2 v rfl

theorem fails_bind_iff (hc : c.Silent) :
    (c >>= f).Fails P ↔ c.Fails P ∧ ∀ v, c.result = .ok v → (f v).Fails P := by
  have key : ∀ c : Recorded ε ω β, c.Fails P ↔ c.Ends P fun _ _ ↦ True :=
    fun c ↦ ⟨fun h ↦ ⟨h, fun _ _ ↦ trivial⟩, Ends.fails⟩
  simp only [key, ends_bind_iff hc]

end Recorded
