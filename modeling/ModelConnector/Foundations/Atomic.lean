import Mathlib.Data.List.Basic

/-!
# Atomic transactions

A transaction over a store `σ` is a computation that either commits, with an answer and a new
store, or is refused with an error of type `ε`. Statements are sequenced with `do`; the first
one that is refused refuses the whole transaction, and `Atomic.run` then leaves the store as it
was. Nothing of a refused transaction is ever visible, which is what **atomic** means here.

The proof rules are inversions: `Atomic.bind_eq_ok_iff` takes a committed sequence of statements
apart, `Atomic.bind_eq_error_iff` a refused one, and `Atomic.Relates` is the frame rule, for a
relation between the store before and the store after that every statement respects. `Atomic.Total`
says that a transaction commits from every store, and goes through the statements the other way. -/

/-- A transaction over a store `σ`, answering an `α` or refused with an `ε`. -/
def Atomic (σ ε α : Type) : Type :=
  σ → Except ε (α × σ)

namespace Atomic

variable {σ ε α β : Type}

instance : Monad (Atomic σ ε) where
  pure a := fun s ↦ .ok (a, s)
  bind x f := fun s ↦
    match x s with
    | .ok (a, s') => f a s'
    | .error e => .error e

/-- Refuse the transaction. -/
def refuse (e : ε) : Atomic σ ε α :=
  fun _ ↦ .error e

/-- Read the store. -/
def read (f : σ → α) : Atomic σ ε α :=
  fun s ↦ .ok (f s, s)

/-- Write the store. -/
def modify (f : σ → σ) : Atomic σ ε Unit :=
  fun s ↦ .ok ((), f s)

/-- Refuse the transaction unless the condition holds. -/
def require (b : Bool) (e : ε) : Atomic σ ε Unit :=
  if b then pure () else refuse e

/-- Run a statement only when the condition holds. -/
def onlyIf (b : Bool) (x : Atomic σ ε Unit) : Atomic σ ε Unit :=
  if b then x else pure ()

/-- A computation that may fail and does not touch the store. -/
def ofExcept (x : Except ε α) : Atomic σ ε α :=
  fun s ↦ x.map fun a ↦ (a, s)

/-- Run a transaction: its answer or its refusal, and the store after it. A refused
transaction leaves the store as it was. -/
def run (x : Atomic σ ε α) (s : σ) : Except ε α × σ :=
  match x s with
  | .ok (a, s') => (.ok a, s')
  | .error e => (.error e, s)

/-! ### Evaluation -/

theorem bind_of_ok {x : Atomic σ ε α} {f : α → Atomic σ ε β} {a : α} {s s' : σ}
    (h : x s = .ok (a, s')) : (x >>= f) s = f a s' := by
  show (match x s with | .ok (a, s') => f a s' | .error e => .error e) = f a s'
  rw [h]

theorem bind_of_error {x : Atomic σ ε α} {f : α → Atomic σ ε β} {e : ε} {s : σ}
    (h : x s = .error e) : (x >>= f) s = .error e := by
  show (match x s with | .ok (a, s') => f a s' | .error e => .error e) = .error e
  rw [h]

theorem require_of_true {b : Bool} {e : ε} {s : σ} (h : b = true) :
    require b e s = .ok ((), s) := by
  rw [require, if_pos h]
  rfl

theorem require_of_false {b : Bool} {e : ε} {s : σ} (h : b = false) :
    require b e s = .error e := by
  rw [require, h]
  rfl

theorem ofExcept_of_ok {x : Except ε α} {a : α} {s : σ} (h : x = .ok a) :
    ofExcept x s = .ok (a, s) := by
  rw [h]
  rfl

/-- A conditional statement goes through when the statement does under its condition, and what
both cases leave true is true after it. -/
theorem onlyIf_of_forall {b : Bool} {x : Atomic σ ε Unit} {s : σ} {Q : σ → Prop} (hs : Q s)
    (h : b = true → ∃ s', x s = .ok ((), s') ∧ Q s') :
    ∃ s', onlyIf b x s = .ok ((), s') ∧ Q s' := by
  cases b with
  | false => exact ⟨s, rfl, hs⟩
  | true => exact h rfl

/-! ### Inversion -/

@[simp]
theorem pure_eq_ok_iff {a b : α} {s s' : σ} :
    (pure a : Atomic σ ε α) s = .ok (b, s') ↔ a = b ∧ s = s' := by
  show Except.ok (a, s) = .ok (b, s') ↔ _
  simp

@[simp]
theorem bind_eq_ok_iff {x : Atomic σ ε α} {f : α → Atomic σ ε β} {b : β} {s s'' : σ} :
    (x >>= f) s = .ok (b, s'') ↔ ∃ a s', x s = .ok (a, s') ∧ f a s' = .ok (b, s'') := by
  show (match x s with | .ok (a, s') => f a s' | .error e => .error e) = .ok (b, s'') ↔ _
  rcases x s with e | ⟨a, s'⟩ <;> simp

@[simp]
theorem refuse_eq_ok_iff {e : ε} {a : α} {s s' : σ} :
    (refuse e : Atomic σ ε α) s = .ok (a, s') ↔ False := by
  simp [refuse]

@[simp]
theorem read_eq_ok_iff {f : σ → α} {a : α} {s s' : σ} :
    (read f : Atomic σ ε α) s = .ok (a, s') ↔ f s = a ∧ s = s' := by
  simp [read]

@[simp]
theorem modify_eq_ok_iff {f : σ → σ} {u : Unit} {s s' : σ} :
    (modify f : Atomic σ ε Unit) s = .ok (u, s') ↔ f s = s' := by
  simp [modify]

@[simp]
theorem require_eq_ok_iff {b : Bool} {e : ε} {u : Unit} {s s' : σ} :
    (require b e : Atomic σ ε Unit) s = .ok (u, s') ↔ b = true ∧ s = s' := by
  cases b <;> simp [require]

@[simp]
theorem ofExcept_eq_ok_iff {x : Except ε α} {a : α} {s s' : σ} :
    (ofExcept x : Atomic σ ε α) s = .ok (a, s') ↔ x = .ok a ∧ s = s' := by
  rcases x with e | b <;> simp [ofExcept, Except.map]

theorem onlyIf_eq_ok_iff {b : Bool} {x : Atomic σ ε Unit} {u : Unit} {s s' : σ} :
    onlyIf b x s = .ok (u, s') ↔
      (b = true ∧ x s = .ok ((), s')) ∨ (b = false ∧ s = s') := by
  cases b <;> simp [onlyIf]

/-! ### Refusals -/

/-- A sequence is refused by its first statement, or by what follows a first one that is not. -/
theorem bind_eq_error_iff {x : Atomic σ ε α} {f : α → Atomic σ ε β} {e : ε} {s : σ} :
    (x >>= f) s = .error e ↔
      x s = .error e ∨ ∃ a s', x s = .ok (a, s') ∧ f a s' = .error e := by
  show (match x s with | .ok (a, s') => f a s' | .error e => .error e) = .error e ↔ _
  rcases x s with e' | ⟨a, s'⟩ <;> simp

theorem onlyIf_eq_error_iff {b : Bool} {x : Atomic σ ε Unit} {e : ε} {s : σ} :
    onlyIf b x s = .error e ↔ b = true ∧ x s = .error e := by
  cases b with
  | false => exact iff_of_false (fun h ↦ by cases h) fun h ↦ by cases h.1
  | true => exact (and_iff_right rfl).symm

theorem require_eq_error_iff {b : Bool} {e e' : ε} {s : σ} :
    require b e s = .error e' ↔ b = false ∧ e = e' := by
  cases b <;> simp [require, refuse, Pure.pure]

theorem ofExcept_eq_error_iff {x : Except ε α} {e : ε} {s : σ} :
    ofExcept x s = .error e ↔ x = .error e := by
  rcases x with e' | a <;> simp [ofExcept, Except.map]

/-! ### Running -/

/-- A run either commits or leaves the store alone. -/
theorem run_cases (x : Atomic σ ε α) (s : σ) :
    (∃ a s', x s = .ok (a, s') ∧ x.run s = (.ok a, s')) ∨
      (∃ e, x s = .error e ∧ x.run s = (.error e, s)) := by
  unfold run
  rcases x s with e | ⟨a, s'⟩
  · exact .inr ⟨e, rfl, rfl⟩
  · exact .inl ⟨a, s', rfl, rfl⟩

/-! ### The frame rule -/

/-- Committed, the transaction leads from a store to one related to it. -/
def Relates (R : σ → σ → Prop) (x : Atomic σ ε α) : Prop :=
  ∀ s a s', x s = .ok (a, s') → R s s'

section Relates

variable {R : σ → σ → Prop}

theorem Relates.pure (hR : ∀ s, R s s) (a : α) :
    Relates R (Pure.pure a : Atomic σ ε α) := by
  intro s b s' h
  obtain ⟨-, rfl⟩ := pure_eq_ok_iff.1 h
  exact hR s

theorem Relates.read (hR : ∀ s, R s s) (f : σ → α) :
    Relates R (Atomic.read f : Atomic σ ε α) := by
  intro s a s' h
  obtain ⟨-, rfl⟩ := read_eq_ok_iff.1 h
  exact hR s

theorem Relates.modify {f : σ → σ} (hf : ∀ s, R s (f s)) :
    Relates R (Atomic.modify f : Atomic σ ε Unit) := by
  intro s a s' h
  obtain rfl := modify_eq_ok_iff.1 h
  exact hf s

theorem Relates.bind (hR : ∀ {s t u}, R s t → R t u → R s u) {x : Atomic σ ε α}
    {f : α → Atomic σ ε β} (hx : Relates R x) (hf : ∀ a, Relates R (f a)) :
    Relates R (x >>= f) := by
  intro s b s'' h
  obtain ⟨a, s', hxs, hfs⟩ := bind_eq_ok_iff.1 h
  exact hR (hx s a s' hxs) (hf a s' b s'' hfs)

theorem Relates.onlyIf (hR : ∀ s, R s s) (b : Bool) {x : Atomic σ ε Unit} (hx : Relates R x) :
    Relates R (onlyIf b x) := by
  cases b with
  | false => exact .pure hR ()
  | true => exact hx

/-- A run of a transaction respects a reflexive relation its body respects. -/
theorem Relates.run (hR : ∀ s, R s s) {x : Atomic σ ε α} (hx : Relates R x) (s : σ) :
    R s (x.run s).2 := by
  rcases x.run_cases s with ⟨a, s', hxs, hrun⟩ | ⟨e, -, hrun⟩
  · rw [hrun]
    exact hx s a s' hxs
  · rw [hrun]
    exact hR s

end Relates

/-! ### Transactions that always commit -/

/-- The transaction commits from every store. -/
def Total (x : Atomic σ ε α) : Prop :=
  ∀ s, ∃ a s', x s = .ok (a, s')

theorem Total.pure (a : α) : Total (Pure.pure a : Atomic σ ε α) :=
  fun s ↦ ⟨a, s, rfl⟩

theorem Total.read (f : σ → α) : Total (Atomic.read f : Atomic σ ε α) :=
  fun s ↦ ⟨f s, s, rfl⟩

theorem Total.modify (f : σ → σ) : Total (Atomic.modify f : Atomic σ ε Unit) :=
  fun s ↦ ⟨(), f s, rfl⟩

theorem Total.bind {x : Atomic σ ε α} {f : α → Atomic σ ε β} (hx : Total x)
    (hf : ∀ a, Total (f a)) : Total (x >>= f) := by
  intro s
  obtain ⟨a, s', hxs⟩ := hx s
  rw [bind_of_ok hxs]
  exact hf a s'

theorem Total.onlyIf (b : Bool) {x : Atomic σ ε Unit} (hx : Total x) : Total (onlyIf b x) := by
  cases b with
  | false => exact .pure ()
  | true => exact hx

end Atomic
