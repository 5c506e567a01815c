import Mathlib.Data.List.Basic

/-!
# Programs that may be killed

A program over a state `σ` returns an `α`, raises an exception of type `ε`, or is killed; the state
it leaves is there in each case. An exception can be caught, being killed can not, so what a killed
program leaves behind is what a later program finds.

`Program.Ensures` says what holds at each of the three ends, and there is one rule for each way of
putting programs together. A rule is applied to a state, not to all of them, so that what has been
observed of a state can be used in it.
-/

/-- How a program ends. -/
inductive Exit (ε α : Type)
  | returned (a : α)
  | raised (e : ε)
  | killed
  deriving DecidableEq

/-- A program over `σ`, raising an `ε` or returning an `α`. -/
def Program (σ ε α : Type) : Type :=
  σ → Exit ε α × σ

namespace Program

variable {σ ε α β : Type}

instance : Monad (Program σ ε) where
  pure a := fun s ↦ (.returned a, s)
  bind x f := fun s ↦
    match x s with
    | (.returned a, s') => f a s'
    | (.raised e, s') => (.raised e, s')
    | (.killed, s') => (.killed, s')

def raise (e : ε) : Program σ ε α :=
  fun s ↦ (.raised e, s)

/-- Catch what a program raises. -/
def handle (x : Program σ ε α) (f : ε → Program σ ε α) : Program σ ε α := fun s ↦
  match x s with
  | (.returned a, s') => (.returned a, s')
  | (.raised e, s') => f e s'
  | (.killed, s') => (.killed, s')

def read (f : σ → α) : Program σ ε α :=
  fun s ↦ (.returned (f s), s)

def modify (f : σ → σ) : Program σ ε Unit :=
  fun s ↦ (.returned (), f s)

/-- Raise unless the condition holds. -/
def require (b : Bool) (e : ε) : Program σ ε Unit :=
  if b then pure () else raise e

/-- From `s`, the program ends with `Q` when it returns, with `R` when it raises and with `K` when
it is killed. -/
def Ensures (x : Program σ ε α) (s : σ) (Q : α → σ → Prop) (R : ε → σ → Prop) (K : σ → Prop) :
    Prop :=
  match x s with
  | (.returned a, s') => Q a s'
  | (.raised e, s') => R e s'
  | (.killed, s') => K s'

variable {x : Program σ ε α} {f : α → Program σ ε β} {s : σ} {Q Q' : α → σ → Prop}
  {R R' : ε → σ → Prop} {K K' : σ → Prop}

namespace Ensures

theorem pure {a : α} (h : Q a s) : Ensures (Pure.pure a) s Q R K :=
  h

theorem raise {e : ε} (h : R e s) : Ensures (Program.raise e : Program σ ε α) s Q R K :=
  h

theorem read {g : σ → α} (h : Q (g s) s) : Ensures (Program.read g) s Q R K :=
  h

theorem modify {g : σ → σ} {Q : Unit → σ → Prop} (h : Q () (g s)) :
    Ensures (Program.modify g) s Q R K :=
  h

theorem require {b : Bool} {e : ε} {Q : Unit → σ → Prop} (h : b = true → Q () s)
    (he : b = false → R e s) : Ensures (Program.require b e) s Q R K := by
  cases b with
  | false => exact he rfl
  | true => exact h rfl

/-- The rule of consequence. -/
theorem mono (h : Ensures x s Q R K) (hQ : ∀ a s', Q a s' → Q' a s')
    (hR : ∀ e s', R e s' → R' e s') (hK : ∀ s', K s' → K' s') : Ensures x s Q' R' K' := by
  unfold Ensures at h ⊢
  split at h
  · exact hQ _ _ h
  · exact hR _ _ h
  · exact hK _ h

/-- The rule of sequence. -/
theorem bind {Q : β → σ → Prop} (h : Ensures x s (fun a s' ↦ Ensures (f a) s' Q R K) R K) :
    Ensures (x >>= f) s Q R K := by
  unfold Ensures at h ⊢
  change match (match x s with
    | (.returned a, s') => f a s'
    | (.raised e, s') => (.raised e, s')
    | (.killed, s') => (.killed, s')) with
    | (.returned a, s') => Q a s'
    | (.raised e, s') => R e s'
    | (.killed, s') => K s'
  split at h
  · exact h
  · exact h
  · exact h

/-- Two programs in sequence, the first one with a specification of its own. -/
theorem seq {Q₁ : α → σ → Prop} {Q : β → σ → Prop} (h : Ensures x s Q₁ R' K')
    (hf : ∀ a s', Q₁ a s' → Ensures (f a) s' Q R K) (hR : ∀ e s', R' e s' → R e s')
    (hK : ∀ s', K' s' → K s') : Ensures (x >>= f) s Q R K :=
  bind (h.mono hf hR hK)

/-- The rule of catching. -/
theorem handle {g : ε → Program σ ε α} (h : Ensures x s Q (fun e s' ↦ Ensures (g e) s' Q R K) K) :
    Ensures (Program.handle x g) s Q R K := by
  unfold Ensures Program.handle
  unfold Ensures at h
  split at h
  · exact h
  · exact h
  · exact h

/-- What is ensured of every end is so of the state a program leaves. -/
theorem snd {P : σ → Prop} (h : Ensures x s (fun _ ↦ P) (fun _ ↦ P) P) : P (x s).2 := by
  unfold Ensures at h
  split at h
  · rename_i hx
    rw [hx]
    exact h
  · rename_i hx
    rw [hx]
    exact h
  · rename_i hx
    rw [hx]
    exact h

/-- What is ensured of a returned value is so when one is returned. -/
theorem of_returned {a : α} {s' : σ} (h : Ensures x s Q R K) (hx : x s = (.returned a, s')) :
    Q a s' := by
  unfold Ensures at h
  rwa [hx] at h

end Ensures

/-! ### The frame rule -/

/-- However it ends, the program leads from a state to one related to it. -/
def Respects (S : σ → σ → Prop) (x : Program σ ε α) : Prop :=
  ∀ s, S s (x s).2

section Respects

variable {S : σ → σ → Prop}

theorem Respects.pure (hS : ∀ s, S s s) (a : α) : Respects S (Pure.pure a : Program σ ε α) :=
  hS

theorem Respects.raise (hS : ∀ s, S s s) (e : ε) : Respects S (Program.raise e : Program σ ε α) :=
  hS

theorem Respects.read (hS : ∀ s, S s s) (g : σ → α) : Respects S (Program.read g : Program σ ε α) :=
  hS

theorem Respects.modify {g : σ → σ} (hg : ∀ s, S s (g s)) :
    Respects S (Program.modify g : Program σ ε Unit) :=
  hg

theorem Respects.require (hS : ∀ s, S s s) (b : Bool) (e : ε) :
    Respects S (Program.require b e) := by
  cases b with
  | false => exact .raise hS e
  | true => exact .pure hS ()

theorem Respects.bind (hS : ∀ {s t u}, S s t → S t u → S s u) (hx : Respects S x)
    (hf : ∀ a, Respects S (f a)) : Respects S (x >>= f) := by
  intro s
  have hs := hx s
  show S s (match x s with
    | (.returned a, s') => f a s'
    | (.raised e, s') => (.raised e, s')
    | (.killed, s') => (.killed, s')).2
  split
  · rename_i heq
    rw [heq] at hs
    exact hS hs (hf _ _)
  · rename_i heq
    rw [heq] at hs
    exact hs
  · rename_i heq
    rw [heq] at hs
    exact hs

theorem Respects.handle {g : ε → Program σ ε α} (hS : ∀ {s t u}, S s t → S t u → S s u)
    (hx : Respects S x) (hg : ∀ e, Respects S (g e)) : Respects S (Program.handle x g) := by
  intro s
  have hs := hx s
  unfold Program.handle
  split
  · rename_i heq
    rw [heq] at hs
    exact hs
  · rename_i heq
    rw [heq] at hs
    exact hS hs (hg _ _)
  · rename_i heq
    rw [heq] at hs
    exact hs

end Respects

end Program
