import Mathlib.Data.List.Forall2

/-!
# Computations that can fail

What the steps of a computation were when all of it succeeds, and back.
-/

/-- A member on the right has its partner on the left. -/
theorem List.Forall₂.exists_of_mem_right {α β : Type*} {R : α → β → Prop} {xs : List α}
    {ys : List β} {y : β} (h : List.Forall₂ R xs ys) (hy : y ∈ ys) : ∃ x ∈ xs, R x y := by
  induction h with
  | nil => cases hy
  | cons hxy _ ih =>
    rcases List.mem_cons.1 hy with rfl | hy
    · exact ⟨_, List.mem_cons_self, hxy⟩
    · obtain ⟨x, hx, hR⟩ := ih hy
      exact ⟨x, List.mem_cons_of_mem _ hx, hR⟩

/-- A member on the left has its partner on the right. -/
theorem List.Forall₂.exists_of_mem_left {α β : Type*} {R : α → β → Prop} {xs : List α}
    {ys : List β} {x : α} (h : List.Forall₂ R xs ys) (hx : x ∈ xs) : ∃ y ∈ ys, R x y :=
  h.flip.exists_of_mem_right hx

/-- Where every member on the left has a partner, there are partners for all. -/
theorem List.exists_forall₂ {α β : Type*} {R : α → β → Prop} {xs : List α}
    (h : ∀ x ∈ xs, ∃ y, R x y) : ∃ ys, List.Forall₂ R xs ys := by
  induction xs with
  | nil => exact ⟨[], .nil⟩
  | cons x xs ih =>
    obtain ⟨y, hy⟩ := h x List.mem_cons_self
    obtain ⟨ys, hys⟩ := ih fun x hx ↦ h x (List.mem_cons_of_mem _ hx)
    exact ⟨y :: ys, .cons hy hys⟩

/-- Partners by relations that are the same on the members of the left. -/
theorem List.forall₂_congr_of_mem {α β : Type*} {R S : α → β → Prop} {xs : List α} {ys : List β}
    (h : ∀ x ∈ xs, ∀ y, R x y ↔ S x y) : List.Forall₂ R xs ys ↔ List.Forall₂ S xs ys := by
  induction xs generalizing ys with
  | nil => cases ys <;> simp
  | cons x xs ih =>
    cases ys with
    | nil => simp
    | cons y ys =>
      rw [List.forall₂_cons, List.forall₂_cons, h x List.mem_cons_self y,
        ih fun x hx ↦ h x (List.mem_cons_of_mem _ hx)]

namespace Except

universe u

variable {ε : Type u} {α β : Type}

/-- A sequence succeeds when its first step does, and what follows. -/
theorem bind_eq_ok {x : Except ε α} {f : α → Except ε β} {b : β} :
    (x >>= f) = .ok b ↔ ∃ a, x = .ok a ∧ f a = .ok b := by
  cases x with
  | error e =>
    constructor
    · intro h
      cases h
    · rintro ⟨a, h, -⟩
      cases h
  | ok a =>
    constructor
    · exact fun h ↦ ⟨a, rfl, h⟩
    · rintro ⟨a', h, hf⟩
      cases h
      exact hf

/-- The steps of a sequence that succeeds. -/
theorem bind_ok {x : Except ε α} {f : α → Except ε β} {b : β} (h : (x >>= f) = .ok b) :
    ∃ a, x = .ok a ∧ f a = .ok b :=
  bind_eq_ok.1 h

/-- A sequence of steps that succeed. -/
theorem ok_bind {x : Except ε α} {f : α → Except ε β} {a : α} {b : β} (hx : x = .ok a)
    (hf : f a = .ok b) : (x >>= f) = .ok b :=
  bind_eq_ok.2 ⟨a, hx, hf⟩

/-- A computation for every element succeeds when each of them does. -/
theorem mapM_eq_ok {f : α → Except ε β} {xs : List α} {ys : List β} :
    xs.mapM f = .ok ys ↔ List.Forall₂ (fun x y ↦ f x = .ok y) xs ys := by
  induction xs generalizing ys with
  | nil =>
    rw [List.mapM_nil]
    constructor
    · intro h
      cases h
      exact .nil
    · intro h
      cases h
      rfl
  | cons x xs ih =>
    rw [List.mapM_cons]
    constructor
    · intro h
      obtain ⟨y, hy, h⟩ := bind_ok h
      obtain ⟨rest, hrest, h⟩ := bind_ok h
      cases h
      exact .cons hy (ih.1 hrest)
    · intro h
      cases h with
      | cons hy hrest => exact ok_bind hy (ok_bind (ih.2 hrest) rfl)

/-- The results, when they are known one by one. -/
theorem eq_map_of_mapM {f : α → Except ε β} {g : α → β} {xs : List α} {ys : List β}
    (h : xs.mapM f = .ok ys) (hg : ∀ x ∈ xs, ∀ y, f x = .ok y → y = g x) : ys = xs.map g := by
  have hall := mapM_eq_ok.1 h
  clear h
  induction hall with
  | nil => rfl
  | cons hy hrest ih =>
    rw [List.map_cons, hg _ (by simp) _ hy, ih fun x hx ↦ hg x (by simp [hx])]

end Except

/-- Partial values for every element are there when each of them is. -/
theorem Option.mapM_eq_some {α β : Type} {f : α → Option β} {xs : List α} {ys : List β} :
    xs.mapM f = some ys ↔ List.Forall₂ (fun x y ↦ f x = some y) xs ys := by
  induction xs generalizing ys with
  | nil =>
    rw [List.mapM_nil]
    constructor
    · intro h
      cases h
      exact .nil
    · intro h
      cases h
      rfl
  | cons x xs ih =>
    rw [List.mapM_cons]
    constructor
    · intro h
      obtain ⟨y, hy, h⟩ := Option.bind_eq_some_iff.1 h
      obtain ⟨rest, hrest, h⟩ := Option.bind_eq_some_iff.1 h
      cases h
      exact .cons hy (ih.1 hrest)
    · intro h
      cases h with
      | cons hy hrest =>
        exact Option.bind_eq_some_iff.2 ⟨_, hy, Option.bind_eq_some_iff.2 ⟨_, ih.2 hrest, rfl⟩⟩

/-- A partial value behind a check. -/
theorem guard_bind_eq_some {β : Type} {p : Prop} [Decidable p] {f : Unit → Option β} {b : β} :
    ((guard p : Option Unit) >>= f) = some b ↔ p ∧ f () = some b := by
  by_cases hp : p
  · simp [guard, hp]
  · simp [guard, hp]
