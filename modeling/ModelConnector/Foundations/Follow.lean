import Mathlib.Computability.StateTransition
import Mathlib.Data.Fintype.EquivFin
import Mathlib.Data.Set.Finite.Basic
import Mathlib.Order.WellFounded

/-!
# Following a partial function

A function that names the next state, or none, is followed from a state on. Where finitely many
states are reached, it comes to an end exactly when no state that is reached leads back to itself.
-/

namespace StateTransition

variable {α : Type} {f : α → Option α} {a b c : α}

/-- From a state that leads back to itself only such states are reached. -/
theorem reaches₁_self_of_reaches (hself : Reaches₁ f a a) (h : Reaches f a b) :
    Reaches₁ f b b := by
  induction h with
  | refl => exact hself
  | tail _ hstep ih => exact Relation.TransGen.tail' (reaches₁_fwd ih hstep) hstep

theorem not_reaches₁_of_eq_none (h : f a = none) : ¬ Reaches₁ f a b := by
  intro hreach
  obtain ⟨c, hstep, -⟩ := Relation.TransGen.head'_iff.1 hreach
  rw [Option.mem_def, h] at hstep
  cases hstep

/-- The end is behind every state that is reached. -/
theorem reaches_end (hend : f b = none) (hb : Reaches f a b) (hc : Reaches f a c) :
    Reaches f c b := by
  rcases reaches_total hb hc with h | h
  · rcases Relation.reflTransGen_iff_eq_or_transGen.1 h with rfl | h
    · exact .refl
    · exact absurd h (not_reaches₁_of_eq_none hend)
  · exact h

/-- Following the function comes to an end exactly when it meets no cycle. -/
theorem exists_end_iff (hfinite : {b | Reaches f a b}.Finite) :
    (∃ b, Reaches f a b ∧ f b = none) ↔ ∀ b, Reaches f a b → ¬ Reaches₁ f b b := by
  constructor
  · rintro ⟨b, hb, hend⟩ c hc hself
    exact not_reaches₁_of_eq_none hend (reaches₁_self_of_reaches hself (reaches_end hend hb hc))
  · intro hacyclic
    have : Finite {b // Reaches f a b} := hfinite
    let later : {b // Reaches f a b} → {b // Reaches f a b} → Prop :=
      fun x y ↦ Reaches₁ f y.1 x.1
    have : IsTrans _ later := ⟨fun x y z hxy hyz ↦ Relation.TransGen.trans hyz hxy⟩
    have : Std.Irrefl later := ⟨fun x ↦ hacyclic x.1 x.2⟩
    have hwf : WellFounded later := Finite.wellFounded_of_trans_of_irrefl later
    -- the states that are reached are well-founded under "later", so the last one is an end
    have hall : ∀ x : {b // Reaches f a b}, ∃ b, Reaches f x.1 b ∧ f b = none := by
      intro x
      induction x using hwf.induction with
      | _ x ih =>
        cases hstep : f x.1 with
        | none => exact ⟨x.1, .refl, hstep⟩
        | some y =>
          obtain ⟨b, hb, hend⟩ := ih ⟨y, x.2.tail hstep⟩ (Relation.TransGen.single hstep)
          exact ⟨b, .head hstep hb, hend⟩
    exact hall ⟨a, .refl⟩

end StateTransition
