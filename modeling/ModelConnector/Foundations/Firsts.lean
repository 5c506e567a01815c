import Mathlib.Data.List.Basic

/-!
# The first of each key

A pass over a list that keeps an element unless one with its key was kept before. What is kept is a
sublist with distinct keys, and it is the first element of each key that is not excluded from the
start.
-/

variable {α κ : Type} [DecidableEq κ] {key : α → κ}

/-- The elements whose key is neither excluded nor that of an element before them. -/
def firsts (key : α → κ) : List κ → List α → List α
  | _, [] => []
  | seen, a :: l => if key a ∈ seen then firsts key seen l else a :: firsts key (key a :: seen) l

theorem firsts_sublist {l : List α} : ∀ seen : List κ, (firsts key seen l).Sublist l := by
  induction l with
  | nil => exact fun _ ↦ .slnil
  | cons a l ih =>
    intro seen
    unfold firsts
    split
    · exact (ih seen).cons a
    · exact (ih _).cons_cons a

/-- What is kept has keys of its own. -/
theorem firsts_keys (key : α → κ) {l : List α} : ∀ seen : List κ,
    (∀ a ∈ firsts key seen l, key a ∉ seen) ∧ ((firsts key seen l).map key).Nodup := by
  induction l with
  | nil => exact fun _ ↦ ⟨by rintro _ ⟨⟩, List.nodup_nil⟩
  | cons a l ih =>
    intro seen
    unfold firsts
    split
    · exact ih seen
    · rename_i hseen
      obtain ⟨hfresh, hnodup⟩ := ih (key a :: seen)
      refine ⟨fun b hb ↦ ?_, List.nodup_cons.2 ⟨fun hmem ↦ ?_, hnodup⟩⟩
      · rcases List.mem_cons.1 hb with rfl | hb
        · exact hseen
        · exact fun hmem ↦ hfresh b hb (List.mem_cons_of_mem _ hmem)
      · obtain ⟨b, hb, heq⟩ := List.mem_map.1 hmem
        exact hfresh b hb (heq ▸ List.mem_cons_self)

/-- What is kept is the first of its key. -/
theorem mem_firsts_iff {a : α} {l : List α} : ∀ {seen : List κ}, a ∈ firsts key seen l ↔
    key a ∉ seen ∧ l.find? (fun b ↦ decide (key b = key a)) = some a := by
  induction l with
  | nil => simp [firsts]
  | cons head l ih =>
    intro seen
    unfold firsts
    by_cases hhead : key head = key a
    · rw [List.find?_cons, decide_eq_true hhead]
      split
      · rename_i hseen
        rw [ih, ← hhead]
        exact ⟨fun h ↦ absurd hseen h.1, fun h ↦ absurd hseen h.1⟩
      · rename_i hseen
        rw [List.mem_cons, ih, ← hhead]
        constructor
        · rintro (rfl | ⟨hmem, -⟩)
          · exact ⟨hseen, rfl⟩
          · exact absurd List.mem_cons_self hmem
        · rintro ⟨-, heq⟩
          exact .inl (Option.some.inj heq).symm
    · rw [List.find?_cons, decide_eq_false hhead]
      split
      · exact ih
      · have hne : a ≠ head := fun heq ↦ hhead (heq ▸ rfl)
        rw [List.mem_cons, ih, List.mem_cons]
        simp [hne, Ne.symm hhead]

theorem firsts_map {β : Type} {f : β → α} {l : List β} : ∀ seen : List κ,
    firsts key seen (l.map f) = (firsts (fun b ↦ key (f b)) seen l).map f := by
  induction l with
  | nil => exact fun _ ↦ rfl
  | cons b l ih =>
    intro seen
    simp only [List.map_cons, firsts]
    split
    · exact ih seen
    · rw [ih, List.map_cons]

/-- Every key is kept, with its first element. -/
theorem exists_mem_firsts (key : α → κ) {a : α} {l : List α} (ha : a ∈ l) : ∃ b ∈ firsts key [] l,
    key b = key a ∧ l.find? (fun b ↦ decide (key b = key a)) = some b := by
  have hsome : (l.find? fun b ↦ decide (key b = key a)).isSome :=
    List.find?_isSome.2 ⟨a, ha, decide_eq_true (p := key a = key a) rfl⟩
  obtain ⟨b, hb⟩ := Option.isSome_iff_exists.1 hsome
  have hkey : key b = key a :=
    of_decide_eq_true (List.find?_some (p := fun b ↦ decide (key b = key a)) hb)
  exact ⟨b, mem_firsts_iff.2 ⟨List.not_mem_nil, hkey ▸ hb⟩, hkey, hb⟩
