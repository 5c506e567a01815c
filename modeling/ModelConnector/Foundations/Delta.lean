import Mathlib.Data.List.Nodup
import Mathlib.Logic.Function.Basic

/-!
# Keyed lists, and deltas between maps

A list in which every element has a key of its own is read by key. A delta is a list of entries,
each naming a key and what the key stands for from then on; entries are applied in order, and when
the entries of a key all name one value, their order does not matter.
-/

section Keys

variable {α κ : Type} [DecidableEq κ] {key : α → κ} {l : List α} {a : α} {k : κ}

theorem find?_key_eq_none_iff :
    l.find? (fun b ↦ decide (key b = k)) = none ↔ ∀ b ∈ l, key b ≠ k := by
  simp only [List.find?_eq_none, decide_eq_true_eq, ne_eq]

/-- With distinct keys, an element is what is found by its key. -/
theorem find?_key_eq_some_iff (hl : (l.map key).Nodup) :
    l.find? (fun b ↦ decide (key b = k)) = some a ↔ a ∈ l ∧ key a = k := by
  constructor
  · intro h
    exact ⟨List.mem_of_find?_eq_some h, by simpa using List.find?_some h⟩
  · rintro ⟨ha, rfl⟩
    cases h : l.find? fun b ↦ decide (key b = key a) with
    | none => exact absurd rfl (find?_key_eq_none_iff.1 h a ha)
    | some b =>
      have hb : key b = key a := by simpa using List.find?_some h
      rw [List.inj_on_of_nodup_map hl (List.mem_of_find?_eq_some h) ha hb]

end Keys

/-- What a pass keeps of a list with distinct keys has distinct keys, when it keeps the keys. -/
theorem nodup_map_filterMap {α β κ : Type} {l : List α} {key : α → κ} {f : α → Option β}
    {key' : β → κ} (hl : (l.map key).Nodup)
    (hf : ∀ a b, f a = some b → key' b = key a) : ((l.filterMap f).map key').Nodup := by
  refine hl.sublist ?_
  induction l with
  | nil => exact .slnil
  | cons a l ih =>
    have ih := ih (List.nodup_cons.1 hl).2
    rw [List.filterMap_cons]
    split
    · exact ih.cons _
    · rename_i b hb
      rw [List.map_cons, List.map_cons, hf a b hb]
      exact ih.cons_cons _

section Delta

variable {α β κ : Type} [DecidableEq κ] {key : α → κ} {value : α → β} {k : κ}

/-- Apply the entries of a delta to a map. -/
def applyDelta (key : α → κ) (value : α → β) (l : List α) (f : κ → β) : κ → β :=
  l.foldl (fun g a ↦ Function.update g (key a) (value a)) f

/-- A key that no entry names keeps its value. -/
theorem applyDelta_of_forall_ne {l : List α} : ∀ {f : κ → β}, (∀ a ∈ l, key a ≠ k) →
    applyDelta key value l f k = f k := by
  induction l with
  | nil => exact fun _ ↦ rfl
  | cons a l ih =>
    intro f hne
    refine (ih fun b hb ↦ hne b (List.mem_cons_of_mem a hb)).trans ?_
    exact Function.update_of_ne (hne a List.mem_cons_self).symm _ _

/-- A key has a value after a delta whose entries of the key all name it, when there is one of them
or the key had the value before. -/
theorem applyDelta_eq {v : β} {l : List α} : ∀ {f : κ → β}, (∀ a ∈ l, key a = k → value a = v) →
    (f k ≠ v → ∃ a ∈ l, key a = k) → applyDelta key value l f k = v := by
  induction l with
  | nil =>
    intro f _ hnamed
    by_contra hne
    obtain ⟨a, ha, -⟩ := hnamed hne
    cases ha
  | cons a l ih =>
    intro f hvalue hnamed
    refine ih (fun b hb ↦ hvalue b (List.mem_cons_of_mem a hb)) fun hne ↦ ?_
    change Function.update f (key a) (value a) k ≠ v at hne
    by_cases hk : key a = k
    · -- the entry at the front has set it
      rw [← hk, Function.update_self] at hne
      exact absurd (hvalue a List.mem_cons_self hk) hne
    · rw [Function.update_of_ne (Ne.symm hk)] at hne
      obtain ⟨b, hb, hkey⟩ := hnamed hne
      rcases List.mem_cons.1 hb with rfl | hb
      · exact absurd hkey hk
      · exact ⟨b, hb, hkey⟩

end Delta
