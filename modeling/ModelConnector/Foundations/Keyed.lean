import ModelConnector.Foundations.Table

/-!
# Tables with a primary key

A keyed table is a table whose only unique column is a key that is read off a row. It is a finite
partial map from keys to rows: `lookup` is the map, and what an update of the table does to the map
is said key by key, in `lookup_updateMany` and `lookup_upsert`.
-/

namespace Table

variable {ρ κ : Type} [DecidableEq κ] {key : ρ → κ}

/-- Two rows have the same key. -/
def sameKey (key : ρ → κ) (a b : ρ) : Bool :=
  decide (key a = key b)

/-- The row of a key. -/
def lookup (k : κ) (t : Table ρ (sameKey key)) : Option ρ :=
  t.find? fun a ↦ decide (key a = k)

theorem key_of_lookup {k : κ} {t : Table ρ (sameKey key)} {a : ρ} (h : t.lookup k = some a) :
    key a = k :=
  of_decide_eq_true (List.find?_some (p := fun a ↦ decide (key a = k)) h)

theorem lookup_eq_some_iff {k : κ} {t : Table ρ (sameKey key)} {a : ρ} :
    t.lookup k = some a ↔ a ∈ t ∧ key a = k := by
  rw [mem_def]
  constructor
  · intro h
    exact ⟨List.mem_of_find?_eq_some h, key_of_lookup h⟩
  · rintro ⟨ha, rfl⟩
    cases h : t.lookup (key a) with
    | none =>
      have hnone := List.find?_eq_none.1 h a ha
      simp at hnone
    | some b =>
      have hb : key b = key a := key_of_lookup h
      have heq : b = a := t.eq_of_clash (fun x y ↦ by simp [sameKey, eq_comm])
        (List.mem_of_find?_eq_some h) ha (decide_eq_true hb)
      rw [heq]

theorem lookup_eq_none_iff {k : κ} {t : Table ρ (sameKey key)} :
    t.lookup k = none ↔ ∀ a ∈ t, key a ≠ k := by
  unfold lookup find?
  rw [List.find?_eq_none]
  simp only [decide_eq_true_eq, ne_eq, mem_def]

/-- Tables with the same rows by key have the same rows. -/
theorem mem_iff_of_lookup_eq {t t' : Table ρ (sameKey key)} {a : ρ}
    (h : t'.lookup (key a) = t.lookup (key a)) : a ∈ t' ↔ a ∈ t := by
  have hiff : t'.lookup (key a) = some a ↔ t.lookup (key a) = some a := by rw [h]
  simpa only [lookup_eq_some_iff, and_true] using hiff

/-- Appending a row. -/
theorem lookup_of_rows_eq_append {k : κ} {r : ρ} {t t' : Table ρ (sameKey key)}
    (h : t'.rows = t.rows ++ [r]) :
    t'.lookup k = if k = key r then some r else t.lookup k := by
  split
  · rename_i hk
    refine lookup_eq_some_iff.2 ⟨?_, hk.symm⟩
    rw [mem_def, h]
    exact List.mem_append_right _ (List.mem_singleton_self r)
  · rename_i hk
    unfold lookup find?
    rw [h, List.find?_append, List.find?_singleton, if_neg (by simpa using Ne.symm hk),
      Option.or_none]

/-! ### Updates that keep the keys -/

/-- Rewrite the rows that satisfy a predicate, their keys apart. -/
def updateRows (p : ρ → Bool) (g : ρ → ρ) (hg : ∀ a, key (g a) = key a)
    (t : Table ρ (sameKey key)) : Table ρ (sameKey key) :=
  t.updateMany p g fun a b ↦ by simp only [sameKey, hg, and_self]

theorem lookup_updateRows (p : ρ → Bool) {g : ρ → ρ} (hg : ∀ a, key (g a) = key a)
    (t : Table ρ (sameKey key)) (k : κ) :
    (t.updateRows p g hg).lookup k = (t.lookup k).map fun a ↦ if p a then g a else a := by
  have hkey : ∀ a, key (if p a then g a else a) = key a := by
    intro a
    split
    · exact hg a
    · rfl
  unfold updateRows updateMany lookup find?
  simp only [List.find?_map, Function.comp_def, hkey]

/-! ### Upserts -/

/-- Rewrite the row that has the key of `r`, or insert `r`. -/
def upsert (r : ρ) (merge : ρ → ρ) (hmerge : ∀ a, key a = key r → key (merge a) = key r)
    (t : Table ρ (sameKey key)) : Table ρ (sameKey key) :=
  (t.insert? r).getD
    (t.updateRows (fun _ ↦ true) (fun a ↦ if key a = key r then merge a else a) fun a ↦ by
      split
      · rename_i ha
        exact (hmerge a ha).trans ha.symm
      · rfl)

/-- **An upsert, key by key.** -/
theorem lookup_upsert {r : ρ} {merge : ρ → ρ} (hmerge : ∀ a, key a = key r → key (merge a) = key r)
    (t : Table ρ (sameKey key)) (k : κ) :
    (t.upsert r merge hmerge).lookup k =
      if k = key r then some ((t.lookup k).elim r merge) else t.lookup k := by
  unfold upsert
  cases hinsert : t.insert? r with
  | some t' =>
    obtain ⟨hfree, hrows⟩ := insert?_eq_some_iff.1 hinsert
    have hfresh : t.lookup (key r) = none :=
      lookup_eq_none_iff.2 fun a ha ↦ of_decide_eq_false (hfree a ha)
    rw [Option.getD_some, lookup_of_rows_eq_append hrows]
    split
    · rename_i hk
      rw [hk, hfresh]
      rfl
    · rfl
  | none =>
    obtain ⟨a, ha, hclash⟩ := insert?_eq_none_iff.1 hinsert
    have hlookup : t.lookup (key r) = some a :=
      lookup_eq_some_iff.2 ⟨ha, of_decide_eq_true hclash⟩
    rw [Option.getD_none, lookup_updateRows]
    simp only [if_true]
    split
    · rename_i hk
      rw [hk, hlookup, Option.map_some, if_pos (of_decide_eq_true hclash)]
      rfl
    · rename_i hk
      cases hb : t.lookup k with
      | none => rfl
      | some b =>
        rw [Option.map_some, if_neg fun hbr ↦ hk ((lookup_eq_some_iff.1 hb).2 ▸ hbr)]

end Table
