import Mathlib.Data.List.Basic
import Mathlib.Data.List.Pairwise
import Mathlib.Algebra.BigOperators.Group.List.Basic
import Mathlib.Algebra.Order.BigOperators.Group.List
import Mathlib.Tactic.Linarith

/-!
# Tables with unique columns

A table is a list of rows no two of which **clash**: `clash` says of two rows that they agree
on some unique column (a primary key, a unique index), and the table carries the proof that no
two of its rows do, so a table that breaks a unique constraint cannot be built. `insert?` is
the checked insertion, `updateMany` and `deleteMany` are the guarded bulk operations of an SQL
store, and `sumWhere` is the aggregate `SUM(f) WHERE p`.

What the guarded update does to an aggregate is `Table.sumWhere_updateMany`: the one matching
row leaves it with the value it had and enters it with the value it gets.
-/

/-- Rows no two of which clash. -/
structure Table (ρ : Type) (clash : ρ → ρ → Bool) where
  /-- The rows, in insertion order. -/
  rows : List ρ
  /-- No two rows clash. -/
  unique : rows.Pairwise fun a b ↦ clash a b = false

namespace Table

variable {ρ : Type} {clash : ρ → ρ → Bool}

/-- The table without rows. -/
def empty : Table ρ clash :=
  ⟨[], List.Pairwise.nil⟩

instance : Membership ρ (Table ρ clash) :=
  ⟨fun t r ↦ r ∈ t.rows⟩

theorem mem_def {r : ρ} {t : Table ρ clash} : r ∈ t ↔ r ∈ t.rows :=
  Iff.rfl

/-- The first row that satisfies the predicate. -/
def find? (p : ρ → Bool) (t : Table ρ clash) : Option ρ :=
  t.rows.find? p

/-- How many rows satisfy the predicate. -/
def count (p : ρ → Bool) (t : Table ρ clash) : ℕ :=
  t.rows.countP p

/-- `SUM(f) WHERE p`. -/
def sumWhere (p : ρ → Bool) (f : ρ → ℤ) (t : Table ρ clash) : ℤ :=
  ((t.rows.filter p).map f).sum

/-- Insert a row at the end, unless a row of the table clashes with it. -/
def insert? (r : ρ) (t : Table ρ clash) : Option (Table ρ clash) :=
  if h : ∀ a ∈ t.rows, clash a r = false then
    some ⟨t.rows ++ [r], List.pairwise_append.2
      ⟨t.unique, List.pairwise_singleton _ _, fun a ha b hb ↦ by
        rw [List.mem_singleton.1 hb]
        exact h a ha⟩⟩
  else none

/-- Rewrite every row that satisfies the predicate. The rewriting must not touch what the
unique columns are read from. -/
def updateMany (p : ρ → Bool) (g : ρ → ρ) (hg : ∀ a b, clash (g a) b = clash a b ∧
    clash a (g b) = clash a b) (t : Table ρ clash) : Table ρ clash :=
  ⟨t.rows.map fun r ↦ if p r then g r else r, by
    refine List.pairwise_map.2 (t.unique.imp fun {a b} hab ↦ ?_)
    by_cases ha : p a <;> by_cases hb : p b <;> simp [ha, hb, hab, (hg _ _).1, (hg _ _).2]⟩

/-- Delete every row that satisfies the predicate. -/
def deleteMany (p : ρ → Bool) (t : Table ρ clash) : Table ρ clash :=
  ⟨t.rows.filter fun r ↦ !p r, t.unique.filter _⟩

/-! ### Insertion -/

theorem insert?_eq_some_iff {r : ρ} {t t' : Table ρ clash} :
    t.insert? r = some t' ↔ (∀ a ∈ t.rows, clash a r = false) ∧ t'.rows = t.rows ++ [r] := by
  unfold insert?
  split
  · rename_i h
    constructor
    · intro heq
      cases heq
      exact ⟨h, rfl⟩
    · rintro ⟨-, hrows⟩
      obtain ⟨rows, unique⟩ := t'
      subst hrows
      rfl
  · rename_i h
    simp [h]

theorem insert?_eq_none_iff {r : ρ} {t : Table ρ clash} :
    t.insert? r = none ↔ ∃ a ∈ t.rows, clash a r = true := by
  unfold insert?
  split
  · rename_i h
    simp only [reduceCtorEq, false_iff, not_exists, not_and, Bool.not_eq_true]
    exact h
  · rename_i h
    simpa using h

/-! ### Uniqueness -/

/-- Two rows of a table that clash are one row. -/
theorem eq_of_clash (hsymm : ∀ a b, clash a b = clash b a) {t : Table ρ clash} {a b : ρ}
    (ha : a ∈ t.rows) (hb : b ∈ t.rows) (h : clash a b = true) : a = b := by
  by_contra hne
  have hstd : Std.Symm fun x y ↦ clash x y = false := ⟨fun x y hxy ↦ by rw [hsymm]; exact hxy⟩
  have hpw : clash a b = false := t.unique.forall ha hb hne
  rw [hpw] at h
  exact absurd h (by simp)

/-- Rows are pairwise distinct. -/
theorem nodup (hirr : ∀ a, clash a a = true) (t : Table ρ clash) : t.rows.Nodup :=
  t.unique.imp fun {a b} hab heq ↦ by
    subst heq
    rw [hirr] at hab
    exact absurd hab (by simp)

/-- A predicate that picks out one row of a table counts one. -/
theorem count_eq_one {p : ρ → Bool} {t : Table ρ clash} (hirr : ∀ a, clash a a = true) {r : ρ}
    (hr : r ∈ t.rows) (hp : ∀ a ∈ t.rows, p a = true ↔ a = r) : t.count p = 1 := by
  classical
  have hcount : t.rows.countP p = t.rows.count r := by
    rw [List.count]
    refine List.countP_congr fun a ha ↦ ?_
    rw [hp a ha, beq_iff_eq]
  rw [count, hcount, (t.nodup hirr).count, if_pos hr]

/-! ### Aggregates -/

@[simp]
theorem sumWhere_empty (p : ρ → Bool) (f : ρ → ℤ) :
    (empty : Table ρ clash).sumWhere p f = 0 :=
  rfl

/-- An aggregate adds up what every row contributes. -/
theorem sumWhere_eq (p : ρ → Bool) (f : ρ → ℤ) (t : Table ρ clash) :
    t.sumWhere p f = (t.rows.map fun r ↦ if p r then f r else 0).sum := by
  unfold sumWhere
  induction t.rows with
  | nil => rfl
  | cons r l ih =>
    by_cases hp : p r <;> simp [hp, ih]

/-- Appended rows add what they contribute. -/
theorem sumWhere_append {l : List ρ} {t t' : Table ρ clash} (h : t'.rows = t.rows ++ l)
    (p : ρ → Bool) (f : ρ → ℤ) :
    t'.sumWhere p f = t.sumWhere p f + ((l.filter p).map f).sum := by
  unfold sumWhere
  rw [h, List.filter_append, List.map_append, List.sum_append]

/-- An inserted row adds its value when it is selected. -/
theorem sumWhere_insert {r : ρ} {t t' : Table ρ clash} (h : t'.rows = t.rows ++ [r])
    (p : ρ → Bool) (f : ρ → ℤ) :
    t'.sumWhere p f = t.sumWhere p f + if p r then f r else 0 := by
  rw [sumWhere_append h]
  by_cases hp : p r <;> simp [hp]

/-- Of non-negative values, a selected row's is at most the sum. -/
theorem le_sumWhere {p : ρ → Bool} {f : ρ → ℤ} {t : Table ρ clash} {r : ρ} (hr : r ∈ t.rows)
    (hp : p r = true) (hf : ∀ a ∈ t.rows, p a = true → 0 ≤ f a) : f r ≤ t.sumWhere p f := by
  refine List.single_le_sum (fun x hx ↦ ?_) _
    (List.mem_map.2 ⟨r, List.mem_filter.2 ⟨hr, hp⟩, rfl⟩)
  obtain ⟨a, ha, rfl⟩ := List.mem_map.1 hx
  exact hf a (List.mem_filter.1 ha).1 (List.mem_filter.1 ha).2

/-- Deleting rows the aggregate does not select leaves it alone. -/
theorem sumWhere_deleteMany {p q : ρ → Bool} (f : ρ → ℤ) {t : Table ρ clash}
    (h : ∀ r ∈ t.rows, q r = true → p r = false) :
    (t.deleteMany q).sumWhere p f = t.sumWhere p f := by
  unfold sumWhere deleteMany
  rw [List.filter_filter]
  congr 2
  refine List.filter_congr fun r hr ↦ ?_
  by_cases hq : q r = true
  · simp [h r hr hq]
  · simp [hq]

/-- A guarded update that matches no row changes nothing. -/
theorem updateMany_of_count_eq_zero {p : ρ → Bool} {g : ρ → ρ} {hg} {t : Table ρ clash}
    (h : t.count p = 0) : t.updateMany p g hg = t := by
  obtain ⟨rows, unique⟩ := t
  have hrows : (rows.map fun r ↦ if p r then g r else r) = rows := by
    conv_rhs => rw [← List.map_id rows]
    refine List.map_congr_left fun r hr ↦ ?_
    rw [if_neg (by simpa using List.countP_eq_zero.1 h r hr), id]
  unfold updateMany
  simp only [hrows]

/-- The list form of `sumWhere_updateMany`. -/
private theorem sum_filter_map_update {p q : ρ → Bool} {g : ρ → ρ} {f : ρ → ℤ} {r : ρ} :
    ∀ {l : List ρ}, r ∈ l → l.Nodup → (∀ a ∈ l, p a = true ↔ a = r) →
      (((l.map fun a ↦ if p a then g a else a).filter q).map f).sum =
        ((l.filter q).map f).sum - (if q r then f r else 0) + if q (g r) then f (g r) else 0 := by
  intro l
  induction l with
  | nil => simp
  | cons a l ih =>
    intro hr hnd hp
    obtain ⟨hal, hnd⟩ := List.nodup_cons.1 hnd
    by_cases har : a = r
    · subst har
      have hpa : p a = true := (hp a List.mem_cons_self).2 rfl
      have htail : (l.map fun b ↦ if p b then g b else b) = l := by
        conv_rhs => rw [← List.map_id l]
        refine List.map_congr_left fun b hb ↦ ?_
        have hpb : ¬ p b = true := fun hpb ↦
          hal ((hp b (List.mem_cons_of_mem _ hb)).1 hpb ▸ hb)
        rw [if_neg hpb, id]
      rw [List.map_cons, if_pos hpa, htail]
      by_cases hqa : q a <;> by_cases hqg : q (g a) <;> simp [hqa, hqg, add_comm]
    · have hpa : ¬ p a = true := fun h ↦ har ((hp a List.mem_cons_self).1 h)
      have hrl : r ∈ l := by
        rcases List.mem_cons.1 hr with h | h
        · exact absurd h.symm har
        · exact h
      have hih := ih hrl hnd fun b hb ↦ hp b (List.mem_cons_of_mem _ hb)
      rw [List.map_cons, if_neg hpa]
      by_cases hqa : q a <;> simp only [List.filter_cons, hqa, if_true, if_false, Bool.false_eq_true,
        List.map_cons, List.sum_cons, hih]
      omega

/-- **The guarded update and an aggregate.** When `r` is the only row the guard matches, the
aggregate loses what `r` contributed and gains what its new value contributes. -/
theorem sumWhere_updateMany {p q : ρ → Bool} {g : ρ → ρ} {hg} (f : ρ → ℤ) {t : Table ρ clash}
    (hirr : ∀ a, clash a a = true) {r : ρ} (hr : r ∈ t.rows)
    (hp : ∀ a ∈ t.rows, p a = true ↔ a = r) :
    (t.updateMany p g hg).sumWhere q f =
      t.sumWhere q f - (if q r then f r else 0) + if q (g r) then f (g r) else 0 :=
  sum_filter_map_update hr (t.nodup hirr) hp

end Table
