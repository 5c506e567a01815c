import ModelConnector.Foundations.Table

/-!
# Tables under concurrent transactions

Several transactions, numbered, write one table at the same time. A row a transaction has inserted
is a **version**: it names its writer until the writer commits, and it is gone when the writer
rolls back. At the isolation level `READ COMMITTED` a statement sees the committed versions and
those of its own transaction.

A unique index is checked against all versions: an insertion that clashes with a committed version
is a duplicate, and one that clashes with a version another transaction may still roll back has to
wait.

For the aggregates of a table this comes to: an insertion adds to what its writer has pending, a
commit moves what is pending to what is committed, a rollback drops it.
-/

/-- A row, and the transaction that has inserted it and not committed yet. -/
structure Version (ρ : Type) where
  row : ρ
  writer : Option ℕ
  deriving DecidableEq

/-- A table of versions; the unique index does not look at the writer. -/
abbrev Versions (ρ : Type) (clash : ρ → ρ → Bool) : Type :=
  Table (Version ρ) fun a b ↦ clash a.row b.row

namespace Versions

variable {ρ : Type} {clash : ρ → ρ → Bool}

/-- The table, all of it committed. -/
def ofTable (t : Table ρ clash) : Versions ρ clash :=
  ⟨t.rows.map fun r ↦ ⟨r, none⟩, List.pairwise_map.2 t.unique⟩

/-- The committed rows. -/
def committed (t : Versions ρ clash) : List ρ :=
  (t.rows.filter fun v ↦ v.writer.isNone).map Version.row

/-- The rows a statement of transaction `i` sees. -/
def visibleTo (i : ℕ) (t : Versions ρ clash) : List ρ :=
  (t.rows.filter fun v ↦ v.writer.isNone || v.writer == some i).map Version.row

/-- What becomes of an insertion. -/
inductive Insertion (ρ : Type) (clash : ρ → ρ → Bool)
  | inserted (t : Versions ρ clash)
  /-- A committed version, or an own one, has the key. -/
  | duplicate
  /-- The version of another transaction has the key. -/
  | blocked

/-- Insert a row for transaction `i`. -/
def insert (i : ℕ) (r : ρ) (t : Versions ρ clash) : Insertion ρ clash :=
  match t.insert? ⟨r, some i⟩ with
  | some t' => .inserted t'
  | none =>
    if t.rows.any fun v ↦ clash v.row r && (v.writer.isNone || v.writer == some i) then .duplicate
    else .blocked

/-- The versions of transaction `i` are committed. -/
def commit (i : ℕ) (t : Versions ρ clash) : Versions ρ clash :=
  t.updateMany (fun v ↦ v.writer == some i) (fun v ↦ { v with writer := none }) fun _ _ ↦ ⟨rfl, rfl⟩

/-- The versions of transaction `i` are gone. -/
def rollback (i : ℕ) (t : Versions ρ clash) : Versions ρ clash :=
  t.deleteMany fun v ↦ v.writer == some i

theorem insert_eq_inserted {i : ℕ} {r : ρ} {t t' : Versions ρ clash}
    (h : t.insert i r = .inserted t') : t'.rows = t.rows ++ [⟨r, some i⟩] := by
  unfold insert at h
  cases hinsert : t.insert? ⟨r, some i⟩ with
  | none =>
    rw [hinsert] at h
    simp only at h
    split at h <;> cases h
  | some t'' =>
    rw [hinsert] at h
    cases h
    exact (Table.insert?_eq_some_iff.1 hinsert).2

/-! ### Committed rows -/

section Committed

variable {i : ℕ} {r a : ρ} {t t' : Versions ρ clash}

theorem mem_committed_iff : a ∈ t.committed ↔ ⟨a, none⟩ ∈ t.rows := by
  simp only [committed, List.mem_map, List.mem_filter, Option.isNone_iff_eq_none]
  constructor
  · rintro ⟨⟨row, writer⟩, ⟨hmem, rfl⟩, rfl⟩
    exact hmem
  · intro h
    exact ⟨_, ⟨h, rfl⟩, rfl⟩

/-- What is committed stays committed. -/
theorem mem_committed_insert (h : t.insert i r = .inserted t') (ha : a ∈ t.committed) :
    a ∈ t'.committed := by
  rw [mem_committed_iff, insert_eq_inserted h]
  exact List.mem_append_left _ (mem_committed_iff.1 ha)

theorem mem_committed_commit (ha : a ∈ t.committed) : a ∈ (t.commit i).committed := by
  refine mem_committed_iff.2 (List.mem_map.2 ⟨⟨a, none⟩, mem_committed_iff.1 ha, ?_⟩)
  simp

theorem mem_committed_rollback (ha : a ∈ t.committed) : a ∈ (t.rollback i).committed := by
  refine mem_committed_iff.2 (List.mem_filter.2 ⟨mem_committed_iff.1 ha, ?_⟩)
  simp

/-- Of two committed rows that clash there is one. -/
theorem eq_of_mem_committed {b : ρ} (hsymm : ∀ a b, clash a b = clash b a) (ha : a ∈ t.committed)
    (hb : b ∈ t.committed) (h : clash a b = true) : a = b := by
  have heq := Table.eq_of_clash (fun _ _ ↦ hsymm _ _) (mem_committed_iff.1 ha)
    (mem_committed_iff.1 hb) h
  exact congrArg Version.row heq

/-- A row is committed, or pending for the transaction that commits. -/
theorem mem_of_mem_committed_commit (ha : a ∈ (t.commit i).committed) :
    a ∈ t.committed ∨ ⟨a, some i⟩ ∈ t.rows := by
  obtain ⟨⟨row, writer⟩, hmem, heq⟩ := List.mem_map.1 (mem_committed_iff.1 ha)
  simp only at heq
  split at heq
  · rename_i hwriter
    cases heq
    rw [beq_iff_eq] at hwriter
    exact .inr (hwriter ▸ hmem)
  · cases heq
    exact .inl (mem_committed_iff.2 hmem)

end Committed

/-! ### Aggregates -/

/-- `SUM(f) WHERE p` over the committed rows. -/
def committedSum (p : ρ → Bool) (f : ρ → ℤ) (t : Versions ρ clash) : ℤ :=
  t.sumWhere (fun v ↦ v.writer.isNone && p v.row) fun v ↦ f v.row

/-- `SUM(f) WHERE p` over the rows transaction `i` has pending. -/
def pendingSum (i : ℕ) (p : ρ → Bool) (f : ρ → ℤ) (t : Versions ρ clash) : ℤ :=
  t.sumWhere (fun v ↦ v.writer == some i && p v.row) fun v ↦ f v.row

section Aggregates

variable {i j : ℕ} {r : ρ} {p : ρ → Bool} {f : ρ → ℤ} {t t' : Versions ρ clash}

theorem committedSum_eq : t.committedSum p f = ((t.committed.filter p).map f).sum := by
  rw [committedSum, Table.sumWhere, committed, List.filter_map, List.map_map, List.filter_filter]
  simp only [Function.comp_def, Bool.and_comm]

theorem committedSum_insert (h : t.insert i r = .inserted t') :
    t'.committedSum p f = t.committedSum p f := by
  rw [committedSum, Table.sumWhere_insert (insert_eq_inserted h)]
  simp [committedSum]

theorem pendingSum_insert (h : t.insert i r = .inserted t') :
    t'.pendingSum j p f = t.pendingSum j p f + if i = j ∧ p r = true then f r else 0 := by
  rw [pendingSum, Table.sumWhere_insert (insert_eq_inserted h)]
  simp [pendingSum]

/-- **A commit** moves what is pending to what is committed. -/
theorem committedSum_commit :
    (t.commit i).committedSum p f = t.committedSum p f + t.pendingSum i p f := by
  simp only [committedSum, pendingSum, Table.sumWhere_eq, commit, Table.updateMany, List.map_map]
  rw [← List.sum_map_add]
  refine congrArg List.sum (List.map_congr_left fun v _ ↦ ?_)
  by_cases hv : v.writer = some i
  · simp [hv]
  · simp [hv]

theorem pendingSum_commit :
    (t.commit i).pendingSum j p f = if i = j then 0 else t.pendingSum j p f := by
  simp only [pendingSum, Table.sumWhere_eq, commit, Table.updateMany, List.map_map]
  by_cases hij : i = j
  · subst hij
    rw [if_pos rfl]
    refine List.sum_eq_zero fun x hx ↦ ?_
    obtain ⟨v, -, rfl⟩ := List.mem_map.1 hx
    by_cases hv : v.writer = some i <;> simp [hv]
  · rw [if_neg hij]
    refine congrArg List.sum (List.map_congr_left fun v _ ↦ ?_)
    by_cases hv : v.writer = some i <;> simp [hv, hij]

theorem committedSum_rollback : (t.rollback i).committedSum p f = t.committedSum p f :=
  Table.sumWhere_deleteMany _ fun v _ hv ↦ by simp [beq_iff_eq.1 hv]

theorem pendingSum_rollback :
    (t.rollback i).pendingSum j p f = if i = j then 0 else t.pendingSum j p f := by
  by_cases hij : i = j
  · subst hij
    rw [if_pos rfl, pendingSum, Table.sumWhere, rollback, Table.deleteMany, List.filter_filter,
      List.filter_eq_nil_iff.2 fun v _ ↦ by by_cases hv : v.writer = some i <;> simp [hv]]
    rfl
  · rw [if_neg hij]
    refine Table.sumWhere_deleteMany _ fun v _ hv ↦ ?_
    simp [beq_iff_eq.1 hv, hij]

end Aggregates

end Versions
