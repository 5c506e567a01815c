import Mathlib.Data.Nat.Basic

/-!
# A database whose writers take one lock

Every transaction that writes takes the same lock first and keeps it to its end, so at most one is
open. It works on a view of its own, a copy of the committed contents made when it took the lock,
which a commit publishes and an abort drops. Between the request of a commit and its effect the
transaction can no longer write.
-/

universe u

/-- The open transaction. -/
structure Holder (δ : Type u) where
  owner : ℕ
  view : δ
  committing : Bool := false

/-- The committed contents and the open transaction. -/
structure Locked (δ : Type u) where
  db : δ
  holder : Option (Holder δ) := none

namespace Locked

variable {δ : Type u} (s : Locked δ) {id : ℕ} {view : δ} {hd : Holder δ}

/-- Take the lock, once it is free. -/
def acquire (id : ℕ) : Option (Locked δ) :=
  match s.holder with
  | none => some { s with holder := some { owner := id, view := s.db } }
  | some _ => none

/-- The view of an owner that can still write. -/
def view? (id : ℕ) : Option δ :=
  s.holder.bind fun hd ↦ if hd.owner = id ∧ hd.committing = false then some hd.view else none

/-- Replace the view of the open transaction. -/
def write (view : δ) : Locked δ :=
  { s with holder := s.holder.map fun hd ↦ { hd with view } }

/-- Ask for the commit of the open transaction. -/
def requestCommit : Locked δ :=
  { s with holder := s.holder.map fun hd ↦ { hd with committing := true } }

/-- The commit of an owner that asked for it takes effect. -/
def commit (id : ℕ) : Option (Locked δ) :=
  s.holder.bind fun hd ↦
    if hd.owner = id ∧ hd.committing = true then some { db := hd.view, holder := none } else none

/-- The transaction of an owner is dropped. -/
def abort (id : ℕ) : Option (Locked δ) :=
  s.holder.bind fun hd ↦ if hd.owner = id then some { s with holder := none } else none

/-! ### What the operations do -/

variable {s} {s' : Locked δ}

@[simp]
theorem write_db (view : δ) : (s.write view).db = s.db :=
  rfl

@[simp]
theorem requestCommit_db : s.requestCommit.db = s.db :=
  rfl

theorem write_holder (h : s.holder = some hd) :
    (s.write view).holder = some { hd with view } := by
  rw [write, h]
  rfl

theorem write_requestCommit_holder (h : s.holder = some hd) :
    (s.write view).requestCommit.holder = some { hd with view, committing := true } := by
  rw [requestCommit, write_holder h]
  rfl

theorem acquire_eq_some (h : s.acquire id = some s') :
    s.holder = none ∧ s' = { db := s.db, holder := some { owner := id, view := s.db } } := by
  unfold acquire at h
  split at h
  · rename_i hnone
    cases h
    exact ⟨hnone, rfl⟩
  · cases h

theorem view?_eq_some (h : s.view? id = some view) :
    s.holder = some { owner := id, view, committing := false } := by
  obtain ⟨hd, hhd, hview⟩ := Option.bind_eq_some_iff.1 h
  obtain ⟨⟨rfl, hcommitting⟩, heq⟩ := Option.ite_none_right_eq_some.1 hview
  cases heq
  rw [hhd, ← hcommitting]

theorem commit_eq_some (h : s.commit id = some s') :
    ∃ view, s.holder = some { owner := id, view, committing := true } ∧
      s' = { db := view, holder := none } := by
  obtain ⟨hd, hhd, hcommit⟩ := Option.bind_eq_some_iff.1 h
  obtain ⟨⟨rfl, hcommitting⟩, heq⟩ := Option.ite_none_right_eq_some.1 hcommit
  cases heq
  exact ⟨hd.view, by rw [hhd, ← hcommitting], rfl⟩

theorem abort_eq_some (h : s.abort id = some s') :
    (∃ hd, s.holder = some hd ∧ hd.owner = id) ∧ s' = { db := s.db, holder := none } := by
  obtain ⟨hd, hhd, habort⟩ := Option.bind_eq_some_iff.1 h
  obtain ⟨howner, heq⟩ := Option.ite_none_right_eq_some.1 habort
  cases heq
  exact ⟨⟨hd, hhd, howner⟩, rfl⟩

end Locked
