import ModelConnector.Bench.Store

/-!
# The chain of reservations

`Chained base rows h` says that the rows are the reservations that lead from the head `base` to the
head `h`, in order, each with the digest of the head before it. The chain determines the head, and
the counters of the head are those of the base and everything reserved since.
-/

namespace ModelConnector.Bench

/-! ### Counters are told apart by their texts -/

theorem nat_injective {n m : ℕ} (h : Json.nat n = Json.nat m) : n = m :=
  JsonNumber.ofNat_injective (Json.num.inj h)

theorem countersJson_injective {a b : Counters} (h : countersJson a = countersJson b) : a = b := by
  simp only [countersJson, Json.arr.injEq, List.cons.injEq, and_true] at h
  obtain ⟨hattempts, hinput, houtput⟩ := h
  exact Counters.ext (nat_injective hattempts) (nat_injective hinput) (nat_injective houtput)

/-! ### Chains -/

section Chained

variable {sha256 : String → String}

/-- The number of attempts stays the position when one attempt is reserved. -/
theorem succHead_attempts {h : Head} {request : ReservationRequest}
    (hattempts : h.aggregate.attempts = h.sequence) (hone : request.reserved.attempts = 1) :
    (succHead sha256 h request).aggregate.attempts = (succHead sha256 h request).sequence := by
  change h.aggregate.attempts + request.reserved.attempts = h.sequence + 1
  rw [hattempts, hone]

/-- The row is the reservation of its request after a head. -/
structure ReservationRow.Follows (sha256 : String → String) (row : ReservationRow) (h : Head) :
    Prop where
  campaign_eq : row.campaign = h.campaign
  attempt_eq : row.attempt = row.request.attempt
  nonce_eq : row.nonce = row.request.nonce
  sequence_eq : row.sequence = h.sequence + 1
  previous_eq : row.previous_head_sha256 = h.head
  head_eq : row.head_sha256 = (succHead sha256 h row.request).head
  attempts_eq : row.request.reserved.attempts = 1

/-- The rows lead from the base to a head. -/
inductive Chained (sha256 : String → String) (base : Head) : List ReservationRow → Head → Prop
  | nil : Chained sha256 base [] base
  | snoc {rows : List ReservationRow} {h : Head} {row : ReservationRow} :
      Chained sha256 base rows h → row.Follows sha256 h →
        Chained sha256 base (rows ++ [row]) (succHead sha256 h row.request)

namespace Chained

variable {base h h' : Head} {rows rest : List ReservationRow}

/-- The rows determine the head. -/
theorem head_eq (hc : Chained sha256 base rows h) :
    h = (rows.map ReservationRow.request).foldl (succHead sha256) base := by
  induction hc with
  | nil => rfl
  | snoc _ _ ih => rw [List.map_append, List.foldl_append, ← ih, List.map_singleton,
      List.foldl_cons, List.foldl_nil]

theorem head_unique (hc : Chained sha256 base rows h) (hc' : Chained sha256 base rows h') :
    h = h' := by
  rw [hc.head_eq, hc'.head_eq]

theorem sequence_eq (hc : Chained sha256 base rows h) :
    h.sequence = base.sequence + rows.length := by
  induction hc with
  | nil => rfl
  | snoc _ _ ih =>
    rw [List.length_append, List.length_singleton, ← Nat.add_assoc, ← ih]
    rfl

theorem aggregate_eq (hc : Chained sha256 base rows h) :
    h.aggregate = base.aggregate + (rows.map fun row ↦ row.request.reserved).sum := by
  induction hc with
  | nil => simp
  | @snoc rows h row _ _ ih =>
    rw [List.map_append, List.sum_append, ← add_assoc, ← ih, List.map_singleton,
      List.sum_singleton]
    rfl

theorem campaign_eq (hc : Chained sha256 base rows h) : h.campaign = base.campaign := by
  induction hc with
  | nil => rfl
  | snoc _ _ ih => exact ih

/-- The number of attempts stays the position in the chain. -/
theorem attempts_eq (hc : Chained sha256 base rows h)
    (hbase : base.aggregate.attempts = base.sequence) : h.aggregate.attempts = h.sequence := by
  induction hc with
  | nil => exact hbase
  | snoc _ hrow ih => exact succHead_attempts ih hrow.attempts_eq

/-- The counters only grow along the chain. -/
theorem aggregate_le (hc : Chained sha256 base rows h)
    (hc' : Chained sha256 base (rows ++ rest) h') : h.aggregate ≤ h'.aggregate := by
  rw [hc.aggregate_eq, hc'.aggregate_eq, List.map_append, List.sum_append, ← add_assoc]
  exact Counters.le_add_right _ _

/-- Every reservation has its position after the base. -/
theorem sequence_of_mem (hc : Chained sha256 base rows h) :
    ∀ row ∈ rows, row.campaign = base.campaign ∧ row.sequence ≤ h.sequence := by
  induction hc with
  | nil => simp
  | @snoc rows h row hc hrow ih =>
    intro r hr
    rcases List.mem_append.1 hr with hr | hr
    · exact ⟨(ih r hr).1, (ih r hr).2.trans (Nat.le_succ _)⟩
    · cases List.mem_singleton.1 hr
      exact ⟨hrow.campaign_eq.trans hc.campaign_eq, hrow.sequence_eq.le⟩

end Chained

/-! ### Places in a chain -/

/-- The row stands among the rows, right after the head `previous`. -/
def Placed (sha256 : String → String) (base : Head) (rows : List ReservationRow)
    (previous : Head) (row : ReservationRow) : Prop :=
  row.Follows sha256 previous ∧
    ∃ before after, rows = before ++ row :: after ∧ Chained sha256 base before previous

namespace Placed

variable {base previous previous' : Head} {rows : List ReservationRow}
  {row row' : ReservationRow}

theorem mem (hp : Placed sha256 base rows previous row) : row ∈ rows := by
  obtain ⟨-, before, after, rfl, -⟩ := hp
  simp

theorem append (hp : Placed sha256 base rows previous row) (rest : List ReservationRow) :
    Placed sha256 base (rows ++ rest) previous row := by
  obtain ⟨hrow, before, after, rfl, hc⟩ := hp
  exact ⟨hrow, before, after ++ rest, by simp, hc⟩

/-- Of two reservations the later one extends the earlier one. -/
theorem extends_of_lt (hp : Placed sha256 base rows previous row)
    (hp' : Placed sha256 base rows previous' row') (hlt : row.sequence < row'.sequence) :
    (succHead sha256 previous row.request).aggregate ≤ previous'.aggregate ∧
      (row'.sequence = row.sequence + 1 → previous' = succHead sha256 previous row.request) := by
  obtain ⟨hrow, before, after, hrows, hc⟩ := hp
  obtain ⟨hrow', before', after', hrows', hc'⟩ := hp'
  have hlength : before.length < before'.length := by
    rw [hrow.sequence_eq, hrow'.sequence_eq, hc.sequence_eq, hc'.sequence_eq] at hlt
    omega
  have hprefix : before ++ [row] <+: before' := by
    have hshort : before ++ [row] <+: rows := ⟨after, by simp [hrows]⟩
    refine List.prefix_of_prefix_length_le hshort ⟨row' :: after', hrows'.symm⟩ ?_
    simpa using Nat.succ_le_of_lt hlength
  obtain ⟨rest, rfl⟩ := hprefix
  have hnext := hc.snoc hrow
  refine ⟨hnext.aggregate_le hc', fun hsucc ↦ ?_⟩
  have hrest : rest = [] := by
    rw [hrow.sequence_eq, hrow'.sequence_eq, hc.sequence_eq, hc'.sequence_eq] at hsucc
    simp only [List.length_append, List.length_singleton] at hsucc
    exact List.eq_nil_of_length_eq_zero (by omega)
  subst hrest
  rw [List.append_nil] at hc'
  exact hc'.head_unique hnext

end Placed

end Chained

end ModelConnector.Bench
