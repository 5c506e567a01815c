import ModelConnector.Billing.Store

/-!
# The statements of the billing service

One definition for each statement the service issues, under the name of the table and of the
Prisma operation, and for each its **inversion**: what the store looked like when the statement
went through, and what it looks like after. The specifications of the transactions are put
together from these and never unfold a statement.
-/

namespace ModelConnector.Billing

open Atomic

/-- A statement of a transaction, or a whole one, on the billing store. -/
abbrev Tx (α : Type) : Type :=
  Atomic Db TxError α

/-! ### `credits_ledger` -/

/-- The row an insertion stores. -/
def LedgerEntry.toRow (data : LedgerEntry ℚ) (amountUsd : ℤ) : LedgerRow :=
  { data with amountUsd }

/-- `tx.creditsLedger.create`. -/
def creditsLedgerCreate (data : LedgerEntry ℚ) : Tx Unit := do
  let amountUsd ← ofExcept (storeDecimal 12 data.amountUsd)
  require (data.toRow amountUsd).checks .checkViolation
  let ledger ← read Db.ledger
  match ledger.insert? (data.toRow amountUsd) with
  | some ledger => modify fun db ↦ { db with ledger }
  | none => refuse .duplicateKey

/-- `tx.creditsLedger.findUnique` on `idempotencyKey`. -/
def creditsLedgerFindUnique (idempotencyKey : String) : Tx (Option LedgerRow) :=
  read fun db ↦ db.ledger.find? fun row ↦ row.idempotencyKey == idempotencyKey

/-- `tx.creditsLedger.findMany` on `reversalOf`, the amounts only. -/
def creditsLedgerReversals (originalKey : String) : Tx (List ℤ) :=
  read fun db ↦
    (db.ledger.rows.filter fun row ↦ row.reversalOf == some originalKey).map
      LedgerEntry.amountUsd

/-- **A movement of money.** The ledger got new rows and the balance of one key a new value;
every reservation, intent and request is as before. -/
structure Movement (apiKeyId : String) (rows : List LedgerRow) (balanceUsd : ℤ) (db db' : Db) :
    Prop where
  rows : db'.ledger.rows = db.ledger.rows ++ rows
  moved : (db'.balanceOf apiKeyId : ℤ) = balanceUsd
  others : ∀ k, k ≠ apiKeyId → db'.balanceOf k = db.balanceOf k
  held : ∀ k, db'.heldOf k = db.heldOf k
  intents : db'.intents = db.intents
  requests : db'.requests = db.requests

namespace Movement

variable {k : String} {rows₁ rows₂ : List LedgerRow} {b₁ b₂ : ℤ} {db db₁ db₂ : Db}

theorem refl (k : String) (db : Db) : Movement k [] (db.balanceOf k) db db :=
  ⟨(List.append_nil _).symm, rfl, fun _ _ ↦ rfl, fun _ ↦ rfl, rfl, rfl⟩

/-- Movements on one key compose. -/
theorem trans (h₁ : Movement k rows₁ b₁ db db₁) (h₂ : Movement k rows₂ b₂ db₁ db₂) :
    Movement k (rows₁ ++ rows₂) b₂ db db₂ where
  rows := by rw [h₂.rows, h₁.rows, List.append_assoc]
  moved := h₂.moved
  others := fun k' hk ↦ by rw [h₂.others k' hk, h₁.others k' hk]
  held := fun k' ↦ by rw [h₂.held, h₁.held]
  intents := by rw [h₂.intents, h₁.intents]
  requests := by rw [h₂.requests, h₁.requests]

end Movement

theorem creditsLedgerCreate_ok {data : LedgerEntry ℚ} {db db' : Db} {u : Unit}
    (h : creditsLedgerCreate data db = .ok (u, db')) :
    (∀ row ∈ db.ledger.rows, row.idempotencyKey ≠ data.idempotencyKey) ∧
      ∀ k, Movement k [data.toRow (toMicros data.amountUsd)] (db.balanceOf k) db db' := by
  unfold creditsLedgerCreate at h
  simp only [bind_eq_ok_iff, ofExcept_eq_ok_iff, require_eq_ok_iff, read_eq_ok_iff] at h
  obtain ⟨amountUsd, _, ⟨hstore, rfl⟩, _, _, ⟨-, rfl⟩, ledger, _, ⟨rfl, rfl⟩, h⟩ := h
  rw [storeDecimal_eq_ok hstore] at h
  cases hinsert : db.ledger.insert? (data.toRow (toMicros data.amountUsd)) with
  | none =>
    rw [hinsert] at h
    simp at h
  | some ledger =>
    obtain ⟨hfresh, hrows⟩ := Table.insert?_eq_some_iff.1 hinsert
    rw [hinsert] at h
    simp only [modify_eq_ok_iff] at h
    subst h
    refine ⟨fun row hrow ↦ ?_, fun k ↦ ⟨hrows, rfl, fun _ _ ↦ rfl, fun _ ↦ rfl, rfl, rfl⟩⟩
    simpa [LedgerRow.clash, LedgerEntry.toRow] using hfresh row hrow

/-- What is inserted fits its column. -/
theorem creditsLedgerCreate_fits {data : LedgerEntry ℚ} {db db' : Db} {u : Unit}
    (h : creditsLedgerCreate data db = .ok (u, db')) :
    (toMicros data.amountUsd).natAbs < 10 ^ 12 := by
  rw [creditsLedgerCreate, bind_eq_ok_iff] at h
  obtain ⟨amountUsd, _, hstore, -⟩ := h
  obtain ⟨hstore, -⟩ := ofExcept_eq_ok_iff.1 hstore
  by_contra hbig
  rw [storeDecimal, if_neg hbig] at hstore
  cases hstore

/-- The same for an insertion that only happens under a condition. -/
theorem onlyIf_creditsLedgerCreate_ok {b : Bool} {data : LedgerEntry ℚ} {db db' : Db} {u : Unit}
    (h : onlyIf b (creditsLedgerCreate data) db = .ok (u, db')) (k : String) :
    Movement k (if b then [data.toRow (toMicros data.amountUsd)] else []) (db.balanceOf k)
      db db' := by
  rcases onlyIf_eq_ok_iff.1 h with ⟨rfl, h⟩ | ⟨rfl, rfl⟩
  · exact (creditsLedgerCreate_ok h).2 k
  · exact .refl k db

/-- An insertion that fits its column, passes the checks and clashes with no row goes through. -/
theorem creditsLedgerCreate_of_fresh (data : LedgerEntry ℚ) (db : Db)
    (hfits : (toMicros data.amountUsd).natAbs < 10 ^ 12)
    (hchecks : (data.toRow (toMicros data.amountUsd)).checks = true)
    (hfresh : ∀ row ∈ db.ledger.rows, row.idempotencyKey ≠ data.idempotencyKey) :
    ∃ ledger, creditsLedgerCreate data db = .ok ((), { db with ledger }) ∧
      ledger.rows = db.ledger.rows ++ [data.toRow (toMicros data.amountUsd)] := by
  have hstore : storeDecimal 12 data.amountUsd = .ok (toMicros data.amountUsd) := if_pos hfits
  have hread : (read Db.ledger : Tx _) db = .ok (db.ledger, db) := rfl
  cases hinsert : db.ledger.insert? (data.toRow (toMicros data.amountUsd)) with
  | none =>
    obtain ⟨row, hrow, hclash⟩ := Table.insert?_eq_none_iff.1 hinsert
    simp only [LedgerRow.clash, LedgerEntry.toRow, beq_iff_eq] at hclash
    exact absurd hclash (hfresh row hrow)
  | some ledger =>
    refine ⟨ledger, ?_, (Table.insert?_eq_some_iff.1 hinsert).2⟩
    rw [creditsLedgerCreate, bind_of_ok (ofExcept_of_ok hstore), bind_of_ok (require_of_true hchecks),
      bind_of_ok hread, hinsert]
    rfl

/-! ### `credits_balance` -/

/-- `tx.creditsBalance.upsert` that creates an empty row and updates nothing. -/
def creditsBalanceEnsure (apiKeyId : String) : Tx Unit :=
  modify fun db ↦ db.setBalance apiKeyId (db.balanceRow apiKeyId)

/-- `SELECT balance_usd, held_usd … FOR UPDATE`, with the `?? 0` of its reader. -/
def creditsBalanceLock (apiKeyId : String) : Tx BalanceRow :=
  read fun db ↦ db.balanceRow apiKeyId

/-- `tx.creditsBalance.update` with a `decrement` of `balanceUsd`. -/
def creditsBalanceDecrement (apiKeyId : String) (amountUsd : ℚ) : Tx Unit := do
  let found ← read fun db ↦ db.balances apiKeyId
  match found with
  | none => refuse .recordNotFound
  | some row =>
    let balanceUsd ← ofExcept (storeNonneg 12 (ofMicros row.balanceUsd - amountUsd))
    modify fun db ↦ db.setBalance apiKeyId { row with balanceUsd }

/-- `tx.creditsBalance.upsert` that creates the row with the amount or increments it. -/
def creditsBalanceIncrement (apiKeyId : String) (amountUsd : ℚ) : Tx Unit := do
  let row ← read fun db ↦ db.balanceRow apiKeyId
  let balanceUsd ← ofExcept (storeNonneg 12 (ofMicros row.balanceUsd + amountUsd))
  modify fun db ↦ db.setBalance apiKeyId { row with balanceUsd }

/-- The conditional `UPDATE` of a reservation; the number of rows it moved. -/
def creditsBalanceReserve (apiKeyId : String) (hold : ℕ) : Tx ℕ := do
  let found ← read fun db ↦ db.balances apiKeyId
  match found with
  | none => pure 0
  | some row =>
    if row.heldUsd + hold ≤ row.balanceUsd then do
      modify fun db ↦ db.setBalance apiKeyId { row with heldUsd := row.heldUsd + hold }
      pure 1
    else pure 0

/-- The `UPDATE` of a release: `held_usd = GREATEST(held_usd - hold, 0)`. -/
def creditsBalanceRelease (apiKeyId : String) (hold : ℕ) : Tx Unit := do
  let found ← read fun db ↦ db.balances apiKeyId
  match found with
  | none => pure ()
  | some row =>
    modify fun db ↦ db.setBalance apiKeyId { row with heldUsd := row.heldUsd - hold }

/-- Only balance rows changed: the row of one key reads as `row`, the others as before. -/
structure BalanceSet (apiKeyId : String) (row : BalanceRow) (db db' : Db) : Prop where
  row : ∀ k, db'.balanceRow k = if k = apiKeyId then row else db.balanceRow k
  ledger : db'.ledger = db.ledger
  intents : db'.intents = db.intents
  requests : db'.requests = db.requests

theorem BalanceSet.setBalance (apiKeyId : String) (row : BalanceRow) (db : Db) :
    BalanceSet apiKeyId row db (db.setBalance apiKeyId row) :=
  ⟨fun k ↦ db.balanceRow_setBalance apiKeyId k row, rfl, rfl, rfl⟩

theorem BalanceSet.refl (apiKeyId : String) (db : Db) :
    BalanceSet apiKeyId (db.balanceRow apiKeyId) db db :=
  ⟨fun k ↦ by
    split
    · rename_i h
      rw [h]
    · rfl, rfl, rfl, rfl⟩

theorem balanceRow_of_balances {db : Db} {apiKeyId : String} {row : BalanceRow}
    (h : db.balances apiKeyId = some row) : db.balanceRow apiKeyId = row := by
  rw [Db.balanceRow, h, Option.getD_some]

/-- Setting a key's balance and not its reservation is a movement without ledger rows. -/
theorem BalanceSet.movement {apiKeyId : String} {balanceUsd : ℕ} {db db' : Db}
    (h : BalanceSet apiKeyId ⟨balanceUsd, db.heldOf apiKeyId⟩ db db') :
    Movement apiKeyId [] balanceUsd db db' where
  rows := by rw [h.ledger, List.append_nil]
  moved := by simp only [Db.balanceOf, h.row, if_pos]
  others := fun k hk ↦ by simp only [Db.balanceOf, h.row, if_neg hk]
  held := fun k ↦ by
    simp only [Db.heldOf, h.row]
    split
    · rename_i hk
      rw [hk]
    · rfl
  intents := h.intents
  requests := h.requests

theorem creditsBalanceEnsure_ok {apiKeyId : String} {db db' : Db} {u : Unit}
    (h : creditsBalanceEnsure apiKeyId db = .ok (u, db')) :
    Movement apiKeyId [] (db.balanceOf apiKeyId) db db' := by
  rw [creditsBalanceEnsure, modify_eq_ok_iff] at h
  subst h
  exact (BalanceSet.setBalance apiKeyId (db.balanceRow apiKeyId) db).movement

theorem creditsBalanceDecrement_ok {apiKeyId : String} {amountUsd : ℚ} {db db' : Db} {u : Unit}
    (h : creditsBalanceDecrement apiKeyId amountUsd db = .ok (u, db')) :
    Movement apiKeyId [] (toMicros (ofMicros (db.balanceOf apiKeyId) - amountUsd)) db db' := by
  simp only [creditsBalanceDecrement, bind_eq_ok_iff, read_eq_ok_iff] at h
  obtain ⟨found, _, ⟨hfound, rfl⟩, h⟩ := h
  cases found with
  | none => simp at h
  | some row =>
    simp only [bind_eq_ok_iff, ofExcept_eq_ok_iff, modify_eq_ok_iff] at h
    obtain ⟨balanceUsd, _, ⟨hstore, rfl⟩, rfl⟩ := h
    rw [Db.balanceOf, balanceRow_of_balances hfound, ← storeNonneg_eq_ok hstore]
    refine BalanceSet.movement ?_
    rw [Db.heldOf, balanceRow_of_balances hfound]
    exact .setBalance _ _ _

/-- A decrement of no more than the balance goes through. -/
theorem creditsBalanceDecrement_of_le {apiKeyId : String} {amountUsd : ℚ} {row : BalanceRow}
    {db : Db} (hrow : db.balances apiKeyId = some row) (hfits : row.balanceUsd < 10 ^ 12)
    (hnonneg : 0 ≤ amountUsd) (hle : amountUsd ≤ ofMicros row.balanceUsd) :
    ∃ db', creditsBalanceDecrement apiKeyId amountUsd db = .ok ((), db') := by
  have hpos : 0 ≤ toMicros (ofMicros row.balanceUsd - amountUsd) := toMicros_nonneg (by linarith)
  have hmicros : toMicros (ofMicros row.balanceUsd - amountUsd) ≤ row.balanceUsd := by
    calc toMicros (ofMicros row.balanceUsd - amountUsd)
        ≤ toMicros (ofMicros row.balanceUsd) := toMicros_mono (by linarith)
      _ = row.balanceUsd := toMicros_ofMicros _
  have hstore : storeNonneg 12 (ofMicros row.balanceUsd - amountUsd) =
      .ok (toMicros (ofMicros row.balanceUsd - amountUsd)).toNat := by
    rw [storeNonneg, if_pos (by omega), if_pos hpos]
  have hread : (read fun db ↦ db.balances apiKeyId : Tx _) db = .ok (some row, db) := by
    rw [← hrow]
    rfl
  refine ⟨db.setBalance apiKeyId
    { row with balanceUsd := (toMicros (ofMicros row.balanceUsd - amountUsd)).toNat }, ?_⟩
  rw [creditsBalanceDecrement, bind_of_ok hread]
  exact bind_of_ok (ofExcept_of_ok hstore)

/-- The same for a decrement that only happens when it is positive. -/
theorem onlyIf_creditsBalanceDecrement_ok {apiKeyId : String} {amountUsd : ℚ} {db db' : Db}
    {u : Unit} (hnonneg : 0 ≤ amountUsd)
    (h : onlyIf (decide (0 < amountUsd)) (creditsBalanceDecrement apiKeyId amountUsd) db
      = .ok (u, db')) :
    Movement apiKeyId [] (toMicros (ofMicros (db.balanceOf apiKeyId) - amountUsd)) db db' := by
  rcases onlyIf_eq_ok_iff.1 h with ⟨-, h⟩ | ⟨hzero, rfl⟩
  · exact creditsBalanceDecrement_ok h
  · rw [le_antisymm (not_lt.1 (of_decide_eq_false hzero)) hnonneg, sub_zero, toMicros_ofMicros]
    exact .refl apiKeyId db

theorem creditsBalanceIncrement_ok {apiKeyId : String} {amountUsd : ℚ} {db db' : Db} {u : Unit}
    (h : creditsBalanceIncrement apiKeyId amountUsd db = .ok (u, db')) :
    Movement apiKeyId [] (toMicros (ofMicros (db.balanceOf apiKeyId) + amountUsd)) db db' := by
  simp only [creditsBalanceIncrement, bind_eq_ok_iff, read_eq_ok_iff, ofExcept_eq_ok_iff,
    modify_eq_ok_iff] at h
  obtain ⟨row, _, ⟨rfl, rfl⟩, balanceUsd, _, ⟨hstore, rfl⟩, rfl⟩ := h
  rw [Db.balanceOf, ← storeNonneg_eq_ok hstore]
  exact (BalanceSet.setBalance _ _ _).movement

theorem creditsBalanceReserve_ok {apiKeyId : String} {hold moved : ℕ} {db db' : Db}
    (h : creditsBalanceReserve apiKeyId hold db = .ok (moved, db')) (hmoved : moved = 1) :
    db.heldOf apiKeyId + hold ≤ db.balanceOf apiKeyId ∧
      BalanceSet apiKeyId ⟨db.balanceOf apiKeyId, db.heldOf apiKeyId + hold⟩ db db' := by
  simp only [creditsBalanceReserve, bind_eq_ok_iff, read_eq_ok_iff] at h
  obtain ⟨found, _, ⟨hfound, rfl⟩, h⟩ := h
  cases found with
  | none =>
    obtain ⟨rfl, -⟩ := pure_eq_ok_iff.1 h
    simp at hmoved
  | some row =>
    have hrow := balanceRow_of_balances hfound
    simp only [Db.balanceOf, Db.heldOf, hrow]
    by_cases hfits : row.heldUsd + hold ≤ row.balanceUsd
    · simp only [if_pos hfits, bind_eq_ok_iff, modify_eq_ok_iff, pure_eq_ok_iff] at h
      obtain ⟨_, _, rfl, -, rfl⟩ := h
      exact ⟨hfits, .setBalance _ _ _⟩
    · simp only [if_neg hfits, pure_eq_ok_iff] at h
      omega

theorem creditsBalanceRelease_ok {apiKeyId : String} {hold : ℕ} {db db' : Db} {u : Unit}
    (h : creditsBalanceRelease apiKeyId hold db = .ok (u, db')) :
    BalanceSet apiKeyId ⟨db.balanceOf apiKeyId, db.heldOf apiKeyId - hold⟩ db db' := by
  simp only [creditsBalanceRelease, bind_eq_ok_iff, read_eq_ok_iff] at h
  obtain ⟨found, _, ⟨hfound, rfl⟩, h⟩ := h
  cases found with
  | none =>
    obtain ⟨-, rfl⟩ := pure_eq_ok_iff.1 h
    have hrow : db.balanceRow apiKeyId = ⟨0, 0⟩ := by rw [Db.balanceRow, hfound, Option.getD_none]
    have hrefl := BalanceSet.refl apiKeyId db
    rw [hrow] at hrefl
    simpa [Db.balanceOf, Db.heldOf, hrow] using hrefl
  | some row =>
    have hrow := balanceRow_of_balances hfound
    simp only [Db.balanceOf, Db.heldOf, hrow]
    rw [modify_eq_ok_iff] at h
    subst h
    exact .setBalance _ _ _

/-! ### `billing_intents` and `Request` -/

/-- `tx.requestIntent.create`. -/
def requestIntentCreate (row : IntentRow) : Tx Unit := do
  let intents ← read Db.intents
  match intents.insert? row with
  | some intents => modify fun db ↦ { db with intents }
  | none => refuse .duplicateKey

/-- What an update of an intent may write: none of the unique columns. -/
structure IntentUpdate where
  state : IntentState
  holdUsd : Option ℕ := none
  expiresAt : Option ℤ := none
  /-- `none` leaves the column alone, `some none` writes `NULL`. -/
  requestId : Option (Option String) := none
  response : Option (Option String) := none
  completedAt : Option ℤ

/-- The row after an update. -/
def IntentUpdate.apply (data : IntentUpdate) (row : IntentRow) : IntentRow :=
  { row with
    state := data.state
    holdUsd := data.holdUsd.getD row.holdUsd
    expiresAt := data.expiresAt.getD row.expiresAt
    requestId := data.requestId.getD row.requestId
    response := data.response.getD row.response
    completedAt := data.completedAt }

theorem IntentUpdate.clash_apply (data : IntentUpdate) (a b : IntentRow) :
    IntentRow.clash (data.apply a) b = IntentRow.clash a b ∧
      IntentRow.clash a (data.apply b) = IntentRow.clash a b :=
  ⟨rfl, rfl⟩

/-- The guard `id = … AND state IN (…)`. -/
def IntentRow.matches (id : String) (states : List IntentState) (row : IntentRow) : Bool :=
  row.id == id && states.contains row.state

/-- The intents after `updateMany` with the guard `id = … AND state IN (…)`. -/
def Db.updateIntents (db : Db) (id : String) (states : List IntentState) (data : IntentUpdate) :
    Db :=
  { db with
    intents := db.intents.updateMany (IntentRow.matches id states) data.apply data.clash_apply }

/-- `tx.requestIntent.updateMany` with the guard `id = … AND state IN (…)`; the count of the rows
it updated. -/
def requestIntentUpdateMany (id : String) (states : List IntentState) (data : IntentUpdate) :
    Tx ℕ := do
  let count ← read fun db ↦ db.intents.count (IntentRow.matches id states)
  modify fun db ↦ db.updateIntents id states data
  pure count

/-- `tx.requestIntent.findUnique` on `(apiKeyId, intentKey)`. -/
def Db.requestIntentFindUnique (db : Db) (apiKeyId intentKey : String) : Option IntentRow :=
  db.intents.find? fun row ↦ row.apiKeyId == apiKeyId && row.intentKey == intentKey

/-- `tx.request.create`. -/
def requestCreate (row : RequestRow) : Tx Unit := do
  let requests ← read Db.requests
  match requests.insert? row with
  | some requests => modify fun db ↦ { db with requests }
  | none => refuse .duplicateKey

theorem requestIntentUpdateMany_ok {id : String} {states : List IntentState} {data : IntentUpdate}
    {db db' : Db} {count : ℕ}
    (h : requestIntentUpdateMany id states data db = .ok (count, db')) :
    count = db.intents.count (IntentRow.matches id states) ∧
      db' = db.updateIntents id states data := by
  simp only [requestIntentUpdateMany, bind_eq_ok_iff, read_eq_ok_iff, modify_eq_ok_iff,
    pure_eq_ok_iff] at h
  obtain ⟨_, _, ⟨rfl, rfl⟩, _, _, rfl, rfl, rfl⟩ := h
  exact ⟨rfl, rfl⟩

end ModelConnector.Billing
