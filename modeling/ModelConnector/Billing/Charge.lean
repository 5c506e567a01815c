import ModelConnector.Billing.Statements

/-!
# Charging

`chargeInTx` is the one place a charge is written. The ledger row goes in first and in full; the
balance is then locked and decremented by what it can cover, and the part it cannot cover is
written off in a second ledger row. `Charged` is the specification every path that charges —
`settle`, `settleIntent`, the reconciler — is proved from.
-/

namespace ModelConnector.Billing

open Atomic

/-- The part of an amount that an available sum covers: `amount > available ? available : amount`.
-/
def coveredBy (available amount : ℚ) : ℚ :=
  if available < amount then available else amount

theorem coveredBy_le_available (available amount : ℚ) : coveredBy available amount ≤ available := by
  unfold coveredBy
  split <;> linarith

theorem coveredBy_le (available amount : ℚ) : coveredBy available amount ≤ amount := by
  unfold coveredBy
  split_ifs <;> linarith

theorem coveredBy_nonneg {available amount : ℚ} (h : 0 ≤ available) (h' : 0 ≤ amount) :
    0 ≤ coveredBy available amount := by
  unfold coveredBy
  split <;> assumption

theorem coveredBy_of_le {available amount : ℚ} (h : amount ≤ available) :
    coveredBy available amount = amount :=
  if_neg h.not_gt

theorem coveredBy_of_lt {available amount : ℚ} (h : available < amount) :
    coveredBy available amount = available :=
  if_pos h

theorem coveredBy_lt_iff {available amount : ℚ} :
    coveredBy available amount < amount ↔ available < amount := by
  unfold coveredBy
  split_ifs with h
  · exact Iff.rfl
  · exact iff_of_false (lt_irrefl _) h

/-- What `chargeInTx` is given. -/
structure ChargeEntry where
  apiKeyId : String
  amountUsd : ℚ
  idempotencyKey : String
  writeOffKey : String
  requestId : Option String
  reason : String
  deriving DecidableEq

namespace ChargeEntry

/-- The ledger row of a charge, always of the full amount. -/
def charge (entry : ChargeEntry) : LedgerEntry ℚ where
  apiKeyId := entry.apiKeyId
  amountUsd := -entry.amountUsd
  idempotencyKey := entry.idempotencyKey
  requestId := entry.requestId
  reason := entry.reason
  entryType := .charge

/-- The ledger row that writes off what the balance cannot cover. -/
def writeOff (entry : ChargeEntry) (uncollectible : ℚ) : LedgerEntry ℚ where
  apiKeyId := entry.apiKeyId
  amountUsd := uncollectible
  idempotencyKey := entry.writeOffKey
  requestId := entry.requestId
  reason := "uncollectible:" ++ entry.reason
  entryType := .uncollectible

/-- The rows a charge leaves in the ledger of a key with the given balance. -/
def rows (entry : ChargeEntry) (current : ℚ) : List LedgerRow :=
  let uncollectible := Decimal.minus entry.amountUsd (coveredBy current entry.amountUsd)
  entry.charge.toRow (toMicros (-entry.amountUsd)) ::
    if 0 < uncollectible then [(entry.writeOff uncollectible).toRow (toMicros uncollectible)] else []

end ChargeEntry

/-- `BillingService.chargeInTx`. -/
def chargeInTx (entry : ChargeEntry) : Tx Bool := do
  -- the unique index rejects a replay here, before any balance has moved
  creditsLedgerCreate entry.charge
  creditsBalanceEnsure entry.apiKeyId
  let locked ← creditsBalanceLock entry.apiKeyId
  let current := ofMicros locked.balanceUsd
  let collectible := coveredBy current entry.amountUsd
  let uncollectible := Decimal.minus entry.amountUsd collectible
  onlyIf (decide (0 < uncollectible)) (creditsLedgerCreate (entry.writeOff uncollectible))
  onlyIf (decide (0 < collectible)) (creditsBalanceDecrement entry.apiKeyId collectible)
  pure true

/-- A charge was written: the ledger rows, and the balance less the part it could cover. -/
structure Charged (entry : ChargeEntry) (db db' : Db) : Prop where
  /-- The key had not been used. -/
  fresh : ∀ row ∈ db.ledger.rows, row.idempotencyKey ≠ entry.idempotencyKey
  /-- The amount fits its column. -/
  fits : toMicros entry.amountUsd < 10 ^ 12
  movement : Movement entry.apiKeyId (entry.rows (ofMicros (db.balanceOf entry.apiKeyId)))
    (toMicros (ofMicros (db.balanceOf entry.apiKeyId) -
      coveredBy (ofMicros (db.balanceOf entry.apiKeyId)) entry.amountUsd)) db db'

theorem chargeInTx_ok (entry : ChargeEntry) {db db' : Db} {ok : Bool}
    (hamount : 0 ≤ entry.amountUsd) (h : chargeInTx entry db = .ok (ok, db')) :
    ok = true ∧ Charged entry db db' := by
  simp only [chargeInTx, bind_eq_ok_iff, creditsBalanceLock, read_eq_ok_iff] at h
  obtain ⟨_, db₁, hcharge, _, db₂, hensure, _, _, ⟨rfl, rfl⟩, _, db₃, hoff, _, db₄, hdec, hpure⟩ := h
  obtain ⟨rfl, rfl⟩ := pure_eq_ok_iff.1 hpure
  have hfits := creditsLedgerCreate_fits hcharge
  simp only [ChargeEntry.charge, toMicros_neg] at hfits
  obtain ⟨hfresh, hcharge⟩ := creditsLedgerCreate_ok hcharge
  have hlocked := (hcharge entry.apiKeyId).trans (creditsBalanceEnsure_ok hensure)
  have hbalance : db₂.balanceOf entry.apiKeyId = db.balanceOf entry.apiKeyId := by
    have hmoved := hlocked.moved
    rw [(hcharge entry.apiKeyId).moved] at hmoved
    exact_mod_cast hmoved
  rw [← Db.balanceOf, hbalance] at hoff hdec
  have hoff := onlyIf_creditsLedgerCreate_ok hoff entry.apiKeyId
  have hbalance₃ : db₃.balanceOf entry.apiKeyId = db.balanceOf entry.apiKeyId := by
    rw [← hbalance]
    exact_mod_cast hoff.moved
  have hdec := onlyIf_creditsBalanceDecrement_ok
    (coveredBy_nonneg (ofMicros_nonneg.2 (Int.natCast_nonneg _)) hamount) hdec
  rw [hbalance₃] at hdec
  refine ⟨rfl, hfresh, by omega, ?_⟩
  have hall := (hlocked.trans hoff).trans hdec
  simp only [List.append_nil, List.singleton_append, decide_eq_true_eq] at hall
  exact hall

/-- An amount fits its column if it does so at the digits of a write-off. -/
theorem fits_of_minus {amountUsd : ℚ} (hnonneg : 0 ≤ amountUsd)
    (hfits : toMicros (Decimal.minus amountUsd 0) < 10 ^ 12) : toMicros amountUsd < 10 ^ 12 := by
  by_contra hbig
  have hhalf := (le_toMicros_iff hnonneg).1 (not_lt.1 hbig)
  have hkept := half_le_minus (x := amountUsd) (y := 0) (n := 10 ^ 12) (by norm_num)
    (by rw [sub_zero]; exact hhalf)
  exact absurd hfits (not_lt.2 ((le_toMicros_iff (Decimal.minus_nonneg hnonneg)).2 hkept))

/-- A charge that fits its column, under keys no row has, goes through. -/
theorem chargeInTx_of_fresh (entry : ChargeEntry) (db : Db) (hnonneg : 0 ≤ entry.amountUsd)
    (hfits : toMicros (Decimal.minus entry.amountUsd 0) < 10 ^ 12)
    (hbalance : db.balanceOf entry.apiKeyId < 10 ^ 12)
    (hkeys : entry.idempotencyKey ≠ entry.writeOffKey)
    (hfresh : ∀ row ∈ db.ledger.rows, row.idempotencyKey ≠ entry.idempotencyKey ∧
      row.idempotencyKey ≠ entry.writeOffKey) :
    ∃ db', chargeInTx entry db = .ok (true, db') := by
  have hpos := toMicros_nonneg hnonneg
  have hfits' := fits_of_minus hnonneg hfits
  obtain ⟨ledger, hcharge, hrows⟩ := creditsLedgerCreate_of_fresh entry.charge db
    (by simp only [ChargeEntry.charge, toMicros_neg]; omega) rfl fun row hrow ↦ (hfresh row hrow).1
  -- the balance row, which is there from here on
  set row := db.balanceRow entry.apiKeyId with hrow
  set locked := Db.setBalance { db with ledger } entry.apiKeyId row with hlocked
  have hensure : creditsBalanceEnsure entry.apiKeyId { db with ledger } = .ok ((), locked) := rfl
  have hbalances : locked.balances entry.apiKeyId = some row := by
    simp only [hlocked, Db.setBalance, Function.update_self]
  have hlock : creditsBalanceLock entry.apiKeyId locked = .ok (row, locked) := by
    rw [← balanceRow_of_balances hbalances]
    rfl
  have hcurrent : 0 ≤ ofMicros row.balanceUsd := ofMicros_nonneg.2 (Int.natCast_nonneg _)
  have hcollectible := coveredBy_nonneg hcurrent hnonneg
  -- what it does not cover is at most the amount, so it fits as well
  set uncollectible := Decimal.minus entry.amountUsd
    (coveredBy (ofMicros row.balanceUsd) entry.amountUsd)
  obtain ⟨off, hoff, hsame⟩ := onlyIf_of_forall (Q := fun db ↦ db.balances = locked.balances)
    (b := decide (0 < uncollectible)) (x := creditsLedgerCreate (entry.writeOff uncollectible))
    rfl fun hpositive ↦ by
      have hoff_nonneg := toMicros_nonneg (of_decide_eq_true hpositive).le
      have hoff_le : toMicros uncollectible ≤ toMicros (Decimal.minus entry.amountUsd 0) :=
        toMicros_mono (Decimal.minus_mono le_rfl hcollectible)
      obtain ⟨ledger', hcreate, -⟩ := creditsLedgerCreate_of_fresh (entry.writeOff uncollectible)
        locked (by simp only [ChargeEntry.writeOff]; omega) rfl fun a ha ↦ by
          rw [hlocked, Db.setBalance_ledger, hrows] at ha
          rcases List.mem_append.1 ha with ha | ha
          · exact (hfresh a ha).2
          · rw [List.mem_singleton.1 ha]
            exact hkeys
      exact ⟨_, hcreate, rfl⟩
  obtain ⟨db', hdec, -⟩ := onlyIf_of_forall (Q := fun _ ↦ True) (s := off)
    (b := decide (0 < coveredBy (ofMicros row.balanceUsd) entry.amountUsd))
    (x := creditsBalanceDecrement entry.apiKeyId
      (coveredBy (ofMicros row.balanceUsd) entry.amountUsd))
    trivial fun _ ↦ by
      obtain ⟨db', hdec⟩ := creditsBalanceDecrement_of_le (hsame ▸ hbalances) hbalance hcollectible
        (coveredBy_le_available _ _)
      exact ⟨db', hdec, trivial⟩
  refine ⟨db', ?_⟩
  rw [chargeInTx, bind_of_ok hcharge, bind_of_ok hensure, bind_of_ok hlock, bind_of_ok hoff,
    bind_of_ok hdec]
  rfl

end ModelConnector.Billing
