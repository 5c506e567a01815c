import ModelConnector.Billing.Service

/-!
# Taking a credit back

`reverse` posts a negative entry against an earlier credit. It sums what was already reversed
against the original, refuses to go past it, writes the negative row in full, and then takes off
the balance what is spendable — the balance less what requests in flight have reserved. The part
that cannot be recovered is written off in a second row. Both rows name the original, so both
count as reversed.
-/

namespace ModelConnector.Billing

open Atomic

/-- The two ways a credit can be taken back. -/
inductive ReversalEntryType
  | refund
  | chargeback
  deriving DecidableEq

/-- The ledger's entry type of a reversal. -/
def ReversalEntryType.toLedger : ReversalEntryType → LedgerEntryType
  | refund => .refund
  | chargeback => .chargeback

/-- `REVERSIBLE_ENTRY_TYPES`: only a credit can be reversed. -/
def REVERSIBLE_ENTRY_TYPES : List LedgerEntryType :=
  [.payment, .gift, .credit]

/-- The parameters of `reverse`. -/
structure ReverseParams where
  /-- The `idempotency_key` of the entry being reversed. -/
  originalIdempotencyKey : String
  /-- The positive magnitude to reverse. -/
  amountUsd : Decimal
  /-- The reversal row's own key. -/
  idempotencyKey : String
  reason : String
  entryType : Option ReversalEntryType := none
  actor : Option String := none

/-- What `reverse` did. -/
structure ReversalResult where
  applied : Bool
  reversedUsd : Decimal
  recoveredUsd : ℚ
  writtenOffUsd : ℚ
  deriving DecidableEq

/-- The magnitudes of all rows that reverse the entry, in micro-dollars. -/
def magnitude (amounts : List ℤ) : ℤ :=
  (amounts.map fun amountUsd ↦ |amountUsd|).sum

/-- `balance_usd - held_usd`, not below zero. -/
def spendable (balanceUsd heldUsd : ℕ) : ℚ :=
  max (ofMicros balanceUsd - ofMicros heldUsd) 0

namespace ReverseParams

variable (params : ReverseParams)

/-- The negative row, in full, with the provenance of the original. -/
def entry (original : LedgerRow) (amountUsd : ℚ) : LedgerEntry ℚ where
  apiKeyId := original.apiKeyId
  amountUsd := -amountUsd
  idempotencyKey := params.idempotencyKey
  reason := jsTrim params.reason
  entryType := (params.entryType.getD .refund).toLedger
  reversalOf := some params.originalIdempotencyKey
  source := original.source
  externalRef := original.externalRef
  livemode := original.livemode
  actor := params.actor

/-- The row that writes off what could not be recovered. -/
def writeOff (original : LedgerRow) (writtenOff : ℚ) : LedgerEntry ℚ where
  apiKeyId := original.apiKeyId
  amountUsd := writtenOff
  idempotencyKey := params.idempotencyKey ++ ":unrecovered"
  reason := "unrecovered:" ++ jsTrim params.reason
  entryType := .uncollectible
  reversalOf := some params.originalIdempotencyKey
  actor := params.actor

/-- The rows a reversal leaves in the ledger, of which `recovered` came off the balance. -/
def rows (original : LedgerRow) (amountUsd recovered : ℚ) : List LedgerRow :=
  (params.entry original amountUsd).toRow (toMicros (-amountUsd)) ::
    if 0 < Decimal.minus amountUsd recovered then
      [(params.writeOff original (Decimal.minus amountUsd recovered)).toRow
        (toMicros (Decimal.minus amountUsd recovered))]
    else []

end ReverseParams

/-- The checks of the parameters, before any transaction. -/
def validateReverse (params : ReverseParams) : Except TxError ℚ :=
  match params.amountUsd with
  | .finite amountUsd =>
    if 0 < amountUsd then
      if jsTrim params.reason == "" then .error (.reversalRefused "invalid_amount")
      else .ok amountUsd
    else .error (.reversalRefused "invalid_amount")
  | _ => .error (.reversalRefused "invalid_amount")

/-- The original a reversal may be posted against. -/
def findReversible (params : ReverseParams) : Tx LedgerRow := do
  let found ← creditsLedgerFindUnique params.originalIdempotencyKey
  match found with
  | none => refuse (.reversalRefused "original_not_found")
  | some original =>
    require (REVERSIBLE_ENTRY_TYPES.contains original.entryType)
      (.reversalRefused "original_not_reversible")
    pure original

/-- What is left to reverse of an original, given the amounts already reversed. -/
def headroom (original : LedgerRow) (priorRows : List ℤ) : ℚ :=
  ofMicros |original.amountUsd| - ofMicros (magnitude priorRows)

/-- The transaction of `reverse`. -/
def reverseInTx (params : ReverseParams) (amountUsd : ℚ) : Tx ReversalResult := do
  let original ← findReversible params
  let priorRows ← creditsLedgerReversals params.originalIdempotencyKey
  require (decide (amountUsd ≤ headroom original priorRows)) (.reversalRefused "exceeds_original")
  creditsLedgerCreate (params.entry original amountUsd)
  creditsBalanceEnsure original.apiKeyId
  let locked ← creditsBalanceLock original.apiKeyId
  let recovered := coveredBy (spendable locked.balanceUsd locked.heldUsd) amountUsd
  let writtenOff := Decimal.minus amountUsd recovered
  onlyIf (decide (0 < writtenOff)) (creditsLedgerCreate (params.writeOff original writtenOff))
  onlyIf (decide (0 < recovered)) (creditsBalanceDecrement original.apiKeyId recovered)
  pure { applied := true
         reversedUsd := params.amountUsd
         recoveredUsd := recovered
         writtenOffUsd := writtenOff }

/-- `BillingService.reverse`. -/
def reverse (params : ReverseParams) (db : Db) : Answer ReversalResult :=
  match validateReverse params with
  | .error e => (.error e, db)
  | .ok amountUsd =>
    absorbDuplicate ⟨false, params.amountUsd, 0, 0⟩ ((reverseInTx params amountUsd).run db)

/-- What a reversal recovers from the store as it is. -/
def recoverable (db : Db) (apiKeyId : String) (amountUsd : ℚ) : ℚ :=
  coveredBy (spendable (db.balanceOf apiKeyId) (db.heldOf apiKeyId)) amountUsd

/-- A reversal was posted against `original`: its rows, and the balance less what was
recovered. -/
structure Reversed (params : ReverseParams) (amountUsd : ℚ) (original : LedgerRow) (db db' : Db) :
    Prop where
  original_mem : original ∈ db.ledger.rows
  /-- The amount fits its column. -/
  fits : toMicros amountUsd < 10 ^ 12
  movement : Movement original.apiKeyId
    (params.rows original amountUsd (recoverable db original.apiKeyId amountUsd))
    (toMicros (ofMicros (db.balanceOf original.apiKeyId) -
      recoverable db original.apiKeyId amountUsd)) db db'

/-- The original of a reversal is in the ledger, and is a credit. -/
structure Reversible (params : ReverseParams) (original : LedgerRow) (db : Db) : Prop where
  mem : original ∈ db.ledger.rows
  key : original.idempotencyKey = params.originalIdempotencyKey
  credit : REVERSIBLE_ENTRY_TYPES.contains original.entryType = true

theorem findReversible_ok {params : ReverseParams} {original : LedgerRow} {db db' : Db}
    (h : findReversible params db = .ok (original, db')) :
    Reversible params original db ∧ db = db' := by
  simp only [findReversible, creditsLedgerFindUnique, bind_eq_ok_iff, read_eq_ok_iff] at h
  obtain ⟨found, _, ⟨hfound, rfl⟩, h⟩ := h
  cases found with
  | none => simp at h
  | some row =>
    simp only [bind_eq_ok_iff, require_eq_ok_iff, pure_eq_ok_iff] at h
    obtain ⟨_, _, ⟨hcredit, rfl⟩, rfl, rfl⟩ := h
    have hkey := List.find?_some (p := fun row : LedgerRow ↦
      row.idempotencyKey == params.originalIdempotencyKey) hfound
    exact ⟨⟨List.mem_of_find?_eq_some hfound, beq_iff_eq.1 hkey, hcredit⟩, rfl⟩

theorem recoverable_nonneg (db : Db) (apiKeyId : String) {amountUsd : ℚ} (h : 0 ≤ amountUsd) :
    0 ≤ recoverable db apiKeyId amountUsd :=
  coveredBy_nonneg (le_max_right _ _) h

/-- A transaction that goes through has reversed a credit, and says so. -/
theorem reverseInTx_reversed {params : ReverseParams} {amountUsd : ℚ} {result : ReversalResult}
    {db db' : Db} (hamount : 0 ≤ amountUsd)
    (h : reverseInTx params amountUsd db = .ok (result, db')) :
    result.applied = true ∧ ∃ original, Reversible params original db ∧
      Reversed params amountUsd original db db' := by
  simp only [reverseInTx, bind_eq_ok_iff, creditsLedgerReversals, creditsBalanceLock,
    read_eq_ok_iff, require_eq_ok_iff] at h
  obtain ⟨original, _, hfind, _, _, ⟨-, rfl⟩, _, _, ⟨-, rfl⟩, _, db₁, hentry, _, db₂, hensure,
    _, _, ⟨rfl, rfl⟩, _, db₃, hoff, _, db₄, hdec, hpure⟩ := h
  obtain ⟨rfl, rfl⟩ := pure_eq_ok_iff.1 hpure
  obtain ⟨hreversible, rfl⟩ := findReversible_ok hfind
  have hfits := creditsLedgerCreate_fits hentry
  simp only [ReverseParams.entry, toMicros_neg] at hfits
  obtain ⟨-, hentry⟩ := creditsLedgerCreate_ok hentry
  refine ⟨rfl, original, hreversible, hreversible.mem, by omega, ?_⟩
  have hlocked := (hentry original.apiKeyId).trans (creditsBalanceEnsure_ok hensure)
  have hbalance : db₂.balanceOf original.apiKeyId = db.balanceOf original.apiKeyId := by
    have hmoved := hlocked.moved
    rw [(hentry original.apiKeyId).moved] at hmoved
    exact_mod_cast hmoved
  have hrecovered : coveredBy (spendable (db₂.balanceRow original.apiKeyId).balanceUsd
      (db₂.balanceRow original.apiKeyId).heldUsd) amountUsd =
      recoverable db original.apiKeyId amountUsd := by
    rw [recoverable, ← hbalance, ← hlocked.held]
    rfl
  rw [hrecovered] at hoff hdec
  have hoff := onlyIf_creditsLedgerCreate_ok hoff original.apiKeyId
  have hbalance₃ : db₃.balanceOf original.apiKeyId = db.balanceOf original.apiKeyId := by
    rw [← hbalance]
    exact_mod_cast hoff.moved
  have hdec := onlyIf_creditsBalanceDecrement_ok (recoverable_nonneg db _ hamount) hdec
  rw [hbalance₃] at hdec
  have hall := (hlocked.trans hoff).trans hdec
  simp only [List.append_nil, List.singleton_append, decide_eq_true_eq] at hall
  exact hall

theorem reverseInTx_ok {params : ReverseParams} {amountUsd : ℚ} {result : ReversalResult}
    {db db' : Db} (hamount : 0 ≤ amountUsd)
    (h : reverseInTx params amountUsd db = .ok (result, db')) :
    ∃ original, Reversed params amountUsd original db db' :=
  let ⟨_, original, _, hreversed⟩ := reverseInTx_reversed hamount h
  ⟨original, hreversed⟩

theorem validateReverse_eq_ok {params : ReverseParams} {amountUsd : ℚ}
    (h : validateReverse params = .ok amountUsd) :
    params.amountUsd = .finite amountUsd ∧ 0 < amountUsd := by
  unfold validateReverse at h
  split at h
  · rename_i q hq
    split at h
    · rename_i hpos
      split at h
      · cases h
      · cases h
        exact ⟨hq, hpos⟩
    · cases h
  · cases h

/-- A reversal is posted, or changes nothing. -/
theorem reverse_cases (params : ReverseParams) (db : Db) :
    (reverse params db).2 = db ∨ ∃ amountUsd original, params.amountUsd = .finite amountUsd ∧
      0 < amountUsd ∧ Reversed params amountUsd original db (reverse params db).2 := by
  unfold reverse
  cases hvalid : validateReverse params with
  | error e => exact .inl rfl
  | ok amountUsd =>
    obtain ⟨hfin, hpos⟩ := validateReverse_eq_ok hvalid
    rcases absorbDuplicate_run_cases ⟨false, params.amountUsd, 0, 0⟩
      (reverseInTx params amountUsd) db with ⟨result, db', hx, hrun⟩ | ⟨e, -, hdb, -⟩
    · obtain ⟨original, hreversed⟩ := reverseInTx_ok hpos.le hx
      refine .inr ⟨amountUsd, original, hfin, hpos, ?_⟩
      simp only [hrun]
      exact hreversed
    · exact .inl hdb

/-! ### A payment and its refunds -/

/-- A payment of 100 USD. -/
def payment100 : PaymentParams where
  apiKeyId := "key"
  amountUsd := .finite 100
  idempotencyKey := "payment"
  source := "oxapay"
  livemode := true

/-- A store in which the key has been credited this payment. -/
def paidStore : Db :=
  (recordPayment payment100 .empty).2

/-- A reversal of the payment. -/
def refundOf (idempotencyKey : String) (amountUsd : ℚ) : ReverseParams where
  originalIdempotencyKey := "payment"
  amountUsd := .finite amountUsd
  idempotencyKey := idempotencyKey
  reason := "customer requested"

end ModelConnector.Billing
