import Mathlib.Data.Rat.Defs
import ModelConnector.Foundations.Atomic
import ModelConnector.Foundations.Rounding
import ModelConnector.Foundations.Table

/-!
# The billing store

The tables the billing service works on — `credits_balance`, `credits_ledger`,
`billing_intents` and `Request` — and the statements it issues against them. A statement is an
`Atomic` step on the whole store, so a transaction is a sequence of statements and either all of
it commits or none of it.

## Money

In memory an amount is a decimal; in a column it is a `DECIMAL(p, 6)`, kept here as a whole
number of **micro-dollars**. `toMicros` is the rounding the database applies when a decimal is
stored, and `storeDecimal` is that rounding with the column's range check. `Decimal.minus` is the
one operation of the service that rounds in memory, to twenty significant digits. The columns that
carry a `CHECK (… >= 0)` are natural numbers, so a negative balance, reservation or hold cannot
be built; a statement that would write one is refused with `TxError.checkViolation`.

## What is left out

Columns no statement below reads or decides on (the valuation of a payment, the prompt digest,
token counts and latencies of a request), and the foreign keys to `ApiKey`.
-/

namespace ModelConnector.Billing

/-! ### Amounts -/

/-- A `Prisma.Decimal` as the service's methods receive it. -/
inductive Decimal
  /-- A finite number. -/
  | finite (q : ℚ)
  /-- `±Infinity`. -/
  | infinite (negative : Bool)
  /-- `NaN`. -/
  | nan
  deriving DecidableEq

namespace Decimal

/-- `Decimal.isNegative`; `NaN` is not negative. -/
def isNegative : Decimal → Bool
  | finite q => decide (q < 0)
  | infinite negative => negative
  | nan => false

/-- `Decimal.isFinite`. -/
def isFinite : Decimal → Bool
  | finite _ => true
  | _ => false

/-- `Decimal.greaterThan` against a number; `NaN` is greater than nothing. -/
def greaterThan : Decimal → ℚ → Bool
  | finite q, r => decide (r < q)
  | infinite negative, _ => !negative
  | nan, _ => false

/-- What an operation of `Decimal` rounds to, by its default `precision`. -/
def format : NumberFormat where
  base := 10
  digits := 20
  least := none
  one_lt_base := by decide
  digits_pos := by decide

/-- `Decimal.minus` of finite numbers. -/
def minus (x y : ℚ) : ℚ :=
  format.roundTo roundHalfAway (x - y)

@[simp]
theorem minus_self (x : ℚ) : minus x x = 0 := by
  rw [minus, sub_self]
  exact format.roundTo_zero isNearest_roundHalfAway

theorem minus_mono {x x' y y' : ℚ} (hx : x ≤ x') (hy : y' ≤ y) : minus x y ≤ minus x' y' :=
  format.roundTo_mono isNearest_roundHalfAway (by linarith)

theorem minus_nonneg {x y : ℚ} (h : y ≤ x) : 0 ≤ minus x y :=
  format.roundTo_nonneg isNearest_roundHalfAway (sub_nonneg.2 h)

/-- Rounding keeps the sign. -/
theorem minus_pos_iff {x y : ℚ} : 0 < minus x y ↔ y < x := by
  constructor
  · intro h
    by_contra hle
    have hmono := minus_mono (not_lt.1 hle) (le_refl y)
    rw [minus_self] at hmono
    exact absurd h (not_lt.2 hmono)
  · exact fun h ↦ format.roundTo_pos isNearest_roundHalfAway rfl (sub_pos.2 h)

/-- A difference of at most twenty digits is exact. -/
theorem minus_of_digits {x y : ℚ} {n e : ℤ} (h : x - y = n * 10 ^ e) (hn : |n| < 10 ^ 20) :
    minus x y = x - y :=
  format.roundTo_of_holds isNearest_roundHalfAway ⟨n, e, h, hn, fun _ hl ↦ by cases hl⟩

end Decimal

/-- The decimal a number of micro-dollars stands for. -/
def ofMicros (n : ℤ) : ℚ :=
  n / 10 ^ 6

/-- A decimal at the six decimals of a column, in micro-dollars. -/
def toMicros (q : ℚ) : ℤ :=
  roundHalfAway (q * 10 ^ 6)

@[simp]
theorem toMicros_ofMicros (n : ℤ) : toMicros (ofMicros n) = n := by
  have hn : ofMicros n * 10 ^ 6 = n := by
    unfold ofMicros
    field_simp
  rw [toMicros, hn, roundHalfAway_intCast]

@[simp]
theorem toMicros_zero : toMicros 0 = 0 := by
  simp [toMicros]

@[simp]
theorem ofMicros_zero : ofMicros 0 = 0 := by
  simp [ofMicros]

theorem ofMicros_add (m n : ℤ) : ofMicros (m + n) = ofMicros m + ofMicros n := by
  unfold ofMicros
  push_cast
  ring

theorem ofMicros_sub (m n : ℤ) : ofMicros (m - n) = ofMicros m - ofMicros n := by
  unfold ofMicros
  push_cast
  ring

theorem ofMicros_neg (n : ℤ) : ofMicros (-n) = -ofMicros n := by
  unfold ofMicros
  push_cast
  ring

theorem ofMicros_le_ofMicros {m n : ℤ} : ofMicros m ≤ ofMicros n ↔ m ≤ n := by
  unfold ofMicros
  rw [div_le_div_iff_of_pos_right (by norm_num)]
  exact Int.cast_le

theorem ofMicros_lt_ofMicros {m n : ℤ} : ofMicros m < ofMicros n ↔ m < n := by
  simpa using not_congr (ofMicros_le_ofMicros (m := n) (n := m))

theorem ofMicros_pos {n : ℤ} : 0 < ofMicros n ↔ 0 < n := by
  simpa using ofMicros_lt_ofMicros (m := 0) (n := n)

theorem ofMicros_nonneg {n : ℤ} : 0 ≤ ofMicros n ↔ 0 ≤ n := by
  simpa using ofMicros_le_ofMicros (m := 0) (n := n)

theorem toMicros_mono {p q : ℚ} (h : p ≤ q) : toMicros p ≤ toMicros q :=
  roundHalfAway_mono (by linarith)

theorem toMicros_neg (q : ℚ) : toMicros (-q) = -toMicros q := by
  rw [toMicros, neg_mul, roundHalfAway_neg, toMicros]

theorem toMicros_nonneg {q : ℚ} (hq : 0 ≤ q) : 0 ≤ toMicros q := by
  simpa using toMicros_mono hq

theorem le_toMicros_iff {q : ℚ} (hq : 0 ≤ q) {n : ℤ} :
    n ≤ toMicros q ↔ (n : ℚ) - 1 / 2 ≤ q * 10 ^ 6 := by
  rw [toMicros, roundHalfAway, if_pos (by positivity), Int.le_floor]
  exact sub_le_iff_le_add.symm

/-- Half a micro-dollar below a whole number of them has seven decimals. -/
theorem half_mul (n : ℤ) : (10 * n - 5 : ℤ) * (10 : ℚ) ^ (-7 : ℤ) * 10 ^ 6 = n - 1 / 2 := by
  have hunit : (10 : ℚ) ^ (-7 : ℤ) = 1 / 10000000 := by norm_num
  rw [hunit]
  push_cast
  ring

/-- Twenty digits are enough for it. -/
theorem minus_half {n : ℤ} (hn : |n| ≤ 10 ^ 12) :
    Decimal.minus ((10 * n - 5 : ℤ) * (10 : ℚ) ^ (-7 : ℤ)) 0 * 10 ^ 6 = n - 1 / 2 := by
  obtain ⟨hlow, hhigh⟩ := abs_le.1 hn
  rw [Decimal.minus_of_digits (sub_zero _) (abs_lt.2 ⟨by omega, by omega⟩), sub_zero, half_mul]

/-- So a difference that is rounded up to one stays there. -/
theorem half_le_minus {x y : ℚ} {n : ℤ} (hn : |n| ≤ 10 ^ 12)
    (h : (n : ℚ) - 1 / 2 ≤ (x - y) * 10 ^ 6) :
    (n : ℚ) - 1 / 2 ≤ Decimal.minus x y * 10 ^ 6 := by
  rw [← half_mul] at h
  have hmono : Decimal.minus ((10 * n - 5 : ℤ) * (10 : ℚ) ^ (-7 : ℤ)) 0 ≤ Decimal.minus x y :=
    Decimal.format.roundTo_mono isNearest_roundHalfAway (by linarith)
  rw [← minus_half hn]
  linarith

theorem minus_le_half {x y : ℚ} {n : ℤ} (hn : |n| ≤ 10 ^ 12)
    (h : (x - y) * 10 ^ 6 ≤ (n : ℚ) - 1 / 2) :
    Decimal.minus x y * 10 ^ 6 ≤ (n : ℚ) - 1 / 2 := by
  rw [← half_mul] at h
  have hmono : Decimal.minus x y ≤ Decimal.minus ((10 * n - 5 : ℤ) * (10 : ℚ) ^ (-7 : ℤ)) 0 :=
    Decimal.format.roundTo_mono isNearest_roundHalfAway (by linarith)
  rw [← minus_half hn]
  linarith

/-- So rounding a difference never takes a micro-dollar off it. -/
theorem toMicros_sub_le_minus {x y : ℚ} (h : y ≤ x) (hfits : toMicros (x - y) ≤ 10 ^ 12) :
    toMicros (x - y) ≤ toMicros (Decimal.minus x y) := by
  have hnonneg := toMicros_nonneg (sub_nonneg.2 h)
  rw [le_toMicros_iff (Decimal.minus_nonneg h)]
  exact half_le_minus (abs_le.2 ⟨by omega, hfits⟩) ((le_toMicros_iff (sub_nonneg.2 h)).1 le_rfl)

theorem minus_ofMicros {m n : ℤ} (h : |m - n| < 10 ^ 20) :
    Decimal.minus (ofMicros m) (ofMicros n) = ofMicros (m - n) := by
  rw [Decimal.minus_of_digits (n := m - n) (e := -6) ?_ h, ofMicros_sub]
  rw [← ofMicros_sub, ofMicros, zpow_neg, div_eq_mul_inv]
  rfl

/-- Why a transaction is refused. -/
inductive TxError
  /-- A unique constraint, Prisma's `P2002`. -/
  | duplicateKey
  /-- A value outside the range of its `DECIMAL(p, 6)` column. -/
  | numericOverflow
  /-- A value no `DECIMAL` column holds. -/
  | notANumber
  /-- A `CHECK` constraint. -/
  | checkViolation
  /-- An update of a row that does not exist, Prisma's `P2025`. -/
  | recordNotFound
  /-- `HoldRejected`: the conditional reservation matched no row. -/
  | holdRejected
  /-- `ReversalRefusedError`, with its code. -/
  | reversalRefused (code : String)
  /-- A plain `Error`, with its message. -/
  | failed (message : String)
  deriving DecidableEq

/-- Store a decimal in a `DECIMAL(precision, 6)` column. -/
def storeDecimal (precision : ℕ) (q : ℚ) : Except TxError ℤ :=
  if (toMicros q).natAbs < 10 ^ precision then .ok (toMicros q) else .error .numericOverflow

/-- Store a decimal in a `DECIMAL(precision, 6)` column with a `CHECK (… >= 0)`. -/
def storeNonneg (precision : ℕ) (q : ℚ) : Except TxError ℕ :=
  if (toMicros q).natAbs < 10 ^ precision then
    if 0 ≤ toMicros q then .ok (toMicros q).toNat else .error .checkViolation
  else .error .numericOverflow

/-- The number a decimal binds to as a statement's argument. -/
def bindDecimal : Decimal → Except TxError ℚ
  | .finite q => .ok q
  | _ => .error .notANumber

theorem storeDecimal_eq_ok {precision : ℕ} {q : ℚ} {n : ℤ} (h : storeDecimal precision q = .ok n) :
    n = toMicros q := by
  unfold storeDecimal at h
  split at h
  · cases h
    rfl
  · cases h

theorem storeNonneg_eq_ok {precision : ℕ} {q : ℚ} {n : ℕ} (h : storeNonneg precision q = .ok n) :
    (n : ℤ) = toMicros q := by
  unfold storeNonneg at h
  split at h
  · split at h
    · rename_i hq
      cases h
      exact Int.toNat_of_nonneg hq
    · cases h
  · cases h

theorem bindDecimal_eq_ok {d : Decimal} {q : ℚ} (h : bindDecimal d = .ok q) : d = .finite q := by
  cases d with
  | finite r =>
    cases h
    rfl
  | infinite negative => cases h
  | nan => cases h

/-! ### Rows -/

/-- What kind of movement a ledger entry records. -/
inductive LedgerEntryType
  | charge
  | gift
  | credit
  | uncollectible
  | payment
  | refund
  | chargeback
  deriving DecidableEq

/-- The state of a request intent. -/
inductive IntentState
  /-- Reserved, in flight. -/
  | held
  /-- Dispatched and settled. -/
  | completed
  /-- Abandoned before or during dispatch. -/
  | released
  /-- The sweeper released a hold whose owner never came back. -/
  | expired
  deriving DecidableEq

/-- A row of `credits_ledger`, over the type its amount is written in: a decimal for the data of
an insertion, micro-dollars for the row stored. -/
structure LedgerEntry (α : Type) where
  apiKeyId : String
  /-- Signed: positive credits the account, negative debits it. -/
  amountUsd : α
  reason : String
  entryType : LedgerEntryType
  idempotencyKey : String
  requestId : Option String := none
  source : Option String := none
  externalRef : Option String := none
  livemode : Option Bool := none
  reversalOf : Option String := none
  actor : Option String := none
  deriving DecidableEq

/-- A stored row of `credits_ledger`. -/
abbrev LedgerRow :=
  LedgerEntry ℤ

/-- `idempotency_key` is unique. -/
def LedgerRow.clash (a b : LedgerRow) : Bool :=
  a.idempotencyKey == b.idempotencyKey

/-- The `CHECK` constraints of `credits_ledger`. -/
def LedgerRow.checks (row : LedgerRow) : Bool :=
  match row.entryType with
  | .payment => decide (0 < row.amountUsd) && row.source.isSome && row.livemode.isSome
  | .refund | .chargeback => decide (row.amountUsd < 0) && row.reversalOf.isSome
  | _ => true

/-- A row of `credits_balance`, in micro-dollars. -/
structure BalanceRow where
  /-- The materialised sum of the key's ledger rows. -/
  balanceUsd : ℕ
  /-- Funds reserved by requests in flight. -/
  heldUsd : ℕ
  deriving DecidableEq

/-- A row of `billing_intents`. Times are milliseconds. -/
structure IntentRow where
  id : String
  apiKeyId : String
  intentKey : String
  clientSupplied : Bool
  /-- The estimate reserved in `held_usd`. -/
  holdUsd : ℕ
  state : IntentState
  payloadFingerprint : String
  /-- The request this intent produced, once there is one. -/
  requestId : Option String
  /-- The stored response, as its JSON text. -/
  response : Option String
  expiresAt : ℤ
  createdAt : ℤ
  completedAt : Option ℤ
  deriving DecidableEq

/-- `id` is the primary key, and `(api_key_id, intent_key)` is unique. -/
def IntentRow.clash (a b : IntentRow) : Bool :=
  a.id == b.id || (a.apiKeyId == b.apiKeyId && a.intentKey == b.intentKey)

/-- A row of `Request`; `costSource` is free text, as in the schema. -/
structure RequestRow where
  id : String
  apiKeyId : String
  costUsd : ℤ
  costSource : Option String
  createdAt : ℤ
  deriving DecidableEq

/-- `id` is the primary key. -/
def RequestRow.clash (a b : RequestRow) : Bool :=
  a.id == b.id

/-- The store. -/
structure Db where
  balances : String → Option BalanceRow
  ledger : Table LedgerRow LedgerRow.clash
  intents : Table IntentRow IntentRow.clash
  requests : Table RequestRow RequestRow.clash

namespace Db

/-- The store with no rows. -/
def empty : Db :=
  ⟨fun _ ↦ none, .empty, .empty, .empty⟩

/-- The row of a key, read as zeros when there is none. -/
def balanceRow (db : Db) (apiKeyId : String) : BalanceRow :=
  (db.balances apiKeyId).getD ⟨0, 0⟩

/-- `balance_usd`, zero for a key without a row. -/
def balanceOf (db : Db) (apiKeyId : String) : ℕ :=
  (db.balanceRow apiKeyId).balanceUsd

/-- `held_usd`, zero for a key without a row. -/
def heldOf (db : Db) (apiKeyId : String) : ℕ :=
  (db.balanceRow apiKeyId).heldUsd

/-- Write the balance row of a key. -/
def setBalance (db : Db) (apiKeyId : String) (row : BalanceRow) : Db :=
  { db with balances := Function.update db.balances apiKeyId (some row) }

/-- `SELECT SUM(amount_usd) FROM credits_ledger WHERE api_key_id = …`. -/
def ledgerSum (db : Db) (apiKeyId : String) : ℤ :=
  db.ledger.sumWhere (fun row ↦ row.apiKeyId == apiKeyId) LedgerEntry.amountUsd

/-- The sum of the holds of a key's intents in state `held`. -/
def heldSum (db : Db) (apiKeyId : String) : ℤ :=
  db.intents.sumWhere (fun row ↦ row.apiKeyId == apiKeyId && row.state == .held)
    fun row ↦ row.holdUsd

/-! ### Projections of the updates -/

@[simp]
theorem setBalance_ledger (db : Db) (k : String) (row : BalanceRow) :
    (db.setBalance k row).ledger = db.ledger :=
  rfl

@[simp]
theorem setBalance_intents (db : Db) (k : String) (row : BalanceRow) :
    (db.setBalance k row).intents = db.intents :=
  rfl

@[simp]
theorem setBalance_requests (db : Db) (k : String) (row : BalanceRow) :
    (db.setBalance k row).requests = db.requests :=
  rfl

theorem balanceRow_setBalance (db : Db) (k k' : String) (row : BalanceRow) :
    (db.setBalance k row).balanceRow k' = if k' = k then row else db.balanceRow k' := by
  by_cases h : k' = k
  · subst h
    simp [balanceRow, setBalance]
  · simp [balanceRow, setBalance, h]

end Db

end ModelConnector.Billing
