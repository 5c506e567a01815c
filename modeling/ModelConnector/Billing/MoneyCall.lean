import ModelConnector.Billing.ReversalOutcome

/-!
# The calls that move money

`settle`, `credit`, `gift`, `recordPayment` and `reverse` as one type of calls. A call is applied,
is answered as a replay of one applied before, or is refused, and only in the first case has it
written anything: a posted credit, a charge or a reversal.
-/

namespace ModelConnector.Billing

open Atomic

/-- A call of one of the methods that move money outside a request. -/
inductive MoneyCall
  | settle (params : SettleParams)
  | credit (params : CreditParams)
  | gift (params : GiftParams)
  | recordPayment (params : PaymentParams)
  | reverse (params : ReverseParams)

namespace MoneyCall

/-- Whether the call says it was applied; `false` says that it was applied before. -/
def answer (db : Db) : MoneyCall → Except TxError Bool
  | settle params => (Billing.settle params db).1
  | credit params => (Billing.credit params db).1
  | gift params => (Billing.gift params db).1
  | recordPayment params => (Billing.recordPayment params db).1
  | reverse params => (Billing.reverse params db).1.map ReversalResult.applied

/-- The store after the call. -/
def after (db : Db) : MoneyCall → Db
  | settle params => (Billing.settle params db).2
  | credit params => (Billing.credit params db).2
  | gift params => (Billing.gift params db).2
  | recordPayment params => (Billing.recordPayment params db).2
  | reverse params => (Billing.reverse params db).2

/-- The key the caller gave. -/
def idempotencyKey : MoneyCall → String
  | settle params => params.idempotencyKey
  | credit params => params.idempotencyKey
  | gift params => params.idempotencyKey
  | recordPayment params => params.idempotencyKey
  | reverse params => params.idempotencyKey

/-- The call did what it was asked. -/
def Applied (call : MoneyCall) (db : Db) : Prop :=
  call.answer db = .ok true

/-- The call says that it was applied before. -/
def ReportsReplay (call : MoneyCall) (db : Db) : Prop :=
  call.answer db = .ok false

instance (call : MoneyCall) (db : Db) : Decidable (call.Applied db) :=
  inferInstanceAs (Decidable (call.answer db = .ok true))

instance (call : MoneyCall) (db : Db) : Decidable (call.ReportsReplay db) :=
  inferInstanceAs (Decidable (call.answer db = .ok false))

end MoneyCall

variable {db : Db}

theorem settle_applied {params : SettleParams} (h : (settle params db).1 = .ok true) :
    ∃ amountUsd : ℚ, params.amountUsd = .finite amountUsd ∧ 0 ≤ amountUsd ∧
      Charged (params.entry amountUsd) db (settle params db).2 := by
  rcases absorbDuplicate_run_cases false (settleInTx params) db with
    ⟨ok, db', hx, hrun⟩ | ⟨e, -, -, hanswer⟩
  · rw [settle, hrun]
    exact (settleInTx_ok hx).2
  · rw [settle, hanswer] at h
    split at h <;> cases h

theorem reverse_applied {params : ReverseParams}
    (h : (reverse params db).1.map ReversalResult.applied = .ok true) :
    ∃ amountUsd original, params.amountUsd = .finite amountUsd ∧ 0 < amountUsd ∧
      Reversible params original db ∧
        Reversed params amountUsd original db (reverse params db).2 := by
  have happlied : Applied params db := by
    cases hr : (reverse params db).1 with
    | error e =>
      rw [hr] at h
      cases h
    | ok result =>
      rw [hr] at h
      exact ⟨result, hr, Except.ok.inj h⟩
  rcases reverse_applied_cases params db with
    ⟨hnot, -⟩ | ⟨-, amountUsd, original, hvalid, hreversible, hreversed⟩
  · exact absurd happlied hnot
  · obtain ⟨hfin, hpos⟩ := validateReverse_eq_ok hvalid
    exact ⟨amountUsd, original, hfin, hpos, hreversible, hreversed⟩

end ModelConnector.Billing
