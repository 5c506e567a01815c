import ModelConnector.Billing.CostSource
import ModelConnector.Billing.Service
import Mathlib.Data.List.Sort

/-!
# The reconciler

The reconciler reads the requests that carry measured spend and have no ledger row, and then
settles them one by one, each in a transaction of its own, under the key `request:<id>`. The read
takes no lock: by the time a request is settled, another path may have charged it.
-/

namespace ModelConnector.Billing

/-- `DEFAULT_MAX_AGE_MS`. -/
def DEFAULT_MAX_AGE_MS : ℤ :=
  24 * 60 * 60 * 1000

/-- `DEFAULT_GRACE_MS`. -/
def DEFAULT_GRACE_MS : ℤ :=
  5 * 60 * 1000

/-- The options of a reconcile run. -/
structure ReconcileOptions where
  limit : Option ℤ := none
  maxAgeMs : Option ℤ := none
  graceMs : Option ℤ := none
  dryRun : Bool := false

/-- What a reconcile run reports. -/
structure ReconcileReport where
  scanned : ℕ
  settled : ℕ := 0
  alreadySettled : ℕ := 0
  failed : ℕ := 0
  skippedUnbillable : ℕ := 0
  totalUsd : ℚ := 0
  unbillableUsd : ℚ := 0
  dryRun : Bool
  deriving DecidableEq

/-- The anti-join of `findUnsettled`: measured spend, inside the window, no ledger row, and a
source that may be charged. -/
def unsettled (opts : ReconcileOptions) (now : ℤ) (db : Db) (row : RequestRow) : Bool :=
  decide (0 < row.costUsd) &&
    decide (now - opts.maxAgeMs.getD DEFAULT_MAX_AGE_MS ≤ row.createdAt) &&
    decide (row.createdAt < now - opts.graceMs.getD DEFAULT_GRACE_MS) &&
    db.ledger.rows.all (fun entry ↦ entry.requestId != some row.id) &&
    isChargeableToCustomer row.costSource

/-- `BillingReconcilerService.findUnsettled`. -/
def findUnsettled (opts : ReconcileOptions) (now : ℤ) (db : Db) : List RequestRow :=
  ((db.requests.rows.filter (unsettled opts now db)).insertionSort
    fun a b ↦ a.createdAt ≤ b.createdAt).take (min (max (opts.limit.getD 200) 1) 5000).toNat

/-- The settlement of an orphaned request. -/
def reconcileParams (row : RequestRow) : SettleParams where
  apiKeyId := row.apiKeyId
  amountUsd := .finite (ofMicros row.costUsd)
  idempotencyKey := "request:" ++ row.id
  requestId := some row.id
  reason := some "reconciled-request"

/-- How the report counts the answer of a settlement. -/
def ReconcileReport.record (report : ReconcileReport) : Except TxError Bool → ReconcileReport
  | .ok true => { report with settled := report.settled + 1 }
  | .ok false => { report with alreadySettled := report.alreadySettled + 1 }
  | .error _ => { report with failed := report.failed + 1 }

/-- How reaching the store can fail, for a single settlement. -/
inductive Fault
  /-- The transaction did not take place. -/
  | beforeCommit
  /-- The transaction committed, and its answer was lost. -/
  | afterCommit
  deriving DecidableEq

/-- One turn of the loop of `reconcile`; its settlement may meet a fault. -/
def reconcileRow (row : RequestRow) (fault : Option Fault) (report : ReconcileReport) (db : Db) :
    ReconcileReport × Db :=
  if !isChargeableToCustomer row.costSource then
    ({ report with
        skippedUnbillable := report.skippedUnbillable + 1
        unbillableUsd := report.unbillableUsd + ofMicros row.costUsd }, db)
  else
    let report := { report with totalUsd := report.totalUsd + ofMicros row.costUsd }
    if report.dryRun then (report, db)
    else
      let (answer, db') := settle (reconcileParams row) db
      match fault with
      | none => (report.record answer, db')
      | some .beforeCommit => (report.record (.error (.failed "connection failed")), db)
      | some .afterCommit => (report.record (.error (.failed "connection failed")), db')

/-- A turn of the loop leaves the store alone, or runs `settle` on a chargeable row; it counts the
row as settled only when `settle` said so. -/
theorem reconcileRow_cases (row : RequestRow) (fault : Option Fault) (report : ReconcileReport)
    (db : Db) :
    ((reconcileRow row fault report db).2 = db ∨
      isChargeableToCustomer row.costSource = true ∧
        (reconcileRow row fault report db).2 = (settle (reconcileParams row) db).2) ∧
    ((reconcileRow row fault report db).1.settled = report.settled ∨
      (reconcileRow row fault report db).1.settled = report.settled + 1 ∧
        (settle (reconcileParams row) db).1 = .ok true ∧
          (reconcileRow row fault report db).2 = (settle (reconcileParams row) db).2) := by
  unfold reconcileRow
  by_cases hchargeable : isChargeableToCustomer row.costSource = true
  · by_cases hdry : report.dryRun = true
    · simp [hchargeable, hdry]
    · cases fault with
      | none =>
        refine ⟨.inr ⟨hchargeable, by simp [hchargeable, hdry]⟩, ?_⟩
        simp only [hchargeable, hdry]
        cases hanswer : (settle (reconcileParams row) db).1 with
        | error e => exact .inl (by simp [ReconcileReport.record])
        | ok b => cases b <;> simp [ReconcileReport.record]
      | some fault =>
        cases fault <;> simp [hchargeable, hdry, ReconcileReport.record]
  · simp [hchargeable]

end ModelConnector.Billing
