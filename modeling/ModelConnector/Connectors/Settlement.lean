import ModelConnector.Billing.CostSource
import ModelConnector.Billing.IntentSpec
import ModelConnector.Connectors.Response

/-!
# Persisting a request and settling its spend

`persistAndSettle` writes the `Request` row of a finished dispatch and settles its spend in one
transaction. Which settlement depends on the intent the dispatch ran under: an intent whose
attempt may be repeated is released without a charge, an intent otherwise is settled, and without
an intent the spend is settled under the key of the request.

The billing service is wired in, so the early return for a service without billing is not part of
this model.
-/

namespace ModelConnector.Connectors

open Atomic Billing

/-- `grantsTransientTimeoutRetry`; `isBaseApi` says that the connector is a `BaseApiConnector`. -/
def grantsTransientTimeoutRetry (isBaseApi : Bool) (idempotencyKey : Option String)
    (intent : Option RequestIntentHandle) (response : ConnectorResponse) : Bool :=
  decide (response.status = .timeout) &&
    response.error.any (fun error ↦ decide (error.type = "timeout")) && isBaseApi &&
    idempotencyKey.any (fun key ↦ decide (key ≠ "")) &&
    intent.any fun intent ↦ decide (some intent.intentKey = idempotencyKey) && !intent.reclaimed

/-- What `persistAndSettle` reads of a finished dispatch. -/
structure Outcome where
  apiKeyId : String
  /-- `response.usage.costUsd`, as metered. -/
  costUsd : Decimal
  costSource : Option CostSource
  /-- The response, as its JSON text. -/
  response : String
  /-- False only for an attempt whose envelope tells the caller to repeat it. -/
  replayable : Bool := true

/-- `ConnectorsService.settleReason`. -/
def settleReason : Option CostSource → String
  | some .unpriced => "model-request:unpriced"
  | some .subscription => "model-request:subscription"
  | some .estimatedInputUnbilled => "model-request:estimated-input-unbilled"
  | _ => "model-request"

namespace Outcome

/-- The source as it is stored. -/
def storedSource (outcome : Outcome) : Option String :=
  outcome.costSource.map CostSource.text

/-- May the customer be charged for the dispatch? -/
def chargeable (outcome : Outcome) : Bool :=
  isChargeableToCustomer outcome.storedSource

/-- `customerChargeUsd`. -/
def customerChargeUsd (outcome : Outcome) : Decimal :=
  if outcome.chargeable then outcome.costUsd else .finite 0

/-- The `Request` row of the dispatch. -/
def requestRow (outcome : Outcome) (requestId : String) (costUsd now : ℤ) : RequestRow where
  id := requestId
  apiKeyId := outcome.apiKeyId
  costUsd := costUsd
  costSource := outcome.storedSource
  createdAt := now

/-- The settlement of a dispatch under an intent. -/
def settleIntentParams (outcome : Outcome) (intent : RequestIntentHandle) (requestId : String) :
    SettleIntentParams where
  intent := intent
  amountUsd := outcome.customerChargeUsd
  requestId := some requestId
  response := some outcome.response
  reason := some (settleReason outcome.costSource)

/-- The settlement of a dispatch without an intent. -/
def settleParams (outcome : Outcome) (requestId : String) : SettleParams where
  apiKeyId := outcome.apiKeyId
  amountUsd := outcome.customerChargeUsd
  idempotencyKey := "request:" ++ requestId
  requestId := some requestId
  reason := some (settleReason outcome.costSource)

end Outcome

/-- The settlement inside the transaction; its answer is not looked at. -/
def settleSpend (outcome : Outcome) (intent : Option RequestIntentHandle) (requestId : String)
    (now : ℤ) : Tx Bool :=
  match intent with
  | some intent =>
    if !outcome.replayable then releaseIntentInTx intent now
    else settleIntentInTx (outcome.settleIntentParams intent requestId) now
  | none => settleInTx (outcome.settleParams requestId)

/-- The transaction of `persistAndSettle`; `requestId` is the uuid the insertion mints. -/
def persistAndSettleInTx (outcome : Outcome) (intent : Option RequestIntentHandle)
    (requestId : String) (now : ℤ) : Tx Unit := do
  let cost ← ofExcept (bindDecimal outcome.costUsd)
  let costUsd ← ofExcept (storeDecimal 10 cost)
  requestCreate (outcome.requestRow requestId costUsd now)
  let _settled ← settleSpend outcome intent requestId now
  pure ()

/-- `ConnectorsService.persistAndSettle`. A refused transaction is logged, and the reservation is
then given back by a transaction of its own, `releaseIntent`. -/
def persistAndSettle (outcome : Outcome) (intent : Option RequestIntentHandle)
    (requestId : String) (now : ℤ) (db : Db) : Answer Unit :=
  (persistAndSettleInTx outcome intent requestId now).run db

/-- The `Request` row was inserted, and nothing else happened yet. -/
structure RequestCreated (row : RequestRow) (db db' : Db) : Prop where
  rows : db'.requests.rows = db.requests.rows ++ [row]
  fresh : ∀ a ∈ db.requests.rows, a.id ≠ row.id
  balances : db'.balances = db.balances
  ledger : db'.ledger = db.ledger
  intents : db'.intents = db.intents

theorem requestCreate_ok {row : RequestRow} {db db' : Db} {u : Unit}
    (h : requestCreate row db = .ok (u, db')) : RequestCreated row db db' := by
  simp only [requestCreate, bind_eq_ok_iff, read_eq_ok_iff] at h
  obtain ⟨_, _, ⟨rfl, rfl⟩, h⟩ := h
  cases hinsert : db.requests.insert? row with
  | none =>
    rw [hinsert] at h
    simp at h
  | some requests =>
    obtain ⟨hfresh, hrows⟩ := Table.insert?_eq_some_iff.1 hinsert
    simp only [hinsert, modify_eq_ok_iff] at h
    subst h
    exact ⟨hrows, fun a ha ↦ by simpa [RequestRow.clash] using hfresh a ha, rfl, rfl, rfl⟩

/-- A committed `persistAndSettle` inserted the row at its stored cost and ran the settlement. -/
theorem persistAndSettleInTx_ok {outcome : Outcome} {intent : Option RequestIntentHandle}
    {requestId : String} {now : ℤ} {db db' : Db} {u : Unit}
    (h : persistAndSettleInTx outcome intent requestId now db = .ok (u, db')) :
    ∃ (cost : ℚ) (db₁ : Db) (settled : Bool), outcome.costUsd = .finite cost ∧
      RequestCreated (outcome.requestRow requestId (toMicros cost) now) db db₁ ∧
        settleSpend outcome intent requestId now db₁ = .ok (settled, db') := by
  simp only [persistAndSettleInTx, bind_eq_ok_iff, ofExcept_eq_ok_iff] at h
  obtain ⟨cost, _, ⟨hbind, rfl⟩, costUsd, _, ⟨hstore, rfl⟩, _, db₁, hcreate, settled, db₂, hsettle,
    hpure⟩ := h
  obtain ⟨-, rfl⟩ := pure_eq_ok_iff.1 hpure
  rw [storeDecimal_eq_ok hstore] at hcreate
  exact ⟨cost, db₁, settled, bindDecimal_eq_ok hbind, requestCreate_ok hcreate, hsettle⟩

/-- An insertion under a fresh id goes through. -/
theorem requestCreate_of_fresh (row : RequestRow) (db : Db)
    (hfresh : ∀ a ∈ db.requests.rows, a.id ≠ row.id) :
    ∃ db', requestCreate row db = .ok ((), db') := by
  have hread : (read Db.requests : Tx _) db = .ok (db.requests, db) := rfl
  rw [requestCreate, bind_of_ok hread]
  cases hinsert : db.requests.insert? row with
  | none =>
    obtain ⟨a, ha, hclash⟩ := Table.insert?_eq_none_iff.1 hinsert
    exact absurd (by simpa [RequestRow.clash] using hclash) (hfresh a ha)
  | some requests => exact ⟨_, rfl⟩

end ModelConnector.Connectors
