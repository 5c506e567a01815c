import Mathlib.Data.List.Sort
import ModelConnector.Billing.Reversal

/-!
# Request intents

A request intent is a claim on an idempotency key together with a reservation of funds. It is
opened by an insertion that reserves its hold, and leaves the state `held` in one of three ways:
settled by its owner, released by its owner, or released by the expiry sweep. A key whose intent
was released or has expired can be **reclaimed**: the same row, under the same id, goes back to
`held` with the hold of the request that reclaims it.

Each of these is one transaction, and each moves the row by an `updateMany` guarded on the state
it expects: the one that moves the row acts, the others find a count of zero and do nothing. What
a release gives back is the hold of the **handle** the caller carries, not of the row.

The definitions come first, one for each method; the specifications say of each transaction that
it moved nothing, or which row it moved and what happened to the money: `Reserved`,
`HoldReleased` and `Charged` are the three things that can happen to it.
-/

namespace ModelConnector.Billing

open Atomic

/-! ### Constants -/

/-- `DEFAULT_HOLD_TTL_MS`. -/
def DEFAULT_HOLD_TTL_MS : ℤ :=
  30 * 60 * 1000

/-- `DEFAULT_INTENT_RETENTION_MS`. -/
def DEFAULT_INTENT_RETENTION_MS : ℤ :=
  24 * 60 * 60 * 1000

/-- `MAX_REPLAYABLE_RESPONSE_BYTES`. -/
def MAX_REPLAYABLE_RESPONSE_BYTES : ℕ :=
  512 * 1024

/-- The ledger's idempotency key for an intent's charge. -/
def ledgerKeyForIntent (intentId : String) : String :=
  "intent:" ++ intentId

/-- The write-off entry that pairs with an over-budget charge. -/
def writeOffKeyForIntent (intentId : String) : String :=
  "uncollectible:" ++ intentId

/-! ### Parameters and answers -/

/-- A live reservation, and the handle every later step is keyed on. -/
structure RequestIntentHandle where
  id : String
  apiKeyId : String
  intentKey : String
  holdUsd : ℚ
  /-- The reservation took back the key of an attempt that was released. -/
  reclaimed : Bool := false
  deriving DecidableEq

/-- The hold a handle gives back, in micro-dollars: `hold.toFixed(6)`, and nothing for a hold that
is not positive. -/
def RequestIntentHandle.holdMicros (intent : RequestIntentHandle) : ℕ :=
  (toMicros intent.holdUsd).toNat

/-- The parameters of `openIntent`. -/
structure OpenIntentParams where
  apiKeyId : String
  intentKey : String
  clientSupplied : Bool
  payloadFingerprint : String
  holdUsd : Decimal
  ttlMs : Option ℤ := none

/-- What `openIntent` decided. -/
inductive IntentOpenResult
  /-- Reserved; go ahead and dispatch. -/
  | opened (intent : RequestIntentHandle)
  /-- This exact intent already completed. -/
  | replay (response : String) (requestId : Option String)
  /-- Known key, still running. -/
  | inFlight
  /-- Known key, different payload. -/
  | payloadMismatch
  /-- Completed, but the response was too large to store. -/
  | notReplayable
  /-- The reservation lost the race, or the account is empty. -/
  | insufficient (balanceUsd requiredUsd : ℚ)
  deriving DecidableEq

/-- The parameters of `settleIntent`; the response is its JSON text, `none` for `undefined`. -/
structure SettleIntentParams where
  intent : RequestIntentHandle
  amountUsd : Decimal
  requestId : Option String := none
  response : Option String := none
  reason : Option String := none

/-- The charge `settleIntentInTx` writes. -/
def SettleIntentParams.entry (params : SettleIntentParams) (amountUsd : ℚ) : ChargeEntry where
  apiKeyId := params.intent.apiKeyId
  amountUsd := amountUsd
  idempotencyKey := ledgerKeyForIntent params.intent.id
  writeOffKey := writeOffKeyForIntent params.intent.id
  requestId := params.requestId
  reason := params.reason.getD "model-request"

/-- `BillingService.storableResponse`: nothing to store, too large to store (`NULL`), or the
response. -/
def storableResponse (response : Option String) : Option (Option String) :=
  response.map fun serialised ↦
    if MAX_REPLAYABLE_RESPONSE_BYTES < serialised.utf8ByteSize then none else some serialised

/-! ### Reserving and giving back -/

/-- `BillingService.reserveInTx`. -/
def reserveInTx (apiKeyId : String) (hold : ℚ) : Tx Unit :=
  if 0 < hold then do
    let moved ← creditsBalanceReserve apiKeyId (toMicros hold).toNat
    require (moved == 1) .holdRejected
  else pure ()

/-- `BillingService.releaseHoldInTx`. -/
def releaseHoldInTx (intent : RequestIntentHandle) : Tx Unit :=
  if 0 < intent.holdUsd then creditsBalanceRelease intent.apiKeyId intent.holdMicros
  else pure ()

/-! ### Opening -/

/-- The row `openIntent` inserts. -/
def OpenIntentParams.row (params : OpenIntentParams) (id : String) (holdUsd : ℕ)
    (now expiresAt : ℤ) : IntentRow where
  id := id
  apiKeyId := params.apiKeyId
  intentKey := params.intentKey
  clientSupplied := params.clientSupplied
  holdUsd := holdUsd
  state := .held
  payloadFingerprint := params.payloadFingerprint
  requestId := none
  response := none
  expiresAt := expiresAt
  createdAt := now
  completedAt := none

/-- The transaction of `openIntent`; `id` is the uuid the insertion mints. -/
def openIntentInTx (params : OpenIntentParams) (id : String) (now expiresAt : ℤ) :
    Tx RequestIntentHandle := do
  require (!params.holdUsd.isNegative)
    (.failed "openIntent() reserves funds; a negative hold would release them")
  let hold ← ofExcept (bindDecimal params.holdUsd)
  let holdUsd ← ofExcept (storeNonneg 12 hold)
  requestIntentCreate (params.row id holdUsd now expiresAt)
  reserveInTx params.apiKeyId hold
  pure { id, apiKeyId := params.apiKeyId, intentKey := params.intentKey, holdUsd := ofMicros holdUsd }

/-- The update that takes an abandoned intent back. -/
def reclaimData (holdUsd : ℕ) (expiresAt : ℤ) : IntentUpdate where
  state := .held
  holdUsd := some holdUsd
  expiresAt := some expiresAt
  requestId := some none
  response := some none
  completedAt := none

/-- The transaction of `reclaimIntent`; `false` when another caller took the key first. -/
def reclaimIntentInTx (intentId apiKeyId : String) (hold : ℚ) (expiresAt : ℤ) : Tx Bool := do
  let holdUsd ← ofExcept (storeNonneg 12 hold)
  let count ← requestIntentUpdateMany intentId [.released, .expired] (reclaimData holdUsd expiresAt)
  if count ≠ 1 then pure false
  else do
    reserveInTx apiKeyId hold
    pure true

/-- What `resolveReplay` answers, or the id of the abandoned intent it goes on to reclaim. -/
def resolveReplay (params : OpenIntentParams) (db : Db) : IntentOpenResult ⊕ String :=
  match db.requestIntentFindUnique params.apiKeyId params.intentKey with
  | none => .inl .inFlight
  | some existing =>
    if existing.payloadFingerprint != params.payloadFingerprint then .inl .payloadMismatch
    else
      match existing.state with
      | .completed =>
        match existing.response with
        | none => .inl .notReplayable
        | some response => .inl (.replay response existing.requestId)
      | .held => .inl .inFlight
      | .released | .expired => .inr existing.id

/-! ### Settling and releasing -/

/-- The update of a settlement. -/
def SettleIntentParams.data (params : SettleIntentParams) (now : ℤ) : IntentUpdate where
  state := .completed
  requestId := params.requestId.map some
  response := storableResponse params.response
  completedAt := some now

/-- `BillingService.settleIntentInTx`. -/
def settleIntentInTx (params : SettleIntentParams) (now : ℤ) : Tx Bool := do
  require (!params.amountUsd.isNegative)
    (.failed "settleIntent() charges a cost; a negative amount would credit the account")
  let count ← requestIntentUpdateMany params.intent.id [.held] (params.data now)
  if count ≠ 1 then pure false
  else do
    releaseHoldInTx params.intent
    let amountUsd ← ofExcept (bindDecimal params.amountUsd)
    chargeInTx (params.entry amountUsd)

/-- `BillingService.settleIntent`; its own check of the sign is the one `settleIntentInTx` makes
first. -/
def settleIntent (params : SettleIntentParams) (now : ℤ) (db : Db) : Answer Bool :=
  absorbDuplicate false ((settleIntentInTx params now).run db)

/-- The update of a release. -/
def releaseData (state : IntentState) (now : ℤ) : IntentUpdate where
  state := state
  completedAt := some now

/-- The body `releaseIntent` and `releaseIntentInTx` share. -/
def releaseTo (state : IntentState) (intent : RequestIntentHandle) (now : ℤ) : Tx Bool := do
  let count ← requestIntentUpdateMany intent.id [.held] (releaseData state now)
  if count ≠ 1 then pure false
  else do
    releaseHoldInTx intent
    pure true

/-- `BillingService.releaseIntentInTx`. -/
def releaseIntentInTx (intent : RequestIntentHandle) (now : ℤ) : Tx Bool :=
  releaseTo .released intent now

/-- `BillingService.releaseIntent`, by its owner. -/
def releaseIntent (intent : RequestIntentHandle) (now : ℤ) (db : Db) : Answer Bool :=
  (releaseTo .released intent now).run db

/-- `BillingService.releaseIntent`, by the sweeper. -/
def expireIntent (intent : RequestIntentHandle) (now : ℤ) (db : Db) : Answer Bool :=
  (releaseTo .expired intent now).run db

/-! ### Maintenance -/

/-- The handle the sweeper makes of a row. -/
def IntentRow.handle (row : IntentRow) : RequestIntentHandle where
  id := row.id
  apiKeyId := row.apiKeyId
  intentKey := row.intentKey
  holdUsd := ofMicros row.holdUsd

/-- The read of `sweepExpiredIntents`: the handles it goes on to release, one by one. -/
def sweepExpiredIntents (limit : ℤ) (now : ℤ) (db : Db) : List RequestIntentHandle :=
  let stale := db.intents.rows.filter fun row ↦ row.state == .held && decide (row.expiresAt < now)
  ((stale.insertionSort fun a b ↦ a.expiresAt ≤ b.expiresAt).take
    (min (max limit 1) 5000).toNat).map IntentRow.handle

/-- The rows `purgeSettledIntents` deletes. -/
def purgeable (retentionMs now : ℤ) (row : IntentRow) : Bool :=
  [IntentState.completed, .released, .expired].contains row.state &&
    decide (row.createdAt < now - retentionMs)

/-- `BillingService.purgeSettledIntents`, without its count. -/
def purgeSettledIntents (retentionMs now : ℤ) (db : Db) : Db :=
  { db with intents := db.intents.deleteMany (purgeable retentionMs now) }

end ModelConnector.Billing
