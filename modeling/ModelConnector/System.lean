import ModelConnector.Billing.Reconciler
import ModelConnector.Connectors.Settlement
import ModelConnector.Foundations.Run

/-!
# The system

Any number of callers work on one store at the same time. Each database transaction is atomic;
between the transactions of one caller any other caller may run. A caller that has more than one
transaction to make is a **call**, with what it carries in memory from one to the next:

* a request that opens an intent — its insertion may be refused as a duplicate, then it reads the
  existing row, and then it may take that row back; each is a step of its own;
* the owner of an opened intent, which ends by settling or releasing it with its handle — at any
  later time, also when the intent has expired meanwhile;
* a sweep, which reads the expired intents and then releases them one by one;
* a reconcile run, which reads the unsettled requests and then settles them one by one.

The clock moves only by `Event.tick`. The uuids the database mints are part of the events that
mint them, and `System.minted` keeps an event from minting one a second time.
-/

namespace ModelConnector

open Billing Connectors

/-- A caller, between two of its transactions. -/
inductive Call
  /-- The insertion of `openIntent` hit the key of an existing intent. -/
  | resolving (params : OpenIntentParams) (expiresAt : ℤ)
  /-- The existing intent was abandoned, and is about to be taken back. -/
  | reclaiming (params : OpenIntentParams) (expiresAt : ℤ) (intentId : String)
  /-- The request owns an opened intent and dispatches under it. -/
  | owner (intent : RequestIntentHandle)
  /-- A sweep, with the handles it has still to release. -/
  | sweeping (stale : List RequestIntentHandle)
  /-- A reconcile run, with the requests it has still to settle. -/
  | reconciling (orphans : List RequestRow) (report : ReconcileReport)
  /-- `openIntent` answered something else than `opened`. -/
  | answered (result : IntentOpenResult)
  /-- The call threw. -/
  | threw (error : TxError)
  /-- The owner has settled or released. -/
  | done

/-- The state of the system. -/
structure System where
  db : Db
  now : ℤ
  calls : List Call
  /-- Every uuid minted so far. -/
  minted : List String

/-- What can happen next. A number is the index of the call that goes on. -/
inductive Event
  | tick (ms : ℕ)
  | credit (params : CreditParams)
  | gift (params : GiftParams)
  | recordPayment (params : PaymentParams)
  | reverse (params : ReverseParams)
  | settle (params : SettleParams)
  /-- A request opens an intent; `id` is the uuid of the row it tries to insert. -/
  | openIntent (params : OpenIntentParams) (id : String)
  | resolveReplay (call : ℕ)
  | reclaimIntent (call : ℕ)
  /-- The owner settles; the handle is the one its call carries. -/
  | settleIntent (call : ℕ) (amountUsd : Decimal) (requestId response reason : Option String)
  | releaseIntent (call : ℕ)
  /-- A dispatch under an intent is persisted; `requestId` is the uuid of its row. -/
  | persistAndSettle (call : ℕ) (outcome : Outcome) (requestId : String)
  /-- A dispatch without an intent is persisted. -/
  | persistAndSettleDirect (outcome : Outcome) (requestId : String)
  | sweepExpiredIntents (limit : ℤ)
  /-- The sweep releases its next intent. -/
  | expireIntent (call : ℕ)
  | purgeSettledIntents (retentionMs : ℤ)
  | findUnsettled (opts : ReconcileOptions)
  /-- The reconcile run settles its next request, perhaps meeting a fault. -/
  | reconcileRow (call : ℕ) (fault : Option Fault)

namespace System

/-- The uuids a store knows. -/
def ids (db : Db) : List String :=
  db.intents.rows.map IntentRow.id ++ db.requests.rows.map RequestRow.id ++
    db.ledger.rows.filterMap LedgerEntry.requestId

/-- The system at rest over a store. -/
def init (db : Db) : System :=
  ⟨db, 0, [], ids db⟩

/-- The expiry an `openIntent` gives its intent. -/
def expiry (s : System) (params : OpenIntentParams) : ℤ :=
  s.now + params.ttlMs.getD DEFAULT_HOLD_TTL_MS

/-- Write the store. -/
def write (s : System) (db : Db) : System :=
  { s with db }

/-- A new call begins. -/
def enter (s : System) (call : Call) (db : Db) : System :=
  { s with db, calls := s.calls ++ [call] }

/-- A call goes on. -/
def resume (s : System) (i : ℕ) (call : Call) (db : Db) : System :=
  { s with db, calls := s.calls.set i call }

/-- A uuid is minted. -/
def mint (s : System) (id : String) : System :=
  { s with minted := id :: s.minted }

/-- `BillingService.available`, for the answer of a refused reservation. -/
def available (db : Db) (apiKeyId : String) : ℚ :=
  ofMicros (db.balanceOf apiKeyId) - ofMicros (db.heldOf apiKeyId)

/-- The hold a parameter asks for; only finite holds get as far as a reservation. -/
def holdOf (params : OpenIntentParams) : ℚ :=
  match params.holdUsd with
  | .finite hold => hold
  | _ => 0

/-- What `openIntent` does with the error of a transaction that was to reserve. -/
def refused (params : OpenIntentParams) (db : Db) : TxError → Call
  | .holdRejected =>
    .answered (.insufficient (available db params.apiKeyId) (holdOf params))
  | e => .threw e

/-- The call of an `openIntent` after its insertion. -/
def afterOpen (params : OpenIntentParams) (expiresAt : ℤ) (db : Db) :
    Except TxError RequestIntentHandle → Call
  | .ok intent => .owner intent
  | .error .duplicateKey => .resolving params expiresAt
  | .error e => refused params db e

/-- The call after its read of the existing row. -/
def afterResolve (params : OpenIntentParams) (expiresAt : ℤ) : IntentOpenResult ⊕ String → Call
  | .inl result => .answered result
  | .inr intentId => .reclaiming params expiresAt intentId

/-- The handle of a reclaimed intent. -/
def reclaimedHandle (params : OpenIntentParams) (intentId : String) : RequestIntentHandle where
  id := intentId
  apiKeyId := params.apiKeyId
  intentKey := params.intentKey
  holdUsd := holdOf params
  reclaimed := true

/-- The call after it tried to take the existing row back. -/
def afterReclaim (params : OpenIntentParams) (intentId : String) (db : Db) :
    Except TxError Bool → Call
  | .ok true => .owner (reclaimedHandle params intentId)
  | .ok false => .answered .inFlight
  | .error e => refused params db e

/-- The owner's call after a transaction of its: over when it committed, and still the owner, who
will release, when it was refused. -/
def afterSettle {α : Type} (intent : RequestIntentHandle) : Except TxError α → Call
  | .ok _ => .done
  | .error _ => .owner intent

end System

/-- One step of the system; `none` when the event is not enabled. -/
def step (s : System) : Event → Option System
  | .tick ms => some { s with now := s.now + ms }
  | .credit params => some (s.write (credit params s.db).2)
  | .gift params => some (s.write (gift params s.db).2)
  | .recordPayment params => some (s.write (recordPayment params s.db).2)
  | .reverse params => some (s.write (reverse params s.db).2)
  | .settle params => some (s.write (settle params s.db).2)
  | .openIntent params id =>
    if id ∈ s.minted then none
    else
      let (answer, db) := (openIntentInTx params id s.now (s.expiry params)).run s.db
      some ((s.enter (System.afterOpen params (s.expiry params) db answer) db).mint id)
  | .resolveReplay i =>
    match s.calls[i]? with
    | some (.resolving params expiresAt) =>
      some (s.resume i (System.afterResolve params expiresAt (resolveReplay params s.db)) s.db)
    | _ => none
  | .reclaimIntent i =>
    match s.calls[i]? with
    | some (.reclaiming params expiresAt intentId) =>
      let (answer, db) :=
        (reclaimIntentInTx intentId params.apiKeyId (System.holdOf params) expiresAt).run s.db
      some (s.resume i (System.afterReclaim params intentId db answer) db)
    | _ => none
  | .settleIntent i amountUsd requestId response reason =>
    match s.calls[i]? with
    | some (.owner intent) =>
      let (answer, db) := settleIntent { intent, amountUsd, requestId, response, reason } s.now s.db
      some (s.resume i (System.afterSettle intent answer) db)
    | _ => none
  | .releaseIntent i =>
    match s.calls[i]? with
    | some (.owner intent) =>
      let (answer, db) := releaseIntent intent s.now s.db
      some (s.resume i (System.afterSettle intent answer) db)
    | _ => none
  | .persistAndSettle i outcome requestId =>
    if requestId ∈ s.minted then none
    else
      match s.calls[i]? with
      | some (.owner intent) =>
        let (answer, db) := persistAndSettle outcome (some intent) requestId s.now s.db
        some ((s.resume i (System.afterSettle intent answer) db).mint requestId)
      | _ => none
  | .persistAndSettleDirect outcome requestId =>
    if requestId ∈ s.minted then none
    else some ((s.write (persistAndSettle outcome none requestId s.now s.db).2).mint requestId)
  | .sweepExpiredIntents limit =>
    some (s.enter (.sweeping (sweepExpiredIntents limit s.now s.db)) s.db)
  | .expireIntent i =>
    match s.calls[i]? with
    | some (.sweeping (intent :: stale)) =>
      some (s.resume i (.sweeping stale) (expireIntent intent s.now s.db).2)
    | _ => none
  | .purgeSettledIntents retentionMs => some (s.write (purgeSettledIntents retentionMs s.now s.db))
  | .findUnsettled opts =>
    let orphans := findUnsettled opts s.now s.db
    some (s.enter (.reconciling orphans { scanned := orphans.length, dryRun := opts.dryRun }) s.db)
  | .reconcileRow i fault =>
    match s.calls[i]? with
    | some (.reconciling (row :: orphans) report) =>
      let (report, db) := reconcileRow row fault report s.db
      some (s.resume i (.reconciling orphans report) db)
    | _ => none

end ModelConnector
