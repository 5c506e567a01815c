import ModelConnector.Billing.Reversal
import ModelConnector.Foundations.Run
import ModelConnector.Foundations.Versions

/-!
# Reversals at the granularity of statements

`reverse` as the database executes it at `READ COMMITTED`: any number of calls in flight, each a
**session** that has one statement to execute next and carries what its earlier statements
returned. Between two statements of one session any other session may execute.

A statement sees the rows committed at that moment and the session's own. The unique index makes an
insertion wait for the version of another session, and `FOR UPDATE` makes it wait for the balance
row; a statement that has to wait is not enabled. What a session wrote becomes visible when it
commits, and is gone when it rolls back — because a statement failed, or because the connection
was lost or the server broke a deadlock (`ServerEvent.abort`).
-/

namespace ModelConnector.Billing

/-- What a session executes next, with what it has read so far. -/
inductive Statement
  /-- `tx.creditsLedger.findUnique` for the original. -/
  | findOriginal
  /-- `tx.creditsLedger.findMany` for what was reversed already, and the check of the headroom. -/
  | findPrior (original : LedgerRow)
  /-- `tx.creditsLedger.create` for the negative row. -/
  | createEntry (original : LedgerRow)
  /-- `tx.creditsBalance.upsert`. -/
  | ensureBalance (original : LedgerRow)
  /-- `SELECT … FOR UPDATE`. -/
  | lockBalance (original : LedgerRow)
  /-- `tx.creditsLedger.create` for what cannot be recovered, if there is any. -/
  | createWriteOff (original : LedgerRow) (locked : BalanceRow)
  /-- `tx.creditsBalance.update`, if anything is recovered. -/
  | decrementBalance (original : LedgerRow) (locked : BalanceRow)
  /-- The commit; `balance` is the row the session leaves. -/
  | commit (original : LedgerRow) (locked balance : BalanceRow)
  /-- The call has returned. -/
  | returned (answer : Except TxError ReversalResult)
  deriving DecidableEq

/-- A call of `reverse` in flight. -/
structure Session where
  params : ReverseParams
  amountUsd : ℚ
  next : Statement

/-- What a call that was rolled back answers: a duplicate key is a replayed reversal. -/
def ReverseParams.refused (params : ReverseParams) : TxError → Except TxError ReversalResult
  | .duplicateKey => .ok ⟨false, params.amountUsd, 0, 0⟩
  | e => .error e

/-- What the reversal recovers of a balance row it has locked. -/
def Session.recovered (session : Session) (locked : BalanceRow) : ℚ :=
  coveredBy (spendable locked.balanceUsd locked.heldUsd) session.amountUsd

/-- The database server. -/
structure Server where
  ledger : Versions LedgerRow LedgerRow.clash
  /-- The committed balance rows. -/
  balances : String → Option BalanceRow
  /-- The session that has locked the balance row of a key. -/
  locks : String → Option ℕ
  sessions : List Session

/-- What can happen next on the server. -/
inductive ServerEvent
  /-- `reverse` is called. -/
  | reverse (params : ReverseParams)
  /-- A session executes its next statement. -/
  | statement (session : ℕ)
  /-- A session is rolled back, for a reason of the server's. -/
  | abort (session : ℕ) (error : TxError)

namespace Server

/-- The server at rest over a store. -/
def ofDb (db : Db) : Server :=
  ⟨.ofTable db.ledger, db.balances, fun _ ↦ none, []⟩

/-- The amounts of the rows in a list that reverse an entry. -/
def reversals (rows : List LedgerRow) (originalKey : String) : List ℤ :=
  (rows.filter fun row ↦ row.reversalOf == some originalKey).map LedgerEntry.amountUsd

/-- Session `i` goes on to its next statement. -/
def goto (server : Server) (i : ℕ) (session : Session) (next : Statement) : Server :=
  { server with sessions := server.sessions.set i { session with next } }

/-- The locks of session `i` are given back. -/
def unlock (server : Server) (i : ℕ) : String → Option ℕ :=
  fun k ↦ if server.locks k = some i then none else server.locks k

/-- Session `i` is rolled back and answers. -/
def rollback (server : Server) (i : ℕ) (session : Session) (e : TxError) : Server :=
  { server.goto i session (.returned (session.params.refused e)) with
    ledger := server.ledger.rollback i
    locks := server.unlock i }

/-- Session `i` inserts a ledger row and goes on, fails, or waits. -/
def insert (server : Server) (i : ℕ) (session : Session) (data : LedgerEntry ℚ)
    (next : Statement) : Option Server :=
  match storeDecimal 12 data.amountUsd with
  | .error e => some (server.rollback i session e)
  | .ok amountUsd =>
    if !(data.toRow amountUsd).checks then some (server.rollback i session .checkViolation)
    else
      match server.ledger.insert i (data.toRow amountUsd) with
      | .inserted ledger => some { server.goto i session next with ledger }
      | .duplicate => some (server.rollback i session .duplicateKey)
      | .blocked => none

/-- Session `i` takes the lock of a balance row and goes on, or waits. -/
def lock (server : Server) (i : ℕ) (session : Session) (apiKeyId : String) (next : Statement) :
    Option Server :=
  if server.locks apiKeyId = none ∨ server.locks apiKeyId = some i then
    some { server.goto i session next with
      locks := Function.update server.locks apiKeyId (some i) }
  else none

/-- Session `i` commits: its rows and the balance row it leaves. -/
def commit (server : Server) (i : ℕ) (session : Session) (original : LedgerRow)
    (locked balance : BalanceRow) : Server :=
  let recovered := session.recovered locked
  { server.goto i session (.returned (.ok
      { applied := true
        reversedUsd := session.params.amountUsd
        recoveredUsd := recovered
        writtenOffUsd := Decimal.minus session.amountUsd recovered })) with
    ledger := server.ledger.commit i
    balances := Function.update server.balances original.apiKeyId (some balance)
    locks := server.unlock i }

/-- Session `i` executes its next statement; `none` when there is none, or it has to wait. -/
def execute (server : Server) (i : ℕ) (session : Session) : Option Server :=
  match session.next with
  | .findOriginal =>
    match (server.ledger.visibleTo i).find? fun row ↦
      row.idempotencyKey == session.params.originalIdempotencyKey with
    | none => some (server.rollback i session (.reversalRefused "original_not_found"))
    | some original =>
      if REVERSIBLE_ENTRY_TYPES.contains original.entryType then
        some (server.goto i session (.findPrior original))
      else some (server.rollback i session (.reversalRefused "original_not_reversible"))
  | .findPrior original =>
    -- the sum is computed here, and not looked at again
    let priorRows := reversals (server.ledger.visibleTo i) session.params.originalIdempotencyKey
    if session.amountUsd ≤ headroom original priorRows then
      some (server.goto i session (.createEntry original))
    else some (server.rollback i session (.reversalRefused "exceeds_original"))
  | .createEntry original =>
    server.insert i session (session.params.entry original session.amountUsd)
      (.ensureBalance original)
  | .ensureBalance original =>
    match server.balances original.apiKeyId with
    | some _ => some (server.goto i session (.lockBalance original))
    | none => server.lock i session original.apiKeyId (.lockBalance original)
  | .lockBalance original =>
    server.lock i session original.apiKeyId
      (.createWriteOff original ((server.balances original.apiKeyId).getD ⟨0, 0⟩))
  | .createWriteOff original locked =>
    let writtenOff := Decimal.minus session.amountUsd (session.recovered locked)
    if 0 < writtenOff then
      server.insert i session (session.params.writeOff original writtenOff)
        (.decrementBalance original locked)
    else some (server.goto i session (.decrementBalance original locked))
  | .decrementBalance original locked =>
    let recovered := session.recovered locked
    if 0 < recovered then
      match storeNonneg 12 (ofMicros locked.balanceUsd - recovered) with
      | .error e => some (server.rollback i session e)
      | .ok balanceUsd =>
        some (server.goto i session (.commit original locked { locked with balanceUsd }))
    else some (server.goto i session (.commit original locked locked))
  | .commit original locked balance => some (server.commit i session original locked balance)
  | .returned _ => none

/-- One step of the server; `none` when the event is not enabled. -/
def step (server : Server) : ServerEvent → Option Server
  | .reverse params =>
    let session : Session :=
      match validateReverse params with
      | .error e => ⟨params, 0, .returned (.error e)⟩
      | .ok amountUsd => ⟨params, amountUsd, .findOriginal⟩
    some { server with sessions := server.sessions ++ [session] }
  | .statement i => (server.sessions[i]?).bind (server.execute i)
  | .abort i e =>
    match server.sessions[i]? with
    | some session =>
      match session.next with
      | .returned _ => none
      | _ => some (server.rollback i session e)
    | none => none

end Server

end ModelConnector.Billing
