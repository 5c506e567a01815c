import Mathlib.Logic.Function.Basic
import ModelConnector.Bench.Store

/-!
# The bench reservation service

`BenchReservationService.reserve` as calls that overlap, in any number of processes. A call is
admitted, and then waits for one statement after another: the campaign row under its lock, the local
chain, the checkpoint, the duplicates, the three statements of `compareAppend` and its commit, the
reservation, the new head and the commit. When the reply arrives it checks what the source checks
and sends the next statement, or is refused.

Between any two steps of a call every other call goes on, the call or its process can be lost, and
the database can drop a transaction. A commit that was sent takes effect in the database before the
call learns of it, or without the call ever learning of it.
-/

namespace ModelConnector.Bench

/-! ### Leases -/

/-- The time a call was given, by whom and for what. -/
structure Lease where
  started : ℤ
  deadline : ℤ
  grant : Grant
  token : String
  scope : String
  deriving DecidableEq

section Leases

variable (custody : Custody)

/-- `freshLease`, at the time it reads first. -/
def freshLease (grant : Grant) (token scope : String) (operationDeadline : Option ℤ)
    (started : ℤ) : Except String Lease := do
  requireBench (operationDeadline.all fun deadline : ℤ ↦
    deadline ≤ MAX_SAFE_INTEGER ∧ started < deadline ∧ deadline ≤ started + 5)
    "operation_deadline_invalid"
  let caller ← callerDeadline custody.toKeys token grant started scope
  pure {
    started
    deadline := min (min (operationDeadline.getD (started + 5)) (started + 5))
      (min grant.expires_unix caller)
    grant
    token
    scope }

/-- `assertFresh`, at the time it reads. -/
def Lease.assertFresh (lease : Lease) (now : ℤ) : Except String Unit := do
  requireBench (lease.started ≤ now ∧ now < lease.deadline) "authenticated_operation_expired"
  checkGrant lease.grant now
  discard (verifyCaller custody.toKeys lease.token lease.grant now lease.scope)

/-- `verifySigner`. -/
def verifySigner (grant : Grant) : Except String Unit := do
  requireBench (custody.custodianPublicKey ≠ custody.issuerPublicKey)
    "issuer_and_custodian_not_separate"
  requireBench (custody.custodianPublicKey = grant.custodian_public_key)
    "custodian_key_not_bound"

end Leases

/-- What a database says of itself. -/
structure DatabaseIdentity where
  database : String
  role : String
  superuser : Bool
  deriving DecidableEq

/-- `verifyDatabaseSeparation`. -/
def verifyDatabaseSeparation (primary checkpoint : DatabaseIdentity) : Except String Unit :=
  requireBench (primary.database ≠ checkpoint.database ∧ primary.role ≠ checkpoint.role ∧
    primary.superuser = false ∧ checkpoint.superuser = false) "database_custody_not_separate"

/-! ### Calls -/

/-- What a receipt says, which the custodian signs. -/
structure Receipt where
  valid_until_unix : ℤ
  request : ReservationRequest
  sequence : ℕ
  aggregate : Counters
  previous_head_sha256 : String
  head_sha256 : String
  deriving DecidableEq

/-- The statement a call waits for, or how it ended. -/
inductive Phase
  /-- `SELECT … FOR UPDATE` of the campaign. -/
  | locking
  /-- The reservations of `verifyLocalChain`. -/
  | chaining
  /-- `CheckpointStore.read`. -/
  | reading
  /-- The query for duplicates. -/
  | deduping
  /-- `SELECT … FOR UPDATE` of `compareAppend`. -/
  | anchoring
  /-- `UPDATE` of `compareAppend`. -/
  | casting
  /-- `INSERT` of `compareAppend`. -/
  | recording
  /-- `COMMIT` of `compareAppend`. -/
  | anchorCommit
  /-- `INSERT` of the reservation. -/
  | inserting
  /-- `UPDATE` of the campaign. -/
  | updating
  /-- `COMMIT` of the campaign. -/
  | committing
  | refused (condition : String)
  | reserved (receipt : Receipt)
  deriving DecidableEq

/-- What a call is given. -/
structure CallInput where
  signedGrant : String
  rawRequest : String
  callerAccessToken : String
  operationDeadline : Option ℤ := none

/-- What a call was admitted with, and how far it has come. -/
structure Progress where
  payload : String
  grant : Grant
  request : ReservationRequest
  lease : Lease
  previous : Option Head := none
  next : Option Head := none
  /-- Its append to the checkpoint took effect. -/
  anchored : Bool := false
  /-- Its transaction in the primary database took effect. -/
  committed : Bool := false

/-- A call of `reserve`. -/
structure Call extends Progress where
  phase : Phase := .locking

/-- The two databases, the calls, and the receipts that were signed, each with its call. -/
structure Campaign where
  primary : Locked Primary
  checkpoint : Locked Checkpoint
  calls : ℕ → Option Call
  issued : List (ℕ × Receipt) := []

/-- What happens. A call reads the clock whenever it checks that it is fresh. -/
inductive Event
  | reserve (id : ℕ) (input : CallInput) (primary checkpoint : DatabaseIdentity) (clock : ℕ → ℤ)
  /-- The reply a call waits for arrives. -/
  | reply (id : ℕ) (clock : ℕ → ℤ)
  /-- The call is lost: an error of its connection, a time limit, or a crash. -/
  | lose (id : ℕ)
  /-- The commit a call has sent takes effect. -/
  | checkpointCommit (id : ℕ)
  | primaryCommit (id : ℕ)
  /-- The database drops the transaction of a call. -/
  | checkpointAbort (id : ℕ)
  | primaryAbort (id : ℕ)

/-- The receipt of a call. -/
def Progress.receipt (progress : Progress) (previous next : Head) : Receipt where
  valid_until_unix := progress.lease.deadline
  request := progress.request
  sequence := next.sequence
  aggregate := next.aggregate
  previous_head_sha256 := previous.head
  head_sha256 := next.head

/-- The reservation of a call. -/
def Progress.reservationRow (sha256 : String → String) (progress : Progress)
    (previous next : Head) : ReservationRow where
  campaign := progress.grant.campaign
  attempt := progress.grant.attempt
  nonce := progress.request.nonce
  sequence := next.sequence
  grant_sha256 := sha256 progress.payload
  request := progress.request
  previous_head_sha256 := previous.head
  head_sha256 := next.head

section Steps

variable (custody : Custody)

/-- `reserve`, up to its first statement on the campaign. -/
def admitCall (input : CallInput) (primary checkpoint : DatabaseIdentity) (clock : ℕ → ℤ) :
    Except String Call := do
  let payload ← orUnknown (custody.verifyEnvelope input.signedGrant "BENCH-GRANT-v1\n")
  let grant ← orUnknown (custody.parseGrant payload)
  let lease ← freshLease custody grant input.callerAccessToken "bench:reserve"
    input.operationDeadline (clock 0)
  lease.assertFresh custody (clock 1)
  verifySigner custody grant
  verifyDatabaseSeparation primary checkpoint
  let request ← orUnknown (custody.parseRequest input.rawRequest)
  bindRequest grant request
  lease.assertFresh custody (clock 2)
  pure { payload, grant, request, lease }

/-- What a call does with the campaign row it has locked. -/
def Call.lockedRow (call : Call) (row : CampaignRow) (clock : ℕ → ℤ) : Except String Head := do
  call.lease.assertFresh custody (clock 0)
  requireBench (row.campaign = call.grant.campaign ∧
    row.original_ledger_sha256 = call.grant.original_ledger_sha256) "campaign_not_provisioned"
  let previous ← checkedHead row.toHead
  requireBench (previous.journal = call.grant.journal_id) "different_campaign_journal"
  requireBench (call.grant.retained_baseline ≤ previous.aggregate) "baseline_regressed"
  pure previous

/-- What a call does with the checkpoint it has read. -/
def Call.readCheckpoint (call : Call) (previous : Head) (db : Checkpoint) :
    Except String Unit := do
  let anchor ← db.read call.grant.campaign
  requireBench (same previous anchor) "restart_or_rollback_head_mismatch"

/-- What a call does with the duplicates it has read. -/
def Call.nextOf (call : Call) (previous : Head) (db : Primary) (clock : ℕ → ℤ) :
    Except String Head := do
  requireBench (db.duplicate call.grant.campaign call.grant.attempt call.request.nonce = false)
    "attempt_or_nonce_already_reserved"
  let next ← nextHead custody.sha256 previous call.request
  requireBench (next.aggregate ≤ CAPS) "campaign_cap_exhausted"
  call.lease.assertFresh custody (clock 0)
  pure next

/-- A call is fresh, twice. -/
def Call.fresh (call : Call) (clock : ℕ → ℤ) : Except String Unit := do
  call.lease.assertFresh custody (clock 0)
  call.lease.assertFresh custody (clock 1)

namespace Campaign

variable (s : Campaign)

/-- The state after a change of one call. -/
def set (id : ℕ) (call : Call) : Campaign :=
  { s with calls := Function.update s.calls id (some call) }

/-- The call goes on as it says, or is refused. -/
def settle (id : ℕ) (call : Call) : Except String Campaign → Campaign
  | .ok s' => s'
  | .error condition => s.set id { call with phase := .refused condition }

/-- The view a statement of the primary database runs on, unless its transaction was dropped. -/
def primaryView (id : ℕ) : Except String Primary :=
  orUnknown (s.primary.view? id)

/-- The view a statement of the checkpoint database runs on, unless its transaction was dropped. -/
def checkpointView (id : ℕ) : Except String Checkpoint :=
  orUnknown (s.checkpoint.view? id)

/-- The reply to a statement other than the locks and commits, which can be made to wait. -/
def answer (id : ℕ) (call : Call) (previous next : Head) (clock : ℕ → ℤ) :
    Except String Campaign := do
  match call.phase with
  | .chaining =>
    let db ← s.primaryView id
    verifyLocalChain custody.sha256 (db.orderedReservations call.grant.campaign) previous call.grant
    pure (s.set id { call with phase := .reading })
  | .reading =>
    call.readCheckpoint previous s.checkpoint.db
    pure (s.set id { call with phase := .deduping })
  | .deduping =>
    let db ← s.primaryView id
    let next ← call.nextOf custody previous db clock
    pure (s.set id { call with phase := .anchoring, next := some next })
  | .casting =>
    let db ← s.checkpointView id
    let db' ← db.compareUpdate previous next
    pure ({ s with checkpoint := s.checkpoint.write db' }.set id { call with phase := .recording })
  | .recording =>
    let db ← s.checkpointView id
    let db' ← db.record previous next call.request
    call.lease.assertFresh custody (clock 0)
    pure ({ s with checkpoint := (s.checkpoint.write db').requestCommit }.set id
      { call with phase := .anchorCommit })
  | .inserting =>
    let db ← s.primaryView id
    let db' ← db.insert (call.reservationRow custody.sha256 previous next)
    pure ({ s with primary := s.primary.write db' }.set id { call with phase := .updating })
  | .updating =>
    let db ← s.primaryView id
    let db' ← db.update next
    call.fresh custody clock
    pure ({ s with primary := (s.primary.write db').requestCommit }.set id
      { call with phase := .committing })
  | _ => .error unknownPreserved

/-- The reply a call waits for, once the locks are free and the commits were answered. -/
def reply (id : ℕ) (call : Call) (clock : ℕ → ℤ) : Option Campaign :=
  match call.phase with
  | .locking =>
    -- no row is locked, and nothing waited for, unless the grant names the campaign
    if s.primary.db.campaign.campaign = call.grant.campaign ∧
        s.primary.db.campaign.original_ledger_sha256 = call.grant.original_ledger_sha256 then
      (s.primary.acquire id).map fun primary ↦ { s with primary }.settle id call (do
        let previous ← call.lockedRow custody primary.db.campaign clock
        pure ({ s with primary }.set id { call with phase := .chaining, previous := some previous }))
    else some (s.settle id call (do
      call.lease.assertFresh custody (clock 0)
      .error "campaign_not_provisioned"))
  | .anchoring =>
    (s.checkpoint.acquire id).map fun checkpoint ↦ { s with checkpoint }.settle id call (do
      call.lease.assertFresh custody (clock 0)
      pure ({ s with checkpoint }.set id { call with phase := .casting }))
  | .anchorCommit =>
    if call.anchored then some (s.settle id call (do
      call.lease.assertFresh custody (clock 0)
      pure (s.set id { call with phase := .inserting })))
    else none
  | .committing =>
    match call.committed, call.previous, call.next with
    | true, some previous, some next => some (s.settle id call (do
        call.lease.assertFresh custody (clock 0)
        let receipt := call.receipt previous next
        pure { s.set id { call with phase := .reserved receipt } with
          issued := s.issued ++ [(id, receipt)] }))
    | _, _, _ => none
  | .refused _ => none
  | .reserved _ => none
  | _ =>
    call.previous.map fun previous ↦
      s.settle id call (s.answer custody id call previous (call.next.getD previous) clock)

/-- The call is over. -/
def lose (id : ℕ) (call : Call) : Option Campaign :=
  match call.phase with
  | .refused _ => none
  | .reserved _ => none
  | _ => some (s.set id { call with phase := .refused unknownPreserved })

/-- One event. -/
def step : Event → Option Campaign
  | .reserve id input primary checkpoint clock =>
    match s.calls id with
    | some _ => none
    | none =>
      match admitCall custody input primary checkpoint clock with
      | .ok call => some (s.set id call)
      -- a call that is not admitted leaves no trace
      | .error _ => some s
  | .reply id clock => (s.calls id).bind fun call ↦ s.reply custody id call clock
  | .lose id => (s.calls id).bind fun call ↦ s.lose id call
  | .checkpointCommit id =>
    (s.calls id).bind fun call ↦ (s.checkpoint.commit id).map fun checkpoint ↦
      { s with checkpoint }.set id { call with anchored := true }
  | .primaryCommit id =>
    (s.calls id).bind fun call ↦ (s.primary.commit id).map fun primary ↦
      { s with primary }.set id { call with committed := true }
  | .checkpointAbort id => (s.checkpoint.abort id).map fun checkpoint ↦ { s with checkpoint }
  | .primaryAbort id => (s.primary.abort id).map fun primary ↦ { s with primary }

end Campaign

/-- The databases after `provision`, before the first call. -/
def provisioned (bootstrap : Grant) : Campaign where
  primary :=
    { db :=
        { campaign :=
            { campaign := bootstrap.campaign
              original_ledger_sha256 := bootstrap.original_ledger_sha256
              journal_id := bootstrap.journal_id
              sequence := bootstrap.retained_baseline.attempts
              input_tokens := bootstrap.retained_baseline.input
              output_tokens := bootstrap.retained_baseline.output
              head_sha256 := (initialHead custody.sha256 bootstrap).head } } }
  checkpoint :=
    { db :=
        { row :=
            { campaign := bootstrap.campaign
              journal_id := bootstrap.journal_id
              sequence := bootstrap.retained_baseline.attempts
              input_tokens := bootstrap.retained_baseline.input
              output_tokens := bootstrap.retained_baseline.output
              head_sha256 := (initialHead custody.sha256 bootstrap).head } } }
  calls _ := none

end Steps

end ModelConnector.Bench
