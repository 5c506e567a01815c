import ModelConnector.Bench.Contract
import ModelConnector.Foundations.Locked

/-!
# The two databases of a bench campaign

The primary database holds the campaign and its reservations, the checkpoint database the head the
campaign had last and an event for every reservation. Both are PostgreSQL: a constraint that fails
is an error of the statement. The `CHECK` and `UNIQUE` of `original_ledger_sha256` leave room for
one campaign in the primary database, and the row of that campaign is the only one of the checkpoint
that a reservation reads or writes.
-/

namespace ModelConnector.Bench

/-! ### Rows -/

/-- A row of `bench_campaign`. -/
structure CampaignRow where
  campaign : String
  original_ledger_sha256 : String
  journal_id : String
  sequence : ℕ
  input_tokens : ℕ
  output_tokens : ℕ
  head_sha256 : String
  deriving DecidableEq

/-- A row of `bench_reservation`. Its verdict is always `UNKNOWN_NO_RELEASE`. -/
structure ReservationRow where
  campaign : String
  attempt : String
  nonce : String
  sequence : ℕ
  grant_sha256 : String
  request : ReservationRequest
  previous_head_sha256 : String
  head_sha256 : String
  deriving DecidableEq

/-- A row of `bench_checkpoint`. -/
structure CheckpointRow where
  campaign : String
  journal_id : String
  sequence : ℕ
  input_tokens : ℕ
  output_tokens : ℕ
  head_sha256 : String
  deriving DecidableEq

/-- A row of `bench_checkpoint_event`. -/
structure CheckpointEvent where
  campaign : String
  sequence : ℕ
  attempt : String
  nonce : String
  request : ReservationRequest
  previous_head_sha256 : String
  head_sha256 : String
  deriving DecidableEq

/-- The primary database, once the campaign was provisioned. -/
structure Primary where
  campaign : CampaignRow
  reservations : List ReservationRow := []
  deriving DecidableEq

/-- The checkpoint database, once the campaign was provisioned. -/
structure Checkpoint where
  row : CheckpointRow
  events : List CheckpointEvent := []
  deriving DecidableEq

/-- The `CHECK` constraints of `bench_campaign` and of `bench_checkpoint`. -/
def countersChecked (sequence input output : ℕ) (head : String) : Bool :=
  (180 ≤ sequence && sequence ≤ 528) && (1695917 ≤ input && input ≤ 10000000) &&
    (199911 ≤ output && output ≤ 1500000) && head.toList.length == 64 &&
    head.toList.all fun c ↦ "0123456789abcdef".toList.contains c

/-! ### Heads -/

/-- The head a row of counters says, before they are checked. -/
def CampaignRow.toHead (row : CampaignRow) : Head where
  campaign := row.campaign
  journal := row.journal_id
  sequence := row.sequence
  aggregate := ⟨row.sequence, row.input_tokens, row.output_tokens⟩
  head := row.head_sha256

/-- The head a row of counters says, before they are checked. -/
def CheckpointRow.toHead (row : CheckpointRow) : Head where
  campaign := row.campaign
  journal := row.journal_id
  sequence := row.sequence
  aggregate := ⟨row.sequence, row.input_tokens, row.output_tokens⟩
  head := row.head_sha256

/-- `head`, of a row whose head is given. -/
def checkedHead (h : Head) : Except String Head := do
  requireBench (h.aggregate ≤ ⟨MAX_SAFE_INTEGER, MAX_SAFE_INTEGER, MAX_SAFE_INTEGER⟩)
    "counter_not_safe"
  pure h

/-- `same`. -/
def same (a b : Head) : Prop :=
  a.json.text = b.json.text

instance (a b : Head) : Decidable (same a b) :=
  inferInstanceAs (Decidable (a.json.text = b.json.text))

section Chain

variable (sha256 : String → String)

/-- The head after a request, before its counters are checked. -/
def succHead (current : Head) (request : ReservationRequest) : Head :=
  let aggregate := current.aggregate + request.reserved
  { current with
    sequence := current.sequence + 1
    aggregate
    head := digest sha256 (.obj [("previous", current.json), ("request", request.json),
      ("aggregate", countersJson aggregate)]) }

/-- `nextHead`. -/
def nextHead (current : Head) (request : ReservationRequest) : Except String Head := do
  requireBench (current.aggregate + request.reserved ≤
    ⟨MAX_SAFE_INTEGER, MAX_SAFE_INTEGER, MAX_SAFE_INTEGER⟩) "counter_overflow"
  pure (succHead sha256 current request)

/-- The head of a campaign none of whose reservations was made. -/
def initialHead (grant : Grant) : Head where
  campaign := grant.campaign
  journal := grant.journal_id
  sequence := grant.retained_baseline.attempts
  aggregate := grant.retained_baseline
  head := digest sha256 (.obj [("original_ledger_sha256", .str grant.original_ledger_sha256),
    ("journal", .str grant.journal_id), ("baseline", countersJson grant.retained_baseline)])

end Chain

/-! ### Statements -/

namespace Checkpoint

variable (db : Checkpoint)

/-- `CheckpointStore.read`. -/
def read (campaign : String) : Except String Head := do
  requireBench (db.row.campaign = campaign) "trusted_checkpoint_missing"
  checkedHead db.row.toHead

/-- The `UPDATE` of `compareAppend`, which has to find the previous head. -/
def compareUpdate (previous next : Head) : Except String Checkpoint := do
  requireBench (db.row.campaign = previous.campaign ∧ db.row.journal_id = previous.journal ∧
    db.row.sequence = previous.aggregate.attempts ∧
    db.row.input_tokens = previous.aggregate.input ∧
    db.row.output_tokens = previous.aggregate.output ∧ db.row.head_sha256 = previous.head)
    "checkpoint_cas_refused"
  requireBench (countersChecked next.sequence next.aggregate.input next.aggregate.output next.head)
    unknownPreserved
  pure { db with
    row := { db.row with
      sequence := next.sequence
      input_tokens := next.aggregate.input
      output_tokens := next.aggregate.output
      head_sha256 := next.head } }

/-- The `INSERT` of `compareAppend`. -/
def record (previous next : Head) (request : ReservationRequest) : Except String Checkpoint := do
  requireBench (∀ e ∈ db.events, ¬(e.campaign = next.campaign ∧
    (e.sequence = next.sequence ∨ e.attempt = request.attempt ∨ e.nonce = request.nonce)))
    unknownPreserved
  pure { db with
    events := db.events ++ [{
      campaign := next.campaign
      sequence := next.sequence
      attempt := request.attempt
      nonce := request.nonce
      request
      previous_head_sha256 := previous.head
      head_sha256 := next.head }] }

end Checkpoint

namespace Primary

variable (db : Primary)

/-- The query for an attempt or a nonce that was used. -/
def duplicate (campaign attempt nonce : String) : Bool :=
  db.reservations.any fun row ↦
    row.campaign = campaign ∧ (row.attempt = attempt ∨ row.nonce = nonce)

/-- The `INSERT` of a reservation. -/
def insert (row : ReservationRow) : Except String Primary := do
  requireBench (∀ r ∈ db.reservations, ¬(r.campaign = row.campaign ∧
    (r.attempt = row.attempt ∨ r.nonce = row.nonce ∨ r.sequence = row.sequence))) unknownPreserved
  pure { db with reservations := db.reservations ++ [row] }

/-- The database with the head of the campaign moved. -/
def moved (next : Head) : Primary :=
  { db with
    campaign := { db.campaign with
      sequence := next.sequence
      input_tokens := next.aggregate.input
      output_tokens := next.aggregate.output
      head_sha256 := next.head } }

/-- The `UPDATE` of the campaign. -/
def update (next : Head) : Except String Primary := do
  requireBench (countersChecked next.sequence next.aggregate.input next.aggregate.output next.head)
    unknownPreserved
  pure (db.moved next)

/-- The rows `verifyLocalChain` reads. -/
def orderedReservations (campaign : String) : List ReservationRow :=
  (db.reservations.filter (·.campaign = campaign)).insertionSort fun a b ↦ a.sequence ≤ b.sequence

end Primary

/-- `verifyLocalChain`, over the rows it has read. -/
def verifyLocalChain (sha256 : String → String) (rows : List ReservationRow) (current : Head)
    (grant : Grant) : Except String Unit := do
  let cursor ← rows.foldlM (fun cursor row ↦ do
    requireBench (row.sequence = cursor.sequence + 1 ∧ row.previous_head_sha256 = cursor.head)
      "torn_or_missing_reservation"
    let next ← nextHead sha256 cursor row.request
    requireBench (next.head = row.head_sha256) "reservation_chain_corrupt"
    pure next) (initialHead sha256 grant)
  requireBench (same cursor current) "local_head_not_complete_chain"

end ModelConnector.Bench
