import ModelConnector.Foundations.Table

/-!
# Strict chat

`StrictChatService.execute` over its intent store. A request claims its intent with one `INSERT`,
reads it back, opens the provider's stream, passes its frames on, completes the row with one
`UPDATE`, reads it back again and only then ends the answer. Every statement is three steps of the
model: it is sent, it takes effect in the database, and its acknowledgement arrives; a request can
fail and its process can crash between any two of them, and a statement that was sent can still take
effect afterwards.

The digest of a request is a parameter. What the authority, the caller's signal and the clock say is
left open: every step of a request may be refused.
-/

namespace ModelConnector.Connectors

/-- The exposure an authority pins a request to. -/
structure SupplierPin where
  admission : String
  rate : String
  checkpoint : String
  capability : String
  source : String
  deployment : String
  encoder : String
  hard_output : String
  units : String
  scale : ℤ
  deriving DecidableEq

/-- A request body; `content` is everything the service only passes on. -/
structure StrictChatRequest where
  intent : String
  attempt : String
  generation : String
  model : String
  capability_sha256 : String
  admission_sha256 : String
  rate_sha256 : String
  checkpoint_sha256 : String
  deadline_ms : ℤ
  content : String
  deriving DecidableEq

/-- What the authority grants. -/
structure StrictAuthorityLease where
  tenant : String
  connector : String
  model : String
  digest : String
  deadline_ms : ℤ
  intent : String
  attempt : String
  generation : String
  exposure : SupplierPin
  deriving DecidableEq

/-- The tokens a provider reports. -/
structure StrictUsage where
  prompt_tokens : ℕ
  completion_tokens : ℕ
  total_tokens : ℕ
  deriving DecidableEq

/-- What a stream ends with. -/
structure StreamSummary where
  served_model : String
  provider_id : Option String
  finish : String
  usage : Option StrictUsage
  deriving DecidableEq

/-- The state of an intent. -/
inductive StrictIntentState
  | dispatchStarted
  | completed
  | uncertain
  deriving DecidableEq

/-- The receipt of a request. -/
structure StrictReceipt where
  version : String
  intent : String
  attempt : String
  generation : String
  digest : String
  requested_model : String
  served_model : String
  provider_id : Option String
  finish : String
  usage : Option StrictUsage
  dispatch_count : ℕ
  exposure : SupplierPin
  state : StrictIntentState
  deriving DecidableEq

/-- A row of `strict_supplier_intent`. -/
structure IntentRecord where
  tenant : String
  intent : String
  attempt : String
  generation : String
  digest : String
  model : String
  connector : String
  state : StrictIntentState
  exposure : SupplierPin
  receipt : Option StrictReceipt
  deriving DecidableEq

/-- Two rows have the same primary key. -/
def IntentRecord.clash (a b : IntentRecord) : Bool :=
  decide (a.tenant = b.tenant) && decide (a.intent = b.intent)

/-- The table `strict_supplier_intent`. -/
abbrev IntentTable := Table IntentRecord IntentRecord.clash

/-- What a stream yields: the text of one event, never the one that ends an answer. The transport
parses the data of every event as JSON before it yields it. -/
structure StreamFrame where
  text : String
  not_done : text ≠ "data: [DONE]\n\n"
  deriving DecidableEq

/-- What the client is sent. -/
inductive ClientEvent
  | frame (frame : StreamFrame)
  | receipt (receipt : StrictReceipt)
  | done
  deriving DecidableEq

/-- The error a request ends with. -/
inductive StrictChatError
  | refused
  | conflict
  | replayUnavailable
  | uncertain
  deriving DecidableEq

/-- How a request ends. -/
inductive SessionEnd
  | error (code : StrictChatError)
  | crashed
  | answered
  deriving DecidableEq

/-- How far a request has come, with the row it claims its intent with. A statement under way knows
whether it has taken effect, and with which answer. -/
inductive StrictPhase
  | checked
  | inserting (row : IntentRecord) (applied : Option Bool)
  | reading (row : IntentRecord) (inserted : Bool)
  | claimed (row : IntentRecord)
  | streaming (row : IntentRecord)
  | finishing (row : IntentRecord) (receipt : StrictReceipt) (applied : Option Bool)
  | rereading (row : IntentRecord) (receipt : StrictReceipt) (updated : Bool)
  | committed (row : IntentRecord) (receipt : StrictReceipt)
  | receiptSent (row : IntentRecord) (receipt : StrictReceipt)
  | done
  deriving DecidableEq

/-- A request in the service. -/
structure StrictSession where
  tenant : String
  connector : String
  body : StrictChatRequest
  phase : StrictPhase := .checked
  sent : List ClientEvent := []
  ended : Option SessionEnd := none
  deriving DecidableEq

/-- A step of one request. -/
inductive StrictAction
  | begin (lease : StrictAuthorityLease)
  | ackInsert
  | readBack
  | openStream
  | deliver (frame : StreamFrame)
  | summarise (summary : StreamSummary)
  | ackFinish
  | readFinish
  | sendReceipt
  | sendDone
  | answer
  | fail
  | crash
  deriving DecidableEq

/-! ### One request -/

/-- `/^[a-f0-9]{64}$/`. -/
def isSha (text : String) : Bool :=
  let chars := text.toList
  chars.length == 64 && chars.all fun c ↦ ('a' ≤ c && c ≤ 'f') || ('0' ≤ c && c ≤ '9')

/-- `/^\d{1,38}$/`. -/
def isUnits (text : String) : Bool :=
  let chars := text.toList
  decide (1 ≤ chars.length) && decide (chars.length ≤ 38) &&
    chars.all fun c ↦ '0' ≤ c && c ≤ '9'

/-- `Number.MAX_SAFE_INTEGER`. -/
def MAX_SAFE_INTEGER : ℤ :=
  9007199254740991

namespace StrictSession

variable (chatDigest : String → StrictChatRequest → String) (s : StrictSession)

/-- The digest of the request. -/
def digest : String :=
  chatDigest s.connector s.body

/-- The lease is for this request, and its exposure is well formed and the one that was asked
for. -/
def leaseAccepted (lease : StrictAuthorityLease) : Bool :=
  let x := lease.exposure
  decide (lease.tenant = s.tenant ∧ lease.connector = s.connector ∧
      lease.model = s.body.model ∧ lease.digest = s.digest chatDigest ∧
      lease.intent = s.body.intent ∧ lease.attempt = s.body.attempt ∧
      lease.generation = s.body.generation ∧ s.body.deadline_ms ≤ lease.deadline_ms ∧
      |lease.deadline_ms| ≤ MAX_SAFE_INTEGER ∧ 0 ≤ x.scale ∧ x.scale ≤ 18) &&
    isUnits x.units &&
    [x.admission, x.rate, x.checkpoint, x.capability, x.source, x.deployment, x.encoder,
      x.hard_output].all isSha &&
    decide (x.admission = s.body.admission_sha256 ∧ x.rate = s.body.rate_sha256 ∧
      x.checkpoint = s.body.checkpoint_sha256 ∧ x.capability = s.body.capability_sha256)

/-- The row the request claims its intent with. -/
def row (exposure : SupplierPin) : IntentRecord where
  tenant := s.tenant
  intent := s.body.intent
  attempt := s.body.attempt
  generation := s.body.generation
  digest := s.digest chatDigest
  model := s.body.model
  connector := s.connector
  state := .dispatchStarted
  exposure
  receipt := none

/-- The receipt of the request. -/
def receipt (exposure : SupplierPin) (summary : StreamSummary) : StrictReceipt where
  version := "mc-chat/v1"
  intent := s.body.intent
  attempt := s.body.attempt
  generation := s.body.generation
  digest := s.digest chatDigest
  requested_model := s.body.model
  served_model := summary.served_model
  provider_id := summary.provider_id
  finish := summary.finish
  usage := summary.usage
  dispatch_count := 1
  exposure
  state := if summary.usage.isSome then .completed else .uncertain

/-- The request ends with an error. -/
def throw (code : StrictChatError) : StrictSession :=
  { s with ended := some (.error code) }

/-- `started`: the request has claimed its intent. -/
def started : Bool :=
  match s.phase with
  | .checked => false
  | .inserting _ _ => false
  | .reading _ _ => false
  | _ => true

/-- `read`, with the key of a row. -/
def read (rows : IntentTable) (row : IntentRecord) : Option IntentRecord :=
  rows.find? fun stored ↦ stored.clash row

/-- The request after it has read its row back. -/
def afterReadBack (row : IntentRecord) (inserted : Bool) : Option IntentRecord → StrictSession
  | none => s.throw .refused
  | some stored =>
    if stored.tenant ≠ s.tenant ∨ stored.intent ≠ s.body.intent ∨
        stored.digest ≠ s.digest chatDigest then s.throw .conflict
    else if inserted = false then s.throw .replayUnavailable
    else if stored = row then { s with phase := .claimed row }
    else { s with phase := .claimed row }.throw .uncertain

/-- One step of a request, with what the store holds. Only a request that has not ended takes
steps. -/
def act (rows : IntentTable) (action : StrictAction) : Option StrictSession :=
  if s.ended ≠ none then none
  else
    match action, s.phase with
    | .begin lease, .checked =>
      if s.leaseAccepted chatDigest lease then
        some { s with phase := .inserting (s.row chatDigest lease.exposure) none }
      else some (s.throw .refused)
    | .ackInsert, .inserting row (some inserted) => some { s with phase := .reading row inserted }
    | .readBack, .reading row inserted =>
      some (s.afterReadBack chatDigest row inserted (read rows row))
    | .openStream, .claimed row => some { s with phase := .streaming row }
    | .deliver frame, .streaming _ => some { s with sent := s.sent ++ [.frame frame] }
    | .summarise summary, .streaming row =>
      some { s with phase := .finishing row (s.receipt chatDigest row.exposure summary) none }
    | .ackFinish, .finishing row receipt (some updated) =>
      some { s with phase := .rereading row receipt updated }
    | .readFinish, .rereading row receipt updated =>
      if updated = true ∧
          read rows row = some { row with state := receipt.state, receipt := some receipt } ∧
          receipt.state = .completed then
        some { s with phase := .committed row receipt }
      else some (s.throw .uncertain)
    | .sendReceipt, .committed row receipt =>
      some { s with phase := .receiptSent row receipt, sent := s.sent ++ [.receipt receipt] }
    | .sendDone, .receiptSent _ _ => some { s with phase := .done, sent := s.sent ++ [.done] }
    | .answer, .done => some { s with ended := some .answered }
    | .fail, _ => some (s.throw (if s.started then .uncertain else .refused))
    | .crash, _ => some { s with ended := some .crashed }
    | _, _ => none

end StrictSession

/-! ### The service -/

/-- The store and the requests of the service. -/
structure StrictWorld where
  rows : IntentTable
  sessions : ℕ → Option StrictSession

/-- What happens. -/
inductive StrictEvent
  | start (id : ℕ) (tenant connector : String) (body : StrictChatRequest)
  | act (id : ℕ) (action : StrictAction)
  /-- The `INSERT` of a request takes effect. -/
  | applyInsert (id : ℕ)
  /-- The `UPDATE` of a request takes effect. -/
  | applyFinish (id : ℕ)
  deriving DecidableEq

namespace StrictWorld

variable (chatDigest : String → StrictChatRequest → String) (w : StrictWorld)

/-- The world after a change of one request. -/
def set (id : ℕ) (session : StrictSession) : StrictWorld :=
  { w with sessions := Function.update w.sessions id (some session) }

/-- The rows a `finish` selects. -/
def finishes (row stored : IntentRecord) : Bool :=
  stored.clash row && decide (stored.digest = row.digest) &&
    decide (stored.state = .dispatchStarted)

/-- The table after the `UPDATE` of `finish`. -/
def updateRows (rows : IntentTable) (row : IntentRecord) (receipt : StrictReceipt) :
    IntentTable :=
  rows.updateMany (finishes row)
    (fun stored ↦ { stored with state := receipt.state, receipt := some receipt })
    fun _ _ ↦ ⟨rfl, rfl⟩

/-- One event. -/
def step : StrictEvent → Option StrictWorld
  | .start id tenant connector body =>
    match w.sessions id with
    | some _ => none
    | none =>
      if tenant ≠ "" ∧ tenant ≠ "unknown" ∧ connector = "deepseek" then
        some (w.set id { tenant, connector, body })
      else some (w.set id { tenant, connector, body, ended := some (.error .refused) })
  | .act id action =>
    (w.sessions id).bind fun session ↦
      (session.act chatDigest w.rows action).map fun session' ↦ w.set id session'
  | .applyInsert id =>
    (w.sessions id).bind fun session ↦
      match session.phase with
      | .inserting row none =>
        match w.rows.insert? row with
        | some rows =>
          some { w.set id { session with phase := .inserting row (some true) } with rows }
        | none => some (w.set id { session with phase := .inserting row (some false) })
      | _ => none
  | .applyFinish id =>
    (w.sessions id).bind fun session ↦
      match session.phase with
      | .finishing row receipt none =>
        some
          { w.set id { session with
              phase := .finishing row receipt (some (w.rows.count (finishes row) == 1)) } with
            rows := updateRows w.rows row receipt }
      | _ => none

end StrictWorld

end ModelConnector.Connectors
