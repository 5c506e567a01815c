import ModelConnector.Bench.Contract

/-!
# The monetary receiver

`BenchMonetaryV2Receiver.reserveEnvelope`: an envelope is checked against the grant it carries, the
proofs it names and the caller's token, an executor makes one durable append of money and units, and
what the executor answers is checked again before it is signed. The executor, the verification of
proofs and the reading of texts by their schemas are parameters. A field whose schema leaves one
value is written in the texts and not kept in the records.
-/

namespace ModelConnector.Bench

/-! ### Records -/

/-- The fields `scope` lists. -/
structure MoneyScope where
  campaign : String
  account : String
  provider : String
  model : String
  source_sha256 : String
  binary_sha256 : String
  journal_id : String
  deriving DecidableEq

/-- `monetaryBinding`. -/
structure MonetaryBinding where
  policy_sha256 : String
  bounds_sha256 : String
  expected_head_sha256 : String
  deriving DecidableEq

/-- `monetaryGrantSchema`. -/
structure MonetaryGrant extends Grant where
  bounds_proof_sha256 : String
  custodian_socket : String
  monetary : MonetaryBinding
  deriving DecidableEq

/-- `moneyRequest`. -/
structure MoneyRequest extends MoneyScope where
  original_ledger_sha256 : String
  attempt : String
  nonce : String
  wire_sha256 : String
  policy_sha256 : String
  bounds_sha256 : String
  deriving DecidableEq

/-- `monetaryRequestSchema`. -/
structure MonetaryRequest extends MoneyScope where
  attempt : String
  nonce : String
  wire_sha256 : String
  subject : String
  wire_utf8_bytes : ℕ
  input_token_upper_bound : ℕ
  bounds_proof_sha256 : String
  reserved : Counters
  caps : Counters
  retained_baseline : Counters
  monetary_request : MoneyRequest
  monetary_checkpoint_head_sha256 : String
  deriving DecidableEq

/-- `monetaryEnvelopeSchema`. -/
structure MonetaryEnvelope where
  signed_grant : String
  caller_access_token : String
  request : MonetaryRequest
  operation_deadline_unix : ℕ
  wire_utf8 : String
  charging_policy_utf8 : String
  wire_bounds_utf8 : String
  deriving DecidableEq

/-- `proofScope`. -/
structure ProofScope extends MoneyScope where
  original_ledger_sha256 : String
  not_before : ℕ
  expires : ℕ
  deriving DecidableEq

/-- `rate`: as much money for as many units. -/
structure Rate where
  num : ℕ
  den : ℕ
  den_pos : 0 < den
  deriving DecidableEq

/-- The modes of a charging policy. -/
inductive ChargingMode
  | metered
  | subscription_no_incremental_charge
  deriving DecidableEq

/-- `policySchema`. -/
structure Policy extends ProofScope where
  scale : ℕ
  mode : ChargingMode
  money_cap : ℕ
  money_floor : ℕ
  retained_counters : Counters
  baseline_head : String
  input_rate : Rate
  output_rate : Rate
  fixed_fee : ℕ
  deriving DecidableEq

/-- `boundsSchema`. -/
structure Bounds extends ProofScope where
  wire_sha256 : String
  input_upper : ℕ
  output_upper : ℕ
  context_limit : ℕ
  deriving DecidableEq

/-- `moneyReceipt`. -/
structure MoneyReceipt where
  request : MoneyRequest
  scale : ℕ
  cap : ℕ
  floor : ℕ
  previous_money : ℕ
  cost : ℕ
  next_money : ℕ
  counters_before : Counters
  previous_head_sha256 : String
  head_sha256 : String
  projection_binding_sha256 : String
  deriving DecidableEq

/-- `receiptSchema`. -/
structure MonetaryReceipt where
  valid_until_unix : ℕ
  request : MonetaryRequest
  sequence : ℕ
  aggregate : Counters
  previous_head_sha256 : String
  head_sha256 : String
  monetary : MoneyReceipt
  deriving DecidableEq

/-- `MonetaryAtomicInput`. -/
structure MonetaryAtomicInput where
  request : MonetaryRequest
  policy : Policy
  bounds : Bounds
  wire : String
  charging_policy_utf8 : String
  wire_bounds_utf8 : String
  deadline_unix : ℤ

/-- The proofs an envelope carries. -/
inductive ProofKind
  | chargingPolicy
  | wireBounds
  deriving DecidableEq

/-- `MonetaryV2Dependencies`, and the schemas. -/
structure MonetaryDeps extends Keys where
  socketPath : String
  verifyProof : Option (ProofKind → String → Bool)
  /-- What the executor answers, when it is a receipt. -/
  reserveAtomic : Option (MonetaryAtomicInput → Option MonetaryReceipt)
  parseEnvelope : String → Option MonetaryEnvelope
  parseGrant : String → Option MonetaryGrant
  parsePolicy : String → Option Policy
  parseBounds : String → Option Bounds
  /-- `wireSchema` reads the text. -/
  parsesWire : String → Bool

/-! ### Texts -/

/-- The members of the fields `scope` lists. -/
def MoneyScope.members (scope : MoneyScope) : List (String × Json) :=
  [("campaign", .str scope.campaign), ("account", .str scope.account),
    ("provider", .str scope.provider), ("model", .str scope.model),
    ("source_sha256", .str scope.source_sha256), ("binary_sha256", .str scope.binary_sha256),
    ("journal_id", .str scope.journal_id)]

/-- A monetary request as a value. -/
def MoneyRequest.json (r : MoneyRequest) : Json :=
  .obj (r.members ++ [("original_ledger_sha256", .str r.original_ledger_sha256),
    ("attempt", .str r.attempt), ("nonce", .str r.nonce), ("wire_sha256", .str r.wire_sha256),
    ("policy_sha256", .str r.policy_sha256), ("bounds_sha256", .str r.bounds_sha256)])

/-- A request as a value. -/
def MonetaryRequest.json (r : MonetaryRequest) : Json :=
  .obj (r.members ++ [("attempt", .str r.attempt), ("nonce", .str r.nonce),
    ("wire_sha256", .str r.wire_sha256), ("schema", .str "NativeBenchReservationRequest/v2"),
    ("subject", .str r.subject), ("accounting_schema", .str "NativeBenchAccounting/v2"),
    ("reserved_units", .arr [.str "attempts",
      .str "qualified_utf8_bytes_input_token_upper_bound_charge",
      .str "qualified_model_output_token_upper_bound"]),
    ("wire_utf8_bytes", .nat r.wire_utf8_bytes),
    ("input_token_upper_bound", .nat r.input_token_upper_bound),
    ("input_policy", .str "TEXT_ONLY_UTF8_BYTES_UPPER_BOUND"),
    ("output_policy", .str "AUTHENTICATED_MODEL_HARD_MAXIMUM_NO_RELEASE"),
    ("bounds_proof_sha256", .str r.bounds_proof_sha256), ("reserved", countersJson r.reserved),
    ("caps", countersJson r.caps), ("retained_baseline", countersJson r.retained_baseline),
    ("monetary_request", r.monetary_request.json),
    ("monetary_checkpoint_head_sha256", .str r.monetary_checkpoint_head_sha256)])

/-- The members of the scope of a proof. -/
def ProofScope.proofMembers (scope : ProofScope) : List (String × Json) :=
  scope.members ++ [("original_ledger_sha256", .str scope.original_ledger_sha256),
    ("not_before", .nat scope.not_before), ("expires", .nat scope.expires)]

/-- A rate as a value. -/
def Rate.json (rate : Rate) : Json :=
  .arr [.nat rate.num, .nat rate.den]

/-- A mode as a value. -/
def ChargingMode.json : ChargingMode → Json
  | .metered => .str "metered"
  | .subscription_no_incremental_charge => .str "subscription_no_incremental_charge"

/-- A policy as a value. -/
def Policy.json (p : Policy) : Json :=
  .obj (p.proofMembers ++ [("kind", .str "charging-policy"), ("currency", .str "USD"),
    ("scale", .nat p.scale), ("mode", p.mode.json), ("money_cap", .nat p.money_cap),
    ("money_floor", .nat p.money_floor), ("retained_counters", countersJson p.retained_counters),
    ("baseline_head", .str p.baseline_head), ("input_rate", p.input_rate.json),
    ("output_rate", p.output_rate.json), ("fixed_fee", .nat p.fixed_fee),
    ("no_overage", .bool true), ("no_fallback", .bool true)])

/-- Bounds as a value. -/
def Bounds.json (b : Bounds) : Json :=
  .obj (b.proofMembers ++ [("kind", .str "wire-bounds"), ("wire_sha256", .str b.wire_sha256),
    ("input_upper", .nat b.input_upper), ("output_upper", .nat b.output_upper),
    ("context_limit", .nat b.context_limit),
    ("output_enforcement", .str "verified_native_hard_maximum"),
    ("all_billable_units", .bool true)])

/-- `monetaryCanonical`: what is not ASCII is escaped, by UTF-16 units. -/
def monetaryCanonical (value : Json) : String :=
  String.ofList (value.text.flatMap fun c ↦
    if c.toNat < 128 then [c]
    else (utf16 c).flatMap fun unit ↦
      let digits := Nat.toDigits 16 unit
      ['\\', 'u'] ++ List.replicate (4 - digits.length) '0' ++ digits)

/-! ### The receiver -/

/-- The scope of a grant. -/
def Grant.moneyScope (grant : Grant) : MoneyScope where
  campaign := grant.campaign
  account := grant.account
  provider := grant.provider
  model := grant.model
  source_sha256 := grant.source_sha256
  binary_sha256 := grant.binary_sha256
  journal_id := grant.journal_id

/-- What `assertFresh` closes over. -/
structure MonetaryLease where
  started : ℤ
  deadline : ℤ
  grant : Grant
  token : String

section Receiver

variable (deps : MonetaryDeps)

/-- `assertFresh`, at the time it reads. -/
def MonetaryLease.assertFresh (lease : MonetaryLease) (now : ℤ) : Except String Unit := do
  requireBench (lease.started ≤ now ∧ now < lease.deadline) "authenticated_operation_expired"
  checkGrant lease.grant now
  discard (verifyCaller deps.toKeys lease.token lease.grant now "bench:reserve")

/-- The checks of a request against the grant of its envelope. -/
def bindMoneyRequest (grant : MonetaryGrant) (req : MonetaryRequest) : Except String Unit := do
  let money := req.monetary_request
  requireBench (req.toMoneyScope = grant.moneyScope ∧ money.toMoneyScope = grant.moneyScope)
    "money_scope_mismatch"
  requireBench (req.subject = grant.subject ∧ req.attempt = grant.attempt ∧
    money.attempt = req.attempt ∧ money.nonce = req.nonce ∧
    money.original_ledger_sha256 = grant.original_ledger_sha256 ∧
    req.bounds_proof_sha256 = grant.bounds_proof_sha256 ∧
    req.monetary_checkpoint_head_sha256 = grant.monetary.expected_head_sha256)
    "money_request_not_grant_bound"
  requireBench (req.caps = CAPS ∧ req.retained_baseline = grant.retained_baseline) "counter_binding"

/-- The checks of the texts of an envelope, against its request and its grant. -/
def bindTexts (grant : MonetaryGrant) (value : MonetaryEnvelope) : Except String Unit := do
  let req := value.request
  let money := req.monetary_request
  let bytes := value.wire_utf8.utf8ByteSize
  requireBench (bytes = req.wire_utf8_bytes ∧ bytes = req.input_token_upper_bound ∧
    req.reserved = ⟨1, bytes, grant.hard_output_tokens⟩ ∧
    deps.sha256 value.wire_utf8 = req.wire_sha256 ∧ money.wire_sha256 = req.wire_sha256)
    "actual_wire_not_bound"
  requireBench (value.charging_policy_utf8.utf8ByteSize ≤ 65536 ∧
    value.wire_bounds_utf8.utf8ByteSize ≤ 65536 ∧
    deps.sha256 value.charging_policy_utf8 = money.policy_sha256 ∧
    money.policy_sha256 = grant.monetary.policy_sha256 ∧
    deps.sha256 value.wire_bounds_utf8 = money.bounds_sha256 ∧
    money.bounds_sha256 = grant.monetary.bounds_sha256) "proof_digest_mismatch"

/-- The checks of a proof that was read from its text, at the time they read. -/
def bindProof (money : MoneyRequest) (proof : ProofScope) (json : Json) (rawProof : String)
    (started now : ℤ) : Except String Unit := do
  requireBench (monetaryCanonical json = rawProof) "noncanonical_money_proof"
  requireBench (proof.toMoneyScope = money.toMoneyScope ∧
    proof.original_ledger_sha256 = money.original_ledger_sha256) "proof_scope_mismatch"
  requireBench (proof.not_before ≤ started ∧ now < proof.expires) "money_proof_expired"

/-- The checks of the bounds and the caps of the proofs. -/
def bindLimits (grant : MonetaryGrant) (value : MonetaryEnvelope) (policy : Policy)
    (bounds : Bounds) : Except String Unit := do
  let req := value.request
  requireBench (bounds.wire_sha256 = req.wire_sha256 ∧
    bounds.input_upper = value.wire_utf8.utf8ByteSize ∧
    bounds.output_upper = req.reserved.output ∧
    bounds.input_upper + bounds.output_upper ≤ bounds.context_limit) "qualified_bound_mismatch"
  requireBench (policy.money_floor ≤ policy.money_cap ∧ policy.money_cap ≤ policy.scale ∧
    grant.retained_baseline ≤ policy.retained_counters ∧ policy.retained_counters ≤ CAPS)
    "original_money_or_counter_cap"

/-- The charge for units at a rate, as the source computes it. -/
def Rate.charge (rate : Rate) (units : ℕ) : ℕ :=
  (units * rate.num + rate.den - 1) / rate.den

/-- `integerCost`. -/
def Policy.integerCost (policy : Policy) (reserved : Counters) : ℕ :=
  policy.fixed_fee +
    (policy.input_rate.charge reserved.input + policy.output_rate.charge reserved.output)

/-- `expectedProjection`. -/
def expectedProjection (req : MonetaryRequest) (policy : Policy) (m : MoneyReceipt) : String :=
  deps.sha256 (monetaryCanonical (.obj [("request", req.monetary_request.json),
    ("previous", .obj [("head", .str req.monetary_checkpoint_head_sha256),
      ("counters", countersJson m.counters_before), ("money", .nat m.previous_money),
      ("currency", .str "USD"), ("scale", .nat policy.scale),
      ("policy_sha256", .str req.monetary_request.policy_sha256)]),
    ("reserved", countersJson req.reserved), ("cost", .nat m.cost)]))

/-- The checks of a receipt before it is signed, at the time they read. -/
def checkReceipt (req : MonetaryRequest) (policy : Policy) (deadline : ℤ)
    (receipt : MonetaryReceipt) (now : ℤ) : Except String Unit := do
  let m := receipt.monetary
  let money := req.monetary_request
  let integerCost := policy.integerCost req.reserved
  requireBench (if policy.mode = .subscription_no_incremental_charge then integerCost = 0
    else 0 < integerCost) "charging_mode_invalid"
  requireBench (receipt.request.json.text = req.json.text ∧
    m.request.json.text = money.json.text ∧
    now < receipt.valid_until_unix ∧
    receipt.valid_until_unix ≤ deadline ∧
    m.scale = policy.scale ∧
    m.cap = policy.money_cap ∧
    m.floor = policy.money_floor ∧
    m.previous_head_sha256 = req.monetary_checkpoint_head_sha256 ∧
    receipt.previous_head_sha256 = m.previous_head_sha256 ∧
    receipt.head_sha256 = m.head_sha256 ∧
    m.projection_binding_sha256 = expectedProjection deps req policy m ∧
    m.head_sha256 ≠ m.previous_head_sha256 ∧
    m.floor ≤ m.previous_money ∧
    m.cost = integerCost ∧
    m.previous_money + integerCost = m.next_money ∧
    m.next_money ≤ m.cap ∧
    policy.retained_counters ≤ m.counters_before ∧
    (receipt.aggregate = m.counters_before + req.reserved ∧ receipt.aggregate ≤ CAPS) ∧
    receipt.sequence = receipt.aggregate.attempts) "atomic_money_receipt_mismatch"

/-- `reserveEnvelope`, with the condition it leaves to its `catch`. -/
def reserveEnvelope? (raw : String) (clock : ℕ → ℤ) : Except String MonetaryReceipt := do
  let value ← orUnknown (deps.parseEnvelope raw)
  match deps.verifyProof, deps.reserveAtomic with
  | some verifyProof, some reserveAtomic =>
    let grant ← orUnknown
      ((deps.verifyEnvelope value.signed_grant "BENCH-GRANT-v2\n").bind deps.parseGrant)
    let started := clock 0
    let caller ← callerDeadline deps.toKeys value.caller_access_token grant.toGrant started
      "bench:reserve"
    let lease : MonetaryLease := {
      started
      deadline := min (min grant.expires_unix value.operation_deadline_unix)
        (min (started + 5) caller)
      grant := grant.toGrant
      token := value.caller_access_token }
    requireBench (started < value.operation_deadline_unix ∧
      value.operation_deadline_unix ≤ started + 5) "operation_deadline_invalid"
    lease.assertFresh deps (clock 1)
    requireBench (deps.custodianPublicKey ≠ deps.issuerPublicKey ∧
      deps.custodianPublicKey = grant.custodian_public_key) "custodian_key_not_separate_or_bound"
    requireBench (grant.custodian_socket = deps.socketPath) "socket_not_grant_bound"
    let req := value.request
    bindMoneyRequest grant req
    bindTexts deps grant value
    requireBench (verifyProof .chargingPolicy value.charging_policy_utf8) "unverified_money_proof"
    lease.assertFresh deps (clock 2)
    requireBench (verifyProof .wireBounds value.wire_bounds_utf8) "unverified_money_proof"
    lease.assertFresh deps (clock 3)
    let policy ← orUnknown (deps.parsePolicy value.charging_policy_utf8)
    let bounds ← orUnknown (deps.parseBounds value.wire_bounds_utf8)
    -- from here on `assertFresh` reads the deadline of the proofs too
    let lease := { lease with deadline := min lease.deadline (min policy.expires bounds.expires) }
    bindProof req.monetary_request policy.toProofScope policy.json value.charging_policy_utf8
      started (clock 4)
    bindProof req.monetary_request bounds.toProofScope bounds.json value.wire_bounds_utf8
      started (clock 5)
    bindLimits grant value policy bounds
    requireBench (deps.parsesWire value.wire_utf8) unknownPreserved
    lease.assertFresh deps (clock 6)
    let receipt ← orUnknown (reserveAtomic {
      request := req
      policy
      bounds
      wire := value.wire_utf8
      charging_policy_utf8 := value.charging_policy_utf8
      wire_bounds_utf8 := value.wire_bounds_utf8
      deadline_unix := lease.deadline })
    lease.assertFresh deps (clock 7)
    requireBench (clock 8 < policy.expires ∧ clock 9 < bounds.expires) "money_proof_expired"
    checkReceipt deps req policy lease.deadline receipt (clock 10)
    pure receipt
  | _, _ => .error "monetary_executor_not_bound"

/-- `reserveEnvelope`: the receipt it signs. -/
def reserveEnvelope (raw : String) (clock : ℕ → ℤ) : Except String MonetaryReceipt :=
  (reserveEnvelope? deps raw clock).mapError fun _ ↦ "monetary_v2_refused_unknown_preserved"

end Receiver

end ModelConnector.Bench
