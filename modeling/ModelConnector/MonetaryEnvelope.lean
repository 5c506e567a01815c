import Mathlib.Algebra.Order.Floor.Div
import Mathlib.Data.List.Chain
import ModelConnector.Bench.Chain
import ModelConnector.Bench.Monetary
import ModelConnector.Foundations.Result
import ModelConnector.Foundations.Rounding

/-!
# Monetary envelopes add up

Whatever the executor answers, a receipt that is signed charges what the policy of its envelope
says, from money and counters that leave room for it, and is signed before the deadline. So when
each receipt goes on from the one before it, what a policy lets pass is bounded by the policy as a
whole.
-/

namespace ModelConnector.Bench

/-! ### Charges -/

/-- The charge for units is the exact price, rounded up. -/
theorem Rate.charge_eq_ceil (rate : Rate) (units : ℕ) :
    (rate.charge units : ℤ) = ⌈(units * rate.num / rate.den : ℚ)⌉ := by
  have hden : (0 : ℚ) < rate.den := by exact_mod_cast rate.den_pos
  have hle : units * rate.num ≤ rate.charge units * rate.den := by
    rw [Nat.mul_comm (rate.charge units)]
    exact (ceilDiv_le_iff_le_mul rate.den_pos).1 le_rfl
  have hlt : (rate.charge units) * rate.den < units * rate.num + rate.den := by
    have h := Nat.div_mul_le_self (units * rate.num + rate.den - 1) rate.den
    have hpos := rate.den_pos
    unfold Rate.charge
    omega
  rw [eq_comm, Int.ceil_eq_iff]
  constructor
  · rw [lt_div_iff₀ hden, sub_mul, one_mul, sub_lt_iff_lt_add]
    exact_mod_cast hlt
  · rw [div_le_iff₀ hden]
    exact_mod_cast hle

/-! ### Requests are told apart by their texts -/

/-- The keys of a request. -/
def MonetaryRequest.keys : List String :=
  ["campaign", "account", "provider", "model", "source_sha256", "binary_sha256", "journal_id",
    "attempt", "nonce", "wire_sha256", "schema", "subject", "accounting_schema", "reserved_units",
    "wire_utf8_bytes", "input_token_upper_bound", "input_policy", "output_policy",
    "bounds_proof_sha256", "reserved", "caps", "retained_baseline", "monetary_request",
    "monetary_checkpoint_head_sha256"]

/-- Requests of one text reserve the same. -/
theorem MonetaryRequest.reserved_eq_of_text_eq {a b : MonetaryRequest}
    (h : a.json.text = b.json.text) : a.reserved = b.reserved := by
  have hkeys : MonetaryRequest.keys.Nodup := by decide
  have hget : ∀ key, (a.json.get? key).map Json.normalize = (b.json.get? key).map Json.normalize :=
    Json.get?_eq_of_normalize_eq hkeys hkeys (Json.normalize_eq_of_text_eq rfl rfl h)
  have hreserved : some (countersJson a.reserved) = some (countersJson b.reserved) :=
    hget "reserved"
  exact countersJson_injective (Option.some.inj hreserved)

/-! ### One receipt -/

/-- A receipt that was signed, with the call that signed it. -/
structure Signing where
  deps : MonetaryDeps
  raw : String
  clock : ℕ → ℤ
  receipt : MonetaryReceipt
  signed : reserveEnvelope deps raw clock = .ok receipt

/-- What a call has read from its envelope. -/
structure Signing.Reads (x : Signing) (value : MonetaryEnvelope) (grant : MonetaryGrant)
    (policy : Policy) (bounds : Bounds) (caller : ℤ) : Prop where
  value_eq : x.deps.parseEnvelope x.raw = some value
  grant_eq : (x.deps.verifyEnvelope value.signed_grant "BENCH-GRANT-v2\n").bind x.deps.parseGrant =
    some grant
  caller_eq : callerDeadline x.deps.toKeys value.caller_access_token grant.toGrant (x.clock 0)
    "bench:reserve" = .ok caller
  policy_eq : x.deps.parsePolicy value.charging_policy_utf8 = some policy
  bounds_eq : x.deps.parseBounds value.wire_bounds_utf8 = some bounds

/-- The time a call has, once it has read the proofs. -/
def signingDeadline (value : MonetaryEnvelope) (grant : MonetaryGrant) (policy : Policy)
    (bounds : Bounds) (caller started : ℤ) : ℤ :=
  min (min (min grant.expires_unix value.operation_deadline_unix) (min (started + 5) caller))
    (min policy.expires bounds.expires)

/-- The receipt charges what a policy says, and leaves what the policy asks for. -/
structure MonetaryReceipt.Charged (policy : Policy) (receipt : MonetaryReceipt) : Prop where
  cost_eq : (receipt.monetary.cost : ℤ) = policy.fixed_fee +
    ⌈(receipt.request.reserved.input * policy.input_rate.num / policy.input_rate.den : ℚ)⌉ +
    ⌈(receipt.request.reserved.output * policy.output_rate.num / policy.output_rate.den : ℚ)⌉
  next_eq : receipt.monetary.next_money = receipt.monetary.previous_money + receipt.monetary.cost
  next_le : receipt.monetary.next_money ≤ policy.money_cap
  previous_ge : policy.money_floor ≤ receipt.monetary.previous_money
  retained_le : policy.retained_counters ≤ receipt.monetary.counters_before
  aggregate_eq : receipt.aggregate = receipt.monetary.counters_before + receipt.request.reserved
  aggregate_le : receipt.aggregate ≤ CAPS
  sequence_eq : receipt.sequence = receipt.aggregate.attempts
  attempts_eq : receipt.request.reserved.attempts = 1
  cap_eq : receipt.monetary.cap = policy.money_cap
  floor_eq : receipt.monetary.floor = policy.money_floor

/-- A request that was bound to its texts reserves one attempt. -/
theorem bindTexts_ok {deps : MonetaryDeps} {grant : MonetaryGrant} {value : MonetaryEnvelope}
    {u : Unit} (hok : bindTexts deps grant value = .ok u) :
    value.request.reserved.attempts = 1 := by
  unfold bindTexts at hok
  obtain ⟨⟨-, -, hreserved, -⟩, -⟩ := requireBench_bind_ok.1 hok
  rw [hreserved]

/-- A receipt that passes its checks charges what the policy says. -/
theorem checkReceipt_ok {deps : MonetaryDeps} {req : MonetaryRequest} {policy : Policy}
    {deadline now : ℤ} {receipt : MonetaryReceipt} {u : Unit}
    (hone : req.reserved.attempts = 1)
    (hok : checkReceipt deps req policy deadline receipt now = .ok u) :
    receipt.Charged policy ∧ now < receipt.valid_until_unix ∧
      receipt.valid_until_unix ≤ deadline := by
  unfold checkReceipt at hok
  obtain ⟨-, hok⟩ := requireBench_bind_ok.1 hok
  obtain ⟨hrequest, -, hnow, hdeadline, -, hcap, hfloor, -, -, -, -, -, hprevious, hcost, hnext,
    hle, hretained, ⟨haggregate, hcaps⟩, hsequence⟩ := requireBench_ok.1 hok
  have hreserved := MonetaryRequest.reserved_eq_of_text_eq hrequest
  refine ⟨?_, hnow, hdeadline⟩
  exact {
    cost_eq := by
      rw [hcost, Policy.integerCost, hreserved, ← Rate.charge_eq_ceil, ← Rate.charge_eq_ceil]
      push_cast
      ring
    next_eq := by rw [← hnext, hcost]
    next_le := hcap ▸ hle
    previous_ge := hfloor ▸ hprevious
    retained_le := hretained
    aggregate_eq := by rw [haggregate, hreserved]
    aggregate_le := hcaps
    sequence_eq := hsequence
    attempts_eq := by rw [hreserved, hone]
    cap_eq := hcap
    floor_eq := hfloor }

/-- What was read and checked before a receipt was signed. -/
theorem Signing.reads (x : Signing) : ∃ value grant policy bounds caller,
    x.Reads value grant policy bounds caller ∧ x.receipt.Charged policy ∧
      x.clock 10 < x.receipt.valid_until_unix ∧ x.receipt.valid_until_unix ≤
        signingDeadline value grant policy bounds caller (x.clock 0) := by
  obtain ⟨deps, raw, clock, receipt, hsigned⟩ := x
  have hok : reserveEnvelope? deps raw clock = .ok receipt := by
    unfold reserveEnvelope at hsigned
    cases h : reserveEnvelope? deps raw clock with
    | error e => rw [h] at hsigned; cases hsigned
    | ok r => rw [h] at hsigned; exact hsigned
  unfold reserveEnvelope? at hok
  obtain ⟨value, hvalue, hok⟩ := Except.bind_ok hok
  split at hok
  · obtain ⟨grant, hgrant, hok⟩ := Except.bind_ok hok
    obtain ⟨caller, hcaller, hok⟩ := Except.bind_ok hok
    obtain ⟨-, hok⟩ := requireBench_bind_ok.1 hok
    obtain ⟨_, -, hok⟩ := Except.bind_ok hok
    obtain ⟨-, hok⟩ := requireBench_bind_ok.1 hok
    obtain ⟨-, hok⟩ := requireBench_bind_ok.1 hok
    obtain ⟨_, -, hok⟩ := Except.bind_ok hok
    obtain ⟨_, htexts, hok⟩ := Except.bind_ok hok
    obtain ⟨-, hok⟩ := requireBench_bind_ok.1 hok
    obtain ⟨_, -, hok⟩ := Except.bind_ok hok
    obtain ⟨-, hok⟩ := requireBench_bind_ok.1 hok
    obtain ⟨_, -, hok⟩ := Except.bind_ok hok
    obtain ⟨policy, hpolicy, hok⟩ := Except.bind_ok hok
    obtain ⟨bounds, hbounds, hok⟩ := Except.bind_ok hok
    obtain ⟨_, -, hok⟩ := Except.bind_ok hok
    obtain ⟨_, -, hok⟩ := Except.bind_ok hok
    obtain ⟨_, -, hok⟩ := Except.bind_ok hok
    obtain ⟨-, hok⟩ := requireBench_bind_ok.1 hok
    obtain ⟨_, -, hok⟩ := Except.bind_ok hok
    obtain ⟨receipt', -, hok⟩ := Except.bind_ok hok
    obtain ⟨_, -, hok⟩ := Except.bind_ok hok
    obtain ⟨-, hok⟩ := requireBench_bind_ok.1 hok
    obtain ⟨_, hcheck, hok⟩ := Except.bind_ok hok
    cases hok
    obtain ⟨hcharged, hnow, hdeadline⟩ := checkReceipt_ok (bindTexts_ok htexts) hcheck
    exact ⟨value, grant, policy, bounds, caller,
      ⟨orUnknown_ok.1 hvalue, orUnknown_ok.1 hgrant, hcaller, orUnknown_ok.1 hpolicy,
        orUnknown_ok.1 hbounds⟩, hcharged, hnow, hdeadline⟩
  · cases hok

/-! ### Receipts that go on from each other -/

/-- The receipt goes on from the money and the counters of another. -/
def MonetaryReceipt.Continues (a b : MonetaryReceipt) : Prop :=
  b.monetary.previous_money = a.monetary.next_money ∧ b.monetary.counters_before = a.aggregate

section Continues

variable {policy : Policy}

/-- What a chain of receipts adds to where it starts stays within the caps. -/
theorem charged_chain_le {a : MonetaryReceipt} {receipts : List MonetaryReceipt}
    (hcharged : ∀ r ∈ a :: receipts, r.Charged policy)
    (hchain : (a :: receipts).IsChain MonetaryReceipt.Continues) :
    a.monetary.previous_money + ((a :: receipts).map fun r ↦ r.monetary.cost).sum ≤
      policy.money_cap ∧
    a.monetary.counters_before + ((a :: receipts).map fun r ↦ r.request.reserved).sum ≤ CAPS := by
  induction receipts generalizing a with
  | nil =>
    have h := hcharged a (by simp)
    rw [List.map_singleton, List.map_singleton, List.sum_singleton, List.sum_singleton, ← h.next_eq,
      ← h.aggregate_eq]
    exact ⟨h.next_le, h.aggregate_le⟩
  | cons b rest ih =>
    have h := hcharged a (by simp)
    obtain ⟨⟨hmoney, hcounters⟩, hrest⟩ := List.isChain_cons_cons.1 hchain
    obtain ⟨hmoney', hcounters'⟩ := ih (fun r hr ↦ hcharged r (List.mem_cons_of_mem _ hr)) hrest
    rw [hmoney, h.next_eq, Nat.add_assoc] at hmoney'
    rw [hcounters, h.aggregate_eq, add_assoc] at hcounters'
    rw [List.map_cons, List.map_cons, List.sum_cons, List.sum_cons]
    exact ⟨hmoney', hcounters'⟩

/-- A receipt that goes on from another has the next position. -/
theorem MonetaryReceipt.Charged.sequence_lt {a b : MonetaryReceipt} (ha : a.Charged policy)
    (hb : b.Charged policy) (h : a.Continues b) : a.sequence < b.sequence := by
  rw [ha.sequence_eq, hb.sequence_eq, hb.aggregate_eq, h.2, Counters.attempts_add, hb.attempts_eq]
  exact Nat.lt_succ_self _

end Continues

/-- **Monetary envelopes add up.** Whatever the executor answers, a receipt that is signed charges
the fixed fee and both rates rounded up, from money and counters within what the policy and the caps
allow, and is signed before the deadline. Receipts under one policy, each going on from the one
before it, cost at most what lies between floor and cap, reserve at most what the retained counters
leave of the caps, and have increasing positions. -/
theorem monetary_envelopes_bounded :
    (∀ x : Signing, ∃ value grant policy bounds caller,
      x.Reads value grant policy bounds caller ∧ x.receipt.Charged policy ∧
        x.clock 10 < x.receipt.valid_until_unix ∧ x.receipt.valid_until_unix ≤
          signingDeadline value grant policy bounds caller (x.clock 0)) ∧
    ∀ (policy : Policy) (signings : List Signing),
      (∀ x ∈ signings, ∃ value, x.deps.parseEnvelope x.raw = some value ∧
        x.deps.parsePolicy value.charging_policy_utf8 = some policy) →
      (signings.map Signing.receipt).IsChain MonetaryReceipt.Continues →
        (signings.map fun x ↦ x.receipt.monetary.cost).sum ≤
          policy.money_cap - policy.money_floor ∧
        (signings.map fun x ↦ x.receipt.request.reserved).sum ≤ CAPS - policy.retained_counters ∧
        (signings.map fun x ↦ x.receipt.sequence).Pairwise (· < ·) := by
  refine ⟨Signing.reads, fun policy signings hpolicy hchain ↦ ?_⟩
  have hcharged : ∀ r ∈ signings.map Signing.receipt, r.Charged policy := by
    intro r hr
    obtain ⟨x, hx, rfl⟩ := List.mem_map.1 hr
    obtain ⟨value, grant, policy', bounds, caller, hreads, hcharged, -⟩ := x.reads
    obtain ⟨value', hvalue', hpolicy'⟩ := hpolicy x hx
    obtain rfl : value = value' := Option.some.inj (hreads.value_eq.symm.trans hvalue')
    obtain rfl : policy' = policy := Option.some.inj (hreads.policy_eq.symm.trans hpolicy')
    exact hcharged
  cases signings with
  | nil => exact ⟨Nat.zero_le _, ⟨Nat.zero_le _, Nat.zero_le _, Nat.zero_le _⟩, .nil⟩
  | cons x rest =>
    have hfirst := hcharged x.receipt (by simp)
    obtain ⟨hmoney, hcounters⟩ := charged_chain_le hcharged hchain
    rw [← List.map_cons, List.map_map] at hmoney hcounters
    refine ⟨?_, ?_, ?_⟩
    · exact Nat.le_sub_of_add_le' ((Nat.add_le_add_right hfirst.previous_ge _).trans hmoney)
    · exact Counters.le_sub_of_add_le
        (Counters.le_trans (Counters.add_le_add_right hfirst.retained_le _) hcounters)
    · have hlt : (((x :: rest).map Signing.receipt).map MonetaryReceipt.sequence).IsChain (· < ·) :=
        List.isChain_map _ |>.2 (hchain.imp_of_mem_imp fun a b ha hb h ↦
          (hcharged a ha).sequence_lt (hcharged b hb) h)
      rw [List.map_map] at hlt
      exact List.isChain_iff_pairwise.1 hlt

/-! ### An envelope -/

/-- The scope of the campaign below. -/
def sealedScope : MoneyScope where
  campaign := "campaign"
  account := "account"
  provider := "chatgpt-subscription"
  model := "gpt-6-luna"
  source_sha256 := "digest"
  binary_sha256 := "digest"
  journal_id := "journal"

/-- A policy with room for money and units. -/
def sealedPolicy : Policy where
  toMoneyScope := sealedScope
  original_ledger_sha256 := ORIGINAL_LEDGER
  not_before := 0
  expires := 5000
  scale := 1000
  mode := .metered
  money_cap := 1000
  money_floor := 100
  retained_counters := FLOOR
  baseline_head := "digest"
  input_rate := ⟨3, 2, by decide⟩
  output_rate := ⟨1, 4, by decide⟩
  fixed_fee := 7

/-- The bounds of four bytes. -/
def sealedBounds : Bounds where
  toMoneyScope := sealedScope
  original_ledger_sha256 := ORIGINAL_LEDGER
  not_before := 0
  expires := 5000
  wire_sha256 := "digest"
  input_upper := 4
  output_upper := 100
  context_limit := 1000

theorem utf8ByteSize_ofList_le (l : List Char) : (String.ofList l).utf8ByteSize ≤ 4 * l.length := by
  change (String.ofList l).toByteArray.size ≤ _
  rw [String.toByteArray_ofList, List.utf8Encode, List.size_toByteArray, List.length_flatMap]
  induction l with
  | nil => rfl
  | cons c l ih =>
    have h : (String.utf8EncodeChar c).length ≤ 4 :=
      (String.length_utf8EncodeChar c).le.trans c.utf8Size_le_four
    rw [List.map_cons, List.sum_cons, List.length_cons]
    omega

/-! #### The first call of a chain and the second one -/

variable (second : Bool)

def sealedName : String :=
  if second then "second" else "first"

/-- The head that a call goes on from. -/
def sealedHead : String :=
  if second then "next" else "head"

def sealedNextHead : String :=
  if second then "last" else "next"

/-- The money before a call. -/
def sealedMoney : ℕ :=
  if second then 138 else 100

/-- The counters before a call. -/
def sealedCounters : Counters :=
  if second then ⟨181, 1695921, 200011⟩ else FLOOR

def sealedNextCounters : Counters :=
  if second then ⟨182, 1695925, 200111⟩ else ⟨181, 1695921, 200011⟩

/-- A request under the policy. -/
def sealedRequest : MonetaryRequest where
  toMoneyScope := sealedScope
  attempt := sealedName second
  nonce := sealedName second
  wire_sha256 := "digest"
  subject := "subject"
  wire_utf8_bytes := 4
  input_token_upper_bound := 4
  bounds_proof_sha256 := "digest"
  reserved := ⟨1, 4, 100⟩
  caps := CAPS
  retained_baseline := FLOOR
  monetary_request := {
    toMoneyScope := sealedScope
    original_ledger_sha256 := ORIGINAL_LEDGER
    attempt := sealedName second
    nonce := sealedName second
    wire_sha256 := "digest"
    policy_sha256 := "digest"
    bounds_sha256 := "digest" }
  monetary_checkpoint_head_sha256 := sealedHead second

/-- The envelope of the request, with its proofs. -/
def sealedEnvelope : MonetaryEnvelope where
  signed_grant := "grant"
  caller_access_token := "token"
  request := sealedRequest second
  operation_deadline_unix := 1005
  wire_utf8 := "wire"
  charging_policy_utf8 := monetaryCanonical sealedPolicy.json
  wire_bounds_utf8 := monetaryCanonical sealedBounds.json

/-- The grant in the envelope. -/
def sealedGrant : MonetaryGrant where
  campaign := "campaign"
  subject := "subject"
  attempt := sealedName second
  account := "account"
  provider := "chatgpt-subscription"
  model := "gpt-6-luna"
  source_sha256 := "digest"
  binary_sha256 := "digest"
  expires_unix := 2000
  caps := CAPS
  retained_baseline := FLOOR
  hard_output_tokens := 100
  journal_id := "journal"
  custodian_public_key := "custodian"
  caller_subject := "caller"
  auth_audience := "bench"
  auth_jwks_sha256 := "digest"
  original_ledger_sha256 := ORIGINAL_LEDGER
  bounds_proof_sha256 := "digest"
  custodian_socket := "socket"
  monetary := ⟨"digest", "digest", sealedHead second⟩

/-- What the executor answers. -/
def sealedReceipt : MonetaryReceipt where
  valid_until_unix := 1005
  request := sealedRequest second
  sequence := (sealedNextCounters second).attempts
  aggregate := sealedNextCounters second
  previous_head_sha256 := sealedHead second
  head_sha256 := sealedNextHead second
  monetary := {
    request := (sealedRequest second).monetary_request
    scale := 1000
    cap := 1000
    floor := 100
    previous_money := sealedMoney second
    cost := 38
    next_money := sealedMoney second + 38
    counters_before := sealedCounters second
    previous_head_sha256 := sealedHead second
    head_sha256 := sealedNextHead second
    projection_binding_sha256 := "digest" }

/-- The receiver, with an executor that answers the receipt. -/
def sealedDeps : MonetaryDeps where
  sha256 _ := "digest"
  verifyEnvelope _ _ := some "grant"
  readToken _ := some {
    sub := "caller"
    aud := ["bench"]
    exp := 1200
    iat := 1000
    nbf := none
    scopes := ["bench:reserve"] }
  authArcanaJwks := "keys"
  custodianPublicKey := "custodian"
  issuerPublicKey := "issuer"
  socketPath := "socket"
  verifyProof := some fun _ _ ↦ true
  reserveAtomic := some fun _ ↦ some (sealedReceipt second)
  parseEnvelope _ := some (sealedEnvelope second)
  parseGrant _ := some (sealedGrant second)
  parsePolicy _ := some sealedPolicy
  parseBounds _ := some sealedBounds
  parsesWire _ := true

/-- The policy and the bounds are short enough. -/
theorem sealed_sizes : (sealedEnvelope second).charging_policy_utf8.utf8ByteSize ≤ 65536 ∧
    (sealedEnvelope second).wire_bounds_utf8.utf8ByteSize ≤ 65536 := by
  refine ⟨(utf8ByteSize_ofList_le _).trans ?_, (utf8ByteSize_ofList_le _).trans ?_⟩ <;>
    decide +kernel

theorem sealed_bindTexts :
    bindTexts (sealedDeps second) (sealedGrant second) (sealedEnvelope second) = .ok () :=
  requireBench_bind_ok.2 ⟨by decide +revert +kernel,
    requireBench_ok.2 ⟨(sealed_sizes second).1, (sealed_sizes second).2, rfl, rfl, rfl, rfl⟩⟩

theorem sealed_bindProof :
    bindProof (sealedRequest second).monetary_request sealedPolicy.toProofScope sealedPolicy.json
      (sealedEnvelope second).charging_policy_utf8 1000 1001 = .ok () ∧
    bindProof (sealedRequest second).monetary_request sealedBounds.toProofScope sealedBounds.json
      (sealedEnvelope second).wire_bounds_utf8 1000 1001 = .ok () := by
  constructor
  · exact requireBench_bind_ok.2 ⟨rfl, requireBench_bind_ok.2 ⟨by decide +revert,
      requireBench_ok.2 (by decide +revert)⟩⟩
  · exact requireBench_bind_ok.2 ⟨rfl, requireBench_bind_ok.2 ⟨by decide +revert,
      requireBench_ok.2 (by decide +revert)⟩⟩

theorem sealed_checkReceipt :
    checkReceipt (sealedDeps second) (sealedRequest second) sealedPolicy 1005
      (sealedReceipt second) 1001 = .ok () := by
  cases second
  all_goals
    exact requireBench_bind_ok.2 ⟨by decide, requireBench_ok.2
      ⟨rfl, rfl, by decide, by decide, rfl, rfl, rfl, rfl, rfl, rfl, rfl, by decide,
      by decide, by decide, rfl, by decide, by decide, ⟨rfl, by decide⟩, rfl⟩⟩

/-- The time at which it is read for the first time, and later. -/
def sealedClock (n : ℕ) : ℤ :=
  if n = 0 then 1000 else 1001

/-- At every later time the lease is fresh. -/
theorem sealed_assertFresh {deadline : ℤ} (h : 1001 < deadline) :
    MonetaryLease.assertFresh (sealedDeps second)
      { started := 1000, deadline, grant := (sealedGrant second).toGrant, token := "token" } 1001 =
        .ok () :=
  requireBench_bind_ok.2 ⟨⟨show (1000 : ℤ) ≤ 1001 by decide, h⟩,
    show (checkGrant (sealedGrant second).toGrant 1001 >>= fun _ ↦
      discard (verifyCaller (sealedDeps second).toKeys "token" (sealedGrant second).toGrant 1001
        "bench:reserve")) = .ok () by decide +revert +kernel⟩

theorem sealed_callerDeadline : callerDeadline (sealedDeps second).toKeys "token"
    (sealedGrant second).toGrant 1000 "bench:reserve" = .ok 1200 := by
  decide +revert +kernel

theorem sealed_bind : bindMoneyRequest (sealedGrant second) (sealedRequest second) = .ok () ∧
    bindLimits (sealedGrant second) (sealedEnvelope second) sealedPolicy sealedBounds = .ok () := by
  constructor
  · decide +revert +kernel
  · decide +revert +kernel

theorem sealed_reserveEnvelope :
    reserveEnvelope (sealedDeps second) "envelope" sealedClock = .ok (sealedReceipt second) := by
  have hfresh := fun deadline ↦ @sealed_assertFresh second deadline
  have hsoon : (1001 : ℤ) < min (min 2000 1005) (min (1000 + 5) 1200) := by decide
  have hlate : (1001 : ℤ) < min (min (min 2000 1005) (min (1000 + 5) 1200)) (min 5000 5000) := by
    decide
  have h : reserveEnvelope? (sealedDeps second) "envelope" sealedClock =
      .ok (sealedReceipt second) := by
    refine Except.ok_bind (a := sealedEnvelope second) rfl ?_
    refine Except.ok_bind (a := sealedGrant second) rfl ?_
    refine Except.ok_bind (sealed_callerDeadline second) ?_
    refine requireBench_bind_ok.2 ⟨?_, Except.ok_bind (hfresh _ hsoon) ?_⟩
    · exact (by decide : (1000 : ℤ) < 1005 ∧ (1005 : ℤ) ≤ 1000 + 5)
    refine requireBench_bind_ok.2 ⟨⟨?_, rfl⟩, requireBench_bind_ok.2 ⟨rfl, ?_⟩⟩
    · exact (by decide : "custodian" ≠ "issuer")
    refine Except.ok_bind (sealed_bind second).1 (Except.ok_bind (sealed_bindTexts second) ?_)
    refine requireBench_bind_ok.2 ⟨rfl, Except.ok_bind (hfresh _ hsoon) ?_⟩
    refine requireBench_bind_ok.2 ⟨rfl, Except.ok_bind (hfresh _ hsoon) ?_⟩
    refine Except.ok_bind (a := sealedPolicy) rfl (Except.ok_bind (a := sealedBounds) rfl ?_)
    refine Except.ok_bind (sealed_bindProof second).1 ?_
    refine Except.ok_bind (sealed_bindProof second).2 (Except.ok_bind (sealed_bind second).2 ?_)
    refine requireBench_bind_ok.2 ⟨rfl, Except.ok_bind (hfresh _ hlate) ?_⟩
    refine Except.ok_bind (a := sealedReceipt second) rfl (Except.ok_bind (hfresh _ hlate) ?_)
    exact requireBench_bind_ok.2 ⟨by decide, Except.ok_bind (sealed_checkReceipt second) rfl⟩
  rw [reserveEnvelope, h]
  rfl

/-- A receipt of the chain. -/
def sealedSigning : Signing where
  deps := sealedDeps second
  raw := "envelope"
  clock := sealedClock
  receipt := sealedReceipt second
  signed := sealed_reserveEnvelope second

/-- Two receipts, the second of which goes on from the first. -/
theorem monetary_envelopes_bounded_sealed :
    (∃ value grant policy bounds caller,
      (sealedSigning true).Reads value grant policy bounds caller ∧
        (sealedReceipt true).Charged policy) ∧
    ([sealedSigning false, sealedSigning true].map fun x ↦ x.receipt.monetary.cost).sum ≤
      900 ∧
    ([sealedSigning false, sealedSigning true].map fun x ↦ x.receipt.request.reserved).sum ≤
      CAPS - FLOOR ∧
    [181, 182].Pairwise (· < ·) := by
  obtain ⟨hreceipt, hchain⟩ := monetary_envelopes_bounded
  obtain ⟨value, grant, policy, bounds, caller, hreads, hcharged, -⟩ :=
    hreceipt (sealedSigning true)
  refine ⟨⟨value, grant, policy, bounds, caller, hreads, hcharged⟩, ?_⟩
  refine hchain sealedPolicy [sealedSigning false, sealedSigning true] (fun x hx ↦ ?_) ?_
  · rcases List.mem_pair.1 hx with rfl | rfl
    · exact ⟨sealedEnvelope false, rfl, rfl⟩
    · exact ⟨sealedEnvelope true, rfl, rfl⟩
  · exact List.isChain_pair.2 ⟨rfl, rfl⟩

end ModelConnector.Bench
