import Mathlib.Algebra.BigOperators.Group.List.Basic
import ModelConnector.Foundations.Json

/-!
# The contract of a bench reservation

Grants, requests and heads of the reservation chain, and the checks that bind a request to a grant
and a grant to the clock. A refusal carries the condition that was not met; every error that is not
a refusal of the service itself leaves it as one fixed condition.

Signatures are outside: what a signed envelope or a token says, once it was verified, is a
parameter.
-/

namespace ModelConnector.Bench

/-- The three counters of a budget. -/
@[ext]
structure Counters where
  attempts : ℕ
  input : ℕ
  output : ℕ
  deriving DecidableEq

namespace Counters

instance : Zero Counters := ⟨⟨0, 0, 0⟩⟩

instance : Add Counters := ⟨fun a b ↦
  ⟨a.attempts + b.attempts, a.input + b.input, a.output + b.output⟩⟩

instance : Sub Counters := ⟨fun a b ↦
  ⟨a.attempts - b.attempts, a.input - b.input, a.output - b.output⟩⟩

instance : LE Counters := ⟨fun a b ↦
  a.attempts ≤ b.attempts ∧ a.input ≤ b.input ∧ a.output ≤ b.output⟩

instance (a b : Counters) : Decidable (a ≤ b) :=
  inferInstanceAs (Decidable (a.attempts ≤ b.attempts ∧ a.input ≤ b.input ∧ a.output ≤ b.output))

end Counters

/-- `CAPS`. -/
def CAPS : Counters :=
  ⟨528, 10000000, 1500000⟩

/-- `FLOOR`. -/
def FLOOR : Counters :=
  ⟨180, 1695917, 199911⟩

/-- `ORIGINAL_LEDGER`. -/
def ORIGINAL_LEDGER : String :=
  "416715bbf4b6f25a3ef9bb0c3085651792f66548789239e2e96c093e7e7e26fb"

/-- `Number.MAX_SAFE_INTEGER`. -/
def MAX_SAFE_INTEGER : ℕ :=
  2 ^ 53 - 1

/-- What a signed grant admits. -/
structure Grant where
  campaign : String
  subject : String
  attempt : String
  account : String
  provider : String
  model : String
  source_sha256 : String
  binary_sha256 : String
  expires_unix : ℕ
  caps : Counters
  retained_baseline : Counters
  hard_output_tokens : ℕ
  journal_id : String
  custodian_public_key : String
  caller_subject : String
  auth_audience : String
  auth_jwks_sha256 : String
  original_ledger_sha256 : String
  deriving DecidableEq

/-- A request for a reservation. -/
structure ReservationRequest where
  schema : String
  campaign : String
  subject : String
  attempt : String
  account : String
  provider : String
  model : String
  source_sha256 : String
  binary_sha256 : String
  journal_id : String
  wire_sha256 : String
  reserved : Counters
  caps : Counters
  retained_baseline : Counters
  nonce : String
  deriving DecidableEq

/-- A head of the reservation chain. -/
@[ext]
structure Head where
  campaign : String
  journal : String
  sequence : ℕ
  aggregate : Counters
  head : String
  deriving DecidableEq

/-! ### Checks -/

/-- `requireBench`. -/
def requireBench (condition : Prop) [Decidable condition] (code : String) : Except String Unit :=
  if condition then .ok () else .error code

/-- The condition an error other than a refusal leaves the service as. -/
def unknownPreserved : String :=
  "reservation_refused_unknown_preserved"

/-- `checkGrant`. -/
def checkGrant (grant : Grant) (now : ℤ) : Except String Unit := do
  requireBench (grant.caps = CAPS) "original_caps_required"
  requireBench (FLOOR ≤ grant.retained_baseline ∧ grant.retained_baseline ≤ CAPS)
    "retained_baseline_required"
  requireBench (now < grant.expires_unix ∧ grant.expires_unix ≤ now + 3600) "grant_not_fresh"
  requireBench (grant.hard_output_tokens ≤ CAPS.output - grant.retained_baseline.output)
    "hard_output_reserve_over_cap"

/-- The names `bindRequest` compares, with what the grant and the request say. -/
def bindings (grant : Grant) (request : ReservationRequest) : List (String × String × String) :=
  [("campaign", grant.campaign, request.campaign),
    ("subject", grant.subject, request.subject),
    ("attempt", grant.attempt, request.attempt),
    ("account", grant.account, request.account),
    ("provider", grant.provider, request.provider),
    ("model", grant.model, request.model),
    ("source_sha256", grant.source_sha256, request.source_sha256),
    ("binary_sha256", grant.binary_sha256, request.binary_sha256),
    ("journal_id", grant.journal_id, request.journal_id)]

/-- `bindRequest`. -/
def bindRequest (grant : Grant) (request : ReservationRequest) : Except String Unit := do
  (bindings grant request).forM fun (key, granted, requested) ↦
    requireBench (granted = requested) ("binding_" ++ key)
  requireBench (request.caps = CAPS ∧ request.retained_baseline = grant.retained_baseline)
    "counter_binding"
  requireBench (request.reserved.attempts = 1 ∧ 0 < request.reserved.input ∧
    request.reserved.output = grant.hard_output_tokens) "actual_send_reservation"

/-! ### Callers -/

/-- The claims of a caller's token. -/
structure Claims where
  sub : String
  aud : List String
  exp : ℤ
  iat : ℤ
  nbf : Option ℤ
  /-- The words of `scope`. -/
  scopes : List String
  deriving DecidableEq

/-- The keys a service is constructed with, and the cryptography it relies on. -/
structure Keys where
  sha256 : String → String
  /-- The payload of an envelope whose signature the issuer made for a domain. -/
  verifyEnvelope : String → String → Option String
  /-- The claims of a token signed by a key of `authArcanaJwks`. -/
  readToken : String → Option Claims
  authArcanaJwks : String
  /-- The public key of `custodianPrivateKey`. -/
  custodianPublicKey : String
  issuerPublicKey : String

/-- The keys of the reservation service, and the schemas it reads by. -/
structure Custody extends Keys where
  /-- `grantSchema.parse(JSON.parse(payload))`. -/
  parseGrant : String → Option Grant
  /-- `requestSchema.parse`. -/
  parseRequest : String → Option ReservationRequest

/-- The value, or the condition of an error that is not a refusal. -/
def orUnknown {α : Type} : Option α → Except String α
  | some a => .ok a
  | none => .error unknownPreserved

/-- `verifyCaller`, with the claims it has verified. -/
def verifyCaller (keys : Keys) (token : String) (grant : Grant) (now : ℤ)
    (requiredScope : String) : Except String Claims := do
  requireBench (keys.sha256 keys.authArcanaJwks = grant.auth_jwks_sha256)
    "auth_jwks_not_bound"
  requireBench (utf16Length token ≤ 16384) "caller_token_size"
  let claims ← orUnknown (keys.readToken token)
  requireBench (grant.auth_audience ∈ claims.aud ∧ claims.sub = grant.caller_subject)
    "caller_scope_binding"
  requireBench (now < claims.exp ∧ claims.iat ≤ now ∧ now - 300 ≤ claims.iat ∧
    claims.nbf.all (· ≤ now)) "caller_not_fresh"
  requireBench (requiredScope ∈ claims.scopes) "caller_not_bench_authorized"
  pure claims

/-- `callerDeadline`. -/
def callerDeadline (keys : Keys) (token : String) (grant : Grant) (now : ℤ)
    (scope : String) : Except String ℤ := do
  let claims ← verifyCaller keys token grant now scope
  pure (min claims.exp (claims.iat + 300))

/-! ### Texts and digests -/

/-- `digest(canonical(value))`. -/
def digest (sha256 : String → String) (value : Json) : String :=
  sha256 (String.ofList value.text)

/-- Counters as a value. -/
def countersJson (counters : Counters) : Json :=
  .arr [.nat counters.attempts, .nat counters.input, .nat counters.output]

/-- A head as a value. -/
def Head.json (h : Head) : Json :=
  .obj [("campaign", .str h.campaign), ("journal", .str h.journal), ("sequence", .nat h.sequence),
    ("aggregate", countersJson h.aggregate), ("head", .str h.head)]

/-- A request as a value. -/
def ReservationRequest.json (r : ReservationRequest) : Json :=
  .obj [("schema", .str r.schema), ("campaign", .str r.campaign), ("subject", .str r.subject),
    ("attempt", .str r.attempt), ("account", .str r.account), ("provider", .str r.provider),
    ("model", .str r.model), ("source_sha256", .str r.source_sha256),
    ("binary_sha256", .str r.binary_sha256), ("journal_id", .str r.journal_id),
    ("wire_sha256", .str r.wire_sha256), ("reserved", countersJson r.reserved),
    ("caps", countersJson r.caps), ("retained_baseline", countersJson r.retained_baseline),
    ("nonce", .str r.nonce)]

/-! ### Properties -/

namespace Counters

variable {a b c : Counters}

@[simp]
theorem attempts_add : (a + b).attempts = a.attempts + b.attempts :=
  rfl

@[simp]
theorem input_add : (a + b).input = a.input + b.input :=
  rfl

@[simp]
theorem output_add : (a + b).output = a.output + b.output :=
  rfl

@[simp]
theorem attempts_zero : (0 : Counters).attempts = 0 :=
  rfl

@[simp]
theorem input_zero : (0 : Counters).input = 0 :=
  rfl

@[simp]
theorem output_zero : (0 : Counters).output = 0 :=
  rfl

instance : AddCommMonoid Counters where
  add_assoc a b c := Counters.ext (Nat.add_assoc _ _ _) (Nat.add_assoc _ _ _) (Nat.add_assoc _ _ _)
  zero_add a := Counters.ext (Nat.zero_add _) (Nat.zero_add _) (Nat.zero_add _)
  add_zero _ := rfl
  add_comm a b := Counters.ext (Nat.add_comm _ _) (Nat.add_comm _ _) (Nat.add_comm _ _)
  nsmul := nsmulRec

theorem le_refl (a : Counters) : a ≤ a :=
  ⟨Nat.le_refl _, Nat.le_refl _, Nat.le_refl _⟩

theorem le_trans (hab : a ≤ b) (hbc : b ≤ c) : a ≤ c :=
  ⟨hab.1.trans hbc.1, hab.2.1.trans hbc.2.1, hab.2.2.trans hbc.2.2⟩

theorem le_add_right (a b : Counters) : a ≤ a + b :=
  ⟨Nat.le_add_right _ _, Nat.le_add_right _ _, Nat.le_add_right _ _⟩

theorem le_sub_of_add_le (h : a + b ≤ c) : b ≤ c - a :=
  ⟨Nat.le_sub_of_add_le' h.1, Nat.le_sub_of_add_le' h.2.1, Nat.le_sub_of_add_le' h.2.2⟩

theorem add_le_add_right (h : a ≤ b) (c : Counters) : a + c ≤ b + c :=
  ⟨Nat.add_le_add_right h.1 _, Nat.add_le_add_right h.2.1 _, Nat.add_le_add_right h.2.2 _⟩

theorem add_le_add_left (h : b ≤ c) (a : Counters) : a + b ≤ a + c :=
  ⟨Nat.add_le_add_left h.1 _, Nat.add_le_add_left h.2.1 _, Nat.add_le_add_left h.2.2 _⟩

/-- Less is summed over a part of a list. -/
theorem sum_le_of_sublist {l l' : List Counters} (h : l.Sublist l') : l.sum ≤ l'.sum := by
  induction h with
  | slnil => exact le_refl _
  | cons a _ ih =>
    rw [List.sum_cons, add_comm]
    exact le_trans ih (le_add_right _ _)
  | cons_cons a _ ih =>
    rw [List.sum_cons, List.sum_cons]
    exact add_le_add_left ih a

/-- The same, whatever the order. -/
theorem sum_le_of_subperm {l l' : List Counters} (h : l.Subperm l') : l.sum ≤ l'.sum := by
  obtain ⟨m, hperm, hsub⟩ := h
  rw [← hperm.sum_eq]
  exact sum_le_of_sublist hsub

end Counters

@[simp]
theorem requireBench_bind_ok {α : Type} {condition : Prop} [Decidable condition] {code : String}
    {f : Unit → Except String α} {a : α} :
    (requireBench condition code >>= f) = .ok a ↔ condition ∧ f () = .ok a := by
  unfold requireBench
  split
  · rename_i h
    exact (and_iff_right h).symm
  · rename_i h
    constructor
    · intro heq
      cases heq
    · exact fun hand ↦ absurd hand.1 h

@[simp]
theorem requireBench_ok {condition : Prop} [Decidable condition] {code : String} {u : Unit} :
    requireBench condition code = .ok u ↔ condition := by
  unfold requireBench
  split <;> simp_all

@[simp]
theorem orUnknown_ok {α : Type} {o : Option α} {a : α} : orUnknown o = .ok a ↔ o = some a := by
  cases o <;> simp [orUnknown]

end ModelConnector.Bench
