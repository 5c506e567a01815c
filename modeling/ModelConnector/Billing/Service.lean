import ModelConnector.Billing.Charge
import ModelConnector.Foundations.Number

/-!
# Settling a charge and posting credit

The methods of the billing service that move money outside a request intent: `settle`, which
charges, and `credit`, `gift` and `recordPayment`, which all go through `post`. A method checks
its parameters, runs one transaction and absorbs a rejection by the ledger's unique index: a key
that was used before is answered with `false`, and nothing happened.

`Posted` is what a posted credit does to the store; `Charged`, from the previous module, is what
a settled charge does.
-/

namespace ModelConnector.Billing

open Atomic

/-! ### Parameters -/

/-- `String.prototype.trim`. -/
def jsTrim (s : String) : String :=
  String.ofList (Number.trim s.toList)

/-- `MAX_CREDIT_USD`, the ceiling on a recorded payment. -/
def MAX_CREDIT_USD : ℚ :=
  100000

/-- The parameters of `settle`. -/
structure SettleParams where
  apiKeyId : String
  amountUsd : Decimal
  idempotencyKey : String
  requestId : Option String := none
  reason : Option String := none

/-- The parameters of `credit`. -/
structure CreditParams where
  apiKeyId : String
  amountUsd : Decimal
  idempotencyKey : String
  reason : Option String := none
  entryType : Option LedgerEntryType := none

/-- The parameters of `gift`. -/
structure GiftParams where
  apiKeyId : String
  amountUsd : Decimal
  idempotencyKey : String
  reason : String

/-- The parameters of `recordPayment`. -/
structure PaymentParams where
  apiKeyId : String
  amountUsd : Decimal
  idempotencyKey : String
  source : String
  livemode : Bool
  externalRef : Option String := none
  actor : Option String := none
  reason : Option String := none

/-! ### The methods -/

/-- An answer of a method, and the store after it. -/
abbrev Answer (α : Type) : Type :=
  Except TxError α × Db

/-- `catch (err) { if (isDuplicateKey(err)) return …; throw err; }`. -/
def absorbDuplicate {α : Type} (answer : α) : Answer α → Answer α
  | (.error .duplicateKey, db) => (.ok answer, db)
  | r => r

/-- The charge `settleInTx` writes. -/
def SettleParams.entry (params : SettleParams) (amountUsd : ℚ) : ChargeEntry where
  apiKeyId := params.apiKeyId
  amountUsd := amountUsd
  idempotencyKey := params.idempotencyKey
  writeOffKey := "uncollectible:" ++ params.idempotencyKey
  requestId := params.requestId
  reason := params.reason.getD "request"

/-- `BillingService.settleInTx`. -/
def settleInTx (params : SettleParams) : Tx Bool := do
  require (!params.amountUsd.isNegative)
    (.failed "settle() charges a cost; a negative amount would credit the account")
  let amountUsd ← ofExcept (bindDecimal params.amountUsd)
  chargeInTx (params.entry amountUsd)

/-- `BillingService.settle`; its own check of the sign is the one `settleInTx` makes first. -/
def settle (params : SettleParams) (db : Db) : Answer Bool :=
  absorbDuplicate false ((settleInTx params).run db)

/-- The transaction of `post`. -/
def postInTx (entry : LedgerEntry Decimal) : Tx Bool := do
  let amountUsd ← ofExcept (bindDecimal entry.amountUsd)
  creditsLedgerCreate { entry with amountUsd }
  creditsBalanceIncrement entry.apiKeyId amountUsd
  pure true

/-- `BillingService.post`. -/
def post (entry : LedgerEntry Decimal) (db : Db) : Answer Bool :=
  absorbDuplicate false ((postInTx entry).run db)

/-- `BillingService.credit`. -/
def credit (params : CreditParams) (db : Db) : Answer Bool :=
  if !params.amountUsd.greaterThan 0 then
    (.error (.failed "credit() adds funds; use settle() to charge"), db)
  else
    post { apiKeyId := params.apiKeyId
           amountUsd := params.amountUsd
           idempotencyKey := params.idempotencyKey
           reason := params.reason.getD "manual-credit"
           entryType := params.entryType.getD .credit } db

/-- `BillingService.gift`. -/
def gift (params : GiftParams) (db : Db) : Answer Bool :=
  if !params.amountUsd.isFinite then
    (.error (.failed "gift() requires a finite amount"), db)
  else if !params.amountUsd.greaterThan 0 then
    (.error (.failed "gift() only adds credit; the amount must be greater than zero"), db)
  else if jsTrim params.reason == "" then
    (.error (.failed "gift() requires a reason — a gift must be auditable"), db)
  else
    post { apiKeyId := params.apiKeyId
           amountUsd := params.amountUsd
           idempotencyKey := params.idempotencyKey
           reason := jsTrim params.reason
           entryType := .gift } db

/-- `params.reason?.trim() || …`. -/
def trimmedOr (reason : Option String) (otherwise : String) : String :=
  match reason.map jsTrim with
  | none => otherwise
  | some trimmed => if trimmed == "" then otherwise else trimmed

/-- `BillingService.recordPayment`. The refusal above the ceiling names the amount in its text;
here it is the constant part of that text. -/
def recordPayment (params : PaymentParams) (db : Db) : Answer Bool :=
  if !params.amountUsd.isFinite then
    (.error (.failed "recordPayment() requires a finite amount"), db)
  else if !params.amountUsd.greaterThan 0 then
    (.error (.failed
      "recordPayment() records money received; the amount must be greater than zero"), db)
  else if params.amountUsd.greaterThan MAX_CREDIT_USD then
    (.error (.failed ("above the 100000 USD per-credit ceiling. " ++
      "There is no un-post, so the ceiling is checked before the row.")), db)
  else if jsTrim params.source == "" then
    (.error (.failed
      "recordPayment() requires a source — a payment with no provider is not auditable"), db)
  else
    post { apiKeyId := params.apiKeyId
           amountUsd := params.amountUsd
           idempotencyKey := params.idempotencyKey
           reason := trimmedOr params.reason ("payment:" ++ jsTrim params.source)
           entryType := .payment
           source := some (jsTrim params.source)
           externalRef := params.externalRef
           livemode := some params.livemode
           actor := params.actor } db

/-! ### What they do to the store -/

/-- A credit was posted: one ledger row, and the balance moved by the same amount. -/
structure Posted (entry : LedgerEntry ℚ) (db db' : Db) : Prop where
  /-- The key had not been used. -/
  fresh : ∀ row ∈ db.ledger.rows, row.idempotencyKey ≠ entry.idempotencyKey
  movement : Movement entry.apiKeyId [entry.toRow (toMicros entry.amountUsd)]
    (toMicros (ofMicros (db.balanceOf entry.apiKeyId) + entry.amountUsd)) db db'

/-- A method either leaves the store alone or commits its transaction. -/
theorem absorbDuplicate_run_cases {α : Type} (answer : α) (x : Tx α) (db : Db) :
    (∃ a db', x db = .ok (a, db') ∧ absorbDuplicate answer (x.run db) = (.ok a, db')) ∨
      (∃ e, x db = .error e ∧ (absorbDuplicate answer (x.run db)).2 = db ∧
        (absorbDuplicate answer (x.run db)).1 =
          if e = .duplicateKey then .ok answer else .error e) := by
  rcases x.run_cases db with ⟨a, db', hx, hrun⟩ | ⟨e, hx, hrun⟩
  · exact .inl ⟨a, db', hx, by rw [hrun]; rfl⟩
  · refine .inr ⟨e, hx, ?_⟩
    rw [hrun]
    cases e <;> exact ⟨rfl, rfl⟩

theorem settleInTx_ok {params : SettleParams} {db db' : Db} {ok : Bool}
    (h : settleInTx params db = .ok (ok, db')) :
    ok = true ∧ ∃ amountUsd : ℚ, params.amountUsd = .finite amountUsd ∧ 0 ≤ amountUsd ∧
      Charged (params.entry amountUsd) db db' := by
  simp only [settleInTx, bind_eq_ok_iff, require_eq_ok_iff, ofExcept_eq_ok_iff] at h
  obtain ⟨_, _, ⟨hsign, rfl⟩, amountUsd, _, ⟨hbind, rfl⟩, hcharge⟩ := h
  have hfin := bindDecimal_eq_ok hbind
  have hnonneg : 0 ≤ amountUsd := by
    rw [hfin] at hsign
    simpa [Decimal.isNegative] using hsign
  obtain ⟨hok, hcharged⟩ := chargeInTx_ok (params.entry amountUsd) hnonneg hcharge
  exact ⟨hok, amountUsd, hfin, hnonneg, hcharged⟩

theorem postInTx_ok {entry : LedgerEntry Decimal} {db db' : Db} {ok : Bool}
    (h : postInTx entry db = .ok (ok, db')) :
    ok = true ∧ ∃ amountUsd : ℚ, entry.amountUsd = .finite amountUsd ∧
      Posted { entry with amountUsd } db db' := by
  simp only [postInTx, bind_eq_ok_iff, ofExcept_eq_ok_iff] at h
  obtain ⟨amountUsd, _, ⟨hbind, rfl⟩, _, db₁, hcreate, _, db₂, hinc, hpure⟩ := h
  obtain ⟨rfl, rfl⟩ := pure_eq_ok_iff.1 hpure
  obtain ⟨hfresh, hcreate⟩ := creditsLedgerCreate_ok hcreate
  have hinc := creditsBalanceIncrement_ok hinc
  have hbalance : db₁.balanceOf entry.apiKeyId = db.balanceOf entry.apiKeyId := by
    exact_mod_cast (hcreate entry.apiKeyId).moved
  rw [hbalance] at hinc
  exact ⟨rfl, amountUsd, bindDecimal_eq_ok hbind, hfresh, (hcreate entry.apiKeyId).trans hinc⟩

/-- A settlement charges, or changes nothing. -/
theorem settle_cases (params : SettleParams) (db : Db) :
    (settle params db).2 = db ∨ (settle params db).1 = .ok true ∧ ∃ amountUsd : ℚ,
      params.amountUsd = .finite amountUsd ∧ 0 ≤ amountUsd ∧
        Charged (params.entry amountUsd) db (settle params db).2 := by
  rcases absorbDuplicate_run_cases false (settleInTx params) db with
    ⟨ok, db', hx, hrun⟩ | ⟨e, -, hdb, -⟩
  · obtain ⟨rfl, hcharged⟩ := settleInTx_ok hx
    exact .inr (by rw [settle, hrun]; exact ⟨rfl, hcharged⟩)
  · exact .inl hdb

/-- A settlement that says it charged did. -/
theorem settle_eq_true {params : SettleParams} {db : Db} (h : (settle params db).1 = .ok true) :
    ∃ amountUsd : ℚ, params.amountUsd = .finite amountUsd ∧
      Charged (params.entry amountUsd) db (settle params db).2 := by
  rcases absorbDuplicate_run_cases false (settleInTx params) db with
    ⟨ok, db', hx, hrun⟩ | ⟨e, -, -, hanswer⟩
  · obtain ⟨-, amountUsd, hfin, -, hcharged⟩ := settleInTx_ok hx
    exact ⟨amountUsd, hfin, by rw [settle, hrun]; exact hcharged⟩
  · rw [settle, hanswer] at h
    split at h <;> cases h

/-- A post adds one positive or negative entry, or changes nothing. -/
theorem post_cases (entry : LedgerEntry Decimal) (db : Db) :
    (post entry db).2 = db ∨ ∃ amountUsd : ℚ, entry.amountUsd = .finite amountUsd ∧
      Posted { entry with amountUsd } db (post entry db).2 := by
  rcases absorbDuplicate_run_cases false (postInTx entry) db with
    ⟨ok, db', hx, hrun⟩ | ⟨e, -, hdb, -⟩
  · obtain ⟨-, hposted⟩ := postInTx_ok hx
    exact .inr (by rw [post, hrun]; exact hposted)
  · exact .inl hdb

/-- The three ways to add funds share one effect: nothing, or one posted credit of the amount
given, to the key given, of a positive amount and for no request. -/
def PostsCredit (apiKeyId : String) (amountUsd : Decimal) (db db' : Db) : Prop :=
  db' = db ∨ ∃ entry : LedgerEntry ℚ, entry.apiKeyId = apiKeyId ∧
    amountUsd = .finite entry.amountUsd ∧ 0 < entry.amountUsd ∧ entry.requestId = none ∧
      Posted entry db db'

theorem post_postsCredit {entry : LedgerEntry Decimal} (hpos : entry.amountUsd.greaterThan 0 = true)
    (hrequest : entry.requestId = none) (db : Db) :
    PostsCredit entry.apiKeyId entry.amountUsd db (post entry db).2 := by
  rcases post_cases entry db with h | ⟨amountUsd, hfin, hposted⟩
  · exact .inl h
  · refine .inr ⟨{ entry with amountUsd }, rfl, hfin, ?_, hrequest, hposted⟩
    rw [hfin] at hpos
    simpa [Decimal.greaterThan] using hpos

theorem credit_postsCredit (params : CreditParams) (db : Db) :
    PostsCredit params.apiKeyId params.amountUsd db (credit params db).2 := by
  unfold credit
  split
  · exact .inl rfl
  · rename_i hpos
    exact post_postsCredit (by simpa using hpos) rfl db

theorem gift_postsCredit (params : GiftParams) (db : Db) :
    PostsCredit params.apiKeyId params.amountUsd db (gift params db).2 := by
  unfold gift
  split
  · exact .inl rfl
  split
  · exact .inl rfl
  rename_i hpos
  split
  · exact .inl rfl
  · exact post_postsCredit (by simpa using hpos) rfl db

theorem recordPayment_postsCredit (params : PaymentParams) (db : Db) :
    PostsCredit params.apiKeyId params.amountUsd db (recordPayment params db).2 := by
  unfold recordPayment
  split
  · exact .inl rfl
  split
  · exact .inl rfl
  rename_i hpos
  split
  · exact .inl rfl
  split
  · exact .inl rfl
  · exact post_postsCredit (by simpa using hpos) rfl db

end ModelConnector.Billing
