import ModelConnector.Billing.MoneyCall

/-!
# Calls that say they were applied before

A rejection by the unique index of the ledger is answered as a replay, whichever row of the
transaction it rejects. The first row has the key the caller gave; a write-off has a key derived
from it, and both are in one space with the keys of all callers. So a call is answered as a replay
when its own key is taken, be it by the write-off of another call, and also when its own key is free
but it has something to write off under a derived key that is taken. `recorded_iff` says that with
these two collisions apart, a replay is one of a row that was written under the call's own key.
-/

namespace ModelConnector.Billing

open Atomic

variable {db db' : Db}

/-! ### Statements -/

/-- The row fits its column and passes the constraints of the table. -/
structure Insertable (data : LedgerEntry ℚ) : Prop where
  fits : (toMicros data.amountUsd).natAbs < 10 ^ 12
  checks : (data.toRow (toMicros data.amountUsd)).checks = true

theorem Insertable.stored {data : LedgerEntry ℚ} (h : Insertable data) :
    storeDecimal 12 data.amountUsd = .ok (toMicros data.amountUsd) :=
  if_pos h.fits

theorem creditsLedgerCreate_of_insertable {data : LedgerEntry ℚ} (h : Insertable data)
    (hfresh : ¬db.Taken data.idempotencyKey) :
    ∃ ledger, creditsLedgerCreate data db = .ok ((), { db with ledger }) ∧
      ledger.rows = db.ledger.rows ++ [data.toRow (toMicros data.amountUsd)] :=
  creditsLedgerCreate_of_fresh data db h.fits h.checks fun row hrow hkey ↦ hfresh ⟨row, hrow, hkey⟩

theorem storeNonneg_ne_duplicateKey {precision : ℕ} {q : ℚ} :
    storeNonneg precision q ≠ .error .duplicateKey := by
  unfold storeNonneg
  split_ifs <;> simp

/-- An insertion is a duplicate when everything is in order but for the key. -/
theorem creditsLedgerCreate_duplicate_iff {data : LedgerEntry ℚ} :
    creditsLedgerCreate data db = .error .duplicateKey ↔
      Insertable data ∧ db.Taken data.idempotencyKey := by
  constructor
  · intro h
    by_cases hfits : (toMicros data.amountUsd).natAbs < 10 ^ 12
    · by_cases hchecks : (data.toRow (toMicros data.amountUsd)).checks = true
      · refine ⟨⟨hfits, hchecks⟩, ?_⟩
        by_contra hfresh
        obtain ⟨ledger, hcreate, -⟩ := creditsLedgerCreate_of_insertable ⟨hfits, hchecks⟩ hfresh
        rw [hcreate] at h
        cases h
      · rw [creditsLedgerCreate_of_checks (if_pos hfits) (Bool.not_eq_true _ ▸ hchecks)] at h
        cases h
    · have hstore : storeDecimal 12 data.amountUsd = .error .numericOverflow := if_neg hfits
      rw [creditsLedgerCreate, bind_of_error (ofExcept_eq_error_iff.2 hstore)] at h
      cases h
  · rintro ⟨h, htaken⟩
    exact creditsLedgerCreate_of_taken h.stored h.checks htaken

theorem creditsBalanceDecrement_ne_duplicateKey {apiKeyId : String} {amountUsd : ℚ} :
    creditsBalanceDecrement apiKeyId amountUsd db ≠ .error .duplicateKey := by
  intro h
  rcases bind_eq_error_iff.1 h with h | ⟨found, db', -, h⟩
  · cases h
  cases found with
  | none => cases h
  | some row =>
    rcases bind_eq_error_iff.1 h with h | ⟨balanceUsd, db'', -, h⟩
    · exact storeNonneg_ne_duplicateKey (ofExcept_eq_error_iff.1 h)
    · cases h

theorem creditsBalanceIncrement_ne_duplicateKey {apiKeyId : String} {amountUsd : ℚ} :
    creditsBalanceIncrement apiKeyId amountUsd db ≠ .error .duplicateKey := by
  intro h
  rcases bind_eq_error_iff.1 h with h | ⟨row, db', -, h⟩
  · cases h
  rcases bind_eq_error_iff.1 h with h | ⟨balanceUsd, db'', -, h⟩
  · exact storeNonneg_ne_duplicateKey (ofExcept_eq_error_iff.1 h)
  · cases h

theorem insertable_of_create {data : LedgerEntry ℚ} {u : Unit}
    (h : creditsLedgerCreate data db = .ok (u, db')) : Insertable data := by
  obtain ⟨hstore, hchecks⟩ := creditsLedgerCreate_stored h
  refine ⟨?_, hchecks⟩
  by_contra hbig
  rw [storeDecimal, if_neg hbig] at hstore
  cases hstore

/-- A write-off passes the checks, so it only has to fit. -/
theorem insertable_writeOff_iff {off : LedgerEntry ℚ} (htype : off.entryType = .uncollectible)
    (hnonneg : 0 ≤ off.amountUsd) : Insertable off ↔ toMicros off.amountUsd < 10 ^ 12 := by
  have hlow := toMicros_nonneg hnonneg
  refine ⟨fun h ↦ ?_, fun h ↦ ⟨by omega, ?_⟩⟩
  · have hfits := h.fits
    omega
  · unfold LedgerRow.checks LedgerEntry.toRow
    rw [htype]

/-! ### Transactions -/

/-- What follows the first row is a duplicate when there is a write-off and its key is taken. -/
theorem writeOff_duplicate_iff {α : Type} {writes takes : Bool} {off : LedgerEntry ℚ}
    {apiKeyId : String} {amountUsd : ℚ} {a : α} :
    (onlyIf writes (creditsLedgerCreate off) >>= fun _ ↦
        onlyIf takes (creditsBalanceDecrement apiKeyId amountUsd) >>= fun _ ↦ pure a) db =
          .error .duplicateKey ↔
      writes = true ∧ Insertable off ∧ db.Taken off.idempotencyKey := by
  rw [← creditsLedgerCreate_duplicate_iff, ← onlyIf_eq_error_iff, bind_eq_error_iff]
  refine or_iff_left ?_
  rintro ⟨_, db', -, h⟩
  rcases bind_eq_error_iff.1 h with h | ⟨_, _, -, h⟩
  · exact creditsBalanceDecrement_ne_duplicateKey (onlyIf_eq_error_iff.1 h).2
  · cases h

variable (db) in
/-- Rows that are appended take their keys, and no others. -/
theorem taken_append_iff (row : LedgerRow) {key : String}
    (h : db'.ledger.rows = db.ledger.rows ++ [row]) :
    db'.Taken key ↔ db.Taken key ∨ row.idempotencyKey = key := by
  unfold Db.Taken
  rw [h]
  constructor
  · rintro ⟨a, ha, hkey⟩
    rcases List.mem_append.1 ha with ha | ha
    · exact .inl ⟨a, ha, hkey⟩
    · exact .inr (List.mem_singleton.1 ha ▸ hkey)
  · rintro (⟨a, ha, hkey⟩ | hkey)
    · exact ⟨a, List.mem_append_left _ ha, hkey⟩
    · exact ⟨row, List.mem_append_right _ List.mem_cons_self, hkey⟩

theorem uncollectible_ne (key : String) : "uncollectible:" ++ key ≠ key := by
  intro h
  have hlength := congrArg String.length h
  rw [String.length_append] at hlength
  have hhead : "uncollectible:".length = 14 := by decide
  omega

/-- A charge is a duplicate when its row fits and its key is taken, or the key of the write-off it
has to make. -/
theorem chargeInTx_duplicate_iff {entry : ChargeEntry}
    (hne : entry.writeOffKey ≠ entry.idempotencyKey) :
    chargeInTx entry db = .error .duplicateKey ↔ Insertable entry.charge ∧
      (db.Taken entry.idempotencyKey ∨
        ofMicros (db.balanceOf entry.apiKeyId) < entry.amountUsd ∧
          toMicros (Decimal.minus entry.amountUsd (ofMicros (db.balanceOf entry.apiKeyId))) <
            10 ^ 12 ∧
          db.Taken entry.writeOffKey) := by
  by_cases hdup : creditsLedgerCreate entry.charge db = .error .duplicateKey
  · obtain ⟨hinsertable, htaken⟩ := creditsLedgerCreate_duplicate_iff.1 hdup
    rw [chargeInTx, bind_of_error hdup]
    exact iff_of_true rfl ⟨hinsertable, .inl htaken⟩
  by_cases hinsertable : Insertable entry.charge
  · have hfresh : ¬db.Taken entry.idempotencyKey :=
      fun htaken ↦ hdup (creditsLedgerCreate_duplicate_iff.2 ⟨hinsertable, htaken⟩)
    obtain ⟨ledger, hcreate, hrows⟩ := creditsLedgerCreate_of_insertable hinsertable hfresh
    set locked := Db.setBalance { db with ledger } entry.apiKeyId (db.balanceRow entry.apiKeyId)
      with hlocked
    have hensure : creditsBalanceEnsure entry.apiKeyId { db with ledger } = .ok ((), locked) := rfl
    have hlock : creditsBalanceLock entry.apiKeyId locked =
        .ok (db.balanceRow entry.apiKeyId, locked) := by
      have hrow : locked.balanceRow entry.apiKeyId = db.balanceRow entry.apiKeyId := by
        rw [Db.balanceRow_setBalance, if_pos rfl]
      rw [← hrow]
      rfl
    -- the row of the charge does not take the key of its write-off
    have hoff : locked.Taken entry.writeOffKey ↔ db.Taken entry.writeOffKey := by
      rw [taken_append_iff db (entry.charge.toRow _) hrows]
      exact or_iff_left (Ne.symm hne)
    rw [chargeInTx, bind_of_ok hcreate, bind_of_ok hensure, bind_of_ok hlock,
      writeOff_duplicate_iff, decide_eq_true_eq, Decimal.minus_pos_iff, coveredBy_lt_iff,
      insertable_writeOff_iff rfl (Decimal.minus_nonneg (coveredBy_le _ _))]
    constructor
    · rintro ⟨hlt, hfits, htaken⟩
      rw [ChargeEntry.writeOff, coveredBy_of_lt hlt] at hfits
      exact ⟨hinsertable, .inr ⟨hlt, hfits, hoff.1 htaken⟩⟩
    · rintro ⟨-, htaken | ⟨hlt, hfits, htaken⟩⟩
      · exact absurd htaken hfresh
      · refine ⟨hlt, ?_, hoff.2 htaken⟩
        rw [ChargeEntry.writeOff]
        exact (coveredBy_of_lt hlt).symm ▸ hfits
  · refine iff_of_false (fun h ↦ ?_) fun h ↦ hinsertable h.1
    rcases bind_eq_error_iff.1 h with h | ⟨_, _, hcreate, -⟩
    · exact hdup h
    · exact hinsertable (insertable_of_create hcreate)

theorem findReversible_ne_duplicateKey {params : ReverseParams} :
    findReversible params db ≠ .error .duplicateKey := by
  intro h
  rcases bind_eq_error_iff.1 h with h | ⟨found, db', -, h⟩
  · cases h
  cases found with
  | none => cases h
  | some original =>
    rcases bind_eq_error_iff.1 h with h | ⟨_, _, -, h⟩
    · cases (require_eq_error_iff.1 h).2
    · cases h

/-- A reversal that gets as far as its row is a duplicate when the row fits and its key is taken, or
the key of the write-off it has to make. -/
theorem reverseInTx_duplicate_iff {params : ReverseParams} {amountUsd : ℚ}
    {original : LedgerRow} (h : Reversible params original db)
    (hle : amountUsd ≤ db.leftOf original) :
    reverseInTx params amountUsd db = .error .duplicateKey ↔
      Insertable (params.entry original amountUsd) ∧
        (db.Taken params.idempotencyKey ∨
          recoverable db original.apiKeyId amountUsd < amountUsd ∧
            toMicros (Decimal.minus amountUsd (recoverable db original.apiKeyId amountUsd)) <
              10 ^ 12 ∧
            db.Taken (params.idempotencyKey ++ ":unrecovered")) := by
  by_cases hinsertable : Insertable (params.entry original amountUsd)
  · by_cases htaken : db.Taken params.idempotencyKey
    · have hdup := creditsLedgerCreate_duplicate_iff.2 ⟨hinsertable, htaken⟩
      exact iff_of_true (reverseInTx_of_create_error h hle hdup) ⟨hinsertable, .inl htaken⟩
    · obtain ⟨ledger, hcreate, hrows⟩ := creditsLedgerCreate_of_insertable hinsertable htaken
      have hoff : (Db.setBalance { db with ledger } original.apiKeyId
          (db.balanceRow original.apiKeyId)).Taken (params.idempotencyKey ++ ":unrecovered") ↔
            db.Taken (params.idempotencyKey ++ ":unrecovered") := by
        rw [taken_append_iff db ((params.entry original amountUsd).toRow _) hrows]
        exact or_iff_left (Ne.symm (writeOffKey_ne params.idempotencyKey))
      rw [reverseInTx_of_create h hle hcreate, writeOff_duplicate_iff, decide_eq_true_eq,
        Decimal.minus_pos_iff,
        insertable_writeOff_iff rfl (Decimal.minus_nonneg (coveredBy_le _ _))]
      refine ⟨fun ⟨hlt, hfits, hoff'⟩ ↦ ⟨hinsertable, .inr ⟨hlt, hfits, hoff.1 hoff'⟩⟩, ?_⟩
      rintro ⟨-, htaken' | ⟨hlt, hfits, hoff'⟩⟩
      · exact absurd htaken' htaken
      · exact ⟨hlt, hfits, hoff.2 hoff'⟩
  · refine iff_of_false (fun hdup ↦ ?_) fun hall ↦ hinsertable hall.1
    cases hcreate : creditsLedgerCreate (params.entry original amountUsd) db with
    | error e =>
      rw [reverseInTx_of_create_error h hle hcreate] at hdup
      cases hdup
      exact hinsertable (creditsLedgerCreate_duplicate_iff.1 hcreate).1
    | ok p => exact hinsertable (insertable_of_create hcreate)

theorem reversible_of_duplicate {params : ReverseParams} {amountUsd : ℚ}
    (h : reverseInTx params amountUsd db = .error .duplicateKey) :
    ∃ original, Reversible params original db ∧ amountUsd ≤ db.leftOf original := by
  rcases bind_eq_error_iff.1 h with hfind | ⟨original, db', hfind, -⟩
  · exact absurd hfind findReversible_ne_duplicateKey
  obtain ⟨hreversible, rfl⟩ := findReversible_ok hfind
  refine ⟨original, hreversible, ?_⟩
  by_contra hgt
  rw [reverseInTx_of_gt hreversible (not_le.1 hgt)] at h
  cases h

/-! ### Calls -/

/-- The row with which a call opens its transaction, once it has passed its checks. -/
inductive Opens (db : Db) : MoneyCall → LedgerEntry ℚ → Prop
  | settle {params : SettleParams} {amountUsd : ℚ} (hfin : params.amountUsd = .finite amountUsd)
      (hnonneg : 0 ≤ amountUsd) : Opens db (.settle params) (params.entry amountUsd).charge
  | credit {params : CreditParams} {amountUsd : ℚ} (hfin : params.amountUsd = .finite amountUsd)
      (hpos : 0 < amountUsd) :
      Opens db (.credit params)
        { apiKeyId := params.apiKeyId
          amountUsd
          idempotencyKey := params.idempotencyKey
          reason := params.reason.getD "manual-credit"
          entryType := params.entryType.getD .credit }
  | gift {params : GiftParams} {amountUsd : ℚ} (hfin : params.amountUsd = .finite amountUsd)
      (hpos : 0 < amountUsd) (hreason : jsTrim params.reason ≠ "") :
      Opens db (.gift params)
        { apiKeyId := params.apiKeyId
          amountUsd
          idempotencyKey := params.idempotencyKey
          reason := jsTrim params.reason
          entryType := .gift }
  | recordPayment {params : PaymentParams} {amountUsd : ℚ}
      (hfin : params.amountUsd = .finite amountUsd) (hpos : 0 < amountUsd)
      (hceiling : amountUsd ≤ MAX_CREDIT_USD) (hsource : jsTrim params.source ≠ "") :
      Opens db (.recordPayment params)
        { apiKeyId := params.apiKeyId
          amountUsd
          idempotencyKey := params.idempotencyKey
          reason := trimmedOr params.reason ("payment:" ++ jsTrim params.source)
          entryType := .payment
          source := some (jsTrim params.source)
          externalRef := params.externalRef
          livemode := some params.livemode
          actor := params.actor }
  | reverse {params : ReverseParams} {amountUsd : ℚ} {original : LedgerRow}
      (hvalid : validateReverse params = .ok amountUsd) (h : Reversible params original db)
      (hle : amountUsd ≤ db.leftOf original) :
      Opens db (.reverse params) (params.entry original amountUsd)

/-- The key of the write-off a call has to make, which fits its column. -/
inductive WritesOff (db : Db) : MoneyCall → String → Prop
  | settle {params : SettleParams} {amountUsd : ℚ} (hfin : params.amountUsd = .finite amountUsd)
      (hlt : ofMicros (db.balanceOf params.apiKeyId) < amountUsd)
      (hfits : toMicros (Decimal.minus amountUsd (ofMicros (db.balanceOf params.apiKeyId))) <
        10 ^ 12) :
      WritesOff db (.settle params) ("uncollectible:" ++ params.idempotencyKey)
  | reverse {params : ReverseParams} {amountUsd : ℚ} {original : LedgerRow}
      (hfin : params.amountUsd = .finite amountUsd) (h : Reversible params original db)
      (hlt : recoverable db original.apiKeyId amountUsd < amountUsd)
      (hfits : toMicros (Decimal.minus amountUsd (recoverable db original.apiKeyId amountUsd)) <
        10 ^ 12) :
      WritesOff db (.reverse params) (params.idempotencyKey ++ ":unrecovered")

/-- Which calls a transaction that only ever answers `true` answers with `false`. -/
theorem absorbDuplicate_eq_false_iff {x : Tx Bool}
    (htrue : ∀ {ok db'}, x db = .ok (ok, db') → ok = true) :
    (absorbDuplicate false (x.run db)).1 = .ok false ↔ x db = .error .duplicateKey := by
  rcases absorbDuplicate_run_cases false x db with ⟨ok, db', hx, hrun⟩ | ⟨e, hx, -, hanswer⟩
  · rw [hrun, hx, htrue hx]
    exact iff_of_false (fun h ↦ by cases h) fun h ↦ by cases h
  · rw [hanswer, hx]
    by_cases he : e = .duplicateKey
    · rw [if_pos he, he]
      exact iff_of_true rfl rfl
    · rw [if_neg he]
      exact iff_of_false (fun h ↦ by cases h) fun h ↦ he (Except.error.inj h)

/-- A call of a method that posts opens with the row it posts, and has nothing to write off. -/
theorem post_eq_false_iff {entry : LedgerEntry Decimal} : (post entry db).1 = .ok false ↔
    ∃ amountUsd : ℚ, entry.amountUsd = .finite amountUsd ∧
      Insertable { entry with amountUsd } ∧ db.Taken entry.idempotencyKey := by
  rw [post, absorbDuplicate_eq_false_iff fun h ↦ (postInTx_ok h).1]
  constructor
  · intro h
    rcases bind_eq_error_iff.1 h with h | ⟨amountUsd, db', hbind, h⟩
    · cases hamount : entry.amountUsd <;> rw [hamount] at h <;> cases h
    obtain ⟨hbind', rfl⟩ := ofExcept_eq_ok_iff.1 hbind
    rcases bind_eq_error_iff.1 h with h | ⟨_, _, -, h⟩
    · exact ⟨amountUsd, bindDecimal_eq_ok hbind', creditsLedgerCreate_duplicate_iff.1 h⟩
    rcases bind_eq_error_iff.1 h with h | ⟨_, _, -, h⟩
    · exact absurd h creditsBalanceIncrement_ne_duplicateKey
    · cases h
  · rintro ⟨amountUsd, hfin, hdup⟩
    have hbind : bindDecimal entry.amountUsd = .ok amountUsd := by
      rw [hfin]
      rfl
    rw [postInTx, bind_of_ok (ofExcept_of_ok hbind)]
    exact bind_of_error (creditsLedgerCreate_duplicate_iff.2 hdup)

theorem greaterThan_iff {d : Decimal} {q r : ℚ} (h : d = .finite q) :
    d.greaterThan r = true ↔ r < q := by
  rw [h]
  exact decide_eq_true_iff

theorem credit_eq_false_iff {params : CreditParams} : (credit params db).1 = .ok false ↔
    ∃ row, Opens db (.credit params) row ∧ Insertable row ∧ db.Taken params.idempotencyKey := by
  unfold credit
  split
  · rename_i hpos
    refine iff_of_false (fun h ↦ by cases h) ?_
    rintro ⟨_, hopens, -⟩
    cases hopens with
    | credit hfin hpos' =>
      rw [(greaterThan_iff hfin).2 hpos'] at hpos
      cases hpos
  · rename_i hpos
    rw [post_eq_false_iff]
    constructor
    · rintro ⟨amountUsd, hfin, hinsertable, htaken⟩
      have hpos' : 0 < amountUsd := (greaterThan_iff hfin).1 (by simpa using hpos)
      exact ⟨_, .credit hfin hpos', hinsertable, htaken⟩
    · rintro ⟨_, hopens, hinsertable, htaken⟩
      cases hopens with
      | credit hfin hpos' => exact ⟨_, hfin, hinsertable, htaken⟩

theorem gift_eq_false_iff {params : GiftParams} : (gift params db).1 = .ok false ↔
    ∃ row, Opens db (.gift params) row ∧ Insertable row ∧ db.Taken params.idempotencyKey := by
  unfold gift
  split
  · rename_i hinf
    refine iff_of_false (fun h ↦ by cases h) ?_
    rintro ⟨_, hopens, -⟩
    cases hopens with
    | gift hfin =>
      rw [hfin] at hinf
      cases hinf
  split
  · rename_i hpos
    refine iff_of_false (fun h ↦ by cases h) ?_
    rintro ⟨_, hopens, -⟩
    cases hopens with
    | gift hfin hpos' =>
      rw [(greaterThan_iff hfin).2 hpos'] at hpos
      cases hpos
  rename_i hpos
  split
  · rename_i hblank
    refine iff_of_false (fun h ↦ by cases h) ?_
    rintro ⟨_, hopens, -⟩
    cases hopens with
    | gift hfin hpos' hreason => exact hreason (beq_iff_eq.1 hblank)
  · rename_i hreason
    rw [post_eq_false_iff]
    constructor
    · rintro ⟨amountUsd, hfin, hinsertable, htaken⟩
      have hpos' : 0 < amountUsd := (greaterThan_iff hfin).1 (by simpa using hpos)
      exact ⟨_, .gift hfin hpos' (by simpa using hreason), hinsertable, htaken⟩
    · rintro ⟨_, hopens, hinsertable, htaken⟩
      cases hopens with
      | gift hfin => exact ⟨_, hfin, hinsertable, htaken⟩

theorem recordPayment_eq_false_iff {params : PaymentParams} :
    (recordPayment params db).1 = .ok false ↔
      ∃ row, Opens db (.recordPayment params) row ∧ Insertable row ∧
        db.Taken params.idempotencyKey := by
  unfold recordPayment
  split
  · rename_i hinf
    refine iff_of_false (fun h ↦ by cases h) ?_
    rintro ⟨_, hopens, -⟩
    cases hopens with
    | recordPayment hfin =>
      rw [hfin] at hinf
      cases hinf
  split
  · rename_i hpos
    refine iff_of_false (fun h ↦ by cases h) ?_
    rintro ⟨_, hopens, -⟩
    cases hopens with
    | recordPayment hfin hpos' =>
      rw [(greaterThan_iff hfin).2 hpos'] at hpos
      cases hpos
  rename_i hpos
  split
  · rename_i habove
    refine iff_of_false (fun h ↦ by cases h) ?_
    rintro ⟨_, hopens, -⟩
    cases hopens with
    | recordPayment hfin hpos' hceiling =>
      exact absurd ((greaterThan_iff hfin).1 habove) (not_lt.2 hceiling)
  rename_i hceiling
  split
  · rename_i hblank
    refine iff_of_false (fun h ↦ by cases h) ?_
    rintro ⟨_, hopens, -⟩
    cases hopens with
    | recordPayment hfin hpos' hceiling' hsource => exact hsource (beq_iff_eq.1 hblank)
  · rename_i hsource
    rw [post_eq_false_iff]
    constructor
    · rintro ⟨amountUsd, hfin, hinsertable, htaken⟩
      have hpos' : 0 < amountUsd := (greaterThan_iff hfin).1 (by simpa using hpos)
      have hceiling' : amountUsd ≤ MAX_CREDIT_USD :=
        not_lt.1 (mt (greaterThan_iff hfin).2 hceiling)
      exact ⟨_, .recordPayment hfin hpos' hceiling' (by simpa using hsource), hinsertable, htaken⟩
    · rintro ⟨_, hopens, hinsertable, htaken⟩
      cases hopens with
      | recordPayment hfin => exact ⟨_, hfin, hinsertable, htaken⟩

theorem settleInTx_of_finite {params : SettleParams} {amountUsd : ℚ}
    (hfin : params.amountUsd = .finite amountUsd) (hnonneg : 0 ≤ amountUsd) :
    settleInTx params db = chargeInTx (params.entry amountUsd) db := by
  have hsign : (!params.amountUsd.isNegative) = true := by
    rw [hfin, Bool.not_eq_true']
    exact decide_eq_false (not_lt.2 hnonneg)
  have hbind : bindDecimal params.amountUsd = .ok amountUsd := by
    rw [hfin]
    rfl
  rw [settleInTx, bind_of_ok (require_of_true hsign), bind_of_ok (ofExcept_of_ok hbind)]

theorem settle_eq_false_iff {params : SettleParams} : (settle params db).1 = .ok false ↔
    ∃ row, Opens db (.settle params) row ∧ Insertable row ∧ (db.Taken params.idempotencyKey ∨
      ∃ key, WritesOff db (.settle params) key ∧ db.Taken key) := by
  rw [settle, absorbDuplicate_eq_false_iff fun h ↦ (settleInTx_ok h).1]
  constructor
  · intro h
    rcases bind_eq_error_iff.1 h with h | ⟨_, _, hsign, h'⟩
    · cases (require_eq_error_iff.1 h).2
    rcases bind_eq_error_iff.1 h' with h | ⟨amountUsd, _, hbind, -⟩
    · cases hamount : params.amountUsd <;> rw [hamount] at h <;> cases h
    have hfin := bindDecimal_eq_ok (ofExcept_eq_ok_iff.1 hbind).1
    have hnonneg : 0 ≤ amountUsd := by
      have hsign := (require_eq_ok_iff.1 hsign).1
      rw [hfin] at hsign
      simpa [Decimal.isNegative] using hsign
    rw [settleInTx_of_finite hfin hnonneg] at h
    obtain ⟨hinsertable, htaken⟩ := (chargeInTx_duplicate_iff (uncollectible_ne _)).1 h
    refine ⟨_, .settle hfin hnonneg, hinsertable, htaken.imp_right ?_⟩
    rintro ⟨hlt, hfits, htaken⟩
    exact ⟨_, .settle hfin hlt hfits, htaken⟩
  · rintro ⟨_, ⟨hfin, hnonneg⟩, hinsertable, htaken⟩
    rw [settleInTx_of_finite hfin hnonneg]
    refine (chargeInTx_duplicate_iff (uncollectible_ne _)).2
      ⟨hinsertable, htaken.imp_right ?_⟩
    rintro ⟨_, ⟨hfin', hlt, hfits⟩, htaken⟩
    cases hfin.symm.trans hfin'
    exact ⟨hlt, hfits, htaken⟩

/-- A reversal is answered as a replay when its transaction is a duplicate. -/
theorem reverse_eq_false_iff {params : ReverseParams} :
    (reverse params db).1.map ReversalResult.applied = .ok false ↔
      ∃ amountUsd, validateReverse params = .ok amountUsd ∧
        reverseInTx params amountUsd db = .error .duplicateKey := by
  cases hvalid : validateReverse params with
  | error e =>
    unfold reverse
    rw [hvalid]
    exact iff_of_false (fun h ↦ by cases h) fun ⟨_, h, _⟩ ↦ by cases h
  | ok amountUsd =>
    cases htx : reverseInTx params amountUsd db with
    | error e =>
      rw [reverse_of_error hvalid htx]
      by_cases he : e = .duplicateKey
      · rw [if_pos he]
        exact iff_of_true rfl ⟨amountUsd, rfl, he ▸ htx⟩
      · rw [if_neg he]
        refine iff_of_false (fun h ↦ by cases h) ?_
        rintro ⟨_, ⟨⟩, h⟩
        exact he (Except.error.inj (htx.symm.trans h))
    | ok p =>
      obtain ⟨happlied, -⟩ := reverseInTx_reversed (validateReverse_eq_ok hvalid).2.le htx
      rw [reverse_of_ok hvalid htx]
      refine iff_of_false (fun h ↦ ?_) ?_
      · rw [Except.map, happlied] at h
        cases h
      · rintro ⟨_, ⟨⟩, h⟩
        cases htx.symm.trans h

/-- **Which calls are answered as replays.** -/
theorem reportsReplay_iff {call : MoneyCall} : call.ReportsReplay db ↔
    ∃ row, Opens db call row ∧ Insertable row ∧ (db.Taken call.idempotencyKey ∨
      ∃ key, WritesOff db call key ∧ db.Taken key) := by
  cases call with
  | settle params => exact settle_eq_false_iff
  | credit params =>
    refine credit_eq_false_iff.trans (exists_congr fun row ↦ and_congr_right fun _ ↦
      and_congr_right fun _ ↦ (or_iff_left ?_).symm)
    rintro ⟨_, ⟨⟩, -⟩
  | gift params =>
    refine gift_eq_false_iff.trans (exists_congr fun row ↦ and_congr_right fun _ ↦
      and_congr_right fun _ ↦ (or_iff_left ?_).symm)
    rintro ⟨_, ⟨⟩, -⟩
  | recordPayment params =>
    refine recordPayment_eq_false_iff.trans (exists_congr fun row ↦ and_congr_right fun _ ↦
      and_congr_right fun _ ↦ (or_iff_left ?_).symm)
    rintro ⟨_, ⟨⟩, -⟩
  | reverse params =>
    refine reverse_eq_false_iff.trans ⟨?_, ?_⟩
    · rintro ⟨amountUsd, hvalid, hdup⟩
      obtain ⟨hfin, hpos⟩ := validateReverse_eq_ok hvalid
      obtain ⟨original, h, hle⟩ := reversible_of_duplicate hdup
      obtain ⟨hinsertable, htaken⟩ := (reverseInTx_duplicate_iff h hle).1 hdup
      refine ⟨_, .reverse hvalid h hle, hinsertable, htaken.imp_right ?_⟩
      rintro ⟨hlt, hfits, htaken⟩
      exact ⟨_, .reverse hfin h hlt hfits, htaken⟩
    · rintro ⟨_, hopens, hinsertable, htaken⟩
      cases hopens with
      | reverse hvalid h hle =>
        obtain ⟨hfin, hpos⟩ := validateReverse_eq_ok hvalid
        refine ⟨_, hvalid, (reverseInTx_duplicate_iff h hle).2
          ⟨hinsertable, htaken.imp_right ?_⟩⟩
        rintro ⟨_, hwrites, htaken⟩
        cases hwrites with
        | reverse hfin' h' hlt hfits =>
          cases hfin.symm.trans hfin'
          rw [h.unique h']
          exact ⟨hlt, hfits, htaken⟩

/-! ### False alarms -/

/-- The row writes off what another one could not take, under a key derived from that one's. -/
def IsWriteOff (row : LedgerRow) : Prop :=
  row.entryType = .uncollectible ∧
    ∃ key, row.idempotencyKey = "uncollectible:" ++ key ∨ row.idempotencyKey = key ++ ":unrecovered"

/-- A row was written under the very key of the call. -/
def MoneyCall.Recorded (call : MoneyCall) (db : Db) : Prop :=
  ∃ row ∈ db.ledger.rows, row.idempotencyKey = call.idempotencyKey ∧ ¬IsWriteOff row

/-- The call passes its checks and meets a key that another operation took: its own, for a
write-off, or else the one it needs for its own write-off. -/
structure MoneyCall.Collides (call : MoneyCall) (db : Db) : Prop where
  opens : ∃ row, Opens db call row ∧ Insertable row
  meets : (∃ row ∈ db.ledger.rows, row.idempotencyKey = call.idempotencyKey ∧ IsWriteOff row) ∨
    ¬db.Taken call.idempotencyKey ∧ ∃ key, WritesOff db call key ∧ db.Taken key

/-- **When a replay is one.** A call that says it was applied before finds a row of its own key,
unless it collides. -/
theorem recorded_iff {call : MoneyCall} :
    (call.ReportsReplay db → call.Recorded db) ↔ ¬call.Collides db := by
  constructor
  · rintro h ⟨⟨row, hopens, hinsertable⟩, ⟨a, ha, hkey, hoff⟩ | ⟨hfresh, key, hwrites, htaken⟩⟩
    · obtain ⟨b, hb, hkey', hoff'⟩ :=
        h (reportsReplay_iff.2 ⟨row, hopens, hinsertable, .inl ⟨a, ha, hkey⟩⟩)
      have hab : a = b := Table.eq_of_clash (fun _ _ ↦ Bool.beq_comm) ha hb
        (beq_iff_eq.2 (hkey.trans hkey'.symm))
      exact hoff' (hab ▸ hoff)
    · obtain ⟨b, hb, hkey', -⟩ := h (reportsReplay_iff.2
        ⟨row, hopens, hinsertable, .inr ⟨key, hwrites, htaken⟩⟩)
      exact hfresh ⟨b, hb, hkey'⟩
  · intro h hreplay
    obtain ⟨row, hopens, hinsertable, htaken⟩ := reportsReplay_iff.1 hreplay
    by_contra hnot
    refine h ⟨⟨row, hopens, hinsertable⟩, ?_⟩
    by_cases hown : db.Taken call.idempotencyKey
    · obtain ⟨a, ha, hkey⟩ := hown
      exact .inl ⟨a, ha, hkey, by_contra fun hoff ↦ hnot ⟨a, ha, hkey, hoff⟩⟩
    · exact .inr ⟨hown, htaken.resolve_left hown⟩

/-- A dollar was credited under a key that a write-off would have. -/
def squatted : Db :=
  (credit { apiKeyId := "key", amountUsd := .finite 1,
            idempotencyKey := "uncollectible:charge-1" } .empty).2

/-- Two dollars are then charged under a fresh key: the call says that it charged before. -/
theorem fresh_charge_skipped : ∃ call : MoneyCall, call.idempotencyKey = "charge-1" ∧
    call.ReportsReplay squatted ∧ ¬call.Recorded squatted := by
  refine ⟨.settle { apiKeyId := "key", amountUsd := .finite 2, idempotencyKey := "charge-1" }, rfl,
    by decide +kernel, ?_⟩
  rintro ⟨row, hrow, hkey, -⟩
  have hfresh : ¬squatted.Taken "charge-1" := by decide +kernel
  exact hfresh ⟨row, hrow, hkey⟩

end ModelConnector.Billing
