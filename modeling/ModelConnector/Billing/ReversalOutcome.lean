import ModelConnector.Billing.Reversal

/-!
# What a reversal answers

The outcome of `reverse` on an original that is there and may be reversed, case by case: past the
headroom it is refused; a key that is taken is a replay; an amount that rounds to nothing violates
the constraint of the table; a write-off whose derived key is taken is a replay as well; and
otherwise the reversal is applied.
-/

namespace ModelConnector.Billing

open Atomic

variable {params : ReverseParams} {amountUsd : ℚ} {original : LedgerRow} {db db' : Db}

/-- The amounts of the rows that reverse an entry. -/
def Db.reversals (db : Db) (originalKey : String) : List ℤ :=
  (db.ledger.rows.filter fun row ↦ row.reversalOf == some originalKey).map LedgerEntry.amountUsd

/-- What the rows that reverse an entry leave of it. -/
def Db.leftOf (db : Db) (original : LedgerRow) : ℚ :=
  headroom original (db.reversals original.idempotencyKey)

/-- A row of the ledger has the key. -/
def Db.Taken (db : Db) (key : String) : Prop :=
  ∃ row ∈ db.ledger.rows, row.idempotencyKey = key

instance (db : Db) (key : String) : Decidable (db.Taken key) :=
  inferInstanceAs (Decidable (∃ row ∈ db.ledger.rows, row.idempotencyKey = key))

/-- A reversal has one original. -/
theorem Reversible.unique {original' : LedgerRow} (h : Reversible params original db)
    (h' : Reversible params original' db) : original = original' :=
  Table.eq_of_clash (fun _ _ ↦ Bool.beq_comm) h.mem h'.mem
    (beq_iff_eq.2 (h.key.trans h'.key.symm))

/-! ### Insertions into the ledger -/

theorem creditsLedgerCreate_stored {data : LedgerEntry ℚ} {u : Unit}
    (h : creditsLedgerCreate data db = .ok (u, db')) :
    storeDecimal 12 data.amountUsd = .ok (toMicros data.amountUsd) ∧
      (data.toRow (toMicros data.amountUsd)).checks = true := by
  simp only [creditsLedgerCreate, bind_eq_ok_iff, ofExcept_eq_ok_iff, require_eq_ok_iff] at h
  obtain ⟨stored, _, ⟨hstore, rfl⟩, _, _, ⟨hchecks, rfl⟩, -⟩ := h
  have heq := storeDecimal_eq_ok hstore
  rw [heq] at hstore hchecks
  exact ⟨hstore, hchecks⟩

/-- An insertion that would be made but for its key is a duplicate. -/
theorem creditsLedgerCreate_of_taken {data : LedgerEntry ℚ}
    (hstore : storeDecimal 12 data.amountUsd = .ok (toMicros data.amountUsd))
    (hchecks : (data.toRow (toMicros data.amountUsd)).checks = true)
    (htaken : db.Taken data.idempotencyKey) :
    creditsLedgerCreate data db = .error .duplicateKey := by
  obtain ⟨row, hrow, hkey⟩ := htaken
  have hread : (read Db.ledger : Tx _) db = .ok (db.ledger, db) := rfl
  have hnone : db.ledger.insert? (data.toRow (toMicros data.amountUsd)) = none :=
    Table.insert?_eq_none_iff.2 ⟨row, hrow, beq_iff_eq.2 hkey⟩
  rw [creditsLedgerCreate, bind_of_ok (ofExcept_of_ok hstore), bind_of_ok (require_of_true hchecks),
    bind_of_ok hread, hnone]
  rfl

theorem creditsLedgerCreate_of_checks {data : LedgerEntry ℚ}
    (hstore : storeDecimal 12 data.amountUsd = .ok (toMicros data.amountUsd))
    (hchecks : (data.toRow (toMicros data.amountUsd)).checks = false) :
    creditsLedgerCreate data db = .error .checkViolation := by
  rw [creditsLedgerCreate, bind_of_ok (ofExcept_of_ok hstore),
    bind_of_error (require_of_false hchecks)]

/-! ### The transaction, case by case -/

theorem findReversible_of_reversible (h : Reversible params original db) :
    findReversible params db = .ok (original, db) := by
  have hfound : db.ledger.find? (fun row ↦ row.idempotencyKey == params.originalIdempotencyKey) =
      some original := by
    have hsome : (db.ledger.find? fun row ↦
        row.idempotencyKey == params.originalIdempotencyKey).isSome = true :=
      List.find?_isSome.2 ⟨original, h.mem, beq_iff_eq.2 h.key⟩
    obtain ⟨row, hrow⟩ := Option.isSome_iff_exists.1 hsome
    have hkey := List.find?_some hrow
    have hclash : LedgerRow.clash row original = true :=
      beq_iff_eq.2 ((beq_iff_eq.1 hkey).trans h.key.symm)
    rw [hrow, Table.eq_of_clash (fun a b ↦ Bool.beq_comm)
      (List.mem_of_find?_eq_some hrow) h.mem hclash]
  have hread : creditsLedgerFindUnique params.originalIdempotencyKey db = .ok (some original, db) :=
    congrArg (fun found ↦ Except.ok (found, db)) hfound
  rw [findReversible, bind_of_ok hread]
  exact bind_of_ok (require_of_true h.credit)

theorem creditsLedgerReversals_eq (key : String) :
    creditsLedgerReversals key db = .ok (db.reversals key, db) :=
  rfl

/-- Past the headroom the reversal is refused. -/
theorem reverseInTx_of_gt (h : Reversible params original db) (hgt : db.leftOf original < amountUsd) :
    reverseInTx params amountUsd db = .error (.reversalRefused "exceeds_original") := by
  have hfail : decide (amountUsd ≤ headroom original
      (db.reversals params.originalIdempotencyKey)) = false := by
    rw [← h.key]
    exact decide_eq_false (not_le.2 hgt)
  rw [reverseInTx, bind_of_ok (findReversible_of_reversible h),
    bind_of_ok (creditsLedgerReversals_eq _), bind_of_error (require_of_false hfail)]

/-- A transaction that goes through has inserted its row. -/
theorem reverseInTx_created {result : ReversalResult}
    (h : reverseInTx params amountUsd db = .ok (result, db')) :
    ∃ original db₁, Reversible params original db ∧
      creditsLedgerCreate (params.entry original amountUsd) db = .ok ((), db₁) := by
  simp only [reverseInTx, bind_eq_ok_iff, creditsLedgerReversals, read_eq_ok_iff,
    require_eq_ok_iff] at h
  obtain ⟨original, _, hfind, _, _, ⟨-, rfl⟩, _, _, ⟨-, rfl⟩, _, db₁, hentry, -⟩ := h
  obtain ⟨hreversible, rfl⟩ := findReversible_ok hfind
  exact ⟨original, db₁, hreversible, hentry⟩

section Within

variable (h : Reversible params original db) (hle : amountUsd ≤ db.leftOf original)

include h hle

theorem require_headroom :
    decide (amountUsd ≤ headroom original (db.reversals params.originalIdempotencyKey)) = true := by
  rw [← h.key]
  exact decide_eq_true hle

/-- Within the headroom it fails as the insertion of its row does. -/
theorem reverseInTx_of_create_error {e : TxError}
    (hcreate : creditsLedgerCreate (params.entry original amountUsd) db = .error e) :
    reverseInTx params amountUsd db = .error e := by
  rw [reverseInTx, bind_of_ok (findReversible_of_reversible h),
    bind_of_ok (creditsLedgerReversals_eq _), bind_of_ok (require_of_true (require_headroom h hle)),
    bind_of_error hcreate]

/-- Once its row is inserted, it writes off what it does not recover, and takes off the rest. -/
theorem reverseInTx_of_create {ledger : Table LedgerRow LedgerRow.clash}
    (hcreate : creditsLedgerCreate (params.entry original amountUsd) db =
      .ok ((), { db with ledger })) :
    let recovered := recoverable db original.apiKeyId amountUsd
    let writtenOff := Decimal.minus amountUsd recovered
    let locked := Db.setBalance { db with ledger } original.apiKeyId
      (db.balanceRow original.apiKeyId)
    reverseInTx params amountUsd db =
      (onlyIf (decide (0 < writtenOff))
          (creditsLedgerCreate (params.writeOff original writtenOff)) >>= fun _ ↦
        onlyIf (decide (0 < recovered)) (creditsBalanceDecrement original.apiKeyId recovered) >>=
          fun _ ↦ pure ⟨true, params.amountUsd, recovered, writtenOff⟩) locked := by
  intro recovered writtenOff locked
  have hensure : creditsBalanceEnsure original.apiKeyId { db with ledger } = .ok ((), locked) := rfl
  have hrow : locked.balanceRow original.apiKeyId = db.balanceRow original.apiKeyId := by
    rw [Db.balanceRow_setBalance, if_pos rfl]
  have hlock : creditsBalanceLock original.apiKeyId locked =
      .ok (db.balanceRow original.apiKeyId, locked) := by
    rw [← hrow]
    rfl
  rw [reverseInTx, bind_of_ok (findReversible_of_reversible h),
    bind_of_ok (creditsLedgerReversals_eq _), bind_of_ok (require_of_true (require_headroom h hle)),
    bind_of_ok hcreate, bind_of_ok hensure, bind_of_ok hlock]
  rfl

end Within

/-- What is left of an original is at most its amount. -/
theorem le_amount_of_le_leftOf (hle : amountUsd ≤ db.leftOf original) :
    amountUsd ≤ ofMicros |original.amountUsd| := by
  have hreversed : 0 ≤ magnitude (db.reversals original.idempotencyKey) :=
    List.sum_nonneg fun n hn ↦ by
      obtain ⟨m, -, rfl⟩ := List.mem_map.1 hn
      exact abs_nonneg m
  exact hle.trans (sub_le_self _ (ofMicros_nonneg.2 hreversed))

/-- The row of a reversal fits its column if the original does. -/
theorem entry_fits (hpos : 0 ≤ amountUsd) (hfits : original.amountUsd.natAbs < 10 ^ 12)
    (hle : amountUsd ≤ db.leftOf original) :
    (toMicros (params.entry original amountUsd).amountUsd).natAbs < 10 ^ 12 := by
  have hmicros : toMicros amountUsd ≤ |original.amountUsd| := by
    rw [← toMicros_ofMicros |original.amountUsd|]
    exact toMicros_mono (le_amount_of_le_leftOf hle)
  have hnonneg := toMicros_nonneg hpos
  show (toMicros (-amountUsd)).natAbs < 10 ^ 12
  rw [toMicros_neg, Int.natAbs_neg]
  rw [Int.abs_eq_natAbs] at hmicros
  omega

/-- So does the row of what is written off: it is at most what is left of the original. -/
theorem writeOff_fits (hpos : 0 ≤ amountUsd) (hfits : original.amountUsd.natAbs < 10 ^ 12)
    (hle : amountUsd ≤ db.leftOf original) :
    (toMicros (Decimal.minus amountUsd (recoverable db original.apiKeyId amountUsd))).natAbs <
      10 ^ 12 := by
  have hrecovered : 0 ≤ recoverable db original.apiKeyId amountUsd := recoverable_nonneg db _ hpos
  have hlow : 0 ≤ toMicros (Decimal.minus amountUsd (recoverable db original.apiKeyId amountUsd)) :=
    toMicros_nonneg (Decimal.minus_nonneg (coveredBy_le _ _))
  have hhigh : toMicros (Decimal.minus amountUsd (recoverable db original.apiKeyId amountUsd)) ≤
      toMicros (Decimal.minus (ofMicros |original.amountUsd|) (ofMicros 0)) :=
    toMicros_mono (Decimal.minus_mono (le_amount_of_le_leftOf hle) (by rwa [ofMicros_zero]))
  -- the subtraction keeps enough digits for an amount of the column
  have hkept : |(|original.amountUsd| - 0)| < 10 ^ 20 := by
    rw [sub_zero, abs_abs, Int.abs_eq_natAbs]
    omega
  rw [minus_ofMicros hkept, sub_zero, toMicros_ofMicros, Int.abs_eq_natAbs] at hhigh
  omega

/-- The locked balance covers what is recovered. -/
theorem decrement_of_recoverable (hpos : 0 ≤ amountUsd)
    (hbalance : db.balanceOf original.apiKeyId < 10 ^ 12) {off : Db}
    (hrow : off.balances original.apiKeyId = some (db.balanceRow original.apiKeyId)) :
    ∃ db', creditsBalanceDecrement original.apiKeyId (recoverable db original.apiKeyId amountUsd)
      off = .ok ((), db') := by
  refine creditsBalanceDecrement_of_le hrow hbalance (recoverable_nonneg db _ hpos)
    ((coveredBy_le_available _ _).trans (max_le (sub_le_self _ ?_) ?_))
  · exact ofMicros_nonneg.2 (Int.natCast_nonneg _)
  · exact ofMicros_nonneg.2 (Int.natCast_nonneg _)

/-- The constraint of the table: a reversal is negative. -/
theorem checks_entry : ((params.entry original amountUsd).toRow
    (toMicros (params.entry original amountUsd).amountUsd)).checks =
      decide (0 < toMicros amountUsd) := by
  have hchecks : ((params.entry original amountUsd).toRow
      (toMicros (params.entry original amountUsd).amountUsd)).checks =
        (decide (toMicros (-amountUsd) < 0) && true) := by
    unfold LedgerRow.checks ReverseParams.entry LedgerEntry.toRow
    cases params.entryType with
    | none => rfl
    | some entryType => cases entryType <;> rfl
  rw [hchecks, Bool.and_true, toMicros_neg]
  exact decide_eq_decide.2 neg_lt_zero

/-- The derived key is another one. -/
theorem writeOffKey_ne (key : String) : key ++ ":unrecovered" ≠ key := by
  intro h
  have hlength := congrArg String.length h
  rw [String.length_append] at hlength
  have hsuffix : ":unrecovered".length = 12 := by decide
  omega

/-- Under a fresh key and within the headroom, the reversal is applied, unless what it has to write
off meets a derived key that is taken. -/
theorem reverseInTx_of_fresh (h : Reversible params original db)
    (hle : amountUsd ≤ db.leftOf original) (hpos : 0 < toMicros amountUsd) (hnonneg : 0 ≤ amountUsd)
    (hfits : original.amountUsd.natAbs < 10 ^ 12)
    (hbalance : db.balanceOf original.apiKeyId < 10 ^ 12)
    (hfresh : ¬ db.Taken params.idempotencyKey) :
    if recoverable db original.apiKeyId amountUsd < amountUsd ∧
        db.Taken (params.idempotencyKey ++ ":unrecovered") then
      reverseInTx params amountUsd db = .error .duplicateKey
    else
      ∃ result db', reverseInTx params amountUsd db = .ok (result, db') ∧ result.applied = true := by
  obtain ⟨ledger, hcreate, hrows⟩ := creditsLedgerCreate_of_fresh (params.entry original amountUsd)
    db (entry_fits hnonneg hfits hle) (by rw [checks_entry]; exact decide_eq_true hpos)
    fun row hrow hkey ↦ hfresh ⟨row, hrow, hkey⟩
  rw [reverseInTx_of_create h hle hcreate]
  have hsmall := writeOff_fits hnonneg hfits hle
  set recovered := recoverable db original.apiKeyId amountUsd
  set locked := Db.setBalance { db with ledger } original.apiKeyId
    (db.balanceRow original.apiKeyId) with hlocked
  set writtenOff := Decimal.minus amountUsd recovered
  have hoff : storeDecimal 12 (params.writeOff original writtenOff).amountUsd =
      .ok (toMicros (params.writeOff original writtenOff).amountUsd) := if_pos hsmall
  split_ifs with hclash
  · -- The derived key is taken.
    obtain ⟨hwrite, row, hrow, hkey⟩ := hclash
    have htaken : locked.Taken (params.writeOff original writtenOff).idempotencyKey := by
      refine ⟨row, ?_, hkey⟩
      rw [hlocked, Db.setBalance_ledger]
      exact hrows ▸ List.mem_append_left _ hrow
    rw [decide_eq_true (Decimal.minus_pos_iff.2 hwrite)]
    exact bind_of_error (creditsLedgerCreate_of_taken hoff rfl htaken)
  · obtain ⟨off, hoff, hsame⟩ := onlyIf_of_forall (Q := fun db ↦ db.balances = locked.balances)
      (b := decide (0 < writtenOff))
      (x := creditsLedgerCreate (params.writeOff original writtenOff))
      (s := locked) rfl fun hwrite ↦ by
        have hwrite' : recovered < amountUsd := Decimal.minus_pos_iff.1 (of_decide_eq_true hwrite)
        obtain ⟨ledger', hcreate', -⟩ := creditsLedgerCreate_of_fresh
          (params.writeOff original writtenOff) locked hsmall rfl fun row hrow hkey ↦ by
            rw [hlocked, Db.setBalance_ledger] at hrow
            rcases List.mem_append.1 (hrows ▸ hrow) with hrow | hrow
            · exact hclash ⟨hwrite', row, hrow, hkey⟩
            · rw [List.mem_singleton.1 hrow] at hkey
              exact writeOffKey_ne params.idempotencyKey hkey.symm
        exact ⟨_, hcreate', rfl⟩
    have hrow : off.balances original.apiKeyId = some (db.balanceRow original.apiKeyId) := by
      rw [hsame, hlocked]
      simp only [Db.setBalance, Function.update_self]
    obtain ⟨db', hdec, -⟩ := onlyIf_of_forall (Q := fun _ ↦ True) (s := off)
      (b := decide (0 < recovered)) (x := creditsBalanceDecrement original.apiKeyId recovered)
      trivial fun _ ↦ by
        obtain ⟨db', hdec⟩ := decrement_of_recoverable hnonneg hbalance hrow
        exact ⟨db', hdec, trivial⟩
    refine ⟨⟨true, params.amountUsd, recovered, writtenOff⟩, db', ?_, rfl⟩
    rw [bind_of_ok hoff, bind_of_ok hdec]
    rfl

/-! ### The answer -/

/-- The call reports that it reversed. -/
def Applied (params : ReverseParams) (db : Db) : Prop :=
  ∃ result, (reverse params db).1 = .ok result ∧ result.applied = true

instance : Decidable (Applied params db) :=
  match h : (reverse params db).1 with
  | .ok result => decidable_of_iff (result.applied = true)
      ⟨fun ha ↦ ⟨result, h, ha⟩, fun ⟨_, hr, ha⟩ ↦ Except.ok.inj (h.symm.trans hr) ▸ ha⟩
  | .error _ => .isFalse fun ⟨_, hr, _⟩ ↦ by
      rw [h] at hr
      cases hr

/-- The answer of a transaction that goes through. -/
theorem reverse_of_ok {result : ReversalResult} (hvalid : validateReverse params = .ok amountUsd)
    (h : reverseInTx params amountUsd db = .ok (result, db')) :
    reverse params db = (.ok result, db') := by
  unfold reverse run
  rw [hvalid]
  simp only [h]
  rfl

/-- The answer of a transaction that is refused. -/
theorem reverse_of_error {e : TxError} (hvalid : validateReverse params = .ok amountUsd)
    (h : reverseInTx params amountUsd db = .error e) :
    reverse params db =
      (if e = .duplicateKey then .ok ⟨false, params.amountUsd, 0, 0⟩ else .error e, db) := by
  unfold reverse run
  rw [hvalid]
  simp only [h]
  cases e <;> rfl

theorem not_applied_of_error {e : TxError} (hvalid : validateReverse params = .ok amountUsd)
    (h : reverseInTx params amountUsd db = .error e) : ¬ Applied params db := by
  rintro ⟨result, hresult, happlied⟩
  rw [reverse_of_error hvalid h] at hresult
  split_ifs at hresult
  cases hresult
  cases happlied

/-- A call reverses a credit, or it changes nothing and does not report that it did. -/
theorem reverse_applied_cases (params : ReverseParams) (db : Db) :
    (¬ Applied params db ∧ (reverse params db).2 = db) ∨
      Applied params db ∧ ∃ amountUsd original, validateReverse params = .ok amountUsd ∧
        Reversible params original db ∧
          Reversed params amountUsd original db (reverse params db).2 := by
  cases hvalid : validateReverse params with
  | error e =>
    have hrefused : reverse params db = (.error e, db) := by
      unfold reverse
      rw [hvalid]
    refine .inl ⟨?_, by rw [hrefused]⟩
    rintro ⟨result, hresult, -⟩
    rw [hrefused] at hresult
    cases hresult
  | ok amountUsd =>
    cases htx : reverseInTx params amountUsd db with
    | error e => exact .inl ⟨not_applied_of_error hvalid htx, by rw [reverse_of_error hvalid htx]⟩
    | ok p =>
      obtain ⟨happlied, original, hreversible, hreversed⟩ :=
        reverseInTx_reversed (validateReverse_eq_ok hvalid).2.le htx
      have hanswer := reverse_of_ok hvalid htx
      rw [hanswer]
      exact .inr ⟨⟨p.1, by rw [hanswer], happlied⟩, amountUsd, original, rfl, hreversible, hreversed⟩

/-- **When a reversal under a fresh key is applied.** -/
theorem applied_iff (h : Reversible params original db)
    (hvalid : validateReverse params = .ok amountUsd) (hfits : original.amountUsd.natAbs < 10 ^ 12)
    (hbalance : db.balanceOf original.apiKeyId < 10 ^ 12)
    (hfresh : ¬ db.Taken params.idempotencyKey) :
    Applied params db ↔ amountUsd ≤ db.leftOf original ∧ 0 < toMicros amountUsd ∧
      ¬ (recoverable db original.apiKeyId amountUsd < amountUsd ∧
        db.Taken (params.idempotencyKey ++ ":unrecovered")) := by
  have hpos := (validateReverse_eq_ok hvalid).2
  by_cases hle : amountUsd ≤ db.leftOf original
  · by_cases hmicros : 0 < toMicros amountUsd
    · have houtcome := reverseInTx_of_fresh h hle hmicros hpos.le hfits hbalance hfresh
      split_ifs at houtcome with hclash
      · exact iff_of_false (not_applied_of_error hvalid houtcome) fun hall ↦ hall.2.2 hclash
      · obtain ⟨result, db', hresult, happlied⟩ := houtcome
        exact iff_of_true ⟨result, by rw [reverse_of_ok hvalid hresult], happlied⟩
          ⟨hle, hmicros, hclash⟩
    · have hstored : storeDecimal 12 (params.entry original amountUsd).amountUsd =
          .ok (toMicros (params.entry original amountUsd).amountUsd) :=
        if_pos (entry_fits hpos.le hfits hle)
      have hrefused : creditsLedgerCreate (params.entry original amountUsd) db =
          .error .checkViolation := creditsLedgerCreate_of_checks hstored
        (by rw [checks_entry]; exact decide_eq_false hmicros)
      exact iff_of_false
        (not_applied_of_error hvalid (reverseInTx_of_create_error h hle hrefused))
        fun hall ↦ hmicros hall.2.1
  · exact iff_of_false (not_applied_of_error hvalid (reverseInTx_of_gt h (not_le.1 hle)))
      fun hall ↦ hle hall.1

end ModelConnector.Billing
