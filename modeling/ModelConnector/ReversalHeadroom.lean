import ModelConnector.Billing.ReversalOutcome
import ModelConnector.LedgerAgreement

/-!
# The headroom of an original

`reverse` refuses to go past the original, by summing up the magnitudes of all rows that name it.
A reversal that cannot be recovered in full leaves two such rows, the reversal itself and what was
written off of it, so what was written off counts twice. Each row is also rounded to six decimals.

The events are the calls of `reverse`, on any original, and what other operations do in between:
they post rows that reverse nothing, and move the balances and the holds of the customers.
-/

namespace ModelConnector.Billing

variable {original : LedgerRow} {db₀ db db' : Db} {params : ReverseParams} {amountUsd : ℚ}

/-- One call of `reverse`, or what happens between two. -/
inductive ReversalEvent
  | reverse (params : ReverseParams)
  /-- Another operation posts a row. -/
  | posted (row : LedgerRow)
  /-- Other operations leave a customer with this balance row. -/
  | funds (apiKeyId : String) (row : BalanceRow)

/-- The step; a balance is what its column can hold. -/
def reversalStep (db : Db) : ReversalEvent → Option Db
  | .reverse params => some (reverse params db).2
  | .posted row =>
    if row.reversalOf = none then (db.ledger.insert? row).map fun ledger ↦ { db with ledger }
    else none
  | .funds apiKeyId row =>
    if row.balanceUsd < 10 ^ 12 then some (db.setBalance apiKeyId row) else none

/-- A history of reversals begins here: the original is a credit in the ledger, no row reverses it
yet, and the columns hold what they can. -/
structure Unreversed (original : LedgerRow) (db : Db) : Prop where
  mem : original ∈ db.ledger.rows
  credit : REVERSIBLE_ENTRY_TYPES.contains original.entryType = true
  none : ∀ row ∈ db.ledger.rows, row.reversalOf ≠ some original.idempotencyKey
  amount : original.amountUsd.natAbs < 10 ^ 12
  balance : ∀ k, db.balanceOf k < 10 ^ 12

/-! ### What a history adds up to -/

/-- The amount that is asked for. -/
def ReverseParams.magnitude (params : ReverseParams) : ℚ :=
  match params.amountUsd with
  | .finite amountUsd => amountUsd
  | _ => 0

/-- A reversal of the original that is accepted: the store it is taken in, and its amount. -/
def acceptedOf (original : LedgerRow) : Db × ReversalEvent → Option (Db × ℚ)
  | (db, .reverse params) =>
    if params.originalIdempotencyKey = original.idempotencyKey ∧ Applied params db then
      some (db, params.magnitude)
    else none
  | _ => none

/-- The reversals of the original that a history accepted. -/
def accepted (original : LedgerRow) (h : List (Db × ReversalEvent)) : List (Db × ℚ) :=
  h.filterMap (acceptedOf original)

/-- What is written off of an accepted reversal. -/
def writtenOff (original : LedgerRow) (r : Db × ℚ) : ℚ :=
  Decimal.minus r.2 (recoverable r.1 original.apiKeyId r.2)

/-- What the rows of an accepted reversal add up to, each rounded to six decimals. -/
def micros (original : LedgerRow) (r : Db × ℚ) : ℤ :=
  toMicros r.2 + toMicros (writtenOff original r)

/-- What is left of the original by the amounts accepted. -/
def leftByAmounts (original : LedgerRow) (h : List (Db × ReversalEvent)) : ℚ :=
  ofMicros |original.amountUsd| - ((accepted original h).map Prod.snd).sum

/-- What is left of it by the rows of the accepted reversals, where what was written off counts a
second time. -/
def leftByRows (original : LedgerRow) (h : List (Db × ReversalEvent)) : ℚ :=
  ofMicros (|original.amountUsd| - ((accepted original h).map (micros original)).sum)

/-- What the rows add up to beyond the amounts: what was written off, and what the rounding comes
to. -/
def surplus (original : LedgerRow) (h : List (Db × ReversalEvent)) : ℚ :=
  ((accepted original h).map fun r ↦ ofMicros (micros original r) - r.2).sum

/-- The rows agree with the history. -/
structure Summed (original : LedgerRow) (db : Db) (h : List (Db × ReversalEvent)) : Prop where
  mem : original ∈ db.ledger.rows
  sum : magnitude (db.reversals original.idempotencyKey) =
    ((accepted original h).map (micros original)).sum
  balance : ∀ k, db.balanceOf k < 10 ^ 12

theorem Unreversed.summed (h : Unreversed original db) : Summed original db [] := by
  refine ⟨h.mem, ?_, h.balance⟩
  have hnil : db.reversals original.idempotencyKey = [] := by
    rw [Db.reversals, List.map_eq_nil_iff, List.filter_eq_nil_iff]
    intro row hrow
    rw [beq_iff_eq]
    exact h.none row hrow
  rw [hnil]
  rfl

/-! ### One step -/

theorem magnitude_append (xs ys : List ℤ) : magnitude (xs ++ ys) = magnitude xs + magnitude ys := by
  rw [magnitude, List.map_append, List.sum_append, magnitude, magnitude]

/-- The reversals of an entry, when rows are added. -/
theorem reversals_of_append {rows : List LedgerRow} (key : String)
    (h : db'.ledger.rows = db.ledger.rows ++ rows) :
    db'.reversals key = db.reversals key ++
      (rows.filter fun row ↦ row.reversalOf == some key).map LedgerEntry.amountUsd := by
  rw [Db.reversals, h, List.filter_append, List.map_append, Db.reversals]

/-- The rows of a reversal add up to its amount and what was written off of it. -/
theorem magnitude_rows (params : ReverseParams) (original : LedgerRow) {amountUsd recovered : ℚ}
    (hnonneg : 0 ≤ amountUsd) (hle : recovered ≤ amountUsd) (key : String) :
    magnitude (((params.rows original amountUsd recovered).filter fun row ↦
      row.reversalOf == some key).map LedgerEntry.amountUsd) =
      if params.originalIdempotencyKey = key then
        toMicros amountUsd + toMicros (Decimal.minus amountUsd recovered)
      else 0 := by
  have hentry : ((params.entry original amountUsd).toRow (toMicros (-amountUsd))).reversalOf =
      some params.originalIdempotencyKey := rfl
  have hoff : ((params.writeOff original (Decimal.minus amountUsd recovered)).toRow
      (toMicros (Decimal.minus amountUsd recovered))).reversalOf =
        some params.originalIdempotencyKey := rfl
  have habs : |toMicros (-amountUsd)| = toMicros amountUsd := by
    rw [toMicros_neg, abs_neg, abs_of_nonneg (toMicros_nonneg hnonneg)]
  have hoffs : 0 ≤ Decimal.minus amountUsd recovered := Decimal.minus_nonneg hle
  have habs' : |toMicros (Decimal.minus amountUsd recovered)| =
      toMicros (Decimal.minus amountUsd recovered) := abs_of_nonneg (toMicros_nonneg hoffs)
  unfold ReverseParams.rows
  by_cases hkey : params.originalIdempotencyKey = key
  · have hsome : (some params.originalIdempotencyKey == some key) = true := by simp [hkey]
    rw [if_pos hkey, List.filter_cons_of_pos (by rw [hentry]; exact hsome)]
    split_ifs with hpos
    · rw [List.filter_cons_of_pos (by rw [hoff]; exact hsome)]
      simp only [List.filter_nil, List.map_cons, List.map_nil, magnitude, List.sum_cons,
        List.sum_nil, LedgerEntry.toRow, habs, habs', add_zero]
    · have hzero : Decimal.minus amountUsd recovered = 0 := le_antisymm (not_lt.1 hpos) hoffs
      rw [hzero, toMicros_zero]
      simp only [List.filter_nil, List.map_cons, List.map_nil, magnitude, List.sum_cons,
        List.sum_nil, LedgerEntry.toRow, habs, add_zero]
  · have hsome : ¬(some params.originalIdempotencyKey == some key) = true := by simp [hkey]
    rw [if_neg hkey, List.filter_cons_of_neg (by rw [hentry]; exact hsome)]
    split_ifs with hpos
    · rw [List.filter_cons_of_neg (by rw [hoff]; exact hsome)]
      rfl
    · rfl

/-- What a reversal takes leaves every balance within its column. -/
theorem balance_of_reversed {original' : LedgerRow} (hnonneg : 0 ≤ amountUsd)
    (h : Reversed params amountUsd original' db db') (k : String) :
    db'.balanceOf k ≤ db.balanceOf k := by
  by_cases hk : k = original'.apiKeyId
  · have hle : toMicros (ofMicros (db.balanceOf original'.apiKeyId) -
        recoverable db original'.apiKeyId amountUsd) ≤ db.balanceOf original'.apiKeyId := by
      have hmono := toMicros_mono (sub_le_self (ofMicros (db.balanceOf original'.apiKeyId))
        (recoverable_nonneg db original'.apiKeyId hnonneg))
      rwa [toMicros_ofMicros] at hmono
    have hmoved := h.movement.moved
    rw [hk]
    omega
  · rw [h.movement.others k hk]

theorem accepted_append (original : LedgerRow) (h : List (Db × ReversalEvent))
    (p : Db × ReversalEvent) :
    accepted original (h ++ [p]) = accepted original h ++ (acceptedOf original p).toList := by
  rw [accepted, List.filterMap_append, ← accepted]
  cases hp : acceptedOf original p with
  | none => rw [List.filterMap_cons_none hp, List.filterMap_nil, Option.toList_none]
  | some r => rw [List.filterMap_cons_some hp, List.filterMap_nil, Option.toList_some]

/-- What a step accepted is what its rows add to those that reverse the original. -/
theorem Summed.step {h : List (Db × ReversalEvent)} {e : ReversalEvent} (hc : Summed original db h)
    (hs : reversalStep db e = some db') : Summed original db' (h ++ [(db, e)]) := by
  have hsum : ∀ rows : List LedgerRow, db'.ledger.rows = db.ledger.rows ++ rows →
      magnitude ((rows.filter fun row ↦
        row.reversalOf == some original.idempotencyKey).map LedgerEntry.amountUsd) =
        ((acceptedOf original (db, e)).toList.map (micros original)).sum →
      (∀ k, db'.balanceOf k < 10 ^ 12) → Summed original db' (h ++ [(db, e)]) := by
    intro rows hrows hadds hbalance
    refine ⟨hrows ▸ List.mem_append_left _ hc.mem, ?_, hbalance⟩
    rw [reversals_of_append _ hrows, magnitude_append, hc.sum, hadds, accepted_append,
      List.map_append, List.sum_append]
  cases e with
  | reverse params =>
    obtain rfl := Option.some.inj hs
    rcases reverse_applied_cases params db with
      ⟨hskipped, hdb⟩ | ⟨happlied, amountUsd, original', hvalid, hreversible, hreversed⟩
    · refine hsum [] (by rw [hdb, List.append_nil]) ?_ (by rw [hdb]; exact hc.balance)
      rw [acceptedOf, if_neg fun hall ↦ hskipped hall.2]
      rfl
    · obtain ⟨hfin, hpos⟩ := validateReverse_eq_ok hvalid
      have hmagnitude : params.magnitude = amountUsd := by rw [ReverseParams.magnitude, hfin]
      have hcovered : recoverable db original'.apiKeyId amountUsd ≤ amountUsd := coveredBy_le _ _
      -- the row of the reversal and that of its write-off add up to what was accepted
      refine hsum _ hreversed.movement.rows ?_ fun k ↦
        (balance_of_reversed hpos.le hreversed k).trans_lt (hc.balance k)
      rw [magnitude_rows params original' hpos.le hcovered, acceptedOf, hmagnitude]
      by_cases hkey : params.originalIdempotencyKey = original.idempotencyKey
      · have hclash : original'.clash original = true :=
          beq_iff_eq.2 (hreversible.key.trans hkey)
        rw [if_pos hkey, if_pos ⟨hkey, happlied⟩,
          Table.eq_of_clash (fun a b ↦ Bool.beq_comm) hreversible.mem hc.mem hclash,
          Option.toList_some, List.map_singleton, List.sum_singleton]
        rfl
      · rw [if_neg hkey, if_neg fun hall ↦ hkey hall.1]
        rfl
  | posted row =>
    simp only [reversalStep] at hs
    split_ifs at hs with hnone
    obtain ⟨ledger, hinsert, rfl⟩ := Option.map_eq_some_iff.1 hs
    refine hsum [row] (Table.insert?_eq_some_iff.1 hinsert).2 ?_ hc.balance
    rw [List.filter_cons_of_neg (by rw [hnone]; exact Bool.false_ne_true)]
    rfl
  | funds apiKeyId row =>
    simp only [reversalStep] at hs
    split_ifs at hs with hfits
    obtain rfl := Option.some.inj hs
    refine hsum [] (List.append_nil _).symm rfl fun k ↦ ?_
    rw [Db.balanceOf, Db.balanceRow_setBalance]
    split_ifs with hk
    · exact hfits
    · exact hc.balance k

theorem summed_of_run {h : List (Db × ReversalEvent)} (h₀ : Unreversed original db₀)
    (hr : Run reversalStep db₀ h db) : Summed original db h := by
  induction hr with
  | nil => exact h₀.summed
  | snoc _ hs ih => exact ih.step hs

/-! ### The headroom -/

/-- The write-off of an amount meets a row that has its derived key. -/
def WriteOffClashes (params : ReverseParams) (original : LedgerRow) (amountUsd : ℚ) (db : Db) :
    Prop :=
  recoverable db original.apiKeyId amountUsd < amountUsd ∧
    db.Taken (params.idempotencyKey ++ ":unrecovered")

instance (params : ReverseParams) (original : LedgerRow) (amountUsd : ℚ) (db : Db) :
    Decidable (WriteOffClashes params original amountUsd db) :=
  inferInstanceAs (Decidable (_ ∧ _))

/-- A further call on the original, under a fresh key. -/
structure Further (original : LedgerRow) (db : Db) (params : ReverseParams) (amountUsd : ℚ) :
    Prop where
  original : original.idempotencyKey = params.originalIdempotencyKey
  valid : validateReverse params = .ok amountUsd
  fresh : ¬ db.Taken params.idempotencyKey

/-- Its rows can be written: the amount does not round to nothing, which the table refuses, and its
write-off finds its key free. -/
def Storable (original : LedgerRow) (db : Db) (params : ReverseParams) (amountUsd : ℚ) : Prop :=
  0 < toMicros amountUsd ∧ ¬ WriteOffClashes params original amountUsd db

/-- Neither the amounts nor the rows leave as much of the original as the ledger can hold. -/
def UsedUp (original : LedgerRow) (h : List (Db × ReversalEvent)) : Prop :=
  toMicros (leftByAmounts original h) ≤ 0 ∧ toMicros (leftByRows original h) ≤ 0

/-- After this history the claimed headroom is the one the code keeps, for every further call whose
rows can be written. -/
def HeadroomKept (original : LedgerRow) (h : List (Db × ReversalEvent)) (db : Db) : Prop :=
  ∀ params amountUsd, Further original db params amountUsd →
    Storable original db params amountUsd →
      (Applied params db ↔ amountUsd ≤ leftByAmounts original h)

/-! ### The surplus of the rows -/

theorem leftByRows_eq (original : LedgerRow) (h : List (Db × ReversalEvent)) :
    leftByRows original h = leftByAmounts original h - surplus original h := by
  have hsum : ofMicros ((accepted original h).map (micros original)).sum =
      ((accepted original h).map Prod.snd).sum + surplus original h := by
    unfold surplus
    induction accepted original h with
    | nil => exact ofMicros_zero.trans (add_zero 0).symm
    | cons r rs ih =>
      simp only [List.map_cons, List.sum_cons, ofMicros_add]
      rw [ih]
      ring
  rw [leftByRows, ofMicros_sub, hsum, leftByAmounts]
  ring

/-- What is accepted is an amount the ledger can hold. -/
theorem fits_of_accepted {h : List (Db × ReversalEvent)} {r : Db × ℚ}
    (hr : r ∈ accepted original h) : 0 < r.2 ∧ toMicros r.2 < 10 ^ 12 := by
  obtain ⟨⟨db, e⟩, -, hof⟩ := List.mem_filterMap.1 hr
  cases e with
  | reverse params =>
    simp only [acceptedOf] at hof
    split_ifs at hof with haccepted
    obtain rfl := Option.some.inj hof
    rcases reverse_applied_cases params db with
      ⟨hskipped, -⟩ | ⟨-, amountUsd, original', hvalid, -, hreversed⟩
    · exact absurd haccepted.2 hskipped
    · obtain ⟨hfin, hpos⟩ := validateReverse_eq_ok hvalid
      have hmagnitude : params.magnitude = amountUsd := by rw [ReverseParams.magnitude, hfin]
      exact ⟨hmagnitude ▸ hpos, hmagnitude ▸ hreversed.fits⟩
  | posted row => cases hof
  | funds apiKeyId row => cases hof

/-- Of an amount of six decimals, the surplus is what was written off. -/
theorem surplus_of_sixDecimals {r : Db × ℚ} (hsix : SixDecimals r.2) (hpos : 0 < r.2)
    (hfits : toMicros r.2 < 10 ^ 12) : ofMicros (micros original r) - r.2 =
      r.2 - recoverable r.1 original.apiKeyId r.2 := by
  obtain ⟨n, hn⟩ := hsix
  rw [hn, toMicros_ofMicros] at hfits
  rw [hn, ofMicros_pos] at hpos
  rw [micros, writtenOff, hn, recoverable, spendable_eq, coveredBy_ofMicros,
    minus_coveredBy_ofMicros (le_max_right _ _) hpos.le hfits, toMicros_ofMicros,
    toMicros_ofMicros, ofMicros_add, ofMicros_sub]
  ring

/-- Where all that was accepted has six decimals, there is no surplus just when all of it was
recovered in full. -/
theorem surplus_eq_zero_iff {h : List (Db × ReversalEvent)}
    (hsix : ∀ r ∈ accepted original h, SixDecimals r.2) : surplus original h = 0 ↔
      ∀ r ∈ accepted original h,
        r.2 ≤ spendable (r.1.balanceOf original.apiKeyId) (r.1.heldOf original.apiKeyId) := by
  have heach : ∀ r ∈ accepted original h, ofMicros (micros original r) - r.2 =
      r.2 - recoverable r.1 original.apiKeyId r.2 := fun r hr ↦
    surplus_of_sixDecimals (hsix r hr) (fits_of_accepted hr).1 (fits_of_accepted hr).2
  constructor
  · intro hzero r hr
    have hall : ∀ x ∈ (accepted original h).map (fun r ↦ ofMicros (micros original r) - r.2),
        0 ≤ x := by
      intro x hx
      obtain ⟨r', hr', rfl⟩ := List.mem_map.1 hx
      rw [heach r' hr']
      exact sub_nonneg.2 (coveredBy_le _ _)
    have hnone := List.all_zero_of_le_zero_le_of_sum_eq_zero hall hzero (List.mem_map_of_mem hr)
    rw [heach r hr, sub_eq_zero] at hnone
    exact hnone.trans_le (coveredBy_le_available _ _)
  · intro hrecovered
    refine List.sum_eq_zero fun x hx ↦ ?_
    obtain ⟨r, hr, rfl⟩ := List.mem_map.1 hx
    rw [heach r hr, recoverable, coveredBy_of_le (hrecovered r hr), sub_self]

/-! ### The further call -/

/-- A key that is longer than all those of the ledger is free, and so is the one derived from it. -/
theorem exists_not_taken (db : Db) :
    ∃ key, ¬ db.Taken key ∧ ¬ db.Taken (key ++ ":unrecovered") := by
  set n := (db.ledger.rows.map fun row ↦ row.idempotencyKey.length).sum with hn
  have hlong : ∀ key : String, n < key.length → ¬ db.Taken key := by
    rintro key hkey ⟨row, hrow, rfl⟩
    exact hkey.not_ge (List.le_sum_of_mem (List.mem_map_of_mem hrow))
  have hkey : (String.ofList (List.replicate (n + 1) 'x')).length = n + 1 := by
    rw [String.length_ofList, List.length_replicate]
  refine ⟨String.ofList (List.replicate (n + 1) 'x'), hlong _ (by omega), hlong _ ?_⟩
  rw [String.length_append]
  omega

/-- Every amount the ledger can hold can be asked for. -/
theorem exists_further (original : LedgerRow) (db : Db) (hmicros : 0 < toMicros amountUsd) :
    ∃ params, Further original db params amountUsd ∧ Storable original db params amountUsd := by
  have hpos : 0 < amountUsd := by
    by_contra hle
    exact hmicros.not_ge ((toMicros_mono (not_lt.1 hle)).trans_eq toMicros_zero)
  obtain ⟨key, hkey, hderived⟩ := exists_not_taken db
  refine ⟨⟨original.idempotencyKey, .finite amountUsd, key, "refund", none, none⟩,
    ⟨rfl, ?_, hkey⟩, hmicros, fun hclash ↦ hderived hclash.2⟩
  have hreason : (jsTrim "refund" == "") = false := by decide
  simp only [validateReverse, if_pos hpos, hreason, Bool.false_eq_true, if_false]

theorem Summed.leftOf {h : List (Db × ReversalEvent)} (hc : Summed original db h) :
    db.leftOf original = leftByRows original h := by
  rw [Db.leftOf, headroom, hc.sum, ← ofMicros_sub, leftByRows]

/-- A further call is accepted when the rows leave its amount and its own rows can be written. -/
theorem applied_iff_leftByRows {h : List (Db × ReversalEvent)} (h₀ : Unreversed original db₀)
    (hr : Run reversalStep db₀ h db) (hf : Further original db params amountUsd) :
    Applied params db ↔
      amountUsd ≤ leftByRows original h ∧ Storable original db params amountUsd := by
  have hc := summed_of_run h₀ hr
  have happlied := applied_iff ⟨hc.mem, hf.original, h₀.credit⟩ hf.valid h₀.amount
    (hc.balance original.apiKeyId) hf.fresh
  rwa [hc.leftOf] at happlied

theorem headroomKept_iff {h : List (Db × ReversalEvent)} (h₀ : Unreversed original db₀)
    (hr : Run reversalStep db₀ h db) :
    HeadroomKept original h db ↔ surplus original h = 0 ∨ UsedUp original h := by
  have hrows := leftByRows_eq original h
  constructor
  · intro hkept
    by_contra hnot
    obtain ⟨hsurplus, hleft⟩ := not_or.1 hnot
    -- What is left by one count and not by the other, as the amount of a further call.
    rcases lt_trichotomy (leftByRows original h) (leftByAmounts original h) with hlt | heq | hgt
    · have hmicros : 0 < toMicros (leftByAmounts original h) := by
        by_contra hle
        exact hleft ⟨not_lt.1 hle, (toMicros_mono hlt.le).trans (not_lt.1 hle)⟩
      obtain ⟨params, hf, hs⟩ := exists_further original db hmicros
      have happlied := (hkept params _ hf hs).2 le_rfl
      exact ((applied_iff_leftByRows h₀ hr hf).1 happlied).1.not_gt hlt
    · exact hsurplus (by linarith)
    · have hmicros : 0 < toMicros (leftByRows original h) := by
        by_contra hle
        exact hleft ⟨(toMicros_mono hgt.le).trans (not_lt.1 hle), not_lt.1 hle⟩
      obtain ⟨params, hf, hs⟩ := exists_further original db hmicros
      have happlied := (applied_iff_leftByRows h₀ hr hf).2 ⟨le_rfl, hs⟩
      exact ((hkept params _ hf hs).1 happlied).not_gt hgt
  · intro hsame params amountUsd hf hs
    rw [applied_iff_leftByRows h₀ hr hf, and_iff_left hs]
    rcases hsame with hzero | ⟨hamounts, hrows'⟩
    · rw [hrows, hzero, sub_zero]
    · exact iff_of_false (fun hle ↦ hs.1.not_ge ((toMicros_mono hle).trans hrows'))
        fun hle ↦ hs.1.not_ge ((toMicros_mono hle).trans hamounts)

/-- **The headroom of an original.** After any history of reversals on any originals:
* every further reversal whose rows can be written is accepted just when its amount is within what
  the amounts accepted leave of the original, if and only if the rows of the accepted reversals add
  up to their amounts, or less than half a micro-dollar is left of the original either way;
* where all that was accepted has six decimals, the rows add up to the amounts if and only if every
  accepted reversal was recovered in full;
* one whose rows cannot be written is refused, as it should be just when it is past what is left. -/
theorem headroom_iff {h : List (Db × ReversalEvent)} (h₀ : Unreversed original db₀)
    (hr : Run reversalStep db₀ h db) :
    (HeadroomKept original h db ↔ surplus original h = 0 ∨ UsedUp original h) ∧
      ((∀ r ∈ accepted original h, SixDecimals r.2) → (surplus original h = 0 ↔
        ∀ r ∈ accepted original h,
          r.2 ≤ spendable (r.1.balanceOf original.apiKeyId) (r.1.heldOf original.apiKeyId))) ∧
      ∀ params amountUsd, Further original db params amountUsd →
        ¬ Storable original db params amountUsd →
          ((Applied params db ↔ amountUsd ≤ leftByAmounts original h) ↔
            leftByAmounts original h < amountUsd) := by
  refine ⟨headroomKept_iff h₀ hr, surplus_eq_zero_iff, fun params amountUsd hf hs ↦ ?_⟩
  have hrefused : ¬ Applied params db := fun happlied ↦
    hs ((applied_iff_leftByRows h₀ hr hf).1 happlied).2
  rw [iff_false_left hrefused, not_le]

/-- The payment of 100 USD. -/
def paidRow : LedgerRow where
  apiKeyId := "key"
  amountUsd := 100000000
  idempotencyKey := "payment"
  reason := "payment:oxapay"
  entryType := .payment
  source := some "oxapay"
  livemode := some true

theorem unreversed_paidStore : Unreversed paidRow paidStore where
  mem := by decide +kernel
  credit := by decide
  none := by decide +kernel
  amount := by decide
  balance := fun k ↦ by
    by_cases hk : k = "key"
    · subst hk
      decide +kernel
    · have hempty : Db.empty.balanceOf k < 10 ^ 12 := show 0 < 10 ^ 12 by decide
      rcases recordPayment_postsCredit payment100 Db.empty with h | ⟨entry, hkey, -, -, -, hposted⟩
      · exact (congrArg (Db.balanceOf · k) h).trans_lt hempty
      · exact (hposted.movement.others k (hkey ▸ hk)).trans_lt hempty

/-- A reversal of 30 of 100 USD, after one of 50 that was recovered in full, one of 80 that was
refused, and a payment of which half was written off. -/
theorem headroom_iff_recovered : ∃ h db, Run reversalStep paidStore h db ∧
    (accepted paidRow h).length = 1 ∧
      (Applied (refundOf "second" 30) db ↔ 30 ≤ leftByAmounts paidRow h) := by
  obtain ⟨h, db, hr, hcheck⟩ := Run.exists_of_check reversalStep paidStore
    [.reverse (refundOf "first" 50), .reverse (refundOf "too-much" 80),
      .posted { paidRow with amountUsd := 20000000, idempotencyKey := "other" },
      .funds "key" ⟨60000000, 50000000⟩,
      .reverse { refundOf "other-back" 20 with originalIdempotencyKey := "other" }]
    (fun h db ↦ decide ((accepted paidRow h).length = 1 ∧
      (∀ r ∈ accepted paidRow h, SixDecimals r.2) ∧
      (∀ r ∈ accepted paidRow h, r.2 ≤ spendable (r.1.balanceOf "key") (r.1.heldOf "key")) ∧
      ¬ db.Taken "second" ∧ 0 < toMicros 30 ∧
        ¬ WriteOffClashes (refundOf "second" 30) paidRow 30 db)) (by decide +kernel)
  obtain ⟨hone, hsix, hrecovered, hfresh, hstorable⟩ := of_decide_eq_true hcheck
  have hall := headroom_iff unreversed_paidStore hr
  refine ⟨h, db, hr, hone, hall.1.2 (.inl ((hall.2.1 hsix).2 hrecovered)) _ _ ?_ hstorable⟩
  exact ⟨rfl, by decide +kernel, hfresh⟩

/-- A reversal of 50 of 100 USD is refused, after one of 50 of which nothing could be recovered. -/
theorem headroom_lost : ∃ h db, Run reversalStep paidStore h db ∧
    ¬ db.Taken "second" ∧ (50 : ℚ) ≤ leftByAmounts paidRow h ∧
      (reverse (refundOf "second" 50) db).1 =
        .error (.reversalRefused "exceeds_original") := by
  obtain ⟨h, db, hr, hcheck⟩ := Run.exists_of_check reversalStep paidStore
    [.funds "key" ⟨0, 0⟩, .reverse (refundOf "first" 50)]
    (fun h db ↦ decide (¬ db.Taken "second" ∧ (50 : ℚ) ≤ leftByAmounts paidRow h ∧
      (reverse (refundOf "second" 50) db).1 =
        .error (.reversalRefused "exceeds_original"))) (by decide +kernel)
  exact ⟨h, db, hr, of_decide_eq_true hcheck⟩

end ModelConnector.Billing
