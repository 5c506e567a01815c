import ModelConnector.Billing.MoneyCall
import ModelConnector.LedgerAgreement

/-!
# Rounding and the books

The ledger row and the balance are rounded separately: the row holds the amount to six decimals, and
the balance the sum of what it was and of the amount. Adding commutes with rounding, so a credit of
any scale keeps the two together; so does an amount that is split, since the part that is taken off
the balance is then a balance itself. An amount that the balance covers is taken off as it is. At
half a micro-dollar the row is rounded away from zero, and the balance as well, which is up: the row
says a micro-dollar more than the balance lost. What a balance does not cover is first rounded to
the twenty digits of `Decimal.minus`, which may carry it up to a half. `booked_iff` says that there
are no other such cases. -/

namespace ModelConnector

open Billing

/-- Half-way between two whole numbers of micro-dollars. -/
def HalfMicro (q : ℚ) : Prop :=
  IsHalf (q * 10 ^ 6)

instance (q : ℚ) : Decidable (HalfMicro q) :=
  inferInstanceAs (Decidable (IsHalf (q * 10 ^ 6)))

/-! ### Two roundings -/

theorem ofMicros_mul (n : ℤ) : ofMicros n * 10 ^ 6 = n := by
  unfold ofMicros
  field_simp

theorem toMicros_ofMicros_add {n : ℤ} {q : ℚ} (hn : 0 ≤ n) (hq : 0 ≤ q) :
    toMicros (ofMicros n + q) = n + toMicros q := by
  rw [toMicros, add_mul, ofMicros_mul, roundHalfAway_intCast_add hn (by positivity), toMicros]

theorem toMicros_ofMicros_sub_iff {n : ℤ} {q : ℚ} (hq : 0 ≤ q) (hle : q ≤ ofMicros n) :
    toMicros (ofMicros n - q) = n - toMicros q ↔ ¬HalfMicro q := by
  have hle' : q * 10 ^ 6 ≤ n := by
    rw [← ofMicros_mul n]
    exact mul_le_mul_of_nonneg_right hle (by positivity)
  rw [toMicros, sub_mul, ofMicros_mul, toMicros,
    roundHalfAway_intCast_sub_iff (by positivity) hle']
  rfl

/-- At twenty digits the difference is rounded up to half a micro-dollar. -/
def CarriedToHalf (x y : ℚ) : Prop :=
  x - y < Decimal.minus x y ∧ HalfMicro (Decimal.minus x y)

instance (x y : ℚ) : Decidable (CarriedToHalf x y) :=
  inferInstanceAs (Decidable (_ ∧ _))

/-- A half stands between two numbers of micro-dollars. -/
theorem toMicros_lt_of_halfMicro {p q : ℚ} (hp : 0 ≤ p) (hlt : p < q) (hq : HalfMicro q) :
    toMicros p < toMicros q := by
  have hhalf := isHalf_iff.1 hq
  have hup : (⌊q * 10 ^ 6⌋ + 1 : ℤ) ≤ toMicros q := by
    rw [le_toMicros_iff (hp.trans hlt.le)]
    push_cast
    linarith
  have hdown : ¬(⌊q * 10 ^ 6⌋ + 1 : ℤ) ≤ toMicros p := by
    rw [le_toMicros_iff hp]
    push_cast
    linarith
  omega

/-- Twenty digits change what a difference comes to in micro-dollars only by rounding it up to a
half. -/
theorem toMicros_minus_iff {x y : ℚ} (hy : 0 ≤ y) (hle : y ≤ x) (hfits : toMicros x < 10 ^ 12) :
    toMicros (Decimal.minus x y) = toMicros (x - y) ↔ ¬CarriedToHalf x y := by
  have hrest : 0 ≤ x - y := sub_nonneg.2 hle
  have hless : toMicros (x - y) ≤ toMicros x := toMicros_mono (sub_le_self x hy)
  constructor
  · rintro heq ⟨hup, hhalf⟩
    exact (toMicros_lt_of_halfMicro hrest hup hhalf).ne' heq
  · intro hnot
    by_contra hne
    set n := toMicros (x - y) with hn
    have hnonneg : 0 ≤ n := toMicros_nonneg hrest
    have hlt : n < toMicros (Decimal.minus x y) :=
      lt_of_le_of_ne (toMicros_sub_le_minus hle (by omega)) (Ne.symm hne)
    -- The difference is below the half over `n`, and the rounded one is not above it.
    have hbelow : ¬((n + 1 : ℤ) : ℚ) - 1 / 2 ≤ (x - y) * 10 ^ 6 := by
      rw [← le_toMicros_iff hrest]
      omega
    have hreached : ((n + 1 : ℤ) : ℚ) - 1 / 2 ≤ Decimal.minus x y * 10 ^ 6 :=
      (le_toMicros_iff (Decimal.minus_nonneg hle)).1 (by omega)
    have hkept := minus_le_half (n := n + 1) (abs_le.2 ⟨by omega, by omega⟩) (not_le.1 hbelow).le
    have heq : Decimal.minus x y * 10 ^ 6 = ((n + 1 : ℤ) : ℚ) - 1 / 2 :=
      le_antisymm hkept hreached
    refine hnot ⟨?_, ?_⟩
    · have hscaled : (x - y) * 10 ^ 6 < Decimal.minus x y * 10 ^ 6 := by
        rw [heq]
        exact not_le.1 hbelow
      linarith
    · refine isHalf_iff.2 ?_
      have hfloor : ⌊Decimal.minus x y * 10 ^ 6⌋ = n := by
        rw [heq, Int.floor_eq_iff]
        push_cast
        constructor <;> linarith
      rw [hfloor, heq]
      push_cast
      ring

/-- What `available` covers of an amount is rounded apart from the rows: all of it is taken, at a
half, or what is not covered is rounded up to one. -/
def RoundsApart (available amount : ℚ) : Prop :=
  if amount ≤ available then HalfMicro amount else CarriedToHalf amount available

instance (available amount : ℚ) : Decidable (RoundsApart available amount) :=
  inferInstanceAs (Decidable (ite _ _ _))

/-- A balance from which what `available` covers of `amount` is taken, and the rows of the amount
and of the rest. -/
theorem toMicros_split_iff {balanceUsd available : ℤ} {amount : ℚ} (hamount : 0 ≤ amount)
    (hfits : toMicros amount < 10 ^ 12) (havailable : 0 ≤ available)
    (hle : available ≤ balanceUsd) :
    let taken := coveredBy (ofMicros available) amount
    let rest := Decimal.minus amount taken
    toMicros (ofMicros balanceUsd - taken) =
        balanceUsd + (toMicros (-amount) + if 0 < rest then toMicros rest else 0) ↔
      ¬RoundsApart (ofMicros available) amount := by
  intro taken rest
  rw [toMicros_neg, RoundsApart]
  split_ifs with hpos hcovers hcovers
  · exact absurd (Decimal.minus_pos_iff.1 hpos) (not_lt.2 (coveredBy_of_le hcovers).ge)
  · have hlt := not_le.1 hcovers
    have htaken : taken = ofMicros available := coveredBy_of_lt hlt
    have hrest : rest = Decimal.minus amount (ofMicros available) := by rw [← htaken]
    -- What is taken is a whole number of micro-dollars.
    have hsum : toMicros amount = available + toMicros (amount - ofMicros available) := by
      rw [← toMicros_ofMicros_add havailable (sub_nonneg.2 hlt.le)]
      ring_nf
    rw [← toMicros_minus_iff (ofMicros_nonneg.2 havailable) hlt.le hfits, htaken, hrest, hsum,
      ← ofMicros_sub, toMicros_ofMicros]
    constructor <;> intro h <;> linarith
  · have htaken : taken = amount := coveredBy_of_le hcovers
    rw [htaken, add_zero, ← sub_eq_add_neg,
      toMicros_ofMicros_sub_iff hamount (hcovers.trans (ofMicros_le_ofMicros.2 hle))]
  · have htaken : taken = ofMicros available := coveredBy_of_lt (not_le.1 hcovers)
    refine absurd (Decimal.minus_pos_iff.2 ?_) hpos
    rw [htaken]
    exact not_le.1 hcovers

/-! ### What a call writes -/

/-- The rows the ledger has got since. -/
def written (db db' : Db) : List LedgerRow :=
  db'.ledger.rows.drop db.ledger.rows.length

/-- The balance of every key has changed by what the rows written for it add up to. -/
def Booked (db db' : Db) : Prop :=
  ∀ k, (db'.balanceOf k : ℤ) - db.balanceOf k =
    (((written db db').filter fun row ↦ row.apiKeyId == k).map LedgerEntry.amountUsd).sum

variable {db db' : Db} {k : String} {rows : List LedgerRow} {balanceUsd : ℤ}

theorem booked_refl (db : Db) : Booked db db := by
  intro k
  rw [written, List.drop_length, sub_self]
  rfl

/-- A movement is booked when its rows add up to what the balance moved by. -/
theorem booked_iff_of_movement (hkey : ∀ row ∈ rows, row.apiKeyId = k)
    (h : Movement k rows balanceUsd db db') :
    Booked db db' ↔ balanceUsd = db.balanceOf k + (rows.map LedgerEntry.amountUsd).sum := by
  have hwritten : written db db' = rows := by
    rw [written, h.rows, List.drop_left]
  have hown : rows.filter (fun row ↦ row.apiKeyId == k) = rows :=
    List.filter_eq_self.2 fun row hrow ↦ beq_iff_eq.2 (hkey row hrow)
  constructor
  · intro hbooked
    have hk := hbooked k
    rw [hwritten, hown, h.moved] at hk
    omega
  · intro heq k'
    rw [hwritten]
    by_cases hk : k' = k
    · subst hk
      rw [hown, h.moved]
      omega
    · have hnone : rows.filter (fun row ↦ row.apiKeyId == k') = [] :=
        List.filter_eq_nil_iff.2 fun row hrow ↦ by
          rw [hkey row hrow, beq_iff_eq]
          exact Ne.symm hk
      rw [h.others k' hk, hnone, sub_self]
      rfl

/-- A posted credit is booked, whatever its scale. -/
theorem booked_posted {entry : LedgerEntry ℚ} (hpos : 0 ≤ entry.amountUsd)
    (h : Posted entry db db') : Booked db db' := by
  refine (booked_iff_of_movement (fun row hrow ↦ ?_) h.movement).2 ?_
  · rw [List.mem_singleton.1 hrow]
    rfl
  · rw [toMicros_ofMicros_add (Int.natCast_nonneg _) hpos, List.map_singleton, List.sum_singleton]
    rfl

theorem booked_of_postsCredit {apiKeyId : String} {amountUsd : Decimal}
    (h : PostsCredit apiKeyId amountUsd db db') : Booked db db' := by
  rcases h with rfl | ⟨entry, -, -, hpos, -, hposted⟩
  · exact booked_refl _
  · exact booked_posted hpos.le hposted

/-- The sum of a full row and of a write-off that is made only where there is something to write
off. -/
theorem sum_rows {row writeOff : LedgerRow} {p : Prop} [Decidable p] :
    ((row :: if p then [writeOff] else []).map LedgerEntry.amountUsd).sum =
      row.amountUsd + if p then writeOff.amountUsd else 0 := by
  split_ifs
  · rw [List.map_cons, List.sum_cons, List.map_singleton, List.sum_singleton]
  · rw [List.map_cons, List.sum_cons]
    rfl

theorem apiKeyId_rows {row writeOff : LedgerRow} {p : Prop} [Decidable p] (hrow : row.apiKeyId = k)
    (hoff : writeOff.apiKeyId = k) :
    ∀ a ∈ row :: (if p then [writeOff] else []), a.apiKeyId = k := by
  intro a ha
  rcases List.mem_cons.1 ha with rfl | ha
  · exact hrow
  · split_ifs at ha
    · rw [List.mem_singleton.1 ha, hoff]
    · cases ha

theorem booked_charged_iff {entry : ChargeEntry} (hnonneg : 0 ≤ entry.amountUsd)
    (h : Charged entry db db') : Booked db db' ↔
      ¬RoundsApart (ofMicros (db.balanceOf entry.apiKeyId)) entry.amountUsd := by
  have hkey : ∀ row ∈ entry.rows (ofMicros (db.balanceOf entry.apiKeyId)),
      row.apiKeyId = entry.apiKeyId := apiKeyId_rows rfl rfl
  rw [booked_iff_of_movement hkey h.movement, ChargeEntry.rows, sum_rows]
  exact toMicros_split_iff hnonneg h.fits (Int.natCast_nonneg _) le_rfl

theorem booked_reversed_iff {params : ReverseParams} {amountUsd : ℚ} {original : LedgerRow}
    (hnonneg : 0 ≤ amountUsd) (h : Reversed params amountUsd original db db') : Booked db db' ↔
      ¬RoundsApart (spendable (db.balanceOf original.apiKeyId) (db.heldOf original.apiKeyId))
        amountUsd := by
  have hkey : ∀ row ∈ params.rows original amountUsd (recoverable db original.apiKeyId amountUsd),
      row.apiKeyId = original.apiKeyId := apiKeyId_rows rfl rfl
  rw [booked_iff_of_movement hkey h.movement, ReverseParams.rows, sum_rows,
    recoverable, spendable_eq]
  exact toMicros_split_iff hnonneg h.fits (le_max_right _ _) (by omega)

/-! ### The calls -/

/-- The call takes an amount off a balance, and the two are rounded apart. -/
def Billing.MoneyCall.RoundsApart (db : Db) : MoneyCall → Prop
  | .settle params => ∃ q, params.amountUsd = .finite q ∧
      ModelConnector.RoundsApart (ofMicros (db.balanceOf params.apiKeyId)) q
  | .reverse params => ∃ q original, params.amountUsd = .finite q ∧
      Reversible params original db ∧ ModelConnector.RoundsApart
        (spendable (db.balanceOf original.apiKeyId) (db.heldOf original.apiKeyId)) q
  | _ => False

/-- **Books and balance after a call.** They move together, unless half a micro-dollar is taken off
a balance that covers all of the amount, or what it does not cover is rounded up to a half. -/
theorem booked_iff {call : MoneyCall} (h : call.Applied db) :
    Booked db (call.after db) ↔ ¬call.RoundsApart db := by
  cases call with
  | credit params =>
    exact iff_of_true (booked_of_postsCredit (credit_postsCredit params db)) id
  | gift params => exact iff_of_true (booked_of_postsCredit (gift_postsCredit params db)) id
  | recordPayment params =>
    exact iff_of_true (booked_of_postsCredit (recordPayment_postsCredit params db)) id
  | settle params =>
    obtain ⟨amountUsd, hfin, hnonneg, hcharged⟩ := settle_applied h
    refine (booked_charged_iff hnonneg hcharged).trans (not_congr ⟨?_, ?_⟩)
    · exact fun hapart ↦ ⟨amountUsd, hfin, hapart⟩
    · rintro ⟨q, hq, hapart⟩
      cases hfin.symm.trans hq
      exact hapart
  | reverse params =>
    obtain ⟨amountUsd, original, hfin, hpos, hreversible, hreversed⟩ := reverse_applied h
    refine (booked_reversed_iff hpos.le hreversed).trans (not_congr ⟨?_, ?_⟩)
    · exact fun hapart ↦ ⟨amountUsd, original, hfin, hreversible, hapart⟩
    · rintro ⟨q, original', hq, hreversible', hapart⟩
      cases hfin.symm.trans hq
      rw [hreversible.unique hreversible']
      exact hapart

/-- A key with a dollar on its balance. -/
def funded : Db :=
  (credit { apiKeyId := "key", amountUsd := .finite 1, idempotencyKey := "top-up-1" } .empty).2

/-- A charge of it. -/
def chargeOf (amountUsd : ℚ) : MoneyCall :=
  .settle { apiKeyId := "key", amountUsd := .finite amountUsd, idempotencyKey := "charge-1" }

/-- A third of a dollar, to seven decimals, is taken off a dollar. -/
theorem booked_third : Booked funded ((chargeOf (3333333 / 10000000)).after funded) ↔
    ¬(chargeOf (3333333 / 10000000)).RoundsApart funded :=
  booked_iff (by decide +kernel)

theorem not_booked_of_ne {amountUsd : ℚ}
    (h : (((chargeOf amountUsd).after funded).balanceOf "key" : ℤ) - funded.balanceOf "key" ≠
      (((written funded ((chargeOf amountUsd).after funded)).filter fun row ↦
        row.apiKeyId == "key").map LedgerEntry.amountUsd).sum) :
    ¬Booked funded ((chargeOf amountUsd).after funded) :=
  fun hbooked ↦ h (hbooked "key")

/-- Half a micro-dollar is taken off a dollar: the row says a micro-dollar, and the balance is as it
was. Of 100.00000049999999999999 dollars one is taken: the rest is written off as 99.000001. -/
theorem half_not_booked :
    ((chargeOf (1 / 2000000)).Applied funded ∧
      ¬Booked funded ((chargeOf (1 / 2000000)).after funded)) ∧
    (chargeOf (10000000049999999999999 / 10 ^ 20)).Applied funded ∧
      ¬Booked funded ((chargeOf (10000000049999999999999 / 10 ^ 20)).after funded) :=
  ⟨⟨by decide +kernel, not_booked_of_ne (by decide +kernel)⟩,
    by decide +kernel, not_booked_of_ne (by decide +kernel)⟩

end ModelConnector
