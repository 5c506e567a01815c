import ModelConnector.Phases

/-!
# Agreement of the ledger and the balance

`balance_usd` is the materialised sum of the ledger. A charge and a reversal are written in full
even when the balance cannot cover them, and the part that could not be taken is written back as
an `uncollectible` row, so the rows of one transaction always add up to what the balance moved by.
With amounts of at most six decimals every addition is exact, and the two agree in every state of
every run: `ledgerAgrees_of_run`.
-/

namespace ModelConnector

open Billing Connectors

/-- `balance_usd` is the sum of the key's ledger rows, for every api key. -/
def LedgerAgrees (db : Db) : Prop :=
  ∀ k, (db.balanceOf k : ℤ) = db.ledgerSum k

/-- A decimal with at most six decimals. -/
def SixDecimals (q : ℚ) : Prop :=
  ∃ n : ℤ, q = ofMicros n

/-- The amounts an event brings to the ledger. -/
def Event.amounts : Event → List Decimal
  | .credit params => [params.amountUsd]
  | .gift params => [params.amountUsd]
  | .recordPayment params => [params.amountUsd]
  | .reverse params => [params.amountUsd]
  | .settle params => [params.amountUsd]
  | .settleIntent _ amountUsd _ _ _ => [amountUsd]
  | .persistAndSettle _ outcome _ => [outcome.costUsd]
  | .persistAndSettleDirect outcome _ => [outcome.costUsd]
  | _ => []

/-- All finite amounts of the event have at most six decimals. -/
def Event.SixDecimals (e : Event) : Prop :=
  ∀ q, Decimal.finite q ∈ e.amounts → ModelConnector.SixDecimals q

theorem sixDecimals_iff {q : ℚ} : SixDecimals q ↔ ofMicros (toMicros q) = q := by
  constructor
  · rintro ⟨n, rfl⟩
    rw [toMicros_ofMicros]
  · intro h
    exact ⟨_, h.symm⟩

instance (q : ℚ) : Decidable (SixDecimals q) :=
  decidable_of_iff _ sixDecimals_iff.symm

instance (e : Event) : Decidable e.SixDecimals :=
  decidable_of_iff (∀ d ∈ e.amounts, ∀ q ∈ finite? d, SixDecimals q) ⟨
    fun h q hq ↦ h _ hq q rfl,
    fun h d hd q hq ↦ by
      cases d <;> simp [finite?] at hq
      subst hq
      exact h _ hd⟩

/-! ### Exact arithmetic -/

theorem coveredBy_ofMicros (m n : ℤ) :
    coveredBy (ofMicros m) (ofMicros n) = ofMicros (min m n) := by
  unfold coveredBy
  by_cases h : m < n
  · rw [if_pos (ofMicros_lt_ofMicros.2 h), min_eq_left h.le]
  · rw [if_neg (mt ofMicros_lt_ofMicros.1 h), min_eq_right (not_lt.1 h)]

theorem spendable_eq (balanceUsd heldUsd : ℕ) :
    spendable balanceUsd heldUsd = ofMicros (max ((balanceUsd : ℤ) - heldUsd) 0) := by
  unfold spendable
  rw [← ofMicros_sub, ← ofMicros_zero]
  exact (Monotone.map_max fun _ _ h ↦ ofMicros_le_ofMicros.2 h).symm

/-- What is not covered of an amount of six decimals that fits its column is exact. -/
theorem minus_coveredBy_ofMicros {available amount : ℤ} (havailable : 0 ≤ available)
    (hamount : 0 ≤ amount) (hfits : amount < 10 ^ 12) :
    Decimal.minus (ofMicros amount) (ofMicros (min available amount)) =
      ofMicros (amount - min available amount) :=
  minus_ofMicros (abs_lt.2 ⟨by omega, by omega⟩)

/-- What the rows of a full entry and of its write-off add up to: the part that was taken. -/
theorem sum_split {row writeOff : LedgerRow} {amount taken : ℤ}
    (hrow : row.amountUsd = toMicros (-ofMicros amount))
    (hoff : writeOff.amountUsd = toMicros (ofMicros (amount - taken))) :
    ((row :: if 0 < ofMicros (amount - taken) then [writeOff] else []).map
      LedgerEntry.amountUsd).sum = -min taken amount := by
  rw [← ofMicros_neg] at hrow
  rw [toMicros_ofMicros] at hoff hrow
  by_cases h : taken < amount
  · rw [if_pos (ofMicros_pos.2 (by omega))]
    simp only [List.map_cons, List.map_nil, List.sum_cons, List.sum_nil, hrow, hoff]
    omega
  · rw [if_neg (mt ofMicros_pos.1 (by omega))]
    simp only [List.map_cons, List.map_nil, List.sum_cons, List.sum_nil, hrow]
    omega

/-! ### Movements -/

section Step

variable {s s' : System} {e : Event} {db db' : Db} {k : String} {rows : List LedgerRow}

theorem ledgerAgrees_of_eq (hbal : ∀ k, db'.balanceOf k = db.balanceOf k)
    (hledger : db'.ledger = db.ledger) (h : LedgerAgrees db) : LedgerAgrees db' := by
  intro k
  rw [hbal, Db.ledgerSum, hledger]
  exact h k

/-- A movement whose rows add up to what the balance moved by keeps the two in agreement. -/
theorem ledgerAgrees_movement {balanceUsd : ℤ} (hkey : ∀ row ∈ rows, row.apiKeyId = k)
    (hsum : balanceUsd = db.balanceOf k + (rows.map LedgerEntry.amountUsd).sum)
    (h : Movement k rows balanceUsd db db') (hc : LedgerAgrees db) : LedgerAgrees db' := by
  intro k'
  rw [Db.ledgerSum, Table.sumWhere_append h.rows, ← Db.ledgerSum, ← hc k']
  by_cases hk : k' = k
  · subst hk
    rw [h.moved, hsum, List.filter_eq_self.2 fun row hrow ↦ by simp [hkey row hrow]]
  · rw [h.others k' hk, List.filter_eq_nil_iff.2 fun row hrow ↦ by simp [hkey row hrow, Ne.symm hk]]
    simp

theorem ledgerAgrees_posted {entry : LedgerEntry ℚ} (hsix : SixDecimals entry.amountUsd)
    (h : Posted entry db db') (hc : LedgerAgrees db) : LedgerAgrees db' := by
  obtain ⟨n, hn⟩ := hsix
  refine ledgerAgrees_movement (by simp [LedgerEntry.toRow]) ?_ h.movement hc
  rw [hn, ← ofMicros_add]
  simp [LedgerEntry.toRow]

theorem ledgerAgrees_charged {entry : ChargeEntry} (hsix : SixDecimals entry.amountUsd)
    (hnonneg : 0 ≤ entry.amountUsd) (h : Charged entry db db') (hc : LedgerAgrees db) :
    LedgerAgrees db' := by
  obtain ⟨n, hn⟩ := hsix
  have hfits := h.fits
  rw [hn, ofMicros_nonneg] at hnonneg
  rw [hn, toMicros_ofMicros] at hfits
  refine ledgerAgrees_movement ?_ ?_ h.movement hc
  · intro row hrow
    rcases List.mem_cons.1 hrow with rfl | hrow
    · rfl
    · split at hrow
      · rw [List.mem_singleton.1 hrow]
        rfl
      · cases hrow
  · unfold ChargeEntry.rows
    rw [hn, coveredBy_ofMicros, minus_coveredBy_ofMicros (Int.natCast_nonneg _) hnonneg hfits,
      ← ofMicros_sub, toMicros_ofMicros, sum_split rfl rfl]
    omega

theorem ledgerAgrees_reversed {params : ReverseParams} {amountUsd : ℚ} {original : LedgerRow}
    (hsix : SixDecimals amountUsd) (hnonneg : 0 ≤ amountUsd)
    (h : Reversed params amountUsd original db db') (hc : LedgerAgrees db) : LedgerAgrees db' := by
  obtain ⟨n, rfl⟩ := hsix
  have hfits := h.fits
  rw [toMicros_ofMicros] at hfits
  rw [ofMicros_nonneg] at hnonneg
  refine ledgerAgrees_movement ?_ ?_ h.movement hc
  · intro row hrow
    rcases List.mem_cons.1 hrow with rfl | hrow
    · rfl
    · split at hrow
      · rw [List.mem_singleton.1 hrow]
        rfl
      · cases hrow
  · unfold recoverable ReverseParams.rows
    rw [spendable_eq, coveredBy_ofMicros, minus_coveredBy_ofMicros (le_max_right _ _) hnonneg hfits,
      ← ofMicros_sub, toMicros_ofMicros, sum_split rfl rfl]
    omega

/-- The charge of a step has six decimals when the amounts of its event do. -/
theorem charging_sixDecimals {entry : ChargeEntry} (h : charging s e = some entry)
    (hsix : e.SixDecimals) : SixDecimals entry.amountUsd := by
  have hcharge : ∀ {outcome : Outcome} {q : ℚ}, e.amounts = [outcome.costUsd] →
      outcome.customerChargeUsd = .finite q → SixDecimals q := by
    intro outcome q he hq
    unfold Outcome.customerChargeUsd at hq
    split at hq
    · exact hsix q (by rw [he, hq]; exact List.mem_cons_self)
    · cases hq
      exact ⟨0, ofMicros_zero.symm⟩
  cases chargeOf_of_charging h with
  | settle he hq | settleIntent he _ hq =>
    subst he
    exact hsix _ (List.mem_singleton.2 hq.symm)
  | persisted he _ _ hq | persistedDirect he hq =>
    subst he
    exact hcharge rfl hq
  | reconciled _ _ => exact ⟨_, rfl⟩

/-- **What one step preserves.** With amounts of six decimals a step keeps the ledger and the
balance in agreement. -/
theorem ledgerAgrees_step (hsix : e.SixDecimals) (hc : LedgerAgrees s.db)
    (h : step s e = some s') : LedgerAgrees s'.db := by
  obtain ⟨db₁, db₂, hrequest, hintent, hmoney⟩ := step_phases h
  obtain ⟨hbal, hledger, -⟩ := hrequest.frame
  have hc₁ : LedgerAgrees db₁ := ledgerAgrees_of_eq
    (fun k ↦ by simp only [Db.balanceOf, Db.balanceRow, hbal]) hledger hc
  have hc₂ : LedgerAgrees db₂ := ledgerAgrees_of_eq hintent.frame.1 hintent.frame.2.1 hc₁
  cases hmoney with
  | idle => exact hc₂
  | posted he _ _ hposted =>
    refine ledgerAgrees_posted (hsix _ ?_) hposted hc₂
    cases e <;> simp only [posting, Option.some.injEq, Prod.mk.injEq, reduceCtorEq] at he <;>
      simp [Event.amounts, he.2]
  | charged he hnonneg _ hcharged =>
    exact ledgerAgrees_charged (charging_sixDecimals he hsix) hnonneg hcharged hc₂
  | reversed he hfin hpos hreversed =>
    subst he
    exact ledgerAgrees_reversed (hsix _ (by simp [Event.amounts, hfin])) hpos.le hreversed hc₂

end Step

/-! ### The split of a charge -/

/-- A charge of `amount` micro-dollars was written in full; the balance lost the part of it that it
covers, and the rest, if there is one, was written off. -/
def SplitCharge (entry : ChargeEntry) (amount : ℤ) (db db' : Db) : Prop :=
  let taken := min (db.balanceOf entry.apiKeyId : ℤ) amount
  (db'.balanceOf entry.apiKeyId : ℤ) = db.balanceOf entry.apiKeyId - taken ∧
    ∃ charge : LedgerRow, charge.apiKeyId = entry.apiKeyId ∧ charge.entryType = .charge ∧
      charge.amountUsd = -amount ∧
      (taken = amount ∧ db'.ledger.rows = db.ledger.rows ++ [charge] ∨
        taken < amount ∧ ∃ writeOff : LedgerRow, writeOff.apiKeyId = entry.apiKeyId ∧
          writeOff.entryType = .uncollectible ∧ writeOff.amountUsd = amount - taken ∧
            db'.ledger.rows = db.ledger.rows ++ [charge, writeOff])

theorem splitCharge_of_charged {entry : ChargeEntry} {amount : ℤ} {db db' : Db}
    (hamount : entry.amountUsd = ofMicros amount) (hnonneg : 0 ≤ entry.amountUsd)
    (h : Charged entry db db') : SplitCharge entry amount db db' := by
  have hrows := h.movement.rows
  have hmoved := h.movement.moved
  have hfits := h.fits
  rw [hamount, toMicros_ofMicros] at hfits
  rw [hamount, ofMicros_nonneg] at hnonneg
  simp only [ChargeEntry.rows, hamount, coveredBy_ofMicros,
    minus_coveredBy_ofMicros (Int.natCast_nonneg _) hnonneg hfits, ← ofMicros_sub, ← ofMicros_neg,
    toMicros_ofMicros, ofMicros_pos] at hrows hmoved
  refine ⟨hmoved, entry.charge.toRow (-amount), rfl, rfl, rfl, ?_⟩
  by_cases hcov : min (db.balanceOf entry.apiKeyId : ℤ) amount = amount
  · rw [if_neg (by omega)] at hrows
    exact .inl ⟨hcov, hrows⟩
  · have hlt : min (db.balanceOf entry.apiKeyId : ℤ) amount < amount :=
      lt_of_le_of_ne (min_le_right _ _) hcov
    rw [if_pos (by omega)] at hrows
    exact .inr ⟨hlt, (entry.writeOff _).toRow _, rfl, rfl, rfl, hrows⟩

/-- A step that charges splits its charge, or writes nothing to the ledger. -/
theorem splitCharge_step {s s' : System} {e : Event} {entry : ChargeEntry}
    (hsix : e.SixDecimals) (he : charging s e = some entry) (h : step s e = some s') :
    s'.db.ledger = s.db.ledger ∨
      ∃ amount : ℤ, entry.amountUsd = ofMicros amount ∧ SplitCharge entry amount s.db s'.db := by
  obtain ⟨amount, hamount⟩ := charging_sixDecimals he hsix
  obtain ⟨db₁, db₂, hrequest, hintent, hmoney⟩ := step_phases h
  obtain ⟨hbal, hledger, -⟩ := hrequest.frame
  have hledger₂ : db₂.ledger = s.db.ledger := hintent.frame.2.1.trans hledger
  have hbalance₂ : db₂.balanceOf entry.apiKeyId = s.db.balanceOf entry.apiKeyId := by
    rw [hintent.frame.1]
    simp only [Db.balanceOf, Db.balanceRow, hbal]
  cases hmoney with
  | idle => exact .inl hledger₂
  | posted hposting _ _ _ => cases e <;> simp [posting, charging] at hposting he
  | charged hcharging hnonneg _ hcharged =>
    rw [he] at hcharging
    cases hcharging
    have hsplit := splitCharge_of_charged hamount hnonneg hcharged
    unfold SplitCharge at hsplit
    rw [hledger₂, hbalance₂] at hsplit
    exact .inr ⟨amount, hamount, hsplit⟩
  | reversed hreverse _ _ _ =>
    subst hreverse
    simp [charging] at he

/-! ### Runs -/

/-- **Agreement of the ledger and the balance over runs.** In every run over amounts of at most six
decimals, the balance of every api key is the sum of its ledger rows, neither the balance nor the
reservation is negative, and every charge on the way is split into the part the balance covered and
the part that was written off. -/
theorem ledgerAgrees_of_run {s : System} {h : List (System × Event)}
    (hr : Run step (System.init .empty) h s) (hsix : ∀ p ∈ h, p.2.SixDecimals) :
    (∀ k, (s.db.balanceOf k : ℤ) = s.db.ledgerSum k ∧ 0 ≤ s.db.ledgerSum k ∧
        (0 : ℤ) ≤ s.db.heldOf k) ∧
      ∀ p ∈ h, ∀ s' entry, step p.1 p.2 = some s' → charging p.1 p.2 = some entry →
        s'.db.ledger = p.1.db.ledger ∨ ∃ amount : ℤ, entry.amountUsd = ofMicros amount ∧
          SplitCharge entry amount p.1.db s'.db := by
  have hagrees : LedgerAgrees s.db :=
    Run.invariant_of_forall (P := fun s ↦ LedgerAgrees s.db) (fun _ ↦ rfl)
      (fun hp hc hs ↦ ledgerAgrees_step hc hp hs) hr hsix
  refine ⟨fun k ↦ ⟨hagrees k, ?_, Int.natCast_nonneg _⟩, fun p hp s' entry hs he ↦
    splitCharge_step (hsix p hp) he hs⟩
  rw [← hagrees k]
  exact Int.natCast_nonneg _

/-- A gift of 5, a charge of 7.5 that takes the 5 and writes off the rest, a payment of 20, and a
reversal of 3 of it. -/
theorem ledgerAgrees_of_run_overdrawn : ∃ (s : System) (h : List (System × Event)),
    Run step (System.init .empty) h s ∧ (∀ p ∈ h, p.2.SixDecimals) ∧
      s.db.balanceOf "key" = 17000000 ∧ (s.db.balanceOf "key" : ℤ) = s.db.ledgerSum "key" := by
  obtain ⟨h, s, hr, hcheck⟩ := Run.exists_of_check step (System.init .empty)
    [.gift ⟨"key", .finite 5, "gift", "welcome"⟩,
      .openIntent ⟨"key", "k", true, "body", .finite 5, none⟩ "i1",
      .settleIntent 0 (.finite (15 / 2)) none none none,
      .recordPayment { apiKeyId := "key", amountUsd := .finite 20, idempotencyKey := "payment",
                       source := "oxapay", livemode := true },
      .reverse { originalIdempotencyKey := "payment", amountUsd := .finite 3,
                 idempotencyKey := "refund", reason := "asked for" }]
    (fun h s ↦ decide ((∀ p ∈ h, p.2.SixDecimals) ∧ s.db.balanceOf "key" = 17000000))
    (by decide +kernel)
  obtain ⟨hsix, hbalance⟩ := of_decide_eq_true hcheck
  exact ⟨s, h, hr, hsix, hbalance, ((ledgerAgrees_of_run hr hsix).1 "key").1⟩

end ModelConnector
