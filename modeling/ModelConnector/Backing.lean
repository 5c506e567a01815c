import ModelConnector.HoldConservation

/-!
# Reservations and the funds behind them

A reservation is only admitted when the balance covers it on top of what is already reserved, and
a reversal only recovers what is not reserved. A charge is not so careful: it takes what the
balance covers, whether that money is reserved for another intent of the key or not. So
`held_usd ≤ balance_usd` is kept by every step but a charge, and by a charge exactly when it leaves
the rest of the reservations their money.

`backed_of_run` is the guarantee for the runs in which every charge does: reservations stay backed,
and an intent that costs at most its hold is collected in full. `not_backed` is a run in which one
intent spends what another had reserved.
-/

namespace ModelConnector

open Billing Connectors

/-- Every key's reservations are covered by its balance. -/
def Backed (db : Db) : Prop :=
  ∀ k, db.heldOf k ≤ db.balanceOf k

/-- The step charges: its key is free, and the intent it closes, if it closes one, is live. -/
structure StepCharges (s : System) (e : Event) (entry : ChargeEntry) : Prop where
  charging : charging s e = some entry
  fresh : ∀ row ∈ s.db.ledger.rows, row.idempotencyKey ≠ entry.idempotencyKey
  live : ∀ intent data, closing s e = some (intent, data) →
    ∃ row ∈ s.db.intents.rows, row.id = intent.id ∧ row.state = .held

/-- A charge leaves the other reservations of the key their money: after it, rounded as the column
rounds, the balance is still at least what is reserved, unless nothing else is reserved. -/
def StepLeavesReserved (s : System) (e : Event) : Prop :=
  ∀ entry, StepCharges s e entry →
    heldAfterClosing s e entry.apiKeyId = 0 ∨
      (heldAfterClosing s e entry.apiKeyId : ℤ) ≤
        toMicros (ofMicros (s.db.balanceOf entry.apiKeyId) - entry.amountUsd)

instance (s : System) (e : Event) (entry : ChargeEntry) : Decidable (StepCharges s e entry) :=
  decidable_of_iff (charging s e = some entry ∧
      (∀ row ∈ s.db.ledger.rows, row.idempotencyKey ≠ entry.idempotencyKey) ∧
      ∀ p ∈ closing s e, ∃ row ∈ s.db.intents.rows, row.id = p.1.id ∧ row.state = .held)
    ⟨fun h ↦ ⟨h.1, h.2.1, fun _ _ heq ↦ h.2.2 _ heq⟩,
      fun h ↦ ⟨h.charging, h.fresh, fun p heq ↦ h.live p.1 p.2 heq⟩⟩

instance (s : System) (e : Event) : Decidable (StepLeavesReserved s e) :=
  decidable_of_iff (∀ entry ∈ charging s e, StepCharges s e entry →
      heldAfterClosing s e entry.apiKeyId = 0 ∨
        (heldAfterClosing s e entry.apiKeyId : ℤ) ≤
          toMicros (ofMicros (s.db.balanceOf entry.apiKeyId) - entry.amountUsd))
    ⟨fun h entry hcharges ↦ h entry hcharges.charging hcharges, fun h entry _ hcharges ↦
      h entry hcharges⟩

section Step

variable {s s' : System} {e : Event} {db db' : Db}

/-- A movement that leaves its key's reservations covered keeps everything backed. -/
theorem backed_movement {k : String} {rows : List LedgerRow} {balanceUsd : ℤ}
    (hcovered : (db.heldOf k : ℤ) ≤ balanceUsd) (h : Movement k rows balanceUsd db db')
    (hb : Backed db) : Backed db' := by
  intro k'
  rw [h.held]
  by_cases hk : k' = k
  · subst hk
    have hmoved := h.moved
    omega
  · rw [h.others k' hk]
    exact hb k'

theorem backed_posted {entry : LedgerEntry ℚ} (hpos : 0 < entry.amountUsd)
    (h : Posted entry db db') (hb : Backed db) : Backed db' := by
  refine backed_movement ?_ h.movement hb
  have hgrow : toMicros (ofMicros (db.balanceOf entry.apiKeyId)) ≤
      toMicros (ofMicros (db.balanceOf entry.apiKeyId) + entry.amountUsd) :=
    toMicros_mono (by linarith)
  rw [toMicros_ofMicros] at hgrow
  have hown := hb entry.apiKeyId
  omega

theorem backed_reversed {params : ReverseParams} {amountUsd : ℚ} {original : LedgerRow}
    (h : Reversed params amountUsd original db db') (hb : Backed db) : Backed db' := by
  refine backed_movement ?_ h.movement hb
  have hown := ofMicros_le_ofMicros.2 (Int.ofNat_le.2 (hb original.apiKeyId))
  -- what is recovered is at most what is not reserved
  have hrecovered : recoverable db original.apiKeyId amountUsd ≤
      ofMicros (db.balanceOf original.apiKeyId) - ofMicros (db.heldOf original.apiKeyId) := by
    refine (coveredBy_le_available _ _).trans ?_
    rw [spendable, max_eq_left (by linarith)]
  have hleft := toMicros_mono (p := ofMicros (db.heldOf original.apiKeyId))
    (q := ofMicros (db.balanceOf original.apiKeyId) - recoverable db original.apiKeyId amountUsd)
    (by linarith)
  rwa [toMicros_ofMicros] at hleft

/-- A charge keeps everything backed exactly when it leaves what is reserved. -/
theorem backed_charged {entry : ChargeEntry}
    (h : Charged entry db db') (hb : Backed db) :
    Backed db' ↔ db.heldOf entry.apiKeyId = 0 ∨ (db.heldOf entry.apiKeyId : ℤ) ≤
      toMicros (ofMicros (db.balanceOf entry.apiKeyId) - entry.amountUsd) := by
  have hcover := coveredBy_le_available (ofMicros (db.balanceOf entry.apiKeyId)) entry.amountUsd
  have hmoved := h.movement.moved
  by_cases hle : entry.amountUsd ≤ ofMicros (db.balanceOf entry.apiKeyId)
  · rw [coveredBy_of_le hle] at hmoved
    constructor
    · intro hb'
      have hown := hb' entry.apiKeyId
      rw [h.movement.held] at hown
      exact .inr (by omega)
    · intro hleft
      refine backed_movement ?_ h.movement hb
      rw [coveredBy_of_le hle]
      rcases hleft with hzero | hleft
      · rw [hzero]
        exact toMicros_nonneg (by linarith)
      · exact hleft
  · -- the balance is taken to zero
    rw [coveredBy_of_lt (not_le.1 hle), sub_self, toMicros_zero] at hmoved
    constructor
    · intro hb'
      have hown := hb' entry.apiKeyId
      rw [h.movement.held] at hown
      exact .inl (by omega)
    · rintro (hzero | hleft)
      · refine backed_movement ?_ h.movement hb
        rw [hzero, coveredBy_of_lt (not_le.1 hle), sub_self, toMicros_zero]
        rfl
      · have hneg := toMicros_mono (p := ofMicros (db.balanceOf entry.apiKeyId) - entry.amountUsd)
          (q := 0) (by linarith)
        rw [toMicros_zero] at hneg
        refine backed_movement ?_ h.movement hb
        rw [coveredBy_of_lt (not_le.1 hle), sub_self, toMicros_zero]
        omega

/-- The second phase keeps everything backed: a reservation is only admitted when it is covered. -/
theorem backed_intentPhase (h : IntentPhase s e db db') (hb : Backed db) : Backed db' := by
  cases h with
  | idle => exact hb
  | opened _ _ hopened =>
    intro k
    rw [hopened.held, hopened.balance]
    split
    · rename_i hk
      have hcovered := hopened.covered
      have hown := hb k
      rw [hk] at hown ⊢
      omega
    · exact hb k
  | reclaimed _ _ hreclaimed =>
    intro k
    have hcovered := hreclaimed.reserved.covered
    rw [heldOf_updateIntents, balanceOf_updateIntents] at hcovered
    rw [hreclaimed.reserved.held, hreclaimed.reserved.balance, heldOf_updateIntents,
      balanceOf_updateIntents]
    have hown := hb k
    split
    · rename_i hk
      subst hk
      omega
    · exact hown
  | closed _ _ hclosed =>
    intro k
    rw [hclosed.released.held, hclosed.released.balance, heldOf_updateIntents,
      balanceOf_updateIntents]
    have hown := hb k
    split <;> omega
  | purged _ => exact hb

/-- Up to the movement of money a step keeps everything backed. -/
theorem backed_before_money {db₁ db₂ : Db} (hrequest : RequestPhase s e db₁)
    (hintent : IntentPhase s e db₁ db₂) (hb : Backed s.db) : Backed db₂ := by
  refine backed_intentPhase hintent fun k ↦ ?_
  have hown := hb k
  simp only [Db.heldOf, Db.balanceOf, Db.balanceRow, hrequest.frame.1] at hown ⊢
  exact hown

/-- The balance a charge is made against is the one the step started from. -/
theorem balanceOf_before_money {db₁ db₂ : Db} (hrequest : RequestPhase s e db₁)
    (hintent : IntentPhase s e db₁ db₂) (k : String) : db₂.balanceOf k = s.db.balanceOf k := by
  rw [hintent.frame.1]
  simp only [Db.balanceOf, Db.balanceRow, hrequest.frame.1]

/-- **What one step preserves.** A step that leaves what is reserved keeps everything backed. -/
theorem backed_step (hb : Backed s.db) (hleave : StepLeavesReserved s e)
    (h : step s e = some s') : Backed s'.db := by
  obtain ⟨db₁, db₂, hrequest, hintent, hmoney⟩ := step_phases h
  have hb₂ := backed_before_money hrequest hintent hb
  cases hmoney with
  | idle => exact hb₂
  | posted _ hpos _ hposted => exact backed_posted hpos hposted hb₂
  | charged hcharging hnonneg hfirst hcharged =>
    refine (backed_charged hcharged hb₂).2 ?_
    rw [hfirst.held, balanceOf_before_money hrequest hintent]
    refine hleave _ ⟨hcharging, ?_, hfirst.live⟩
    rw [← hrequest.frame.2.1, ← hintent.frame.2.1]
    exact hcharged.fresh
  | reversed _ _ _ hreversed => exact backed_reversed hreversed hb₂

/-! ### Collection in full -/

/-- A charge under an intent is for the key of the intent. -/
theorem charging_apiKeyId {entry : ChargeEntry} {intent : RequestIntentHandle}
    {data : IntentUpdate} (hcharging : charging s e = some entry)
    (hclosing : closing s e = some (intent, data)) : entry.apiKeyId = intent.apiKeyId := by
  cases chargeOf_of_charging hcharging with
  | settle he _ | persistedDirect he _ | reconciled he _ =>
    subst he
    cases hclosing
  | settleIntent he howner _ =>
    subst he
    simp only [closing, howner, Option.map_some, Option.some.injEq, Prod.mk.injEq] at hclosing
    rw [← hclosing.1]
    rfl
  | persisted he hreplay howner _ =>
    subst he
    simp only [closing, howner, hreplay, Option.map_some, Bool.not_true, Bool.false_eq_true, if_false,
      Option.some.injEq, Prod.mk.injEq] at hclosing
    rw [← hclosing.1]
    rfl

/-- A live intent that costs at most its hold is charged in full: its charge is the only row it
leaves in the ledger, with nothing written off. A step that is refused leaves the ledger alone. -/
def CollectsInFull (s : System) (e : Event) : Prop :=
  ∀ entry intent data row s', charging s e = some entry → closing s e = some (intent, data) →
    row ∈ s.db.intents.rows → row.id = intent.id → row.state = .held →
    entry.amountUsd ≤ ofMicros row.holdUsd → step s e = some s' →
      s'.db.ledger = s.db.ledger ∨
        s'.db.ledger.rows = s.db.ledger.rows ++ [entry.charge.toRow (toMicros (-entry.amountUsd))] ∧
          (s'.db.balanceOf entry.apiKeyId : ℤ) =
            toMicros (ofMicros (s.db.balanceOf entry.apiKeyId) - entry.amountUsd)

theorem collectsInFull (hrefs : RefsAgree s) (hc : HoldsConserved s.db) (hb : Backed s.db) :
    CollectsInFull s e := by
  intro entry intent data row s' hcharging hclosing hrow hid hstate hcost h
  have hkey : row.apiKeyId = entry.apiKeyId :=
    (hrefs.agree _ (closing_mem_refs hclosing) row hrow hid).trans
      (charging_apiKeyId hcharging hclosing).symm
  -- the hold of the row is part of the reservation, and the reservation is covered
  have hhold : (row.holdUsd : ℤ) ≤ s.db.balanceOf entry.apiKeyId := by
    have hsum : (row.holdUsd : ℤ) ≤ s.db.heldSum entry.apiKeyId :=
      Table.le_sumWhere hrow (by simp [hkey, hstate]) fun _ _ _ ↦ Int.natCast_nonneg _
    have hheld := hc entry.apiKeyId
    have hown := hb entry.apiKeyId
    omega
  have hcovered : entry.amountUsd ≤ ofMicros (s.db.balanceOf entry.apiKeyId) :=
    hcost.trans (ofMicros_le_ofMicros.2 hhold)
  obtain ⟨db₁, db₂, hrequest, hintent, hmoney⟩ := step_phases h
  have hledger : db₂.ledger = s.db.ledger := hintent.frame.2.1.trans hrequest.frame.2.1
  cases hmoney with
  | idle => exact .inl hledger
  | posted hposting _ _ _ => cases e <;> simp [posting, charging] at hposting hcharging
  | charged hcharging' _ _ hcharged =>
    rw [hcharging] at hcharging'
    cases hcharging'
    have hrows := hcharged.movement.rows
    have hmoved := hcharged.movement.moved
    rw [balanceOf_before_money hrequest hintent, coveredBy_of_le hcovered] at hmoved
    rw [balanceOf_before_money hrequest hintent, ChargeEntry.rows, coveredBy_of_le hcovered, hledger,
      Decimal.minus_self, if_neg (lt_irrefl 0)] at hrows
    exact .inr ⟨hrows, hmoved⟩
  | reversed hreverse _ _ _ =>
    subst hreverse
    simp [charging] at hcharging

end Step

/-! ### Runs -/

/-- The condition of the guarantee: what is closed is closed with the hold of the row, and a charge
leaves the other reservations of the key their money. -/
structure StepKeepsFunds (s : System) (e : Event) : Prop where
  closesOwnHold : StepClosesOwnHold s e
  leavesReserved : StepLeavesReserved s e

instance (s : System) (e : Event) : Decidable (StepKeepsFunds s e) :=
  decidable_of_iff (StepClosesOwnHold s e ∧ StepLeavesReserved s e)
    ⟨fun h ↦ ⟨h.1, h.2⟩, fun h ↦ ⟨h.1, h.2⟩⟩

/-- **Reservations are backed by funds.** In every run in which every charge leaves the other
reservations of its key their money and every intent is closed with its own hold, what is reserved
is covered by the balance, and an intent that costs at most its hold is collected in full. -/
theorem backed_of_run {s : System} {h : List (System × Event)}
    (hr : Run step (System.init .empty) h s) (hkeep : ∀ p ∈ h, StepKeepsFunds p.1 p.2) :
    Backed s.db ∧ ∀ p ∈ h, CollectsInFull p.1 p.2 := by
  have h0 : RefsAgree (System.init .empty) ∧ HoldsConserved Db.empty ∧ Backed Db.empty :=
    ⟨refsAgree_init _, fun _ ↦ rfl, fun _ ↦ le_refl _⟩
  have hstep : ∀ {s e s'}, (RefsAgree s ∧ HoldsConserved s.db ∧ Backed s.db) →
      StepKeepsFunds s e → step s e = some s' →
      RefsAgree s' ∧ HoldsConserved s'.db ∧ Backed s'.db := by
    rintro s e s' ⟨hrefs, hc, hb⟩ hk hs
    exact ⟨refsAgree_step hrefs hs, holdsConserved_step hrefs hc hk.closesOwnHold hs,
      backed_step hb hk.leavesReserved hs⟩
  refine ⟨(Run.invariant_of_forall (P := fun s ↦ RefsAgree s ∧ HoldsConserved s.db ∧ Backed s.db)
    h0 hstep hr hkeep).2.2, fun p hp ↦ ?_⟩
  obtain ⟨hrefs, hc, hb⟩ := Run.forall_mem_of_forall
    (P := fun s ↦ RefsAgree s ∧ HoldsConserved s.db ∧ Backed s.db) h0 hstep hr hkeep p hp
  exact collectsInFull hrefs hc hb

/-- Two intents of one key, each charged what it had reserved. -/
theorem backed_of_run_two_intents : ∃ (s : System) (h : List (System × Event)),
    Run step (System.init .empty) h s ∧ (∀ p ∈ h, StepKeepsFunds p.1 p.2) ∧ Backed s.db := by
  obtain ⟨h, s, hr, hcheck⟩ := Run.exists_of_check step (System.init .empty)
    [.credit { apiKeyId := "key", amountUsd := .finite 10, idempotencyKey := "top-up" },
      .openIntent ⟨"key", "k1", true, "body", .finite 5, none⟩ "i1",
      .openIntent ⟨"key", "k2", true, "body", .finite 5, none⟩ "i2",
      .settleIntent 0 (.finite 5) none none none, .settleIntent 1 (.finite 4) none none none]
    (fun h _ ↦ decide (∀ p ∈ h, StepKeepsFunds p.1 p.2)) (by decide +kernel)
  have hkeep := of_decide_eq_true hcheck
  exact ⟨s, h, hr, hkeep, (backed_of_run hr hkeep).1⟩

/-- Reservations are not backed in every run: of two intents that reserved 5 each of a balance of
10, the first is charged 10, and the second is left with a reservation of money that is gone. -/
theorem not_backed :
    ¬ ∀ (s : System) (h : List (System × Event)), Run step (System.init .empty) h s →
      Backed s.db := by
  intro hall
  obtain ⟨h, s, hr, hcheck⟩ := Run.exists_of_check step (System.init .empty)
    [.credit { apiKeyId := "key", amountUsd := .finite 10, idempotencyKey := "top-up" },
      .openIntent ⟨"key", "k1", true, "body", .finite 5, none⟩ "i1",
      .openIntent ⟨"key", "k2", true, "body", .finite 5, none⟩ "i2",
      .settleIntent 0 (.finite 10) none none none]
    (fun _ s ↦ decide (s.db.heldOf "key" = 5000000 ∧ s.db.balanceOf "key" = 0))
    (by decide +kernel)
  obtain ⟨hheld, hbalance⟩ := of_decide_eq_true hcheck
  have hkey := hall s h hr "key"
  rw [hheld, hbalance] at hkey
  exact absurd hkey (by decide)

end ModelConnector
