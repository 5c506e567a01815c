import ModelConnector.Phases

/-!
# Delivered work and its charge

`persistAndSettle` writes the `Request` row of a finished dispatch and settles it in the same
transaction, so a row with a measured cost should never be stored without its charge. Without an
intent that is so. Under an intent the settlement is a no-op when the intent has left `held`
meanwhile — the dispatch outlived its hold and was swept — and it is a release without a charge
when the caller was granted a retry, also when the attempt carries the cost of earlier ones.

`paidWork_of_run` says of every committed transaction of every run that it charges for the row it
stores **exactly** when the intent is settled live, and derives that no row goes unpaid in the runs
in which every dispatch is; `not_paidWork` is a run in which one is not.
-/

namespace ModelConnector

open Atomic Billing Connectors

/-- Every stored request with a chargeable cost has its charge, of exactly that cost, in the
ledger. -/
def AllPaid (db : Db) : Prop :=
  ∀ row ∈ db.requests.rows, isChargeableToCustomer row.costSource = true → 0 < row.costUsd →
    ∃ charge ∈ db.ledger.rows, charge.entryType = .charge ∧ charge.requestId = some row.id ∧
      charge.amountUsd = -row.costUsd

/-- The step stores the row of a request that costs something the customer may be charged for. -/
structure StoresCost (s : System) (e : Event) (s' : System) (row : RequestRow) : Prop where
  step : step s e = some s'
  rows : s'.db.requests.rows = s.db.requests.rows ++ [row]
  chargeable : isChargeableToCustomer row.costSource = true
  cost : 0 < row.costUsd

/-- Between the two stores the charge for the row was written, of exactly its cost, and with it
perhaps the part that is written off. -/
def ChargedFor (db db' : Db) (row : RequestRow) : Prop :=
  ∃ charge : LedgerRow, charge.entryType = .charge ∧ charge.requestId = some row.id ∧
    charge.amountUsd = -row.costUsd ∧
      (db'.ledger.rows = db.ledger.rows ++ [charge] ∨
        ∃ writeOff : LedgerRow, writeOff.entryType = .uncollectible ∧
          writeOff.requestId = some row.id ∧ db'.ledger.rows = db.ledger.rows ++ [charge, writeOff])

/-- A dispatch under an intent is settled, and not just released, while its intent is live. -/
def SettlesLive (s : System) : Event → Prop
  | .persistAndSettle i outcome _ =>
    outcome.replayable = true ∧ ∃ intent ∈ s.owner? i,
      ∃ row ∈ s.db.intents.rows, row.id = intent.id ∧ row.state = .held
  | _ => True

instance (s : System) (e : Event) : Decidable (SettlesLive s e) := by
  cases e
  case persistAndSettle i outcome _ =>
    exact inferInstanceAs (Decidable (outcome.replayable = true ∧ ∃ intent ∈ s.owner? i,
      ∃ row ∈ s.db.intents.rows, row.id = intent.id ∧ row.state = .held))
  all_goals exact inferInstanceAs (Decidable True)

section Transaction

variable {db db' : Db}

theorem not_chargedFor_of_eq {row : RequestRow} (h : db'.ledger = db.ledger) :
    ¬ ChargedFor db db' row := by
  rintro ⟨charge, -, -, -, hrows | ⟨writeOff, -, -, hrows⟩⟩ <;>
    · rw [h] at hrows
      have hlength := congrArg List.length hrows
      simp at hlength

/-- A charge under the id of the request, of its cost, is a charge for its row. -/
theorem chargedFor_of_charged {entry : ChargeEntry} {row : RequestRow}
    (hrequest : entry.requestId = some row.id) (hcost : row.costUsd = toMicros entry.amountUsd)
    (h : Charged entry db db') : ChargedFor db db' row := by
  have hrows := h.movement.rows
  refine ⟨entry.charge.toRow (toMicros (-entry.amountUsd)), rfl, hrequest, ?_, ?_⟩
  · rw [hcost, ← toMicros_neg]
    rfl
  · simp only [ChargeEntry.rows] at hrows
    split at hrows
    · exact .inr ⟨_, rfl, hrequest, hrows⟩
    · exact .inl hrows

/-- **What one transaction does.** A committed `persistAndSettle` that stores a chargeable cost
charges for it exactly when it runs without an intent, or settles a live one. -/
theorem chargedFor_iff {outcome : Outcome} {owner : Option RequestIntentHandle}
    {requestId : String} {now : ℤ} {row : RequestRow} {u : Unit}
    (h : persistAndSettleInTx outcome owner requestId now db = .ok (u, db'))
    (hrow : db'.requests.rows = db.requests.rows ++ [row])
    (hchargeable : isChargeableToCustomer row.costSource = true) :
    ChargedFor db db' row ↔ ∀ intent, owner = some intent → outcome.replayable = true ∧
      ∃ held ∈ db.intents.rows, held.id = intent.id ∧ held.state = .held := by
  obtain ⟨cost, db₁, settled, hcost, hcreated, hsettle⟩ := persistAndSettleInTx_ok h
  have hrow_eq : db'.requests = db₁.requests →
      row = outcome.requestRow requestId (toMicros cost) now := by
    intro heq
    rw [heq, hcreated.rows] at hrow
    exact (List.singleton_injective (List.append_cancel_left hrow)).symm
  have hcharge : db'.requests = db₁.requests → outcome.customerChargeUsd = .finite cost := by
    intro heq
    have hsource : outcome.chargeable = true := by
      rw [hrow_eq heq] at hchargeable
      exact hchargeable
    rw [Outcome.customerChargeUsd, if_pos hsource, hcost]
  -- a charge after the insertion is a charge of the whole transaction
  have hledger : ∀ {row}, ChargedFor db₁ db' row → ChargedFor db db' row := by
    intro row hcharged
    unfold ChargedFor at hcharged ⊢
    rwa [hcreated.ledger] at hcharged
  unfold settleSpend at hsettle
  cases owner with
  | none =>
    obtain ⟨-, amountUsd, hfin, -, hcharged⟩ := settleInTx_ok hsettle
    have heq := hcharged.movement.requests
    rw [Outcome.settleParams, hcharge heq] at hfin
    cases hfin
    refine iff_of_true (hledger (chargedFor_of_charged ?_ ?_ hcharged)) (by simp)
    · rw [hrow_eq heq]
      rfl
    · rw [hrow_eq heq]
      rfl
  | some intent =>
    by_cases hreplay : outcome.replayable
    · simp only [hreplay, Bool.not_true, Bool.false_eq_true, if_false] at hsettle
      rcases settleIntentInTx_ok hsettle with ⟨-, rfl, hnot⟩ |
        ⟨-, held, amountUsd, db₂, hfin, -, hclosed, hcharged⟩
      · refine iff_of_false (not_chargedFor_of_eq hcreated.ledger) fun hlive ↦ ?_
        obtain ⟨-, held, hmem, hid, hstate⟩ := hlive intent rfl
        exact hnot held (hcreated.intents ▸ hmem) hid hstate
      · have heq : db'.requests = db₁.requests :=
          hcharged.movement.requests.trans hclosed.released.requests
        simp only [Outcome.settleIntentParams, hcharge heq] at hfin
        cases hfin
        refine iff_of_true (hledger ?_) fun _ heq ↦ ⟨hreplay, held, ?_⟩
        · have hpaid : ChargedFor db₂ db' row := chargedFor_of_charged
            (by rw [hrow_eq heq]; rfl) (by rw [hrow_eq heq]; rfl) hcharged
          unfold ChargedFor at hpaid ⊢
          rwa [hclosed.released.ledger] at hpaid
        · cases heq
          exact ⟨hcreated.intents ▸ hclosed.mem, hclosed.id, hclosed.state⟩
    · simp only [hreplay, Bool.not_false, if_true] at hsettle
      have hsame : db'.ledger = db₁.ledger := by
        rcases releaseTo_ok hsettle with ⟨-, rfl, -⟩ | ⟨-, held, hclosed⟩
        · rfl
        · exact hclosed.released.ledger
      exact iff_of_false (not_chargedFor_of_eq (hsame.trans hcreated.ledger)) fun hlive ↦
        absurd (hlive intent rfl).1 hreplay

end Transaction

section Step

variable {s s' : System} {e : Event} {row : RequestRow}

/-- A committed step is a committed transaction, when it stores a row. -/
private theorem persisted_ok {outcome : Outcome} {owner : Option RequestIntentHandle}
    {requestId : String}
    (hrow : (persistAndSettle outcome owner requestId s.now s.db).2.requests.rows =
      s.db.requests.rows ++ [row]) :
    persistAndSettleInTx outcome owner requestId s.now s.db =
      .ok ((), (persistAndSettle outcome owner requestId s.now s.db).2) := by
  unfold persistAndSettle at hrow ⊢
  rcases (persistAndSettleInTx outcome owner requestId s.now).run_cases s.db with
    ⟨ok, db', hx, hrun⟩ | ⟨err, -, hrun⟩
  · rw [hrun]
    exact hx
  · rw [hrun] at hrow
    have hlength := congrArg List.length hrow
    simp at hlength

/-- A step that stores a chargeable cost charges for it exactly when it settles live. -/
theorem chargedFor_step_iff (h : StoresCost s e s' row) :
    ChargedFor s.db s'.db row ↔ SettlesLive s e := by
  obtain ⟨hstep, hrow, hchargeable, -⟩ := h
  by_cases hpersist : persisting e = none
  · exfalso
    rcases step_requests hstep with hsame | ⟨_, _, _, he, -⟩
    · rw [hsame] at hrow
      have hlength := congrArg List.length hrow
      simp at hlength
    · rw [hpersist] at he
      cases he
  cases e <;> simp only [persisting, not_true_eq_false] at hpersist
  case persistAndSettle i outcome requestId =>
    simp only [ModelConnector.step] at hstep
    split at hstep
    · cases hstep
    split at hstep
    · rename_i intent hcall
      cases hstep
      have hrow' : (persistAndSettle outcome (some intent) requestId s.now s.db).2.requests.rows =
          s.db.requests.rows ++ [row] := hrow
      have hiff := chargedFor_iff (persisted_ok hrow') hrow' hchargeable
      refine hiff.trans ⟨fun hlive ↦ ?_, fun hlive owner heq ↦ ?_⟩
      · obtain ⟨hreplay, held⟩ := hlive intent rfl
        exact ⟨hreplay, intent, owner?_of_getElem? hcall, held⟩
      · cases heq
        obtain ⟨hreplay, owner, howner, held⟩ := hlive
        rw [owner?_of_getElem? hcall] at howner
        cases howner
        exact ⟨hreplay, held⟩
    · cases hstep
  case persistAndSettleDirect outcome requestId =>
    simp only [ModelConnector.step] at hstep
    split at hstep
    · cases hstep
    · cases hstep
      have hrow' : (persistAndSettle outcome none requestId s.now s.db).2.requests.rows =
          s.db.requests.rows ++ [row] := hrow
      exact (chargedFor_iff (persisted_ok hrow') hrow' hchargeable).trans
        (iff_of_true (by simp) trivial)

/-- **What one step preserves.** A step that settles live whatever it stores leaves nothing
unpaid. -/
theorem allPaid_step (hpaid : AllPaid s.db) (h : step s e = some s')
    (hlive : ∀ row, StoresCost s e s' row → SettlesLive s e) : AllPaid s'.db := by
  obtain ⟨added, hledger⟩ := step_ledger h
  have hkept : ∀ row ∈ s.db.requests.rows, isChargeableToCustomer row.costSource = true →
      0 < row.costUsd → ∃ charge ∈ s'.db.ledger.rows, charge.entryType = .charge ∧
        charge.requestId = some row.id ∧ charge.amountUsd = -row.costUsd := by
    intro row hrow hchargeable hcost
    obtain ⟨charge, hcharge, hrest⟩ := hpaid row hrow hchargeable hcost
    exact ⟨charge, by rw [hledger]; exact List.mem_append_left _ hcharge, hrest⟩
  intro row hrow hchargeable hcost
  rcases step_requests h with hsame | ⟨outcome, requestId, cost, -, -, -, hrows⟩
  · exact hkept row (hsame ▸ hrow) hchargeable hcost
  · rw [hrows] at hrow
    rcases List.mem_append.1 hrow with hrow | hrow
    · exact hkept row hrow hchargeable hcost
    · obtain rfl := List.mem_singleton.1 hrow
      have hstores : StoresCost s e s' _ := ⟨h, hrows, hchargeable, hcost⟩
      obtain ⟨charge, htype, hrequest, hamount, hwritten⟩ :=
        (chargedFor_step_iff hstores).2 (hlive _ hstores)
      refine ⟨charge, ?_, htype, hrequest, hamount⟩
      rcases hwritten with hwritten | ⟨writeOff, -, -, hwritten⟩ <;> simp [hwritten]

end Step

/-! ### Runs -/

/-- **Delivered work is paid for exactly when it is settled live.** In every run from a store
without unpaid requests, every transaction that stores a chargeable cost charges for it exactly
when it runs without an intent or settles a live one; and when all of them do, no request is ever
left unpaid. -/
theorem paidWork_of_run {db₀ : Db} {s : System} {h : List (System × Event)}
    (h0 : AllPaid db₀) (hr : Run step (System.init db₀) h s) :
    (∀ p ∈ h, ∀ s' row, StoresCost p.1 p.2 s' row →
        (ChargedFor p.1.db s'.db row ↔ SettlesLive p.1 p.2)) ∧
      ((∀ p ∈ h, ∀ s' row, StoresCost p.1 p.2 s' row → SettlesLive p.1 p.2) → AllPaid s.db) := by
  refine ⟨fun p _ s' row hstores ↦ chargedFor_step_iff hstores, fun hlive ↦ ?_⟩
  exact Run.invariant_of_forall (P := fun s ↦ AllPaid s.db)
    (c := fun s e ↦ ∀ s' row, StoresCost s e s' row → SettlesLive s e) h0
    (fun hpaid hc hs ↦ allPaid_step hpaid hs fun row ↦ hc _ row) hr hlive

theorem allPaid_empty : AllPaid .empty := by
  intro row hrow
  cases hrow

/-- A dispatch of a cost of 1 with the catalogue's price. -/
def pricedOutcome : Outcome :=
  ⟨"key", .finite 1, some .catalog, "{}", true⟩

/-- A dispatch that is settled while its intent is live, and one without an intent. -/
theorem paidWork_of_run_live : ∃ (s : System) (h : List (System × Event)),
    Run step (System.init .empty) h s ∧ s.db.requests.rows.length = 2 ∧ AllPaid s.db := by
  obtain ⟨h, s, hr, hcheck⟩ := Run.exists_of_check step (System.init .empty)
    [.credit { apiKeyId := "key", amountUsd := .finite 10, idempotencyKey := "top-up" },
      .openIntent ⟨"key", "k", true, "body", .finite 1, none⟩ "i1",
      .persistAndSettle 0 pricedOutcome "r1", .persistAndSettleDirect pricedOutcome "r2"]
    (fun h s ↦ decide ((∀ p ∈ h, SettlesLive p.1 p.2) ∧ s.db.requests.rows.length = 2))
    (by decide +kernel)
  obtain ⟨hlive, hlength⟩ := of_decide_eq_true hcheck
  exact ⟨s, h, hr, hlength, (paidWork_of_run allPaid_empty hr).2 fun p hp _ _ _ ↦ hlive p hp⟩

/-- Not every run leaves all work paid: this dispatch outlives its hold, the sweep releases its
intent, and its row is stored with a cost of 1 and no charge. -/
theorem not_paidWork :
    ¬ ∀ (s : System) (h : List (System × Event)), Run step (System.init .empty) h s →
      AllPaid s.db := by
  intro hall
  obtain ⟨h, s, hr, hcheck⟩ := Run.exists_of_check step (System.init .empty)
    [.credit { apiKeyId := "key", amountUsd := .finite 10, idempotencyKey := "top-up" },
      .openIntent ⟨"key", "k", true, "body", .finite 1, some 0⟩ "i1", .tick 1,
      .sweepExpiredIntents 500, .expireIntent 1, .persistAndSettle 0 pricedOutcome "r1"]
    (fun _ s ↦ decide (s.db.requests.rows = [⟨"r1", "key", 1000000, some "catalog", 1⟩] ∧
      ∀ row ∈ s.db.ledger.rows, row.requestId = none)) (by decide +kernel)
  obtain ⟨hrows, hledger⟩ := of_decide_eq_true hcheck
  obtain ⟨charge, hcharge, -, hrequest, -⟩ := hall s h hr ⟨"r1", "key", 1000000, some "catalog", 1⟩
    (by rw [hrows]; exact List.mem_cons_self) (by decide) (by decide)
  rw [hledger charge hcharge] at hrequest
  cases hrequest

end ModelConnector
