import ModelConnector.Billing.ReversalOutcome
import ModelConnector.Phases

/-!
# Replaying a reversal

A replayed reversal should be a no-op: it meets its own row in the ledger. But its headroom is
checked before its row is inserted, and the rows that name the original include those of the
reversal that is replayed.
-/

namespace ModelConnector

open Billing

variable {params : ReverseParams} {original : LedgerRow} {amountUsd : ℚ} {s s₁ s₂ : System}
  {h : List (System × Event)}

namespace Billing

variable {db db' : Db}

/-- The rows that name the original leave room for the amount. -/
def LeavesRoomFor (original : LedgerRow) (amountUsd : ℚ) (db : Db) : Prop :=
  ofMicros (magnitude (db.reversals original.idempotencyKey)) + amountUsd ≤
    ofMicros |original.amountUsd|

instance (original : LedgerRow) (amountUsd : ℚ) (db : Db) :
    Decidable (LeavesRoomFor original amountUsd db) :=
  inferInstanceAs (Decidable (_ ≤ _))

theorem leavesRoomFor_iff {db : Db} :
    LeavesRoomFor original amountUsd db ↔ amountUsd ≤ db.leftOf original := by
  unfold LeavesRoomFor Db.leftOf headroom
  constructor <;> intro h <;> linarith

/-- What is known of an applied reversal in every later store: its original is there, its row would
be stored, and its key is taken. -/
structure Replayable (params : ReverseParams) (original : LedgerRow) (amountUsd : ℚ) (db : Db) :
    Prop where
  reversible : Reversible params original db
  stored : storeDecimal 12 (params.entry original amountUsd).amountUsd =
    .ok (toMicros (params.entry original amountUsd).amountUsd)
  checks : ((params.entry original amountUsd).toRow
    (toMicros (params.entry original amountUsd).amountUsd)).checks = true
  taken : db.Taken params.idempotencyKey

theorem Db.Taken.append {key : String} {rows : List LedgerRow} (h : db.Taken key)
    (hrows : db'.ledger.rows = db.ledger.rows ++ rows) : db'.Taken key := by
  obtain ⟨row, hrow, hkey⟩ := h
  exact ⟨row, hrows ▸ List.mem_append_left _ hrow, hkey⟩

/-- The ledger only grows, and with it nothing of that is lost. -/
theorem Replayable.append {rows : List LedgerRow} (h : Replayable params original amountUsd db)
    (hrows : db'.ledger.rows = db.ledger.rows ++ rows) :
    Replayable params original amountUsd db' :=
  { h with
    reversible := { h.reversible with mem := hrows ▸ List.mem_append_left _ h.reversible.mem }
    taken := h.taken.append hrows }

/-- An applied reversal can be replayed. -/
theorem replayable_of_applied (h : Applied params db) : ∃ original amountUsd,
    validateReverse params = .ok amountUsd ∧
      Replayable params original amountUsd (reverse params db).2 := by
  rcases reverse_applied_cases params db with
    ⟨hskipped, -⟩ | ⟨-, amountUsd, original, hvalid, hreversible, hreversed⟩
  · exact absurd h hskipped
  · cases htx : reverseInTx params amountUsd db with
    | error e => exact absurd h (not_applied_of_error hvalid htx)
    | ok p =>
      obtain ⟨original', db₁, hreversible', hcreated⟩ := reverseInTx_created htx
      have hclash : original'.clash original = true :=
        beq_iff_eq.2 (hreversible'.key.trans hreversible.key.symm)
      rw [Table.eq_of_clash (fun a b ↦ Bool.beq_comm) hreversible'.mem hreversible.mem hclash]
        at hcreated
      obtain ⟨hstored, hchecks⟩ := creditsLedgerCreate_stored hcreated
      have hrows := hreversed.movement.rows
      refine ⟨original, amountUsd, hvalid, ?_, hstored, hchecks, ?_⟩
      · exact { hreversible with mem := hrows ▸ List.mem_append_left _ hreversible.mem }
      · exact ⟨_, hrows ▸ List.mem_append_right _ List.mem_cons_self, rfl⟩

/-- The replay is a no-op while the rows leave room for the amount once more, and otherwise it is
refused. -/
theorem Replayable.reverse_eq (h : Replayable params original amountUsd db)
    (hvalid : validateReverse params = .ok amountUsd) :
    reverse params db =
      if LeavesRoomFor original amountUsd db then (.ok ⟨false, params.amountUsd, 0, 0⟩, db)
      else (.error (.reversalRefused "exceeds_original"), db) := by
  split_ifs with hroom
  · have hduplicate := reverseInTx_of_create_error h.reversible (leavesRoomFor_iff.1 hroom)
      (creditsLedgerCreate_of_taken h.stored h.checks h.taken)
    rw [reverse_of_error hvalid hduplicate, if_pos rfl]
  · rw [leavesRoomFor_iff, not_le] at hroom
    rw [reverse_of_error hvalid (reverseInTx_of_gt h.reversible hroom), if_neg TxError.noConfusion]

end Billing

/-- **The replay of an applied reversal.** In every state that is reached after a reversal was
applied, calling it again answers that it was not applied, and changes nothing, if and only if the
rows that name the original, its own among them, leave room for the amount once more. Otherwise it
is refused. -/
theorem replay_iff (happlied : Applied params s.db) (hs : step s (.reverse params) = some s₁)
    (hr : Run step s₁ h s₂) : ∃ original amountUsd, Reversible params original s₂.db ∧
      params.amountUsd = .finite amountUsd ∧
      (reverse params s₂.db = (.ok ⟨false, params.amountUsd, 0, 0⟩, s₂.db) ↔
        LeavesRoomFor original amountUsd s₂.db) := by
  obtain ⟨original, amountUsd, hvalid, hreplayable⟩ := replayable_of_applied happlied
  obtain rfl := Option.some.inj hs
  have hlater : Replayable params original amountUsd s₂.db :=
    hr.invariant (P := fun s ↦ Replayable params original amountUsd s.db) hreplayable
      fun hc hstep ↦ (step_ledger hstep).elim fun _ ↦ hc.append
  refine ⟨original, amountUsd, hlater.reversible, (validateReverse_eq_ok hvalid).1, ?_⟩
  rw [hlater.reverse_eq hvalid]
  split_ifs with hroom
  · exact iff_of_true rfl hroom
  · refine iff_of_false (fun heq ↦ ?_) hroom
    cases congrArg Prod.fst heq

/-- The service after the payment was reversed. -/
def refunded (amountUsd : ℚ) : System :=
  (System.init paidStore).write (reverse (refundOf "refund" amountUsd) paidStore).2

/-- A refund of 30 of 100 USD is replayed after a charge of 7.5. -/
theorem replay_iff_partial : ∃ h s₂, Run step (refunded 30) h s₂ ∧ s₂.db.ledger.rows.length = 3 ∧
    reverse (refundOf "refund" 30) s₂.db = (.ok ⟨false, .finite 30, 0, 0⟩, s₂.db) := by
  obtain ⟨h, s₂, hr, hcheck⟩ := Run.exists_of_check step (refunded 30)
    [.settle { apiKeyId := "key", amountUsd := .finite (15 / 2), idempotencyKey := "charge",
               reason := "usage" }]
    (fun _ s₂ ↦ decide (s₂.db.ledger.rows.length = 3 ∧ ∀ original ∈ s₂.db.ledger.rows,
      original.idempotencyKey = "payment" → LeavesRoomFor original 30 s₂.db)) (by decide +kernel)
  obtain ⟨hlength, hroom⟩ := of_decide_eq_true hcheck
  obtain ⟨original, amountUsd, hreversible, hfin, hiff⟩ :=
    replay_iff (by decide +kernel : Applied (refundOf "refund" 30) (System.init paidStore).db) rfl hr
  obtain rfl : 30 = amountUsd := Decimal.finite.inj hfin
  exact ⟨h, s₂, hr, hlength, hiff.2 (hroom original hreversible.mem hreversible.key)⟩

/-- The replay of a full refund is refused. -/
theorem replay_refused : Applied (refundOf "refund" 100) paidStore ∧
    Run step (refunded 100) [] (refunded 100) ∧
    (reverse (refundOf "refund" 100) (refunded 100).db).1 =
      .error (.reversalRefused "exceeds_original") :=
  ⟨by decide +kernel, .nil, by decide +kernel⟩

end ModelConnector
