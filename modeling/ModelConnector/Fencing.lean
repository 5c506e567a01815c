import ModelConnector.Foundations.History
import ModelConnector.Handles

/-!
# Intent fencing

An owner should be able to end only the reservation its own `openIntent` made. The updates that
settle and release are guarded on the id of the row and on its state `held`, and a reclaim takes a
released row back **under the same id**, so the guard does not tell the reservation of the second
request from that of the first.

Who made a reservation is not in the store. `Reservations` keeps it as a history variable: the
call that made the latest reservation of each intent, and whether that reservation is still to be
ended by that call or by the sweeper. `fenced_of_run` is fencing for the runs in which no owner
settles or releases after another request has taken its row back; there every reservation stays
in place until it is ended by right, and a settlement under it is charged, once. `not_fenced` is a
run in which a late settlement ends the reservation of the second request.
-/

namespace ModelConnector

open Atomic Billing Connectors

/-- The intent has a live reservation in the store. -/
def heldRow (db : Db) (id : String) : Bool :=
  db.intents.rows.any (IntentRow.matches id [.held])

/-- What a run of the system knows about its reservations and the store does not. -/
structure Reservations where
  /-- The call that made the latest reservation of an intent. -/
  maker : String → Option ℕ
  /-- The same, until the call itself or the sweeper has ended it. -/
  live : String → Option ℕ

/-- Nothing was reserved yet. -/
def Reservations.none : Reservations :=
  ⟨fun _ ↦ .none, fun _ ↦ .none⟩

/-- The call that a step makes a reservation for. -/
def System.reserver (s : System) : Event → Option ℕ
  | .openIntent _ _ => some s.calls.length
  | .reclaimIntent i => some i
  | _ => none

/-- The call of the owner that a step settles or releases for; the sweeper is none. -/
def Event.owner : Event → Option ℕ
  | .settleIntent i _ _ _ _ | .releaseIntent i | .persistAndSettle i _ _ => some i
  | _ => none

/-- The reservations after a step. One begins when its row becomes `held`, and is ended by right
when the row leaves `held` in a step of its own maker or of the sweeper. -/
def Reservations.next (g : Reservations) (s : System) (e : Event) (s' : System) : Reservations where
  maker id := if !heldRow s.db id && heldRow s'.db id then s.reserver e else g.maker id
  live id :=
    if !heldRow s.db id && heldRow s'.db id then s.reserver e
    else if heldRow s.db id && !heldRow s'.db id && (e.owner == .none || e.owner == g.live id) then
      .none
    else g.live id

/-- The owner of a step that would end a reservation is the one that made the latest: no other
request has taken the row back since. -/
def NotOvertaken (g : Reservations) (s : System) (e : Event) : Prop :=
  ∀ i ∈ e.owner, ∀ intent ∈ s.owner? i, heldRow s.db intent.id = true →
    g.maker intent.id = some i

instance (g : Reservations) (s : System) (e : Event) : Decidable (NotOvertaken g s e) :=
  inferInstanceAs (Decidable (∀ i ∈ e.owner, ∀ intent ∈ s.owner? i, heldRow s.db intent.id = true →
    g.maker intent.id = some i))

/-- The reservation the owner of a step would end is its own. -/
def EndsOwn (g : Reservations) (s : System) (e : Event) : Prop :=
  ∀ i ∈ e.owner, ∀ intent ∈ s.owner? i, heldRow s.db intent.id = true →
    g.live intent.id = some i

/-- The events of requests with an idempotency key, of the sweeper and of the clock. -/
def Event.ofIntents : Event → Bool
  | .tick _ | .openIntent _ _ | .resolveReplay _ | .reclaimIntent _ | .settleIntent _ _ _ _ _
  | .releaseIntent _ | .persistAndSettle _ _ _ | .sweepExpiredIntents _ | .expireIntent _
  | .purgeSettledIntents _ => true
  | _ => false

/-! ### Live rows -/

section HeldRow

variable {s s' : System} {e : Event} {id : String}

theorem heldRow_iff {db : Db} :
    heldRow db id = true ↔ ∃ row ∈ db.intents.rows, row.id = id ∧ row.state = .held := by
  simp [heldRow, IntentRow.matches_iff]

/-- A guarded update that is not about a live row leaves it. -/
theorem heldRow_updateIntents {db : Db} {id' : String} {states : List IntentState}
    {data : IntentUpdate} (h : heldRow db id = true) (hother : id' ≠ id ∨ .held ∉ states) :
    heldRow (db.updateIntents id' states data) id = true := by
  obtain ⟨row, hrow, hid, hstate⟩ := heldRow_iff.1 h
  refine heldRow_iff.2 ⟨row, ?_, hid, hstate⟩
  rw [updateIntents_rows]
  refine List.mem_map.2 ⟨row, hrow, if_neg fun hmatch ↦ ?_⟩
  obtain ⟨hid', hstate'⟩ := IntentRow.matches_iff.1 hmatch
  rcases hother with hother | hother
  · exact hother (hid'.symm.trans hid)
  · exact hother (hstate ▸ hstate')

/-- A row only leaves `held` in a step that closes it. -/
theorem closing_of_left (h : step s e = some s') (hheld : heldRow s.db id = true)
    (hleft : heldRow s'.db id = false) :
    ∃ intent data, closing s e = some (intent, data) ∧ intent.id = id := by
  obtain ⟨db₁, db₂, hrequest, hintent, hmoney⟩ := step_phases h
  have hheld₁ : heldRow db₁ id = true := by
    rw [heldRow, hrequest.frame.2.2]
    exact hheld
  have hleft₂ : heldRow db₂ id = false := by
    rw [heldRow, ← hmoney.frame.2.1]
    exact hleft
  by_contra hnone
  push Not at hnone
  refine absurd (?_ : heldRow db₂ id = true) (by rw [hleft₂]; simp)
  cases hintent with
  | idle => exact hheld₁
  | opened _ _ hopened =>
    obtain ⟨row, hrow, hrest⟩ := heldRow_iff.1 hheld₁
    exact heldRow_iff.2 ⟨row, by rw [hopened.rows]; exact List.mem_append_left _ hrow, hrest⟩
  | reclaimed _ _ hreclaimed =>
    rw [heldRow, hreclaimed.reserved.intents]
    exact heldRow_updateIntents hheld₁ (.inr (by simp))
  | closed hclosing _ hclosed =>
    rw [heldRow, hclosed.released.intents]
    exact heldRow_updateIntents hheld₁ (.inl (hnone _ _ hclosing))
  | purged _ =>
    obtain ⟨row, hrow, hid, hstate⟩ := heldRow_iff.1 hheld₁
    refine heldRow_iff.2 ⟨row, List.mem_filter.2 ⟨hrow, ?_⟩, hid, hstate⟩
    simp [purgeable, hstate]

/-- What a step closes, its owner closes, or the sweeper. -/
theorem owner_of_closing {intent : RequestIntentHandle} {data : IntentUpdate}
    (h : closing s e = some (intent, data)) :
    e.owner = none ∨ ∃ i, e.owner = some i ∧ s.owner? i = some intent := by
  cases e <;> simp only [closing, reduceCtorEq, Option.map_eq_some_iff] at h
  case expireIntent => exact .inl rfl
  case persistAndSettle i _ _ =>
    obtain ⟨owner, howner, heq⟩ := h
    split at heq <;> cases heq <;> exact .inr ⟨i, rfl, howner⟩
  all_goals
    obtain ⟨owner, howner, heq⟩ := h
    cases heq
    exact .inr ⟨_, rfl, howner⟩

end HeldRow

/-! ### Reservations in place -/

/-- What the reservations of a run are, as long as no owner is overtaken: a live one is the
latest, and in place; and the latest is live as long as its row is `held`. -/
structure Kept (g : Reservations) (s : System) : Prop where
  held : ∀ id j, g.live id = some j → heldRow s.db id = true ∧ g.maker id = some j
  live : ∀ id j, heldRow s.db id = true → g.maker id = some j → g.live id = some j

section Kept

variable {g : Reservations} {s s' : System} {e : Event}

theorem kept_none (s : System) : Kept .none s :=
  ⟨fun _ _ h ↦ (by cases h), fun _ _ _ h ↦ (by cases h)⟩

theorem endsOwn_of_kept (hk : Kept g s) (hc : NotOvertaken g s e) : EndsOwn g s e :=
  fun i hi intent hintent hheld ↦ hk.live _ _ hheld (hc i hi intent hintent hheld)

/-- **What one step preserves.** A step that overtakes nobody keeps every reservation in place
that it does not end by right. -/
theorem kept_step (hk : Kept g s) (hc : NotOvertaken g s e) (h : step s e = some s') :
    Kept (g.next s e s') s' := by
  constructor
  · intro id j hlive
    simp only [Reservations.next] at hlive ⊢
    split at hlive
    · -- the reservation was made in this step
      rename_i hmade
      rw [if_pos hmade]
      exact ⟨(Bool.and_eq_true_iff.1 hmade).2, hlive⟩
    · rename_i hmade
      rw [if_neg hmade]
      split at hlive
      · cases hlive
      · rename_i hended
        obtain ⟨hheld, hmaker⟩ := hk.held id j hlive
        refine ⟨?_, hmaker⟩
        -- had it left `held`, it would have been ended by right
        by_contra hleft
        have hleft : heldRow s'.db id = false := by simpa using hleft
        obtain ⟨intent, data, hclosing, rfl⟩ := closing_of_left h hheld hleft
        refine hended ?_
        rw [hheld, hleft]
        rcases owner_of_closing hclosing with hsweeper | ⟨i, hi, howner⟩
        · simp [hsweeper]
        · have hi' := hc i hi intent howner hheld
          rw [hmaker] at hi'
          simp [hi, hlive, hi']
  · intro id j hheld hmaker
    simp only [Reservations.next, hheld, Bool.and_true, Bool.not_true, Bool.and_false,
      Bool.false_and, Bool.false_eq_true, if_false] at hmaker ⊢
    split at hmaker
    · rename_i hmade
      rw [if_pos hmade, hmaker]
    · rename_i hmade
      rw [if_neg hmade]
      exact hk.live id j (by simpa using hmade) hmaker

end Kept

/-! ### Settlements that go through -/

/-- The columns and the ledger have room for the charges still to come: an intent's keys are in
the ledger only when the intent was completed. -/
structure LeavesRoom (s : System) : Prop where
  fits : ∀ k, s.db.balanceOf k < 10 ^ 12
  rows_minted : ∀ row ∈ s.db.intents.rows, row.id ∈ s.minted
  requests_minted : ∀ row ∈ s.db.requests.rows, row.id ∈ s.minted
  settled : ∀ row ∈ s.db.ledger.rows, ∀ id,
    row.idempotencyKey = ledgerKeyForIntent id ∨ row.idempotencyKey = writeOffKeyForIntent id →
      id ∈ s.minted ∧ ∀ a ∈ s.db.intents.rows, a.id = id → a.state = .completed

/-- The step settles the intent of its owner, and the columns hold the amounts it writes, that of a
write-off at its twenty digits. -/
structure Settling (s : System) (e : Event) (i : ℕ) (intent : RequestIntentHandle)
    (entry : ChargeEntry) : Prop where
  owner : e.owner = some i
  call : s.calls[i]? = some (.owner intent)
  charging : charging s e = some entry
  nonneg : 0 ≤ entry.amountUsd
  fits : toMicros (Decimal.minus entry.amountUsd 0) < 10 ^ 12
  /-- What `persistAndSettle` inserts on the way: a row under a fresh uuid, at its cost. -/
  stores : ∀ outcome requestId, persisting e = some (outcome, requestId) → requestId ∉ s.minted ∧
    ∃ cost, outcome.costUsd = .finite cost ∧ (toMicros cost).natAbs < 10 ^ 10

/-- The step charges: before it no row of the ledger has the key, after it one has. -/
def ChargesOnce (s : System) (e : Event) (entry : ChargeEntry) : Prop :=
  (∀ row ∈ s.db.ledger.rows, row.idempotencyKey ≠ entry.idempotencyKey) ∧
    ∃ s', step s e = some s' ∧ s'.db.ledger.rows =
      s.db.ledger.rows ++ entry.rows (ofMicros (s.db.balanceOf entry.apiKeyId))

section Settling

variable {s s' : System} {e : Event} {i : ℕ} {intent : RequestIntentHandle} {entry : ChargeEntry}

/-- The charge of an owner's step settles the intent of the owner. -/
theorem charging_ofIntents (he : e.ofIntents = true) (h : charging s e = some entry) :
    ∃ intent data, closing s e = some (intent, data) ∧ data.state = .completed ∧
      entry.idempotencyKey = ledgerKeyForIntent intent.id ∧
        entry.writeOffKey = writeOffKeyForIntent intent.id := by
  cases chargeOf_of_charging h with
  | settle he' _ | persistedDirect he' _ | reconciled he' _ =>
    subst he'
    cases he
  | settleIntent he' howner _ =>
    subst he'
    exact ⟨_, _, by rw [closing, howner, Option.map_some], rfl, rfl, rfl⟩
  | @persisted _ intent outcome requestId _ he' hreplay howner _ =>
    subst he'
    refine ⟨_, (outcome.settleIntentParams intent requestId).data s.now, ?_, rfl, rfl, rfl⟩
    rw [closing, howner, Option.map_some, hreplay]
    rfl

theorem key_of_mem_rows {current : ℚ} {row : LedgerRow} (h : row ∈ entry.rows current) :
    row.idempotencyKey = entry.idempotencyKey ∨ row.idempotencyKey = entry.writeOffKey := by
  simp only [ChargeEntry.rows] at h
  rcases List.mem_cons.1 h with rfl | h
  · exact .inl rfl
  · split at h
    · obtain rfl := List.mem_singleton.1 h
      exact .inr rfl
    · cases h

/-- A key that belongs to one intent belongs to no other. -/
theorem id_of_key {row : LedgerRow} {a b : String}
    (ha : row.idempotencyKey = ledgerKeyForIntent a ∨ row.idempotencyKey = writeOffKeyForIntent a)
    (hb : row.idempotencyKey = ledgerKeyForIntent b ∨ row.idempotencyKey = writeOffKeyForIntent b) :
    a = b := by
  rcases ha with ha | ha <;> rcases hb with hb | hb <;> rw [ha] at hb
  · exact ledgerKeyForIntent_inj.1 hb
  · exact absurd hb (ledgerKeyForIntent_ne _ _)
  · exact absurd hb.symm (ledgerKeyForIntent_ne _ _)
  · exact writeOffKeyForIntent_inj.1 hb

/-- A balance of the system only falls by what requests do. -/
theorem balanceOf_step_le (he : e.ofIntents = true) (h : step s e = some s') (k : String) :
    s'.db.balanceOf k ≤ s.db.balanceOf k := by
  obtain ⟨db₁, db₂, hrequest, hintent, hmoney⟩ := step_phases h
  have hsame : db₂.balanceOf k = s.db.balanceOf k := by
    rw [hintent.frame.1]
    simp only [Db.balanceOf, Db.balanceRow, hrequest.frame.1]
  rw [← hsame]
  cases hmoney with
  | idle => exact le_refl _
  | posted hposting _ _ _ => cases e <;> cases he <;> cases hposting
  | reversed hreverse _ _ _ =>
    subst hreverse
    cases he
  | @charged entry _ _ hnonneg _ hcharged =>
    by_cases hk : k = entry.apiKeyId
    · subst hk
      have hmoved := hcharged.movement.moved
      have hcovered := coveredBy_nonneg
        (ofMicros_nonneg.2 (Int.natCast_nonneg (db₂.balanceOf entry.apiKeyId))) hnonneg
      have hle : toMicros (ofMicros (db₂.balanceOf entry.apiKeyId) -
          coveredBy (ofMicros (db₂.balanceOf entry.apiKeyId)) entry.amountUsd) ≤
            db₂.balanceOf entry.apiKeyId := by
        rw [← toMicros_ofMicros (db₂.balanceOf entry.apiKeyId)]
        exact toMicros_mono (by rw [toMicros_ofMicros]; linarith)
      omega
    · exact (hcharged.movement.others k hk).le

/-- **What one step preserves.** -/
theorem leavesRoom_step (hs : LeavesRoom s) (he : e.ofIntents = true) (h : step s e = some s') :
    LeavesRoom s' := by
  obtain ⟨hmint, hopen, -⟩ := step_minted h
  have hrows_minted : ∀ row ∈ s'.db.intents.rows, row.id ∈ s'.minted := by
    intro row hrow
    rcases step_rows h hrow with ⟨a, ha, hid, -⟩ | ⟨params, he, -⟩
    · rw [← hid]
      exact hmint _ (hs.rows_minted a ha)
    · exact hopen params _ he
  -- a settled intent stays settled
  have hold : ∀ row ∈ s.db.ledger.rows, ∀ id,
      row.idempotencyKey = ledgerKeyForIntent id ∨ row.idempotencyKey = writeOffKeyForIntent id →
        id ∈ s'.minted ∧ ∀ a ∈ s'.db.intents.rows, a.id = id → a.state = .completed := by
    intro row hrow id hkey
    obtain ⟨hid, hstate⟩ := hs.settled row hrow id hkey
    refine ⟨hmint _ hid, fun a ha haid ↦ ?_⟩
    rcases step_rows h ha with ⟨b, hb, hbid, -, hkept⟩ | ⟨params, -, hfresh⟩
    · exact hkept (hstate b hb (hbid.trans haid))
    · rw [haid] at hfresh
      exact absurd hid hfresh
  refine ⟨fun k ↦ (balanceOf_step_le he h k).trans_lt (hs.fits k), hrows_minted,
    requests_minted_step hs.requests_minted h, fun row hrow id hkey ↦ ?_⟩
  obtain ⟨db₁, db₂, hrequest, hintent, hmoney⟩ := step_phases h
  have hledger : db₂.ledger = s.db.ledger := hintent.frame.2.1.trans hrequest.frame.2.1
  cases hmoney with
  | idle => exact hold row (hledger ▸ hrow) id hkey
  | posted hposting _ _ _ => cases e <;> cases he <;> cases hposting
  | reversed hreverse _ _ _ =>
    subst hreverse
    cases he
  | charged hcharging _ hprepared hcharged =>
    rw [hcharged.movement.rows, hledger] at hrow
    rcases List.mem_append.1 hrow with hrow | hrow
    · exact hold row hrow id hkey
    · -- the intent this step settles
      obtain ⟨intent, data, hclosing, hcompleted, hcharge, hoff⟩ := charging_ofIntents he hcharging
      obtain rfl : intent.id = id := by
        refine id_of_key ?_ hkey
        rw [← hcharge, ← hoff]
        exact key_of_mem_rows hrow
      obtain ⟨live, hlive, hid, -⟩ := hprepared.live intent data hclosing
      refine ⟨hid ▸ hmint _ (hs.rows_minted live hlive), fun a ha haid ↦ ?_⟩
      rw [hcharged.movement.intents] at ha
      rw [← hcompleted]
      exact hprepared.closed intent data hclosing a ha haid

/-- A live intent is settled in a store with room. -/
theorem settleIntentInTx_of_leavesRoom (params : SettleIntentParams) {amountUsd : ℚ} {db : Db}
    (hs : LeavesRoom s) (hheld : heldRow s.db params.intent.id = true)
    (hamount : params.amountUsd = .finite amountUsd) (hnonneg : 0 ≤ amountUsd)
    (hfits : toMicros (Decimal.minus amountUsd 0) < 10 ^ 12) (hbal : db.balances = s.db.balances)
    (hledger : db.ledger = s.db.ledger) (hintents : db.intents = s.db.intents) :
    (∀ row ∈ s.db.ledger.rows, row.idempotencyKey ≠ (params.entry amountUsd).idempotencyKey) ∧
      ∃ db', settleIntentInTx params s.now db = .ok (true, db') ∧
        db'.ledger.rows = s.db.ledger.rows ++
          (params.entry amountUsd).rows (ofMicros (s.db.balanceOf params.intent.apiKeyId)) := by
  obtain ⟨row, hrow, hid, hstate⟩ := heldRow_iff.1 hheld
  have hbalance : db.balanceOf params.intent.apiKeyId = s.db.balanceOf params.intent.apiKeyId := by
    simp only [Db.balanceOf, Db.balanceRow, hbal]
  have hfresh : ∀ entry ∈ s.db.ledger.rows,
      entry.idempotencyKey ≠ ledgerKeyForIntent params.intent.id ∧
        entry.idempotencyKey ≠ writeOffKeyForIntent params.intent.id := by
    intro entry hentry
    have hopen : ¬ (entry.idempotencyKey = ledgerKeyForIntent params.intent.id ∨
        entry.idempotencyKey = writeOffKeyForIntent params.intent.id) := by
      intro hkey
      have hcompleted := (hs.settled entry hentry _ hkey).2 row hrow hid
      rw [hstate] at hcompleted
      cases hcompleted
    exact not_or.1 hopen
  obtain ⟨db', hsettle⟩ := settleIntentInTx_of_held s.now hamount hnonneg hfits
    (hintents ▸ hrow) hid hstate (by rw [hbalance]; exact hs.fits _) (by rw [hledger]; exact hfresh)
  refine ⟨fun entry hentry ↦ (hfresh entry hentry).1, db', hsettle, ?_⟩
  rcases settleIntentInTx_ok hsettle with ⟨hfalse, -⟩ | ⟨-, a, q, db₁, hq, -, hclosed, hcharged⟩
  · cases hfalse
  · rw [hamount] at hq
    cases hq
    have hrows := hcharged.movement.rows
    have hbalance₁ : db₁.balanceOf params.intent.apiKeyId =
        s.db.balanceOf params.intent.apiKeyId := by
      rw [hclosed.released.balance]
      exact hbalance
    rw [hclosed.released.ledger, ledger_updateIntents, hledger] at hrows
    simp only [SettleIntentParams.entry, hbalance₁] at hrows ⊢
    exact hrows

/-- A settlement of a live intent charges, once. -/
theorem chargesOnce_of_held (hs : LeavesRoom s) (hheld : heldRow s.db intent.id = true)
    (h : Settling s e i intent entry) : ChargesOnce s e entry := by
  have howner := owner?_of_getElem? h.call
  -- these charge without an intent
  cases chargeOf_of_charging h.charging with
  | settle he _ | persistedDirect he _ | reconciled he _ =>
    have hnone := h.owner
    subst he
    cases hnone
  | @settleIntent j intent' amountUsd requestId response reason q he howner' hq =>
    have hi := h.owner
    subst he
    cases hi
    rw [howner] at howner'
    cases howner'
    obtain ⟨hfresh, db', hsettle, hrows⟩ := settleIntentInTx_of_leavesRoom
      { intent, amountUsd, requestId, response, reason } hs hheld hq h.nonneg h.fits
      rfl rfl rfl
    refine ⟨hfresh, s.resume i .done db', ?_, hrows⟩
    simp only [step, h.call, settleIntent, Atomic.run, hsettle, absorbDuplicate,
      System.afterSettle]
  | @persisted j intent' outcome requestId q he hreplay howner' hq =>
    have hi := h.owner
    have hstores := h.stores
    subst he
    cases hi
    rw [howner] at howner'
    cases howner'
    obtain ⟨hminted, cost, hcost, hcostFits⟩ := hstores _ _ rfl
    have hbind : bindDecimal outcome.costUsd = .ok cost := by
      rw [hcost]
      rfl
    have hstore : storeDecimal 10 cost = .ok (toMicros cost) := if_pos hcostFits
    obtain ⟨db₁, hcreate⟩ := requestCreate_of_fresh
      (outcome.requestRow requestId (toMicros cost) s.now) s.db
      fun a ha (heq : a.id = requestId) ↦ hminted (heq ▸ hs.requests_minted a ha)
    have hcreated := requestCreate_ok hcreate
    obtain ⟨hfresh, db', hsettle, hrows⟩ := settleIntentInTx_of_leavesRoom
      (outcome.settleIntentParams intent requestId) hs hheld hq h.nonneg h.fits
      hcreated.balances hcreated.ledger hcreated.intents
    have hspend : settleSpend outcome (some intent) requestId s.now db₁ = .ok (true, db') := by
      rw [← hsettle]
      simp only [settleSpend, hreplay, Bool.not_true, Bool.false_eq_true, if_false]
    have hpersist : persistAndSettleInTx outcome (some intent) requestId s.now s.db =
        .ok ((), db') := by
      rw [persistAndSettleInTx, bind_of_ok (ofExcept_of_ok hbind),
        bind_of_ok (ofExcept_of_ok hstore), bind_of_ok hcreate, bind_of_ok hspend]
      rfl
    refine ⟨hfresh, (s.resume i .done db').mint requestId, ?_, hrows⟩
    simp only [step, if_neg hminted, h.call, persistAndSettle, Atomic.run, hpersist,
      System.afterSettle]

end Settling

/-! ### Runs -/

/-- The reservations after a history. -/
def reservations (h : List (System × Event)) : Reservations :=
  History.track step Reservations.next .none h

/-- Fencing, after the history `h` and in the state `s` it leads to. -/
structure Fenced (h : List (System × Event)) (s : System) : Prop where
  /-- No owner has ended a reservation that was not its own. -/
  endsOwn : History.Meets step Reservations.next EndsOwn .none h
  /-- What was not ended by right is in place. -/
  held : ∀ id j, (reservations h).live id = some j → heldRow s.db id = true
  /-- A settlement under a live reservation is charged, once. -/
  charged : ∀ e i intent entry, Settling s e i intent entry →
    (reservations h).live intent.id = some i → ChargesOnce s e entry

/-- **Fencing over runs.** In every run of any number of requests and sweeps, from any store with
room for their charges and with any interleaving, in which no owner ends a reservation after
another request has taken its row back, every owner ends only its own, reservations stay in place
until they are ended by right, and every settlement under a live one is charged exactly once. -/
theorem fenced_of_run {db₀ : Db} {s : System} {h : List (System × Event)}
    (hroom : LeavesRoom (System.init db₀)) (hr : Run step (System.init db₀) h s)
    (hevents : ∀ p ∈ h, p.2.ofIntents = true)
    (hown : History.Meets step Reservations.next NotOvertaken .none h) : Fenced h s := by
  have hkept : Kept (reservations h) s :=
    History.invariant (P := Kept) (kept_none _) (fun hk hc hs ↦ kept_step hk hc hs) hr hown
  have hleaves : LeavesRoom s :=
    Run.invariant_of_forall (P := LeavesRoom) (c := fun _ e ↦ e.ofIntents = true) hroom
      (fun hp he hs ↦ leavesRoom_step hp he hs) hr hevents
  refine ⟨?_, fun id j hlive ↦ (hkept.held id j hlive).1, fun e i intent entry hsettle hlive ↦ ?_⟩
  · exact History.meets_of_invariant (P := Kept) (kept_none _)
      (fun hk hc hs ↦ kept_step hk hc hs) (fun hk hc ↦ endsOwn_of_kept hk hc) hr hown
  · exact chargesOnce_of_held hleaves (hkept.held _ _ hlive).1 hsettle

/-- A store in which the key has been credited 10 USD. -/
def fundedStore : Db :=
  (credit { apiKeyId := "key", amountUsd := .finite 10, idempotencyKey := "top-up" } .empty).2

theorem leavesRoom_fundedStore : LeavesRoom (System.init fundedStore) := by
  have hledger : fundedStore.ledger.rows =
      [⟨"key", 10000000, "manual-credit", .credit, "top-up",
        none, none, none, none, none, none⟩] := by
    decide +kernel
  have hrequests : fundedStore.requests.rows = [] := by decide +kernel
  have hintents : fundedStore.intents.rows = [] := by decide +kernel
  refine ⟨fun k ↦ ?_, fun row hrow ↦ ?_, requests_minted_init _, fun row hrow id hkey ↦ ?_⟩
  · have hempty : Db.empty.balanceOf k = 0 := rfl
    rcases credit_postsCredit _ _ with hsame | ⟨entry, -, hamount, -, -, hposted⟩
    · rw [System.init, fundedStore, hsame, hempty]
      norm_num
    · by_cases hk : k = entry.apiKeyId
      · have hmoved := hposted.movement.moved
        rw [← hk, hempty, ← Decimal.finite.inj hamount] at hmoved
        have hten : toMicros (ofMicros ((0 : ℕ) : ℤ) + 10) = 10000000 := by decide +kernel
        rw [hten] at hmoved
        have hbalance : fundedStore.balanceOf k = 10000000 := by exact_mod_cast hmoved
        rw [System.init, hbalance]
        norm_num
      · rw [System.init, fundedStore, hposted.movement.others k hk, hempty]
        norm_num
  · rw [System.init, hintents] at hrow
    cases hrow
  · rw [System.init, hledger] at hrow
    obtain rfl := List.mem_singleton.1 hrow
    rcases hkey with hkey | hkey <;>
      · have hlist := congrArg String.toList hkey
        simp [ledgerKeyForIntent, writeOffKeyForIntent] at hlist

/-- A first owner is swept and then settles late: its settlement finds the row already settled by
the second. -/
theorem fenced_of_run_swept : ∃ (s : System) (h : List (System × Event)),
    Run step (System.init fundedStore) h s ∧ (reservations h).maker "i1" = some 2 ∧
      Fenced h s := by
  obtain ⟨h, s, hr, hcheck⟩ := Run.exists_of_check step (System.init fundedStore)
    [.openIntent ⟨"key", "k", true, "body", .finite 1, some 0⟩ "i1", .tick 1,
      .sweepExpiredIntents 500, .expireIntent 1,
      .openIntent ⟨"key", "k", true, "body", .finite 2, none⟩ "i2", .resolveReplay 2,
      .reclaimIntent 2, .settleIntent 2 (.finite 1) none none none,
      .settleIntent 0 (.finite 1) none none none]
    (fun h _ ↦ decide ((∀ p ∈ h, p.2.ofIntents = true) ∧
      History.Meets step Reservations.next NotOvertaken .none h ∧
        (reservations h).maker "i1" = some 2)) (by decide +kernel)
  obtain ⟨hevents, hown, hmaker⟩ := of_decide_eq_true hcheck
  exact ⟨s, h, hr, hmaker, fenced_of_run leavesRoom_fundedStore hr hevents hown⟩

/-- Owners are not fenced in every run: here the late settlement of the first owner ends the
reservation of the second request. -/
theorem not_fenced :
    ¬ ∀ (s : System) (h : List (System × Event)), Run step (System.init fundedStore) h s →
      (∀ p ∈ h, p.2.ofIntents = true) → Fenced h s := by
  intro hall
  obtain ⟨h, s, hr, hcheck⟩ := Run.exists_of_check step (System.init fundedStore)
    [.openIntent ⟨"key", "k", true, "body", .finite 1, some 0⟩ "i1", .tick 1,
      .sweepExpiredIntents 500, .expireIntent 1,
      .openIntent ⟨"key", "k", true, "body", .finite 2, none⟩ "i2", .resolveReplay 2,
      .reclaimIntent 2, .settleIntent 0 (.finite 1) none none none]
    (fun h s ↦ decide ((∀ p ∈ h, p.2.ofIntents = true) ∧
      (reservations h).live "i1" = some 2 ∧ heldRow s.db "i1" = false)) (by decide +kernel)
  obtain ⟨hevents, hlive, hleft⟩ := of_decide_eq_true hcheck
  have hheld := (hall s h hr hevents).held "i1" 2 hlive
  rw [hleft] at hheld
  cases hheld

end ModelConnector
