import ModelConnector.Billing.Intent

/-!
# What the intent transactions do

Every guarded update of an intent either finds the one row it is keyed on in the state it
expects, or finds nothing and leaves the store alone; `updateIntents_cases` says so once for all
of them. On top of it each transaction gets its inversion: the row it moved, and what happened to
the reservation and to the balance.
-/

namespace ModelConnector.Billing

open Atomic

/-! ### The guarded update -/

theorem IntentRow.matches_iff {id : String} {states : List IntentState} {row : IntentRow} :
    row.matches id states = true ↔ row.id = id ∧ row.state ∈ states := by
  simp [IntentRow.matches]

theorem IntentRow.clash_self (row : IntentRow) : row.clash row = true := by
  simp [IntentRow.clash]

theorem IntentRow.clash_comm (a b : IntentRow) : a.clash b = b.clash a := by
  simp only [IntentRow.clash, Bool.beq_comm (a := a.id), Bool.beq_comm (a := a.apiKeyId),
    Bool.beq_comm (a := a.intentKey)]

/-- An intent is determined by its id. -/
theorem intent_eq_of_id {db : Db} {a b : IntentRow} (ha : a ∈ db.intents.rows)
    (hb : b ∈ db.intents.rows) (h : a.id = b.id) : a = b :=
  Table.eq_of_clash IntentRow.clash_comm ha hb (by simp [IntentRow.clash, h])

/-- An intent is determined by its owner and its key. -/
theorem intent_eq_of_key {db : Db} {a b : IntentRow} (ha : a ∈ db.intents.rows)
    (hb : b ∈ db.intents.rows) (h : a.apiKeyId = b.apiKeyId) (h' : a.intentKey = b.intentKey) :
    a = b :=
  Table.eq_of_clash IntentRow.clash_comm ha hb (by simp [IntentRow.clash, h, h'])

/-- The guarded update moves the one row it is keyed on, or none at all. -/
theorem updateIntents_cases (db : Db) (id : String) (states : List IntentState)
    (data : IntentUpdate) :
    (db.intents.count (IntentRow.matches id states) = 1 ∧
        ∃ row ∈ db.intents.rows, row.id = id ∧ row.state ∈ states) ∨
      (db.intents.count (IntentRow.matches id states) = 0 ∧
        db.updateIntents id states data = db ∧
          ∀ row ∈ db.intents.rows, row.id = id → row.state ∉ states) := by
  by_cases h : ∃ row ∈ db.intents.rows, row.id = id ∧ row.state ∈ states
  · obtain ⟨row, hrow, hid, hstate⟩ := h
    refine .inl ⟨?_, row, hrow, hid, hstate⟩
    refine Table.count_eq_one IntentRow.clash_self hrow fun a ha ↦ ?_
    rw [IntentRow.matches_iff]
    constructor
    · rintro ⟨haid, -⟩
      exact intent_eq_of_id ha hrow (haid.trans hid.symm)
    · rintro rfl
      exact ⟨hid, hstate⟩
  · push Not at h
    have hcount : db.intents.count (IntentRow.matches id states) = 0 := by
      refine List.countP_eq_zero.2 fun row hrow hmatch ↦ ?_
      obtain ⟨hid, hstate⟩ := IntentRow.matches_iff.1 hmatch
      exact h row hrow hid hstate
    refine .inr ⟨hcount, ?_, h⟩
    unfold Db.updateIntents
    rw [Table.updateMany_of_count_eq_zero hcount]

/-- The rows after a guarded update. -/
theorem updateIntents_rows (db : Db) (id : String) (states : List IntentState)
    (data : IntentUpdate) :
    (db.updateIntents id states data).intents.rows =
      db.intents.rows.map fun row ↦ if row.matches id states then data.apply row else row :=
  rfl

/-- What a guarded update does to the sum of the live holds: the row it moves leaves the sum with
the hold it had and enters it with the hold it gets. -/
theorem heldSum_updateIntents {db : Db} {id : String} (states : List IntentState)
    (data : IntentUpdate) {row : IntentRow} (hrow : row ∈ db.intents.rows) (hid : row.id = id)
    (hstate : row.state ∈ states) (k : String) :
    (db.updateIntents id states data).heldSum k = db.heldSum k -
      (if row.apiKeyId = k ∧ row.state = .held then (row.holdUsd : ℤ) else 0) +
      (if row.apiKeyId = k ∧ data.state = .held then ((data.apply row).holdUsd : ℤ) else 0) := by
  unfold Db.heldSum Db.updateIntents
  rw [Table.sumWhere_updateMany _ IntentRow.clash_self hrow]
  · simp [IntentUpdate.apply]
  · intro a ha
    rw [IntentRow.matches_iff]
    constructor
    · rintro ⟨haid, -⟩
      exact intent_eq_of_id ha hrow (haid.trans hid.symm)
    · rintro rfl
      exact ⟨hid, hstate⟩

/-! ### Reservations -/

/-- The reservation of a key grew by `hold` micro-dollars, which its balance covers; nothing else
changed. -/
structure Reserved (apiKeyId : String) (hold : ℕ) (db db' : Db) : Prop where
  held : ∀ k, db'.heldOf k = if k = apiKeyId then db.heldOf k + hold else db.heldOf k
  covered : 0 < hold → db.heldOf apiKeyId + hold ≤ db.balanceOf apiKeyId
  balance : ∀ k, db'.balanceOf k = db.balanceOf k
  ledger : db'.ledger = db.ledger
  intents : db'.intents = db.intents
  requests : db'.requests = db.requests

/-- The reservation of the handle's key shrank by the hold of the handle, as far as there was
something to give back; nothing else changed. -/
structure HoldReleased (intent : RequestIntentHandle) (db db' : Db) : Prop where
  held : ∀ k, db'.heldOf k =
    if k = intent.apiKeyId then db.heldOf k - intent.holdMicros else db.heldOf k
  balance : ∀ k, db'.balanceOf k = db.balanceOf k
  ledger : db'.ledger = db.ledger
  intents : db'.intents = db.intents
  requests : db'.requests = db.requests

/-- Setting a key's reservation and not its balance. -/
private theorem BalanceSet.held {apiKeyId : String} {heldUsd : ℕ} {db db' : Db}
    (h : BalanceSet apiKeyId ⟨db.balanceOf apiKeyId, heldUsd⟩ db db') :
    (∀ k, db'.heldOf k = if k = apiKeyId then heldUsd else db.heldOf k) ∧
      ∀ k, db'.balanceOf k = db.balanceOf k := by
  constructor
  · intro k
    simp only [Db.heldOf, h.row]
    split <;> rfl
  · intro k
    simp only [Db.balanceOf, h.row]
    split
    · rename_i hk
      rw [hk]
    · rfl

theorem toMicros_toNat_of_nonpos {q : ℚ} (h : q ≤ 0) : (toMicros q).toNat = 0 := by
  have hle := toMicros_mono h
  rw [toMicros_zero] at hle
  exact Int.toNat_eq_zero.2 hle

theorem reserveInTx_ok {apiKeyId : String} {hold : ℚ} {db db' : Db} {u : Unit}
    (h : reserveInTx apiKeyId hold db = .ok (u, db')) :
    Reserved apiKeyId (toMicros hold).toNat db db' := by
  unfold reserveInTx at h
  by_cases hpos : 0 < hold
  · simp only [if_pos hpos, bind_eq_ok_iff, require_eq_ok_iff] at h
    obtain ⟨moved, _, hmove, hmoved, rfl⟩ := h
    obtain ⟨hfits, hset⟩ := creditsBalanceReserve_ok hmove (by simpa using hmoved)
    obtain ⟨hheld, hbalance⟩ := hset.held
    refine ⟨fun k ↦ ?_, fun _ ↦ hfits, hbalance, hset.ledger, hset.intents, hset.requests⟩
    rw [hheld]
    split
    · rename_i hk
      rw [hk]
    · rfl
  · rw [if_neg hpos] at h
    obtain ⟨-, rfl⟩ := pure_eq_ok_iff.1 h
    rw [toMicros_toNat_of_nonpos (not_lt.1 hpos)]
    exact ⟨fun k ↦ by simp, fun h ↦ absurd h (lt_irrefl 0), fun _ ↦ rfl, rfl, rfl, rfl⟩

theorem releaseHoldInTx_ok {intent : RequestIntentHandle} {db db' : Db} {u : Unit}
    (h : releaseHoldInTx intent db = .ok (u, db')) : HoldReleased intent db db' := by
  unfold releaseHoldInTx at h
  by_cases hpos : 0 < intent.holdUsd
  · rw [if_pos hpos] at h
    have hset := creditsBalanceRelease_ok h
    obtain ⟨hheld, hbalance⟩ := hset.held
    refine ⟨fun k ↦ ?_, hbalance, hset.ledger, hset.intents, hset.requests⟩
    rw [hheld]
    split
    · rename_i hk
      rw [hk]
    · rfl
  · rw [if_neg hpos] at h
    obtain ⟨-, rfl⟩ := pure_eq_ok_iff.1 h
    have hzero : intent.holdMicros = 0 := toMicros_toNat_of_nonpos (not_lt.1 hpos)
    exact ⟨fun k ↦ by simp [hzero], fun _ ↦ rfl, rfl, rfl, rfl⟩

/-! ### Opening and reclaiming -/

@[simp]
theorem heldOf_updateIntents (db : Db) (id : String) (states : List IntentState)
    (data : IntentUpdate) (k : String) : (db.updateIntents id states data).heldOf k = db.heldOf k :=
  rfl

@[simp]
theorem balanceOf_updateIntents (db : Db) (id : String) (states : List IntentState)
    (data : IntentUpdate) (k : String) :
    (db.updateIntents id states data).balanceOf k = db.balanceOf k :=
  rfl

@[simp]
theorem ledger_updateIntents (db : Db) (id : String) (states : List IntentState)
    (data : IntentUpdate) : (db.updateIntents id states data).ledger = db.ledger :=
  rfl

@[simp]
theorem requests_updateIntents (db : Db) (id : String) (states : List IntentState)
    (data : IntentUpdate) : (db.updateIntents id states data).requests = db.requests :=
  rfl

/-- The hold was stored and reserved for a freshly inserted row. -/
structure IntentOpened (row : IntentRow) (db db' : Db) : Prop where
  rows : db'.intents.rows = db.intents.rows ++ [row]
  fresh : ∀ a ∈ db.intents.rows, a.clash row = false
  held : ∀ k, db'.heldOf k = if k = row.apiKeyId then db.heldOf k + row.holdUsd else db.heldOf k
  covered : 0 < row.holdUsd → db.heldOf row.apiKeyId + row.holdUsd ≤ db.balanceOf row.apiKeyId
  balance : ∀ k, db'.balanceOf k = db.balanceOf k
  ledger : db'.ledger = db.ledger
  requests : db'.requests = db.requests

/-- An insertion that clashes with a row is refused. -/
theorem requestIntentCreate_clash {row a : IntentRow} {db : Db} (ha : a ∈ db.intents.rows)
    (hclash : a.clash row = true) : requestIntentCreate row db = .error .duplicateKey := by
  have hnone : db.intents.insert? row = none := Table.insert?_eq_none_iff.2 ⟨a, ha, hclash⟩
  have hread : (read Db.intents : Tx _) db = .ok (db.intents, db) := rfl
  rw [requestIntentCreate, bind_of_ok hread, hnone]
  rfl

theorem openIntentInTx_ok {params : OpenIntentParams} {id : String} {now expiresAt : ℤ}
    {intent : RequestIntentHandle} {db db' : Db}
    (h : openIntentInTx params id now expiresAt db = .ok (intent, db')) :
    ∃ (hold : ℚ) (holdUsd : ℕ), params.holdUsd = .finite hold ∧ (holdUsd : ℤ) = toMicros hold ∧
      intent = { id, apiKeyId := params.apiKeyId, intentKey := params.intentKey,
                 holdUsd := ofMicros holdUsd } ∧
      IntentOpened (params.row id holdUsd now expiresAt) db db' := by
  simp only [openIntentInTx, requestIntentCreate, bind_eq_ok_iff, require_eq_ok_iff,
    ofExcept_eq_ok_iff, read_eq_ok_iff] at h
  obtain ⟨_, _, ⟨-, rfl⟩, hold, _, ⟨hbind, rfl⟩, holdUsd, _, ⟨hstore, rfl⟩, _, db₁,
    ⟨_, _, ⟨rfl, rfl⟩, hinsert⟩, _, db₂, hreserve, hpure⟩ := h
  obtain ⟨rfl, rfl⟩ := pure_eq_ok_iff.1 hpure
  have hmicros := storeNonneg_eq_ok hstore
  refine ⟨hold, holdUsd, bindDecimal_eq_ok hbind, hmicros, rfl, ?_⟩
  have hreserved := reserveInTx_ok hreserve
  rw [← hmicros, Int.toNat_natCast] at hreserved
  cases hrow : db.intents.insert? (params.row id holdUsd now expiresAt) with
  | none =>
    rw [hrow] at hinsert
    simp at hinsert
  | some intents =>
    obtain ⟨hfresh, hrows⟩ := Table.insert?_eq_some_iff.1 hrow
    simp only [hrow, modify_eq_ok_iff] at hinsert
    subst hinsert
    exact ⟨by rw [hreserved.intents, hrows], hfresh, hreserved.held, hreserved.covered,
      hreserved.balance, hreserved.ledger, hreserved.requests⟩

/-- An abandoned row was taken back, and the new hold reserved. -/
structure IntentReclaimed (intentId apiKeyId : String) (holdUsd : ℕ) (expiresAt : ℤ) (row : IntentRow)
    (db db' : Db) : Prop where
  mem : row ∈ db.intents.rows
  id : row.id = intentId
  state : row.state ∈ [IntentState.released, .expired]
  reserved : Reserved apiKeyId holdUsd
    (db.updateIntents intentId [.released, .expired] (reclaimData holdUsd expiresAt)) db'

theorem reclaimIntentInTx_ok {intentId apiKeyId : String} {hold : ℚ} {expiresAt : ℤ} {ok : Bool}
    {db db' : Db} (h : reclaimIntentInTx intentId apiKeyId hold expiresAt db = .ok (ok, db')) :
    (ok = false ∧ db = db') ∨
      (ok = true ∧ ∃ (holdUsd : ℕ) (row : IntentRow), (holdUsd : ℤ) = toMicros hold ∧
        IntentReclaimed intentId apiKeyId holdUsd expiresAt row db db') := by
  simp only [reclaimIntentInTx, bind_eq_ok_iff, ofExcept_eq_ok_iff] at h
  obtain ⟨holdUsd, _, ⟨hstore, rfl⟩, count, db₁, hupdate, h⟩ := h
  obtain ⟨rfl, rfl⟩ := requestIntentUpdateMany_ok hupdate
  have hmicros := storeNonneg_eq_ok hstore
  rcases updateIntents_cases db intentId [.released, .expired] (reclaimData holdUsd expiresAt) with
    ⟨hone, row, hrow, hid, hstate⟩ | ⟨hzero, hsame, -⟩
  · rw [if_neg (by rw [hone]; simp)] at h
    simp only [bind_eq_ok_iff, pure_eq_ok_iff] at h
    obtain ⟨_, _, hreserve, rfl, rfl⟩ := h
    have hreserved := reserveInTx_ok hreserve
    rw [← hmicros, Int.toNat_natCast] at hreserved
    exact .inr ⟨rfl, holdUsd, row, hmicros, hrow, hid, hstate, hreserved⟩
  · rw [if_pos (by rw [hzero]; simp), hsame] at h
    obtain ⟨rfl, rfl⟩ := pure_eq_ok_iff.1 h
    exact .inl ⟨rfl, rfl⟩

/-! ### Settling and releasing -/

/-- The intent had already left `held`: nothing happened. -/
def NotHeld (intentId : String) (db : Db) : Prop :=
  ∀ row ∈ db.intents.rows, row.id = intentId → row.state ≠ .held

/-- The live row of an intent was completed or released, and the handle's hold given back. -/
structure IntentClosed (intent : RequestIntentHandle) (data : IntentUpdate) (row : IntentRow)
    (db db' : Db) : Prop where
  mem : row ∈ db.intents.rows
  id : row.id = intent.id
  state : row.state = .held
  released : HoldReleased intent (db.updateIntents intent.id [.held] data) db'

/-- The row is left in the state of the update. -/
theorem IntentClosed.state_eq {intent : RequestIntentHandle} {data : IntentUpdate}
    {row a : IntentRow} {db db' : Db} (h : IntentClosed intent data row db db')
    (ha : a ∈ db'.intents.rows) (hid : a.id = intent.id) : a.state = data.state := by
  rw [h.released.intents, updateIntents_rows] at ha
  obtain ⟨b, hb, rfl⟩ := List.mem_map.1 ha
  have hbid : b.id = intent.id := by
    split at hid <;> exact hid
  obtain rfl := intent_eq_of_id hb h.mem (hbid.trans h.id.symm)
  rw [if_pos (IntentRow.matches_iff.2 ⟨hbid, by simp [h.state]⟩)]
  rfl

theorem settleIntentInTx_ok {params : SettleIntentParams} {now : ℤ} {ok : Bool} {db db' : Db}
    (h : settleIntentInTx params now db = .ok (ok, db')) :
    (ok = false ∧ db = db' ∧ NotHeld params.intent.id db) ∨
      (ok = true ∧ ∃ (row : IntentRow) (amountUsd : ℚ) (db₁ : Db),
        params.amountUsd = .finite amountUsd ∧ 0 ≤ amountUsd ∧
          IntentClosed params.intent (params.data now) row db db₁ ∧
            Charged (params.entry amountUsd) db₁ db') := by
  simp only [settleIntentInTx, bind_eq_ok_iff, require_eq_ok_iff] at h
  obtain ⟨_, _, ⟨hsign, rfl⟩, count, db₁, hupdate, h⟩ := h
  obtain ⟨rfl, rfl⟩ := requestIntentUpdateMany_ok hupdate
  rcases updateIntents_cases db params.intent.id [.held] (params.data now) with
    ⟨hone, row, hrow, hid, hstate⟩ | ⟨hzero, hsame, hnot⟩
  · rw [if_neg (by rw [hone]; simp)] at h
    simp only [bind_eq_ok_iff, ofExcept_eq_ok_iff] at h
    obtain ⟨_, db₂, hrelease, amountUsd, _, ⟨hbind, rfl⟩, hcharge⟩ := h
    have hfin := bindDecimal_eq_ok hbind
    have hnonneg : 0 ≤ amountUsd := by
      rw [hfin] at hsign
      simpa [Decimal.isNegative] using hsign
    obtain ⟨hok, hcharged⟩ := chargeInTx_ok (params.entry amountUsd) hnonneg hcharge
    exact .inr ⟨hok, row, amountUsd, db₂, hfin, hnonneg,
      ⟨hrow, hid, by simpa using hstate, releaseHoldInTx_ok hrelease⟩, hcharged⟩
  · rw [if_pos (by rw [hzero]; simp), hsame] at h
    obtain ⟨rfl, rfl⟩ := pure_eq_ok_iff.1 h
    exact .inl ⟨rfl, rfl, fun row hrow hid ↦ by simpa using hnot row hrow hid⟩

theorem releaseTo_ok {state : IntentState} {intent : RequestIntentHandle} {now : ℤ} {ok : Bool}
    {db db' : Db} (h : releaseTo state intent now db = .ok (ok, db')) :
    (ok = false ∧ db = db' ∧ NotHeld intent.id db) ∨
      (ok = true ∧ ∃ row, IntentClosed intent (releaseData state now) row db db') := by
  simp only [releaseTo, bind_eq_ok_iff] at h
  obtain ⟨count, db₁, hupdate, h⟩ := h
  obtain ⟨rfl, rfl⟩ := requestIntentUpdateMany_ok hupdate
  rcases updateIntents_cases db intent.id [.held] (releaseData state now) with
    ⟨hone, row, hrow, hid, hstate⟩ | ⟨hzero, hsame, hnot⟩
  · rw [if_neg (by rw [hone]; simp)] at h
    simp only [bind_eq_ok_iff, pure_eq_ok_iff] at h
    obtain ⟨_, _, hrelease, rfl, rfl⟩ := h
    exact .inr ⟨rfl, row, hrow, hid, by simpa using hstate, releaseHoldInTx_ok hrelease⟩
  · rw [if_pos (by rw [hzero]; simp), hsame] at h
    obtain ⟨rfl, rfl⟩ := pure_eq_ok_iff.1 h
    exact .inl ⟨rfl, rfl, fun row hrow hid ↦ by simpa using hnot row hrow hid⟩

/-! ### When a settlement goes through -/

theorem releaseHoldInTx_total (intent : RequestIntentHandle) (db : Db) :
    ∃ db', releaseHoldInTx intent db = .ok ((), db') := by
  unfold releaseHoldInTx
  split
  · have hread : (read fun db ↦ db.balances intent.apiKeyId : Tx _) db =
        .ok (db.balances intent.apiKeyId, db) := rfl
    rw [creditsBalanceRelease, bind_of_ok hread]
    cases db.balances intent.apiKeyId with
    | none => exact ⟨db, rfl⟩
    | some row => exact ⟨_, rfl⟩
  · exact ⟨db, rfl⟩

theorem ledgerKeyForIntent_inj {a b : String} :
    ledgerKeyForIntent a = ledgerKeyForIntent b ↔ a = b := by
  simp [ledgerKeyForIntent]

theorem writeOffKeyForIntent_inj {a b : String} :
    writeOffKeyForIntent a = writeOffKeyForIntent b ↔ a = b := by
  simp [writeOffKeyForIntent]

/-- The charge and the write-off of intents never share a key. -/
theorem ledgerKeyForIntent_ne (a b : String) : ledgerKeyForIntent a ≠ writeOffKeyForIntent b := by
  intro h
  have hlist := congrArg String.toList h
  simp [ledgerKeyForIntent, writeOffKeyForIntent] at hlist

/-- A live intent is settled, for an amount that fits its column, when no row of the ledger has
its keys. -/
theorem settleIntentInTx_of_held {params : SettleIntentParams} (now : ℤ) {amountUsd : ℚ}
    {row : IntentRow} {db : Db} (hamount : params.amountUsd = .finite amountUsd)
    (hnonneg : 0 ≤ amountUsd) (hfits : toMicros (Decimal.minus amountUsd 0) < 10 ^ 12)
    (hrow : row ∈ db.intents.rows) (hid : row.id = params.intent.id) (hstate : row.state = .held)
    (hbalance : db.balanceOf params.intent.apiKeyId < 10 ^ 12)
    (hfresh : ∀ row ∈ db.ledger.rows,
      row.idempotencyKey ≠ ledgerKeyForIntent params.intent.id ∧
        row.idempotencyKey ≠ writeOffKeyForIntent params.intent.id) :
    ∃ db', settleIntentInTx params now db = .ok (true, db') := by
  have hsign : (!params.amountUsd.isNegative) = true := by
    rw [hamount]
    simpa [Decimal.isNegative] using hnonneg
  have hone : db.intents.count (IntentRow.matches params.intent.id [.held]) = 1 := by
    rcases updateIntents_cases db params.intent.id [.held] (params.data now) with
      ⟨hone, -⟩ | ⟨-, -, hnot⟩
    · exact hone
    · exact absurd (by simp [hstate]) (hnot row hrow hid)
  have hupdate : requestIntentUpdateMany params.intent.id [.held] (params.data now) db =
      .ok (1, db.updateIntents params.intent.id [.held] (params.data now)) := by
    rw [← hone]
    rfl
  obtain ⟨db₁, hrelease⟩ := releaseHoldInTx_total params.intent
    (db.updateIntents params.intent.id [.held] (params.data now))
  have hreleased := releaseHoldInTx_ok hrelease
  obtain ⟨db', hcharge⟩ := chargeInTx_of_fresh (params.entry amountUsd) db₁ hnonneg
    hfits (by rw [hreleased.balance]; exact hbalance) (ledgerKeyForIntent_ne _ _)
    (by rw [hreleased.ledger]; exact hfresh)
  have hbind : bindDecimal params.amountUsd = .ok amountUsd := by
    rw [hamount]
    rfl
  refine ⟨db', ?_⟩
  rw [settleIntentInTx, bind_of_ok (require_of_true hsign), bind_of_ok hupdate,
    if_neg (by simp), bind_of_ok hrelease, bind_of_ok (ofExcept_of_ok hbind), hcharge]

end ModelConnector.Billing
