import ModelConnector.System

/-!
# What a step does to the store

Every step of the system is, as far as the store is concerned, at most three things in a row: a
`Request` row is inserted, an intent is moved, and money is moved. `step_phases` says so, once for
all events, and each phase frames what it does not touch: the first moves neither intents nor
money, the second moves reservations and no balance or ledger row, the third moves balances and
ledger rows and no reservation. An invariant is then proved phase by phase.
-/

namespace ModelConnector

open Atomic Billing Connectors

/-! ### What an event is about -/

/-- The number of a finite decimal. -/
def finite? : Decimal → Option ℚ
  | .finite q => some q
  | _ => none

/-- The handle an owner's call carries. -/
def System.owner? (s : System) (i : ℕ) : Option RequestIntentHandle :=
  match s.calls[i]? with
  | some (.owner intent) => some intent
  | _ => none

/-- The handle a step closes an intent with, and the update it closes it by. -/
def closing (s : System) : Event → Option (RequestIntentHandle × IntentUpdate)
  | .settleIntent i amountUsd requestId response reason =>
    (s.owner? i).map fun intent ↦
      (intent, SettleIntentParams.data { intent, amountUsd, requestId, response, reason } s.now)
  | .releaseIntent i => (s.owner? i).map fun intent ↦ (intent, releaseData .released s.now)
  | .persistAndSettle i outcome requestId =>
    (s.owner? i).map fun intent ↦
      if !outcome.replayable then (intent, releaseData .released s.now)
      else (intent, (outcome.settleIntentParams intent requestId).data s.now)
  | .expireIntent i =>
    match s.calls[i]? with
    | some (.sweeping (intent :: _)) => some (intent, releaseData .expired s.now)
    | _ => none
  | _ => none

/-- The charge a step makes, if it makes one. -/
def charging (s : System) : Event → Option ChargeEntry
  | .settle params => (finite? params.amountUsd).map params.entry
  | .settleIntent i amountUsd requestId response reason =>
    (s.owner? i).bind fun intent ↦ (finite? amountUsd).map
      (SettleIntentParams.entry { intent, amountUsd, requestId, response, reason })
  | .persistAndSettle i outcome requestId =>
    if outcome.replayable then
      (s.owner? i).bind fun intent ↦ (finite? outcome.customerChargeUsd).map
        (outcome.settleIntentParams intent requestId).entry
    else none
  | .persistAndSettleDirect outcome requestId =>
    (finite? outcome.customerChargeUsd).map (outcome.settleParams requestId).entry
  | .reconcileRow i _ =>
    match s.calls[i]? with
    | some (.reconciling (row :: _) _) => some ((reconcileParams row).entry (ofMicros row.costUsd))
    | _ => none
  | _ => none

@[simp]
theorem finite?_eq_some_iff {d : Decimal} {q : ℚ} : finite? d = some q ↔ d = .finite q := by
  cases d <;> simp [finite?]

/-- `ChargeOf s e entry`: where the charge of a step comes from. -/
inductive ChargeOf (s : System) (e : Event) : ChargeEntry → Prop
  | settle {params : SettleParams} {q : ℚ} : e = .settle params → params.amountUsd = .finite q →
      ChargeOf s e (params.entry q)
  | settleIntent {i : ℕ} {intent : RequestIntentHandle} {amountUsd : Decimal}
      {requestId response reason : Option String} {q : ℚ} :
      e = .settleIntent i amountUsd requestId response reason → s.owner? i = some intent →
      amountUsd = .finite q →
      ChargeOf s e
        (SettleIntentParams.entry { intent, amountUsd, requestId, response, reason } q)
  | persisted {i : ℕ} {intent : RequestIntentHandle} {outcome : Outcome} {requestId : String}
      {q : ℚ} :
      e = .persistAndSettle i outcome requestId → outcome.replayable = true →
      s.owner? i = some intent → outcome.customerChargeUsd = .finite q →
      ChargeOf s e ((outcome.settleIntentParams intent requestId).entry q)
  | persistedDirect {outcome : Outcome} {requestId : String} {q : ℚ} :
      e = .persistAndSettleDirect outcome requestId → outcome.customerChargeUsd = .finite q →
      ChargeOf s e ((outcome.settleParams requestId).entry q)
  | reconciled {i : ℕ} {fault : Option Fault} {row : RequestRow} {orphans : List RequestRow}
      {report : ReconcileReport} :
      e = .reconcileRow i fault → s.calls[i]? = some (.reconciling (row :: orphans) report) →
      ChargeOf s e ((reconcileParams row).entry (ofMicros row.costUsd))

theorem chargeOf_of_charging {s : System} {e : Event} {entry : ChargeEntry}
    (h : charging s e = some entry) : ChargeOf s e entry := by
  cases e <;> simp only [charging, reduceCtorEq] at h
  case settle params =>
    obtain ⟨q, hq, rfl⟩ := Option.map_eq_some_iff.1 h
    exact .settle rfl (finite?_eq_some_iff.1 hq)
  case settleIntent =>
    obtain ⟨intent, howner, h⟩ := Option.bind_eq_some_iff.1 h
    obtain ⟨q, hq, rfl⟩ := Option.map_eq_some_iff.1 h
    exact .settleIntent rfl howner (finite?_eq_some_iff.1 hq)
  case persistAndSettle =>
    split at h
    · rename_i hreplay
      obtain ⟨intent, howner, h⟩ := Option.bind_eq_some_iff.1 h
      obtain ⟨q, hq, rfl⟩ := Option.map_eq_some_iff.1 h
      exact .persisted rfl hreplay howner (finite?_eq_some_iff.1 hq)
    · cases h
  case persistAndSettleDirect =>
    obtain ⟨q, hq, rfl⟩ := Option.map_eq_some_iff.1 h
    exact .persistedDirect rfl (finite?_eq_some_iff.1 hq)
  case reconcileRow =>
    split at h
    · rename_i hcall
      cases h
      exact .reconciled rfl hcall
    · cases h

/-- The dispatch a step persists, and the uuid of its row. -/
def persisting : Event → Option (Outcome × String)
  | .persistAndSettle _ outcome requestId => some (outcome, requestId)
  | .persistAndSettleDirect outcome requestId => some (outcome, requestId)
  | _ => none

/-- The credit a step posts: the key it is for, and the amount. -/
def posting : Event → Option (String × Decimal)
  | .credit params => some (params.apiKeyId, params.amountUsd)
  | .gift params => some (params.apiKeyId, params.amountUsd)
  | .recordPayment params => some (params.apiKeyId, params.amountUsd)
  | _ => none

/-! ### The phases -/

/-- The first phase: perhaps a `Request` row. -/
inductive RequestPhase (s : System) (e : Event) : Db → Prop
  | idle : RequestPhase s e s.db
  | created {outcome : Outcome} {requestId : String} {cost : ℚ} {db' : Db} :
      persisting e = some (outcome, requestId) → requestId ∉ s.minted →
      outcome.costUsd = .finite cost →
      RequestCreated (outcome.requestRow requestId (toMicros cost) s.now) s.db db' →
      RequestPhase s e db'

/-- The second phase: perhaps an intent. -/
inductive IntentPhase (s : System) (e : Event) (db : Db) : Db → Prop
  | idle : IntentPhase s e db db
  | opened {params : OpenIntentParams} {id : String} {holdUsd : ℕ} {db' : Db} :
      e = .openIntent params id → id ∉ s.minted →
      IntentOpened (params.row id holdUsd s.now (s.expiry params))
        db db' →
      IntentPhase s e db db'
  | reclaimed {i : ℕ} {params : OpenIntentParams} {expiresAt : ℤ} {intentId : String} {holdUsd : ℕ}
      {row : IntentRow} {db' : Db} :
      e = .reclaimIntent i → s.calls[i]? = some (.reclaiming params expiresAt intentId) →
      IntentReclaimed intentId params.apiKeyId holdUsd expiresAt row db db' →
      IntentPhase s e db db'
  | closed {intent : RequestIntentHandle} {data : IntentUpdate} {row : IntentRow} {db' : Db} :
      closing s e = some (intent, data) → data.state ≠ .held →
      IntentClosed intent data row db db' →
      IntentPhase s e db db'
  | purged {retentionMs : ℤ} : e = .purgeSettledIntents retentionMs →
      IntentPhase s e db (purgeSettledIntents retentionMs s.now db)

/-- What is still reserved for a key once the step has given back the hold it closes. -/
def heldAfterClosing (s : System) (e : Event) (k : String) : ℕ :=
  match closing s e with
  | some (intent, _) =>
    if k = intent.apiKeyId then s.db.heldOf k - intent.holdMicros else s.db.heldOf k
  | none => s.db.heldOf k

/-- What has happened in a step before it charges: the request it persists is stored, and the
intent it closes was live and has given back its hold. -/
structure Prepared (s : System) (e : Event) (db : Db) : Prop where
  held : ∀ k, db.heldOf k = heldAfterClosing s e k
  live : ∀ intent data, closing s e = some (intent, data) →
    ∃ row ∈ s.db.intents.rows, row.id = intent.id ∧ row.state = .held
  closed : ∀ intent data, closing s e = some (intent, data) →
    ∀ row ∈ db.intents.rows, row.id = intent.id → row.state = data.state
  stored : ∀ outcome requestId, persisting e = some (outcome, requestId) →
    requestId ∉ s.minted ∧ ∃ cost, outcome.costUsd = .finite cost ∧
      outcome.requestRow requestId (toMicros cost) s.now ∈ db.requests.rows

/-- The third phase: perhaps money. -/
inductive MoneyPhase (s : System) (e : Event) (db : Db) : Db → Prop
  | idle : MoneyPhase s e db db
  | posted {entry : LedgerEntry ℚ} {db' : Db} :
      posting e = some (entry.apiKeyId, .finite entry.amountUsd) → 0 < entry.amountUsd →
      entry.requestId = none → Posted entry db db' → MoneyPhase s e db db'
  | charged {entry : ChargeEntry} {db' : Db} :
      charging s e = some entry → 0 ≤ entry.amountUsd → Prepared s e db →
      Charged entry db db' → MoneyPhase s e db db'
  | reversed {params : ReverseParams} {amountUsd : ℚ} {original : LedgerRow} {db' : Db} :
      e = .reverse params → params.amountUsd = .finite amountUsd → 0 < amountUsd →
      Reversed params amountUsd original db db' → MoneyPhase s e db db'

/-- The three phases of a step. -/
def Phases (s : System) (e : Event) (db' : Db) : Prop :=
  ∃ db₁ db₂, RequestPhase s e db₁ ∧ IntentPhase s e db₁ db₂ ∧ MoneyPhase s e db₂ db'

namespace Phases

variable {s : System} {e : Event} {db' : Db}

/-- A step that leaves the store alone. -/
theorem idle : Phases s e s.db :=
  ⟨_, _, .idle, .idle, .idle⟩

/-- A step that only moves an intent. -/
theorem of_intent (h : IntentPhase s e s.db db') : Phases s e db' :=
  ⟨_, _, .idle, h, .idle⟩

/-- A step that only moves money. -/
theorem of_money (h : MoneyPhase s e s.db db') : Phases s e db' :=
  ⟨_, _, .idle, .idle, h⟩

end Phases

/-! ### Frames -/

section Frames

variable {s : System} {e : Event} {db db' : Db}

/-- The first phase moves neither intents nor money. -/
theorem RequestPhase.frame (h : RequestPhase s e db') :
    db'.balances = s.db.balances ∧ db'.ledger = s.db.ledger ∧ db'.intents = s.db.intents := by
  cases h with
  | idle => exact ⟨rfl, rfl, rfl⟩
  | created _ _ _ hcreated => exact ⟨hcreated.balances, hcreated.ledger, hcreated.intents⟩

/-- The second phase moves no balance, no ledger row and no request. -/
theorem IntentPhase.frame (h : IntentPhase s e db db') :
    (∀ k, db'.balanceOf k = db.balanceOf k) ∧ db'.ledger = db.ledger ∧
      db'.requests = db.requests := by
  cases h with
  | idle => exact ⟨fun _ ↦ rfl, rfl, rfl⟩
  | opened _ _ hopened => exact ⟨hopened.balance, hopened.ledger, hopened.requests⟩
  | reclaimed _ _ h => exact ⟨h.reserved.balance, h.reserved.ledger, h.reserved.requests⟩
  | closed _ _ h => exact ⟨h.released.balance, h.released.ledger, h.released.requests⟩
  | purged _ => exact ⟨fun _ ↦ rfl, rfl, rfl⟩

/-- The third phase moves no reservation, no intent and no request. -/
theorem MoneyPhase.frame (h : MoneyPhase s e db db') :
    (∀ k, db'.heldOf k = db.heldOf k) ∧ db'.intents = db.intents ∧
      db'.requests = db.requests := by
  cases h with
  | idle => exact ⟨fun _ ↦ rfl, rfl, rfl⟩
  | posted _ _ _ h => exact ⟨h.movement.held, h.movement.intents, h.movement.requests⟩
  | charged _ _ _ h => exact ⟨h.movement.held, h.movement.intents, h.movement.requests⟩
  | reversed _ _ _ h => exact ⟨h.movement.held, h.movement.intents, h.movement.requests⟩

end Frames

/-! ### The phases of each event -/

section Events

variable {s : System} {e : Event} {i : ℕ} {intent : RequestIntentHandle}

theorem owner?_of_getElem? (h : s.calls[i]? = some (.owner intent)) : s.owner? i = some intent := by
  rw [System.owner?, h]

/-- A first phase that stored the request it persists, if it persists one. -/
def Stored (s : System) (e : Event) (db : Db) : Prop :=
  ∀ outcome requestId, persisting e = some (outcome, requestId) →
    requestId ∉ s.minted ∧ ∃ cost, outcome.costUsd = .finite cost ∧
      outcome.requestRow requestId (toMicros cost) s.now ∈ db.requests.rows

/-- A step that closes no intent, before its money moves. -/
theorem prepared_of_none {db : Db} (he : closing s e = none) (hbal : db.balances = s.db.balances)
    (hstored : Stored s e db) : Prepared s e db := by
  refine ⟨fun k ↦ ?_, fun intent data h ↦ ?_, fun intent data h ↦ ?_, hstored⟩
  · simp only [heldAfterClosing, he, Db.heldOf, Db.balanceRow, hbal]
  · rw [he] at h
    cases h
  · rw [he] at h
    cases h

/-- A step that closed its intent. -/
theorem prepared_of_closed {data : IntentUpdate} {row : IntentRow} {db₁ db₂ : Db}
    (he : closing s e = some (intent, data)) (hbal : db₁.balances = s.db.balances)
    (hint : db₁.intents = s.db.intents) (hstored : Stored s e db₁)
    (h : IntentClosed intent data row db₁ db₂) : Prepared s e db₂ := by
  refine ⟨fun k ↦ ?_, fun _ _ heq ↦ ?_, fun _ _ heq a ha hid ↦ ?_,
    fun outcome requestId hpersisting ↦ ?_⟩
  · rw [h.released.held, heldAfterClosing, he]
    simp only [Db.updateIntents, Db.heldOf, Db.balanceRow, hbal]
  · rw [he] at heq
    cases heq
    exact ⟨row, hint ▸ h.mem, h.id, h.state⟩
  · rw [he] at heq
    cases heq
    exact h.state_eq ha hid
  · rw [h.released.requests]
    exact hstored outcome requestId hpersisting

/-- Adding funds is one posted credit. -/
theorem postsCredit_phases {apiKeyId : String} {amountUsd : Decimal} {db' : Db}
    (he : posting e = some (apiKeyId, amountUsd)) (h : PostsCredit apiKeyId amountUsd s.db db') :
    Phases s e db' := by
  rcases h with rfl | ⟨entry, rfl, rfl, hpos, hrequest, hposted⟩
  · exact .idle
  · exact .of_money (.posted he hpos hrequest hposted)

/-- A closed intent, without a charge. -/
theorem releaseTo_phases {state : IntentState} (hstate : state ≠ .held)
    (he : closing s e = some (intent, releaseData state s.now)) :
    Phases s e ((releaseTo state intent s.now).run s.db).2 := by
  rcases (releaseTo state intent s.now).run_cases s.db with ⟨ok, db', hx, hrun⟩ | ⟨err, -, hrun⟩
  · rw [hrun]
    rcases releaseTo_ok hx with ⟨-, rfl, -⟩ | ⟨-, row, hclosed⟩
    · exact .idle
    · exact .of_intent (.closed he hstate hclosed)
  · rw [hrun]
    exact .idle

theorem settleIntent_phases {params : SettleIntentParams}
    (hclosing : closing s e = some (params.intent, params.data s.now))
    (hcharging : ∀ q, params.amountUsd = .finite q → charging s e = some (params.entry q))
    (hpersisting : persisting e = none) : Phases s e (settleIntent params s.now s.db).2 := by
  unfold settleIntent
  rcases absorbDuplicate_run_cases false (settleIntentInTx params s.now) s.db with
    ⟨ok, db', hx, hrun⟩ | ⟨err, -, hdb, -⟩
  · rw [hrun]
    rcases settleIntentInTx_ok hx with ⟨-, rfl, -⟩ |
      ⟨-, row, amountUsd, db₁, hfin, hnonneg, hclosed, hcharged⟩
    · exact .idle
    · exact ⟨_, db₁, .idle, .closed hclosing (by simp [SettleIntentParams.data]) hclosed,
        .charged (hcharging _ hfin) hnonneg (prepared_of_closed hclosing rfl rfl
          (fun _ _ h ↦ by rw [hpersisting] at h; cases h) hclosed) hcharged⟩
  · rw [hdb]
    exact .idle

theorem settle_phases (params : SettleParams) :
    Phases s (.settle params) (settle params s.db).2 := by
  rcases settle_cases params s.db with h | ⟨-, amountUsd, hfin, hnonneg, hcharged⟩
  · rw [h]
    exact .idle
  · exact .of_money (.charged (by simp [charging, hfin, finite?]) hnonneg
      (prepared_of_none rfl rfl fun _ _ h ↦ by cases h) hcharged)

theorem reverse_phases (params : ReverseParams) :
    Phases s (.reverse params) (reverse params s.db).2 := by
  rcases reverse_cases params s.db with h | ⟨amountUsd, original, hfin, hpos, hreversed⟩
  · rw [h]
    exact .idle
  · exact .of_money (.reversed rfl hfin hpos hreversed)

theorem openIntent_phases {params : OpenIntentParams} {id : String} (hid : id ∉ s.minted) :
    Phases s (.openIntent params id)
      ((openIntentInTx params id s.now (s.expiry params)).run
        s.db).2 := by
  rcases (openIntentInTx params id s.now (s.expiry params)).run_cases
    s.db with ⟨intent, db', hx, hrun⟩ | ⟨err, -, hrun⟩
  · rw [hrun]
    obtain ⟨hold, holdUsd, -, -, -, hopened⟩ := openIntentInTx_ok hx
    exact .of_intent (.opened rfl hid hopened)
  · rw [hrun]
    exact .idle

theorem reclaimIntent_phases {params : OpenIntentParams} {expiresAt : ℤ} {intentId : String}
    (hcall : s.calls[i]? = some (.reclaiming params expiresAt intentId)) :
    Phases s (.reclaimIntent i) ((reclaimIntentInTx intentId params.apiKeyId
      (System.holdOf params) expiresAt).run s.db).2 := by
  rcases (reclaimIntentInTx intentId params.apiKeyId (System.holdOf params) expiresAt).run_cases
    s.db with ⟨ok, db', hx, hrun⟩ | ⟨err, -, hrun⟩
  · rw [hrun]
    rcases reclaimIntentInTx_ok hx with ⟨-, rfl⟩ | ⟨-, holdUsd, row, -, hreclaimed⟩
    · exact .idle
    · exact .of_intent (.reclaimed rfl hcall hreclaimed)
  · rw [hrun]
    exact .idle

theorem reconcileRow_phases {row : RequestRow} {orphans : List RequestRow}
    {report : ReconcileReport} {fault : Option Fault}
    (hcall : s.calls[i]? = some (.reconciling (row :: orphans) report)) :
    Phases s (.reconcileRow i fault) (reconcileRow row fault report s.db).2 := by
  rcases (reconcileRow_cases row fault report s.db).1 with hsame | ⟨-, hsettle⟩
  · rw [hsame]
    exact .idle
  rw [hsettle]
  rcases settle_cases (reconcileParams row) s.db with h | ⟨-, amountUsd, hfin, hnonneg, hcharged⟩
  · rw [h]
    exact .idle
  · cases hfin
    exact .of_money (.charged (by simp [charging, hcall]) hnonneg
      (prepared_of_none rfl rfl fun _ _ h ↦ by cases h) hcharged)

/-- The settlement inside `persistAndSettle`, after the `Request` row. -/
theorem settleSpend_phases {outcome : Outcome} {owner : Option RequestIntentHandle}
    {requestId : String} {db₁ db' : Db} {settled : Bool} (hrequest : RequestPhase s e db₁)
    (hstored : Stored s e db₁)
    (hclosing : ∀ intent, owner = some intent → closing s e = some
      (if !outcome.replayable then (intent, releaseData .released s.now)
        else (intent, (outcome.settleIntentParams intent requestId).data s.now)))
    (hnone : owner = none → closing s e = none)
    (hcharging : ∀ q, outcome.customerChargeUsd = .finite q →
      (owner.isSome → outcome.replayable = true) → charging s e = some
      (match owner with
        | some intent => (outcome.settleIntentParams intent requestId).entry q
        | none => (outcome.settleParams requestId).entry q))
    (h : settleSpend outcome owner requestId s.now db₁ = .ok (settled, db')) :
    Phases s e db' := by
  cases owner with
  | none =>
    obtain ⟨-, amountUsd, hfin, hnonneg, hcharged⟩ := settleInTx_ok h
    exact ⟨db₁, db₁, hrequest, .idle, .charged (hcharging _ hfin (by simp)) hnonneg
      (prepared_of_none (hnone rfl) hrequest.frame.1 hstored) hcharged⟩
  | some intent =>
    have hclosing := hclosing intent rfl
    unfold settleSpend at h
    by_cases hreplay : outcome.replayable
    · simp only [hreplay, Bool.not_true, Bool.false_eq_true, if_false] at h hclosing
      rcases settleIntentInTx_ok h with ⟨-, rfl, -⟩ |
        ⟨-, row, amountUsd, db₂, hfin, hnonneg, hclosed, hcharged⟩
      · exact ⟨_, _, hrequest, .idle, .idle⟩
      · exact ⟨_, db₂, hrequest, .closed hclosing (by simp [SettleIntentParams.data]) hclosed,
          .charged (hcharging _ hfin fun _ ↦ hreplay) hnonneg (prepared_of_closed hclosing
            hrequest.frame.1 hrequest.frame.2.2 hstored hclosed) hcharged⟩
    · simp only [hreplay, Bool.not_false, if_true] at h hclosing
      rcases releaseTo_ok h with ⟨-, rfl, -⟩ | ⟨-, row, hclosed⟩
      · exact ⟨_, _, hrequest, .idle, .idle⟩
      · exact ⟨_, _, hrequest, .closed hclosing (by simp [releaseData]) hclosed, .idle⟩

theorem persistAndSettle_phases {outcome : Outcome} (owner : Option RequestIntentHandle)
    {requestId : String} (hpersisting : persisting e = some (outcome, requestId))
    (hfresh : requestId ∉ s.minted)
    (hclosing : ∀ intent, owner = some intent → closing s e = some
      (if !outcome.replayable then (intent, releaseData .released s.now)
        else (intent, (outcome.settleIntentParams intent requestId).data s.now)))
    (hnone : owner = none → closing s e = none)
    (hcharging : ∀ q, outcome.customerChargeUsd = .finite q →
      (owner.isSome → outcome.replayable = true) → charging s e = some
      (match owner with
        | some intent => (outcome.settleIntentParams intent requestId).entry q
        | none => (outcome.settleParams requestId).entry q)) :
    Phases s e (persistAndSettle outcome owner requestId s.now s.db).2 := by
  unfold persistAndSettle
  rcases (persistAndSettleInTx outcome owner requestId s.now).run_cases s.db with
    ⟨ok, db', hx, hrun⟩ | ⟨err, -, hrun⟩
  · rw [hrun]
    obtain ⟨cost, db₁, settled, hcost, hcreated, hsettle⟩ := persistAndSettleInTx_ok hx
    refine settleSpend_phases (.created hpersisting hfresh hcost hcreated) (fun _ _ heq ↦ ?_)
      hclosing hnone hcharging hsettle
    rw [hpersisting] at heq
    cases heq
    exact ⟨hfresh, cost, hcost, by rw [hcreated.rows]; simp⟩
  · rw [hrun]
    exact .idle

/-- An owner settles its intent. -/
theorem ownerSettles_phases {amountUsd : Decimal} {requestId response reason : Option String}
    (hcall : s.calls[i]? = some (.owner intent)) :
    Phases s (.settleIntent i amountUsd requestId response reason)
      (settleIntent { intent, amountUsd, requestId, response, reason } s.now s.db).2 := by
  have howner := owner?_of_getElem? hcall
  refine settleIntent_phases ?_ (fun q hq ↦ ?_) rfl
  · simp [closing, howner]
  · cases hq
    simp [charging, howner, finite?]

/-- An owner persists an attempt, and settles its intent or gives it back. -/
theorem ownerPersists_phases {outcome : Outcome} {requestId : String}
    (hcall : s.calls[i]? = some (.owner intent)) (hfresh : requestId ∉ s.minted) :
    Phases s (.persistAndSettle i outcome requestId)
      (persistAndSettle outcome (some intent) requestId s.now s.db).2 := by
  have howner := owner?_of_getElem? hcall
  refine persistAndSettle_phases (some intent) rfl hfresh (fun _ heq ↦ ?_)
    (fun heq ↦ by cases heq) fun q hq hreplay ↦ ?_
  · cases heq
    simp [closing, howner]
  · simp [charging, howner, hq, finite?, hreplay]

/-- An attempt without an intent is persisted and charged. -/
theorem persistsDirect_phases {outcome : Outcome} {requestId : String}
    (hfresh : requestId ∉ s.minted) : Phases s (.persistAndSettleDirect outcome requestId)
      (persistAndSettle outcome none requestId s.now s.db).2 := by
  refine persistAndSettle_phases none rfl hfresh (fun _ heq ↦ by cases heq) (fun _ ↦ rfl)
    fun q hq _ ↦ ?_
  simp [charging, hq, finite?]

end Events

/-- **Every step goes through the three phases.** -/
theorem step_phases {s s' : System} {e : Event} (h : step s e = some s') : Phases s e s'.db := by
  cases e with
  | tick ms =>
    cases h
    exact .idle
  | credit params =>
    cases h
    exact postsCredit_phases rfl (credit_postsCredit params s.db)
  | gift params =>
    cases h
    exact postsCredit_phases rfl (gift_postsCredit params s.db)
  | recordPayment params =>
    cases h
    exact postsCredit_phases rfl (recordPayment_postsCredit params s.db)
  | reverse params =>
    cases h
    exact reverse_phases params
  | settle params =>
    cases h
    exact settle_phases params
  | openIntent params id =>
    simp only [step] at h
    split at h
    · cases h
    · rename_i hid
      cases h
      exact openIntent_phases hid
  | resolveReplay i =>
    simp only [step] at h
    split at h
    · cases h
      exact .idle
    · cases h
  | reclaimIntent i =>
    simp only [step] at h
    split at h
    · rename_i params expiresAt intentId hcall
      cases h
      exact reclaimIntent_phases hcall
    · cases h
  | settleIntent i amountUsd requestId response reason =>
    simp only [step] at h
    split at h
    · rename_i intent hcall
      cases h
      exact ownerSettles_phases hcall
    · cases h
  | releaseIntent i =>
    simp only [step] at h
    split at h
    · rename_i intent hcall
      cases h
      exact releaseTo_phases (by simp) (by simp [closing, owner?_of_getElem? hcall])
    · cases h
  | persistAndSettle i outcome requestId =>
    simp only [step] at h
    split at h
    · cases h
    rename_i hfresh
    split at h
    · rename_i intent hcall
      cases h
      exact ownerPersists_phases hcall hfresh
    · cases h
  | persistAndSettleDirect outcome requestId =>
    simp only [step] at h
    split at h
    · cases h
    · rename_i hfresh
      cases h
      exact persistsDirect_phases hfresh
  | sweepExpiredIntents limit =>
    cases h
    exact .idle
  | expireIntent i =>
    simp only [step] at h
    split at h
    · rename_i intent stale hcall
      cases h
      exact releaseTo_phases (by simp) (by simp [closing, hcall])
    · cases h
  | purgeSettledIntents retentionMs =>
    cases h
    exact .of_intent (.purged rfl)
  | findUnsettled opts =>
    cases h
    exact .idle
  | reconcileRow i fault =>
    simp only [step] at h
    split at h
    · rename_i row orphans report hcall
      cases h
      exact reconcileRow_phases hcall
    · cases h

/-! ### What a step adds -/

section Added

variable {s s' : System} {e : Event}

/-- The ledger is append-only. -/
theorem step_ledger (h : step s e = some s') :
    ∃ added, s'.db.ledger.rows = s.db.ledger.rows ++ added := by
  obtain ⟨db₁, db₂, hrequest, hintent, hmoney⟩ := step_phases h
  rw [← hrequest.frame.2.1, ← hintent.frame.2.1]
  cases hmoney with
  | idle => exact ⟨[], (List.append_nil _).symm⟩
  | posted _ _ _ hposted => exact ⟨_, hposted.movement.rows⟩
  | charged _ _ _ hcharged => exact ⟨_, hcharged.movement.rows⟩
  | reversed _ _ _ hreversed => exact ⟨_, hreversed.movement.rows⟩

/-- Only a step that persists a dispatch adds a request, and it adds that one. -/
theorem step_requests (h : step s e = some s') :
    s'.db.requests = s.db.requests ∨ ∃ outcome requestId cost,
      persisting e = some (outcome, requestId) ∧ outcome.costUsd = .finite cost ∧
        (∀ a ∈ s.db.requests.rows, a.id ≠ requestId) ∧
          s'.db.requests.rows =
            s.db.requests.rows ++ [outcome.requestRow requestId (toMicros cost) s.now] := by
  obtain ⟨db₁, db₂, hrequest, hintent, hmoney⟩ := step_phases h
  rw [hmoney.frame.2.2, hintent.frame.2.2]
  cases hrequest with
  | idle => exact .inl rfl
  | created he _ hcost hcreated => exact .inr ⟨_, _, _, he, hcost, hcreated.fresh, hcreated.rows⟩

end Added

end ModelConnector
