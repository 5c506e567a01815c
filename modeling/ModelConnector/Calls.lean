import ModelConnector.Phases

/-!
# How calls go on

A step leaves every call as it was but one: it begins a new one, or takes one further.
`step_calls` lists what that one call can be after the step, with the outcome of the transaction
it went through, so that a fact about the calls of a run is proved over `NewCall` and never over
the events.
-/

namespace ModelConnector

open Atomic Billing Connectors

/-- The call is over: it carries nothing further. -/
def Call.ended : Call → Prop
  | .answered _ | .threw _ | .done => True
  | _ => False

/-- `NewCall s e s' j call`: the step from `s` to `s'` by `e` made `call` out of call `j`. -/
inductive NewCall (s : System) (e : Event) (s' : System) : ℕ → Call → Prop
  /-- The insertion went through: the caller owns the intent. -/
  | opened {params : OpenIntentParams} {id : String} {intent : RequestIntentHandle} :
      e = .openIntent params id → id ∉ s.minted →
      openIntentInTx params id s.now (s.expiry params) s.db = .ok (intent, s'.db) →
      NewCall s e s' s.calls.length (.owner intent)
  /-- The insertion hit an existing key. -/
  | resolving {params : OpenIntentParams} {id : String} {j : ℕ} :
      e = .openIntent params id → NewCall s e s' j (.resolving params (s.expiry params))
  /-- The existing intent was abandoned. -/
  | reclaiming {params : OpenIntentParams} {expiresAt : ℤ} {intentId : String} {j : ℕ} :
      resolveReplay params s.db = .inr intentId → s'.db = s.db →
      NewCall s e s' j (.reclaiming params expiresAt intentId)
  /-- The existing intent was taken back: the caller owns it. -/
  | reclaimed {params : OpenIntentParams} {expiresAt : ℤ} {intentId : String} {j : ℕ} :
      e = .reclaimIntent j → s.calls[j]? = some (.reclaiming params expiresAt intentId) →
      reclaimIntentInTx intentId params.apiKeyId (System.holdOf params) expiresAt s.db =
        .ok (true, s'.db) →
      NewCall s e s' j (.owner (System.reclaimedHandle params intentId))
  /-- A sweep read the expired intents. -/
  | sweeping {limit : ℤ} {j : ℕ} : s'.db = s.db →
      NewCall s e s' j (.sweeping (sweepExpiredIntents limit s.now s.db))
  /-- A sweep released its next intent. -/
  | swept {intent : RequestIntentHandle} {stale : List RequestIntentHandle} {j : ℕ} :
      s.calls[j]? = some (.sweeping (intent :: stale)) → NewCall s e s' j (.sweeping stale)
  /-- A reconcile run read the unsettled requests. -/
  | reconciling {opts : ReconcileOptions} {report : ReconcileReport} {j : ℕ} : s'.db = s.db →
      NewCall s e s' j (.reconciling (findUnsettled opts s.now s.db) report)
  /-- A reconcile run settled its next request. -/
  | reconciled {row : RequestRow} {orphans : List RequestRow} {report report' : ReconcileReport}
      {j : ℕ} : s.calls[j]? = some (.reconciling (row :: orphans) report) →
      NewCall s e s' j (.reconciling orphans report')
  /-- The call is over. -/
  | ended {call : Call} {j : ℕ} : call.ended → NewCall s e s' j call

section Step

variable {s s' : System} {e : Event} {i j : ℕ} {call c : Call} {db : Db}

theorem System.getElem?_mint {id : String} (h : (s.mint id).calls[j]? = some c) :
    s.calls[j]? = some c :=
  h

/-- Of the calls after a new one began, the last is the new one. -/
theorem getElem?_enter (h : (s.enter call db).calls[j]? = some c) :
    s.calls[j]? = some c ∨ j = s.calls.length ∧ c = call := by
  unfold System.enter at h
  rw [List.getElem?_append] at h
  split at h
  · exact .inl h
  · rename_i hlt
    rw [List.getElem?_singleton] at h
    split at h
    · exact .inr ⟨by omega, (Option.some.inj h).symm⟩
    · cases h

/-- Of the calls after one went on, that one is different. -/
theorem getElem?_resume (h : (s.resume i call db).calls[j]? = some c) :
    s.calls[j]? = some c ∨ j = i ∧ c = call := by
  unfold System.resume at h
  rw [List.getElem?_set] at h
  split at h
  · rename_i hij
    split at h
    · exact .inr ⟨hij.symm, (Option.some.inj h).symm⟩
    · cases h
  · exact .inl h

theorem refused_ended (params : OpenIntentParams) (db : Db) (err : TxError) :
    (System.refused params db err).ended := by
  cases err <;> trivial

/-- The owner's call after its transaction: over, or as it was. -/
theorem afterSettle_cases {α : Type} (intent : RequestIntentHandle) (answer : Except TxError α) :
    (System.afterSettle intent answer).ended ∨ System.afterSettle intent answer = .owner intent := by
  cases answer
  · exact .inr rfl
  · exact .inl trivial

/-- After a transaction of an owner its call is over, or the owner is still there. -/
theorem newCall_afterSettle {intent : RequestIntentHandle} {α : Type} {answer : Except TxError α}
    (hcall : s.calls[i]? = some (.owner intent))
    (hj : (s.resume i (System.afterSettle intent answer) db).calls[j]? = some c) :
    s.calls[j]? = some c ∨ NewCall s e s' j c := by
  rcases getElem?_resume hj with hj | ⟨rfl, rfl⟩
  · exact .inl hj
  · rcases afterSettle_cases intent answer with hended | hsame
    · exact .inr (.ended hended)
    · rw [hsame]
      exact .inl hcall

/-- After its insertion a call owns the intent, goes on to the existing one, or is over. -/
theorem newCall_afterOpen {params : OpenIntentParams} {id : String} (he : e = .openIntent params id)
    (hid : id ∉ s.minted)
    (hdb : s'.db = ((openIntentInTx params id s.now (s.expiry params)).run s.db).2) :
    NewCall s e s' s.calls.length (System.afterOpen params (s.expiry params) s'.db
      ((openIntentInTx params id s.now (s.expiry params)).run s.db).1) := by
  rcases (openIntentInTx params id s.now (s.expiry params)).run_cases s.db with
    ⟨intent, db', hx, hrun⟩ | ⟨err, -, hrun⟩
  · rw [hrun] at hdb ⊢
    exact .opened he hid (by rw [hx, hdb])
  · rw [hrun]
    cases err
    case duplicateKey => exact .resolving he
    all_goals exact .ended trivial

/-- After reading the existing intent a call goes on to take it back, or is over. -/
theorem newCall_afterResolve (params : OpenIntentParams) (expiresAt : ℤ) (hdb : s'.db = s.db) :
    NewCall s e s' j (System.afterResolve params expiresAt (resolveReplay params s.db)) := by
  cases hresolve : resolveReplay params s.db with
  | inl result => exact .ended trivial
  | inr intentId => exact .reclaiming hresolve hdb

/-- After trying to take an intent back a call owns it, or is over. -/
theorem newCall_afterReclaim {params : OpenIntentParams} {expiresAt : ℤ} {intentId : String}
    (he : e = .reclaimIntent j) (hcall : s.calls[j]? = some (.reclaiming params expiresAt intentId))
    (hdb : s'.db = ((reclaimIntentInTx intentId params.apiKeyId (System.holdOf params)
      expiresAt).run s.db).2) :
    NewCall s e s' j (System.afterReclaim params intentId s'.db
      ((reclaimIntentInTx intentId params.apiKeyId (System.holdOf params) expiresAt).run
        s.db).1) := by
  rcases (reclaimIntentInTx intentId params.apiKeyId (System.holdOf params) expiresAt).run_cases
    s.db with ⟨ok, db', hx, hrun⟩ | ⟨err, -, hrun⟩
  · rw [hrun] at hdb ⊢
    cases ok
    · exact .ended trivial
    · exact .reclaimed he hcall (by rw [hx, hdb])
  · rw [hrun]
    exact .ended (refused_ended _ _ _)

/-- **A step leaves a call as it was, or makes it a new one.** -/
theorem step_calls (h : step s e = some s') (hj : s'.calls[j]? = some c) :
    s.calls[j]? = some c ∨ NewCall s e s' j c := by
  cases e with
  | tick _ | credit _ | gift _ | recordPayment _ | reverse _ | settle _ | purgeSettledIntents _ =>
    cases h
    exact .inl hj
  | openIntent params id =>
    simp only [step] at h
    split at h
    · cases h
    · rename_i hid
      cases h
      rcases getElem?_enter (System.getElem?_mint hj) with hj | ⟨rfl, rfl⟩
      · exact .inl hj
      · exact .inr (newCall_afterOpen rfl hid rfl)
  | resolveReplay i =>
    simp only [step] at h
    split at h
    · cases h
      rcases getElem?_resume hj with hj | ⟨rfl, rfl⟩
      · exact .inl hj
      · exact .inr (newCall_afterResolve _ _ rfl)
    · cases h
  | reclaimIntent i =>
    simp only [step] at h
    split at h
    · rename_i hcall
      cases h
      rcases getElem?_resume hj with hj | ⟨rfl, rfl⟩
      · exact .inl hj
      · exact .inr (newCall_afterReclaim rfl hcall rfl)
    · cases h
  | settleIntent i _ _ _ _ | releaseIntent i =>
    simp only [step] at h
    split at h
    · rename_i hcall
      cases h
      exact newCall_afterSettle hcall hj
    · cases h
  | persistAndSettle i outcome requestId =>
    simp only [step] at h
    split at h
    · cases h
    split at h
    · rename_i intent hcall
      cases h
      exact newCall_afterSettle hcall (System.getElem?_mint hj)
    · cases h
  | persistAndSettleDirect outcome requestId =>
    simp only [step] at h
    split at h
    · cases h
    · cases h
      exact .inl hj
  | sweepExpiredIntents limit =>
    cases h
    rcases getElem?_enter hj with hj | ⟨rfl, rfl⟩
    · exact .inl hj
    · exact .inr (.sweeping rfl)
  | expireIntent i =>
    simp only [step] at h
    split at h
    · rename_i hcall
      cases h
      rcases getElem?_resume hj with hj | ⟨rfl, rfl⟩
      · exact .inl hj
      · exact .inr (.swept hcall)
    · cases h
  | findUnsettled opts =>
    cases h
    rcases getElem?_enter hj with hj | ⟨rfl, rfl⟩
    · exact .inl hj
    · exact .inr (.reconciling rfl)
  | reconcileRow i fault =>
    simp only [step] at h
    split at h
    · rename_i hcall
      cases h
      rcases getElem?_resume hj with hj | ⟨rfl, rfl⟩
      · exact .inl hj
      · exact .inr (.reconciled hcall)
    · cases h

/-- No uuid is forgotten, and the one of an opened intent or a stored request is remembered. -/
theorem step_minted (h : step s e = some s') : (∀ id ∈ s.minted, id ∈ s'.minted) ∧
    (∀ params id, e = .openIntent params id → id ∈ s'.minted) ∧
      ∀ outcome id, persisting e = some (outcome, id) → id ∈ s'.minted := by
  refine ⟨fun id hid ↦ ?_, ?_, fun outcome id he ↦ ?_⟩
  · cases e <;> simp only [step] at h <;> (try split at h) <;> (try split at h) <;> cases h <;>
      first
        | exact hid
        | exact List.mem_cons_of_mem _ hid
  · rintro params id rfl
    simp only [step] at h
    split at h
    · cases h
    · cases h
      exact List.mem_cons_self
  · cases e <;> cases he <;> simp only [step] at h <;> (try split at h) <;> (try split at h) <;>
      cases h <;> exact List.mem_cons_self

/-- The clock does not go back. -/
theorem step_now (h : step s e = some s') : s.now ≤ s'.now := by
  cases e
  case tick ms =>
    cases h
    exact le_add_of_nonneg_right (Int.natCast_nonneg ms)
  all_goals
    simp only [step] at h
    (try split at h) <;> (try split at h) <;> cases h
    exact le_refl _

end Step

end ModelConnector
