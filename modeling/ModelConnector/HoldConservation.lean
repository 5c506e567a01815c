import ModelConnector.Handles

/-!
# Conservation of holds

`credits_balance.held_usd` should be the sum of `hold_usd` over the key's intents in state `held`.
The counter and the rows are moved by opening, reclaiming, settling, releasing and sweeping, and
each of them moves both by the same amount, with one exception: what an intent gives back when it
is closed is the hold of the **handle** it is closed with, while the row that leaves `held` may
carry another one — the row was swept and reclaimed with a different hold since the handle was
made.

`holdsConserved_of_run` is conservation for the runs in which every intent is closed with a handle
that takes as much off the counter as the row contributes, and `not_holdsConserved` is a run in
which a late settlement breaks it.
-/

namespace ModelConnector

open Billing Connectors

/-- `held_usd` is the sum of the live holds, for every api key. -/
def HoldsConserved (db : Db) : Prop :=
  ∀ k, (db.heldOf k : ℤ) = db.heldSum k

/-- What the handle takes off the counter, `min(hold, held_usd)`, is the hold of the row it closes,
if that row is still `held`. -/
def ClosesOwnHold (db : Db) (intent : RequestIntentHandle) : Prop :=
  ∀ row ∈ db.intents.rows, row.id = intent.id → row.state = .held →
    min intent.holdMicros (db.heldOf intent.apiKeyId) = row.holdUsd

/-- Whatever the step closes, it closes with the hold of the row. -/
def StepClosesOwnHold (s : System) (e : Event) : Prop :=
  ∀ intent data, closing s e = some (intent, data) → ClosesOwnHold s.db intent

instance (db : Db) (intent : RequestIntentHandle) : Decidable (ClosesOwnHold db intent) :=
  inferInstanceAs (Decidable (∀ row ∈ db.intents.rows, row.id = intent.id → row.state = .held →
    min intent.holdMicros (db.heldOf intent.apiKeyId) = row.holdUsd))

instance (s : System) (e : Event) : Decidable (StepClosesOwnHold s e) :=
  decidable_of_iff (∀ p ∈ closing s e, ClosesOwnHold s.db p.1)
    ⟨fun h _ _ heq ↦ h _ heq, fun h p heq ↦ h p.1 p.2 heq⟩

section Step

variable {s s' : System} {e : Event} {db db' : Db}

/-- The step that closes an intent refers to it. -/
theorem closing_mem_refs {intent : RequestIntentHandle} {data : IntentUpdate}
    (h : closing s e = some (intent, data)) : (intent.id, intent.apiKeyId) ∈ s.refs := by
  have howner : ∀ {i}, s.owner? i = some intent → (intent.id, intent.apiKeyId) ∈ s.refs := by
    intro i hi
    unfold System.owner? at hi
    split at hi
    · rename_i hcall
      cases hi
      exact System.mem_refs_of_getElem? hcall (by simp [Call.refs])
    · cases hi
  cases e <;> simp only [closing, Option.map_eq_some_iff, reduceCtorEq] at h
  case settleIntent =>
    obtain ⟨_, hi, heq⟩ := h
    cases heq
    exact howner hi
  case releaseIntent =>
    obtain ⟨_, hi, heq⟩ := h
    cases heq
    exact howner hi
  case persistAndSettle =>
    obtain ⟨_, hi, heq⟩ := h
    split at heq <;> cases heq <;> exact howner hi
  case expireIntent =>
    split at h
    · rename_i hcall
      cases h
      exact System.mem_refs_of_getElem? hcall (by simp [Call.refs])
    · cases h

theorem holdsConserved_of_eq (hheld : ∀ k, db'.heldOf k = db.heldOf k)
    (hintents : db'.intents = db.intents) (h : HoldsConserved db) : HoldsConserved db' := by
  intro k
  rw [hheld, Db.heldSum, hintents]
  exact h k

/-- A row that is opened adds its hold on both sides. -/
theorem holdsConserved_opened {row : IntentRow} (hstate : row.state = .held)
    (h : IntentOpened row db db') (hc : HoldsConserved db) : HoldsConserved db' := by
  intro k
  rw [h.held, Db.heldSum, Table.sumWhere_insert h.rows, ← Db.heldSum, ← hc k]
  by_cases hk : k = row.apiKeyId
  · simp [hk, hstate]
  · simp [hk, Ne.symm hk]

/-- A row that is taken back adds its new hold on both sides: it was not counted before. -/
theorem holdsConserved_reclaimed {intentId apiKeyId : String} {holdUsd : ℕ} {expiresAt : ℤ}
    {row : IntentRow} (hkey : row.apiKeyId = apiKeyId)
    (h : IntentReclaimed intentId apiKeyId holdUsd expiresAt row db db') (hc : HoldsConserved db) :
    HoldsConserved db' := by
  intro k
  have hnot : row.state ≠ .held := by
    intro heq
    have hstate := h.state
    rw [heq] at hstate
    simp at hstate
  have hsum := heldSum_updateIntents _ (reclaimData holdUsd expiresAt) h.mem h.id h.state k
  rw [h.reserved.held, Db.heldSum, h.reserved.intents, ← Db.heldSum, hsum, heldOf_updateIntents,
    ← hc k]
  by_cases hk : k = apiKeyId
  · simp [hnot, hk, hkey, reclaimData, IntentUpdate.apply]
  · simp [hnot, hk, hkey, Ne.symm hk]

/-- A row that is closed leaves the sum with its hold, and the counter loses what the handle takes
off it. -/
theorem holdsConserved_closed {intent : RequestIntentHandle} {data : IntentUpdate} {row : IntentRow}
    (hdata : data.state ≠ .held) (hkey : row.apiKeyId = intent.apiKeyId)
    (h : IntentClosed intent data row db db') (hc : HoldsConserved db) :
    HoldsConserved db' ↔ min intent.holdMicros (db.heldOf intent.apiKeyId) = row.holdUsd := by
  have hafter : ∀ k, db'.heldSum k =
      db.heldSum k - if k = intent.apiKeyId then (row.holdUsd : ℤ) else 0 := by
    intro k
    have hsum := heldSum_updateIntents [.held] data h.mem h.id
      (by simp [h.state]) k
    rw [Db.heldSum, h.released.intents, ← Db.heldSum, hsum]
    simp [hdata, h.state, hkey, eq_comm]
  have hle : (row.holdUsd : ℤ) ≤ db.heldSum intent.apiKeyId := by
    refine Table.le_sumWhere h.mem ?_ fun _ _ _ ↦ Int.natCast_nonneg _
    simp [h.state, hkey]
  have hown := hc intent.apiKeyId
  constructor
  · intro hc'
    have hnew := hc' intent.apiKeyId
    rw [h.released.held, hafter, if_pos rfl, if_pos rfl, heldOf_updateIntents] at hnew
    omega
  · intro hmin k
    rw [h.released.held, hafter, heldOf_updateIntents]
    by_cases hk : k = intent.apiKeyId
    · subst hk
      rw [if_pos rfl, if_pos rfl]
      omega
    · rw [if_neg hk, if_neg hk, hc k, sub_zero]

/-- A purge deletes no live row. -/
theorem holdsConserved_purge (retentionMs now : ℤ) (hc : HoldsConserved db) :
    HoldsConserved (purgeSettledIntents retentionMs now db) := by
  intro k
  rw [Db.heldSum, purgeSettledIntents, Table.sumWhere_deleteMany]
  · exact hc k
  · intro row _ hpurge
    simp only [purgeable, Bool.and_eq_true] at hpurge
    cases hstate : row.state <;> simp [hstate] at hpurge ⊢

/-- **What one step preserves.** A step that closes with the hold of the row conserves holds. -/
theorem holdsConserved_step (hrefs : RefsAgree s) (hc : HoldsConserved s.db)
    (hown : StepClosesOwnHold s e) (h : step s e = some s') : HoldsConserved s'.db := by
  obtain ⟨db₁, db₂, hrequest, hintent, hmoney⟩ := step_phases h
  obtain ⟨hbal, -, hint⟩ := hrequest.frame
  have hheld : ∀ k, db₁.heldOf k = s.db.heldOf k := fun k ↦ by
    rw [Db.heldOf, Db.balanceRow, hbal, ← Db.balanceRow, ← Db.heldOf]
  have hc₁ : HoldsConserved db₁ := holdsConserved_of_eq hheld hint hc
  refine holdsConserved_of_eq hmoney.frame.1 hmoney.frame.2.1 ?_
  cases hintent with
  | idle => exact hc₁
  | opened _ _ hopened => exact holdsConserved_opened rfl hopened hc₁
  | reclaimed _ hcall hreclaimed =>
    have hkey := hrefs.agree _ (System.mem_refs_of_getElem? hcall (List.mem_singleton.2 rfl)) _
      (hint ▸ hreclaimed.mem) hreclaimed.id
    exact holdsConserved_reclaimed hkey hreclaimed hc₁
  | closed hclosing hdata hclosed =>
    have hmem := hint ▸ hclosed.mem
    have hkey := hrefs.agree _ (closing_mem_refs hclosing) _ hmem hclosed.id
    refine (holdsConserved_closed hdata hkey hclosed hc₁).2 ?_
    rw [hheld]
    exact hown _ _ hclosing _ hmem hclosed.id hclosed.state
  | purged _ => exact holdsConserved_purge _ _ hc₁

end Step

/-! ### Runs -/

/-- **Conservation of holds over runs.** In every run, of any length and with any interleaving, in
which whatever is closed is closed with the hold of the row, `held_usd` is the sum of the live
holds. -/
theorem holdsConserved_of_run {s : System} {h : List (System × Event)}
    (hr : Run step (System.init .empty) h s) (hown : ∀ p ∈ h, StepClosesOwnHold p.1 p.2) :
    HoldsConserved s.db := by
  have hboth : RefsAgree s ∧ HoldsConserved s.db :=
    Run.invariant_of_forall (P := fun s ↦ RefsAgree s ∧ HoldsConserved s.db)
      ⟨refsAgree_init _, fun _ ↦ rfl⟩
      (fun hp hc hs ↦ ⟨refsAgree_step hp.1 hs, holdsConserved_step hp.1 hp.2 hc hs⟩) hr hown
  exact hboth.2

/-- Two requests under one key, the second a retry after the first was swept, both closed with
their own hold. -/
theorem holdsConserved_of_run_retry : ∃ (s : System) (h : List (System × Event)),
    Run step (System.init .empty) h s ∧ (∀ p ∈ h, StepClosesOwnHold p.1 p.2) ∧
      HoldsConserved s.db := by
  obtain ⟨h, s, hr, hcheck⟩ := Run.exists_of_check step (System.init .empty)
    [.credit { apiKeyId := "key", amountUsd := .finite 10, idempotencyKey := "top-up" },
      .openIntent ⟨"key", "k", true, "body", .finite 1, some 0⟩ "i1", .tick 1,
      .sweepExpiredIntents 500, .expireIntent 1,
      .openIntent ⟨"key", "k", true, "body", .finite 2, none⟩ "i2", .resolveReplay 2,
      .reclaimIntent 2, .settleIntent 2 (.finite 1) none none none]
    (fun h _ ↦ decide (∀ p ∈ h, StepClosesOwnHold p.1 p.2)) (by decide +kernel)
  have hown := of_decide_eq_true hcheck
  exact ⟨s, h, hr, hown, holdsConserved_of_run hr hown⟩

/-- An intent is opened with a hold of 1, swept, reclaimed with a hold of 2, and settled by its
first owner. -/
def lateSettleEvents : List Event :=
  [.credit { apiKeyId := "key", amountUsd := .finite 10, idempotencyKey := "top-up" },
   .openIntent ⟨"key", "k", true, "body", .finite 1, some 0⟩ "i1",
   .tick 1,
   .sweepExpiredIntents 500,
   .expireIntent 1,
   .openIntent ⟨"key", "k", true, "body", .finite 2, none⟩ "i2",
   .resolveReplay 2,
   .reclaimIntent 2,
   .settleIntent 0 (.finite 0) none none none]

/-- Holds are not conserved in every run: this one leaves 1 USD reserved and no live intent. -/
theorem not_holdsConserved :
    ¬ ∀ (s : System) (h : List (System × Event)), Run step (System.init .empty) h s →
      HoldsConserved s.db := by
  intro hall
  obtain ⟨h, s, hr, hcheck⟩ := Run.exists_of_check step (System.init .empty)
    lateSettleEvents
    (fun _ s ↦ decide (s.db.heldOf "key" = 1000000 ∧ s.db.heldSum "key" = 0))
    (by decide +kernel)
  obtain ⟨hheld, hsum⟩ := of_decide_eq_true hcheck
  have hkey := hall s h hr "key"
  rw [hheld, hsum] at hkey
  exact absurd hkey (by decide)

end ModelConnector
