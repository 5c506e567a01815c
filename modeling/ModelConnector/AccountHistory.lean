import Mathlib.Logic.Relation
import ModelConnector.HoldConservation

/-!
# The history of an account

Any number of callers work on one store, a transaction at a time. Whatever they do, the ledger and
the requests are only added to, what is added belongs to a key that one of their steps acted for,
and the key of nobody's step keeps its balance, its reservation and its live intents
(`acted_of_run`). An intent is closed and taken back any number of times until it is completed; then
it stays as it is until it is purged, and nothing else removes it (`became_of_run`). A caller whose
attempt timed out may be told to repeat it under its key, once: apart from the times an intent was
given up, it is dispatched at most twice (`dispatched_le_of_run`).
-/

namespace ModelConnector

open Atomic Billing Connectors

/-! ### Whom a step acts for -/

/-- The key of the row a reversal is posted against. -/
def reversedAccount (db : Db) (params : ReverseParams) : Option String :=
  (db.ledger.find? fun row ↦ row.idempotencyKey == params.originalIdempotencyKey).map
    LedgerEntry.apiKeyId

/-- The api keys a step acts for. -/
def accounts (s : System) : Event → List String
  | .credit params => [params.apiKeyId]
  | .gift params => [params.apiKeyId]
  | .recordPayment params => [params.apiKeyId]
  | .reverse params => (reversedAccount s.db params).toList
  | .settle params => [params.apiKeyId]
  | .openIntent params _ => [params.apiKeyId]
  | .reclaimIntent i =>
    match s.calls[i]? with
    | some (.reclaiming params _ _) => [params.apiKeyId]
    | _ => []
  | .settleIntent i _ _ _ _ => ((s.owner? i).map RequestIntentHandle.apiKeyId).toList
  | .releaseIntent i => ((s.owner? i).map RequestIntentHandle.apiKeyId).toList
  | .persistAndSettle i outcome _ =>
    outcome.apiKeyId :: ((s.owner? i).map RequestIntentHandle.apiKeyId).toList
  | .persistAndSettleDirect outcome _ => [outcome.apiKeyId]
  | .expireIntent i =>
    match s.calls[i]? with
    | some (.sweeping (intent :: _)) => [intent.apiKeyId]
    | _ => []
  | .reconcileRow i _ =>
    match s.calls[i]? with
    | some (.reconciling (row :: _) _) => [row.apiKeyId]
    | _ => []
  | _ => []

/-- The live intents of a key. -/
def Billing.Db.live (db : Db) (k : String) : List IntentRow :=
  db.intents.rows.filter fun row ↦ row.apiKeyId == k && row.state == .held

/-- What acting for some keys may do to a store: the ledger and the requests get rows of these keys,
and every other key keeps its balance, its reservation and its live intents. -/
structure Acted (keys : List String) (db db' : Db) : Prop where
  ledger : ∃ rows, db'.ledger.rows = db.ledger.rows ++ rows ∧ ∀ row ∈ rows, row.apiKeyId ∈ keys
  requests : ∃ rows, db'.requests.rows = db.requests.rows ++ rows ∧
    ∀ row ∈ rows, row.apiKeyId ∈ keys
  balance : ∀ k ∉ keys, db'.balanceOf k = db.balanceOf k
  held : ∀ k ∉ keys, db'.heldOf k = db.heldOf k
  live : ∀ k ∉ keys, db'.live k = db.live k

namespace Acted

variable {keys keys' : List String} {db db₁ db₂ : Db}

theorem refl (keys : List String) (db : Db) : Acted keys db db where
  ledger := ⟨[], (List.append_nil _).symm, fun _ h ↦ (by cases h)⟩
  requests := ⟨[], (List.append_nil _).symm, fun _ h ↦ (by cases h)⟩
  balance := fun _ _ ↦ rfl
  held := fun _ _ ↦ rfl
  live := fun _ _ ↦ rfl

theorem trans (h : Acted keys db db₁) (h' : Acted keys db₁ db₂) : Acted keys db db₂ where
  ledger := by
    obtain ⟨rows, hrows, hmem⟩ := h.ledger
    obtain ⟨rows', hrows', hmem'⟩ := h'.ledger
    refine ⟨rows ++ rows', by rw [hrows', hrows, List.append_assoc], fun row hrow ↦ ?_⟩
    exact (List.mem_append.1 hrow).elim (hmem row) (hmem' row)
  requests := by
    obtain ⟨rows, hrows, hmem⟩ := h.requests
    obtain ⟨rows', hrows', hmem'⟩ := h'.requests
    refine ⟨rows ++ rows', by rw [hrows', hrows, List.append_assoc], fun row hrow ↦ ?_⟩
    exact (List.mem_append.1 hrow).elim (hmem row) (hmem' row)
  balance := fun k hk ↦ (h'.balance k hk).trans (h.balance k hk)
  held := fun k hk ↦ (h'.held k hk).trans (h.held k hk)
  live := fun k hk ↦ (h'.live k hk).trans (h.live k hk)

theorem mono (hsub : keys ⊆ keys') (h : Acted keys db db₁) : Acted keys' db db₁ where
  ledger := by
    obtain ⟨rows, hrows, hmem⟩ := h.ledger
    exact ⟨rows, hrows, fun row hrow ↦ hsub (hmem row hrow)⟩
  requests := by
    obtain ⟨rows, hrows, hmem⟩ := h.requests
    exact ⟨rows, hrows, fun row hrow ↦ hsub (hmem row hrow)⟩
  balance := fun k hk ↦ h.balance k (mt (@hsub k) hk)
  held := fun k hk ↦ h.held k (mt (@hsub k) hk)
  live := fun k hk ↦ h.live k (mt (@hsub k) hk)

/-- A step that leaves the ledger and the requests alone, and no balance moves. -/
theorem of_intents (hbalance : ∀ k, db₁.balanceOf k = db.balanceOf k)
    (hledger : db₁.ledger = db.ledger) (hrequests : db₁.requests = db.requests)
    (hheld : ∀ k ∉ keys, db₁.heldOf k = db.heldOf k)
    (hlive : ∀ k ∉ keys, db₁.live k = db.live k) : Acted keys db db₁ where
  ledger := ⟨[], by rw [hledger, List.append_nil], fun _ h ↦ (by cases h)⟩
  requests := ⟨[], by rw [hrequests, List.append_nil], fun _ h ↦ (by cases h)⟩
  balance := fun k _ ↦ hbalance k
  held := hheld
  live := hlive

/-- A movement of money acts for its key. -/
theorem of_movement {k : String} {rows : List LedgerRow} {balanceUsd : ℤ} (hk : k ∈ keys)
    (hkey : ∀ row ∈ rows, row.apiKeyId = k) (h : Movement k rows balanceUsd db db₁) :
    Acted keys db db₁ where
  ledger := ⟨rows, h.rows, fun row hrow ↦ hkey row hrow ▸ hk⟩
  requests := ⟨[], by rw [h.requests, List.append_nil], fun _ h ↦ (by cases h)⟩
  balance := fun k' hk' ↦ h.others k' fun heq ↦ hk' (heq ▸ hk)
  held := fun k' _ ↦ h.held k'
  live := fun k' _ ↦ by rw [Db.live, h.intents, Db.live]

end Acted

/-! ### The keys of a step -/

section Keys

variable {s s' : System} {e : Event}

theorem mem_accounts_of_closing {intent : RequestIntentHandle} {data : IntentUpdate}
    (h : closing s e = some (intent, data)) : intent.apiKeyId ∈ accounts s e := by
  cases e <;> simp only [closing, Option.map_eq_some_iff, reduceCtorEq] at h
  case settleIntent =>
    obtain ⟨_, hi, heq⟩ := h
    cases heq
    simp [accounts, hi]
  case releaseIntent =>
    obtain ⟨_, hi, heq⟩ := h
    cases heq
    simp [accounts, hi]
  case persistAndSettle =>
    obtain ⟨_, hi, heq⟩ := h
    split at heq <;> cases heq <;> simp [accounts, hi]
  case expireIntent =>
    split at h
    · rename_i hcall
      cases h
      simp [accounts, hcall]
    · cases h

theorem mem_accounts_of_charging {entry : ChargeEntry} (h : charging s e = some entry) :
    entry.apiKeyId ∈ accounts s e := by
  cases chargeOf_of_charging h with
  | settle he _ =>
    subst he
    exact List.mem_singleton_self _
  | settleIntent he howner _ =>
    subst he
    simp [accounts, howner, SettleIntentParams.entry]
  | persisted he _ howner _ =>
    subst he
    simp [accounts, howner, SettleIntentParams.entry, Outcome.settleIntentParams]
  | persistedDirect he _ =>
    subst he
    exact List.mem_singleton_self _
  | reconciled he hcall =>
    subst he
    simp [accounts, hcall, reconcileParams, SettleParams.entry]

theorem mem_accounts_of_posting {k : String} {amountUsd : Decimal}
    (h : posting e = some (k, amountUsd)) : k ∈ accounts s e := by
  cases e <;> simp only [posting, reduceCtorEq, Option.some.injEq, Prod.mk.injEq] at h <;>
    simp [accounts, h.1]

theorem mem_accounts_of_persisting {outcome : Outcome} {requestId : String}
    (h : persisting e = some (outcome, requestId)) : outcome.apiKeyId ∈ accounts s e := by
  cases e <;> simp only [persisting, reduceCtorEq, Option.some.injEq, Prod.mk.injEq] at h <;>
    simp [accounts, h.1]

/-- A reversal is for the key of its original, the only row under the key it names. -/
theorem reversedAccount_eq {params : ReverseParams} {original : LedgerRow} {db : Db}
    (h : Reversible params original db) : reversedAccount db params = some original.apiKeyId := by
  unfold reversedAccount
  cases hfind : db.ledger.find? fun row ↦
      row.idempotencyKey == params.originalIdempotencyKey with
  | none =>
    have hnone := List.find?_eq_none.1 hfind original h.mem
    simp [h.key] at hnone
  | some row =>
    have hkey := List.find?_some (p := fun row : LedgerRow ↦
      row.idempotencyKey == params.originalIdempotencyKey) hfind
    have heq : row = original := by
      refine Table.eq_of_clash (fun a b ↦ ?_) (List.mem_of_find?_eq_some hfind) h.mem ?_
      · simp only [LedgerRow.clash, Bool.beq_comm (a := a.idempotencyKey)]
      · simp only [LedgerRow.clash, beq_iff_eq]
        exact (beq_iff_eq.1 hkey).trans h.key.symm
    rw [heq, Option.map_some]

end Keys

/-! ### Steps -/

section Steps

variable {s s' : System} {e : Event} {db db' : Db} {keys : List String}

/-- The rows a charge writes are for its key. -/
theorem ChargeEntry.apiKeyId_of_mem_rows {entry : ChargeEntry} {current : ℚ} {row : LedgerRow}
    (h : row ∈ entry.rows current) : row.apiKeyId = entry.apiKeyId := by
  rcases List.mem_cons.1 h with rfl | h
  · rfl
  · split at h
    · rw [List.mem_singleton.1 h]
      rfl
    · cases h

/-- The rows a reversal writes are for the key of its original. -/
theorem ReverseParams.apiKeyId_of_mem_rows {params : ReverseParams} {original row : LedgerRow}
    {amountUsd recovered : ℚ} (h : row ∈ params.rows original amountUsd recovered) :
    row.apiKeyId = original.apiKeyId := by
  rcases List.mem_cons.1 h with rfl | h
  · rfl
  · split at h
    · rw [List.mem_singleton.1 h]
      rfl
    · cases h

/-- A guarded update that is about the row of another key leaves the live intents of a key. -/
theorem live_updateIntents {id : String} {states : List IntentState} {data : IntentUpdate}
    {k : String} (h : ∀ row ∈ db.intents.rows, row.id = id → row.apiKeyId ≠ k) :
    (db.updateIntents id states data).live k = db.live k := by
  have hsame : ∀ row ∈ db.intents.rows, row.apiKeyId = k →
      (if row.matches id states then data.apply row else row) = row := fun row hrow hkey ↦
    if_neg fun hmatch ↦ h row hrow (IntentRow.matches_iff.1 hmatch).1 hkey
  unfold Db.live
  rw [updateIntents_rows, List.filter_map]
  have hfilter : ∀ row ∈ db.intents.rows,
      ((fun row : IntentRow ↦ row.apiKeyId == k && row.state == .held) ∘
        fun row ↦ if row.matches id states then data.apply row else row) row =
          (row.apiKeyId == k && row.state == .held) := by
    intro row hrow
    by_cases hkey : row.apiKeyId = k
    · rw [Function.comp_apply, hsame row hrow hkey]
    · have hother : (if row.matches id states then data.apply row else row).apiKeyId =
          row.apiKeyId := by
        split <;> rfl
      have hfalse : (row.apiKeyId == k) = false := beq_eq_false_iff_ne.2 hkey
      simp only [Function.comp_apply, hother, hfalse, Bool.false_and]
  rw [List.filter_congr hfilter]
  refine (List.map_congr_left fun row hrow ↦ ?_).trans (List.map_id _)
  obtain ⟨hrow, hlive⟩ := List.mem_filter.1 hrow
  simp only [Bool.and_eq_true, beq_iff_eq] at hlive
  exact hsame row hrow hlive.1

theorem acted_requestPhase (h : RequestPhase s e db') : Acted (accounts s e) s.db db' := by
  cases h with
  | idle => exact .refl _ _
  | created he _ _ hcreated =>
    refine ⟨⟨[], by rw [hcreated.ledger, List.append_nil], fun _ h ↦ (by cases h)⟩,
      ⟨_, hcreated.rows, fun row hrow ↦ ?_⟩, fun k _ ↦ ?_, fun k _ ↦ ?_, fun k _ ↦ ?_⟩
    · rw [List.mem_singleton.1 hrow]
      exact mem_accounts_of_persisting he
    · simp only [Db.balanceOf, Db.balanceRow, hcreated.balances]
    · simp only [Db.heldOf, Db.balanceRow, hcreated.balances]
    · simp only [Db.live, hcreated.intents]

theorem acted_intentPhase (hrefs : RefsAgree s) (hintents : db.intents = s.db.intents)
    (h : IntentPhase s e db db') : Acted (accounts s e) db db' := by
  obtain ⟨hbalance, hledger, hrequests⟩ := h.frame
  refine .of_intents hbalance hledger hrequests (fun k hk ↦ ?_) fun k hk ↦ ?_
  · cases h with
    | idle => rfl
    | opened he _ hopened =>
      subst he
      rw [hopened.held]
      exact if_neg fun heq ↦ hk (List.mem_singleton.2 heq)
    | reclaimed he hcall hreclaimed =>
      subst he
      rw [hreclaimed.reserved.held, if_neg (by simpa [accounts, hcall] using hk)]
      rfl
    | closed hclosing _ hclosed =>
      rw [hclosed.released.held, if_neg fun heq ↦ hk ?_]
      · rfl
      · rw [heq]
        exact mem_accounts_of_closing hclosing
    | purged _ => rfl
  · cases h with
    | idle => rfl
    | opened he _ hopened =>
      subst he
      rename_i params _ _ _
      have hne : ¬ params.apiKeyId = k := fun heq ↦ hk (List.mem_singleton.2 heq.symm)
      simp [Db.live, hopened.rows, OpenIntentParams.row, hne]
    | reclaimed he hcall hreclaimed =>
      subst he
      rw [Db.live, hreclaimed.reserved.intents, ← Db.live]
      refine live_updateIntents fun row hrow hid hkey ↦ hk ?_
      have hagree := hrefs.agree _ (System.mem_refs_of_getElem? hcall (List.mem_singleton_self _))
        row (hintents ▸ hrow) hid
      simp only [accounts, hcall]
      exact List.mem_singleton.2 (hkey.symm.trans hagree)
    | closed hclosing _ hclosed =>
      rw [Db.live, hclosed.released.intents, ← Db.live]
      refine live_updateIntents fun row hrow hid hkey ↦ hk ?_
      have hagree := hrefs.agree _ (closing_mem_refs hclosing) row (hintents ▸ hrow) hid
      rw [← hkey, hagree]
      exact mem_accounts_of_closing hclosing
    | purged _ =>
      unfold Db.live purgeSettledIntents Table.deleteMany
      rw [List.filter_filter]
      refine List.filter_congr fun row _ ↦ ?_
      cases hstate : row.state <;> simp [hstate, purgeable]

theorem acted_reverse (params : ReverseParams) :
    Acted (accounts s (.reverse params)) s.db (reverse params s.db).2 := by
  unfold reverse
  cases hvalid : validateReverse params with
  | error e => exact .refl _ _
  | ok amountUsd =>
    obtain ⟨-, hpos⟩ := validateReverse_eq_ok hvalid
    rcases absorbDuplicate_run_cases ⟨false, params.amountUsd, 0, 0⟩
      (reverseInTx params amountUsd) s.db with ⟨result, db', hx, hrun⟩ | ⟨e, -, hdb, -⟩
    · obtain ⟨-, original, hreversible, hreversed⟩ := reverseInTx_reversed hpos.le hx
      simp only [hrun]
      refine .of_movement ?_ (fun row hrow ↦ ReverseParams.apiKeyId_of_mem_rows hrow)
        hreversed.movement
      simp [accounts, reversedAccount_eq hreversible]
    · simp only [hdb]
      exact .refl _ _

/-- **What a step does to the books.** -/
theorem acted_step (hrefs : RefsAgree s) (h : step s e = some s') :
    Acted (accounts s e) s.db s'.db := by
  by_cases hreverse : ∃ params, e = .reverse params
  · obtain ⟨params, rfl⟩ := hreverse
    cases h
    exact acted_reverse params
  · obtain ⟨db₁, db₂, hrequest, hintent, hmoney⟩ := step_phases h
    refine ((acted_requestPhase hrequest).trans
      (acted_intentPhase hrefs hrequest.frame.2.2 hintent)).trans ?_
    cases hmoney with
    | idle => exact .refl _ _
    | posted he _ _ hposted =>
      refine .of_movement (mem_accounts_of_posting he) (fun row hrow ↦ ?_) hposted.movement
      rw [List.mem_singleton.1 hrow]
      rfl
    | charged he _ _ hcharged =>
      exact .of_movement (mem_accounts_of_charging he)
        (fun row hrow ↦ ChargeEntry.apiKeyId_of_mem_rows hrow) hcharged.movement
    | reversed he _ _ _ => exact absurd ⟨_, he⟩ hreverse

end Steps

/-- **The books over a run**, from any state that is reached: the ledger and the requests are what
they were with rows added, each for a key that a step of the run acted for, and a key that none of
them acted for has the balance, the reservation and the live intents it had. -/
theorem acted_of_run {db₀ : Db} {s₀ s : System} {h₀ h : List (System × Event)}
    (hr₀ : Run step (System.init db₀) h₀ s₀) (hr : Run step s₀ h s) :
    Acted (h.flatMap fun p ↦ accounts p.1 p.2) s₀.db s.db := by
  induction hr with
  | nil => exact .refl _ _
  | @snoc h s s' e hr hs ih =>
    have hrefs : RefsAgree s :=
      (hr₀.append hr).invariant (refsAgree_init db₀) fun hp hs ↦ refsAgree_step hp hs
    rw [List.flatMap_append]
    refine (ih.mono (List.subset_append_left _ _)).trans ((acted_step hrefs hs).mono ?_)
    rw [List.flatMap_singleton]
    exact List.subset_append_right _ _

/-- A key that was given 5 keeps them while another one reserves, is charged and is written off. -/
theorem acted_of_run_other : ∃ (s₀ s : System) (h : List (System × Event)), Run step s₀ h s ∧
    h.length = 3 ∧ s₀.db.balanceOf "kept" = 5000000 ∧ s.db.balanceOf "kept" = 5000000 := by
  obtain ⟨h, s, hr, hcheck⟩ := Run.exists_of_check step (System.init .empty)
    [.gift ⟨"kept", .finite 5, "gift", "welcome"⟩, .gift ⟨"other", .finite 1, "other", "welcome"⟩,
      .openIntent ⟨"other", "k", true, "body", .finite 1, none⟩ "i1",
      .settleIntent 0 (.finite 3) none none none]
    (fun h s ↦ decide (h.length = 4 ∧ s.db.balanceOf "kept" = 5000000 ∧
      "kept" ∉ (h.drop 1).flatMap fun p ↦ accounts p.1 p.2)) (by decide +kernel)
  obtain ⟨hlength, hbalance, hother⟩ := of_decide_eq_true hcheck
  rw [← List.take_append_drop 1 h] at hr
  obtain ⟨s₀, hr₀, hr⟩ := hr.exists_of_append
  exact ⟨s₀, s, h.drop 1, hr, by simp [hlength],
    ((acted_of_run hr₀ hr).balance "kept" hother).symm.trans hbalance, hbalance⟩

/-! ### The life of an intent -/

/-- A move of an intent. -/
inductive IntentMove (a : IntentRow) : IntentRow → Prop
  /-- It is settled, released or swept. -/
  | closed {data : IntentUpdate} : a.state = .held → data.state ≠ .held → data.holdUsd = none →
      data.expiresAt = none → IntentMove a (data.apply a)
  /-- Its key is taken back. -/
  | reclaimed (holdUsd : ℕ) (expiresAt : ℤ) : a.state = .released ∨ a.state = .expired →
      IntentMove a ((reclaimData holdUsd expiresAt).apply a)

/-- What is never written to an intent. -/
def Billing.IntentRow.identity (row : IntentRow) :
    String × String × String × Bool × String × ℤ :=
  (row.id, row.apiKeyId, row.intentKey, row.clientSupplied, row.payloadFingerprint, row.createdAt)

/-- An intent has become another row: by moves, for the same request, and not once it was
completed. -/
structure Became (a b : IntentRow) : Prop where
  path : Relation.ReflTransGen IntentMove a b
  identity : b.identity = a.identity
  completed : a.state = .completed → b = a

/-- A purge deletes the row. -/
def Purges (s : System) (e : Event) (row : IntentRow) : Prop :=
  ∃ retentionMs, e = .purgeSettledIntents retentionMs ∧ purgeable retentionMs s.now row = true

namespace Became

variable {a b c : IntentRow}

theorem refl (a : IntentRow) : Became a a :=
  ⟨.refl, rfl, fun _ ↦ rfl⟩

theorem trans (h : Became a b) (h' : Became b c) : Became a c where
  path := h.path.trans h'.path
  identity := h'.identity.trans h.identity
  completed := fun hstate ↦ by
    have hb := h.completed hstate
    rw [h'.completed (hb ▸ hstate), hb]

theorem of_move (h : IntentMove a b) : Became a b where
  path := .single h
  identity := by
    cases h with
    | closed _ _ _ _ => rfl
    | reclaimed _ _ _ => rfl
  completed := fun hstate ↦ by
    cases h with
    | closed hheld _ _ _ =>
      rw [hstate] at hheld
      cases hheld
    | reclaimed _ _ hleft =>
      rw [hstate] at hleft
      rcases hleft with hleft | hleft <;> cases hleft

theorem id_eq (h : Became a b) : b.id = a.id :=
  congrArg Prod.fst h.identity

end Became

section Lives

variable {s s₀ s' : System} {e : Event} {db : Db} {h₀ h : List (System × Event)} {db₀ : Db}

/-- An update that closes an intent leaves its hold and its expiry. -/
theorem closing_data {intent : RequestIntentHandle} {data : IntentUpdate}
    (h : closing s e = some (intent, data)) : data.holdUsd = none ∧ data.expiresAt = none := by
  cases e <;> simp only [closing, Option.map_eq_some_iff, reduceCtorEq] at h
  case settleIntent =>
    obtain ⟨_, -, heq⟩ := h
    cases heq
    exact ⟨rfl, rfl⟩
  case releaseIntent =>
    obtain ⟨_, -, heq⟩ := h
    cases heq
    exact ⟨rfl, rfl⟩
  case persistAndSettle =>
    obtain ⟨_, -, heq⟩ := h
    split at heq <;> cases heq <;> exact ⟨rfl, rfl⟩
  case expireIntent =>
    split at h
    · cases h
      exact ⟨rfl, rfl⟩
    · cases h

/-- The rows of one table are what became of those of another. -/
structure Carried (rows rows' : List IntentRow) : Prop where
  forward : ∀ a ∈ rows, ∃ b ∈ rows', Became a b
  backward : ∀ b ∈ rows', ∃ a ∈ rows, Became a b

theorem Carried.refl (rows : List IntentRow) : Carried rows rows :=
  ⟨fun a ha ↦ ⟨a, ha, .refl a⟩, fun a ha ↦ ⟨a, ha, .refl a⟩⟩

theorem carried_updateIntents {id : String} {states : List IntentState} {data : IntentUpdate}
    (h : ∀ row : IntentRow, row.state ∈ states → IntentMove row (data.apply row)) :
    Carried db.intents.rows (db.updateIntents id states data).intents.rows := by
  have hbecame : ∀ row : IntentRow,
      Became row (if row.matches id states then data.apply row else row) := by
    intro row
    split
    · rename_i hmatch
      exact .of_move (h row (IntentRow.matches_iff.1 hmatch).2)
    · exact .refl row
  rw [updateIntents_rows]
  refine ⟨fun a ha ↦ ⟨_, List.mem_map_of_mem ha, hbecame a⟩, fun b hb ↦ ?_⟩
  obtain ⟨a, ha, rfl⟩ := List.mem_map.1 hb
  exact ⟨a, ha, hbecame a⟩

/-- **What a step does to the intents**: it carries all of them over, or opens one more, or purges
some that are not live. -/
theorem carried_step (h : step s e = some s') :
    Carried s.db.intents.rows s'.db.intents.rows ∨
      (∃ params id holdUsd, e = .openIntent params id ∧ id ∉ s.minted ∧
        s'.db.intents.rows =
          s.db.intents.rows ++ [params.row id holdUsd s.now (s.expiry params)]) ∨
      ∃ retentionMs, e = .purgeSettledIntents retentionMs ∧
        s'.db.intents.rows =
          s.db.intents.rows.filter fun row ↦ !purgeable retentionMs s.now row := by
  obtain ⟨db₁, db₂, hrequest, hintent, hmoney⟩ := step_phases h
  rw [hmoney.frame.2.1, ← hrequest.frame.2.2]
  cases hintent with
  | idle => exact .inl (.refl _)
  | opened he hid hopened => exact .inr (.inl ⟨_, _, _, he, hid, hopened.rows⟩)
  | reclaimed _ _ hreclaimed =>
    rw [hreclaimed.reserved.intents]
    exact .inl (carried_updateIntents fun row hstate ↦ .reclaimed _ _ (by simpa using hstate))
  | closed hclosing hstate hclosed =>
    obtain ⟨hhold, hexpires⟩ := closing_data hclosing
    rw [hclosed.released.intents]
    exact .inl (carried_updateIntents fun row hheld ↦
      .closed (by simpa using hheld) hstate hhold hexpires)
  | purged he => exact .inr (.inr ⟨_, he, rfl⟩)

/-- The ids that were minted stay so. -/
theorem minted_of_run (hr : Run step s₀ h s) : ∀ id ∈ s₀.minted, id ∈ s.minted :=
  Run.invariant (P := fun s ↦ ∀ id ∈ s₀.minted, id ∈ s.minted) (fun _ hid ↦ hid)
    (fun hs hstep id hid ↦ (step_minted hstep).1 id (hs id hid)) hr

/-- Where a row of a later table comes from. -/
theorem origin_of_run (hr : Run step s₀ h s) : ∀ b ∈ s.db.intents.rows,
    (∃ a ∈ s₀.db.intents.rows, Became a b) ∨
      ∃ p ∈ h, ∃ params id holdUsd, p.2 = .openIntent params id ∧ id ∉ s₀.minted ∧
        Became (params.row id holdUsd p.1.now (p.1.expiry params)) b := by
  induction hr with
  | nil => exact fun b hb ↦ .inl ⟨b, hb, .refl b⟩
  | @snoc h s s' e hr hs ih =>
    have hearlier : ∀ b ∈ s.db.intents.rows, ∀ c, Became b c →
        (∃ a ∈ s₀.db.intents.rows, Became a c) ∨
          ∃ p ∈ h ++ [(s, e)], ∃ params id holdUsd, p.2 = .openIntent params id ∧
            id ∉ s₀.minted ∧ Became (params.row id holdUsd p.1.now (p.1.expiry params)) c := by
      intro b hb c hc
      rcases ih b hb with ⟨a, ha, hab⟩ | ⟨p, hp, params, id, holdUsd, he, hid, hrow⟩
      · exact .inl ⟨a, ha, hab.trans hc⟩
      · exact .inr ⟨p, List.mem_append_left _ hp, params, id, holdUsd, he, hid, hrow.trans hc⟩
    intro c hc
    rcases carried_step hs with hcarried | ⟨params, id, holdUsd, he, hid, hrows⟩ | ⟨_, _, hrows⟩
    · obtain ⟨b, hb, hbc⟩ := hcarried.backward c hc
      exact hearlier b hb c hbc
    · rw [hrows] at hc
      rcases List.mem_append.1 hc with hc | hc
      · exact hearlier c hc c (.refl c)
      · rw [List.mem_singleton.1 hc]
        exact .inr ⟨(s, e), List.mem_append_right _ (List.mem_singleton_self _), params, id,
          holdUsd, he, fun hmem ↦ hid (minted_of_run hr id hmem), .refl _⟩
    · rw [hrows] at hc
      exact hearlier c (List.mem_filter.1 hc).1 c (.refl c)

/-- What became of a row of an earlier table. -/
theorem fate_of_run (hr : Run step s₀ h s) : ∀ a ∈ s₀.db.intents.rows,
    (∃ b ∈ s.db.intents.rows, Became a b) ∨
      ∃ p ∈ h, ∃ b ∈ p.1.db.intents.rows, Became a b ∧ Purges p.1 p.2 b := by
  induction hr with
  | nil => exact fun a ha ↦ .inl ⟨a, ha, .refl a⟩
  | @snoc h s s' e hr hs ih =>
    intro a ha
    rcases ih a ha with ⟨b, hb, hab⟩ | ⟨p, hp, hpurged⟩
    · rcases carried_step hs with hcarried | ⟨_, _, _, _, _, hrows⟩ | ⟨retentionMs, he, hrows⟩
      · obtain ⟨c, hc, hbc⟩ := hcarried.forward b hb
        exact .inl ⟨c, hc, hab.trans hbc⟩
      · exact .inl ⟨b, hrows ▸ List.mem_append_left _ hb, hab⟩
      · by_cases hpurge : purgeable retentionMs s.now b = true
        · exact .inr ⟨(s, e), List.mem_append_right _ (List.mem_singleton_self _), b, hb, hab,
            retentionMs, he, hpurge⟩
        · refine .inl ⟨b, ?_, hab⟩
          rw [hrows]
          exact List.mem_filter.2 ⟨hb, by simpa using hpurge⟩
    · exact .inr ⟨p, List.mem_append_left _ hp, hpurged⟩

end Lives

/-- **The life of an intent over a run**, from any state that is reached. An intent is in the table
as what became of it, or a purge has deleted what became of it and its id never comes back; and what
is in the table has become of an intent that was there or that the run opened. -/
theorem became_of_run {db₀ : Db} {s₀ s : System} {h₀ h : List (System × Event)}
    (hr₀ : Run step (System.init db₀) h₀ s₀) (hr : Run step s₀ h s) :
    (∀ a ∈ s₀.db.intents.rows, (∃ b ∈ s.db.intents.rows, Became a b) ∨
      (∀ b ∈ s.db.intents.rows, b.id ≠ a.id) ∧
        ∃ p ∈ h, ∃ b ∈ p.1.db.intents.rows, Became a b ∧ Purges p.1 p.2 b) ∧
    ∀ b ∈ s.db.intents.rows, (∃ a ∈ s₀.db.intents.rows, Became a b) ∨
      ∃ p ∈ h, ∃ params id holdUsd, p.2 = .openIntent params id ∧ id ∉ s₀.minted ∧
        Became (params.row id holdUsd p.1.now (p.1.expiry params)) b := by
  have hrefs : RefsAgree s₀ :=
    hr₀.invariant (refsAgree_init db₀) fun hp hs ↦ refsAgree_step hp hs
  refine ⟨fun a ha ↦ ?_, origin_of_run hr⟩
  by_cases hid : ∃ b ∈ s.db.intents.rows, b.id = a.id
  · obtain ⟨b, hb, hid⟩ := hid
    refine .inl ⟨b, hb, ?_⟩
    rcases origin_of_run hr b hb with ⟨a', ha', hab⟩ | ⟨_, -, _, id, _, -, hfresh, hrow⟩
    · rwa [intent_eq_of_id ha ha' (hid.symm.trans hab.id_eq)]
    · have hsame : id = a.id := hrow.id_eq.symm.trans hid
      exact absurd (hrefs.rows_minted a ha) (hsame ▸ hfresh)
  · push Not at hid
    rcases fate_of_run hr a ha with ⟨b, hb, hab⟩ | hpurged
    · exact absurd hab.id_eq (hid b hb)
    · exact .inr ⟨hid, hpurged⟩

/-- A key that is released, taken back, settled and purged. -/
theorem became_of_run_purged : ∃ (s₀ s : System) (h : List (System × Event)) (a : IntentRow),
    Run step s₀ h s ∧ a ∈ s₀.db.intents.rows ∧
      ∃ p ∈ h, ∃ b ∈ p.1.db.intents.rows, Became a b ∧ Purges p.1 p.2 b := by
  obtain ⟨h, s, hr, hcheck⟩ := Run.exists_of_check step (System.init .empty)
    [.gift ⟨"key", .finite 5, "gift", "welcome"⟩,
      .openIntent ⟨"key", "k", true, "body", .finite 1, none⟩ "i1", .releaseIntent 0,
      .openIntent ⟨"key", "k", true, "body", .finite 2, none⟩ "i2", .resolveReplay 1,
      .reclaimIntent 1, .settleIntent 1 (.finite 1) none none none, .tick 100,
      .purgeSettledIntents 10]
    (fun h s ↦ decide ((h.drop 2).head?.any (fun p ↦ p.1.db.intents.rows.length = 1) ∧
      s.db.intents.rows = [])) (by decide +kernel)
  obtain ⟨hopened, hempty⟩ := of_decide_eq_true hcheck
  rw [← List.take_append_drop 2 h] at hr
  obtain ⟨s₀, hr₀, hr⟩ := hr.exists_of_append
  cases hdrop : h.drop 2 with
  | nil =>
    rw [hdrop] at hopened
    cases hopened
  | cons p rest =>
    rw [hdrop] at hr hopened
    obtain ⟨rfl, -⟩ := hr.exists_of_cons
    cases hrows : p.1.db.intents.rows with
    | nil => simp [hrows] at hopened
    | cons a _ =>
      have ha : a ∈ p.1.db.intents.rows := by rw [hrows]; exact List.mem_cons_self
      rcases (became_of_run hr₀ hr).1 a ha with ⟨b, hb, -⟩ | ⟨-, hpurged⟩
      · rw [hempty] at hb
        cases hb
      · exact ⟨p.1, s, p :: rest, a, hr, ha, hpurged⟩

/-! ### Repeated attempts -/

/-- The step persists an attempt as `execute` does: its caller is told to repeat it when that is
granted. -/
def RetryGranted (s : System) (e : Event) : Prop :=
  ∀ i outcome requestId intent, e = .persistAndSettle i outcome requestId →
    s.owner? i = some intent → ∃ isBaseApi idempotencyKey response,
      outcome.replayable =
        !grantsTransientTimeoutRetry isBaseApi idempotencyKey (some intent) response

/-- An attempt may be repeated when it is the first one under a key. -/
theorem retryGranted_iff {s : System} {e : Event} : RetryGranted s e ↔
    ∀ i outcome requestId intent, e = .persistAndSettle i outcome requestId →
      s.owner? i = some intent → outcome.replayable = false →
        intent.reclaimed = false ∧ intent.intentKey ≠ "" := by
  constructor
  · intro h i outcome requestId intent he howner hrepeat
    obtain ⟨isBaseApi, idempotencyKey, response, hreplay⟩ :=
      h i outcome requestId intent he howner
    rw [hrepeat] at hreplay
    have hgrants : grantsTransientTimeoutRetry isBaseApi idempotencyKey (some intent) response =
        true := by simpa using hreplay.symm
    simp only [grantsTransientTimeoutRetry, Bool.and_eq_true, Option.any_some, Option.any_eq_true,
      decide_eq_true_eq, Bool.not_eq_true'] at hgrants
    obtain ⟨⟨-, key, hkey, hne⟩, hsame, hfirst⟩ := hgrants
    rw [hkey, Option.some.injEq] at hsame
    exact ⟨hfirst, hsame ▸ hne⟩
  · intro h i outcome requestId intent he howner
    cases hreplay : outcome.replayable with
    | true =>
      refine ⟨false, none, ⟨"", "", none, .zero, .success, none, none, none⟩, ?_⟩
      simp [grantsTransientTimeoutRetry]
    | false =>
      obtain ⟨hfirst, hne⟩ := h i outcome requestId intent he howner hreplay
      refine ⟨true, some intent.intentKey,
        ⟨"", "", none, .zero, .timeout, some ⟨"timeout", "", false, "abort"⟩, none, none⟩, ?_⟩
      simp [grantsTransientTimeoutRetry, hfirst, hne]

/-- What is persisted may be repeated, if it is. -/
def mayRepeat (s : System) : Event → Bool
  | .persistAndSettle i outcome _ => outcome.replayable ||
    (s.owner? i).all fun intent ↦ !intent.reclaimed && decide (intent.intentKey ≠ "")
  | _ => true

theorem mayRepeat_iff {s : System} {e : Event} : mayRepeat s e = true ↔ RetryGranted s e := by
  rw [retryGranted_iff]
  cases e with
  | persistAndSettle i outcome requestId =>
    simp only [mayRepeat, Bool.or_eq_true, Option.all_eq_true, Bool.and_eq_true,
      Bool.not_eq_true', decide_eq_true_eq]
    constructor
    · rintro h _ _ _ intent ⟨⟩ howner hreplay
      rcases h with h | h
      · rw [hreplay] at h
        cases h
      · exact h intent howner
    · intro h
      cases hreplay : outcome.replayable with
      | true => exact .inl rfl
      | false => exact .inr fun intent howner ↦ h i outcome requestId intent rfl howner hreplay
  | _ => exact ⟨fun _ _ _ _ _ he ↦ (by cases he), fun _ ↦ rfl⟩

instance (s : System) (e : Event) : Decidable (RetryGranted s e) :=
  decidable_of_iff _ mayRepeat_iff

/-- The step makes a caller the owner of the intent, which goes on to dispatch. -/
def dispatches (id : String) (p : System × Event) : Bool :=
  match p.2 with
  | .openIntent params intentId => decide (intentId = id) &&
    ((openIntentInTx params intentId p.1.now (p.1.expiry params)).run p.1.db).1.isOk
  | .reclaimIntent i =>
    match p.1.calls[i]? with
    | some (.reclaiming params expiresAt intentId) => decide (intentId = id) &&
      match ((reclaimIntentInTx intentId params.apiKeyId (System.holdOf params) expiresAt).run
        p.1.db).1 with
      | .ok reclaimed => reclaimed
      | .error _ => false
    | _ => false
  | _ => false

/-- The step persists an attempt under the intent whose caller is told to repeat it. -/
def repeats (id : String) (p : System × Event) : Bool :=
  match p.2 with
  | .persistAndSettle i outcome requestId => !outcome.replayable &&
    (p.1.owner? i).any fun intent ↦ decide (intent.id = id) &&
      (persistAndSettle outcome (some intent) requestId p.1.now p.1.db).1.isOk
  | _ => false

/-- The step gives up the live intent: its owner releases it, or it is swept. -/
def abandons (id : String) (p : System × Event) : Bool :=
  match p.2 with
  | .releaseIntent _ | .expireIntent _ =>
    (closing p.1 p.2).any (fun closed ↦ decide (closed.1.id = id)) &&
      p.1.db.intents.rows.any fun row ↦ decide (row.id = id ∧ row.state = .held)
  | _ => false

/-- The intent may be taken back. -/
def Abandoned (id : String) (db : Db) : Prop :=
  ∃ row ∈ db.intents.rows, row.id = id ∧ row.state ∈ [IntentState.released, .expired]

instance (id : String) (db : Db) : Decidable (Abandoned id db) :=
  inferInstanceAs (Decidable (∃ row ∈ db.intents.rows, _))

/-- The call owns the intent, which it has opened. -/
def Call.isFirst (id : String) : Call → Bool
  | .owner intent => decide (intent.id = id) && !intent.reclaimed
  | _ => false

/-- The calls that own the intent, which they have opened. -/
def System.firsts (id : String) (s : System) : ℕ :=
  s.calls.countP (Call.isFirst id)

section Repeated

variable {id : String} {s s' : System} {e : Event} {db db' : Db} {i : ℕ} {call call' : Call}
  {h : List (System × Event)}

theorem getElem?_of_owner? {intent : RequestIntentHandle} (h : s.owner? i = some intent) :
    s.calls[i]? = some (.owner intent) := by
  unfold System.owner? at h
  split at h
  · rename_i hcall
    cases h
    exact hcall
  · cases h

theorem isFirst_of_ended (h : call.ended) : call.isFirst id = false := by
  cases call <;> first | rfl | cases h

theorem countP_append_call (id : String) (s : System) (call : Call) :
    (s.calls ++ [call]).countP (Call.isFirst id) =
      s.firsts id + if call.isFirst id then 1 else 0 := by
  simp [System.firsts, List.countP_append, List.countP_singleton]

/-- A call goes on that is no more the owner than it was. -/
theorem countP_set_le (hcall : s.calls[i]? = some call)
    (hle : call'.isFirst id = true → call.isFirst id = true) :
    (s.calls.set i call').countP (Call.isFirst id) ≤ s.firsts id := by
  obtain ⟨hi, rfl⟩ := List.getElem?_eq_some_iff.1 hcall
  unfold System.firsts
  rw [List.countP_set hi]
  by_cases hfirst : call'.isFirst id = true
  · have hpos : 0 < s.calls.countP (Call.isFirst id) :=
      List.countP_pos_iff.2 ⟨_, List.getElem_mem hi, hle hfirst⟩
    rw [if_pos (hle hfirst), if_pos hfirst]
    omega
  · rw [if_neg hfirst]
    omega

/-- The owner's call is over. -/
theorem countP_set_add_one (hcall : s.calls[i]? = some call) (hfirst : call.isFirst id = true)
    (hended : call'.isFirst id = false) :
    (s.calls.set i call').countP (Call.isFirst id) + 1 = s.firsts id := by
  obtain ⟨hi, rfl⟩ := List.getElem?_eq_some_iff.1 hcall
  have hpos : 0 < s.calls.countP (Call.isFirst id) :=
    List.countP_pos_iff.2 ⟨_, List.getElem_mem hi, hfirst⟩
  unfold System.firsts
  rw [List.countP_set hi, if_pos hfirst, hended]
  simp only [Bool.false_eq_true, if_false]
  omega

theorem afterSettle_isFirst {α : Type} {intent : RequestIntentHandle}
    {answer : Except TxError α} (h : (System.afterSettle intent answer).isFirst id = true) :
    (Call.owner intent).isFirst id = true := by
  cases answer
  · exact h
  · cases h

theorem isFirst_afterOpen {params : OpenIntentParams} {intentId : String} {expiresAt : ℤ}
    (h : (System.afterOpen params expiresAt db' ((openIntentInTx params intentId s.now
      expiresAt).run s.db).1).isFirst id = true) : intentId = id := by
  rcases (openIntentInTx params intentId s.now expiresAt).run_cases s.db with
    ⟨intent, db₁, hx, hrun⟩ | ⟨err, -, hrun⟩
  · obtain ⟨_, _, -, -, rfl, -⟩ := openIntentInTx_ok hx
    rw [hrun] at h
    simpa [System.afterOpen, Call.isFirst] using h
  · rw [hrun] at h
    cases err <;> cases h

/-- What a step does to the calls: it leaves them alone, makes a new one, or one of them goes on.
The owner that has opened the intent was it before, or the intent is new. -/
inductive CallsMoved (id : String) (s s' : System) : Prop
  | same : s'.calls = s.calls → CallsMoved id s s'
  | appended {call : Call} : s'.calls = s.calls ++ [call] →
      (call.isFirst id = true → id ∈ s'.minted ∧ id ∉ s.minted) → CallsMoved id s s'
  | moved {i : ℕ} {call call' : Call} : s.calls[i]? = some call → s'.calls = s.calls.set i call' →
      (call'.isFirst id = true → call.isFirst id = true) → CallsMoved id s s'

/-- A call that takes an intent back has not opened it. -/
theorem afterReclaim_isFirst {params : OpenIntentParams} {intentId : String}
    {answer : Except TxError Bool} :
    (System.afterReclaim params intentId db answer).isFirst id = false := by
  unfold System.afterReclaim
  split
  · simp [Call.isFirst, System.reclaimedHandle]
  · rfl
  · exact isFirst_of_ended (refused_ended _ _ _)

theorem callsMoved_step (id : String) (hs : step s e = some s') : CallsMoved id s s' := by
  cases e with
  | tick _ | credit _ | gift _ | recordPayment _ | reverse _ | settle _ | purgeSettledIntents _ =>
    cases hs
    exact .same rfl
  | openIntent params intentId =>
    simp only [step] at hs
    split at hs
    · cases hs
    rename_i hfresh
    cases hs
    refine .appended rfl fun hfirst ↦ ?_
    obtain rfl := isFirst_afterOpen hfirst
    exact ⟨List.mem_cons_self, hfresh⟩
  | resolveReplay i =>
    simp only [step] at hs
    split at hs
    · rename_i hcall
      cases hs
      refine .moved hcall rfl fun hfirst ↦ ?_
      unfold System.afterResolve at hfirst
      split at hfirst <;> cases hfirst
    · cases hs
  | reclaimIntent i =>
    simp only [step] at hs
    split at hs
    · rename_i hcall
      cases hs
      exact .moved hcall rfl fun hfirst ↦ absurd hfirst (by simp [afterReclaim_isFirst])
    · cases hs
  | settleIntent i _ _ _ _ | releaseIntent i =>
    simp only [step] at hs
    split at hs
    · rename_i hcall
      cases hs
      exact .moved hcall rfl afterSettle_isFirst
    · cases hs
  | persistAndSettle i outcome requestId =>
    simp only [step] at hs
    split at hs
    · cases hs
    split at hs
    · rename_i intent hcall
      cases hs
      exact .moved hcall rfl afterSettle_isFirst
    · cases hs
  | persistAndSettleDirect outcome requestId =>
    simp only [step] at hs
    split at hs
    · cases hs
    · cases hs
      exact .same rfl
  | sweepExpiredIntents limit | findUnsettled opts =>
    cases hs
    exact .appended rfl fun hfirst ↦ by cases hfirst
  | expireIntent i | reconcileRow i fault =>
    simp only [step] at hs
    split at hs
    · rename_i hcall
      cases hs
      exact .moved hcall rfl fun hfirst ↦ by cases hfirst
    · cases hs

/-- The step persists an attempt under the intent, by a call that is told to repeat it whatever
becomes of the transaction. -/
def tells (id : String) (i : ℕ) (p : System × Event) : Bool :=
  match p.2 with
  | .persistAndSettle j outcome _ => decide (j = i) && !outcome.replayable &&
    (p.1.owner? i).any fun intent ↦ decide (intent.id = id)
  | _ => false

/-- The call is the owner that has opened the intent. -/
def System.IsFirst (id : String) (s : System) (i : ℕ) : Prop :=
  ∃ call, s.calls[i]? = some call ∧ call.isFirst id = true

theorem isFirst_of_tells (hgranted : RetryGranted s e) (h : tells id i (s, e) = true) :
    s.IsFirst id i := by
  cases e <;> simp only [tells] at h <;> try cases h
  case persistAndSettle j outcome requestId =>
    simp only [Bool.and_eq_true, decide_eq_true_eq, Bool.not_eq_true', Option.any_eq_true] at h
    obtain ⟨⟨rfl, hreplay⟩, intent, howner, hid⟩ := h
    obtain ⟨hreclaimed, -⟩ :=
      retryGranted_iff.1 hgranted j outcome requestId intent rfl howner hreplay
    exact ⟨_, getElem?_of_owner? howner, by simp [Call.isFirst, hid, hreclaimed]⟩

/-- A call whose attempt is persisted is over. -/
theorem repeats_step (hs : step s e = some s') (hgranted : RetryGranted s e)
    (h : repeats id (s, e) = true) : ∃ i call call', s.calls[i]? = some call ∧
      s'.calls = s.calls.set i call' ∧ call.isFirst id = true ∧ call'.isFirst id = false := by
  cases e <;> simp only [repeats] at h <;> try cases h
  case persistAndSettle i outcome requestId =>
    simp only [Bool.and_eq_true, Bool.not_eq_true', Option.any_eq_true, decide_eq_true_eq] at h
    obtain ⟨hreplay, intent, howner, hid, hok⟩ := h
    have hcall := getElem?_of_owner? howner
    simp only [step, hcall] at hs
    split at hs
    · cases hs
    cases hs
    obtain ⟨hreclaimed, -⟩ :=
      retryGranted_iff.1 hgranted i outcome requestId intent rfl howner hreplay
    refine ⟨i, _, _, hcall, rfl, by simp [Call.isFirst, hid, hreclaimed], ?_⟩
    cases hanswer : (persistAndSettle outcome (some intent) requestId s.now s.db).1 with
    | error e =>
      rw [hanswer] at hok
      cases hok
    | ok _ => rfl

/-- The calls that have opened the intent, after a step: an opening makes one, and a repetition
ends one. -/
theorem firsts_step (id : String) (hs : step s e = some s') (hgranted : RetryGranted s e) :
    s'.firsts id + (if repeats id (s, e) then 1 else 0) ≤
      s.firsts id + if id ∈ s'.minted ∧ id ∉ s.minted then 1 else 0 := by
  by_cases hrepeats : repeats id (s, e) = true
  · obtain ⟨i, call, call', hcall, hset, hfirst, hended⟩ := repeats_step hs hgranted hrepeats
    rw [if_pos hrepeats, System.firsts, hset, countP_set_add_one hcall hfirst hended]
    exact Nat.le_add_right _ _
  · rw [if_neg hrepeats, add_zero]
    cases callsMoved_step id hs with
    | same hcalls =>
      rw [System.firsts, hcalls]
      exact Nat.le_add_right _ _
    | @appended call hcalls hnew =>
      rw [System.firsts, hcalls, countP_append_call]
      refine Nat.add_le_add_left ?_ _
      split
      · rename_i hfirst
        rw [if_pos (hnew hfirst)]
      · exact Nat.zero_le _
    | moved hcall hcalls hle =>
      rw [System.firsts, hcalls]
      exact (countP_set_le hcall hle).trans (Nat.le_add_right _ _)

/-- The owner that has opened the intent was it before, or has just opened it. -/
theorem isFirst_step {j : ℕ} (hs : step s e = some s') (h : s'.IsFirst id j) :
    s.IsFirst id j ∨ j = s.calls.length ∧ id ∈ s'.minted ∧ id ∉ s.minted := by
  obtain ⟨call, hcall, hfirst⟩ := h
  cases callsMoved_step id hs with
  | same hcalls => exact .inl ⟨call, hcalls ▸ hcall, hfirst⟩
  | appended hcalls hnew =>
    rw [hcalls] at hcall
    rcases lt_or_ge j s.calls.length with hlt | hge
    · exact .inl ⟨call, (List.getElem?_append_left hlt).symm.trans hcall, hfirst⟩
    · rw [List.getElem?_append_right hge, List.getElem?_singleton] at hcall
      split at hcall
      · rename_i hzero
        cases hcall
        exact .inr ⟨by omega, hnew hfirst⟩
      · cases hcall
  | @moved i before after hbefore hcalls hle =>
    rw [hcalls] at hcall
    rcases eq_or_ne i j with rfl | hne
    · rw [List.getElem?_set_self (List.getElem?_eq_some_iff.1 hbefore).1] at hcall
      cases hcall
      exact .inl ⟨before, hbefore, hle hfirst⟩
    · rw [List.getElem?_set_ne hne] at hcall
      exact .inl ⟨call, hcall, hfirst⟩

/-- One call at most owns the intent as the one that opened it, and the calls that were told to
repeat an attempt under it are this one. -/
structure ToldOne (id : String) (h : List (System × Event)) (s : System) : Prop where
  minted : ∀ i, s.IsFirst id i → id ∈ s.minted
  unique : ∀ i j, s.IsFirst id i → s.IsFirst id j → i = j
  told : ∀ p ∈ h, ∀ i, tells id i p = true → id ∈ s.minted ∧ ∀ j, s.IsFirst id j → j = i
  once : ∀ p ∈ h, ∀ q ∈ h, ∀ i j, tells id i p = true → tells id j q = true → i = j

theorem ToldOne.snoc (ht : ToldOne id h s) (hs : step s e = some s')
    (hgranted : RetryGranted s e) : ToldOne id (h ++ [(s, e)]) s' := by
  have hmem : ∀ p ∈ h ++ [(s, e)], p ∈ h ∨ p = (s, e) := fun p hp ↦
    (List.mem_append.1 hp).imp_right List.mem_singleton.1
  have hminted := (step_minted hs).1
  have hold : ∀ j, id ∈ s.minted → s'.IsFirst id j → s.IsFirst id j := fun j hid hj ↦
    (isFirst_step hs hj).resolve_right fun hnew ↦ hnew.2.2 hid
  have hnow : ∀ i, tells id i (s, e) = true → s.IsFirst id i := fun i ↦ isFirst_of_tells hgranted
  refine ⟨fun i hi ↦ ?_, fun i j hi hj ↦ ?_, fun p hp i htells ↦ ?_, fun p hp q hq i j hi hj ↦ ?_⟩
  · rcases isFirst_step hs hi with hbefore | hnew
    · exact hminted id (ht.minted i hbefore)
    · exact hnew.2.1
  · rcases isFirst_step hs hi with hi | hinew
    · have hid := ht.minted i hi
      exact ht.unique i j hi (hold j hid hj)
    · rcases isFirst_step hs hj with hj | hjnew
      · exact absurd (ht.minted j hj) hinew.2.2
      · exact hinew.1.trans hjnew.1.symm
  · rcases hmem p hp with hp | rfl
    · obtain ⟨hid, hall⟩ := ht.told p hp i htells
      exact ⟨hminted id hid, fun j hj ↦ hall j (hold j hid hj)⟩
    · have hfirst := hnow i htells
      have hid := ht.minted i hfirst
      exact ⟨hminted id hid, fun j hj ↦ ht.unique j i (hold j hid hj) hfirst⟩
  · rcases hmem p hp with hp | rfl
    · rcases hmem q hq with hq | rfl
      · exact ht.once p hp q hq i j hi hj
      · exact ((ht.told p hp i hi).2 j (hnow j hj)).symm
    · rcases hmem q hq with hq | rfl
      · exact (ht.told q hq j hj).2 i (hnow i hi)
      · exact ht.unique i j (hnow i hi) (hnow j hj)

theorem toldOne_of_run (id : String) {db₀ : Db} (hr : Run step (System.init db₀) h s)
    (hgranted : ∀ p ∈ h, RetryGranted p.1 p.2) : ToldOne id h s := by
  induction hr with
  | nil =>
    have hnone : ∀ i, ¬ (System.init db₀).IsFirst id i := by
      rintro i ⟨call, hcall, -⟩
      cases hcall
    exact ⟨fun i hi ↦ absurd hi (hnone i), fun i _ hi ↦ absurd hi (hnone i), by simp, by simp⟩
  | @snoc h s s' e hr hs ih =>
    exact (ih fun p hp ↦ hgranted p (List.mem_append_left _ hp)).snoc hs
      (hgranted (s, e) (List.mem_append_right _ (List.mem_singleton_self _)))

theorem not_abandoned_updateIntents {states : List IntentState} {data : IntentUpdate}
    (hstates : ∀ state ∈ [IntentState.released, .expired], state ∈ states)
    (hdata : data.state ∉ [IntentState.released, .expired]) :
    ¬ Abandoned id (db.updateIntents id states data) := by
  rintro ⟨row, hrow, hid, hstate⟩
  rw [updateIntents_rows] at hrow
  obtain ⟨a, -, rfl⟩ := List.mem_map.1 hrow
  by_cases hmatch : a.matches id states = true
  · rw [if_pos hmatch] at hstate
    exact hdata hstate
  · rw [if_neg hmatch] at hid hstate
    exact hmatch (IntentRow.matches_iff.2 ⟨hid, hstates _ hstate⟩)

/-- An update abandons an intent only if it is about it. -/
theorem abandoned_updateIntents {intentId : String} {states : List IntentState}
    {data : IntentUpdate} (h : Abandoned id (db.updateIntents intentId states data)) :
    Abandoned id db ∨ intentId = id ∧ data.state ∈ [IntentState.released, .expired] := by
  obtain ⟨row, hrow, hid, hstate⟩ := h
  rw [updateIntents_rows] at hrow
  obtain ⟨a, ha, rfl⟩ := List.mem_map.1 hrow
  by_cases hmatch : a.matches intentId states = true
  · rw [if_pos hmatch] at hid hstate
    exact .inr ⟨(IntentRow.matches_iff.1 hmatch).1.symm.trans hid, hstate⟩
  · rw [if_neg hmatch] at hid hstate
    exact .inl ⟨a, ha, hid, hstate⟩

/-- An intent is abandoned by a repetition, by its owner or by a sweep. -/
theorem abandoned_step (hs : step s e = some s') (h : Abandoned id s'.db) :
    Abandoned id s.db ∨ repeats id (s, e) = true ∨ abandons id (s, e) = true := by
  obtain ⟨db₁, db₂, hrequest, hintent, hmoney⟩ := step_phases hs
  have hafter := h
  unfold Abandoned at h
  rw [hmoney.frame.2.1] at h
  have hbefore : Abandoned id db₁ → Abandoned id s.db := by
    unfold Abandoned
    rw [hrequest.frame.2.2]
    exact fun h ↦ h
  cases hintent with
  | idle => exact .inl (hbefore h)
  | opened _ _ hopened =>
    obtain ⟨row, hrow, hid, hstate⟩ := h
    rw [hopened.rows] at hrow
    rcases List.mem_append.1 hrow with hrow | hrow
    · exact .inl (hbefore ⟨row, hrow, hid, hstate⟩)
    · rw [List.mem_singleton.1 hrow] at hstate
      simp [OpenIntentParams.row] at hstate
  | reclaimed _ _ hreclaimed =>
    rw [hreclaimed.reserved.intents] at h
    rcases abandoned_updateIntents h with h | ⟨-, hstate⟩
    · exact .inl (hbefore h)
    · simp [reclaimData] at hstate
  | @closed intent data row _ hclosing hheld hclosed =>
    rw [hclosed.released.intents] at h
    rcases abandoned_updateIntents h with h | ⟨hid, hstate⟩
    · exact .inl (hbefore h)
    · have hrow : row ∈ s.db.intents.rows := hrequest.frame.2.2 ▸ hclosed.mem
      have hlive : (s.db.intents.rows.any fun row ↦ decide (row.id = id ∧ row.state = .held)) =
          true :=
        List.any_eq_true.2 ⟨row, hrow, decide_eq_true ⟨hclosed.id.trans hid, hclosed.state⟩⟩
      cases e with
      | releaseIntent _ | expireIntent _ =>
        refine .inr (.inr ?_)
        simp only [abandons, hclosing, Option.any_some, hid, hlive, decide_true, Bool.and_self]
      | settleIntent i amountUsd requestId response reason =>
        obtain ⟨_, -, heq⟩ := Option.map_eq_some_iff.1 hclosing
        cases heq
        simp [SettleIntentParams.data] at hstate
      | persistAndSettle i outcome requestId =>
        obtain ⟨owner, howner, heq⟩ := Option.map_eq_some_iff.1 hclosing
        cases hreplay : outcome.replayable with
        | true =>
          rw [hreplay] at heq
          cases heq
          simp [SettleIntentParams.data] at hstate
        | false =>
          rw [hreplay] at heq
          cases heq
          have hcall := getElem?_of_owner? howner
          simp only [step, hcall] at hs
          split at hs
          · cases hs
          cases hs
          unfold persistAndSettle at hafter
          rcases (persistAndSettleInTx outcome (some intent) requestId s.now).run_cases s.db with
            ⟨_, _, -, hrun⟩ | ⟨_, -, hrun⟩
          · refine .inr (.inl ?_)
            simp only [repeats, hreplay, howner, Option.any_some, hid, persistAndSettle, hrun]
            rfl
          · rw [hrun] at hafter
            exact .inl hafter
      | _ => cases hclosing
  | purged _ =>
    obtain ⟨row, hrow, hid, hstate⟩ := h
    exact .inl (hbefore ⟨row, (List.mem_filter.1 hrow).1, hid, hstate⟩)

/-- An intent that is taken back was abandoned before, and is not any more. -/
theorem dispatches_step (hs : step s e = some s') (h : dispatches id (s, e) = true) :
    (id ∈ s'.minted ∧ id ∉ s.minted) ∨ Abandoned id s.db ∧ ¬ Abandoned id s'.db := by
  cases e <;> simp only [dispatches] at h <;> try cases h
  case openIntent params intentId =>
    rw [Bool.and_eq_true, decide_eq_true_eq] at h
    obtain ⟨rfl, -⟩ := h
    simp only [step] at hs
    split at hs
    · cases hs
    · rename_i hfresh
      cases hs
      exact .inl ⟨List.mem_cons_self, hfresh⟩
  case reclaimIntent i =>
    split at h
    · rename_i params expiresAt intentId hcall
      rw [Bool.and_eq_true, decide_eq_true_eq] at h
      obtain ⟨rfl, h⟩ := h
      simp only [step, hcall] at hs
      cases hs
      rcases (reclaimIntentInTx intentId params.apiKeyId (System.holdOf params)
        expiresAt).run_cases s.db with ⟨ok, db', hx, hrun⟩ | ⟨err, -, hrun⟩
      · simp only [hrun] at h
        rcases reclaimIntentInTx_ok hx with ⟨rfl, -⟩ | ⟨-, holdUsd, row, -, hreclaimed⟩
        · cases h
        · refine .inr ⟨⟨row, hreclaimed.mem, hreclaimed.id, hreclaimed.state⟩, ?_⟩
          have hrows : ¬ Abandoned intentId (s.db.updateIntents intentId [.released, .expired]
              (reclaimData holdUsd expiresAt)) :=
            not_abandoned_updateIntents (fun _ hstate ↦ hstate) (by simp [reclaimData])
          unfold Abandoned at hrows ⊢
          rw [← hreclaimed.reserved.intents] at hrows
          rw [hrun]
          exact hrows
      · simp only [hrun] at h
        cases h
    · cases h

/-- What a step adds to the dispatches of the intent, and to its being abandoned. -/
theorem dispatches_add_abandoned (id : String) (hs : step s e = some s') :
    (if dispatches id (s, e) then 1 else 0) + (if Abandoned id s'.db then 1 else 0) ≤
      (if repeats id (s, e) then 1 else 0) + (if abandons id (s, e) then 1 else 0) +
        (if Abandoned id s.db then 1 else 0) +
          if id ∈ s'.minted ∧ id ∉ s.minted then 1 else 0 := by
  have hrows : (if Abandoned id s'.db then 1 else 0) ≤
      (if repeats id (s, e) then 1 else 0) + (if abandons id (s, e) then 1 else 0) +
        if Abandoned id s.db then 1 else 0 := by
    by_cases hafter : Abandoned id s'.db
    · rw [if_pos hafter]
      rcases abandoned_step hs hafter with h | h | h <;> rw [if_pos h] <;> omega
    · rw [if_neg hafter]
      exact Nat.zero_le _
  by_cases hdispatches : dispatches id (s, e) = true
  · rw [if_pos hdispatches]
    rcases dispatches_step hs hdispatches with hnew | ⟨hbefore, hafter⟩
    · rw [if_pos hnew]
      omega
    · rw [if_neg hafter, if_pos hbefore]
      omega
  · rw [if_neg hdispatches]
    omega

/-- An intent is told to be repeated at most once, and is dispatched when it is opened and then as
often as it was abandoned. -/
theorem attempts_of_run (id : String) {db₀ : Db} (hr : Run step (System.init db₀) h s)
    (hgranted : ∀ p ∈ h, RetryGranted p.1 p.2) :
    h.countP (repeats id) + s.firsts id ≤ (if id ∈ s.minted then 1 else 0) ∧
      h.countP (dispatches id) + (if Abandoned id s.db then 1 else 0) ≤
        h.countP (repeats id) + h.countP (abandons id) + if id ∈ s.minted then 1 else 0 := by
  induction hr with
  | nil =>
    refine ⟨Nat.zero_le _, ?_⟩
    simp only [List.countP_nil, Nat.zero_add]
    split
    · rename_i habandoned
      obtain ⟨row, hrow, hid, -⟩ := habandoned
      rw [if_pos]
      exact hid ▸ (refsAgree_init db₀).rows_minted row hrow
    · exact Nat.zero_le _
  | @snoc h s s' e hr hs ih =>
    obtain ⟨hrepeats, hdispatches⟩ := ih fun p hp ↦ hgranted p (List.mem_append_left _ hp)
    have hfirsts := firsts_step id hs
      (hgranted (s, e) (List.mem_append_right _ (List.mem_singleton_self _)))
    have hrows := dispatches_add_abandoned id hs
    have hminted : (if id ∈ s.minted then 1 else 0) +
        (if id ∈ s'.minted ∧ id ∉ s.minted then 1 else 0) = if id ∈ s'.minted then 1 else 0 := by
      by_cases hid : id ∈ s.minted
      · rw [if_pos hid, if_pos ((step_minted hs).1 id hid), if_neg fun hnew ↦ hnew.2 hid]
      · simp only [hid, not_false_eq_true, and_true, if_false, Nat.zero_add]
    simp only [List.countP_append, List.countP_singleton]
    exact ⟨by omega, by omega⟩

end Repeated

/-- **A second timeout is final.** In any run in which a caller is told to repeat an attempt only
when that is granted, at most one attempt under an intent is, and the intent is dispatched at most
twice, apart from the times it was given up by its owner or a sweep. One call at most is told so,
also when the transaction that persists its attempt is refused. -/
theorem dispatched_le_of_run {db₀ : Db} {s : System} {h : List (System × Event)}
    (hr : Run step (System.init db₀) h s) (hgranted : ∀ p ∈ h, RetryGranted p.1 p.2)
    (id : String) : h.countP (repeats id) ≤ 1 ∧
      h.countP (dispatches id) ≤ 2 + h.countP (abandons id) ∧
      ∀ p ∈ h, ∀ q ∈ h, ∀ i j, tells id i p = true → tells id j q = true → i = j := by
  obtain ⟨hrepeats, hdispatches⟩ := attempts_of_run id hr hgranted
  have hminted : (if id ∈ s.minted then 1 else 0) ≤ 1 := by
    split <;> omega
  exact ⟨by omega, by omega, (toldOne_of_run id hr hgranted).once⟩

/-- The call is answered with what was stored. -/
def Call.replays (stored : String) : Call → Bool
  | .answered (.replay response _) => response == stored
  | _ => false

/-- A timeout, its repetition under the same key that times out again, and a third call that is
answered with what the second one stored. -/
theorem dispatched_le_of_run_repeated : ∃ (s : System) (h : List (System × Event)),
    Run step (System.init .empty) h s ∧ h.countP (dispatches "i1") = 2 ∧
      2 ≤ 2 + h.countP (abandons "i1") ∧ s.calls[2]?.any (Call.replays "second") = true := by
  obtain ⟨h, s, hr, hcheck⟩ := Run.exists_of_check step (System.init .empty)
    [.gift ⟨"key", .finite 5, "gift", "welcome"⟩,
      .openIntent ⟨"key", "k", true, "body", .finite 1, none⟩ "i1",
      .persistAndSettle 0 ⟨"key", .finite 0, none, "first", false⟩ "r1",
      .openIntent ⟨"key", "k", true, "body", .finite 1, none⟩ "i2", .resolveReplay 1,
      .reclaimIntent 1, .persistAndSettle 1 ⟨"key", .finite 0, none, "second", true⟩ "r2",
      .openIntent ⟨"key", "k", true, "body", .finite 1, none⟩ "i3", .resolveReplay 2]
    (fun h s ↦ decide (h.countP (dispatches "i1") = 2 ∧
      s.calls[2]?.any (Call.replays "second") = true ∧ ∀ p ∈ h, RetryGranted p.1 p.2))
    (by decide +kernel)
  obtain ⟨hdispatches, hreplayed, hgranted⟩ := of_decide_eq_true hcheck
  have hle := (dispatched_le_of_run hr hgranted "i1").2.1
  rw [hdispatches] at hle
  exact ⟨s, h, hr, hdispatches, hle, hreplayed⟩

end ModelConnector
