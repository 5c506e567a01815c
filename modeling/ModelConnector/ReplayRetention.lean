import ModelConnector.Handles

/-!
# Replay protection and the retention of completed intents

A completed intent answers every repeat of its request from its row, for as long as the row is
there. No request, sweep or reclaim ever moves a completed row; only the purge deletes it, and it
selects by `created_at`. A row that was opened, swept and reclaimed keeps the `created_at` of its
first life, so it can be purged right after it completed, long before the retention is over.

`answersFrom_of_run` is the guarantee for the runs in which every completed row a purge selects was
completed at least the retention ago. `not_answersFrom` is a run in which a repeat dispatches and
is charged a second time.
-/

namespace ModelConnector

open Atomic Billing Connectors

/-- What a completed intent answers a repeat with. -/
def storedOutcome (row : IntentRow) : IntentOpenResult :=
  match row.response with
  | none => .notReplayable
  | some response => .replay response row.requestId

/-- The request is a repeat of the one that opened the intent: the same key and payload. -/
structure Repeats (params : OpenIntentParams) (row : IntentRow) : Prop where
  apiKeyId : row.apiKeyId = params.apiKeyId
  intentKey : row.intentKey = params.intentKey
  payloadFingerprint : row.payloadFingerprint = params.payloadFingerprint

/-- A hold the store can hold: finite, not negative, inside the range of the column. -/
def ValidHold (params : OpenIntentParams) : Prop :=
  ∃ hold : ℚ, params.holdUsd = .finite hold ∧ 0 ≤ hold ∧ (toMicros hold).natAbs < 10 ^ 12

/-- The step `e` in `s` treats a repeat as answered by `row`. -/
structure AnswersFrom (row : IntentRow) (s : System) (e : Event) : Prop where
  /-- The insertion of a repeat is refused, and the repeat goes on to the existing row. -/
  inserts : ∀ params id s', e = .openIntent params id → Repeats params row → ValidHold params →
    step s e = some s' →
      s'.db = s.db ∧ s'.calls = s.calls ++ [.resolving params (s.expiry params)]
  /-- There it is answered with the stored outcome. -/
  resolves : ∀ i params expiresAt s', e = .resolveReplay i →
    s.calls[i]? = some (.resolving params expiresAt) → Repeats params row → step s e = some s' →
      s'.db = s.db ∧ s'.calls[i]? = some (.answered (storedOutcome row))
  /-- A repeat that read the row before it completed does not get it either. -/
  reclaims : ∀ i params expiresAt s', e = .reclaimIntent i →
    s.calls[i]? = some (.reclaiming params expiresAt row.id) → step s e = some s' →
      s'.db = s.db ∧ ∀ intent, s'.calls[i]? ≠ some (.owner intent)
  /-- No handle of the intent charges. -/
  charges : ∀ intent data s', closing s e = some (intent, data) → intent.id = row.id →
    step s e = some s' → s'.db.ledger = s.db.ledger

/-- The retention a purge is given. -/
def cutoff? : Event → Option ℤ
  | .purgeSettledIntents retentionMs => some retentionMs
  | _ => none

theorem cutoff?_eq_some_iff {e : Event} {cutoffMs : ℤ} :
    cutoff? e = some cutoffMs ↔ e = .purgeSettledIntents cutoffMs := by
  cases e <;> simp [cutoff?]

/-- Every completed row a purge selects was completed at least the retention ago. -/
def RetainsCompleted (retentionMs : ℤ) (s : System) (e : Event) : Prop :=
  ∀ cutoffMs, e = .purgeSettledIntents cutoffMs → ∀ row ∈ s.db.intents.rows,
    row.state = .completed → purgeable cutoffMs s.now row = true →
      ∀ t, row.completedAt = some t → t + retentionMs ≤ s.now

instance (retentionMs : ℤ) (s : System) (e : Event) :
    Decidable (RetainsCompleted retentionMs s e) :=
  decidable_of_iff (∀ cutoffMs ∈ cutoff? e, ∀ row ∈ s.db.intents.rows, row.state = .completed →
      purgeable cutoffMs s.now row = true → ∀ t ∈ row.completedAt, t + retentionMs ≤ s.now)
    ⟨fun h cutoffMs he ↦ h cutoffMs (cutoff?_eq_some_iff.2 he),
      fun h cutoffMs he ↦ h cutoffMs (cutoff?_eq_some_iff.1 he)⟩

/-! ### A completed row answers -/

section Answers

variable {s s' : System} {e : Event} {row : IntentRow} {params : OpenIntentParams} {db : Db}

/-- The insertion of a repeat hits the unique key. -/
theorem openIntentInTx_repeat (id : String) (now expiresAt : ℤ) (hrow : row ∈ db.intents.rows)
    (hrepeat : Repeats params row) (hvalid : ValidHold params) :
    openIntentInTx params id now expiresAt db = .error .duplicateKey := by
  obtain ⟨hold, hfin, hnonneg, hrange⟩ := hvalid
  have hstore : storeNonneg 12 hold = .ok (toMicros hold).toNat := by
    rw [storeNonneg, if_pos hrange, if_pos (toMicros_nonneg hnonneg)]
  have hsign : (!params.holdUsd.isNegative) = true := by
    simpa [hfin, Decimal.isNegative] using hnonneg
  have hbind : bindDecimal params.holdUsd = .ok hold := by
    rw [hfin]
    rfl
  have hclash : row.clash (params.row id (toMicros hold).toNat now expiresAt) = true := by
    simp [IntentRow.clash, OpenIntentParams.row, hrepeat.apiKeyId, hrepeat.intentKey]
  rw [openIntentInTx, bind_of_ok (require_of_true hsign), bind_of_ok (ofExcept_of_ok hbind),
    bind_of_ok (ofExcept_of_ok hstore), bind_of_error (requestIntentCreate_clash hrow hclash)]

/-- Reading a completed row answers with the stored outcome. -/
theorem resolveReplay_repeat (hrow : row ∈ db.intents.rows) (hstate : row.state = .completed)
    (hrepeat : Repeats params row) : resolveReplay params db = .inl (storedOutcome row) := by
  have hfind : db.requestIntentFindUnique params.apiKeyId params.intentKey = some row := by
    cases hfound : db.requestIntentFindUnique params.apiKeyId params.intentKey with
    | none =>
      have hnone := List.find?_eq_none.1 hfound row hrow
      simp [hrepeat.apiKeyId, hrepeat.intentKey] at hnone
    | some existing =>
      have hkey := List.find?_some hfound
      simp only [Bool.and_eq_true, beq_iff_eq] at hkey
      rw [intent_eq_of_key (List.mem_of_find?_eq_some hfound) hrow
        (hkey.1.trans hrepeat.apiKeyId.symm) (hkey.2.trans hrepeat.intentKey.symm)]
  rw [resolveReplay, hfind]
  simp only [hrepeat.payloadFingerprint, bne_self_eq_false, Bool.false_eq_true, if_false, hstate,
    storedOutcome]
  cases row.response <;> rfl

/-- A completed row in the store answers whatever step comes next. -/
theorem answersFrom_of_mem (hrow : row ∈ s.db.intents.rows) (hstate : row.state = .completed)
    (e : Event) : AnswersFrom row s e where
  inserts := by
    rintro params id s' rfl hrepeat hvalid h
    have hx := openIntentInTx_repeat id s.now (s.expiry params) hrow hrepeat hvalid
    have hrun : (openIntentInTx params id s.now (s.expiry params)).run s.db =
        (.error .duplicateKey, s.db) := by
      rw [run, hx]
    simp only [step, hrun] at h
    split at h
    · cases h
    · cases h
      exact ⟨rfl, rfl⟩
  resolves := by
    rintro i params expiresAt s' rfl hcall hrepeat h
    simp only [step, hcall, resolveReplay_repeat hrow hstate hrepeat, Option.some.injEq] at h
    subst h
    refine ⟨rfl, ?_⟩
    rw [System.resume, List.getElem?_set_self (List.getElem?_eq_some_iff.1 hcall).1]
    rfl
  reclaims := by
    rintro i params expiresAt s' rfl hcall h
    simp only [step, hcall, Option.some.injEq] at h
    subst h
    have hset : ∀ call db, (s.resume i call db).calls[i]? = some call := fun call db ↦ by
      rw [System.resume, List.getElem?_set_self (List.getElem?_eq_some_iff.1 hcall).1]
    rcases (reclaimIntentInTx row.id params.apiKeyId (System.holdOf params) expiresAt).run_cases s.db
      with ⟨ok, db', hx, hrun⟩ | ⟨err, -, hrun⟩
    -- a completed row is none that can be taken back
    · rcases reclaimIntentInTx_ok hx with ⟨rfl, rfl⟩ | ⟨-, holdUsd, other, -, hreclaimed⟩
      · rw [hrun]
        refine ⟨rfl, fun intent hintent ↦ ?_⟩
        rw [hset] at hintent
        cases hintent
      · have hother := hreclaimed.state
        rw [intent_eq_of_id hreclaimed.mem hrow hreclaimed.id, hstate] at hother
        simp at hother
    · rw [hrun]
      refine ⟨rfl, fun intent hintent ↦ ?_⟩
      rw [hset] at hintent
      cases err <;> cases hintent
  charges := by
    intro intent data s' hclosing hid h
    obtain ⟨db₁, db₂, hrequest, hintent, hmoney⟩ := step_phases h
    have hledger : db₂.ledger = s.db.ledger := hintent.frame.2.1.trans hrequest.frame.2.1
    cases hmoney with
    | idle => exact hledger
    | posted hposting _ _ _ => cases e <;> simp [posting, closing] at hposting hclosing
    | charged _ _ hprepared _ =>
      obtain ⟨other, hother, hotherid, hheld⟩ := hprepared.live _ _ hclosing
      rw [intent_eq_of_id hother hrow (hotherid.trans hid), hstate] at hheld
      cases hheld
    | reversed hreverse _ _ _ =>
      subst hreverse
      simp [closing] at hclosing

end Answers

/-! ### A completed row stays -/

section Step

variable {s s' : System} {e : Event} {row : IntentRow}

/-- A guarded update passes a completed row by, when it is guarded on other states. -/
theorem mem_updateIntents_of_completed {db : Db} {id : String} {states : List IntentState}
    {data : IntentUpdate} (hrow : row ∈ db.intents.rows) (hstate : row.state = .completed)
    (hstates : IntentState.completed ∉ states) :
    row ∈ (db.updateIntents id states data).intents.rows := by
  refine List.mem_map.2 ⟨row, hrow, if_neg ?_⟩
  rw [IntentRow.matches_iff, hstate]
  exact fun h ↦ hstates h.2

/-- **What one step does to a completed row.** It stays, unless a purge selects it. -/
theorem completed_step (hrow : row ∈ s.db.intents.rows) (hstate : row.state = .completed)
    (h : step s e = some s') :
    row ∈ s'.db.intents.rows ∨ ∃ cutoffMs, e = .purgeSettledIntents cutoffMs ∧
      purgeable cutoffMs s.now row = true := by
  obtain ⟨db₁, db₂, hrequest, hintent, hmoney⟩ := step_phases h
  rw [hmoney.frame.2.1]
  rw [← hrequest.frame.2.2] at hrow
  cases hintent with
  | idle => exact .inl hrow
  | opened _ _ hopened =>
    rw [hopened.rows]
    exact .inl (List.mem_append_left _ hrow)
  | reclaimed _ _ hreclaimed =>
    rw [hreclaimed.reserved.intents]
    exact .inl (mem_updateIntents_of_completed hrow hstate (by simp))
  | closed _ _ hclosed =>
    rw [hclosed.released.intents]
    exact .inl (mem_updateIntents_of_completed hrow hstate (by simp))
  | @purged cutoffMs he =>
    by_cases hpurge : purgeable cutoffMs s.now row = true
    · exact .inr ⟨cutoffMs, he, hpurge⟩
    · exact .inl (List.mem_filter.2 ⟨hrow, by simpa using hpurge⟩)

/-- A step keeps every completed row inside its retention exactly when its purge, if it is one,
selects none of them. -/
theorem retains_step_iff {retentionMs : ℤ} (h : step s e = some s') :
    RetainsCompleted retentionMs s e ↔
      ∀ row ∈ s.db.intents.rows, row.state = .completed → ∀ t, row.completedAt = some t →
        s.now < t + retentionMs → row ∈ s'.db.intents.rows := by
  constructor
  · intro hretain row hrow hstate t ht hnow
    rcases completed_step hrow hstate h with hkept | ⟨cutoffMs, he, hpurge⟩
    · exact hkept
    · have hended := hretain cutoffMs he row hrow hstate hpurge t ht
      omega
  · rintro hkeep cutoffMs rfl row hrow hstate hpurge t ht
    by_contra hnow
    cases h
    have hkept := hkeep row hrow hstate t ht (not_le.1 hnow)
    have hnot := (List.mem_filter.1 hkept).2
    rw [hpurge] at hnot
    cases hnot

end Step

/-! ### Runs -/

/-- The row was completed at time `t` in some state of the run. -/
def EverCompleted (h : List (System × Event)) (s : System) (row : IntentRow) (t : ℤ) : Prop :=
  (row ∈ s.db.intents.rows ∨ ∃ p ∈ h, row ∈ p.1.db.intents.rows) ∧ row.state = .completed ∧
    row.completedAt = some t

/-- A completed row stays in the store for the retention. -/
theorem mem_of_everCompleted {retentionMs : ℤ} {s₀ s : System} {h : List (System × Event)}
    (hr : Run step s₀ h s) (hretain : ∀ p ∈ h, RetainsCompleted retentionMs p.1 p.2)
    {row : IntentRow} {t : ℤ} (hc : EverCompleted h s row t) (hnow : s.now < t + retentionMs) :
    row ∈ s.db.intents.rows := by
  induction hr with
  | nil =>
    rcases hc.1 with hrow | ⟨p, hp, -⟩
    · exact hrow
    · cases hp
  | @snoc h s s' e _ hs ih =>
    rcases hc.1 with hrow | ⟨p, hp, hrow⟩
    · exact hrow
    -- the row was there before the last step, so it was there in the state the step was taken in
    have hbefore : row ∈ s.db.intents.rows := by
      refine ih (fun p hp ↦ hretain p (List.mem_append_left _ hp)) ⟨?_, hc.2⟩ ?_
      · rcases List.mem_append.1 hp with hp | hp
        · exact .inr ⟨p, hp, hrow⟩
        · rw [List.mem_singleton.1 hp] at hrow
          exact .inl hrow
      · exact lt_of_le_of_lt (step_now hs) hnow
    exact (retains_step_iff hs).1 (hretain (s, e) (by simp)) row hbefore hc.2.1 t hc.2.2
      (lt_of_le_of_lt (step_now hs) hnow)

/-- **Replay protection lasts for the whole retention.** In every run in which a purge only selects
completed rows that were completed at least the retention ago: an intent that was completed at time
`t` answers every repeat of its request before `t` plus the retention with its stored outcome, and
none of them dispatches or is charged. -/
theorem answersFrom_of_run {retentionMs : ℤ} {s₀ s : System} {h : List (System × Event)}
    (hr : Run step s₀ h s) (hretain : ∀ p ∈ h, RetainsCompleted retentionMs p.1 p.2) :
    ∀ row t, EverCompleted h s row t → s.now < t + retentionMs → ∀ e, AnswersFrom row s e :=
  fun _ _ hc hnow ↦ answersFrom_of_mem (mem_of_everCompleted hr hretain hc hnow) hc.2.1

/-- A request, its settlement, and a purge an hour before the retention is over. -/
theorem answersFrom_of_run_kept : ∃ (s : System) (h : List (System × Event)),
    Run step (System.init .empty) h s ∧
      (∀ p ∈ h, RetainsCompleted DEFAULT_INTENT_RETENTION_MS p.1 p.2) ∧
        ∃ row t, EverCompleted h s row t ∧ s.now < t + DEFAULT_INTENT_RETENTION_MS ∧
          ∀ e, AnswersFrom row s e := by
  obtain ⟨h, s, hr, hcheck⟩ := Run.exists_of_check step (System.init .empty)
    [.credit { apiKeyId := "key", amountUsd := .finite 10, idempotencyKey := "top-up" },
      .openIntent ⟨"key", "k", true, "body", .finite 1, none⟩ "i1",
      .settleIntent 0 (.finite 1) none (some "{}") none, .tick 82800000,
      .purgeSettledIntents DEFAULT_INTENT_RETENTION_MS]
    (fun h s ↦ decide ((∀ p ∈ h, RetainsCompleted DEFAULT_INTENT_RETENTION_MS p.1 p.2) ∧
      (∃ row ∈ s.db.intents.rows, row.state = .completed ∧ row.completedAt = some 0) ∧
        s.now < 0 + DEFAULT_INTENT_RETENTION_MS)) (by decide +kernel)
  obtain ⟨hretain, ⟨row, hrow, hstate, ht⟩, hnow⟩ := of_decide_eq_true hcheck
  have hc : EverCompleted h s row 0 := ⟨.inl hrow, hstate, ht⟩
  exact ⟨s, h, hr, hretain, row, 0, hc, hnow, answersFrom_of_run hr hretain row 0 hc hnow⟩

/-- The request of `not_answersFrom`. -/
def repeatedParams : OpenIntentParams :=
  ⟨"key", "k", true, "body", .finite 1, some 0⟩

/-- Does the next request under the key open an intent? -/
def opensAgain (s : System) : Bool :=
  match (step s (.openIntent repeatedParams "i3")).bind fun s' ↦ s'.calls.getLast? with
  | some (.owner _) => true
  | _ => false

/-- Replay protection does not last in every run: this intent was opened a day before it completed,
was swept and reclaimed, and is purged in the moment it completed; its repeat opens a new one. -/
theorem not_answersFrom :
    ¬ ∀ (s : System) (h : List (System × Event)), Run step (System.init .empty) h s →
      (∀ p ∈ h, ∀ cutoffMs, p.2 = .purgeSettledIntents cutoffMs →
        cutoffMs = DEFAULT_INTENT_RETENTION_MS) →
      ∀ row t, EverCompleted h s row t → s.now < t + DEFAULT_INTENT_RETENTION_MS →
        ∀ e, AnswersFrom row s e := by
  intro hall
  obtain ⟨h, s, hr, hcheck⟩ := Run.exists_of_check step (System.init .empty)
    [.credit { apiKeyId := "key", amountUsd := .finite 10, idempotencyKey := "top-up" },
      .openIntent repeatedParams "i1", .tick 1, .sweepExpiredIntents 500, .expireIntent 1,
      .tick 86400000, .openIntent repeatedParams "i2", .resolveReplay 2, .reclaimIntent 2,
      .settleIntent 2 (.finite 1) none (some "{}") none,
      .purgeSettledIntents DEFAULT_INTENT_RETENTION_MS]
    (fun h s ↦ decide ((∀ p ∈ h, ∀ cutoffMs ∈ cutoff? p.2, cutoffMs = DEFAULT_INTENT_RETENTION_MS) ∧
      (∃ p ∈ h, ∃ row ∈ p.1.db.intents.rows, row.state = .completed ∧
        row.completedAt = some 86400001 ∧ row.apiKeyId = "key" ∧ row.intentKey = "k" ∧
          row.payloadFingerprint = "body") ∧
      s.now < 86400001 + DEFAULT_INTENT_RETENTION_MS ∧ opensAgain s = true)) (by decide +kernel)
  obtain ⟨hcutoff, ⟨p, hp, row, hrow, hstate, ht, hkey, hintent, hprint⟩, hnow, hopens⟩ :=
    of_decide_eq_true hcheck
  have hanswers := hall s h hr (fun p hp cutoffMs he ↦ hcutoff p hp cutoffMs (by rw [he]; rfl)) row
    86400001 ⟨.inr ⟨p, hp, hrow⟩, hstate, ht⟩ hnow (.openIntent repeatedParams "i3")
  unfold opensAgain at hopens
  cases hstep : step s (.openIntent repeatedParams "i3") with
  | none =>
    rw [hstep] at hopens
    cases hopens
  | some s' =>
    have hrefused := hanswers.inserts repeatedParams "i3" s' rfl ⟨hkey, hintent, hprint⟩
      ⟨1, rfl, by norm_num, by decide +kernel⟩ hstep
    rw [hstep, Option.bind_some, hrefused.2, List.getLast?_concat] at hopens
    cases hopens

end ModelConnector
