import ModelConnector.Foundations.Run
import ModelConnector.Speech.SttRouter

/-!
# The daily budget of transcriptions

The router dispatches within its daily budget as long as the rows account for what providers return:
the sum of the rows is read, and each result that costs something passes the schema of its provider,
leaves its row, and loses nothing to the rounding of the column. A result that fails its schema is
recorded at no cost, so a provider that drifts is called on past the budget.
-/

namespace ModelConnector.Speech

open Billing Connectors Policy

/-- A call of `transcribe`. -/
structure SttCall where
  request : SttConnectorRequest
  apiKeyId : String
  policyOf : String → Except Unit (Option ApiKeyPolicy) := fun _ ↦ .ok none
  world : SttWorld

/-- Requests come one after the other. -/
def sttStep (config : SttConfig) (s : SttState) (call : SttCall) : Option SttState :=
  some (transcribe call.request call.apiKeyId (some config) call.policyOf call.world s).2

/-- What a provider answers is accounted for by the row of its attempt. -/
def SttAttemptWorld.Recorded (attempt : SttAttemptWorld) (provider : String) : Prop :=
  ∀ result, attempt.answer = .returned result → result.costUsd ≠ 0 →
    detectDrift provider result = false ∧ attempt.written = true ∧
      ∃ stored, storeDecimal 10 result.costUsd = .ok stored ∧ result.costUsd ≤ ofMicros stored

/-- The attempts from `index` on are accounted for. -/
def AllRecorded (attempts : ℕ → SttAttemptWorld) (index : ℕ) (candidates : List String) : Prop :=
  ∀ i provider, candidates[i]? = some provider → (attempts (index + i)).Recorded provider

/-- The cost of the day is read, and everything a provider answers is accounted for. -/
def SttCall.Recorded (config : SttConfig) (call : SttCall) : Prop :=
  call.world.costRead = true ∧ AllRecorded call.world.attempts 0 (sttCandidates (some config))

/-! ### Sums -/

variable {s : SttState} {budget : ℚ}

@[simp]
theorem spentOn_append (day : ℕ) (returned : List Returned) (r : Returned) :
    spentOn day (returned ++ [r]) =
      spentOn day returned + if utcDay r.at_ = day then r.costUsd else 0 := by
  simp [spentOn]

@[simp]
theorem recordedSince_append (day : ℕ) (rows : List SttRow) (row : SttRow) :
    recordedSince day (rows ++ [row]) = recordedSince day rows +
      if day ≤ utcDay row.createdAt ∧ row.status = .success then ofMicros row.costUsd else 0 := by
  simp [recordedSince]

theorem recordedSince_nonneg {rows : List SttRow} (h : ∀ row ∈ rows, 0 ≤ row.costUsd) (day : ℕ) :
    0 ≤ recordedSince day rows := by
  refine List.sum_nonneg fun x hx ↦ ?_
  obtain ⟨row, hrow, rfl⟩ := List.mem_map.1 hx
  split
  · exact ofMicros_nonneg.2 (h row hrow)
  · exact le_rfl

/-- Nothing was returned on a day that has not come. -/
theorem spentOn_eq_zero {returned : List Returned} {now day : ℕ}
    (h : ∀ r ∈ returned, r.at_ ≤ now) (hday : utcDay now < day) : spentOn day returned = 0 := by
  refine List.sum_eq_zero fun x hx ↦ ?_
  obtain ⟨r, hr, rfl⟩ := List.mem_map.1 hx
  have hle := utcDay_mono (h r hr)
  rw [if_neg (by omega)]

/-! ### The invariant -/

/-- The rows account for what was returned, and what was dispatched was within the budget. -/
structure Accounted (budget : ℚ) (s : SttState) : Prop where
  returned_le : ∀ r ∈ s.returned, r.at_ ≤ s.now
  cost_nonneg : ∀ row ∈ s.rows, 0 ≤ row.costUsd
  spent_le : ∀ day, spentOn day s.returned ≤ recordedSince day s.rows
  dispatched_lt : ∀ d ∈ s.dispatched, d.spentUsd < budget

/-- The budget is not spent on this day or a later one. -/
structure Within (budget : ℚ) (s : SttState) : Prop extends Accounted budget s where
  spent_lt : ∀ day, utcDay s.now ≤ day → spentOn day s.returned < budget

theorem Accounted.wait (h : Accounted budget s) (ms : ℕ) : Accounted budget (s.wait ms) where
  returned_le r hr := (h.returned_le r hr).trans (Nat.le_add_right _ _)
  cost_nonneg := h.cost_nonneg
  spent_le := h.spent_le
  dispatched_lt := h.dispatched_lt

theorem Within.wait (h : Within budget s) (ms : ℕ) : Within budget (s.wait ms) where
  toAccounted := h.toAccounted.wait ms
  spent_lt day hday := h.spent_lt day ((utcDay_mono (Nat.le_add_right _ _)).trans hday)

theorem Within.dispatch (h : Within budget s) (provider : String) :
    Within budget (s.dispatch provider) where
  returned_le := h.returned_le
  cost_nonneg := h.cost_nonneg
  spent_le := h.spent_le
  spent_lt := h.spent_lt
  dispatched_lt d hd := by
    rcases List.mem_append.1 hd with hd | hd
    · exact h.dispatched_lt d hd
    · rw [List.mem_singleton.1 hd]
      exact h.spent_lt _ le_rfl

/-- A result without a cost spends nothing. -/
theorem Within.receive {result : SttConnectorResult} (h : Within budget s)
    (hcost : result.costUsd = 0) : Within budget (s.receive result) where
  returned_le r hr := by
    rcases List.mem_append.1 hr with hr | hr
    · exact h.returned_le r hr
    · rw [List.mem_singleton.1 hr]
      exact le_rfl
  cost_nonneg := h.cost_nonneg
  spent_le day := by
    simpa [SttState.receive, hcost] using h.spent_le day
  spent_lt day hday := by
    simpa [SttState.receive, hcost] using h.spent_lt day hday
  dispatched_lt := h.dispatched_lt

/-- What an insertion does to the rows: it adds one, of the cost that is stored, or none. -/
theorem insert_cases (written : Bool) (costUsd : ℚ) (row : SttRow) :
    s.insert written costUsd row = s ∨ ∃ stored, storeDecimal 10 costUsd = .ok stored ∧
      s.insert written costUsd row =
        { s with rows := s.rows ++ [{ row with costUsd := stored, createdAt := s.now }] } := by
  unfold SttState.insert
  split
  · exact .inl rfl
  · rename_i stored hstored
    cases written with
    | false => exact .inl rfl
    | true => exact .inr ⟨stored, hstored, rfl⟩

/-- A row can only be added to what is accounted for. -/
theorem Accounted.insert (h : Accounted budget s) {costUsd : ℚ} (hcost : 0 ≤ costUsd)
    (written : Bool) (row : SttRow) : Accounted budget (s.insert written costUsd row) := by
  rcases insert_cases (s := s) written costUsd row with heq | ⟨stored, hstored, heq⟩
  · rwa [heq]
  · have hnonneg : 0 ≤ stored := by
      rw [storeDecimal_eq_ok hstored]
      exact toMicros_nonneg hcost
    rw [heq]
    refine ⟨h.returned_le, fun r hr ↦ ?_, fun day ↦ ?_, h.dispatched_lt⟩
    · rcases List.mem_append.1 hr with hr | hr
      · exact h.cost_nonneg r hr
      · rw [List.mem_singleton.1 hr]
        exact hnonneg
    · rw [recordedSince_append]
      refine (h.spent_le day).trans (le_add_of_nonneg_right ?_)
      split
      · exact ofMicros_nonneg.2 hnonneg
      · exact le_rfl

theorem insert_now (written : Bool) (costUsd : ℚ) (row : SttRow) :
    (s.insert written costUsd row).now = s.now ∧
      (s.insert written costUsd row).returned = s.returned := by
  rcases insert_cases (s := s) written costUsd row with heq | ⟨stored, -, heq⟩ <;> rw [heq] <;>
    exact ⟨rfl, rfl⟩

theorem Within.insert (h : Within budget s) {costUsd : ℚ} (hcost : 0 ≤ costUsd)
    (written : Bool) (row : SttRow) : Within budget (s.insert written costUsd row) where
  toAccounted := h.toAccounted.insert hcost written row
  spent_lt := by
    rw [(insert_now written costUsd row).1, (insert_now written costUsd row).2]
    exact h.spent_lt

/-! ### Attempts -/

section Attempts

variable {request : SttConnectorRequest} {apiKeyId provider : String} {attempt : SttAttemptWorld}
  {result : SttConnectorResult} {n : ℕ}

/-- The row of a result accounts for it. -/
theorem Within.persist (h : Within budget s)
    (hrecorded : attempt.Recorded provider) (hanswer : attempt.answer = .returned result) :
    Accounted budget (persist apiKeyId attempt provider result n (s.receive result)) := by
  by_cases hcost : result.costUsd = 0
  · exact ((h.receive hcost).wait _).toAccounted.insert result.cost_nonneg _ _
  · obtain ⟨-, hwritten, stored, hstored, hle⟩ := hrecorded result hanswer hcost
    have hnonneg : 0 ≤ stored := ofMicros_nonneg.1 (result.cost_nonneg.trans hle)
    simp only [Speech.persist, SttState.insert, hstored, hwritten, if_true]
    refine ⟨fun r hr ↦ ?_, fun row hrow ↦ ?_, fun day ↦ ?_, h.dispatched_lt⟩
    · rcases List.mem_append.1 hr with hr | hr
      · exact (h.returned_le r hr).trans (Nat.le_add_right _ _)
      · rw [List.mem_singleton.1 hr]
        exact Nat.le_add_right _ _
    · rcases List.mem_append.1 hrow with hrow | hrow
      · exact h.cost_nonneg row hrow
      · rw [List.mem_singleton.1 hrow]
        exact hnonneg
    · -- the row is created on the day of the result, or later
      simp only [SttState.receive, SttState.wait, spentOn_append, recordedSince_append, and_true]
      refine add_le_add (h.spent_le day) ?_
      have hmono : utcDay s.now ≤ utcDay (s.now + attempt.writtenAfter) :=
        utcDay_mono (Nat.le_add_right _ _)
      split
      · rename_i hday
        rw [if_pos (hday ▸ hmono)]
        exact hle
      · split
        · exact ofMicros_nonneg.2 hnonneg
        · exact le_rfl

variable (request apiKeyId n) in
/-- An attempt within the budget leaves everything accounted for, and when it fails, the budget
unspent. -/
theorem attemptProvider_accounted (h : Within budget s) (hrecorded : attempt.Recorded provider) :
    Accounted budget (attemptProvider request apiKeyId attempt provider n s).2 ∧
      ∀ error, (attemptProvider request apiKeyId attempt provider n s).1 = .failure error →
        Within budget (attemptProvider request apiKeyId attempt provider n s).2 := by
  have hcalled := ((h.wait attempt.dispatchAfter).dispatch provider).wait attempt.answerAfter
  unfold attemptProvider
  dsimp only
  split
  · rename_i result hanswer
    split
    · rename_i hdrift
      have hcost : result.costUsd = 0 := by
        by_contra hcost
        rw [(hrecorded result hanswer hcost).1] at hdrift
        cases hdrift
      have hfailed := ((hcalled.receive hcost).wait attempt.writtenAfter).insert le_rfl
        attempt.written { apiKeyId, provider, model := request.model.getD "unknown", costUsd := 0
                          status := .error, errorType := some "drift", fallbackCount := n
                          driftStatus := some "schema_fail", createdAt := 0 }
      exact ⟨hfailed.toAccounted, fun _ _ ↦ hfailed⟩
    · rename_i hdrift
      exact ⟨hcalled.persist hrecorded hanswer,
        fun _ heq ↦ by cases heq⟩
  · rename_i type message hanswer
    have hfailed := (hcalled.wait attempt.writtenAfter).insert le_rfl attempt.written
      { apiKeyId, provider, model := request.model.getD "unknown", costUsd := 0, status := .error
        errorType := some type, fallbackCount := n, driftStatus := none, createdAt := 0 }
    exact ⟨hfailed.toAccounted, fun _ _ ↦ hfailed⟩
  · exact ⟨hcalled.toAccounted, fun _ heq ↦ by cases heq⟩

/-- The loop over the candidates leaves everything accounted for. -/
theorem tryCandidates_accounted {policy : Option ApiKeyPolicy} {multi : Bool}
    {attempts : ℕ → SttAttemptWorld} {index : ℕ} {candidates tried denied : List String}
    {lastError : Option SttProviderError} (h : Within budget s)
    (hrecorded : AllRecorded attempts index candidates) :
    Accounted budget (tryCandidates request apiKeyId policy multi attempts index candidates tried
      denied lastError s).2 := by
  induction candidates generalizing index tried denied lastError s with
  | nil => exact h.toAccounted
  | cons provider rest ih =>
    have hfirst : (attempts index).Recorded provider := hrecorded 0 provider rfl
    have hrest : AllRecorded attempts (index + 1) rest := fun i next hnext ↦ by
      rw [Nat.add_assoc, Nat.add_comm 1]
      exact hrecorded (i + 1) next hnext
    obtain ⟨haccounted, hwithin⟩ := attemptProvider_accounted request apiKeyId
      tried.length h hfirst
    unfold tryCandidates
    split
    · exact h.toAccounted
    · exact ih h hrest
    · split
      · rename_i heq
        rw [heq] at haccounted
        exact haccounted
      · rename_i heq
        rw [heq] at haccounted
        exact haccounted
      · rename_i error s' heq
        rw [heq] at haccounted hwithin
        split
        · exact ih (hwithin error rfl) hrest
        · exact haccounted

end Attempts

/-! ### Runs -/

/-- A request checked against the budget starts within it. -/
theorem Accounted.within (h : Accounted budget s)
    (hcost : recordedSince (utcDay s.now) s.rows < budget) : Within budget s where
  toAccounted := h
  spent_lt day hday := by
    rcases hday.eq_or_lt with rfl | hlt
    · exact (h.spent_le _).trans_lt hcost
    · rw [spentOn_eq_zero h.returned_le hlt]
      exact (recordedSince_nonneg h.cost_nonneg _).trans_lt hcost

/-- A request keeps the accounts. -/
theorem sttStep_accounted {config : SttConfig} {call : SttCall} {s' : SttState}
    (h : Accounted config.dailyBudgetUsd s) (hrecorded : call.Recorded config)
    (hs : sttStep config s call = some s') : Accounted config.dailyBudgetUsd s' := by
  have hwait := h.wait call.world.startAfter
  obtain ⟨hread, hattempts⟩ := hrecorded
  cases hs
  unfold transcribe
  dsimp only
  split
  · exact hwait
  split
  · exact hwait
  split
  · exact hwait
  rename_i hbudget
  have hcost : recordedSince (utcDay (s.wait call.world.startAfter).now)
      (s.wait call.world.startAfter).rows < config.dailyBudgetUsd := by
    simpa [Option.filter_eq_none_iff, SttState.getDailyCostUsd, hread] using hbudget
  split
  · exact hwait
  split
  · exact hwait
  split
  · exact hwait
  · rename_i hcandidates
    exact tryCandidates_accounted (hwait.within hcost) hattempts

theorem accounted_fresh (budget : ℚ) (now : ℕ) : Accounted budget { now } where
  returned_le _ hr := by cases hr
  cost_nonneg _ hrow := by cases hrow
  spent_le _ := le_rfl
  dispatched_lt _ hd := by cases hd

/-- In a run of requests that are all accounted for, every provider was called while what had been
returned on that day cost less than the budget. -/
theorem dispatched_below_budget {config : SttConfig} {now : ℕ} {h : List (SttState × SttCall)}
    (hr : Run (sttStep config) { now } h s) (hc : ∀ p ∈ h, p.2.Recorded config) :
    ∀ d ∈ s.dispatched, d.spentUsd < config.dailyBudgetUsd := by
  exact (hr.invariant_of_forall (c := fun _ call ↦ call.Recorded config)
    (accounted_fresh config.dailyBudgetUsd now) sttStep_accounted hc).dispatched_lt

/-! ### Instances -/

/-- A minute of audio, answered with the given id of the provider. -/
def minuteOfAudio (providerRequestId : Option String) : SttConnectorResult where
  transcription := "hello"
  audioDurationSeconds := some 60
  model := "nova-3"
  costUsd := 43 / 10000
  latencyMs := 900
  providerRequestId
  cost_nonneg := by norm_num

/-- A request whose provider answers so. -/
def minuteCall (providerRequestId : Option String) : SttCall where
  request := { mimeType := "audio/wav", audioBytes := 1920000, requestId := "request" }
  apiKeyId := "key"
  world := { attempts := fun _ ↦ { answer := .returned (minuteOfAudio providerRequestId) } }

/-- A deployment with one provider, and a budget of a tenth of a cent. -/
def deepgramConfig : SttConfig where
  providersOrder := ["deepgram"]
  deepgramEnabled := true
  dailyBudgetUsd := 1 / 1000

theorem minuteCall_recorded : (minuteCall (some "id")).Recorded deepgramConfig := by
  refine ⟨rfl, fun i provider _ result hanswer _ ↦ ?_⟩
  cases hanswer
  refine ⟨?_, rfl, 4300, by decide +kernel, by decide +kernel⟩
  have hduration : ¬(60 : ℚ) < 0 := by norm_num
  simp [detectDrift, minuteOfAudio, hduration]

/-- Two requests on a day: the second is refused, and the first was within the budget. -/
theorem dispatched_below_budget_twice :
    ∃ h s, Run (sttStep deepgramConfig) { now := 0 } h s ∧ s.dispatched.length = 1 ∧
      ∀ d ∈ s.dispatched, d.spentUsd < deepgramConfig.dailyBudgetUsd := by
  have hnil : Run (sttStep deepgramConfig) { now := 0 } [] { now := 0 } := .nil
  have hr := hnil.snoc (e := minuteCall (some "id")) rfl |>.snoc (e := minuteCall (some "id")) rfl
  refine ⟨_, _, hr, by decide +kernel, dispatched_below_budget hr fun p hp ↦ ?_⟩
  simp only [List.nil_append, List.cons_append, List.mem_cons, List.not_mem_nil, or_false] at hp
  rcases hp with rfl | rfl <;> exact minuteCall_recorded

/-- A provider that leaves out its request id is called again past the budget: its first answer was
recorded at no cost. -/
theorem drift_exceeds_budget :
    ¬∀ (config : SttConfig) (now : ℕ) (h : List (SttState × SttCall)) (s : SttState),
      Run (sttStep config) { now } h s → ∀ d ∈ s.dispatched, d.spentUsd < config.dailyBudgetUsd := by
  intro hall
  have hnil : Run (sttStep deepgramConfig) { now := 0 } [] { now := 0 } := .nil
  have hr := hnil.snoc (e := minuteCall none) rfl |>.snoc (e := minuteCall none) rfl
  have hspent : ∃ d ∈ (transcribe (minuteCall none).request "key" (some deepgramConfig)
      (minuteCall none).policyOf (minuteCall none).world
      (transcribe (minuteCall none).request "key" (some deepgramConfig)
        (minuteCall none).policyOf (minuteCall none).world { now := 0 }).2).2.dispatched,
      deepgramConfig.dailyBudgetUsd ≤ d.spentUsd := by decide +kernel
  obtain ⟨d, hd, hle⟩ := hspent
  exact absurd (hall deepgramConfig 0 _ _ hr d hd) (not_lt.2 hle)

end ModelConnector.Speech
