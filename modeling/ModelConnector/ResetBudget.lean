import ModelConnector.Foundations.Rolling
import ModelConnector.Foundations.Run
import ModelConnector.Watcher.Recovery

/-!
# The budget of circuit resets

The policy decides by the records of the resets before, and a request is recorded only once it was
accepted and the service was found healthy after it. As long as every request ends so, and the clock
does not go back between the decision and the record, the records stand for the requests, and the
limits of the policy are limits on the requests. A request that ends otherwise leaves no record,
and neither the cooldown nor the budgets know of it.
-/

namespace ModelConnector.Watcher

open Rolling

variable {config : WatcherConfig} {s s' : WatcherState} {provider model : String}

/-- When requests for the reset of a pair were sent. -/
def WatcherState.requestTimes (s : WatcherState) (provider model : String) : List ℤ :=
  (s.requests.filter fun request ↦
    decide (request.provider = provider ∧ request.model = model)).map ResetRequest.time

/-- When resets of a pair were recorded. -/
def recordTimes (provider model : String) (resets : List ResetRecord) : List ℤ :=
  (matching provider model resets).map ResetRecord.time

/-- If a request leaves, the reset is accepted, the service is healthy after it, and the clock has
not gone back from the decision to the record. -/
def Reading.Recovers (reading : Reading) : Prop :=
  reading.reply = .failed false ∨
    reading.reply = .accepted (.answered true (some "ok")) ∧
      reading.decidedAt ≤ reading.sentAt ∧ reading.sentAt ≤ reading.recordedAt

instance (reading : Reading) : Decidable reading.Recovers :=
  inferInstanceAs (Decidable (_ ∨ _))

/-- Every reset that may come up in the cycle recovers. -/
def Cycle.Recovers (cycle : Cycle) : Prop :=
  ∀ metrics ∈ cycle.metrics, ∀ entry ∈ metrics, entry.reading.Recovers

instance (cycle : Cycle) : Decidable cycle.Recovers :=
  inferInstanceAs (Decidable (∀ metrics ∈ cycle.metrics, ∀ entry ∈ metrics, entry.reading.Recovers))

/-! ### One pair -/

/-- The requests for one pair keep to the budgets, and each has its record. -/
structure Budgeted (config : RecoveryConfig) (times records : List ℤ) : Prop where
  hourly : Bounded 3600000 config.resetBudgetPerHour times
  daily : Bounded 86400000 config.resetBudgetPerDay times
  spaced : Spaced (config.cooldownMs : ℤ) times
  recorded : Recorded times records

/-- What the policy permits by the records of a pair. -/
structure Permitted (config : RecoveryConfig) (now : ℤ) (records : List ℤ) : Prop where
  cooldown : ∀ last ∈ records.getLast?, (config.cooldownMs : ℤ) ≤ now - last
  hourly : records.countP (fun r ↦ decide (now - r < 3600000)) < config.resetBudgetPerHour
  daily : records.countP (fun r ↦ decide (now - r < 86400000)) < config.resetBudgetPerDay

theorem permitted_of_decideRecovery {config : RecoveryConfig} {resets : List ResetRecord}
    {input : RecoveryInput} (h : (config.decideRecovery resets input).action = .reset_circuit) :
    Permitted config input.now (recordTimes input.provider input.model resets) := by
  unfold RecoveryConfig.decideRecovery at h
  dsimp only at h
  split_ifs at h with _ hcooldown hhour hday
  unfold recordTimes
  refine ⟨fun last hlast ↦ ?_, ?_, ?_⟩
  · rw [List.getLast?_map] at hlast
    obtain ⟨record, hrecord, rfl⟩ := Option.map_eq_some_iff.1 hlast
    refine not_lt.1 fun hlt ↦ hcooldown ?_
    rw [hrecord, Option.any_some, decide_eq_true hlt]
  · rw [List.countP_map]
    exact not_le.1 hhour
  · rw [List.countP_map]
    exact not_le.1 hday

/-- A request that the policy permits, and that is recorded, keeps to the budgets. -/
theorem Budgeted.snoc {config : RecoveryConfig} {times records : List ℤ} {now sent recorded : ℤ}
    (h : Budgeted config times records) (hpermit : Permitted config now records)
    (hnow : now ≤ sent) (hsent : sent ≤ recorded) :
    Budgeted config (times ++ [sent]) (records ++ [recorded]) where
  hourly := h.hourly.snoc h.recorded hpermit.hourly hnow
  daily := h.daily.snoc h.recorded hpermit.daily hnow
  spaced := h.spaced.snoc h.recorded hpermit.cooldown hnow
  recorded := List.rel_append h.recorded (.cons hsent .nil)

/-! ### All pairs -/

/-- The requests for every pair keep to the budgets. -/
def WatcherState.Budgeted (config : WatcherConfig) (s : WatcherState) : Prop :=
  ∀ provider model, Watcher.Budgeted config.recovery (s.requestTimes provider model)
    (recordTimes provider model s.resets)

/-- What neither sends nor records keeps the budgets. -/
theorem WatcherState.Budgeted.congr (h : s.Budgeted config) (hresets : s'.resets = s.resets)
    (hrequests : s'.requests = s.requests) : s'.Budgeted config := by
  intro provider model
  have hpair := h provider model
  unfold WatcherState.requestTimes at hpair ⊢
  rw [hresets, hrequests]
  exact hpair

/-- An alert neither sends nor records. -/
theorem WatcherState.Budgeted.emitAlert {evidence : EvidenceSnapshot}
    {failureClass : FailureClass} {attemptedAction : String} {blockedAction : Option String}
    {outcome : String} {reading : Reading} {fixApplied : Bool} (h : s.Budgeted config) :
    (emitAlert evidence failureClass attemptedAction blockedAction outcome reading fixApplied
      s).1.Budgeted config := by
  unfold Watcher.emitAlert
  split
  · exact h
  · exact h.congr rfl rfl

/-- A request that the policy permits, and that recovers, keeps to the budgets of its pair, and
touches no other. -/
theorem WatcherState.Budgeted.recordReset {evidence : EvidenceSnapshot} {reading : Reading}
    (h : s.Budgeted config) (hpermit : Permitted config.recovery reading.decidedAt
      (recordTimes evidence.provider evidence.model s.resets))
    (hreply : reading.reply ≠ .failed false) (hdecided : reading.decidedAt ≤ reading.sentAt)
    (hsent : reading.sentAt ≤ reading.recordedAt) :
    ((s.send evidence reading).recordReset evidence.provider evidence.model
      reading.recordedAt).Budgeted config := by
  intro provider model
  have hpair := h provider model
  unfold WatcherState.send WatcherState.recordReset
  rw [if_neg hreply]
  unfold WatcherState.requestTimes recordTimes matching at hpair ⊢
  simp only [List.filter_append, List.map_append, List.filter_singleton, cond_eq_ite,
    decide_eq_true_eq]
  split_ifs with hmine
  · obtain ⟨rfl, rfl⟩ := hmine
    exact hpair.snoc hpermit hdecided hsent
  · simpa using hpair

theorem WatcherState.Budgeted.handleCircuitReset {evidence : EvidenceSnapshot}
    {failureClass : FailureClass} {reading : Reading} (h : s.Budgeted config)
    (hpermit : Permitted config.recovery reading.decidedAt
      (recordTimes evidence.provider evidence.model s.resets))
    (hrecovers : reading.Recovers) :
    (handleCircuitReset config evidence failureClass reading s).1.Budgeted config := by
  unfold Watcher.handleCircuitReset
  split
  · exact h.emitAlert
  · rcases hrecovers with hreply | ⟨hreply, hdecided, hsent⟩
    · -- Nothing was sent.
      have hkeep : s.send evidence reading = s := if_pos hreply
      rw [hkeep, hreply]
      exact h
    · have hleft : reading.reply ≠ .failed false := by
        rw [hreply]
        exact ResetReply.noConfusion
      rw [hreply]
      exact (h.recordReset hpermit hleft hdecided hsent).emitAlert

theorem WatcherState.Budgeted.handleEvidence {evidence : EvidenceSnapshot} {reading : Reading}
    (h : s.Budgeted config) (hrecovers : reading.Recovers) :
    (handleEvidence config evidence reading s).1.Budgeted config := by
  unfold Watcher.handleEvidence
  have htracked : WatcherState.Budgeted config
      { s with tracker := (s.tracker.update evidence).2 } := h.congr rfl rfl
  dsimp only
  split
  · exact htracked
  · rename_i failureClass _
    split
    · rename_i haction
      exact htracked.handleCircuitReset (permitted_of_decideRecovery haction) hrecovers
    · split
      · exact htracked.emitAlert
      · exact htracked.emitAlert

/-- One turn of the loop over the evidence. -/
theorem WatcherState.Budgeted.observePair {evidence : EvidenceSnapshot} {reading : Reading}
    (h : s.Budgeted config) (hrecovers : reading.Recovers) :
    (observePair config evidence reading s).1.Budgeted config := by
  unfold Watcher.observePair
  dsimp only
  split
  · exact WatcherState.Budgeted.handleEvidence (h.congr rfl rfl) hrecovers
  · split
    · exact WatcherState.Budgeted.handleEvidence (h.congr rfl rfl) hrecovers
    · exact WatcherState.Budgeted.handleEvidence (h.congr rfl rfl) hrecovers

theorem WatcherState.Budgeted.observeAll {evidence : List (EvidenceSnapshot × Reading)}
    (h : s.Budgeted config) (hrecovers : ∀ p ∈ evidence, p.2.Recovers) :
    (observeAll config evidence s).Budgeted config := by
  induction evidence generalizing s with
  | nil => exact h
  | cons p rest ih =>
    have hone : (Watcher.observePair config p.1 p.2 s).1.Budgeted config :=
      h.observePair (hrecovers p List.mem_cons_self)
    unfold Watcher.observeAll
    split
    · rename_i hcont
      rw [hcont] at hone
      exact ih hone fun q hq ↦ hrecovers q (List.mem_cons_of_mem _ hq)
    · rename_i hstop
      rw [hstop] at hone
      exact hone

/-- One cycle. -/
theorem WatcherState.Budgeted.runCycle {cycle : Cycle} (h : s.Budgeted config)
    (hrecovers : cycle.Recovers) : (runCycle config cycle s).Budgeted config := by
  unfold Watcher.runCycle
  split
  · exact h
  · rename_i metrics hmetrics
    refine h.observeAll fun p hp ↦ ?_
    obtain ⟨entry, hentry, hreading⟩ := List.mem_map.1 (List.of_mem_zip hp).2
    rw [← hreading]
    exact hrecovers metrics hmetrics entry hentry

theorem WatcherState.budgeted_init : WatcherState.init.Budgeted config :=
  fun _ _ ↦ ⟨bounded_nil, bounded_nil, spaced_nil, .nil⟩

/-- In every run of cycles in which every reset that comes up recovers: the requests for the reset
of a pair are at most the hourly budget in any rolling hour, at most the daily budget in any rolling
day, and each is at least the cooldown after the one before. -/
theorem resets_budgeted {h : List (WatcherState × Cycle)}
    (hr : Run (watcherStep config) WatcherState.init h s) (hrecovers : ∀ p ∈ h, p.2.Recovers)
    (provider model : String) :
    Bounded 3600000 config.recovery.resetBudgetPerHour (s.requestTimes provider model) ∧
    Bounded 86400000 config.recovery.resetBudgetPerDay (s.requestTimes provider model) ∧
    Spaced (config.recovery.cooldownMs : ℤ) (s.requestTimes provider model) := by
  have hbudget : s.Budgeted config :=
    hr.invariant_of_forall WatcherState.budgeted_init
      (fun h hc hs ↦ Option.some.inj hs ▸ h.runCycle hc) hrecovers
  exact ⟨(hbudget provider model).hourly, (hbudget provider model).daily,
    (hbudget provider model).spaced⟩

/-- Two resets in an hour, fifteen minutes apart. -/
def sampleConfig : WatcherConfig where
  recovery :=
    { circuitResetEnabled := true, resetBudgetPerHour := 2, resetBudgetPerDay := 6,
      cooldownMs := 900000, naturalRecoveryGraceMs := some 60000 }
  errorRate :=
    { minimumSamples := 5, degradeRatio := 1 / 4, degradeWindows := 3, recoverRatio := 1 / 10,
      recoverWindows := 3, minimumSamples_pos := by decide }

/-- A cycle in which the circuit of one pair is open, and a reset is answered by `reply`. -/
def openCircuitCycle (now : ℤ) (reply : ResetReply) : Cycle where
  observedAt := now
  metrics := some [{
    key := "openrouter:sonar"
    counters := [("totalRequests", .num 9), ("errorCount", .num 9), ("circuitOpenCount", .num 1)]
    reading := { agedAt := now, decidedAt := now, sentAt := now, reply, recordedAt := now,
                 audited := true, delivered := true } }]

/-- Two resets that recover, and one that the cooldown blocks. -/
theorem resets_budgeted_twice : ∃ h s,
    Run (watcherStep sampleConfig) WatcherState.init h s ∧
    s.requestTimes "openrouter" "sonar" = [100000, 1000000] ∧
    Bounded 3600000 2 (s.requestTimes "openrouter" "sonar") ∧
    Bounded 86400000 6 (s.requestTimes "openrouter" "sonar") ∧
    Spaced 900000 (s.requestTimes "openrouter" "sonar") := by
  obtain ⟨h, s, hr, hcheck⟩ := Run.exists_of_check (watcherStep sampleConfig) WatcherState.init
    [openCircuitCycle 0 (.failed false),
      openCircuitCycle 100000 (.accepted (.answered true (some "ok"))),
      openCircuitCycle 130000 (.accepted (.answered true (some "ok"))),
      openCircuitCycle 1000000 (.accepted (.answered true (some "ok")))]
    (fun h s ↦ decide (∀ p ∈ h, p.2.Recovers) &&
      decide (s.requestTimes "openrouter" "sonar" = [100000, 1000000]))
    (by decide +kernel)
  obtain ⟨hrecovers, htimes⟩ := Bool.and_eq_true_iff.1 hcheck
  exact ⟨h, s, hr, of_decide_eq_true htimes,
    resets_budgeted hr (of_decide_eq_true hrecovers) "openrouter" "sonar"⟩

/-- Three requests within a minute, all of which the service refuses. -/
theorem resets_not_budgeted : ∃ h s,
    Run (watcherStep sampleConfig) WatcherState.init h s ∧
    s.requestTimes "openrouter" "sonar" = [100000, 130000, 160000] ∧
    ¬ Bounded 3600000 sampleConfig.recovery.resetBudgetPerHour
      (s.requestTimes "openrouter" "sonar") ∧
    ¬ Spaced (sampleConfig.recovery.cooldownMs : ℤ) (s.requestTimes "openrouter" "sonar") := by
  obtain ⟨h, s, hr, hcheck⟩ := Run.exists_of_check (watcherStep sampleConfig) WatcherState.init
    [openCircuitCycle 0 (.failed false), openCircuitCycle 100000 (.refused 403),
      openCircuitCycle 130000 (.refused 403), openCircuitCycle 160000 (.refused 403)]
    (fun _ s ↦ decide (s.requestTimes "openrouter" "sonar" = [100000, 130000, 160000]))
    (by decide +kernel)
  have htimes := of_decide_eq_true hcheck
  refine ⟨h, s, hr, htimes, fun hbounded ↦ ?_, fun hspaced ↦ ?_⟩
  · have hhour := hbounded 100000
    rw [htimes] at hhour
    exact absurd hhour (by decide)
  · rw [htimes, Spaced] at hspaced
    exact absurd hspaced (by decide)

end ModelConnector.Watcher
