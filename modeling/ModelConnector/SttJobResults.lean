import ModelConnector.SttJobFinality

/-!
# What a completed job reports

The synchronous endpoint returns what the connector has returned. The result of a job goes through
its row, which keeps the first 80 code units of the text, and which keeps what it had where the
connector returned no language and no duration. `completed_faithful_iff` says when what is reported
is nonetheless what the synchronous endpoint would have returned.
-/

namespace ModelConnector.Speech

open Billing Ecma

/-- What is reported is what the synchronous endpoint returns. -/
structure Faithful (reported : AsyncJobResult) (sync : SyncResult) : Prop where
  transcription : reported.transcription = sync.transcription
  language : reported.language.map .str = sync.language
  duration : reported.durationSeconds.map .num = sync.audioDurationSeconds
  cost : reported.costUsd = sync.costUsd
  provider : reported.provider = sync.provider
  model : reported.model = sync.model

/-- A row can report the result as it is: its text is short, nothing in it is `null`, and the row
has no language and no duration where the result has none. -/
structure SttJobRow.Reports (row : SttJobRow) (result : TranscriptionResult) : Prop where
  short : result.transcription.length ≤ 80
  language_ne_null : ∀ v, result.detectedLanguage = some v → v ≠ .null
  language_none : result.detectedLanguage = none → row.language = none
  duration_ne_null : ∀ v, result.audioDurationSeconds = some v → v ≠ .null
  duration_none : result.audioDurationSeconds = none → row.audioDurationSeconds = none

/-! ### One update -/

/-- A column says what was to be stored, unless that is `null` or nothing over something. -/
theorem setColumn_eq_iff {α : Type} {read : Value → Option α} {f : α → Value}
    {old new : Option α} {v : Option Value} (hread : ∀ v a, read v = some a → v = f a)
    (hnull : ∀ a, f a ≠ .null) (h : setColumn read old v = some new) :
    new.map f = v ↔ (∀ w, v = some w → w ≠ .null) ∧ (v = none → old = none) := by
  have hwritten : ∀ w, (read w).map some = some new →
      (new.map f = some w ↔
        (∀ u, some w = some u → u ≠ .null) ∧ (some w = none → old = none)) := by
    intro w hw
    obtain ⟨a, ha, rfl⟩ := Option.map_eq_some_iff.1 hw
    obtain rfl := hread w a ha
    refine iff_of_true rfl ⟨fun u hu ↦ ?_, fun hu ↦ (by cases hu)⟩
    obtain rfl := Option.some.inj hu
    exact hnull a
  cases v with
  | none =>
    obtain rfl := Option.some.inj h
    simp
  | some v =>
    cases v with
    | null =>
      obtain rfl := Option.some.inj h
      simp
    | bool | num | str | arr | obj => exact hwritten _ h

theorem textColumn_eq {v : Value} {t : Text} (h : textColumn v = some t) : v = .str t := by
  unfold textColumn at h
  split at h
  · split_ifs at h
    rw [Option.some.inj h]
  · cases h

theorem numberColumn_eq {v : Value} {n : Ecma.Number} (h : numberColumn v = some n) :
    v = .num n := by
  unfold numberColumn at h
  split at h
  · rw [Option.some.inj h]
  · cases h

/-- What a row reports after it has stored a result. -/
theorem faithful_iff_of_store {row row' : SttJobRow} {result : TranscriptionResult}
    (h : row.store result = some row') :
    Faithful row'.result (syncResult PROVIDER_NAME result) ↔ row.Reports result := by
  unfold SttJobRow.store at h
  split at h
  · rename_i language duration costUsd hlanguage hduration hcost
    split_ifs at h
    obtain rfl := Option.some.inj h
    have hcost' : costUsd = toMicros result.costUsd := by
      unfold storeDecimal at hcost
      split_ifs at hcost
      exact (Except.ok.inj hcost).symm
    have hlanguage' := setColumn_eq_iff (f := Value.str) (fun _ _ ↦ textColumn_eq)
      (fun _ h ↦ (by cases h)) hlanguage
    have hduration' := setColumn_eq_iff (f := Value.num) (fun _ _ ↦ numberColumn_eq)
      (fun _ h ↦ (by cases h)) hduration
    constructor
    · intro hfaithful
      obtain ⟨hnull, hnone⟩ := hlanguage'.1 hfaithful.language
      obtain ⟨hnull', hnone'⟩ := hduration'.1 hfaithful.duration
      exact ⟨(List.take_eq_self_iff _).1 hfaithful.transcription, hnull, hnone, hnull', hnone'⟩
    · intro hreports
      exact
        { transcription := List.take_of_length_le hreports.short
          language := hlanguage'.2 ⟨hreports.language_ne_null, hreports.language_none⟩
          duration := hduration'.2 ⟨hreports.duration_ne_null, hreports.duration_none⟩
          cost := congrArg ofMicros hcost'
          provider := rfl
          model := rfl }
  · cases h

/-! ### Runs -/

/-- A job stores what the connector has returned, and a row that has succeeded is what was
stored. -/
structure Traced (h : List (SttJobs × SttJobsEvent)) (i : ℕ) (job : SttJob) : Prop where
  storing : ∀ attempt result, job.phase = .storing attempt result →
    ∃ t, (t, SttJobsEvent.job i (.returned result)) ∈ h
  succeeded : job.row.status = .success → ∃ before job₀ attempt result update,
    (before, SttJobsEvent.job i (.stored update)) ∈ h ∧ before[i]? = some job₀ ∧
      job₀.phase = .storing attempt result ∧ job₀.row.store result = some job.row ∧
      ∃ t, (t, SttJobsEvent.job i (.returned result)) ∈ h

variable {h : List (SttJobs × SttJobsEvent)} {jobs : SttJobs} {job job' : SttJob} {i : ℕ}

/-- A longer history says no less. -/
theorem Traced.mono {p : SttJobs × SttJobsEvent} (ht : Traced h i job) :
    Traced (h ++ [p]) i job where
  storing attempt result hphase :=
    let ⟨t, hmem⟩ := ht.storing attempt result hphase
    ⟨t, List.mem_append_left _ hmem⟩
  succeeded hsuccess :=
    let ⟨before, job₀, attempt, result, update, hstored, hjob, hphase, hrow, t, hreturned⟩ :=
      ht.succeeded hsuccess
    ⟨before, job₀, attempt, result, update, List.mem_append_left _ hstored, hjob, hphase, hrow, t,
      List.mem_append_left _ hreturned⟩

/-- A job that keeps its row keeps its trace, when it is not about to store something new. -/
theorem Traced.phase (ht : Traced h i job) (hrow : job'.row = job.row)
    (hphase : ∀ attempt result, job'.phase ≠ .storing attempt result) : Traced h i job' :=
  ⟨fun attempt result h ↦ absurd h (hphase attempt result), hrow ▸ ht.succeeded⟩

/-- So does one whose row has not succeeded. -/
theorem traced_of_ne (hstatus : job.row.status ≠ .success)
    (hphase : ∀ attempt result, job.phase ≠ .storing attempt result) : Traced h i job :=
  ⟨fun attempt result h ↦ absurd h (hphase attempt result), fun h ↦ absurd h hstatus⟩

theorem afterAttempt_ne_storing (attempt : ℕ) (attempt' : ℕ) (result : TranscriptionResult) :
    afterAttempt attempt ≠ .storing attempt' result := by
  unfold afterAttempt
  split_ifs <;> simp

theorem Traced.step {e : SttJobEvent} (hjob : jobs[i]? = some job) (ht : Traced h i job)
    (hs : JobStepped job e job') : Traced (h ++ [(jobs, .job i e)]) i job' := by
  have hlast : (jobs, SttJobsEvent.job i e) ∈ h ++ [(jobs, SttJobsEvent.job i e)] :=
    List.mem_append_right _ (List.mem_singleton.2 rfl)
  have stored : ∀ {attempt : ℕ} {result : TranscriptionResult} {row : SttJobRow}
      {phase : SttJobPhase} {update : UpdateEnd}, e = .stored update →
      job.phase = .storing attempt result → job.row.store result = some row →
      (∀ attempt result, phase ≠ .storing attempt result) →
      Traced (h ++ [(jobs, .job i e)]) i { row, phase } := by
    intro attempt result row phase update he hphase hrow hne
    obtain ⟨t, hreturned⟩ := ht.storing attempt result hphase
    refine ⟨fun attempt result h ↦ absurd h (hne attempt result), fun _ ↦ ?_⟩
    exact ⟨jobs, job, attempt, result, update, he ▸ hlast, hjob, hphase, hrow, t,
      List.mem_append_left _ hreturned⟩
  cases hs with
  | @enqueued accepted hphase =>
    exact ht.mono.phase rfl fun _ _ ↦ (by cases accepted <;> simp)
  | started hphase => exact traced_of_ne (by simp [SttJobRow.start]) fun _ _ ↦ (by simp)
  | startLost hphase =>
    exact traced_of_ne (by simp [SttJobRow.start]) (afterAttempt_ne_storing _)
  | startRefused hphase => exact ht.mono.phase rfl (afterAttempt_ne_storing _)
  | @returned attempt result hphase =>
    refine ⟨fun attempt' result' h ↦ ?_, ht.mono.succeeded⟩
    obtain ⟨-, rfl⟩ := SttJobPhase.storing.inj h
    exact ⟨jobs, hlast⟩
  | threw hphase => exact ht.mono.phase rfl fun _ _ ↦ (by simp)
  | stored hphase hrow => exact stored rfl hphase hrow fun _ _ ↦ (by simp)
  | storeLost hphase hrow => exact stored rfl hphase hrow fun _ _ ↦ (by simp)
  | storeRefused hphase => exact ht.mono.phase rfl fun _ _ ↦ (by simp)
  | marked hphase _ hrow =>
    refine traced_of_ne ?_ (afterAttempt_ne_storing _)
    simp [(SttJobRow.fail_eq hrow).1]
  | markRefused hphase => exact ht.mono.phase rfl (afterAttempt_ne_storing _)

theorem traced_of_run (hr : Run SttJobs.step [] h jobs) :
    ∀ i job, jobs[i]? = some job → Traced h i job := by
  induction hr with
  | nil => simp
  | @snoc h s s' event hr hs ih =>
    intro i job hjob
    obtain ⟨form, rfl, rfl⟩ | ⟨j, e, before, after, rfl, hbefore, hstep, rfl⟩ := step_eq_some hs
    · by_cases hi : i < s.length
      · rw [List.getElem?_append_left hi] at hjob
        exact (ih i job hjob).mono
      · rw [List.getElem?_append_right (not_lt.1 hi)] at hjob
        obtain rfl := List.mem_singleton.1 (List.mem_of_getElem? hjob)
        exact traced_of_ne (by simp [SttJobForm.row]) fun _ _ ↦ (by simp)
    · by_cases hij : j = i
      · subst hij
        rw [List.getElem?_set_self (List.getElem?_eq_some_iff.1 hbefore).1] at hjob
        obtain rfl := Option.some.inj hjob
        exact (ih j before hbefore).step hbefore hstep
      · rw [List.getElem?_set_ne hij] at hjob
        exact (ih i job hjob).mono

/-- A completed job reports a result that its connector has returned and a run has stored, the last
one to be stored: the row is as this update left it. It reports what the synchronous endpoint
returns exactly when the row could. -/
theorem completed_faithful_iff {apiKeyId : Option String} {response : AsyncJobStatusResponse}
    (hr : Run SttJobs.step [] h jobs) (hpoll : getJobStatus jobs apiKeyId i = .ok response)
    (hcompleted : response.status = .completed) :
    ∃ before job attempt result update reported,
      (before, SttJobsEvent.job i (.stored update)) ∈ h ∧ before[i]? = some job ∧
      job.phase = .storing attempt result ∧ (∃ t, (t, SttJobsEvent.job i (.returned result)) ∈ h) ∧
      (∃ now, jobs[i]? = some now ∧ job.row.store result = some now.row ∧
        reported = now.row.result) ∧
      response.result = some reported ∧
      (Faithful reported (syncResult PROVIDER_NAME result) ↔ job.row.Reports result) := by
  obtain ⟨job, hjob, -, -, rfl⟩ := getJobStatus_eq_ok_iff.1 hpoll
  have hsuccess : job.row.status = .success := by
    revert hcompleted
    unfold SttJobRow.response
    cases job.row.status <;> simp [mapDbStatusToApi]
  obtain ⟨before, job₀, attempt, result, update, hstored, hbefore, hphase, hrow, hreturned⟩ :=
    (traced_of_run hr i job hjob).succeeded hsuccess
  exact ⟨before, job₀, attempt, result, update, job.row.result, hstored, hbefore, hphase, hreturned,
    ⟨job, hjob, hrow, rfl⟩, if_pos hcompleted, faithful_iff_of_store hrow⟩

/-! ### A job that completes in its first run -/

/-- A result of the connector, with a text. -/
def resultOf (transcription : Text) : TranscriptionResult where
  transcription
  detectedLanguage := some (.str (ascii "en"))
  model := ascii "whisper"
  costUsd := 0
  latencyMs := 1000

/-- What happens when a job completes. -/
def completes (transcription : Text) : List SttJobsEvent :=
  [.submitted someForm, .job 0 (.enqueued true), .job 0 (.started .done),
    .job 0 (.returned (resultOf transcription)), .job 0 (.stored .done)]

/-- The job is reported as completed, with a text of a length. -/
def reportsLength (length : ℕ) (jobs : SttJobs) : Bool :=
  match getJobStatus jobs (some "key") 0 with
  | .ok response => response.status = .completed &&
      response.result.any fun reported ↦ reported.transcription.length = length
  | .error _ => false

/-- A job with a short text, and what it reports. -/
theorem completed_faithful_iff_short : ∃ h jobs response, Run SttJobs.step [] h jobs ∧
    getJobStatus jobs (some "key") 0 = .ok response ∧ response.status = .completed ∧
    ∃ before job attempt result update reported,
      (before, SttJobsEvent.job 0 (.stored update)) ∈ h ∧ before[0]? = some job ∧
      job.phase = .storing attempt result ∧ (∃ t, (t, SttJobsEvent.job 0 (.returned result)) ∈ h) ∧
      (∃ now, jobs[0]? = some now ∧ job.row.store result = some now.row ∧
        reported = now.row.result) ∧
      response.result = some reported ∧
      (Faithful reported (syncResult PROVIDER_NAME result) ↔ job.row.Reports result) := by
  obtain ⟨h, jobs, hr, hcheck⟩ := Run.exists_of_check SttJobs.step []
    (completes (ascii "We are capturing live fixtures")) (fun _ jobs ↦ reportsLength 30 jobs)
    (by decide +kernel)
  unfold reportsLength at hcheck
  split at hcheck
  · rename_i response hresponse
    have hcompleted := of_decide_eq_true (Bool.and_eq_true_iff.1 hcheck).1
    exact ⟨h, jobs, response, hr, hresponse, hcompleted,
      completed_faithful_iff hr hresponse hcompleted⟩
  · cases hcheck

/-- Of a text of 81 code units a completed job reports 80, and not what the synchronous endpoint
returns. -/
theorem long_text_cut : ∃ h jobs response reported, Run SttJobs.step [] h jobs ∧
    getJobStatus jobs (some "key") 0 = .ok response ∧ response.status = .completed ∧
    response.result = some reported ∧
    ¬Faithful reported (syncResult PROVIDER_NAME (resultOf (List.replicate 81 0x61))) := by
  obtain ⟨h, jobs, hr, hcheck⟩ := Run.exists_of_check SttJobs.step []
    (completes (List.replicate 81 0x61)) (fun _ jobs ↦ reportsLength 80 jobs) (by decide +kernel)
  unfold reportsLength at hcheck
  split at hcheck
  · rename_i response hresponse
    obtain ⟨hcompleted, hlength⟩ := Bool.and_eq_true_iff.1 hcheck
    obtain ⟨reported, hreported, hlength⟩ := (Option.any_eq_true _ _).1 hlength
    refine ⟨h, jobs, response, reported, hr, hresponse, of_decide_eq_true hcompleted, hreported,
      fun hfaithful ↦ ?_⟩
    have hcut := hfaithful.transcription ▸ of_decide_eq_true hlength
    simp [syncResult, resultOf] at hcut
  · cases hcheck

end ModelConnector.Speech
