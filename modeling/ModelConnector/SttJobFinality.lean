import ModelConnector.Speech.SttJobs

/-!
# Jobs have a final answer

A client polls a job until it is completed or failed, and takes that for the answer. A run of a job
that fails marks the row as failed and throws its error, and the queue then makes the second run,
which marks the row as being processed again. `jobs_final_iff` says in which runs the answer is
final all the same: exactly in those in which no step overwrites it and no step leaves the job
without one.
-/

namespace ModelConnector.Speech

open Ecma

/-! ### Finality -/

/-- The states in which a client stops polling. -/
def ApiJobStatus.IsFinal (status : ApiJobStatus) : Prop :=
  status = .completed ∨ status = .failed

/-- A job that is reported as completed or failed is reported so ever after. -/
def Stays (jobs jobs' : SttJobs) : Prop :=
  ∀ apiKeyId id response, getJobStatus jobs apiKeyId id = .ok response → response.status.IsFinal →
    ∃ response', getJobStatus jobs' apiKeyId id = .ok response' ∧
      response'.status = response.status

/-- The job was not added to the queue, or the queue makes no further run. -/
def SttJobPhase.IsEnded : SttJobPhase → Prop
  | .rejected | .over => True
  | .submitted | .waiting _ | .transcribing _ | .storing .. | .marking .. => False

/-- Every job that has ended is completed or failed. -/
def Answered (jobs : SttJobs) : Prop :=
  ∀ job ∈ jobs, job.phase.IsEnded → (mapDbStatusToApi job.row.status).IsFinal

/-- The states a run has gone through. -/
def visited (h : List (SttJobs × SttJobsEvent)) (jobs : SttJobs) : List SttJobs :=
  h.map Prod.fst ++ [jobs]

/-- What every job reports as its answer is final, and every job that has ended has one. -/
structure JobsFinal (h : List (SttJobs × SttJobsEvent)) (jobs : SttJobs) : Prop where
  stays : (visited h jobs).Pairwise Stays
  answered : ∀ jobs' ∈ visited h jobs, Answered jobs'

/-! ### The steps that keep the answer -/

/-- The update is applied. -/
def UpdateEnd.applied : UpdateEnd → Bool
  | .done | .lost _ => true
  | .refused _ => false

/-- The row has an answer. -/
def SttJobRow.IsFinal (row : SttJobRow) : Prop :=
  (mapDbStatusToApi row.status).IsFinal

/-- The step neither overwrites an answer nor leaves a job without one: the queue takes the job; a
run does not begin on a row that has an answer; an error is not written over a result that was
stored; and what the last run writes at its start and after an error is written. -/
def SttJob.Keeps (job : SttJob) : SttJobEvent → Prop
  | .enqueued accepted => accepted = true
  | .started update =>
    ∀ attemptsMade, job.phase = .waiting attemptsMade →
      if update.applied then
        ¬job.row.IsFinal ∧ (update = .done ∨ attemptsMade + 1 < STT_JOB_ATTEMPTS)
      else job.row.IsFinal ∨ attemptsMade + 1 < STT_JOB_ATTEMPTS
  | .marked update =>
    ∀ attempt errorType message, job.phase = .marking attempt errorType message →
      if update.applied then job.row.status ≠ .success
      else job.row.IsFinal ∨ attempt < STT_JOB_ATTEMPTS
  | .returned _ | .threw .. | .stored _ => True

/-- A step of the jobs is one of a job, and keeps its answer. -/
def Keeps (jobs : SttJobs) : SttJobsEvent → Prop
  | .submitted _ => True
  | .job i e => ∀ job, jobs[i]? = some job → job.Keeps e

/-! ### One job -/

/-- While a run is going on its row says so, or that its result is stored. -/
def SttJob.Sound (job : SttJob) : Prop :=
  match job.phase with
  | .submitted => job.row.status = .queued
  | .transcribing _ | .storing .. => job.row.status = .processing
  | .marking .. => job.row.status = .processing ∨ job.row.status = .success
  | .rejected | .waiting _ | .over => True

variable {job job' : SttJob} {e : SttJobEvent} {row row' : SttJobRow}

theorem row_isFinal_iff : row.IsFinal ↔ row.status = .success ∨ row.status = .error := by
  unfold SttJobRow.IsFinal ApiJobStatus.IsFinal
  cases row.status <;> simp [mapDbStatusToApi]

theorem SttJobRow.store_eq {result : TranscriptionResult} (h : row.store result = some row') :
    row'.status = .success ∧ row'.apiKeyId = row.apiKeyId := by
  unfold SttJobRow.store at h
  split at h
  · split_ifs at h
    obtain rfl := Option.some.inj h
    exact ⟨rfl, rfl⟩
  · cases h

theorem SttJobRow.fail_eq {errorType message : Text} (h : row.fail errorType message = some row') :
    row'.status = .error ∧ row'.apiKeyId = row.apiKeyId := by
  unfold SttJobRow.fail at h
  split_ifs at h
  obtain rfl := Option.some.inj h
  exact ⟨rfl, rfl⟩

/-- What a step of a job does. -/
inductive JobStepped (job : SttJob) : SttJobEvent → SttJob → Prop
  | enqueued {accepted : Bool} : job.phase = .submitted →
      JobStepped job (.enqueued accepted)
        { job with phase := if accepted then .waiting 0 else .rejected }
  | started {made : ℕ} : job.phase = .waiting made →
      JobStepped job (.started .done) { row := job.row.start, phase := .transcribing (made + 1) }
  | startLost {made : ℕ} {message : Text} : job.phase = .waiting made →
      JobStepped job (.started (.lost message))
        { row := job.row.start, phase := afterAttempt (made + 1) }
  | startRefused {made : ℕ} {message : Text} : job.phase = .waiting made →
      JobStepped job (.started (.refused message)) { job with phase := afterAttempt (made + 1) }
  | returned {attempt : ℕ} {result : TranscriptionResult} : job.phase = .transcribing attempt →
      JobStepped job (.returned result) { job with phase := .storing attempt result }
  | threw {attempt : ℕ} {errorType message : Text} : job.phase = .transcribing attempt →
      JobStepped job (.threw errorType message)
        { job with phase := .marking attempt errorType message }
  | stored {attempt : ℕ} {result : TranscriptionResult} {row : SttJobRow} :
      job.phase = .storing attempt result → job.row.store result = some row →
      JobStepped job (.stored .done) { row, phase := .over }
  | storeLost {attempt : ℕ} {result : TranscriptionResult} {row : SttJobRow} {message : Text} :
      job.phase = .storing attempt result → job.row.store result = some row →
      JobStepped job (.stored (.lost message))
        { row, phase := .marking attempt (ascii "unknown_error") message }
  | storeRefused {attempt : ℕ} {result : TranscriptionResult} {message : Text} :
      job.phase = .storing attempt result →
      JobStepped job (.stored (.refused message))
        { job with phase := .marking attempt (ascii "unknown_error") message }
  | marked {attempt : ℕ} {errorType message : Text} {row : SttJobRow} {update : UpdateEnd} :
      job.phase = .marking attempt errorType message → update.applied = true →
      job.row.fail errorType message = some row →
      JobStepped job (.marked update) { row, phase := afterAttempt attempt }
  | markRefused {attempt : ℕ} {errorType message reason : Text} :
      job.phase = .marking attempt errorType message →
      JobStepped job (.marked (.refused reason)) { job with phase := afterAttempt attempt }

theorem stepped_of_step (hs : job.step e = some job') : JobStepped job e job' := by
  cases e with
  | enqueued accepted =>
    simp only [SttJob.step] at hs
    split at hs
    · obtain rfl := Option.some.inj hs
      exact .enqueued ‹_›
    · cases hs
  | started update =>
    simp only [SttJob.step] at hs
    split at hs
    · rename_i made hphase
      cases update with
      | done | lost | refused =>
        obtain rfl := Option.some.inj hs
        first | exact .started hphase | exact .startLost hphase | exact .startRefused hphase
    · cases hs
  | returned result =>
    simp only [SttJob.step] at hs
    split at hs
    · obtain rfl := Option.some.inj hs
      exact .returned ‹_›
    · cases hs
  | threw errorType message =>
    simp only [SttJob.step] at hs
    split at hs
    · obtain rfl := Option.some.inj hs
      exact .threw ‹_›
    · cases hs
  | stored update =>
    simp only [SttJob.step] at hs
    split at hs
    · rename_i attempt result hphase
      cases update with
      | done =>
        obtain ⟨row, hrow, rfl⟩ := Option.map_eq_some_iff.1 hs
        exact .stored hphase hrow
      | lost message =>
        obtain ⟨row, hrow, rfl⟩ := Option.map_eq_some_iff.1 hs
        exact .storeLost hphase hrow
      | refused message =>
        obtain rfl := Option.some.inj hs
        exact .storeRefused hphase
    · cases hs
  | marked update =>
    simp only [SttJob.step] at hs
    split at hs
    · rename_i attempt errorType message hphase
      cases update with
      | done | lost =>
        obtain ⟨row, hrow, rfl⟩ := Option.map_eq_some_iff.1 hs
        exact .marked hphase rfl hrow
      | refused reason =>
        obtain rfl := Option.some.inj hs
        exact .markRefused hphase
    · cases hs

theorem apiKeyId_of_stepped (hs : JobStepped job e job') :
    job'.row.apiKeyId = job.row.apiKeyId := by
  cases hs with
  | stored _ hrow | storeLost _ hrow => exact (SttJobRow.store_eq hrow).2
  | marked _ _ hrow => exact (SttJobRow.fail_eq hrow).2
  | enqueued | started | startLost | startRefused | returned | threw | storeRefused
  | markRefused => rfl

theorem isEnded_afterAttempt_iff {attempt : ℕ} :
    (afterAttempt attempt).IsEnded ↔ ¬attempt < STT_JOB_ATTEMPTS := by
  unfold afterAttempt
  split_ifs with h
  · exact iff_of_false id (not_not_intro h)
  · exact iff_of_true trivial h

theorem sound_afterAttempt (row : SttJobRow) (attempt : ℕ) :
    SttJob.Sound { row, phase := afterAttempt attempt } := by
  unfold SttJob.Sound afterAttempt
  split_ifs <;> trivial

theorem sound_of_stepped (hsound : job.Sound) (hs : JobStepped job e job') : job'.Sound := by
  unfold SttJob.Sound at hsound
  cases hs with
  | @enqueued accepted hphase => cases accepted <;> trivial
  | started hphase => rfl
  | startLost | startRefused | marked | markRefused => exact sound_afterAttempt _ _
  | returned hphase =>
    rw [hphase] at hsound
    exact hsound
  | threw hphase | storeRefused hphase =>
    rw [hphase] at hsound
    exact .inl hsound
  | stored => trivial
  | storeLost _ hrow => exact .inr (SttJobRow.store_eq hrow).1

/-- The beginning of a run takes an answer away. -/
theorem start_keeps_iff : (row.IsFinal → row.start.status = row.status) ↔ ¬row.IsFinal := by
  refine ⟨fun h hfinal ↦ ?_, fun h hfinal ↦ absurd hfinal h⟩
  have hstatus := row_isFinal_iff.1 hfinal
  rw [← h hfinal] at hstatus
  simp [SttJobRow.start] at hstatus

theorem not_isFinal_start : ¬row.start.IsFinal := by
  rw [row_isFinal_iff]
  simp [SttJobRow.start]

theorem not_isFinal_of_processing (h : row.status = .processing) : ¬row.IsFinal := by
  rw [row_isFinal_iff, h]
  simp

/-- What a step that keeps the answer comes to: it stays, and a job that has ended has one. -/
theorem keeps_iff_of_stepped (hsound : job.Sound) (hs : JobStepped job e job') :
    job.Keeps e ↔ (job.row.IsFinal → job'.row.status = job.row.status) ∧
      (job'.phase.IsEnded → job'.row.IsFinal) := by
  unfold SttJob.Sound at hsound
  cases hs with
  | @enqueued accepted hphase =>
    rw [hphase] at hsound
    cases accepted with
    | true => exact iff_of_true rfl ⟨fun _ ↦ rfl, fun h ↦ h.elim⟩
    | false =>
      refine iff_of_false (by simp [SttJob.Keeps]) fun h ↦ ?_
      have hfinal := row_isFinal_iff.1 (h.2 trivial)
      rw [hsound] at hfinal
      simp at hfinal
  | started hphase =>
    rw [start_keeps_iff]
    simp [SttJob.Keeps, hphase, UpdateEnd.applied, SttJobPhase.IsEnded]
  | startLost hphase =>
    rw [start_keeps_iff, isEnded_afterAttempt_iff]
    simp [SttJob.Keeps, hphase, UpdateEnd.applied, not_isFinal_start]
  | @startRefused made message hphase =>
    have hkeeps : job.Keeps (.started (.refused message)) ↔
        job.row.IsFinal ∨ made + 1 < STT_JOB_ATTEMPTS := by
      simp [SttJob.Keeps, hphase, UpdateEnd.applied]
    rw [hkeeps, isEnded_afterAttempt_iff, or_comm, or_iff_not_imp_left]
    exact ⟨fun h ↦ ⟨fun _ ↦ rfl, h⟩, And.right⟩
  | returned | threw | storeRefused =>
    exact iff_of_true trivial ⟨fun _ ↦ rfl, fun h ↦ h.elim⟩
  | stored hphase hrow =>
    rw [hphase] at hsound
    refine iff_of_true trivial ⟨fun h ↦ absurd h (not_isFinal_of_processing hsound), fun _ ↦ ?_⟩
    exact row_isFinal_iff.2 (.inl (SttJobRow.store_eq hrow).1)
  | storeLost hphase hrow =>
    rw [hphase] at hsound
    exact iff_of_true trivial
      ⟨fun h ↦ absurd h (not_isFinal_of_processing hsound), fun h ↦ h.elim⟩
  | @marked attempt errorType message row update hphase happlied hrow =>
    rw [hphase] at hsound
    have herror := (SttJobRow.fail_eq hrow).1
    have hfinal : row.IsFinal := row_isFinal_iff.2 (.inr herror)
    have hkeeps : job.Keeps (.marked update) ↔ job.row.status ≠ .success := by
      simp [SttJob.Keeps, hphase, happlied]
    -- an error is written over whatever the row says, also over a success
    rw [hkeeps, and_iff_left fun _ ↦ hfinal, herror]
    rcases hsound with hprocessing | hsuccess
    · exact iff_of_true (by simp [hprocessing]) fun h ↦
        absurd h (not_isFinal_of_processing hprocessing)
    · refine iff_of_false (not_not_intro hsuccess) fun h ↦ ?_
      have := h (row_isFinal_iff.2 (.inl hsuccess))
      rw [hsuccess] at this
      cases this
  | @markRefused attempt errorType message reason hphase =>
    have hkeeps : job.Keeps (.marked (.refused reason)) ↔
        job.row.IsFinal ∨ attempt < STT_JOB_ATTEMPTS := by
      simp [SttJob.Keeps, hphase, UpdateEnd.applied]
    rw [hkeeps, isEnded_afterAttempt_iff, or_comm, or_iff_not_imp_left]
    exact ⟨fun h ↦ ⟨fun _ ↦ rfl, h⟩, And.right⟩

/-! ### All jobs -/

variable {jobs jobs' : SttJobs} {event : SttJobsEvent}

/-- The jobs are sound, and each belongs to a key. -/
def SoundJobs (jobs : SttJobs) : Prop :=
  ∀ job ∈ jobs, job.Sound ∧ job.row.apiKeyId ≠ ""

theorem getJobStatus_eq_ok_iff {apiKeyId : Option String} {id : ℕ}
    {response : AsyncJobStatusResponse} : getJobStatus jobs apiKeyId id = .ok response ↔
      ∃ job, jobs[id]? = some job ∧ apiKeyId = some job.row.apiKeyId ∧ job.row.apiKeyId ≠ "" ∧
        job.row.response id = response := by
  unfold getJobStatus
  constructor
  · intro h
    split at h
    · cases h
    · rename_i key hkey
      split at h
      · cases h
      · rename_i job hjob
        obtain ⟨hgiven, hne⟩ := Option.filter_eq_some_iff.1 hkey
        obtain ⟨hfound, howner⟩ := Option.filter_eq_some_iff.1 hjob
        obtain rfl := of_decide_eq_true howner
        exact ⟨job, hfound, hgiven, of_decide_eq_true hne, Except.ok.inj h⟩
  · rintro ⟨job, hjob, rfl, hne, rfl⟩
    simp [hjob, hne, Option.filter_some]

theorem step_eq_some (hs : jobs.step event = some jobs') :
    (∃ form : SttJobForm, event = .submitted form ∧ jobs' = jobs ++ [{ row := form.row }]) ∨
    ∃ i e job job', event = .job i e ∧ jobs[i]? = some job ∧ JobStepped job e job' ∧
      jobs' = jobs.set i job' := by
  cases event with
  | submitted form => exact .inl ⟨form, rfl, (Option.some.inj hs).symm⟩
  | job i e =>
    simp only [SttJobs.step] at hs
    split at hs
    · rename_i job hjob
      obtain ⟨job', hstep, rfl⟩ := Option.map_eq_some_iff.1 hs
      exact .inr ⟨i, e, job, job', rfl, hjob, stepped_of_step hstep, rfl⟩
    · cases hs

theorem soundJobs_of_step (hsound : SoundJobs jobs) (hs : jobs.step event = some jobs') :
    SoundJobs jobs' := by
  obtain ⟨form, -, rfl⟩ | ⟨i, e, job, job', -, hjob, hstep, rfl⟩ := step_eq_some hs
  · intro job hjob
    rcases List.mem_append.1 hjob with hjob | hjob
    · exact hsound job hjob
    · rw [List.mem_singleton.1 hjob]
      exact ⟨rfl, form.apiKeyId_ne⟩
  · intro t ht
    rcases List.mem_or_eq_of_mem_set ht with ht | rfl
    · exact hsound t ht
    · obtain ⟨hbefore, hkey⟩ := hsound job (List.mem_of_getElem? hjob)
      exact ⟨sound_of_stepped hbefore hstep, apiKeyId_of_stepped hstep ▸ hkey⟩

theorem stays_refl (jobs : SttJobs) : Stays jobs jobs :=
  fun _ _ response h _ ↦ ⟨response, h, rfl⟩

theorem Stays.trans {jobs'' : SttJobs} (h : Stays jobs jobs') (h' : Stays jobs' jobs'') :
    Stays jobs jobs'' := by
  intro apiKeyId id response hresponse hfinal
  obtain ⟨response', hresponse', heq⟩ := h apiKeyId id response hresponse hfinal
  obtain ⟨response'', hresponse'', heq'⟩ := h' apiKeyId id response' hresponse' (heq ▸ hfinal)
  exact ⟨response'', hresponse'', heq'.trans heq⟩

/-- A new job takes no answer away. -/
theorem stays_append (jobs : SttJobs) (job : SttJob) : Stays jobs (jobs ++ [job]) := by
  intro apiKeyId id response hresponse _
  obtain ⟨job', hjob', hkey⟩ := getJobStatus_eq_ok_iff.1 hresponse
  refine ⟨response, getJobStatus_eq_ok_iff.2 ⟨job', ?_, hkey⟩, rfl⟩
  rw [List.getElem?_append_left (List.getElem?_eq_some_iff.1 hjob').1]
  exact hjob'

/-- The answers stay when a job changes, if its own does. -/
theorem stays_set_iff {i : ℕ} (hjob : jobs[i]? = some job) (hne : job.row.apiKeyId ≠ "")
    (hkey : job'.row.apiKeyId = job.row.apiKeyId) :
    Stays jobs (jobs.set i job') ↔ (job.row.IsFinal → job'.row.status = job.row.status) := by
  have hi : i < jobs.length := (List.getElem?_eq_some_iff.1 hjob).1
  have hstatus : ∀ {status status' : SttJobStatus},
      mapDbStatusToApi status' = mapDbStatusToApi status → status' = status := by
    intro status status'
    cases status <;> cases status' <;> simp [mapDbStatusToApi]
  constructor
  · intro h hfinal
    obtain ⟨response', hresponse', heq⟩ := h (some job.row.apiKeyId) i (job.row.response i)
      (getJobStatus_eq_ok_iff.2 ⟨job, hjob, rfl, hne, rfl⟩) hfinal
    obtain ⟨t, ht, -, -, rfl⟩ := getJobStatus_eq_ok_iff.1 hresponse'
    rw [List.getElem?_set_self hi] at ht
    obtain rfl := Option.some.inj ht
    exact hstatus heq
  · intro h apiKeyId id response hresponse hfinal
    obtain ⟨t, ht, rfl, htne, rfl⟩ := getJobStatus_eq_ok_iff.1 hresponse
    by_cases hid : i = id
    · subst hid
      obtain rfl := Option.some.inj (hjob.symm.trans ht)
      refine ⟨job'.row.response i, getJobStatus_eq_ok_iff.2
        ⟨job', List.getElem?_set_self hi, by rw [hkey], by rwa [hkey], rfl⟩, ?_⟩
      exact congrArg mapDbStatusToApi (h hfinal)
    · exact ⟨_, getJobStatus_eq_ok_iff.2
        ⟨t, by rw [List.getElem?_set_ne hid, ht], rfl, htne, rfl⟩, rfl⟩

theorem answered_set_iff {i : ℕ} (hjob : jobs[i]? = some job) (hanswered : Answered jobs) :
    Answered (jobs.set i job') ↔ (job'.phase.IsEnded → job'.row.IsFinal) := by
  have hi : i < jobs.length := (List.getElem?_eq_some_iff.1 hjob).1
  constructor
  · exact fun h ↦ h job' (List.mem_set hi job')
  · intro h t ht
    rcases List.mem_or_eq_of_mem_set ht with ht | rfl
    · exact hanswered t ht
    · exact h

/-- A step keeps what it should if and only if every answer stays and every job that has ended has
one. -/
theorem keeps_iff_of_step (hsound : SoundJobs jobs) (hanswered : Answered jobs)
    (hs : jobs.step event = some jobs') :
    Keeps jobs event ↔ Stays jobs jobs' ∧ Answered jobs' := by
  obtain ⟨form, rfl, rfl⟩ | ⟨i, e, job, job', rfl, hjob, hstep, rfl⟩ := step_eq_some hs
  · refine iff_of_true trivial ⟨stays_append _ _, fun job hjob ↦ ?_⟩
    rcases List.mem_append.1 hjob with hjob | hjob
    · exact hanswered job hjob
    · rw [List.mem_singleton.1 hjob]
      exact fun h ↦ h.elim
  · obtain ⟨hbefore, hkey⟩ := hsound job (List.mem_of_getElem? hjob)
    have hkeeps : Keeps jobs (.job i e) ↔ job.Keeps e :=
      ⟨fun h ↦ h job hjob, fun h t ht ↦ Option.some.inj (hjob.symm.trans ht) ▸ h⟩
    rw [hkeeps, keeps_iff_of_stepped hbefore hstep,
      stays_set_iff hjob hkey (apiKeyId_of_stepped hstep), answered_set_iff hjob hanswered]

theorem soundJobs_of_run {h : List (SttJobs × SttJobsEvent)} (hr : Run SttJobs.step [] h jobs) :
    SoundJobs jobs :=
  hr.invariant (fun _ h ↦ (by cases h)) soundJobs_of_step

theorem visited_snoc (h : List (SttJobs × SttJobsEvent)) :
    visited (h ++ [(jobs, event)]) jobs' = visited h jobs ++ [jobs'] := by
  simp [visited]

theorem stays_of_mem_visited {h : List (SttJobs × SttJobsEvent)}
    (hstays : (visited h jobs).Pairwise Stays) : ∀ t ∈ visited h jobs, Stays t jobs := by
  intro t ht
  rcases List.mem_append.1 ht with ht | ht
  · exact (List.pairwise_append.1 hstays).2.2 t ht jobs (List.mem_singleton.2 rfl)
  · rw [List.mem_singleton.1 ht]
    exact stays_refl jobs

/-- Answers are final in a run exactly when every step of it keeps them. -/
theorem jobs_final_iff {h : List (SttJobs × SttJobsEvent)} (hr : Run SttJobs.step [] h jobs) :
    JobsFinal h jobs ↔ ∀ p ∈ h, Keeps p.1 p.2 := by
  induction hr with
  | nil =>
    refine iff_of_true ⟨?_, ?_⟩ (by simp)
    · exact List.pairwise_singleton _ _
    · intro jobs' hjobs' job hjob
      rw [List.mem_singleton.1 hjobs'] at hjob
      cases hjob
  | @snoc h s s' e hr hs ih =>
    have hsplit : JobsFinal (h ++ [(s, e)]) s' ↔
        JobsFinal h s ∧ (Stays s s' ∧ Answered s') := by
      constructor
      · rintro ⟨hstays, hanswered⟩
        rw [visited_snoc] at hstays hanswered
        obtain ⟨hbefore, -, hlast⟩ := List.pairwise_append.1 hstays
        refine ⟨⟨hbefore, fun t ht ↦ hanswered t (List.mem_append_left _ ht)⟩, ?_, ?_⟩
        · exact hlast s (List.mem_append_right _ (List.mem_singleton.2 rfl)) s'
            (List.mem_singleton.2 rfl)
        · exact hanswered s' (List.mem_append_right _ (List.mem_singleton.2 rfl))
      · rintro ⟨⟨hstays, hanswered⟩, hstep, hlast⟩
        refine ⟨?_, ?_⟩
        · rw [visited_snoc]
          refine List.pairwise_append.2 ⟨hstays, List.pairwise_singleton _ _, fun t ht t' ht' ↦ ?_⟩
          rw [List.mem_singleton.1 ht']
          exact (stays_of_mem_visited hstays t ht).trans hstep
        · rw [visited_snoc]
          intro t ht
          rcases List.mem_append.1 ht with ht | ht
          · exact hanswered t ht
          · rw [List.mem_singleton.1 ht]
            exact hlast
    rw [hsplit, ih, List.forall_mem_append]
    refine and_congr_right fun hkeeps ↦ ?_
    have hanswered := (ih.2 hkeeps).answered s (List.mem_append_right _ (List.mem_singleton.2 rfl))
    rw [List.forall_mem_singleton]
    exact (keeps_iff_of_step (soundJobs_of_run hr) hanswered hs).symm

/-! ### A first run that fails -/

/-- A form of a key. -/
def someForm : SttJobForm where
  apiKeyId := "key"
  apiKeyId_ne := by decide

/-- A job whose first run has failed, up to then. -/
def firstRunFails : List (SttJobs × SttJobsEvent) :=
  [([], .submitted someForm), ([{ row := someForm.row }], .job 0 (.enqueued true)),
    ([{ row := someForm.row, phase := .waiting 0 }], .job 0 (.started .done)),
    ([{ row := someForm.row.start, phase := .transcribing 1 }], .job 0 (.threw [] [])),
    ([{ row := someForm.row.start, phase := .marking 1 [] [] }], .job 0 (.marked .done))]

/-- The job after its first run. -/
def firstRunFailed : SttJob where
  row := { someForm.row with status := .error, errorType := some [], errorMessage := some [] }
  phase := .waiting 1

theorem run_firstRunFails : Run SttJobs.step [] firstRunFails [firstRunFailed] :=
  @Run.of_exec _ _ _ _ _ [.submitted someForm, .job 0 (.enqueued true), .job 0 (.started .done),
    .job 0 (.threw [] []), .job 0 (.marked .done)] _ rfl

/-- Up to there, what is reported is final. -/
theorem jobs_final_iff_firstRun : JobsFinal firstRunFails [firstRunFailed] := by
  refine (jobs_final_iff run_firstRunFails).2 fun p hp ↦ ?_
  simp only [firstRunFails, List.mem_cons, List.not_mem_nil, or_false] at hp
  rcases hp with rfl | rfl | rfl | rfl | rfl <;>
    simp [Keeps, SttJob.Keeps, UpdateEnd.applied, SttJobRow.IsFinal, ApiJobStatus.IsFinal,
      mapDbStatusToApi, someForm, SttJobForm.row, SttJobRow.start]

/-- The job is reported as failed, and then its second run begins. -/
theorem failed_then_processing : ∃ h jobs, Run SttJobs.step [] h jobs ∧ ¬JobsFinal h jobs := by
  refine ⟨_, _, run_firstRunFails.snoc (e := .job 0 (.started .done)) rfl, fun hfinal ↦ ?_⟩
  have hstays := hfinal.stays
  rw [visited_snoc] at hstays
  have hlast := (List.pairwise_append.1 hstays).2.2 [firstRunFailed]
    (List.mem_append_right _ (List.mem_singleton.2 rfl)) _ (List.mem_singleton.2 rfl)
  obtain ⟨response, hresponse, hstatus⟩ := hlast (some "key") 0 _
    (getJobStatus_eq_ok_iff.2 ⟨firstRunFailed, rfl, rfl, by decide, rfl⟩) (.inr rfl)
  obtain ⟨job, hjob, -, -, rfl⟩ := getJobStatus_eq_ok_iff.1 hresponse
  obtain rfl := Option.some.inj hjob
  cases hstatus

end ModelConnector.Speech
