import ModelConnector.Images.Generation

/-!
# Where the rows of an image request end

When `handleRequest` has answered and its job has made its last attempt, the rows of the request are
all in a terminal status exactly when the first attempt leaves no row, or finishes it: on the
synchronous path by an answer of the connector and an update that is made, and through the queue by
a job whose last write to the row is a terminal one. Only the job repairs a row on an error; the
service leaves it where it is. -/

namespace ModelConnector.Images

section

variable {served : ProviderId → Bool} {request : ImageGenerationRequest} {apiKeyId : String}
  {s : ImageState} {id : ℕ}

/-! ### The condition -/

/-- The connector answers with images. -/
def GenerateEnd.answers : GenerateEnd → Bool
  | completed _ => true
  | notProvisioned _ _ => false
  | failed _ => false

/-- The provider has a connector, and it answers with images. -/
def connectorAnswers (served : ProviderId → Bool) (generate : Generate) (provider : ProviderId)
    (model : Option String) : Bool :=
  served provider && (generate provider model).answers

/-- The first attempt leaves its row in a terminal status, on the synchronous path. -/
def AttemptWorld.settles (served : ProviderId → Bool) (w : AttemptWorld)
    (routing : RoutingDecision) : Bool :=
  connectorAnswers served w.generate routing.chosenProvider (some routing.chosenModel) &&
    w.update.applied

/-- A run of a job marks its row, and its connector answers with images. -/
def JobWorld.answers (served : ProviderId → Bool) (request : ImageGenerationRequest)
    (w : JobWorld) : Bool :=
  w.start = .done &&
    match route w.isOpen request.tier request.model with
    | .ok routing => connectorAnswers served w.generate routing.chosenProvider request.model
    | .error _ => false

/-- The last write of a run to its row is a terminal one. -/
def JobWorld.settles (served : ProviderId → Bool) (request : ImageGenerationRequest)
    (w : JobWorld) : Bool :=
  (w.answers served request && w.complete.applied) || w.fail.applied

/-- Of the runs of a job up to the first that succeeds, the last that writes to the row writes a
terminal status, if one writes at all: else the row is as it was before. -/
def jobSettles (served : ProviderId → Bool) (request : ImageGenerationRequest) (before : Bool) :
    List JobWorld → Bool
  | [] => before
  | w :: rest =>
    if w.answers served request && w.complete = .done then true
    else jobSettles served request (w.settles served request || (before && !w.start.applied)) rest

/-- The first attempt leaves no row, or finishes the one it writes. -/
def RowSettles (served : ProviderId → Bool) (request : ImageGenerationRequest) (w : AttemptWorld)
    (jobs : List JobWorld) : Bool :=
  match route w.isOpen request.tier request.model with
  | .error _ => true
  | .ok routing =>
    match w.create with
    | .refused _ => true
    | .unanswered _ => false
    | .done =>
      if shouldRunAsync routing.chosenModel request.outputAsync then
        w.enqueue.applied && jobSettles served request false jobs
      else w.settles served routing

/-! ### Updates -/

theorem ImageState.update_of_some {row : ImageRow} (h : s.rows id = some row) (write : WriteEnd)
    (change : ImageRow → ImageRow) :
    s.update write id change = (write.answer, if write.applied then
      { s with rows := Function.update s.rows id (some (change row)) } else s) := by
  simp only [update, h]

/-- The row after an update. -/
theorem ImageState.update_row {row : ImageRow} (h : s.rows id = some row) (write : WriteEnd)
    (change : ImageRow → ImageRow) :
    (s.update write id change).2.rows id = some (if write.applied then change row else row) := by
  rw [update_of_some h]
  cases write.applied <;> simp [h]

/-- An update writes to no other row. -/
theorem ImageState.update_row_of_ne {other : ℕ} (h : other ≠ id) (write : WriteEnd)
    (change : ImageRow → ImageRow) :
    (s.update write id change).2.rows other = s.rows other := by
  unfold update
  split
  · rfl
  · split
    · exact Function.update_of_ne h _ _
    · rfl

@[simp]
theorem ImageState.call_rows (provider : Option ProviderId) : (s.call provider).rows = s.rows :=
  rfl

variable (served) in
theorem callConnector_isOk (generate : Generate) (provider : ProviderId) (model : Option String) :
    (callConnector served generate provider model).2.isOk =
      connectorAnswers served generate provider model := by
  unfold callConnector connectorAnswers
  cases served provider with
  | false => rfl
  | true => cases generate provider model <;> rfl

/-! ### Jobs -/

section Jobs

variable {job : ImageJobData} {w : JobWorld}

variable (served s w) in
/-- A run of a job writes to no other row. -/
theorem processJob_row_of_ne (h : id ≠ job.imageGenerationId) :
    (processJob served w job s).2.rows id = s.rows id := by
  have htry : (tryJob served w job s).2.rows id = s.rows id := by
    simp only [tryJob]
    split
    · exact ImageState.update_row_of_ne h _ _
    · split
      · exact ImageState.update_row_of_ne h _ _
      · exact (ImageState.update_row_of_ne h _ _).trans (ImageState.update_row_of_ne h _ _)
  unfold processJob
  split
  · rename_i heq
    simpa [heq] using htry
  · rename_i e s' heq
    exact (ImageState.update_row_of_ne h _ _).trans (by simpa [heq] using htry)

/-- A job writes to no other row. -/
theorem runJob_row_of_ne (h : id ≠ job.imageGenerationId) (worlds : List JobWorld) :
    (runJob served job worlds s).rows id = s.rows id := by
  induction worlds generalizing s with
  | nil => rfl
  | cons w rest ih =>
    have hrow := processJob_row_of_ne served s w h
    unfold runJob
    split
    · rename_i heq
      simpa [heq] using hrow
    · rename_i heq
      exact ih.trans (by simpa [heq] using hrow)

variable (served request) in
/-- The connector of a job answers when the router finds one that does. -/
theorem processRequest_isOk (isOpen : String → Bool) (generate : Generate) :
    (processRequest served isOpen generate request none).2.isOk =
      match route isOpen request.tier request.model with
      | .ok routing => connectorAnswers served generate routing.chosenProvider request.model
      | .error _ => false := by
  simp only [processRequest]
  split
  · rename_i heq
    rw [heq]
    rfl
  · rename_i heq
    rw [heq]
    exact callConnector_isOk _ _ _ _

variable (served w) in
/-- What the `try` block of a run does to its row. -/
theorem tryJob_row {row : ImageRow} (hrow : s.rows job.imageGenerationId = some row) :
    (tryJob served w job s).1.isOk = (w.answers served job.request && w.complete = .done) ∧
      ∃ row', (tryJob served w job s).2.rows job.imageGenerationId = some row' ∧
        row'.status.terminal = ((w.answers served job.request && w.complete.applied) ||
          (row.status.terminal && !w.start.applied)) := by
  have hanswers := processRequest_isOk served job.request w.isOpen
    w.generate
  cases hw : w.start with
  | refused message =>
    simp [tryJob, ImageState.update_of_some hrow, hw, WriteEnd.answer, WriteEnd.applied, hrow,
      JobWorld.answers, Except.isOk, Except.toBool]
  | unanswered message =>
    simp [tryJob, ImageState.update_of_some hrow, hw, WriteEnd.answer, WriteEnd.applied,
      JobWorld.answers, Except.isOk, Except.toBool, ImageStatus.terminal]
  | done =>
    simp only [tryJob, ImageState.update_of_some hrow, hw, WriteEnd.answer, WriteEnd.applied]
    simp only [JobWorld.answers, hw, decide_true, Bool.true_and, ← hanswers]
    cases hcalled : (processRequest served w.isOpen w.generate job.request none).2 with
    | error e => simp [Except.isOk, Except.toBool, ImageStatus.terminal]
    | ok images =>
      cases hcomplete : w.complete <;>
        simp [ImageState.update, ImageState.call, WriteEnd.answer, WriteEnd.applied, Except.isOk,
          Except.toBool, Except.map, ImageStatus.terminal, ImageRow.complete]

variable (served w) in
/-- What a run does to its row, and whether it succeeds. -/
theorem processJob_row {row : ImageRow} (hrow : s.rows job.imageGenerationId = some row) :
    (processJob served w job s).1.isOk = (w.answers served job.request && w.complete = .done) ∧
      ∃ row', (processJob served w job s).2.rows job.imageGenerationId = some row' ∧
        row'.status.terminal = (w.settles served job.request ||
          (row.status.terminal && !w.start.applied)) := by
  obtain ⟨hok, row', hrow', hterminal⟩ := tryJob_row served w hrow
  unfold processJob
  split
  · -- the run succeeds, so its last write was made
    rename_i heq
    simp only [heq, Except.isOk, Except.toBool] at hok hrow'
    refine ⟨hok, row', hrow', ?_⟩
    obtain ⟨hanswers, hdone⟩ := Bool.and_eq_true_iff.1 hok.symm
    rw [hterminal]
    simp [JobWorld.settles, hanswers, of_decide_eq_true hdone, WriteEnd.applied]
  · rename_i e s' heq
    simp only [heq, Except.isOk, Except.toBool] at hok hrow'
    refine ⟨?_, _, ImageState.update_row hrow' _ _, ?_⟩
    · rw [ImageState.update_of_some hrow', ← hok]
      cases w.fail <;> rfl
    · cases hfail : w.fail.applied with
      | true => simp [JobWorld.settles, hfail, ImageRow.fail, ImageStatus.terminal]
      | false => simpa [JobWorld.settles, hfail] using hterminal

variable (served job) in
/-- Where a job leaves its row. -/
theorem runJob_row {row : ImageRow} (hrow : s.rows job.imageGenerationId = some row)
    (worlds : List JobWorld) :
    ∃ row', (runJob served job worlds s).rows job.imageGenerationId = some row' ∧
      row'.status.terminal = jobSettles served job.request row.status.terminal worlds := by
  induction worlds generalizing s row with
  | nil => exact ⟨row, hrow, rfl⟩
  | cons w rest ih =>
    obtain ⟨hok, row', hrow', hterminal⟩ := processJob_row served w hrow
    unfold runJob jobSettles
    split
    · rename_i heq
      simp only [heq, Except.isOk, Except.toBool] at hok hrow'
      rw [if_pos hok.symm]
      obtain ⟨hanswers, hdone⟩ := Bool.and_eq_true_iff.1 hok.symm
      refine ⟨row', hrow', ?_⟩
      rw [hterminal]
      simp [JobWorld.settles, hanswers, of_decide_eq_true hdone, WriteEnd.applied]
    · rename_i heq
      simp only [heq, Except.isOk, Except.toBool] at hok hrow'
      rw [if_neg (by rw [← hok]; exact Bool.false_ne_true), ← hterminal]
      exact ih hrow'

end Jobs

/-! ### The service -/

section Service

variable {w : AttemptWorld} {world : ℕ → AttemptWorld} {routing : RoutingDecision}

theorem ImageState.create_row_of_ne {other : ℕ} (h : other ≠ id) (write : WriteEnd)
    (row : ImageRow) : (s.create write id row).rows other = s.rows other := by
  unfold create
  split
  · exact Function.update_of_ne h _ _
  · rfl

@[simp]
theorem ImageState.enqueue_rows (write : WriteEnd) (job : ImageJobData) :
    (s.enqueue write job).rows = s.rows := by
  unfold enqueue
  split <;> rfl

variable (served request s id w routing) in
/-- The synchronous path writes to one row, and queues nothing. -/
theorem handleSync_frame :
    (∀ other, other ≠ id → (handleSync served request w routing id s).2.rows other =
      s.rows other) ∧ (handleSync served request w routing id s).2.jobs = s.jobs := by
  unfold handleSync
  dsimp only
  split
  · exact ⟨fun _ _ ↦ rfl, rfl⟩
  · refine ⟨fun other h ↦ ImageState.update_row_of_ne h _ _, ?_⟩
    simp only [ImageState.update]
    split
    · rfl
    · split <;> rfl

variable (served request apiKeyId s id w routing) in
/-- An attempt writes to its own row, and queues a job for no other. -/
theorem handleWithRouting_frame :
    (∀ other, other ≠ id → (handleWithRouting served request apiKeyId w routing id s).2.rows
      other = s.rows other) ∧
    ∀ job ∈ (handleWithRouting served request apiKeyId w routing id s).2.jobs,
      job ∈ s.jobs ∨ job = { request, apiKeyId, imageGenerationId := id } := by
  have hjobs : ∀ row, (s.create w.create id row).jobs = s.jobs := fun row ↦ by
    unfold ImageState.create
    split <;> rfl
  unfold handleWithRouting
  dsimp only
  split
  · exact ⟨fun other h ↦ ImageState.create_row_of_ne h _ _, fun job hjob ↦ .inl (by
      simpa [hjobs] using hjob)⟩
  · split
    · refine ⟨fun other h ↦ ?_, fun job hjob ↦ ?_⟩
      · rw [ImageState.enqueue_rows]
        exact ImageState.create_row_of_ne h _ _
      · simp only [ImageState.enqueue] at hjob
        split at hjob
        · simpa [hjobs] using hjob
        · exact .inl (by simpa [hjobs] using hjob)
    · obtain ⟨hrows, hsame⟩ := handleSync_frame served request (s.create w.create id _) id w
        routing
      refine ⟨fun other h ↦ (hrows other h).trans (ImageState.create_row_of_ne h _ _),
        fun job hjob ↦ .inl ?_⟩
      rwa [hsame, hjobs] at hjob

variable (served request apiKeyId id world) in
/-- The attempts from some number on leave the rows before it, and queue no job for them. -/
theorem handleLoop_frame {attempts : ℕ} {excluded : List ProviderId} :
    (∀ other < id, (handleLoop served request apiKeyId world attempts id routing excluded s).2.rows
      other = s.rows other) ∧
    ∀ job ∈ (handleLoop served request apiKeyId world attempts id routing excluded s).2.jobs,
      job ∈ s.jobs ∨ id ≤ job.imageGenerationId := by
  induction attempts generalizing id routing excluded s with
  | zero => exact ⟨fun _ _ ↦ rfl, fun job hjob ↦ .inl hjob⟩
  | succ attempts ih =>
    obtain ⟨hrows, hjobs⟩ := handleWithRouting_frame served request apiKeyId s id (world id)
      routing
    have hjobs' : ∀ job ∈ (handleWithRouting served request apiKeyId (world id) routing id s).2.jobs,
        job ∈ s.jobs ∨ id ≤ job.imageGenerationId := fun job hjob ↦
      (hjobs job hjob).imp_right fun heq ↦ by rw [heq]
    have hrows' : ∀ other < id,
        (handleWithRouting served request apiKeyId (world id) routing id s).2.rows other =
          s.rows other := fun other h ↦ hrows other h.ne
    unfold handleLoop
    split
    · rename_i s' heq
      rw [heq] at hrows' hjobs'
      dsimp only
      split
      · exact ⟨hrows', hjobs'⟩
      · obtain ⟨hrest, hmore⟩ := ih (id + 1)
        refine ⟨fun other h ↦ (hrest other (by omega)).trans (hrows' other h), fun job hjob ↦ ?_⟩
        rcases hmore job hjob with hjob | hle
        · exact hjobs' job hjob
        · exact .inr (by omega)
    · rename_i answer s' _ heq
      rw [heq] at hrows' hjobs'
      exact ⟨hrows', hjobs'⟩

/-- An attempt past the creation of its row. -/
theorem handleWithRouting_created (hcreate : w.create = .done) :
    handleWithRouting served request apiKeyId w routing id s =
      let runAsync := shouldRunAsync routing.chosenModel request.outputAsync
      let s := s.create .done id (initialRow apiKeyId routing runAsync)
      if runAsync then
        (w.enqueue.answer.map fun () ↦ .queued id routing,
          s.enqueue w.enqueue { request, apiKeyId, imageGenerationId := id })
      else handleSync served request w routing id s := by
  simp only [handleWithRouting, hcreate, WriteEnd.answer]

/-- An attempt whose row is not created, or not known to be. -/
theorem handleWithRouting_error {e : ImageError} (hcreate : w.create.answer = .error e) :
    handleWithRouting served request apiKeyId w routing id s =
      (.error e, s.create w.create id (initialRow apiKeyId routing
        (shouldRunAsync routing.chosenModel request.outputAsync))) := by
  simp only [handleWithRouting, hcreate]

variable (served request w routing) in
/-- Where the synchronous path leaves its row. -/
theorem handleSync_row {row : ImageRow} (hrow : s.rows id = some row)
    (hstatus : row.status.terminal = false) :
    ∃ row', (handleSync served request w routing id s).2.rows id = some row' ∧
      row'.status.terminal = w.settles served routing := by
  have hanswers := callConnector_isOk served w.generate routing.chosenProvider
    (some routing.chosenModel)
  simp only [handleSync, processRequest, AttemptWorld.settles, ← hanswers]
  split
  · rename_i e heq
    exact ⟨row, hrow, by simp [heq, hstatus, Except.isOk, Except.toBool]⟩
  · rename_i images heq
    refine ⟨_, ImageState.update_row (by simpa using hrow) _ _, ?_⟩
    cases w.update.applied with
    | true => simp [heq, ImageRow.complete, ImageStatus.terminal, Except.isOk, Except.toBool]
    | false => simpa [heq, Except.isOk, Except.toBool] using hstatus

/-- A provider that is not provisioned has not settled the row. -/
theorem settles_eq_false_of_notProvisioned {provider vaultPath : String} {s' : ImageState}
    (h : handleSync served request w routing id s =
      (.error (.notProvisioned provider vaultPath), s')) :
    w.settles served routing = false := by
  have hanswers := callConnector_isOk served w.generate routing.chosenProvider
    (some routing.chosenModel)
  simp only [handleSync, processRequest] at h
  split at h
  · rename_i e heq
    rw [AttemptWorld.settles, ← hanswers, heq]
    rfl
  · -- the update does not throw the error of a provider
    simp only [ImageState.update] at h
    split at h
    · cases h
    · cases hupdate : w.update <;> rw [hupdate] at h <;> cases h

/-- The loop goes on only past a provider that is not provisioned. -/
theorem handleLoop_of_forall_ne {attempts : ℕ} {excluded : List ProviderId}
    (h : ∀ provider vaultPath,
      (handleWithRouting served request apiKeyId (world id) routing id s).1 ≠
        .error (.notProvisioned provider vaultPath)) :
    handleLoop served request apiKeyId world (attempts + 1) id routing excluded s =
      (some (handleWithRouting served request apiKeyId (world id) routing id s).1,
        (handleWithRouting served request apiKeyId (world id) routing id s).2) := by
  rw [handleLoop]
  split
  · rename_i provider vaultPath s' heq
    exact absurd (congrArg Prod.fst heq) (h provider vaultPath)
  · rename_i heq
    rw [heq]

/-- Jobs write to no other rows than their own. -/
theorem runJobs_row_of_ne {jobs : List ImageJobData} {worlds : List JobWorld}
    (h : ∀ job ∈ jobs, id ≠ job.imageGenerationId) :
    (jobs.foldl (fun s job ↦ runJob served job worlds s) s).rows id = s.rows id := by
  induction jobs generalizing s with
  | nil => rfl
  | cons job jobs ih =>
    obtain ⟨hjob, hjobs⟩ := List.forall_mem_cons.1 h
    exact (ih hjobs).trans (runJob_row_of_ne hjob worlds)

end Service

/-! ### The first attempt -/

section First

variable {world : ℕ → AttemptWorld} {jobs : List JobWorld} {routing : RoutingDecision}

/-- The rows after the jobs of a request. -/
def finish (served : ProviderId → Bool) (jobs : List JobWorld) (s : ImageState) : ImageState :=
  s.jobs.foldl (fun s job ↦ runJob served job jobs s) s

/-- Every row is in a terminal status. -/
def ImageState.Settled (s : ImageState) : Prop :=
  ∀ id row, s.rows id = some row → row.status.terminal = true

/-- A state with the row of the first attempt and no other. -/
structure OnlyRow (s : ImageState) (row : ImageRow) : Prop where
  row : s.rows 0 = some row
  other : ∀ id, id ≠ 0 → s.rows id = none

theorem OnlyRow.settled_iff {row : ImageRow} (h : OnlyRow s row) :
    s.Settled ↔ row.status.terminal = true := by
  constructor
  · exact fun hsettled ↦ hsettled 0 row h.row
  · intro hstatus id row' hrow'
    rcases eq_or_ne id 0 with rfl | hne
    · rw [h.row] at hrow'
      cases hrow'
      exact hstatus
    · rw [h.other id hne] at hrow'
      cases hrow'

/-- The first row, once it is written. -/
theorem onlyRow_create (write : WriteEnd) (h : write.applied = true) (row : ImageRow) :
    OnlyRow (ImageState.create {} write 0 row) row := by
  rw [ImageState.create, if_pos h]
  exact ⟨by simp, fun id hne ↦ by simp [hne]⟩

theorem OnlyRow.enqueue {row : ImageRow} (h : OnlyRow s row) {write : WriteEnd}
    {job : ImageJobData} : OnlyRow (s.enqueue write job) row :=
  ⟨by rw [ImageState.enqueue_rows]; exact h.row,
    fun id hne ↦ by rw [ImageState.enqueue_rows]; exact h.other id hne⟩

theorem enqueue_jobs (write : WriteEnd) (job : ImageJobData) :
    (s.enqueue write job).jobs = s.jobs ++ if write.applied then [job] else [] := by
  unfold ImageState.enqueue
  split <;> simp_all

/-- Without a job the row stays where it is. -/
theorem OnlyRow.finish_settled_iff {row : ImageRow} (h : OnlyRow s row) (hjobs : s.jobs = []) :
    (finish served jobs s).Settled ↔ row.status.terminal = true := by
  rw [finish, hjobs]
  exact h.settled_iff

/-- With its job the row is where the job leaves it. -/
theorem OnlyRow.finish_job_settled_iff {row : ImageRow} (h : OnlyRow s row)
    (hjobs : s.jobs = [{ request, apiKeyId, imageGenerationId := 0 }]) :
    (finish served jobs s).Settled ↔
      jobSettles served request row.status.terminal jobs = true := by
  obtain ⟨row', hrow', hterminal⟩ := runJob_row served
    { request, apiKeyId, imageGenerationId := 0 } h.row jobs
  have honly : OnlyRow (finish served jobs s) row' := by
    rw [finish, hjobs]
    exact ⟨hrow', fun id hne ↦ (runJob_row_of_ne hne jobs).trans (h.other id hne)⟩
  rw [honly.settled_iff, hterminal]

/-- A row that is left behind is not repaired by what comes after. -/
theorem not_settled_of_row {row : ImageRow} (hrow : s.rows 0 = some row)
    (hstatus : row.status.terminal = false)
    (hjobs : ∀ job ∈ s.jobs, 1 ≤ job.imageGenerationId) :
    ¬(finish served jobs s).Settled := by
  intro h
  have hkept : (finish served jobs s).rows 0 = some row :=
    (runJobs_row_of_ne fun job hjob ↦ by have := hjobs job hjob; omega).trans hrow
  rw [h 0 row hkept] at hstatus
  cases hstatus

theorem initialRow_not_terminal (runAsync : Bool) :
    (initialRow apiKeyId routing runAsync).status.terminal = false := by
  cases runAsync <;> rfl

/-- The rows of a request whose first attempt is its last. -/
theorem first_settled_iff (w : AttemptWorld)
    (hroute : route w.isOpen request.tier request.model = .ok routing) :
    (finish served jobs (handleWithRouting served request apiKeyId w routing 0 {}).2).Settled ↔
      RowSettles served request w jobs = true := by
  simp only [RowSettles, hroute]
  cases hcreate : w.create with
  | refused message =>
    rw [handleWithRouting_error (e := .other message) (by rw [hcreate]; rfl), hcreate]
    exact iff_of_true (fun id row hrow ↦ by cases hrow) rfl
  | unanswered message =>
    rw [handleWithRouting_error (e := .other message) (by rw [hcreate]; rfl), hcreate,
      (onlyRow_create _ rfl _).finish_settled_iff (ImageState.create_jobs _ _ _),
      initialRow_not_terminal]
  | done =>
    rw [handleWithRouting_created hcreate]
    have honly := onlyRow_create .done rfl (initialRow apiKeyId routing
      (shouldRunAsync routing.chosenModel request.outputAsync))
    have hjobs := ImageState.create_jobs (s := {}) .done 0 (initialRow apiKeyId routing
      (shouldRunAsync routing.chosenModel request.outputAsync))
    dsimp only
    split
    · -- through the queue
      have hqueue := enqueue_jobs (s := ImageState.create {} .done 0 (initialRow apiKeyId routing
        (shouldRunAsync routing.chosenModel request.outputAsync))) w.enqueue
          { request, apiKeyId, imageGenerationId := 0 }
      rw [hjobs, List.nil_append] at hqueue
      cases hqueued : w.enqueue.applied with
      | false =>
        rw [hqueued, if_neg Bool.false_ne_true] at hqueue
        rw [honly.enqueue.finish_settled_iff hqueue, initialRow_not_terminal, Bool.false_and]
      | true =>
        rw [hqueued, if_pos rfl] at hqueue
        rw [honly.enqueue.finish_job_settled_iff hqueue, initialRow_not_terminal, Bool.true_and]
    · obtain ⟨row', hrow', hterminal⟩ := handleSync_row served request w routing honly.row
        (initialRow_not_terminal _)
      obtain ⟨hframe, hsame⟩ := handleSync_frame served request (ImageState.create {} .done 0
        (initialRow apiKeyId routing (shouldRunAsync routing.chosenModel request.outputAsync))) 0 w
          routing
      have honly' : OnlyRow _ row' :=
        ⟨hrow', fun id hne ↦ (hframe id hne).trans (honly.other id hne)⟩
      rw [honly'.finish_settled_iff (hsame.trans hjobs), hterminal]

variable (jobs) in
/-- An attempt at a provider that is not provisioned leaves its row behind. -/
theorem notProvisioned_row {w : AttemptWorld} {provider vaultPath : String} {s' : ImageState}
    (hroute : route w.isOpen request.tier request.model = .ok routing)
    (h : handleWithRouting served request apiKeyId w routing 0 {} =
      (.error (.notProvisioned provider vaultPath), s')) :
    (∃ row, s'.rows 0 = some row ∧ row.status.terminal = false) ∧ s'.jobs = [] ∧
      RowSettles served request w jobs = false := by
  simp only [RowSettles, hroute]
  cases hcreate : w.create with
  | refused message =>
    rw [handleWithRouting_error (e := .other message) (by rw [hcreate]; rfl)] at h
    cases h
  | unanswered message =>
    rw [handleWithRouting_error (e := .other message) (by rw [hcreate]; rfl)] at h
    cases h
  | done =>
    rw [handleWithRouting_created hcreate] at h
    dsimp only at h
    split at h
    · cases hqueued : w.enqueue <;> rw [hqueued] at h <;> cases h
    · rename_i hasync
      have honly := onlyRow_create .done rfl (initialRow apiKeyId routing
        (shouldRunAsync routing.chosenModel request.outputAsync))
      obtain ⟨row', hrow', hterminal⟩ := handleSync_row served request w routing honly.row
        (initialRow_not_terminal _)
      obtain ⟨-, hsame⟩ := handleSync_frame served request (ImageState.create {} .done 0
        (initialRow apiKeyId routing (shouldRunAsync routing.chosenModel request.outputAsync))) 0 w
          routing
      have hnot := settles_eq_false_of_notProvisioned h
      rw [h] at hrow' hsame
      exact ⟨⟨row', hrow', hterminal.trans hnot⟩, hsame.trans (ImageState.create_jobs _ _ _), by
        simp only [hasync, Bool.false_eq_true, if_false, hnot]⟩

end First

/-! ### The whole request -/

/-- Once a request has been answered and its job has run, all its rows are in a terminal status
exactly when its first attempt leaves no row or finishes it. -/
theorem rows_settled_iff (served : ProviderId → Bool) (request : ImageGenerationRequest)
    (apiKeyId : String) (world : ℕ → AttemptWorld) (jobs : ℕ → JobWorld) (attempts : ℕ)
    (h : (imageRequest served request apiKeyId world jobs attempts).1.isSome = true) :
    (imageRequest served request apiKeyId world jobs attempts).2.Settled ↔
      RowSettles served request (world 0) (jobWorlds jobs) = true := by
  have hstate : (imageRequest served request apiKeyId world jobs attempts).2 =
      finish served (jobWorlds jobs) (handleRequest served request apiKeyId world attempts).2 := rfl
  have hanswered : (handleRequest served request apiKeyId world attempts).1.isSome = true := h
  rw [hstate]
  unfold handleRequest at hanswered ⊢
  cases hroute : route (world 0).isOpen request.tier request.model with
  | error message =>
    simp only [RowSettles, hroute]
    exact iff_of_true (fun id row hrow ↦ by cases hrow) trivial
  | ok routing =>
    rw [hroute] at hanswered
    cases attempts with
    | zero => cases hanswered
    | succ attempts =>
      by_cases hne : ∀ provider vaultPath,
          (handleWithRouting served request apiKeyId (world 0) routing 0 {}).1 ≠
            .error (.notProvisioned provider vaultPath)
      · dsimp only
        rw [handleLoop_of_forall_ne hne]
        exact first_settled_iff (world 0) hroute
      · -- the first attempt failed for want of a provider, and its row was left
        push Not at hne
        obtain ⟨provider, vaultPath, heq⟩ := hne
        obtain ⟨⟨row, hrow, hstatus⟩, hjobs, hsettles⟩ := notProvisioned_row
          (jobWorlds jobs) hroute (Prod.ext heq rfl)
        rw [hsettles]
        refine iff_of_false ?_ Bool.false_ne_true
        dsimp only
        rw [handleLoop, show handleWithRouting served request apiKeyId (world 0) routing 0 {} =
          (.error (.notProvisioned provider vaultPath), _) from Prod.ext heq rfl]
        dsimp only
        split
        · exact not_settled_of_row hrow hstatus (by rw [hjobs]; simp)
        · obtain ⟨hkept, hmore⟩ := handleLoop_frame served request apiKeyId 1 world
          refine not_settled_of_row ((hkept 0 Nat.zero_lt_one).trans hrow) hstatus fun job hjob ↦ ?_
          exact (hmore job hjob).resolve_left (by rw [hjobs]; simp)

end

/-! ### Instances -/

/-- An attempt in which everything is written, and the connector answers as told. -/
def writtenAttempt (generate : GenerateEnd) : AttemptWorld where
  isOpen _ := false
  create := .done
  enqueue := .done
  generate _ _ := generate
  update := .done

/-- A run of a job in which everything is written, and the connector answers as told. -/
def writtenJob (generate : GenerateEnd) : JobWorld where
  isOpen _ := false
  start := .done
  generate _ _ := generate
  complete := .done
  fail := .done

/-- A provider answers with a server error. -/
theorem rows_settled_iff_serverError :
    (imageRequest (fun _ ↦ true) { outputAsync := .never } "key"
      (fun _ ↦ writtenAttempt (.failed "Vertex AI API error 500"))
      (fun _ ↦ writtenJob (.failed "Vertex AI API error 500")) 1).1.isSome = true ∧
    ((imageRequest (fun _ ↦ true) { outputAsync := .never } "key"
      (fun _ ↦ writtenAttempt (.failed "Vertex AI API error 500"))
      (fun _ ↦ writtenJob (.failed "Vertex AI API error 500")) 1).2.Settled ↔
      RowSettles (fun _ ↦ true) { outputAsync := .never }
        (writtenAttempt (.failed "Vertex AI API error 500"))
        (jobWorlds fun _ ↦ writtenJob (.failed "Vertex AI API error 500")) = true) :=
  ⟨rfl, rows_settled_iff _ _ _ _ _ 1 rfl⟩

/-- A synchronous request whose provider fails has been answered, and its row is still being
processed. -/
theorem rows_left_behind :
    ¬∀ served request apiKeyId world jobs attempts,
      (imageRequest served request apiKeyId world jobs attempts).1.isSome = true →
        (imageRequest served request apiKeyId world jobs attempts).2.Settled := by
  intro h
  have hstatus := h (fun _ ↦ true) { outputAsync := .never } "key"
    (fun _ ↦ writtenAttempt (.failed "Vertex AI API error 500"))
    (fun _ ↦ writtenJob (.failed "Vertex AI API error 500")) 1 rfl 0 _ rfl
  cases hstatus

end ModelConnector.Images
