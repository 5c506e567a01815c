import ModelConnector.ImageFallback
import ModelConnector.Images.Connectors
import ModelConnector.ProviderGate

/-!
# What the rows of images record

The row of an attempt has the provider and the model it was routed to, and keeps them. On the
synchronous path the connector is asked for that model; a job routes its request again and asks for
the model of the request only, so a connector steps in with its default. The row says what ran in
every run exactly when the request is pinned to a model that the connector asks for under that name,
or is not pinned and never queued, or there is no connector it could reach (`rowsRecord_iff`).
-/

namespace ModelConnector.Images

/-! ### Calls -/

/-- What a connector is asked for. -/
structure GenerateCall where
  provider : ProviderId
  model : Option String

/-- The provider and the model, as the catalogue has it, are what was asked for. -/
def Records (quality : Quality) (call : GenerateCall) (provider : ProviderId) (model : String) :
    Prop :=
  ∃ made, connectorCall call.provider call.model quality = some made ∧
    provider = call.provider ∧ catalogueRequest model = some made.request

section

variable (served : ProviderId → Bool) (request : ImageGenerationRequest)

/-- The call of an attempt that runs at once and is answered with images. -/
def AttemptWorld.generated (w : AttemptWorld) (routing : RoutingDecision) : Option GenerateCall :=
  if w.create = .done && !shouldRunAsync routing.chosenModel request.outputAsync &&
      connectorAnswers served w.generate routing.chosenProvider (some routing.chosenModel) then
    some ⟨routing.chosenProvider, some routing.chosenModel⟩
  else none

/-- The call of a run of a job that is answered with images. -/
def JobWorld.generated (w : JobWorld) : Option GenerateCall :=
  match route w.isOpen request.tier request.model with
  | .ok routing =>
    if w.start = .done &&
        connectorAnswers served w.generate routing.chosenProvider request.model then
      some ⟨routing.chosenProvider, request.model⟩
    else none
  | .error _ => none

/-- The runs that are made of a job: up to the first that succeeds. -/
def runsOfJob (job : ImageJobData) : List JobWorld → ImageState → List JobWorld
  | [], _ => []
  | w :: rest, s =>
    w ::
      match processJob served w job s with
      | (.ok _, _) => []
      | (.error _, s) => runsOfJob job rest s

/-- The runs that are made of jobs, one job after the other. -/
def runsOfJobs (worlds : List JobWorld) :
    List ImageJobData → ImageState → List (ImageJobData × JobWorld)
  | [], _ => []
  | job :: rest, s =>
    (runsOfJob served job worlds s).map (job, ·) ++
      runsOfJobs worlds rest (runJob served job worlds s)

variable (apiKeyId : String) (world : ℕ → AttemptWorld) (jobs : ℕ → JobWorld) (attempts : ℕ)

/-- The runs of the jobs of a request. -/
def jobRuns : List (ImageJobData × JobWorld) :=
  let (_, s) := handleRequest served request apiKeyId world attempts
  runsOfJobs served (jobWorlds jobs) s.jobs s

/-- Whenever images are generated, the row of the request and what the client is told have the
provider and the model that they were generated with. -/
structure RowsRecord (quality : Quality) : Prop where
  sync : ∀ id routing call, (routings served request apiKeyId world attempts)[id]? = some routing →
    (world id).generated served request routing = some call →
      ∃ row, (imageRequest served request apiKeyId world jobs attempts).2.rows id = some row ∧
        Records quality call row.provider row.model
  async : ∀ job w call, (job, w) ∈ jobRuns served request apiKeyId world jobs attempts →
    w.generated served job.request = some call →
      ∃ row, (imageRequest served request apiKeyId world jobs attempts).2.rows
        job.imageGenerationId = some row ∧ Records quality call row.provider row.model
  completed : ∀ images id, (imageRequest served request apiKeyId world jobs attempts).1 =
    some (.ok (.completed images id)) → ∃ routing call made,
      (routings served request apiKeyId world attempts)[id]? = some routing ∧
        (world id).generated served request routing = some call ∧
        connectorCall call.provider call.model quality = some made ∧
        Records quality call made.request.provider made.modelId
  queued : ∀ id routing, (imageRequest served request apiKeyId world jobs attempts).1 =
    some (.ok (.queued id routing)) →
      ∃ row, (imageRequest served request apiKeyId world jobs attempts).2.rows id = some row ∧
        row.provider = routing.chosenProvider ∧ row.model = routing.chosenModel

/-- The connector of a candidate asks its provider for the model of the candidate, if it asks for
one. -/
def CandidateSound (quality : Quality) (c : Candidate) : Prop :=
  served c.provider = true → ∀ made, connectorCall c.provider (some c.model) quality = some made →
    catalogueRequest c.model = some made.request

/-- What happens to a request whose images come from the connectors. -/
structure ConnectedWorld (quality : Quality) extends ProviderGate.ImageWorld served where
  attempt_generate : ∀ n, ∃ p, (attempt n).generate = connectorGenerate quality p
  job_generate : ∀ n, ∃ p, (job n).generate = connectorGenerate quality p

/-- The request is pinned to a model that its connector asks for; or it is not, is never queued, and
so it is with the models of its tier; or it is queued and comes to no connector. -/
def RecordsSound (quality : Quality) : Prop :=
  match pinnedModel request.model with
  | some model => CandidateSound served quality ⟨pinnedProvider model, model⟩
  | none =>
    if ProviderGate.queues request then served .vertex = false
    else ∀ c ∈ TIER_MAP request.tier, CandidateSound served quality c

end

section

variable {served : ProviderId → Bool} {request : ImageGenerationRequest} {apiKeyId : String}
  {world : ℕ → AttemptWorld} {routing : RoutingDecision} {id : ℕ} {s : ImageState}

/-! ### Rows keep their route -/

/-- The row of a route. -/
def HasRoute (s : ImageState) (id : ℕ) (routing : RoutingDecision) : Prop :=
  ∃ row, s.rows id = some row ∧ row.provider = routing.chosenProvider ∧
    row.model = routing.chosenModel

/-- An update that does not touch the provider and the model. -/
def KeepsRoute (change : ImageRow → ImageRow) : Prop :=
  ∀ row, (change row).provider = row.provider ∧ (change row).model = row.model

theorem keepsRoute_complete (images : GeneratedImages) : KeepsRoute (ImageRow.complete images) :=
  fun _ ↦ ⟨rfl, rfl⟩

theorem keepsRoute_fail (message : String) : KeepsRoute (ImageRow.fail message) :=
  fun _ ↦ ⟨rfl, rfl⟩

theorem HasRoute.update (h : HasRoute s id routing) (write : WriteEnd) (other : ℕ)
    {change : ImageRow → ImageRow} (hchange : KeepsRoute change) :
    HasRoute (s.update write other change).2 id routing := by
  obtain ⟨row, hrow, hprovider, hmodel⟩ := h
  by_cases hid : id = other
  · subst hid
    refine ⟨_, ImageState.update_row hrow write change, ?_⟩
    cases write.applied with
    | false => exact ⟨hprovider, hmodel⟩
    | true => exact ⟨(hchange row).1.trans hprovider, (hchange row).2.trans hmodel⟩
  · exact ⟨row, (ImageState.update_row_of_ne hid write change).trans hrow, hprovider, hmodel⟩

theorem HasRoute.call (h : HasRoute s id routing) (provider : Option ProviderId) :
    HasRoute (s.call provider) id routing :=
  h

variable (served) in
theorem HasRoute.tryJob (h : HasRoute s id routing) (w : JobWorld) (job : ImageJobData) :
    HasRoute (tryJob served w job s).2 id routing := by
  have hstart : KeepsRoute fun row ↦ { row with status := .processing } := fun _ ↦ ⟨rfl, rfl⟩
  simp only [Images.tryJob]
  split
  · exact h.update w.start _ hstart
  · split
    · exact h.update w.start _ hstart
    · exact ((h.update w.start _ hstart).call _).update w.complete _ (keepsRoute_complete _)

variable (served) in
theorem HasRoute.processJob (h : HasRoute s id routing) (w : JobWorld) (job : ImageJobData) :
    HasRoute (processJob served w job s).2 id routing := by
  have htry := h.tryJob served w job
  unfold Images.processJob
  split
  · rename_i heq
    rwa [heq] at htry
  · rename_i heq
    rw [heq] at htry
    exact htry.update w.fail _ (keepsRoute_fail _)

theorem HasRoute.runJob (h : HasRoute s id routing) (worlds : List JobWorld) (job : ImageJobData) :
    HasRoute (runJob served job worlds s) id routing := by
  induction worlds generalizing s with
  | nil => exact h
  | cons w rest ih =>
    have hrun := h.processJob served w job
    unfold Images.runJob
    split
    · rename_i heq
      rwa [heq] at hrun
    · rename_i heq
      rw [heq] at hrun
      exact ih hrun

variable (served) in
/-- Jobs keep the route of every row. -/
theorem HasRoute.runJobs (h : HasRoute s id routing) (worlds : List JobWorld)
    (jobs : List ImageJobData) :
    HasRoute (jobs.foldl (fun s job ↦ Images.runJob served job worlds s) s) id routing := by
  induction jobs generalizing s with
  | nil => exact h
  | cons job jobs ih => exact ih (h.runJob worlds job)

variable (served request apiKeyId routing s) in
/-- A row that is created has the route of its attempt, and keeps it. -/
theorem hasRoute_handleWithRouting {w : AttemptWorld} (hcreate : w.create = .done) :
    HasRoute (handleWithRouting served request apiKeyId w routing id s).2 id routing := by
  have hcreated : HasRoute (s.create .done id (initialRow apiKeyId routing
      (shouldRunAsync routing.chosenModel request.outputAsync))) id routing :=
    ⟨_, Function.update_self _ _ _, rfl, rfl⟩
  rw [handleWithRouting_created hcreate]
  dsimp only
  split
  · obtain ⟨row, hrow, hroute⟩ := hcreated
    exact ⟨row, by rw [ImageState.enqueue_rows]; exact hrow, hroute⟩
  · simp only [handleSync]
    split
    · exact hcreated
    · exact (hcreated.call _).update w.update _ (keepsRoute_complete _)

/-! ### Attempts -/

/-- An attempt that is answered with images has made the call. -/
theorem generated_of_completed {images : GeneratedImages} {other : ℕ}
    (h : (handleWithRouting served request apiKeyId (world id) routing id s).1 =
      .ok (.completed images other)) :
    other = id ∧ (world id).create = .done ∧ (world id).generated served request routing =
      some ⟨routing.chosenProvider, some routing.chosenModel⟩ := by
  by_cases hcreate : (world id).create = .done
  · rw [handleWithRouting_created hcreate] at h
    simp only [AttemptWorld.generated, hcreate]
    cases hasync : shouldRunAsync routing.chosenModel request.outputAsync with
    | true =>
      simp only [hasync, if_true] at h
      cases henqueue : (world id).enqueue <;> rw [henqueue] at h <;> cases h
    | false =>
      simp only [hasync, Bool.false_eq_true, if_false] at h
      have hanswers := callConnector_isOk served (world id).generate routing.chosenProvider
        (some routing.chosenModel)
      simp only [handleSync, processRequest] at h
      split at h
      · cases h
      · rename_i answered heq
        rw [heq] at hanswers
        rw [if_pos (by simp [← hanswers, Except.isOk, Except.toBool])]
        cases hupdate : (((s.create .done id (initialRow apiKeyId routing false)).call
            (callConnector served (world id).generate routing.chosenProvider
              (some routing.chosenModel)).1).update (world id).update id
                (ImageRow.complete answered)).1 with
        | error e =>
          rw [hupdate] at h
          cases h
        | ok _ =>
          rw [hupdate] at h
          cases h
          exact ⟨rfl, trivial, rfl⟩
  · obtain ⟨message, row, hattempt⟩ := handleWithRouting_not_created served request apiKeyId
      routing id s hcreate
    rw [hattempt] at h
    cases h

/-- An attempt that is queued has its route. -/
theorem route_of_queued {other : ℕ} {routing' : RoutingDecision}
    (h : (handleWithRouting served request apiKeyId (world id) routing id s).1 =
      .ok (.queued other routing')) :
    other = id ∧ routing' = routing ∧ (world id).create = .done := by
  by_cases hcreate : (world id).create = .done
  · rw [handleWithRouting_created hcreate] at h
    cases hasync : shouldRunAsync routing.chosenModel request.outputAsync with
    | true =>
      simp only [hasync, if_true] at h
      cases henqueue : (world id).enqueue <;> rw [henqueue] at h <;> cases h
      exact ⟨rfl, rfl, hcreate⟩
    | false =>
      simp only [hasync, Bool.false_eq_true, if_false] at h
      obtain ⟨images, -, -, hanswer, -⟩ := handleSync_delivered h
      cases hanswer
  · obtain ⟨message, row, hattempt⟩ := handleWithRouting_not_created served request apiKeyId
      routing id s hcreate
    rw [hattempt] at h
    cases h

/-- A job that an attempt queues is for its row. -/
theorem queued_of_mem_jobs {job : ImageJobData}
    (h : job ∈ (handleWithRouting served request apiKeyId (world id) routing id s).2.jobs) :
    job ∈ s.jobs ∨ job = { request, apiKeyId, imageGenerationId := id } ∧
      (world id).create = .done ∧
      shouldRunAsync routing.chosenModel request.outputAsync = true := by
  have hjobs : ∀ write row, (s.create write id row).jobs = s.jobs := fun write row ↦ by
    unfold ImageState.create
    split <;> rfl
  rcases (handleWithRouting_frame served request apiKeyId s id (world id) routing).2 job h with
    hold | hnew
  · exact .inl hold
  · by_cases hcreate : (world id).create = .done
    · cases hasync : shouldRunAsync routing.chosenModel request.outputAsync with
      | true => exact .inr ⟨hnew, hcreate, rfl⟩
      | false =>
        rw [handleWithRouting_created hcreate] at h
        simp only [hasync, Bool.false_eq_true, if_false, (handleSync_frame served request _ id
          (world id) routing).2, hjobs] at h
        exact .inl h
    · obtain ⟨message, row, hattempt⟩ := handleWithRouting_not_created served request apiKeyId
        routing id s hcreate
      rw [hattempt, hjobs] at h
      exact .inl h

/-! ### The loop -/

/-- What the routes of the loop say of the state and the answer it ends with. -/
structure LoopTrace (served : ProviderId → Bool) (request : ImageGenerationRequest)
    (world : ℕ → AttemptWorld) (id : ℕ) (s : ImageState) (routes : List RoutingDecision)
    (run : Option (Except ImageError ImageGenerationResult) × ImageState) : Prop where
  rows : ∀ k routing, routes[k]? = some routing → (world (id + k)).create = .done →
    HasRoute run.2 (id + k) routing
  jobs : ∀ job ∈ run.2.jobs, job ∈ s.jobs ∨ ∃ k routing, routes[k]? = some routing ∧
    job.imageGenerationId = id + k ∧ job.request = request ∧ (world (id + k)).create = .done ∧
      shouldRunAsync routing.chosenModel request.outputAsync = true
  completed : ∀ images other, run.1 = some (.ok (.completed images other)) → ∃ k routing,
    routes[k]? = some routing ∧ other = id + k ∧
      (world (id + k)).generated served request routing =
        some ⟨routing.chosenProvider, some routing.chosenModel⟩
  queued : ∀ other routing, run.1 = some (.ok (.queued other routing)) → ∃ k,
    routes[k]? = some routing ∧ other = id + k ∧ (world (id + k)).create = .done

/-- The last attempt, whose answer is that of the loop or an error. -/
theorem loopTrace_last {answer : Except ImageError ImageGenerationResult}
    (hanswer : answer = (handleWithRouting served request apiKeyId (world id) routing id s).1 ∨
      ∃ e, answer = .error e) :
    LoopTrace served request world id s [routing]
      (some answer, (handleWithRouting served request apiKeyId (world id) routing id s).2) where
  rows k routing' hk hcreate := by
    obtain rfl : k = 0 := by
      by_contra hne
      rw [List.getElem?_eq_none (by simp; omega)] at hk
      cases hk
    cases hk
    exact hasRoute_handleWithRouting _ _ _ _ _ hcreate
  jobs job hjob := by
    refine (queued_of_mem_jobs hjob).imp_right fun hnew ↦ ⟨0, routing, rfl, ?_⟩
    obtain ⟨rfl, hcreate, hasync⟩ := hnew
    exact ⟨rfl, rfl, hcreate, hasync⟩
  completed images other h := by
    rcases hanswer with rfl | ⟨e, rfl⟩
    · obtain ⟨rfl, -, hgenerated⟩ := generated_of_completed (Option.some.inj h)
      exact ⟨0, routing, rfl, rfl, hgenerated⟩
    · cases h
  queued other routing' h := by
    rcases hanswer with rfl | ⟨e, rfl⟩
    · obtain ⟨rfl, rfl, hcreate⟩ := route_of_queued (Option.some.inj h)
      exact ⟨0, rfl, rfl, hcreate⟩
    · cases h

/-- An attempt before the traced ones. -/
theorem LoopTrace.cons {routes : List RoutingDecision}
    {run : Option (Except ImageError ImageGenerationResult) × ImageState}
    (h : LoopTrace served request world (id + 1)
      (handleWithRouting served request apiKeyId (world id) routing id s).2 routes run)
    (hframe : run.2.rows id =
      (handleWithRouting served request apiKeyId (world id) routing id s).2.rows id) :
    LoopTrace served request world id s (routing :: routes) run := by
  have hshift : ∀ k, id + 1 + k = id + (k + 1) := fun k ↦ by omega
  refine ⟨fun k routing' hk hcreate ↦ ?_, fun job hjob ↦ ?_, fun images other hrun ↦ ?_,
    fun other routing' hrun ↦ ?_⟩
  · cases k with
    | zero =>
      cases hk
      obtain ⟨row, hrow, hroute⟩ := hasRoute_handleWithRouting served request apiKeyId routing s
        hcreate
      exact ⟨row, hframe.trans hrow, hroute⟩
    | succ k =>
      rw [← hshift k] at hcreate ⊢
      exact h.rows k routing' hk hcreate
  · rcases h.jobs job hjob with hold | ⟨k, routing', hk, hid, hrest⟩
    · refine (queued_of_mem_jobs hold).imp_right fun hnew ↦ ⟨0, routing, rfl, ?_⟩
      obtain ⟨rfl, hcreate, hasync⟩ := hnew
      exact ⟨rfl, rfl, hcreate, hasync⟩
    · rw [hshift k] at hid hrest
      exact .inr ⟨k + 1, routing', hk, hid, hrest⟩
  · obtain ⟨k, routing', hk, hid, hgenerated⟩ := h.completed images other hrun
    rw [hshift k] at hid hgenerated
    exact ⟨k + 1, routing', hk, hid, hgenerated⟩
  · obtain ⟨k, hk, hid, hcreate⟩ := h.queued other routing' hrun
    rw [hshift k] at hid hcreate
    exact ⟨k + 1, hk, hid, hcreate⟩

variable (served request apiKeyId world) in
/-- The attempts of the loop, traced. -/
theorem loopTrace (attempts : ℕ) (excluded : List ProviderId) :
    LoopTrace served request world id s
      (routingsLoop served request apiKeyId world attempts id routing excluded s)
      (handleLoop served request apiKeyId world attempts id routing excluded s) := by
  induction attempts generalizing id routing excluded s with
  | zero =>
    refine ⟨fun k routing hk ↦ ?_, fun job hjob ↦ .inl hjob, fun _ _ h ↦ ?_, fun _ _ h ↦ ?_⟩
    · cases hk
    · cases h
    · cases h
  | succ attempts ih =>
    cases hunprovisioned : (world id).unprovisioned served request routing.chosenProvider
        routing.chosenModel with
    | false =>
      obtain ⟨hloop, hroutes⟩ := handleLoop_of_provisioned apiKeyId s excluded attempts
        hunprovisioned
      rw [hloop, hroutes]
      exact loopTrace_last (.inl rfl)
    | true =>
      cases hrouted : routeExcluding (world (id + 1)).isOpen request.tier request.model
          (excluded ++ [routing.chosenProvider]) with
      | error message =>
        obtain ⟨hloop, hroutes⟩ := handleLoop_exhausted apiKeyId s excluded attempts
          hunprovisioned hrouted
        rw [hloop, hroutes]
        exact loopTrace_last (.inr ⟨_, rfl⟩)
      | ok next =>
        obtain ⟨hloop, hroutes⟩ := handleLoop_next apiKeyId s excluded attempts hunprovisioned
          hrouted
        rw [hloop, hroutes]
        exact (ih (excluded ++ [routing.chosenProvider])).cons
          ((handleLoop_frame served request apiKeyId (id + 1) world).1 id (Nat.lt_succ_self id))

/-! ### Routes and calls -/

/-- Where a request can be routed. -/
def Routable (request : ImageGenerationRequest) (routing : RoutingDecision) : Prop :=
  match pinnedModel request.model with
  | some model => routing = pinnedDecision request.tier model
  | none => ⟨routing.chosenProvider, routing.chosenModel⟩ ∈ TIER_MAP request.tier

theorem routable_route {isOpen : String → Bool}
    (h : route isOpen request.tier request.model = .ok routing) : Routable request routing := by
  unfold Routable
  cases hpin : pinnedModel request.model with
  | some model =>
    rw [route_pinned hpin] at h
    cases h
    rfl
  | none =>
    obtain ⟨before, after, htier, -⟩ := route_ok hpin h
    simp [htier]

theorem routable_routeExcluding {isOpen : String → Bool} {excluded : List ProviderId}
    (h : routeExcluding isOpen request.tier request.model excluded = .ok routing) :
    Routable request routing := by
  unfold Routable
  cases hpin : pinnedModel request.model with
  | some model =>
    rw [routeExcluding_pinned hpin] at h
    cases h
    rfl
  | none => exact (routeExcluding_ok hpin h).1

theorem routable_routingsLoop {attempts : ℕ} {excluded : List ProviderId}
    (h : Routable request routing) :
    ∀ r ∈ routingsLoop served request apiKeyId world attempts id routing excluded s,
      Routable request r := by
  induction attempts generalizing id routing excluded s with
  | zero => simp [routingsLoop]
  | succ attempts ih =>
    intro r hr
    rw [routingsLoop] at hr
    rcases List.mem_cons.1 hr with rfl | hr
    · exact h
    · split at hr
      · dsimp only at hr
        split at hr
        · cases hr
        · rename_i next hrouted
          exact ih (routable_routeExcluding hrouted) r hr
      · cases hr

variable {quality : Quality}

/-- Where images are generated, the provider has a connector, and it has asked for a model. -/
theorem call_of_answers {generate : Generate} {provider : ProviderId} {model : Option String}
    (hgenerate : ∃ p, generate = connectorGenerate quality p)
    (h : connectorAnswers served generate provider model = true) :
    served provider = true ∧ ∃ made, connectorCall provider model quality = some made := by
  obtain ⟨p, rfl⟩ := hgenerate
  obtain ⟨hserved, hanswers⟩ := Bool.and_eq_true_iff.1 h
  cases hgenerated : connectorGenerate quality p provider model with
  | completed images =>
    obtain ⟨made, hmade, -⟩ := connectorGenerate_completed hgenerated
    exact ⟨hserved, made, hmade⟩
  | notProvisioned _ _ =>
    rw [hgenerated] at hanswers
    cases hanswers
  | failed message =>
    rw [hgenerated] at hanswers
    cases hanswers

/-- The Fal.ai connector asks for the model of its candidates. -/
theorem catalogueRequest_fal (tier : Tier) {c : Candidate} (hc : c ∈ TIER_MAP tier)
    (hprovider : c.provider = .falAi) {made : ConnectorCall}
    (h : connectorCall c.provider (some c.model) quality = some made) :
    catalogueRequest c.model = some made.request := by
  have hall : ∀ c ∈ TIER_MAP .cheap ++ TIER_MAP .mid ++ TIER_MAP .premium, c.provider = .falAi →
      catalogueRequest c.model =
        some { provider := .falAi, apiModel := falModelPath c.model } := by decide
  have hmem : c ∈ TIER_MAP .cheap ++ TIER_MAP .mid ++ TIER_MAP .premium := by
    cases tier <;> simp [hc]
  rw [hall c hmem hprovider]
  rw [hprovider] at h
  cases h
  rfl

/-- Where a sound request is routed, the connector asks for the model of the route. -/
theorem RecordsSound.candidate (h : RecordsSound served request quality)
    (hroutable : Routable request routing)
    (hasync : shouldRunAsync routing.chosenModel request.outputAsync = false) :
    CandidateSound served quality ⟨routing.chosenProvider, routing.chosenModel⟩ := by
  unfold RecordsSound at h
  unfold Routable at hroutable
  cases hpin : pinnedModel request.model with
  | some model =>
    simp only [hpin] at h hroutable
    rw [hroutable]
    exact h
  | none =>
    simp only [hpin] at h hroutable
    cases hqueues : ProviderGate.queues request with
    | false =>
      simp only [hqueues, Bool.false_eq_true, if_false] at h
      exact h _ hroutable
    | true =>
      -- of the candidates of a request that is queued, the last one runs at once
      have hfal := ProviderGate.provider_of_sync hqueues hroutable hasync
      exact fun _ made hmade ↦ catalogueRequest_fal request.tier hroutable hfal hmade

/-- The model a connector reports is the one it has asked for, if that is in the catalogue. -/
theorem catalogueRequest_modelId {provider : ProviderId} {model : String} {made : ConnectorCall}
    (h : connectorCall provider (some model) quality = some made)
    (hmodel : catalogueRequest model = some made.request) :
    catalogueRequest made.modelId = some made.request := by
  cases provider with
  | vertex =>
    obtain ⟨apiModel, -, rfl⟩ := Option.map_eq_some_iff.1 h
    exact hmodel
  | replicate =>
    cases h
    decide
  | openaiImages =>
    cases h
    cases quality <;> decide
  | falAi =>
    cases h
    exact hmodel

/-- A candidate of the tier comes first whose circuit is open only when Vertex has a connector. -/
theorem route_vertex {isOpen : String → Bool}
    (hopen : ∀ model, isOpen model = true → served (pinnedProvider model) = true)
    (hserved : served .vertex = false) (hpin : pinnedModel request.model = none)
    (h : route isOpen request.tier request.model = .ok routing) :
    routing.chosenProvider = .vertex := by
  obtain ⟨before, after, htier, hbefore, -⟩ := route_ok hpin h
  have hfirst : ∀ tier, ∃ c rest, TIER_MAP tier = c :: rest ∧ c.provider = .vertex ∧
      pinnedProvider c.model = .vertex := by
    intro tier
    cases tier <;> exact ⟨_, _, rfl, rfl, by decide⟩
  obtain ⟨c, rest, hcons, hvertex, hpinned⟩ := hfirst request.tier
  rw [hcons] at htier
  cases before with
  | nil =>
    cases htier
    exact hvertex
  | cons b before =>
    cases htier
    have hserved' := hopen c.model (hbefore c List.mem_cons_self)
    rw [hpinned, hserved] at hserved'
    cases hserved'

/-! ### Sound requests -/

variable (served request apiKeyId world) in
theorem requestTrace (attempts : ℕ) :
    LoopTrace served request world 0 {} (routings served request apiKeyId world attempts)
      (handleRequest served request apiKeyId world attempts) := by
  rw [routings, handleRequest]
  cases hroute : route (world 0).isOpen request.tier request.model with
  | error message =>
    refine ⟨fun k routing hk ↦ ?_, fun job hjob ↦ .inl hjob, fun _ _ h ↦ ?_, fun _ _ h ↦ ?_⟩
    · cases hk
    · cases h
    · cases h
  | ok routing => exact loopTrace served request apiKeyId world attempts []

theorem routable_of_mem_routings {attempts : ℕ}
    (h : routing ∈ routings served request apiKeyId world attempts) : Routable request routing := by
  rw [routings] at h
  cases hroute : route (world 0).isOpen request.tier request.model with
  | error message =>
    rw [hroute] at h
    cases h
  | ok first =>
    rw [hroute] at h
    exact routable_routingsLoop (routable_route hroute) routing h

theorem mem_of_mem_runsOfJob {job : ImageJobData} {worlds : List JobWorld} {w : JobWorld}
    (h : w ∈ runsOfJob served job worlds s) : w ∈ worlds := by
  induction worlds generalizing s with
  | nil => exact h
  | cons v rest ih =>
    rw [runsOfJob] at h
    rcases List.mem_cons.1 h with rfl | h
    · exact List.mem_cons_self
    · split at h
      · cases h
      · exact List.mem_cons_of_mem _ (ih h)

theorem mem_of_mem_runsOfJobs {jobs : List ImageJobData} {worlds : List JobWorld}
    {job : ImageJobData} {w : JobWorld} (h : (job, w) ∈ runsOfJobs served worlds jobs s) :
    job ∈ jobs ∧ w ∈ worlds := by
  induction jobs generalizing s with
  | nil => cases h
  | cons j rest ih =>
    rw [runsOfJobs] at h
    rcases List.mem_append.1 h with h | h
    · obtain ⟨v, hv, heq⟩ := List.mem_map.1 h
      cases heq
      exact ⟨List.mem_cons_self, mem_of_mem_runsOfJob hv⟩
    · obtain ⟨hjob, hw⟩ := ih h
      exact ⟨List.mem_cons_of_mem _ hjob, hw⟩

/-- What the call of an attempt is. -/
theorem generated_eq {w : AttemptWorld} {call : GenerateCall}
    (h : w.generated served request routing = some call) :
    call = ⟨routing.chosenProvider, some routing.chosenModel⟩ ∧ w.create = .done ∧
      shouldRunAsync routing.chosenModel request.outputAsync = false ∧
      connectorAnswers served w.generate routing.chosenProvider (some routing.chosenModel) =
        true := by
  unfold AttemptWorld.generated at h
  split_ifs at h with hwhen
  simp only [Bool.and_eq_true, decide_eq_true_eq, Bool.not_eq_true'] at hwhen
  cases h
  exact ⟨rfl, hwhen.1.1, hwhen.1.2, hwhen.2⟩

/-- What the call of a run of a job is. -/
theorem job_generated_eq {w : JobWorld} {call : GenerateCall}
    (h : w.generated served request = some call) :
    ∃ routing, route w.isOpen request.tier request.model = .ok routing ∧
      call = ⟨routing.chosenProvider, request.model⟩ ∧
      connectorAnswers served w.generate routing.chosenProvider request.model = true := by
  unfold JobWorld.generated at h
  cases hroute : route w.isOpen request.tier request.model with
  | error message =>
    rw [hroute] at h
    cases h
  | ok routing =>
    rw [hroute] at h
    dsimp only at h
    split_ifs at h with hwhen
    cases h
    exact ⟨routing, rfl, rfl, (Bool.and_eq_true_iff.1 hwhen).2⟩

/-- The call of an attempt is for the model of its route. -/
theorem RecordsSound.records (h : RecordsSound served request quality) {w : AttemptWorld}
    (hgenerate : ∃ p, w.generate = connectorGenerate quality p)
    (hroutable : Routable request routing) {call : GenerateCall}
    (hcall : w.generated served request routing = some call) :
    Records quality call routing.chosenProvider routing.chosenModel := by
  obtain ⟨rfl, -, hasync, hanswers⟩ := generated_eq hcall
  obtain ⟨hserved, made, hmade⟩ := call_of_answers hgenerate hanswers
  exact ⟨made, hmade, rfl, h.candidate hroutable hasync hserved made hmade⟩

/-- The call of a run of a job is for the model of the route of its row. -/
theorem RecordsSound.job_records (h : RecordsSound served request quality) {w : JobWorld}
    (hgenerate : ∃ p, w.generate = connectorGenerate quality p)
    (hopen : ∀ model, w.isOpen model = true → served (pinnedProvider model) = true)
    (hroutable : Routable request routing)
    (hasync : shouldRunAsync routing.chosenModel request.outputAsync = true)
    {call : GenerateCall} (hcall : w.generated served request = some call) :
    Records quality call routing.chosenProvider routing.chosenModel := by
  obtain ⟨routing', hroute, rfl, hanswers⟩ := job_generated_eq hcall
  obtain ⟨hserved, made, hmade⟩ := call_of_answers hgenerate hanswers
  unfold RecordsSound at h
  unfold Routable at hroutable
  cases hpin : pinnedModel request.model with
  | some model =>
    simp only [hpin] at h hroutable
    rw [route_pinned hpin] at hroute
    cases hroute
    have hmodel : request.model = some model := (Option.filter_eq_some_iff.1 hpin).1
    rw [hmodel] at hmade ⊢
    rw [hroutable]
    exact ⟨made, hmade, rfl, h hserved made hmade⟩
  | none =>
    simp only [hpin] at h hroutable
    rw [ProviderGate.queues_of_async hroutable hasync, if_pos rfl] at h
    rw [route_vertex hopen h hpin hroute, h] at hserved
    cases hserved

/-- **In every run of a sound request, the rows record what ran.** -/
theorem rowsRecord_of_sound (h : RecordsSound served request quality)
    (w : ConnectedWorld served quality) :
    RowsRecord served request apiKeyId w.attempt w.job w.attempts quality := by
  have htrace := requestTrace served request apiKeyId w.attempt w.attempts
  have hrow : ∀ k r, (routings served request apiKeyId w.attempt w.attempts)[k]? = some r →
      (w.attempt k).create = .done →
        HasRoute (imageRequest served request apiKeyId w.attempt w.job w.attempts).2 k r := by
    intro k r hk hcreate
    have hroute := htrace.rows k r hk (by rwa [Nat.zero_add])
    rw [Nat.zero_add] at hroute
    exact hroute.runJobs _ _ _
  refine ⟨fun id r call hr hcall ↦ ?_, fun job v call hrun hcall ↦ ?_, fun images id hanswer ↦ ?_,
    fun id r hanswer ↦ ?_⟩
  · obtain ⟨-, hcreate, -⟩ := generated_eq hcall
    obtain ⟨row, hfound, hprovider, hmodel⟩ := hrow id r hr hcreate
    have hrecords := h.records (w.attempt_generate id)
      (routable_of_mem_routings (List.mem_of_getElem? hr)) hcall
    exact ⟨row, hfound, by rwa [hprovider, hmodel]⟩
  · obtain ⟨hjob, hv⟩ := mem_of_mem_runsOfJobs hrun
    obtain ⟨n, -, rfl⟩ := List.mem_map.1 hv
    rcases htrace.jobs job hjob with hnone | ⟨k, r, hr, hid, hrequest, hcreate, hasync⟩
    · cases hnone
    · rw [Nat.zero_add] at hid hcreate
      obtain ⟨row, hfound, hprovider, hmodel⟩ := hrow k r hr hcreate
      rw [hrequest] at hcall
      have hrecords := h.job_records (w.job_generate n) (w.job_open n)
        (routable_of_mem_routings (List.mem_of_getElem? hr)) hasync hcall
      exact ⟨row, by rwa [hid], by rwa [hprovider, hmodel]⟩
  · obtain ⟨k, r, hr, hid, hcall⟩ := htrace.completed images id hanswer
    rw [Nat.zero_add] at hid hcall
    subst hid
    have hrecords := h.records (w.attempt_generate id)
      (routable_of_mem_routings (List.mem_of_getElem? hr)) hcall
    obtain ⟨made, hmade, -, hmodel⟩ := hrecords
    exact ⟨r, _, made, hr, hcall, hmade, made, hmade, connectorCall_provider hmade,
      catalogueRequest_modelId hmade hmodel⟩
  · obtain ⟨k, hr, hid, hcreate⟩ := htrace.queued id r hanswer
    rw [Nat.zero_add] at hid hcreate
    subst hid
    exact hrow id r hr hcreate

/-! ### Unsound requests -/

/-- What the providers do when they answer wherever credentials are not missing. -/
def answeringProviders (missing : ProviderId → Option String) : ProviderWorld where
  missing
  api _ := .completed { urls := none, costUsd := 0, latencyMs := none }

/-- An attempt in which everything is written. -/
def answeringAttempt (quality : Quality) (isOpen : String → Bool)
    (missing : ProviderId → Option String) : AttemptWorld where
  isOpen
  create := .done
  enqueue := .done
  generate := connectorGenerate quality (answeringProviders missing)
  update := .done

/-- A run of a job in which everything is written, and no credentials are missing. -/
def answeringJob (quality : Quality) (isOpen : String → Bool) : JobWorld where
  isOpen
  start := .done
  generate := connectorGenerate quality (answeringProviders fun _ ↦ none)
  complete := .done
  fail := .done

/-- Attempts with the same circuits, and jobs with theirs. -/
def answeringWorld (quality : Quality) (attempts : ℕ) (isOpen : String → Bool)
    (missing : ProviderId → Option String)
    (hopen : ∀ model, isOpen model = true → served (pinnedProvider model) = true) :
    ConnectedWorld served quality where
  attempts
  attempt _ := answeringAttempt quality isOpen missing
  job _ := answeringJob quality fun _ ↦ false
  attempt_open _ := hopen
  job_open _ _ h := by cases h
  attempt_generate _ := ⟨_, rfl⟩
  job_generate _ := ⟨answeringProviders fun _ ↦ none, rfl⟩

/-- No circuit is open. -/
theorem opens_none (model : String) (h : (fun _ : String ↦ false) model = true) :
    served (pinnedProvider model) = true := by
  cases h

/-- A provider whose credentials are there answers. -/
theorem connectorAnswers_answering (missing : ProviderId → Option String) {provider : ProviderId}
    {model : Option String} {made : ConnectorCall} (hserved : served provider = true)
    (hmissing : missing provider = none)
    (hmade : connectorCall provider model quality = some made) :
    connectorAnswers served (connectorGenerate quality (answeringProviders missing)) provider
      model = true := by
  simp [connectorAnswers, hserved, connectorGenerate, answeringProviders, hmissing, hmade,
    GenerateEnd.answers]

/-- The row of an attempt that generates records its call. -/
theorem RowsRecord.of_sync {jobs : ℕ → JobWorld} {attempts k : ℕ} {call : GenerateCall}
    (h : RowsRecord served request apiKeyId world jobs attempts quality)
    (hr : (routings served request apiKeyId world attempts)[k]? = some routing)
    (hcall : (world k).generated served request routing = some call) :
    Records quality call routing.chosenProvider routing.chosenModel := by
  obtain ⟨row, hrow, hrecords⟩ := h.sync k routing call hr hcall
  have hroute := (requestTrace served request apiKeyId world attempts).rows k routing hr
    (by rw [Nat.zero_add]; exact (generated_eq hcall).2.1)
  rw [Nat.zero_add] at hroute
  obtain ⟨row', hrow', hprovider, hmodel⟩ := hroute.runJobs served (jobWorlds jobs)
    (handleRequest served request apiKeyId world attempts).2.jobs
  obtain rfl : row = row' := Option.some.inj (hrow.symm.trans hrow')
  rwa [hprovider, hmodel] at hrecords

/-- A request that is queued at its first attempt: its row has the first route, and its job is for
the model of the request. -/
theorem RowsRecord.of_job {isOpen : String → Bool}
    {hopen : ∀ model, isOpen model = true → served (pinnedProvider model) = true}
    {job : RoutingDecision} {made : ConnectorCall}
    (h : RowsRecord served request apiKeyId (answeringWorld quality 1 isOpen (fun _ ↦ none)
      hopen).attempt (answeringWorld quality 1 isOpen (fun _ ↦ none) hopen).job 1 quality)
    (hroute : route isOpen request.tier request.model = .ok routing)
    (hasync : shouldRunAsync routing.chosenModel request.outputAsync = true)
    (hjob : route (fun _ ↦ false) request.tier request.model = .ok job)
    (hserved : served job.chosenProvider = true)
    (hmade : connectorCall job.chosenProvider request.model quality = some made) :
    Records quality ⟨job.chosenProvider, request.model⟩ routing.chosenProvider
      routing.chosenModel := by
  set w : ConnectedWorld served quality := answeringWorld quality 1 isOpen (fun _ ↦ none) hopen
    with hw
  set s := (ImageState.create {} .done 0 (initialRow apiKeyId routing true)).enqueue .done
    { request, apiKeyId, imageGenerationId := 0 } with hs
  have hattempt : handleWithRouting served request apiKeyId (w.attempt 0) routing 0 {} =
      (.ok (.queued 0 routing), s) := by
    rw [handleWithRouting_created rfl]
    simp only [hasync, if_true]
    rfl
  have hrequest : handleRequest served request apiKeyId w.attempt 1 =
      (some (.ok (.queued 0 routing)), s) := by
    have hfirst : route (w.attempt 0).isOpen request.tier request.model = .ok routing := hroute
    rw [handleRequest, hfirst]
    simp only [handleLoop, hattempt]
  have hjobs : s.jobs = [{ request, apiKeyId, imageGenerationId := 0 }] := rfl
  -- the job routes again, and may come to another connector than its row names
  have hrun : (({ request, apiKeyId, imageGenerationId := 0 } : ImageJobData), w.job 0) ∈
      jobRuns served request apiKeyId w.attempt w.job 1 := by
    rw [jobRuns, hrequest]
    simp only [hjobs, runsOfJobs, jobWorlds, JOB_ATTEMPTS, List.range_succ, List.range_zero,
      List.nil_append, List.map_cons, List.map_nil, List.cons_append, runsOfJob,
      List.mem_cons, true_or]
  have hcall : (w.job 0).generated served request = some ⟨job.chosenProvider, request.model⟩ := by
    have hsecond : route (w.job 0).isOpen request.tier request.model = .ok job := hjob
    have hanswers := connectorAnswers_answering (fun _ ↦ none) hserved rfl hmade
    rw [JobWorld.generated, hsecond]
    simp only [hw, answeringWorld, answeringJob, decide_true, Bool.true_and, hanswers, if_true]
  obtain ⟨row, hrow, hrecords⟩ := h.async _ _ _ hrun hcall
  have hkept : HasRoute (imageRequest served request apiKeyId w.attempt w.job 1).2 0 routing := by
    have hfirst : HasRoute s 0 routing := ⟨initialRow apiKeyId routing true, rfl, rfl, rfl⟩
    have hall := hfirst.runJobs served (jobWorlds w.job) s.jobs
    rw [imageRequest, hrequest]
    exact hall
  obtain ⟨row', hrow', hprovider, hmodel⟩ := hkept
  obtain rfl : row = row' := Option.some.inj (hrow.symm.trans hrow')
  rwa [hprovider, hmodel] at hrecords

/-- Of the candidates, only the connector of OpenAI may ask for another model. -/
theorem catalogueRequest_of_ne_openai (tier : Tier) {c : Candidate} (hc : c ∈ TIER_MAP tier)
    (hprovider : c.provider ≠ .openaiImages) {made : ConnectorCall}
    (h : connectorCall c.provider (some c.model) quality = some made) :
    catalogueRequest c.model = some made.request := by
  have hall : ∀ c ∈ TIER_MAP .cheap ++ TIER_MAP .mid ++ TIER_MAP .premium,
      c.provider ≠ .openaiImages → ∀ made ∈ connectorCall c.provider (some c.model) .low,
        catalogueRequest c.model = some made.request := by decide
  have hmem : c ∈ TIER_MAP .cheap ++ TIER_MAP .mid ++ TIER_MAP .premium := by
    cases tier <;> simp [hc]
  refine hall c hmem hprovider made ?_
  cases hcase : c.provider with
  | openaiImages => exact absurd hcase hprovider
  | vertex | replicate | falAi =>
    rw [hcase] at h
    exact h

variable (apiKeyId) in
/-- The providers before OpenAI have no credentials, so the request comes to it. -/
theorem routings_openai {w : ConnectedWorld served quality}
    (hw : w = answeringWorld quality 3 (fun _ ↦ false)
      (fun p ↦ if p = .openaiImages then none else some "PLACEHOLDER") opens_none)
    (hpin : pinnedModel request.model = none) (htier : request.tier = .premium)
    (hmode : request.outputAsync = .never) (hserved : served .openaiImages = true) :
    ∃ r, (routings served request apiKeyId w.attempt 3)[2]? = some r ∧
      r.chosenProvider = .openaiImages ∧ r.chosenModel = "openai:gpt-image-1-high" := by
  have hsync : ∀ model, shouldRunAsync model request.outputAsync = false := fun model ↦ by
    rw [hmode]
    rfl
  have hmissing : ∀ id provider model, provider ≠ .openaiImages →
      (w.attempt id).unprovisioned served request provider model = true := by
    intro id provider model hne
    simp [AttemptWorld.unprovisioned, hw, answeringWorld, answeringAttempt, hsync,
      connectorGenerate, answeringProviders, hne, GenerateEnd.unprovisioned]
  have hanswers : ∀ id model,
      (w.attempt id).unprovisioned served request .openaiImages model = false := by
    intro id model
    simp [AttemptWorld.unprovisioned, hw, answeringWorld, answeringAttempt, hserved,
      connectorGenerate, answeringProviders, connectorCall, GenerateEnd.unprovisioned]
  obtain ⟨first, hfirst, hprovider₁⟩ : ∃ r, route (w.attempt 0).isOpen request.tier request.model =
      .ok r ∧ r.chosenProvider = .vertex := by
    simp only [route, hpin, htier, hw]
    exact ⟨_, rfl, rfl⟩
  obtain ⟨second, hsecond, hprovider₂⟩ : ∃ r, routeExcluding (w.attempt 1).isOpen request.tier
      request.model ([] ++ [first.chosenProvider]) = .ok r ∧ r.chosenProvider = .replicate := by
    simp only [routeExcluding, hpin, htier, hw, hprovider₁]
    exact ⟨_, rfl, rfl⟩
  obtain ⟨third, hthird, hprovider₃, hmodel⟩ : ∃ r, routeExcluding (w.attempt 2).isOpen request.tier
      request.model ([] ++ [first.chosenProvider] ++ [second.chosenProvider]) = .ok r ∧
        r.chosenProvider = .openaiImages ∧ r.chosenModel = "openai:gpt-image-1-high" := by
    simp only [routeExcluding, hpin, htier, hw, hprovider₁, hprovider₂]
    exact ⟨_, rfl, rfl, rfl⟩
  refine ⟨third, ?_, hprovider₃, hmodel⟩
  rw [routings, hfirst]
  dsimp only
  rw [(handleLoop_next apiKeyId {} [] 2 (hmissing 0 _ _ (by rw [hprovider₁]; decide)) hsecond).2,
    (handleLoop_next apiKeyId _ _ 1 (hmissing 1 _ _ (by rw [hprovider₂]; decide)) hthird).2,
    (handleLoop_of_provisioned apiKeyId _ _ 0 (by rw [hprovider₃]; exact hanswers 2 _)).2]
  rfl

theorem Records.catalogueRequest {call : GenerateCall} {provider : ProviderId} {model : String}
    {made : ConnectorCall} (h : Records quality call provider model)
    (hmade : connectorCall call.provider call.model quality = some made) :
    Images.catalogueRequest model = some made.request := by
  obtain ⟨made', hmade', -, hmodel⟩ := h
  rw [hmade'] at hmade
  cases hmade
  exact hmodel

/-- A pinned request whose rows record what ran is pinned to what its connector asks for. -/
theorem candidateSound_of_pinned {model : String} (hpin : pinnedModel request.model = some model)
    (h : ∀ w : ConnectedWorld served quality,
      RowsRecord served request apiKeyId w.attempt w.job w.attempts quality) :
    CandidateSound served quality ⟨pinnedProvider model, model⟩ := by
  intro hserved made hmade
  have hrows := h (answeringWorld quality 1 (fun _ ↦ false) (fun _ ↦ none) opens_none)
  have hroute : route (fun _ ↦ false) request.tier request.model =
      .ok (pinnedDecision request.tier model) := route_pinned hpin
  have hmodel : request.model = some model := (Option.filter_eq_some_iff.1 hpin).1
  cases hasync : shouldRunAsync model request.outputAsync with
  | true =>
    have hjob : connectorCall (pinnedProvider model) request.model quality = some made := by
      rwa [hmodel]
    exact (hrows.of_job hroute hasync hroute hserved hjob).catalogueRequest hjob
  | false =>
    set w : ConnectedWorld served quality :=
      answeringWorld quality 1 (fun _ ↦ false) (fun _ ↦ none) opens_none with hw
    have hanswers := connectorAnswers_answering (fun _ ↦ none) hserved rfl hmade
    have hcall : (w.attempt 0).generated served request (pinnedDecision request.tier model) =
        some ⟨pinnedProvider model, some model⟩ := by
      simp only [AttemptWorld.generated, hw, answeringWorld, answeringAttempt, pinnedDecision,
        Candidate.decision, hasync, hanswers, decide_true, Bool.not_false, Bool.and_self, if_true]
    have hr : (routings served request apiKeyId w.attempt 1)[0]? =
        some (pinnedDecision request.tier model) := by
      have hfirst : route (w.attempt 0).isOpen request.tier request.model =
          .ok (pinnedDecision request.tier model) := hroute
      rw [routings, hfirst]
      rfl
    exact (hrows.of_sync hr hcall).catalogueRequest hmade

/-- A request that is queued and comes to Vertex has a row that does not record what ran. -/
theorem vertex_unserved_of_queues (hpin : pinnedModel request.model = none)
    (hqueues : ProviderGate.queues request = true)
    (h : ∀ w : ConnectedWorld served quality,
      RowsRecord served request apiKeyId w.attempt w.job w.attempts quality) :
    served .vertex = false := by
  by_contra hserved
  rw [Bool.not_eq_false] at hserved
  -- the circuit of the default model is open when the request is routed first
  have hopen : ∀ model, decide (model = "vertex:imagen-4-fast") = true →
      served (pinnedProvider model) = true := by
    intro model hmodel
    rw [of_decide_eq_true hmodel]
    exact hserved
  have hother : ∀ tier, ∃ r job, route (fun model ↦ decide (model = "vertex:imagen-4-fast")) tier
      request.model = .ok r ∧ route (fun _ ↦ false) tier request.model = .ok job ∧
        job.chosenProvider = .vertex ∧ (tier = .premium →
          ASYNC_PROVIDERS.contains r.chosenModel = true) ∧
        catalogueRequest r.chosenModel ≠
          some { provider := .vertex, apiModel := "imagen-4.0-fast-generate-001" } := by
    intro tier
    simp only [route, hpin]
    cases tier with
    | cheap => exact ⟨_, _, rfl, rfl, rfl, fun h ↦ (by cases h), by decide⟩
    | mid => exact ⟨_, _, rfl, rfl, rfl, fun h ↦ (by cases h), by decide⟩
    | premium => exact ⟨_, _, rfl, rfl, rfl, fun _ ↦ (by decide), by decide⟩
  obtain ⟨r, job, hroute, hjob, hvertex, hpremium, hne⟩ := hother request.tier
  have hasync : shouldRunAsync r.chosenModel request.outputAsync = true := by
    cases hmode : request.outputAsync with
    | auto => exact hpremium (by simpa [ProviderGate.queues, hmode] using hqueues)
    | force => rfl
    | never => simp [ProviderGate.queues, hmode] at hqueues
  -- the job asks for the default model, whether the model of the request is missing or empty
  obtain ⟨made, hmade, hrequest⟩ : ∃ made, connectorCall job.chosenProvider request.model quality =
      some made ∧ made.request =
        { provider := .vertex, apiModel := "imagen-4.0-fast-generate-001" } := by
    rw [hvertex]
    cases hmodel : request.model with
    | none => exact ⟨_, rfl, rfl⟩
    | some model =>
      have hempty : model = "" := by
        by_contra hne
        rw [hmodel, pinnedModel, Option.filter_some, if_pos (by simpa using hne)] at hpin
        cases hpin
      subst hempty
      exact ⟨_, rfl, rfl⟩
  have hrows := h (answeringWorld quality 1 (fun model ↦ decide (model = "vertex:imagen-4-fast"))
    (fun _ ↦ none) hopen)
  have hrecords := hrows.of_job hroute hasync hjob (by rw [hvertex]; exact hserved) hmade
  exact hne (hrequest ▸ hrecords.catalogueRequest hmade)

/-- The candidates of a request that is never queued are what their connectors ask for. -/
theorem candidateSound_of_not_queues (hpin : pinnedModel request.model = none)
    (hqueues : ProviderGate.queues request = false)
    (h : ∀ w : ConnectedWorld served quality,
      RowsRecord served request apiKeyId w.attempt w.job w.attempts quality) {c : Candidate}
    (hc : c ∈ TIER_MAP request.tier) : CandidateSound served quality c := by
  intro hserved made hmade
  by_cases hprovider : c.provider = .openaiImages
  · have hall : ∀ tier, ∀ c ∈ TIER_MAP tier, c.provider = .openaiImages →
        tier = .premium ∧ c.model = "openai:gpt-image-1-high" := by
      intro tier
      cases tier <;> decide
    obtain ⟨htier, hmodel⟩ := hall request.tier c hc hprovider
    rw [hprovider] at hserved hmade
    have hmode : request.outputAsync = .never := by
      cases hmode : request.outputAsync with
      | auto => simp [ProviderGate.queues, hmode, htier] at hqueues
      | force => simp [ProviderGate.queues, hmode] at hqueues
      | never => rfl
    set w : ConnectedWorld served quality := answeringWorld quality 3 (fun _ ↦ false)
      (fun p ↦ if p = .openaiImages then none else some "PLACEHOLDER") opens_none with hw
    obtain ⟨r, hr, hopenai, hhigh⟩ := routings_openai apiKeyId hw hpin htier hmode hserved
    have hanswers := connectorAnswers_answering
      (fun p ↦ if p = .openaiImages then none else some "PLACEHOLDER") hserved rfl hmade
    have hcall : (w.attempt 2).generated served request r =
        some ⟨.openaiImages, some "openai:gpt-image-1-high"⟩ := by
      rw [hmodel] at hanswers
      simp [AttemptWorld.generated, hw, answeringWorld, answeringAttempt, hopenai, hhigh, hmode,
        shouldRunAsync, hanswers]
    have hcalled : connectorCall .openaiImages (some "openai:gpt-image-1-high") quality =
        some made := hmade
    have hrecords := ((h w).of_sync hr hcall).catalogueRequest hcalled
    rwa [hhigh, ← hmodel] at hrecords
  · exact catalogueRequest_of_ne_openai request.tier hc hprovider hmade

variable (served request apiKeyId quality) in
/-- **When the rows record what ran.** In every run of the request, whenever images are generated
the row and the answer have their provider and model, exactly when the request is sound. -/
theorem rowsRecord_iff :
    (∀ w : ConnectedWorld served quality,
      RowsRecord served request apiKeyId w.attempt w.job w.attempts quality) ↔
        RecordsSound served request quality := by
  refine ⟨fun h ↦ ?_, fun h w ↦ rowsRecord_of_sound h w⟩
  unfold RecordsSound
  cases hpin : pinnedModel request.model with
  | some model => exact candidateSound_of_pinned hpin h
  | none =>
    cases hqueues : ProviderGate.queues request with
    | true => exact vertex_unserved_of_queues hpin hqueues h
    | false => exact fun c hc ↦ candidateSound_of_not_queues hpin hqueues h hc

end

/-- A run in which every provider has a connector, everything is written and all answer. -/
def allAnswering : ConnectedWorld (fun _ ↦ true) .medium :=
  answeringWorld .medium 1 (fun _ ↦ false) (fun _ ↦ none) fun _ _ ↦ rfl

/-- A premium request is queued with Imagen 4 Ultra in its row, and its job is for no model, so
Vertex is asked for Imagen 4 Fast. -/
theorem ultra_not_recorded :
    ¬RowsRecord (fun _ ↦ true) { tier := .premium } "key" allAnswering.attempt allAnswering.job 1
      .medium := by
  intro h
  have hmade : connectorCall .vertex none .medium = some ⟨"vertex:imagen-4-fast",
      { provider := .vertex, apiModel := "imagen-4.0-fast-generate-001" }⟩ := rfl
  obtain ⟨routing, hroute, hmodel⟩ : ∃ r, route (fun _ ↦ false) .premium none = .ok r ∧
      r.chosenProvider = .vertex ∧ r.chosenModel = "vertex:imagen-4-ultra" := ⟨_, rfl, rfl, rfl⟩
  have hrecords := RowsRecord.of_job h hroute (by rw [hmodel.2]; rfl) hroute rfl
    (by rw [hmodel.1]; exact hmade)
  rw [hmodel.1, hmodel.2] at hrecords
  exact absurd (hrecords.catalogueRequest hmade) (by decide)

end ModelConnector.Images
