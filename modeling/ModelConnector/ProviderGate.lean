import ModelConnector.Connectors.Cascade
import ModelConnector.Connectors.ProviderGates
import ModelConnector.Images.Generation
import ModelConnector.Speech.SttAsync

/-!
# The provider policy of a key

Which providers are called for a key, over every entry point that dispatches. `execute`, which the
failover chain and the cascade call for each of their candidates, and the synchronous transcription
call permitted providers only. A submitted transcription and an image request do not ask the policy:
what they call is permitted exactly when all they can be routed to is.
-/

namespace ModelConnector.ProviderGate

open Connectors Images Policy Speech

/-! ### The service -/

/-- A deployment, with its configuration of transcriptions and its image providers. -/
structure Service extends Deployment where
  sttConfig : Option SttConfig
  /-- The image providers that have a connector. -/
  served : ProviderId → Bool

/-- The requests of a key. -/
inductive EntryPoint
  | execute (connectorName : String) (request : ServiceExecuteRequest)
  | failover
  | cascade (id : ℕ)
  | transcribe (request : SttConnectorRequest)
  | submit (submission : SttSubmission)
  | images (request : ImageGenerationRequest)

/-- What happens in a failover chain. -/
structure ChainWorld where
  policyRead : Bool := true
  /-- `buildFailoverCandidates`, over what a policy leaves routable. -/
  candidates : Option ApiKeyPolicy → List CascadeCandidate
  requestTimeoutMs : Option ℚ := none
  deadlineMs : ℚ≥0 := 0
  hopOwnTimeoutMs : CascadeCandidate → Option ℚ := fun _ ↦ none
  allowTimeoutAdvance : CascadeCandidate → Bool := fun _ ↦ true
  startedAt : ℚ := 0
  /-- What happens in a hop, whether it notes a chunk, and when it ends. -/
  hop : ℕ → ℚ → HopRequest → ExecuteWorld × Bool × ℚ

/-- What happens to an image request. A circuit is open only after calls of its provider. -/
structure ImageWorld (served : ProviderId → Bool) where
  attempts : ℕ
  attempt : ℕ → AttemptWorld
  job : ℕ → JobWorld
  attempt_open : ∀ n model, (attempt n).isOpen model = true → served (pinnedProvider model) = true
  job_open : ∀ n model, (job n).isOpen model = true → served (pinnedProvider model) = true

/-- What happens to a request of each kind. -/
structure Behaviour (served : ProviderId → Bool) where
  execute : ExecuteWorld
  chain : ChainWorld
  /-- A run of the cascade router, and what happens in its hops. -/
  history : List (CascadeRouter × CascadeEvent)
  cascadeHop : ℕ → ExecuteWorld
  sttState : SttState
  stt : SttWorld
  submission : SttAsyncWorld
  images : ImageWorld served

/-! ### What is dispatched -/

section Dispatched

variable (svc : Service) (apiKeyId : String)

/-- `isCandidateAllowedByPolicy`. -/
def isCandidateAllowedByPolicy (policy : Option ApiKeyPolicy) (candidate : CascadeCandidate) :
    Bool :=
  isProviderAllowed policy candidate.connector &&
    match svc.tierOf candidate.connector candidate.model with
    | .error _ => false
    | .ok tier => (isModelAllowed policy candidate.connector candidate.model tier).isOk

/-- A hop of the failover chain. -/
def failoverHop (w : ChainWorld) (index : ℕ) (now : ℚ) (request : HopRequest) : HopRun where
  result :=
    match (execute svc.toDeployment (w.hop index now request).1 request.connector
      { model := some request.model } apiKeyId).1 with
    | .ok response => .returned { response }
    | .error _ => .threw
  noted := (w.hop index now request).2.1
  endsAt := (w.hop index now request).2.2

/-- The chain of `complete`, over the candidates the policy lets through. -/
def failoverRun (w : ChainWorld) (policy : Option ApiKeyPolicy) : ChainRun :=
  runFailoverChain
    { execute := failoverHop svc apiKeyId w
      requestTimeoutMs := w.requestTimeoutMs
      deadlineMs := w.deadlineMs
      hopOwnTimeoutMs := w.hopOwnTimeoutMs
      allowTimeoutAdvance := w.allowTimeoutAdvance }
    w.startedAt ((w.candidates policy).filter (isCandidateAllowedByPolicy svc policy))

/-- The providers that are called in a failover chain. -/
def failoverDispatched (w : ChainWorld) : List String :=
  match readPolicy svc.toDeployment {} w.policyRead apiKeyId with
  | .error _ => []
  | .ok policy =>
    (failoverRun svc apiKeyId w policy).hops.zipIdx.flatMap fun (hop, index) ↦
      (execute svc.toDeployment (w.hop index hop.startedAt
        ⟨hop.candidate.connector, hop.candidate.model, hop.timeoutMs⟩).1 hop.candidate.connector
          { model := some hop.candidate.model } apiKeyId).2

/-- The candidates the cascade router waited for. -/
def cascadeHops (id : ℕ) (history : List (CascadeRouter × CascadeEvent)) : List CascadeCandidate :=
  history.filterMap fun (s, e) ↦
    match e with
    | .receive other _ => if other = id then s.waitingFor id else none
    | _ => none

/-- The providers that are called in a cascade. -/
def cascadeDispatched (id : ℕ) (history : List (CascadeRouter × CascadeEvent))
    (w : ℕ → ExecuteWorld) : List String :=
  (cascadeHops id history).zipIdx.flatMap fun (candidate, index) ↦
    (execute svc.toDeployment (w index) candidate.connector { model := some candidate.model }
      apiKeyId).2

/-- The providers a transcription calls. -/
def sttDispatched (w : SttWorld) (s : SttState) (request : SttConnectorRequest) : List String :=
  ((transcribe request apiKeyId svc.sttConfig svc.policyOf w s).2.dispatched.drop
    s.dispatched.length).map SttDispatch.provider

/-- The providers that are called for a request of the key. -/
def dispatchedBy (b : Behaviour svc.served) : EntryPoint → List String
  | .execute connectorName request =>
    (execute svc.toDeployment b.execute connectorName request apiKeyId).2
  | .failover => failoverDispatched svc apiKeyId b.chain
  | .cascade id => cascadeDispatched svc apiKeyId id b.history b.cascadeHop
  | .transcribe request => sttDispatched svc apiKeyId b.stt b.sttState request
  | .submit submission => (submit b.submission { submission with apiKeyId := some apiKeyId }).2
  | .images request =>
    (imageRequest svc.served request apiKeyId b.images.attempt b.images.job
      b.images.attempts).2.dispatched.map ProviderId.value

end Dispatched

/-! ### The condition -/

/-- The request is queued, as long as the circuits of its first candidates are closed. -/
def queues (request : ImageGenerationRequest) : Bool :=
  request.outputAsync = .force || (request.outputAsync = .auto && request.tier = .premium)

/-- The providers an image request can be routed to. The service passes over a provider without a
connector; a job does not. -/
def imageProviders (served : ProviderId → Bool) (request : ImageGenerationRequest) :
    List ProviderId :=
  match pinnedModel request.model with
  | some model => [pinnedProvider model].filter served
  | none =>
    if queues request then
      ((TIER_MAP request.tier).takeWhile fun c ↦ served c.provider).map Candidate.provider
    else ((TIER_MAP request.tier).filter fun c ↦ served c.provider).map Candidate.provider

/-- Everything the entry point can call is permitted. -/
def GateHolds (svc : Service) (apiKeyId : String) : EntryPoint → Prop
  | .execute _ _ => True
  | .failover => True
  | .cascade _ => True
  | .transcribe _ => True
  | .submit submission =>
    (acceptSubmission { submission with apiKeyId := some apiKeyId }).isOk = true →
      svc.permits apiKeyId PROVIDER_NAME
  | .images request =>
    ∀ provider ∈ imageProviders svc.served request, svc.permits apiKeyId provider.value

variable {svc : Service} {apiKeyId : String}

/-! ### Where the policy is asked -/

theorem failoverDispatched_permits {w : ChainWorld} {provider : String}
    (h : provider ∈ failoverDispatched svc apiKeyId w) : svc.permits apiKeyId provider := by
  unfold failoverDispatched at h
  split at h
  · cases h
  · obtain ⟨⟨hop, index⟩, -, hcalled⟩ := List.mem_flatMap.1 h
    exact execute_permits hcalled

theorem cascadeDispatched_permits {id : ℕ} {history : List (CascadeRouter × CascadeEvent)}
    {w : ℕ → ExecuteWorld} {provider : String}
    (h : provider ∈ cascadeDispatched svc apiKeyId id history w) :
    svc.permits apiKeyId provider := by
  obtain ⟨⟨candidate, index⟩, -, hcalled⟩ := List.mem_flatMap.1 h
  exact execute_permits hcalled

variable (apiKeyId) in
theorem attemptProvider_dispatched (request : SttConnectorRequest) (attempt : SttAttemptWorld)
    (provider : String) (n : ℕ) (s : SttState) :
    ∃ spent, (attemptProvider request apiKeyId attempt provider n s).2.dispatched =
      s.dispatched ++ [⟨provider, spent⟩] := by
  have hinsert : ∀ (s : SttState) written cost row,
      (s.insert written cost row).dispatched = s.dispatched := fun s written cost row ↦ by
    unfold SttState.insert
    split
    · rfl
    · split <;> rfl
  unfold attemptProvider
  dsimp only
  split
  · split
    · exact ⟨_, hinsert _ _ _ _⟩
    · exact ⟨_, hinsert _ _ _ _⟩
  · exact ⟨_, hinsert _ _ _ _⟩
  · exact ⟨_, rfl⟩

theorem isCandidatePolicyAllowed_ok {policy : Option ApiKeyPolicy} {provider : String}
    {model : Option String} {tier : Except String (Option Policy.ModelTier)}
    (h : isCandidatePolicyAllowed policy provider model tier = .ok true) :
    isProviderAllowed policy provider = true := by
  unfold isCandidatePolicyAllowed at h
  split at h
  · cases h
  · rename_i hallowed
    simpa using hallowed

variable (apiKeyId) in
/-- The loop over the candidates calls what the policy allows. -/
theorem tryCandidates_dispatched (request : SttConnectorRequest) (policy : Option ApiKeyPolicy)
    {multi : Bool} {attempts : ℕ → SttAttemptWorld} {candidates : List String} (index : ℕ)
    (tried denied : List String) (lastError : Option SttProviderError) (s : SttState) :
    ∃ more : List SttDispatch, (tryCandidates request apiKeyId policy multi attempts index
        candidates tried denied lastError s).2.dispatched = s.dispatched ++ more ∧
      ∀ d ∈ more, isProviderAllowed policy d.provider = true := by
  induction candidates generalizing index tried denied lastError s with
  | nil => exact ⟨[], by simp [tryCandidates], by simp⟩
  | cons provider rest ih =>
    unfold tryCandidates
    split
    · exact ⟨[], by simp, by simp⟩
    · exact ih _ _ _ _ _
    · rename_i hallowed
      have hprovider := isCandidatePolicyAllowed_ok hallowed
      obtain ⟨spent, hspent⟩ := attemptProvider_dispatched apiKeyId request (attempts index) provider
        tried.length s
      have hone : ∀ d ∈ [SttDispatch.mk provider spent],
          isProviderAllowed policy d.provider = true := fun d hd ↦ by
        rw [List.mem_singleton.1 hd]
        exact hprovider
      split
      · rename_i heq
        exact ⟨_, by simpa [heq] using hspent, hone⟩
      · rename_i heq
        exact ⟨_, by simpa [heq] using hspent, hone⟩
      · rename_i error s' heq
        split
        · obtain ⟨more, hmore, hallowed⟩ :=
            ih (index + 1) (tried ++ [provider]) denied (some error) s'
          have hstate : s'.dispatched = s.dispatched ++ [⟨provider, spent⟩] := by
            simpa [heq] using hspent
          refine ⟨⟨provider, spent⟩ :: more, ?_, fun d hd ↦ ?_⟩
          · rw [hmore, hstate, List.append_assoc]
            rfl
          · exact (List.mem_cons.1 hd).elim (fun hd ↦ hone d (by simp [hd])) (hallowed d)
        · exact ⟨_, by simpa [heq] using hspent, hone⟩

theorem sttDispatched_permits {w : SttWorld} {s : SttState} {request : SttConnectorRequest}
    {provider : String} (h : provider ∈ sttDispatched svc apiKeyId w s request) :
    svc.permits apiKeyId provider := by
  have hnone : ∀ d, d ∉ (s.wait w.startAfter).dispatched.drop s.dispatched.length := fun d hd ↦ by
    rw [show (s.wait w.startAfter).dispatched = s.dispatched from rfl, List.drop_length] at hd
    cases hd
  obtain ⟨d, hd, rfl⟩ := List.mem_map.1 h
  unfold transcribe at hd
  dsimp only at hd
  split at hd
  · exact absurd hd (hnone d)
  split at hd
  · exact absurd hd (hnone d)
  split at hd
  · exact absurd hd (hnone d)
  split at hd
  · exact absurd hd (hnone d)
  split at hd
  · exact absurd hd (hnone d)
  rename_i policy hpolicy
  split at hd
  · exact absurd hd (hnone d)
  · obtain ⟨more, hmore, hallowed⟩ := tryCandidates_dispatched apiKeyId request policy _ _ _ _
      (s.wait w.startAfter)
    rw [hmore, show (s.wait w.startAfter).dispatched = s.dispatched from rfl,
      List.drop_left] at hd
    exact ⟨policy, hpolicy, hallowed d hd⟩

/-! ### Where an image request is routed -/

section Images

variable {served : ProviderId → Bool} {request : ImageGenerationRequest}
  {routing : RoutingDecision} {s : ImageState}

/-- A model of a tier has its own provider. -/
theorem pinnedProvider_of_mem (tier : Tier) {c : Candidate} (hc : c ∈ TIER_MAP tier) :
    pinnedProvider c.model = c.provider := by
  have hall : ∀ c ∈ TIER_MAP .cheap ++ TIER_MAP .mid ++ TIER_MAP .premium,
      pinnedProvider c.model = c.provider := by decide
  refine hall c ?_
  cases tier <;> simp [hc]

/-- In a request that is queued, only the last candidate is not. -/
theorem provider_of_sync {c : Candidate} (hqueues : queues request = true)
    (hc : c ∈ TIER_MAP request.tier) (hsync : shouldRunAsync c.model request.outputAsync = false) :
    c.provider = .falAi := by
  have hpremium : ∀ c ∈ TIER_MAP .premium, ASYNC_PROVIDERS.contains c.model = false →
      c.provider = .falAi := by decide
  cases hmode : request.outputAsync with
  | auto =>
    have htier : request.tier = .premium := by simpa [queues, hmode] using hqueues
    rw [htier] at hc
    rw [hmode] at hsync
    exact hpremium c hc hsync
  | force =>
    rw [hmode] at hsync
    cases hsync
  | never => simp [queues, hmode] at hqueues

/-- A request that is not queued runs at once. -/
theorem sync_of_not_queues {c : Candidate} (hqueues : queues request = false)
    (hc : c ∈ TIER_MAP request.tier) : shouldRunAsync c.model request.outputAsync = false := by
  have hothers :
      ∀ c ∈ TIER_MAP .cheap ++ TIER_MAP .mid, ASYNC_PROVIDERS.contains c.model = false := by
    decide
  cases hmode : request.outputAsync with
  | auto =>
    refine hothers c ?_
    have htier : request.tier ≠ .premium := by simpa [queues, hmode] using hqueues
    cases hcase : request.tier with
    | cheap => simp [← hcase, hc]
    | mid => simp [← hcase, hc]
    | premium => exact absurd hcase htier
  | force => simp [queues, hmode] at hqueues
  | never => rfl

/-- A connector that is called is that of the provider. -/
theorem callConnector_called {generate : Generate} {provider called : ProviderId}
    {model : Option String} (h : (callConnector served generate provider model).1 = some called) :
    called = provider ∧ served provider = true := by
  unfold callConnector at h
  split at h
  · rename_i hserved
    cases h
    exact ⟨rfl, hserved⟩
  · cases h

/-- With the circuits before it open, a candidate that is served is among the first served ones. -/
theorem mem_imageProviders_of_route {isOpen : String → Bool}
    (hopen : ∀ model, isOpen model = true → served (pinnedProvider model) = true)
    (hqueues : (pinnedModel request.model).isSome = true ∨ queues request = true)
    (hroute : route isOpen request.tier request.model = .ok routing)
    (hserved : served routing.chosenProvider = true) :
    routing.chosenProvider ∈ imageProviders served request := by
  unfold imageProviders
  cases hpin : pinnedModel request.model with
  | some model =>
    rw [route_pinned hpin] at hroute
    cases hroute
    exact List.mem_filter.2 ⟨List.mem_singleton.2 rfl, hserved⟩
  | none =>
    obtain ⟨before, after, htier, hbefore, -⟩ := route_ok hpin hroute
    rw [hpin] at hqueues
    simp only [Option.isSome_none, Bool.false_eq_true, false_or] at hqueues
    simp only [hqueues, if_true]
    refine List.mem_map.2 ⟨⟨routing.chosenProvider, routing.chosenModel⟩, ?_, rfl⟩
    have hall : ∀ c ∈ before ++ [⟨routing.chosenProvider, routing.chosenModel⟩],
        served c.provider = true := fun c hc ↦ by
      rcases List.mem_append.1 hc with hc | hc
      · rw [← pinnedProvider_of_mem request.tier (by rw [htier]; simp [hc])]
        exact hopen _ (hbefore c hc)
      · rw [List.mem_singleton.1 hc]
        exact hserved
    rw [htier, List.append_cons, List.takeWhile_append_of_pos hall]
    simp

/-! ### What a job and a request call -/

/-- One run of a job calls where it is routed. -/
theorem processJob_dispatched {job : ImageJobData} {w : JobWorld}
    (hopen : ∀ model, w.isOpen model = true → served (pinnedProvider model) = true)
    (hqueues : (pinnedModel job.request.model).isSome = true ∨ queues job.request = true) :
    ∀ p ∈ (processJob served w job s).2.dispatched,
      p ∈ s.dispatched ∨ p ∈ imageProviders served job.request := by
  have hcall : ∀ s : ImageState, ∀ p ∈ (s.call (processRequest served w.isOpen w.generate
      job.request none).1).dispatched,
        p ∈ s.dispatched ∨ p ∈ imageProviders served job.request := by
    intro s p hp
    refine (List.mem_append.1 hp).imp_right fun hcalled ↦ ?_
    rw [Option.mem_toList] at hcalled
    simp only [processRequest] at hcalled
    split at hcalled
    · cases hcalled
    · rename_i routing hroute
      obtain ⟨rfl, hserved⟩ := callConnector_called hcalled
      exact mem_imageProviders_of_route hopen hqueues hroute hserved
  have htry : ∀ p ∈ (tryJob served w job s).2.dispatched,
      p ∈ s.dispatched ∨ p ∈ imageProviders served job.request := by
    intro p hp
    unfold tryJob at hp
    dsimp only at hp
    split at hp
    · rw [ImageState.update_dispatched] at hp
      exact .inl hp
    · split at hp
      · have hp := hcall _ p hp
        rwa [ImageState.update_dispatched] at hp
      · rw [ImageState.update_dispatched] at hp
        have hp := hcall _ p hp
        rwa [ImageState.update_dispatched] at hp
  intro p hp
  unfold processJob at hp
  split at hp
  · rename_i heq
    exact htry p (by rw [heq]; exact hp)
  · rename_i heq
    rw [ImageState.update_dispatched] at hp
    exact htry p (by rw [heq]; exact hp)

/-- A job calls where it is routed. -/
theorem runJob_dispatched {job : ImageJobData} {worlds : List JobWorld}
    (hopen : ∀ w ∈ worlds, ∀ model, w.isOpen model = true → served (pinnedProvider model) = true)
    (hqueues : (pinnedModel job.request.model).isSome = true ∨ queues job.request = true) :
    ∀ p ∈ (runJob served job worlds s).dispatched,
      p ∈ s.dispatched ∨ p ∈ imageProviders served job.request := by
  induction worlds generalizing s with
  | nil => exact fun p hp ↦ .inl hp
  | cons w rest ih =>
    intro p hp
    have hfirst := processJob_dispatched (s := s) (hopen w (by simp)) hqueues
    unfold runJob at hp
    split at hp
    · rename_i heq
      rw [heq] at hfirst
      exact hfirst p hp
    · rename_i heq
      rw [heq] at hfirst
      rcases ih (fun w hw ↦ hopen w (by simp [hw])) p hp with hp | hp
      · exact hfirst p hp
      · exact .inr hp

/-- A routing of the loop: one of the candidates, whose connector is called at once only where the
request can be routed to. -/
structure Good (served : ProviderId → Bool) (request : ImageGenerationRequest)
    (routing : RoutingDecision) : Prop where
  queued : shouldRunAsync routing.chosenModel request.outputAsync = true →
    (pinnedModel request.model).isSome = true ∨ queues request = true
  called : shouldRunAsync routing.chosenModel request.outputAsync = false →
    served routing.chosenProvider = true → routing.chosenProvider ∈ imageProviders served request
  candidate : pinnedModel request.model = none →
    ⟨routing.chosenProvider, routing.chosenModel⟩ ∈ TIER_MAP request.tier

/-- Only a request that is queued runs a candidate through the queue. -/
theorem queues_of_async {c : Candidate} (hc : c ∈ TIER_MAP request.tier)
    (hasync : shouldRunAsync c.model request.outputAsync = true) : queues request = true := by
  cases hqueues : queues request with
  | true => rfl
  | false =>
    rw [sync_of_not_queues hqueues hc] at hasync
    cases hasync

theorem mem_imageProviders_of_served {c : Candidate} (hpin : pinnedModel request.model = none)
    (hqueues : queues request = false) (hc : c ∈ TIER_MAP request.tier)
    (hserved : served c.provider = true) : c.provider ∈ imageProviders served request := by
  simp only [imageProviders, hpin, hqueues, Bool.false_eq_true, if_false]
  exact List.mem_map.2 ⟨c, List.mem_filter.2 ⟨hc, hserved⟩, rfl⟩

theorem good_pinned {model : String} (hpin : pinnedModel request.model = some model) :
    Good served request (pinnedDecision request.tier model) where
  queued _ := .inl (by rw [hpin]; rfl)
  called _ hserved := by
    simp only [imageProviders, hpin]
    exact List.mem_filter.2 ⟨List.mem_singleton.2 rfl, hserved⟩
  candidate hnone := by
    rw [hpin] at hnone
    cases hnone

/-- The first routing is good. -/
theorem good_route {isOpen : String → Bool}
    (hopen : ∀ model, isOpen model = true → served (pinnedProvider model) = true)
    (hroute : route isOpen request.tier request.model = .ok routing) :
    Good served request routing := by
  cases hpin : pinnedModel request.model with
  | some model =>
    rw [route_pinned hpin] at hroute
    cases hroute
    exact good_pinned hpin
  | none =>
    obtain ⟨before, after, htier, -, -⟩ := route_ok hpin hroute
    have hc : ⟨routing.chosenProvider, routing.chosenModel⟩ ∈ TIER_MAP request.tier := by
      rw [htier]
      simp
    refine ⟨fun hasync ↦ .inr (queues_of_async hc hasync), fun _ hserved ↦ ?_, fun _ ↦ hc⟩
    cases hqueues : queues request with
    | true => exact mem_imageProviders_of_route hopen (.inr hqueues) hroute hserved
    | false => exact mem_imageProviders_of_served hpin hqueues hc hserved

/-- A routing past a provider that was called at once is good. -/
theorem good_routeExcluding {isOpen : String → Bool} {excluded : List ProviderId}
    {previous : RoutingDecision} (hprevious : Good served request previous)
    (hsync : shouldRunAsync previous.chosenModel request.outputAsync = false)
    (hroute : routeExcluding isOpen request.tier request.model
      (excluded ++ [previous.chosenProvider]) = .ok routing) :
    Good served request routing := by
  cases hpin : pinnedModel request.model with
  | some model =>
    rw [routeExcluding_pinned hpin] at hroute
    cases hroute
    exact good_pinned hpin
  | none =>
    obtain ⟨hc, hexcluded⟩ := routeExcluding_ok hpin hroute
    refine ⟨fun hasync ↦ .inr (queues_of_async hc hasync), fun hnow hserved ↦ ?_, fun _ ↦ hc⟩
    cases hqueues : queues request with
    | true =>
      -- the one candidate that is not queued has just been excluded
      have hlast : routing.chosenProvider = .falAi := provider_of_sync hqueues hc hnow
      have hbefore : previous.chosenProvider = .falAi :=
        provider_of_sync hqueues (hprevious.candidate hpin) hsync
      exact absurd (by simp [hlast, hbefore]) hexcluded
    | false => exact mem_imageProviders_of_served hpin hqueues hc hserved

variable (served request routing s) in
/-- What an attempt calls and queues, and when its provider can be found unprovisioned. -/
theorem handleWithRouting_dispatched (apiKeyId : String) (w : AttemptWorld) (id : ℕ) :
    (∀ p ∈ (handleWithRouting served request apiKeyId w routing id s).2.dispatched,
      p ∈ s.dispatched ∨ (shouldRunAsync routing.chosenModel request.outputAsync = false ∧
        served routing.chosenProvider = true ∧ p = routing.chosenProvider)) ∧
    (∀ job ∈ (handleWithRouting served request apiKeyId w routing id s).2.jobs,
      job ∈ s.jobs ∨ (shouldRunAsync routing.chosenModel request.outputAsync = true ∧
        job.request = request)) ∧
    ∀ provider vaultPath, (handleWithRouting served request apiKeyId w routing id s).1 =
      .error (.notProvisioned provider vaultPath) →
        shouldRunAsync routing.chosenModel request.outputAsync = false := by
  unfold handleWithRouting
  dsimp only
  split
  · rename_i e heq
    refine ⟨fun p hp ↦ .inl (by rwa [ImageState.create_dispatched] at hp),
      fun job hjob ↦ .inl (by rwa [ImageState.create_jobs] at hjob),
      fun provider vaultPath hanswer ↦ ?_⟩
    cases hcreate : w.create <;> rw [hcreate] at heq <;> cases heq <;> cases hanswer
  · split
    · rename_i hasync
      refine ⟨fun p hp ↦ .inl ?_, fun job hjob ↦ ?_, fun provider vaultPath hanswer ↦ ?_⟩
      · rwa [ImageState.enqueue_dispatched, ImageState.create_dispatched] at hp
      · unfold ImageState.enqueue at hjob
        split at hjob
        · rcases List.mem_append.1 hjob with hjob | hjob
          · exact .inl (by rwa [ImageState.create_jobs] at hjob)
          · rw [List.mem_singleton.1 hjob]
            exact .inr ⟨hasync, rfl⟩
        · exact .inl (by rwa [ImageState.create_jobs] at hjob)
      · cases hqueued : w.enqueue <;> rw [hqueued] at hanswer <;> cases hanswer
    · rename_i hsync
      have hsync := eq_false_of_ne_true hsync
      have hcall : ∀ p ∈ ((s.create w.create id (initialRow apiKeyId routing
          (shouldRunAsync routing.chosenModel request.outputAsync))).call
            (callConnector served w.generate routing.chosenProvider
              (some routing.chosenModel)).1).dispatched, p ∈ s.dispatched ∨
                (served routing.chosenProvider = true ∧ p = routing.chosenProvider) := by
        intro p hp
        rcases List.mem_append.1 hp with hp | hp
        · exact .inl (by rwa [ImageState.create_dispatched] at hp)
        · obtain ⟨rfl, hserved⟩ := callConnector_called (Option.mem_toList.1 hp)
          exact .inr ⟨hserved, rfl⟩
      simp only [handleSync, processRequest]
      split
      · exact ⟨fun p hp ↦ (hcall p hp).imp_right fun h ↦ ⟨hsync, h⟩,
          fun job hjob ↦ .inl (by rwa [ImageState.call_jobs, ImageState.create_jobs] at hjob),
          fun _ _ _ ↦ hsync⟩
      · refine ⟨fun p hp ↦ ?_, fun job hjob ↦ .inl ?_, fun _ _ _ ↦ hsync⟩
        · rw [ImageState.update_dispatched] at hp
          exact (hcall p hp).imp_right fun h ↦ ⟨hsync, h⟩
        · rwa [ImageState.update_jobs, ImageState.call_jobs, ImageState.create_jobs] at hjob

variable (s) in
/-- The loop calls where the request can be routed to, and queues a job only for a request that
can be. -/
theorem handleLoop_dispatched (apiKeyId : String) (world : ℕ → AttemptWorld) (attempts id : ℕ)
    (excluded : List ProviderId) (hgood : Good served request routing) :
    (∀ p ∈ (handleLoop served request apiKeyId world attempts id routing excluded s).2.dispatched,
      p ∈ s.dispatched ∨ p ∈ imageProviders served request) ∧
    ∀ job ∈ (handleLoop served request apiKeyId world attempts id routing excluded s).2.jobs,
      job ∈ s.jobs ∨ (((pinnedModel request.model).isSome = true ∨ queues request = true) ∧
        job.request = request) := by
  induction attempts generalizing id routing excluded s with
  | zero => exact ⟨fun p hp ↦ .inl hp, fun job hjob ↦ .inl hjob⟩
  | succ attempts ih =>
    obtain ⟨hcalls, hjobs, hretried⟩ := handleWithRouting_dispatched served request routing s apiKeyId
      (world id) id
    have hcalls' : ∀ p ∈ (handleWithRouting served request apiKeyId (world id) routing id
        s).2.dispatched, p ∈ s.dispatched ∨ p ∈ imageProviders served request := fun p hp ↦
      (hcalls p hp).imp_right fun ⟨hsync, hserved, heq⟩ ↦ heq ▸ hgood.called hsync hserved
    have hjobs' : ∀ job ∈ (handleWithRouting served request apiKeyId (world id) routing id s).2.jobs,
        job ∈ s.jobs ∨ (((pinnedModel request.model).isSome = true ∨ queues request = true) ∧
          job.request = request) := fun job hjob ↦
      (hjobs job hjob).imp_right fun ⟨hasync, heq⟩ ↦ ⟨hgood.queued hasync, heq⟩
    unfold handleLoop
    split
    · rename_i provider vaultPath s' heq
      rw [heq] at hcalls' hjobs' hretried
      have hsync := hretried provider vaultPath rfl
      dsimp only
      split
      · exact ⟨hcalls', hjobs'⟩
      · rename_i next hroute
        obtain ⟨hmore, hqueued⟩ := ih s' (id + 1) _ (good_routeExcluding hgood hsync hroute)
        exact ⟨fun p hp ↦ (hmore p hp).elim (hcalls' p) .inr,
          fun job hjob ↦ (hqueued job hjob).elim (hjobs' job) .inr⟩
    · rename_i answer s' _ heq
      rw [heq] at hcalls' hjobs'
      exact ⟨hcalls', hjobs'⟩

/-- What is called for an image request is where it can be routed to. -/
theorem imageRequest_dispatched (w : ImageWorld served) (apiKeyId : String) :
    ∀ p ∈ (imageRequest served request apiKeyId w.attempt w.job w.attempts).2.dispatched,
      p ∈ imageProviders served request := by
  have hrequest : (∀ p ∈ (handleRequest served request apiKeyId w.attempt w.attempts).2.dispatched,
      p ∈ imageProviders served request) ∧
      ∀ job ∈ (handleRequest served request apiKeyId w.attempt w.attempts).2.jobs,
        ((pinnedModel request.model).isSome = true ∨ queues request = true) ∧
          job.request = request := by
    unfold handleRequest
    split
    · constructor
      · intro p hp
        cases hp
      · intro job hjob
        cases hjob
    · rename_i routing hroute
      obtain ⟨hcalls, hjobs⟩ := handleLoop_dispatched {} apiKeyId w.attempt w.attempts 0 []
        (good_route (w.attempt_open 0) hroute)
      exact ⟨fun p hp ↦ (hcalls p hp).resolve_left (by simp),
        fun job hjob ↦ (hjobs job hjob).resolve_left (by simp)⟩
  have hopen : ∀ world ∈ jobWorlds w.job, ∀ model, world.isOpen model = true →
      served (pinnedProvider model) = true := fun world hworld ↦ by
    obtain ⟨n, -, rfl⟩ := List.mem_map.1 hworld
    exact w.job_open n
  have hall : ∀ jobs : List ImageJobData, (∀ job ∈ jobs,
      ((pinnedModel request.model).isSome = true ∨ queues request = true) ∧ job.request = request) →
        ∀ s : ImageState, (∀ p ∈ s.dispatched, p ∈ imageProviders served request) →
          ∀ p ∈ (jobs.foldl (fun s job ↦ runJob served job (jobWorlds w.job) s) s).dispatched,
            p ∈ imageProviders served request := by
    intro jobs
    induction jobs with
    | nil => exact fun _ s hs ↦ hs
    | cons job jobs ih =>
      intro hjobs s hs
      obtain ⟨hqueues, heq⟩ := hjobs job (by simp)
      refine ih (fun job hjob ↦ hjobs job (by simp [hjob])) _ fun p hp ↦ ?_
      rcases runJob_dispatched hopen (by rwa [heq]) p hp with hp | hp
      · exact hs p hp
      · rwa [heq] at hp
  exact hall _ hrequest.2 _ hrequest.1

end Images

/-! ### Where an image request can be made to go -/

section Reached

variable {served : ProviderId → Bool} {request : ImageGenerationRequest} {apiKeyId : String}
  {routing : RoutingDecision} {s : ImageState} {before after : List Candidate} {c : Candidate}

/-- An attempt in which everything is written, and every connector answers. -/
def workingAttempt (isOpen : String → Bool) : AttemptWorld where
  isOpen
  create := .done
  enqueue := .done
  generate _ _ := .completed { urls := none, costUsd := 0, latencyMs := none }
  update := .done

/-- A run of a job in which everything is written, and every connector answers. -/
def workingJob (isOpen : String → Bool) : JobWorld where
  isOpen
  start := .done
  generate _ _ := .completed { urls := none, costUsd := 0, latencyMs := none }
  complete := .done
  fail := .done

/-- The circuits of some candidates are open, as far as they have been called. -/
def blockedBy (served : ProviderId → Bool) (before : List Candidate) (model : String) : Bool :=
  before.any (·.model = model) && served (pinnedProvider model)

variable (served request apiKeyId routing s) in
/-- An attempt that runs at once calls a provider that is served, and gets its answer. -/
theorem handleWithRouting_working (isOpen : String → Bool) (id : ℕ)
    (hsync : shouldRunAsync routing.chosenModel request.outputAsync = false)
    (hserved : served routing.chosenProvider = true) :
    ∃ answer s', handleWithRouting served request apiKeyId (workingAttempt isOpen) routing id s =
        (.ok answer, s') ∧ routing.chosenProvider ∈ s'.dispatched ∧ s'.jobs = s.jobs := by
  simp [handleWithRouting, workingAttempt, WriteEnd.answer, hsync, handleSync, processRequest,
    callConnector, hserved, ImageState.call, ImageState.create, ImageState.update, WriteEnd.applied,
    Except.map]

variable (served request apiKeyId routing s) in
/-- An attempt at a provider without a connector. -/
theorem handleWithRouting_unserved (isOpen : String → Bool) (id : ℕ)
    (hsync : shouldRunAsync routing.chosenModel request.outputAsync = false)
    (hserved : served routing.chosenProvider = false) :
    ∃ provider vaultPath s', handleWithRouting served request apiKeyId (workingAttempt isOpen)
        routing id s = (.error (.notProvisioned provider vaultPath), s') := by
  simp [handleWithRouting, workingAttempt, WriteEnd.answer, hsync, handleSync, processRequest,
    callConnector, hserved]

variable (before after) in
/-- The first candidate is no later than one that is not skipped. -/
theorem firstCandidate_reaches (skips : Candidate → Bool) (hc : skips c = false) :
    ∃ first skipped, firstCandidate skips (before ++ c :: after) = some (first, skipped) ∧
      (first = c ∨ (first ∈ before ∧ skips first = false)) := by
  by_cases hall : ∀ u ∈ before, skips u = true
  · obtain ⟨skipped, hfirst⟩ := firstCandidate_append skips after hall hc
    exact ⟨c, skipped, hfirst, .inl rfl⟩
  · cases hfirst : firstCandidate skips (before ++ c :: after) with
    | none =>
      unfold firstCandidate at hfirst
      split at hfirst
      · rename_i hdrop
        have hskips := List.dropWhile_eq_nil_iff.1 hdrop c (by simp)
        rw [hc] at hskips
        cases hskips
      · cases hfirst
    | some found =>
      obtain ⟨first, skipped⟩ := found
      obtain ⟨pre, post, hsplit, hpre, hskips⟩ := firstCandidate_eq_some hfirst
      refine ⟨first, skipped, rfl, ?_⟩
      rcases List.append_eq_append_iff.1 hsplit with ⟨mid, rfl, hmid⟩ | ⟨mid, rfl, hmid⟩
      · cases mid with
        | nil =>
          cases hmid
          exact .inl rfl
        | cons u mid =>
          cases hmid
          have hskipped := hpre c (by simp)
          rw [hc] at hskipped
          cases hskipped
      · cases mid with
        | nil =>
          cases hmid
          exact .inl rfl
        | cons u mid =>
          cases hmid
          exact .inr ⟨by simp, hskips⟩

/-- A model stands once in its tier. -/
theorem blockedBy_eq_false (htier : TIER_MAP request.tier = before ++ c :: after) :
    blockedBy served before c.model = false := by
  have hnodup : ∀ tier, ((TIER_MAP tier).map Candidate.model).Nodup := by
    intro tier
    cases tier <;> decide
  have hmodels := hnodup request.tier
  rw [htier, List.map_append, List.nodup_append] at hmodels
  have hany : before.any (fun u ↦ decide (u.model = c.model)) = false := by
    simpa using fun u hu heq ↦
      hmodels.2.2 u.model (List.mem_map_of_mem hu) c.model (by simp) heq
  rw [blockedBy, hany, Bool.false_and]

/-- A circuit before the candidate is open if its provider is served. -/
theorem blockedBy_eq_served (htier : TIER_MAP request.tier = before ++ c :: after) {u : Candidate}
    (hu : u ∈ before) : blockedBy served before u.model = served u.provider := by
  have hany : before.any (fun v ↦ decide (v.model = u.model)) = true :=
    List.any_eq_true.2 ⟨u, hu, decide_eq_true rfl⟩
  rw [blockedBy, hany, Bool.true_and,
    pinnedProvider_of_mem request.tier (by rw [htier]; simp [hu])]

variable (apiKeyId routing s) in
/-- The loop passes over the providers without a connector, and comes to a candidate that has
one. -/
theorem handleLoop_reaches (hpin : pinnedModel request.model = none)
    (htier : TIER_MAP request.tier = before ++ c :: after) (hserved : served c.provider = true)
    (hsync : ∀ u ∈ TIER_MAP request.tier, shouldRunAsync u.model request.outputAsync = false)
    (attempts id : ℕ) (excluded : List ProviderId)
    (hrouting : routing.chosenProvider = c.provider ∧ routing.chosenModel = c.model ∨
      (⟨routing.chosenProvider, routing.chosenModel⟩ ∈ before ∧
        served routing.chosenProvider = false ∧ routing.chosenProvider ∉ excluded))
    (hexcluded : ∀ p ∈ excluded, served p = false)
    (hattempts : (before.filter fun u ↦ !served u.provider && !excluded.contains u.provider).length <
      attempts) :
    c.provider ∈ (handleLoop served request apiKeyId
      (fun _ ↦ workingAttempt (blockedBy served before)) attempts id routing excluded
        s).2.dispatched := by
  induction attempts generalizing id routing excluded s with
  | zero => exact absurd hattempts (Nat.not_lt_zero _)
  | succ attempts ih =>
    have hmem : ∀ u, u = c ∨ u ∈ before → u ∈ TIER_MAP request.tier := fun u hu ↦ by
      rw [htier]
      rcases hu with rfl | hu <;> simp_all
    rcases hrouting with ⟨hprovider, hmodel⟩ | ⟨hbefore, hunserved, hnew⟩
    · obtain ⟨answer, s', heq, hcalled, -⟩ := handleWithRouting_working served request apiKeyId
        routing s (blockedBy served before) id (by rw [hmodel]; exact hsync c (hmem c (.inl rfl)))
        (by rw [hprovider]; exact hserved)
      rw [handleLoop, heq]
      rwa [hprovider] at hcalled
    · obtain ⟨provider, vaultPath, s', heq⟩ := handleWithRouting_unserved served request apiKeyId
        routing s (blockedBy served before) id (hsync _ (hmem _ (.inr hbefore))) hunserved
      have hmore : ∀ p ∈ excluded ++ [routing.chosenProvider], served p = false := fun p hp ↦ by
        rcases List.mem_append.1 hp with hp | hp
        · exact hexcluded p hp
        · rw [List.mem_singleton.1 hp]
          exact hunserved
      have hkept : ((excluded ++ [routing.chosenProvider]).contains c.provider ||
          blockedBy served before c.model) = false := by
        rw [blockedBy_eq_false htier, Bool.or_false]
        refine eq_false_of_ne_true fun hin ↦ ?_
        rw [hmore c.provider (List.contains_iff_mem.1 hin)] at hserved
        cases hserved
      obtain ⟨first, skipped, hfirst, hnext⟩ := firstCandidate_reaches before after
        (fun u ↦ (excluded ++ [routing.chosenProvider]).contains u.provider ||
          blockedBy served before u.model) hkept
      have hroute : ∃ next, routeExcluding (blockedBy served before) request.tier request.model
          (excluded ++ [routing.chosenProvider]) = .ok next ∧
            next.chosenProvider = first.provider ∧ next.chosenModel = first.model := by
        rw [← htier] at hfirst
        simp only [routeExcluding, hpin, Option.isSome_none, Bool.false_eq_true, if_false, hfirst]
        exact ⟨_, rfl, rfl, rfl⟩
      obtain ⟨next, hroute, hprovider, hmodel⟩ := hroute
      rw [handleLoop, heq]
      simp only [workingAttempt, hroute]
      refine ih _ _ (id + 1) (excluded ++ [routing.chosenProvider]) ?_ hmore ?_
      · rcases hnext with rfl | ⟨hin, hskips⟩
        · exact .inl ⟨hprovider, hmodel⟩
        · obtain ⟨hout, hclosed⟩ := Bool.or_eq_false_iff.1 hskips
          rw [blockedBy_eq_served htier hin] at hclosed
          refine .inr ⟨by rw [hprovider, hmodel]; exact hin, by rw [hprovider]; exact hclosed, ?_⟩
          rw [hprovider]
          simpa using hout
      · -- one provider fewer is left to be found out
        have hfilter : (before.filter fun u ↦ !served u.provider &&
            !(excluded ++ [routing.chosenProvider]).contains u.provider) =
              (before.filter fun u ↦ !served u.provider && !excluded.contains u.provider).filter
                fun u ↦ u.provider ≠ routing.chosenProvider := by
          rw [List.filter_filter]
          refine List.filter_congr fun u _ ↦ ?_
          simp [Bool.and_comm, Bool.and_left_comm]
        have hin : (⟨routing.chosenProvider, routing.chosenModel⟩ : Candidate) ∈
            before.filter fun u ↦ !served u.provider && !excluded.contains u.provider :=
          List.mem_filter.2 ⟨hbefore, by simpa [hunserved] using hnew⟩
        have hless : ((before.filter fun u ↦ !served u.provider &&
            !excluded.contains u.provider).filter
              fun u ↦ u.provider ≠ routing.chosenProvider).length <
                (before.filter fun u ↦ !served u.provider && !excluded.contains u.provider).length :=
          List.length_filter_lt_length_iff_exists.2 ⟨_, hin, by simp⟩
        rw [hfilter]
        omega

/-- A queued request goes where its job is routed. -/
theorem imageRequest_queued {first : RoutingDecision} {isOpen : String → Bool}
    (hfirst : route (fun _ ↦ false) request.tier request.model = .ok first)
    (hasync : shouldRunAsync first.chosenModel request.outputAsync = true)
    (hroute : route isOpen request.tier request.model = .ok routing)
    (hserved : served routing.chosenProvider = true) :
    routing.chosenProvider ∈ (imageRequest served request apiKeyId
      (fun _ ↦ workingAttempt fun _ ↦ false) (fun _ ↦ workingJob isOpen) 1).2.dispatched := by
  simp [imageRequest, handleRequest, workingAttempt, hfirst, handleLoop, handleWithRouting,
    WriteEnd.answer, hasync, ImageState.create, ImageState.enqueue, WriteEnd.applied, Except.map,
    jobWorlds, JOB_ATTEMPTS, List.range_succ, runJob, processJob, tryJob, ImageState.update,
    workingJob, processRequest, hroute, callConnector, hserved, ImageState.call]

/-- With all circuits closed, a request that is queued goes to the queue. -/
theorem route_async (hpin : pinnedModel request.model = none) (hqueues : queues request = true) :
    ∃ first, route (fun _ ↦ false) request.tier request.model = .ok first ∧
      shouldRunAsync first.chosenModel request.outputAsync = true := by
  have hfirst : ∀ tier, ∃ first, route (fun _ ↦ false) tier request.model = .ok first ∧
      (tier = .premium → ASYNC_PROVIDERS.contains first.chosenModel = true) := by
    intro tier
    simp only [route, hpin]
    cases tier with
    | cheap => exact ⟨_, rfl, fun h ↦ by cases h⟩
    | mid => exact ⟨_, rfl, fun h ↦ by cases h⟩
    | premium => exact ⟨_, rfl, fun _ ↦ by decide⟩
  obtain ⟨first, hroute, hpremium⟩ := hfirst request.tier
  refine ⟨first, hroute, ?_⟩
  cases hmode : request.outputAsync with
  | auto => exact hpremium (by simpa [queues, hmode] using hqueues)
  | force => rfl
  | never => simp [queues, hmode] at hqueues

variable (apiKeyId) in
/-- Where an image request can be routed to, it can be made to go. -/
theorem imageRequest_reaches {provider : ProviderId}
    (h : provider ∈ imageProviders served request) :
    ∃ w : ImageWorld served, provider ∈
      (imageRequest served request apiKeyId w.attempt w.job w.attempts).2.dispatched := by
  have hclosed : ∀ model, (fun _ : String ↦ false) model = true →
      served (pinnedProvider model) = true := fun _ h ↦ by cases h
  have hblocked : ∀ before model, blockedBy served before model = true →
      served (pinnedProvider model) = true := fun before model h ↦ (Bool.and_eq_true_iff.1 h).2
  unfold imageProviders at h
  split at h
  · rename_i model hpin
    obtain ⟨hprovider, hserved⟩ := List.mem_filter.1 h
    obtain rfl := List.mem_singleton.1 hprovider
    -- a pinned model: one attempt, with every circuit breaker closed
    have hroute : route (fun _ ↦ false) request.tier request.model =
        .ok (pinnedDecision request.tier model) := route_pinned hpin
    refine ⟨⟨1, fun _ ↦ workingAttempt fun _ ↦ false, fun _ ↦ workingJob fun _ ↦ false,
      fun _ ↦ hclosed, fun _ ↦ hclosed⟩, ?_⟩
    cases hasync : shouldRunAsync model request.outputAsync with
    | true => exact imageRequest_queued hroute hasync hroute hserved
    | false =>
      obtain ⟨answer, s', heq, hcalled, hjobs⟩ := handleWithRouting_working served request apiKeyId
        (pinnedDecision request.tier model) {} (fun _ ↦ false) 0 hasync hserved
      simp only [imageRequest, handleRequest]
      rw [show (workingAttempt fun _ ↦ false).isOpen = fun _ ↦ false from rfl, hroute]
      simp only [handleLoop, heq, hjobs]
      exact hcalled
  · rename_i hpin
    split at h
    · rename_i hqueues
      obtain ⟨c, hc, rfl⟩ := List.mem_map.1 h
      -- a queued request goes to the first candidate its job finds closed: those before are blocked
      obtain ⟨pre, post, hsplit⟩ := List.append_of_mem hc
      have hserved : ∀ u ∈ pre ++ c :: post, served u.provider = true := fun u hu ↦
        List.mem_takeWhile_imp (p := fun u : Candidate ↦ served u.provider) (by rwa [hsplit])
      have htier : TIER_MAP request.tier = pre ++ c :: (post ++
          (TIER_MAP request.tier).dropWhile fun u ↦ served u.provider) := by
        conv_lhs => rw [← List.takeWhile_append_dropWhile
          (p := fun u : Candidate ↦ served u.provider) (l := TIER_MAP request.tier), hsplit]
        simp
      obtain ⟨routing, hroute, hprovider, -⟩ := route_of_open (blockedBy served pre) hpin
        htier (fun u hu ↦ by rw [blockedBy_eq_served htier hu]; exact hserved u (by simp [hu]))
        (blockedBy_eq_false htier)
      obtain ⟨first, hfirst, hasync⟩ := route_async hpin hqueues
      refine ⟨⟨1, fun _ ↦ workingAttempt fun _ ↦ false, fun _ ↦ workingJob (blockedBy served pre),
        fun _ ↦ hclosed, fun _ ↦ hblocked pre⟩, ?_⟩
      rw [← hprovider]
      exact imageRequest_queued hfirst hasync hroute (by rw [hprovider]; exact hserved c (by simp))
    · rename_i hqueues
      have hqueues := eq_false_of_ne_true hqueues
      obtain ⟨c, hc, rfl⟩ := List.mem_map.1 h
      -- what is not queued goes on from candidate to candidate, with an attempt for each one before
      obtain ⟨hmem, hserved⟩ := List.mem_filter.1 hc
      obtain ⟨pre, post, htier⟩ := List.append_of_mem hmem
      obtain ⟨first, skipped, hfirst, hnext⟩ := firstCandidate_reaches pre post
        (fun u ↦ blockedBy served pre u.model) (blockedBy_eq_false htier)
      obtain ⟨routing, hroute, hprovider, hmodel⟩ : ∃ routing, route (blockedBy served pre)
          request.tier request.model = .ok routing ∧ routing.chosenProvider = first.provider ∧
            routing.chosenModel = first.model := by
        rw [← htier] at hfirst
        simp only [route, hpin, hfirst]
        exact ⟨_, rfl, rfl, rfl⟩
      have hcalled := handleLoop_reaches apiKeyId routing {} hpin htier hserved
        (fun u hu ↦ sync_of_not_queues hqueues hu) (pre.length + 1) 0 [] (by
          rcases hnext with rfl | ⟨hin, hskips⟩
          · exact .inl ⟨hprovider, hmodel⟩
          · rw [blockedBy_eq_served htier hin] at hskips
            rw [hprovider, hmodel]
            exact .inr ⟨hin, hskips, by simp⟩)
        (by simp) (Nat.lt_succ_of_le (List.length_filter_le _ _))
      have hjobs := (handleLoop_dispatched {} apiKeyId
        (fun _ ↦ workingAttempt (blockedBy served pre)) (pre.length + 1) 0 []
          (good_route (hblocked pre) hroute)).2
      refine ⟨⟨pre.length + 1, fun _ ↦ workingAttempt (blockedBy served pre),
        fun _ ↦ workingJob fun _ ↦ false, fun _ ↦ hblocked pre, fun _ ↦ hclosed⟩, ?_⟩
      simp only [imageRequest, handleRequest]
      rw [show (workingAttempt (blockedBy served pre)).isOpen = blockedBy served pre from rfl, hroute]
      have hnone : (handleLoop served request apiKeyId
          (fun _ ↦ workingAttempt (blockedBy served pre)) (pre.length + 1) 0 routing [] {}).2.jobs =
            [] := by
        refine List.eq_nil_iff_forall_not_mem.2 fun job hjob ↦ ?_
        simpa [hpin, hqueues] using hjobs job hjob
      simp only [hnone, List.foldl_nil]
      exact hcalled

end Reached

/-! ### The condition of the gate -/

/-- Nothing happens but what is told of a submission and of an image request. -/
def quiet {served : ProviderId → Bool} (submission : SttAsyncWorld) (images : ImageWorld served) :
    Behaviour served where
  execute := { dispatch := fun _ ↦ .error "aborted" }
  chain := { candidates := fun _ ↦ [], hop := fun _ now _ ↦
    ({ dispatch := fun _ ↦ .error "aborted" }, false, now) }
  history := []
  cascadeHop _ := { dispatch := fun _ ↦ .error "aborted" }
  sttState := {}
  stt := { attempts := fun _ ↦ { answer := .threw "aborted" } }
  submission
  images

/-- No attempt is looked at. -/
def noAttempts (served : ProviderId → Bool) : ImageWorld served where
  attempts := 0
  attempt _ := workingAttempt fun _ ↦ false
  job _ := workingJob fun _ ↦ false
  attempt_open _ _ h := by cases h
  job_open _ _ h := by cases h

/-- Every provider that is called for a request of the key is permitted, whatever happens, exactly
when the entry point asks the policy, or all it can call is permitted. -/
theorem gate_holds_iff (svc : Service) (apiKeyId : String) (entry : EntryPoint) :
    (∀ b : Behaviour svc.served, ∀ provider ∈ dispatchedBy svc apiKeyId b entry,
      svc.permits apiKeyId provider) ↔ GateHolds svc apiKeyId entry := by
  cases entry with
  | execute connectorName request => exact iff_of_true (fun b p hp ↦ execute_permits hp) trivial
  | failover => exact iff_of_true (fun b p hp ↦ failoverDispatched_permits hp) trivial
  | cascade id => exact iff_of_true (fun b p hp ↦ cascadeDispatched_permits hp) trivial
  | transcribe request => exact iff_of_true (fun b p hp ↦ sttDispatched_permits hp) trivial
  | submit submission =>
    constructor
    · exact fun h haccepted ↦ h (quiet {} (noAttempts svc.served)) _ (submit_of_accepted haccepted)
    · intro h b p hp
      obtain ⟨haccepted, rfl⟩ := submit_dispatched hp
      exact h haccepted
  | images request =>
    constructor
    · intro h provider hprovider
      obtain ⟨w, hcalled⟩ := imageRequest_reaches apiKeyId hprovider
      exact h (quiet {} w) _ (List.mem_map_of_mem hcalled)
    · intro h b p hp
      obtain ⟨provider, hcalled, rfl⟩ := List.mem_map.1 hp
      exact h provider (imageRequest_dispatched b.images apiKeyId provider hcalled)

/-! ### A bypass -/

/-- A policy that allows one provider of chat models. -/
def openrouterOnly : ApiKeyPolicy where
  policyVersion := .v1
  providers := some ["openrouter"]
  accepted_eq := by decide

/-- A deployment with every image provider, whose keys are all restricted so. -/
def restrictedService : Service where
  rows := []
  policyOf _ := .ok (some openrouterOnly)
  access _ := { read := true, use := true }
  env _ := none
  measured _ := .ready
  measuredWith _ _ := .ready
  status _ := .ready
  connector _ := none
  tierOf _ _ := .ok none
  credentialRegistry := none
  sttConfig := none
  served _ := true

/-- An image request of a key that may only use another provider is sent to the provider of its
tier. -/
theorem gate_bypassed :
    ¬∀ (svc : Service) (apiKeyId : String) (entry : EntryPoint) (b : Behaviour svc.served),
      ∀ provider ∈ dispatchedBy svc apiKeyId b entry, svc.permits apiKeyId provider := by
  intro h
  have hvertex : ProviderId.vertex ∈
      imageProviders restrictedService.served { tier := .mid, outputAsync := .never } := by decide
  obtain ⟨w, hcalled⟩ := imageRequest_reaches "key" hvertex
  obtain ⟨policy, hpolicy, hallowed⟩ := h restrictedService "key"
    (.images { tier := .mid, outputAsync := .never }) (quiet {} w) _ (List.mem_map_of_mem hcalled)
  cases hpolicy
  revert hallowed
  decide

end ModelConnector.ProviderGate
