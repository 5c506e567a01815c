import ModelConnector.AdvertisedModels
import ModelConnector.CandidateOrder
import ModelConnector.Connectors.OpenAiCompat
import ModelConnector.FailoverChain

/-!
# Chat completions through the facade

What a client is answered, over everything the connectors may do: `chat_answers` says after which
hops, `hops_clear_gates` that no hop is made that the gates of `execute` refuse for the access, the
policy or the model, and `listed_model_leads` that a model is tried first at the connector that is
shown as its owner.
-/

namespace ModelConnector.Connectors

open Policy

/-! ### The candidates -/

section Candidates

variable {f : FailoverRouterService} {policy : Option ApiKeyPolicy} {requestedModel : String}
  {cs : List CascadeCandidate} {c : CascadeCandidate}

/-- A list of candidates is always built, of declared ones. -/
theorem buildFailoverCandidates_ok (input : BuildFailoverCandidatesInput) :
    ∃ cs, buildFailoverCandidates input = .ok cs ∧ (∀ c ∈ cs, Declared input c) ∧
      ∀ e, input.promoted = some e → ∃ rest, cs = e.candidate :: rest := by
  by_cases hstrict : StrictPaid input
  · obtain ⟨e, he, hpaid, hdowngrade⟩ := hstrict
    refine ⟨[e.candidate], ?_, fun c hc ↦ ?_, fun e' he' ↦ ?_⟩
    · simp only [buildFailoverCandidates, he, hpaid, hdowngrade, and_self, if_true]
    · rw [List.mem_singleton.1 hc]
      exact (declared_of_mem (mem_of_promoted he)).1
    · rw [he] at he'
      cases he'
      exact ⟨[], rfl⟩
  · refine ⟨_, buildFailoverCandidates_eq hstrict, ordered_candidatesOf.declared, fun e he ↦ ?_⟩
    rw [candidatesOf_eq, he]
    exact ⟨_, rfl⟩

/-- The connector of a candidate may be called with the candidate's model: it declares it as a chat
model, it is switched on, its credential is ready, and the policy allows both. -/
structure Callable (f : FailoverRouterService) (policy : Option ApiKeyPolicy)
    (c : CascadeCandidate) : Prop where
  declared : ∃ caps ∈ f.listCapabilities, ∃ info ∈ caps.metas,
    info.modality.getD (caps.modality.getD .chat) = .chat ∧ c = caps.candidate info
  use : (f.access c.connector).use = true
  ready : f.isCredentialReadyForPolicy c.connector policy = true
  allowed : ∀ p, policy = some p → isProviderAllowed (some p) c.connector = true ∧
    f.modelAllowed p c.connector c.model = true

theorem mem_eligible_iff {caps : DeclaredCapabilities} : caps ∈ f.eligible policy ↔
    caps ∈ f.listCapabilities ∧ (f.access caps.name).use = true ∧
      f.isCredentialReadyForPolicy caps.name policy = true := by
  simp only [FailoverRouterService.eligible, FailoverRouterService.globallyRoutable,
    FailoverRouterService.canUseForPolicy, List.mem_filter, Bool.and_eq_true, and_assoc]
  exact and_congr_right fun _ ↦ ⟨fun h ↦ h.2, fun h ↦ ⟨h.1, h⟩⟩

/-- What is left of the candidates that are built. -/
theorem candidates_eq_ok (h : f.candidates policy requestedModel = .ok cs) :
    ∃ built, buildFailoverCandidates (f.candidatesInput policy requestedModel) = .ok built ∧
      cs = built.filter (f.isCandidateAllowedByPolicy policy) := by
  unfold FailoverRouterService.candidates at h
  split at h
  · cases h
  · obtain ⟨built, hbuilt, -⟩ :=
      buildFailoverCandidates_ok (f.candidatesInput policy requestedModel)
    refine ⟨built, hbuilt, ?_⟩
    rw [hbuilt] at h
    dsimp only at h
    split at h
    · cases h
    · exact (Except.ok.inj h).symm

theorem callable_of_mem (h : f.candidates policy requestedModel = .ok cs) (hc : c ∈ cs) :
    Callable f policy c := by
  obtain ⟨built, hbuilt, rfl⟩ := candidates_eq_ok h
  obtain ⟨hmem, hallowed⟩ := List.mem_filter.1 hc
  obtain ⟨built', hbuilt', hdeclared, -⟩ :=
    buildFailoverCandidates_ok (f.candidatesInput policy requestedModel)
  cases hbuilt.symm.trans hbuilt'
  obtain ⟨caps, hcaps, info, hinfo, hchat, rfl⟩ := hdeclared c hmem
  obtain ⟨hlisted, huse, hready⟩ := mem_eligible_iff.1 hcaps
  refine ⟨⟨caps, hlisted, info, hinfo, hchat, rfl⟩, huse, hready, fun p hp ↦ ?_⟩
  subst hp
  exact Bool.and_eq_true_iff.1 hallowed

/-- The refusals that are thrown before a candidate is called. -/
theorem status_of_candidates_error {e : FailoverError}
    (h : f.candidates policy requestedModel = .error e) :
    ∃ errorType message, e = .abort "none" requestedModel errorType message ∧
      errorType ∈ ["provider_not_routable", "policy_violation"] := by
  unfold FailoverRouterService.candidates at h
  split at h
  · cases h
    exact ⟨_, _, rfl, by simp⟩
  · obtain ⟨built, hbuilt, -⟩ :=
      buildFailoverCandidates_ok (f.candidatesInput policy requestedModel)
    rw [hbuilt] at h
    dsimp only at h
    split at h
    · cases h
      exact ⟨_, _, rfl, by simp⟩
    · cases h

/-- A credential that is ready has the variable the gates ask for. -/
theorem env_of_ready {w : World} {connector : String}
    (h : w.isCredentialReadyForPolicy connector policy = true) :
    ((resolveProviderKeyEnv policy connector).all fun name ↦ (w.env name).isSome) = true := by
  cases henv : resolveProviderKeyEnv policy connector with
  | none => rfl
  | some name =>
    cases hvalue : w.env name with
    | none => simp [World.isCredentialReadyForPolicy, henv, hvalue] at h
    | some credential => simp [hvalue]

end Candidates

/-! ### The answer -/

section Answer

variable {f : FailoverRouterService} {w : ChatWorld} {apiKeyId : String}
  {request : TranslatedRequest}

/-- The chain goes on after a hop: it threw, or returned an error that another connector may not
have. A timeout is one only where nothing but a text can have been made. -/
def HopRecord.PassedOver (f : FailoverRouterService) (hop : HopRecord) : Prop :=
  hop.run.result = .threw ∨ ∃ response, hop.run.result = .returned response ∧
    response.response.status ≠ .success ∧
      ((classifyErrorAction hop.failure.errorType).1 = true ∨
        hop.failure.errorType = "circuit_open" ∨
          hop.failure.errorType = "timeout" ∧ f.isApi hop.candidate.connector = true)

/-- The hop notes no chunk, and neither does its response. -/
def HopRecord.Silent (hop : HopRecord) : Prop :=
  hop.run.noted = false ∧
    ∀ response, hop.run.result = .returned response → responseDeliveredChunk response = false

theorem passedOver_iff {hop : HopRecord} (hsilent : hop.Silent) : hop.PassedOver f ↔
    settleHop (f.chainArgs apiKeyId w request) hop.candidate hop.run = .advance hop.failure := by
  obtain ⟨hnoted, hchunk⟩ := hsilent
  unfold HopRecord.PassedOver settleHop
  cases hresult : hop.run.result with
  | threw =>
    simp only [HopRecord.failure, hresult, true_or]
  | returned response =>
    have hfailure : hopFailure hop.candidate (.returned response) = hop.failure := by
      rw [HopRecord.failure, hresult]
    simp only [hnoted, hchunk response hresult, Bool.or_self, chainShouldAdvance,
      Bool.false_eq_true, if_false, reduceCtorEq, HopResult.returned.injEq, exists_eq_left',
      false_or, hfailure]
    by_cases hstatus : response.response.status = .success
    · simp [hstatus]
    · simp only [hstatus, ne_eq, not_false_eq_true, true_and, if_false]
      by_cases hfirst : ((classifyErrorAction hop.failure.errorType).1 ||
          hop.failure.errorType == "circuit_open") = true
      · rw [if_pos hfirst, if_pos rfl]
        simp only [Bool.or_eq_true, beq_iff_eq] at hfirst
        exact iff_of_true (hfirst.imp_right .inl) rfl
      · rw [if_neg hfirst]
        simp only [Bool.or_eq_true, beq_iff_eq, not_or] at hfirst
        simp only [hfirst.1, hfirst.2, false_or, Bool.and_eq_true, beq_iff_eq, Bool.false_eq_true]
        by_cases htimeout : hop.failure.errorType = "timeout" ∧
            (f.chainArgs apiKeyId w request).allowTimeoutAdvance hop.candidate = true
        · rw [if_pos htimeout]
          exact iff_of_true htimeout rfl
        · rw [if_neg htimeout]
          exact iff_of_false htimeout (by simp)

/-- No hop of the facade notes a chunk. -/
theorem silent_runHop (index : ℕ) (now remaining : ℚ) (c : CascadeCandidate) :
    (runHop (f.chainArgs apiKeyId w request) index now remaining c).Silent := by
  refine ⟨rfl, fun response hresult ↦ ?_⟩
  simp only [runHop, FailoverRouterService.chainArgs, FailoverRouterService.runChatHop] at hresult
  split at hresult
  · cases hresult
    rfl
  · cases hresult

/-- The time after some hops. -/
def clockAfter (now : ℚ) (hops : List HopRecord) : ℚ :=
  (hops.getLast?.map fun hop ↦ hop.run.endsAt).getD now

/-- The failure of the last hop. -/
def lastFailure (lastHop : Option ChainHopFailure) (hops : List HopRecord) :
    Option ChainHopFailure :=
  (hops.getLast?.map HopRecord.failure).or lastHop

/-- The trace of hops that failed. -/
def attemptsOf (hops : List HopRecord) : List FailoverAttempt :=
  hops.map fun hop ↦ hop.failure.attempt

/-- What a chain over candidates is answered with, after which hops, when it has tried others
before. -/
inductive ChainAnswered (f : FailoverRouterService) (w : ChatWorld) (startedAt now : ℚ)
    (tried : List FailoverAttempt) (lastHop : Option ChainHopFailure)
    (cs : List CascadeCandidate) : ChatAnswer → List HopRecord → Prop
  /-- The last hop succeeded, and those before it were passed over. -/
  | completed {hops : List HopRecord} {hop : HopRecord} {response : HopResponse}
      (hpassed : ∀ h ∈ hops, h.PassedOver f) (hresult : hop.run.result = .returned response)
      (hstatus : response.response.status = .success) :
      ChainAnswered f w startedAt now tried lastHop cs
        (.completion (toOpenAiChatCompletion response.response w.uuid w.created)) (hops ++ [hop])
  /-- The last hop returned an error that ends the chain, which is the answer's. -/
  | aborted {hops : List HopRecord} {hop : HopRecord} {response : HopResponse}
      (hpassed : ∀ h ∈ hops, h.PassedOver f) (hresult : hop.run.result = .returned response)
      (hstatus : response.response.status ≠ .success) (hlast : ¬ hop.PassedOver f) :
      ChainAnswered f w startedAt now tried lastHop cs (.refused
        { status := httpErrorStatus hop.failure.errorType, message := hop.failure.message
          type := hop.failure.errorType, code := some hop.failure.errorType }) (hops ++ [hop])
  /-- Every candidate was tried and passed over. -/
  | exhausted {hops : List HopRecord} (hpassed : ∀ h ∈ hops, h.PassedOver f)
      (hall : hops.length = cs.length) :
      ChainAnswered f w startedAt now tried lastHop cs (.refused
        { status := 503
          message := (FailoverError.exhausted (tried ++ attemptsOf hops)).message
          type := "cascade_exhausted", code := none }) hops
  /-- Every hop was passed over, and there is a candidate but no time left. -/
  | overdue {hops : List HopRecord} (hpassed : ∀ h ∈ hops, h.PassedOver f)
      (hleft : hops.length < cs.length)
      (hspent : f.config.chainDeadlineMs - (clockAfter now hops - startedAt) < 1) :
      ChainAnswered f w startedAt now tried lastHop cs (.refused
        { status := 503
          message := (FailoverError.deadline (tried ++ attemptsOf hops)
            (lastFailure lastHop hops)).message
          type := "chain_deadline_exceeded"
          code := some (((lastFailure lastHop hops).map ChainHopFailure.errorType).getD
            "chain_deadline_exceeded") }) hops

/-- A chain with a hop in front that was passed over. -/
theorem ChainAnswered.cons {startedAt now : ℚ} {tried : List FailoverAttempt}
    {lastHop : Option ChainHopFailure} {c : CascadeCandidate} {cs : List CascadeCandidate}
    {answer : ChatAnswer} {hop : HopRecord} {hops : List HopRecord} (hhop : hop.PassedOver f)
    (h : ChainAnswered f w startedAt hop.run.endsAt (tried ++ [hop.failure.attempt])
      (some hop.failure) cs answer hops) :
    ChainAnswered f w startedAt now tried lastHop (c :: cs) answer (hop :: hops) := by
  have hcons : ∀ {hops : List HopRecord}, (∀ h ∈ hops, h.PassedOver f) →
      ∀ h ∈ hop :: hops, h.PassedOver f :=
    fun hpassed h hmem ↦ (List.mem_cons.1 hmem).elim (fun heq ↦ heq ▸ hhop) (hpassed h)
  have hclock : clockAfter now (hop :: hops) = clockAfter hop.run.endsAt hops := by
    unfold clockAfter
    rw [List.getLast?_cons]
    cases hops.getLast? <;> rfl
  have hfailure : lastFailure lastHop (hop :: hops) = lastFailure (some hop.failure) hops := by
    unfold lastFailure
    rw [List.getLast?_cons]
    cases hops.getLast? <;> rfl
  have hattempts : tried ++ [hop.failure.attempt] ++ attemptsOf hops =
      tried ++ attemptsOf (hop :: hops) := by
    rw [List.append_assoc]
    rfl
  cases h with
  | completed hpassed hresult hstatus => exact .completed (hcons hpassed) hresult hstatus
  | aborted hpassed hresult hstatus hlast => exact .aborted (hcons hpassed) hresult hstatus hlast
  | exhausted hpassed hall =>
    rw [hattempts]
    exact .exhausted (hcons hpassed) (congrArg (· + 1) hall)
  | overdue hpassed hleft hspent =>
    rw [hattempts, ← hfailure]
    exact .overdue (hcons hpassed) (Nat.succ_lt_succ hleft) (hclock ▸ hspent)

/-- **The loop, read from its hops.** -/
theorem chainAnswered_runHops (startedAt now : ℚ) (index : ℕ) (tried : List FailoverAttempt)
    (lastHop : Option ChainHopFailure) (cs : List CascadeCandidate) :
    ChainAnswered f w startedAt now tried lastHop cs
      (chatAnswer w (FailoverRouterService.answerOf
        (runHops (f.chainArgs apiKeyId w request) startedAt index now tried lastHop cs).outcome))
      (runHops (f.chainArgs apiKeyId w request) startedAt index now tried lastHop cs).hops := by
  induction cs generalizing index now tried lastHop with
  | nil =>
    have h : ChainAnswered f w startedAt now tried lastHop [] _ [] :=
      .exhausted (fun _ h ↦ (by cases h)) rfl
    rw [show attemptsOf [] = [] from rfl, List.append_nil] at h
    exact h
  | cons c rest ih =>
    obtain ⟨hspent, hrun⟩ | ⟨hop, hhop, -, hcases⟩ :=
      runHops_cases (f.chainArgs apiKeyId w request) startedAt index now tried lastHop c rest
    · have h : ChainAnswered f w startedAt now tried lastHop (c :: rest) _ [] :=
        .overdue (fun _ h ↦ (by cases h)) (Nat.succ_pos _) hspent
      rw [show attemptsOf [] = [] from rfl, List.append_nil] at h
      rw [hrun]
      exact h
    · have hsilent : hop.Silent := hhop ▸ silent_runHop _ _ _ _
      have hcandidate : hop.candidate = c := by rw [hhop]; rfl
      obtain ⟨response, hsettle, hrun⟩ | ⟨failure, _, hsettle, hrun⟩ | ⟨hsettle, hrun⟩ := hcases
      · obtain ⟨hresult, hstatus⟩ := settleHop_success_iff.1 hsettle
        rw [hrun]
        simp only [FailoverRouterService.answerOf, chatAnswer, if_pos hstatus]
        show ChainAnswered f w startedAt now tried lastHop (c :: rest) _ ([] ++ [hop])
        exact .completed (fun _ h ↦ (by cases h)) hresult hstatus
      · obtain ⟨response, hresult, hstatus, hfailure, -⟩ := settleHop_abort hsettle
        have hlast : ¬ hop.PassedOver f := by
          rw [passedOver_iff hsilent, hcandidate, hsettle]
          exact fun h ↦ by cases h
        rw [← hcandidate] at hfailure
        rw [hrun, hfailure]
        show ChainAnswered f w startedAt now tried lastHop (c :: rest) _ ([] ++ [hop])
        exact .aborted (fun _ h ↦ (by cases h)) hresult hstatus hlast
      · rw [hrun]
        refine ChainAnswered.cons ?_ (ih _ _ _ _)
        rw [passedOver_iff hsilent, hcandidate]
        exact hsettle

/-- The hops are made on the first candidates. -/
theorem runFailoverChain_candidates (args : ChainArgs) (startedAt : ℚ)
    (cs : List CascadeCandidate) :
    (runFailoverChain args startedAt cs).hops.map HopRecord.candidate =
      cs.take (runFailoverChain args startedAt cs).hops.length :=
  hops_candidates

theorem candidate_mem_of_hop {args : ChainArgs} {startedAt : ℚ} {cs : List CascadeCandidate}
    {hop : HopRecord} (h : hop ∈ (runFailoverChain args startedAt cs).hops) :
    hop.candidate ∈ cs := by
  have hmem := List.mem_map_of_mem (f := HopRecord.candidate) h
  rw [runFailoverChain_candidates] at hmem
  exact List.mem_of_mem_take hmem

theorem status_of_unsupported {idempotencyKey : Option String} {body : OpenAiChatCompletionRequest}
    {error : OpenAiError} (h : unsupported idempotencyKey body = some error) :
    error.status = 400 := by
  unfold unsupported at h
  split_ifs at h
  all_goals
    cases h
    rfl

theorem getKeyPolicy_error {policyRead : Bool} {key requestedModel : String} {e : FailoverError}
    (h : f.getKeyPolicy policyRead key requestedModel = .error e) :
    ∃ message, e = .abort "none" requestedModel "config_error" message := by
  unfold FailoverRouterService.getKeyPolicy at h
  split at h
  · cases h
  · cases h
    exact ⟨_, rfl⟩

/-- A key whose policy is read. -/
theorem getKeyPolicy_ok {policyRead : Bool} {key requestedModel : String}
    {policy : Option ApiKeyPolicy} (h : f.getKeyPolicy policyRead key requestedModel = .ok policy) :
    f.policyOf key = .ok policy := by
  unfold FailoverRouterService.getKeyPolicy at h
  cases policyRead with
  | false => cases h
  | true =>
    simp only [if_true] at h
    cases hpolicy : f.policyOf key with
    | error e =>
      rw [hpolicy] at h
      cases h
    | ok policy' =>
      rw [hpolicy] at h
      cases h
      rfl

/-- A request is served by a chain over some candidates. -/
structure Prepared (f : FailoverRouterService) (w : ChatWorld) (idempotencyKey : Option String)
    (apiKeyId : Option String) (body : OpenAiChatCompletionRequest)
    (policy : Option ApiKeyPolicy) (cs : List CascadeCandidate) : Prop where
  supported : unsupported idempotencyKey body = none
  policy_eq : f.getKeyPolicy w.policyRead (apiKeyId.getD "unknown") body.model = .ok policy
  candidates_eq : f.candidates policy body.model = .ok cs

/-- **What a chat completion is answered.** It is served by a chain over the candidates, of which
each hop takes the next, and the answer is that of the chain; or it is refused before any hop. -/
theorem chat_answers (f : FailoverRouterService) (w : ChatWorld) (idempotencyKey : Option String)
    (apiKeyId : Option String) (body : OpenAiChatCompletionRequest) :
    let served := chatCompletions f w idempotencyKey apiKeyId body
    (∃ policy cs, Prepared f w idempotencyKey apiKeyId body policy cs ∧
      ChainAnswered f w w.startedAt w.startedAt [] none cs served.1 served.2 ∧
      served.2.map HopRecord.candidate = cs.take served.2.length ∧
      ∀ hop ∈ served.2, Callable f policy hop.candidate) ∨
    (∀ policy cs, ¬ Prepared f w idempotencyKey apiKeyId body policy cs) ∧ served.2 = [] ∧
      ∃ error, served.1 = .refused error ∧ error.status ∈ [400, 403, 500, 502] := by
  intro served
  have hserved : served = chatCompletions f w idempotencyKey apiKeyId body := rfl
  unfold chatCompletions at hserved
  cases hunsupported : unsupported idempotencyKey body with
  | some error =>
    rw [hunsupported] at hserved
    refine .inr ⟨fun policy cs h ↦ ?_, by rw [hserved], error, by rw [hserved], ?_⟩
    · rw [h.supported] at hunsupported
      cases hunsupported
    · have hstatus : error.status = 400 := status_of_unsupported hunsupported
      rw [hstatus]
      decide
  | none =>
    rw [hunsupported] at hserved
    simp only [FailoverRouterService.complete, toConnectorRequest] at hserved
    cases hpolicy : f.getKeyPolicy w.policyRead (apiKeyId.getD "unknown") body.model with
    | error e =>
      rw [hpolicy] at hserved
      refine .inr ⟨fun policy cs h ↦ ?_, by rw [hserved], ?_⟩
      · rw [h.policy_eq] at hpolicy
        cases hpolicy
      · obtain ⟨message, rfl⟩ := getKeyPolicy_error hpolicy
        refine ⟨_, by rw [hserved]; rfl, ?_⟩
        show httpErrorStatus "config_error" ∈ [400, 403, 500, 502]
        decide
    | ok policy =>
      rw [hpolicy] at hserved
      cases hcandidates : f.candidates policy body.model with
      | error e =>
        simp only [hcandidates] at hserved
        refine .inr ⟨fun policy' cs h ↦ ?_, by rw [hserved], ?_⟩
        · cases hpolicy.symm.trans h.policy_eq
          rw [h.candidates_eq] at hcandidates
          cases hcandidates
        · obtain ⟨errorType, message, rfl, htype⟩ := status_of_candidates_error hcandidates
          refine ⟨_, by rw [hserved]; rfl, ?_⟩
          show httpErrorStatus errorType ∈ [400, 403, 500, 502]
          simp only [List.mem_cons, List.not_mem_nil, or_false] at htype
          rcases htype with rfl | rfl <;> decide
      | ok cs =>
        simp only [hcandidates] at hserved
        -- every check has passed: the chain is run
        refine .inl ⟨policy, cs, ⟨hunsupported, hpolicy, hcandidates⟩, ?_, ?_, fun hop hhop ↦ ?_⟩
        · rw [hserved]
          exact chainAnswered_runHops _ _ _ _ _ _
        · rw [hserved]
          exact runFailoverChain_candidates _ _ _
        · rw [hserved] at hhop
          exact callable_of_mem hcandidates (candidate_mem_of_hop hhop)

end Answer

/-! ### Listed and tried -/

section Listed

/-- A connector declares a chat model. -/
def DeclaredCapabilities.offers (caps : DeclaredCapabilities) (model : String) : Bool :=
  (caps.metas.filter fun info ↦
    decide (info.modality.getD (caps.modality.getD .chat) = .chat)).any fun info ↦
      decide (info.id = model)

theorem offers_iff {caps : DeclaredCapabilities} {model : String} : caps.offers model = true ↔
    ∃ info ∈ caps.metas, info.modality.getD (caps.modality.getD .chat) = .chat ∧
      info.id = model := by
  simp only [DeclaredCapabilities.offers, List.any_eq_true, List.mem_filter, decide_eq_true_eq,
    and_assoc]

/-- In a list of what the connectors declare, the first entry of a model is of the first connector
that offers it. -/
theorem find?_offered {β : Type} (entry : DeclaredCapabilities → ProviderModelMeta → β)
    (key owner : β → String) (hkey : ∀ caps info, key (entry caps info) = info.id)
    (howner : ∀ caps info, owner (entry caps info) = caps.name) (model : String)
    (all : List DeclaredCapabilities) :
    ((all.flatMap fun caps ↦ (caps.metas.filter fun info ↦
        decide (info.modality.getD (caps.modality.getD .chat) = .chat)).map (entry caps)).find?
      fun b ↦ decide (key b = model)).map owner =
      (all.find? (·.offers model)).map DeclaredCapabilities.name := by
  induction all with
  | nil => rfl
  | cons caps rest ih =>
    rw [List.flatMap_cons, List.find?_append, List.find?_cons, List.find?_map]
    have hcomp : ((fun b ↦ decide (key b = model)) ∘ entry caps) =
        fun info : ProviderModelMeta ↦ decide (info.id = model) := by
      funext info
      rw [Function.comp_apply, hkey]
    rw [hcomp]
    cases hfind : (caps.metas.filter fun info ↦
        decide (info.modality.getD (caps.modality.getD .chat) = .chat)).find?
          fun info ↦ decide (info.id = model) with
    | none =>
      have hnot : caps.offers model = false := by
        rw [DeclaredCapabilities.offers, List.any_eq_false]
        exact List.find?_eq_none.1 hfind
      rw [hnot]
      exact ih
    | some info =>
      have hoffers : caps.offers model = true := by
        rw [DeclaredCapabilities.offers, List.any_eq_true]
        refine ⟨info, List.mem_of_find?_eq_some hfind, ?_⟩
        exact List.find?_some (p := fun info : ProviderModelMeta ↦ decide (info.id = model)) hfind
      rw [hoffers]
      exact congrArg some (howner caps info)

/-- Entries with their index are found as without. -/
theorem find?_mapIdx {α β : Type} {g : ℕ → α → β} {back : β → α} {p : β → Bool} {q : α → Bool}
    (hp : ∀ i a, p (g i a) = q a) (hback : ∀ i a, back (g i a) = a) (l : List α) :
    ((l.mapIdx g).find? p).map back = l.find? q := by
  induction l generalizing g with
  | nil => rfl
  | cons a rest ih =>
    rw [List.mapIdx_cons, List.find?_cons, List.find?_cons, hp]
    split
    · exact congrArg some (hback 0 a)
    · exact ih (fun i ↦ hp (i + 1)) fun i ↦ hback (i + 1)

theorem mem_toOpenAiModelList {all : List DeclaredCapabilities} {now : ℤ} {m : OpenAiModel}
    (hm : m ∈ toOpenAiModelList all now) :
    (all.find? (·.offers m.id)).map DeclaredCapabilities.name = some m.ownedBy := by
  obtain ⟨-, hfind⟩ := mem_firsts_iff.1 hm
  rw [← find?_offered (fun caps info ↦ OpenAiModel.mk info.id now caps.name) OpenAiModel.id
    OpenAiModel.ownedBy (fun _ _ ↦ rfl) (fun _ _ ↦ rfl), hfind]
  rfl

variable {f : FailoverRouterService} {apiKeyId : String} {policy : Option ApiKeyPolicy}

/-- The data of the models of a connector, where it has some. -/
theorem metas_eq (caps : DeclaredCapabilities) : caps.metas =
    if caps.modelMeta.any (!·.isEmpty) then caps.modelMeta.getD []
    else caps.models.map fun id ↦ { id } := by
  unfold DeclaredCapabilities.metas
  split
  · rename_i heq
    rw [heq]
    rfl
  · rename_i hnot
    rw [if_neg]
    cases hmeta : caps.modelMeta with
    | none => exact Bool.false_ne_true
    | some metas =>
      cases metas with
      | nil => exact Bool.false_ne_true
      | cons first rest => exact absurd hmeta (hnot first rest)

/-- What a policy leaves of a connector offers what the connector does and the policy allows. -/
theorem offers_allowedCapabilities (p : ApiKeyPolicy) (caps : DeclaredCapabilities)
    (model : String) :
    (∀ left ∈ f.allowedCapabilities p caps, left.name = caps.name) ∧
      (f.allowedCapabilities p caps).any (·.offers model) =
        (isProviderAllowed (some p) caps.name && f.modelAllowed p caps.name model &&
          caps.offers model) := by
  unfold ConnectorRegistry.allowedCapabilities
  by_cases hprovider : isProviderAllowed (some p) caps.name = true
  case neg => simp [hprovider]
  cases hrestricts : restrictsModels p with
  | false => simp [hprovider, modelAllowed_of_not_restricts hrestricts]
  | true =>
    simp only [hprovider, Bool.not_true, Bool.false_eq_true, if_false, Bool.true_and]
    split
    · rename_i hempty
      refine ⟨fun _ h ↦ (by cases h), ?_⟩
      symm
      rw [Option.any_none, Bool.and_eq_false_iff, or_iff_not_imp_left, Bool.not_eq_false,
        ← Bool.not_eq_true, offers_iff]
      rintro hallowed ⟨info, hinfo, -, rfl⟩
      have hmem : info ∈ caps.metas.filter fun info ↦ f.modelAllowed p caps.name info.id :=
        List.mem_filter.2 ⟨hinfo, hallowed⟩
      rw [List.isEmpty_iff.1 hempty] at hmem
      cases hmem
    · rename_i hempty
      refine ⟨fun left h ↦ by cases h; rfl, ?_⟩
      rw [Option.any_some, Bool.eq_iff_iff, Bool.and_eq_true, offers_iff, offers_iff, metas_eq]
      by_cases hmeta : caps.modelMeta.any (!·.isEmpty) = true
      · simp only [hmeta, if_true, Option.any_some, hempty, Bool.not_false, Option.getD_some,
          List.mem_filter]
        constructor
        · rintro ⟨info, ⟨hinfo, hallowed⟩, hchat, rfl⟩
          exact ⟨hallowed, info, hinfo, hchat, rfl⟩
        · rintro ⟨hallowed, info, hinfo, hchat, rfl⟩
          exact ⟨info, ⟨hinfo, hallowed⟩, hchat, rfl⟩
      · -- the models have no data of their own
        have hplain : ∀ info ∈ caps.metas, info.modality = none := by
          intro info hinfo
          rw [metas_eq, if_neg hmeta] at hinfo
          obtain ⟨_, -, rfl⟩ := List.mem_map.1 hinfo
          rfl
        simp only [hmeta, Bool.false_eq_true, if_false]
        constructor
        · rintro ⟨_, hinfo, hchat, rfl⟩
          obtain ⟨id, hid, rfl⟩ := List.mem_map.1 hinfo
          obtain ⟨info, hmem, rfl⟩ := List.mem_map.1 ((firsts_sublist []).subset hid)
          obtain ⟨hinfo, hallowed⟩ := List.mem_filter.1 hmem
          refine ⟨hallowed, info, hinfo, ?_, rfl⟩
          rw [hplain info hinfo]
          exact hchat
        · rintro ⟨hallowed, info, hinfo, hchat, rfl⟩
          have hmem : info.id ∈ (caps.metas.filter fun info ↦
              f.modelAllowed p caps.name info.id).map ProviderModelMeta.id :=
            List.mem_map_of_mem (List.mem_filter.2 ⟨hinfo, hallowed⟩)
          obtain ⟨kept, hkept, heq, -⟩ := exists_mem_firsts id hmem
          rw [show kept = info.id from heq] at hkept
          refine ⟨{ id := info.id }, List.mem_map_of_mem hkept, ?_, rfl⟩
          rw [hplain info hinfo] at hchat
          exact hchat

/-- What a policy leaves of some connectors first offers a model where it first is allowed. -/
theorem find?_allowedCapabilities (p : ApiKeyPolicy) (model : String)
    (all : List DeclaredCapabilities) :
    ((all.filterMap (f.allowedCapabilities p)).find? (·.offers model)).map
        DeclaredCapabilities.name =
      (all.find? fun caps ↦ isProviderAllowed (some p) caps.name &&
        f.modelAllowed p caps.name model && caps.offers model).map DeclaredCapabilities.name := by
  induction all with
  | nil => rfl
  | cons caps rest ih =>
    obtain ⟨hname, hoffers⟩ := offers_allowedCapabilities (f := f) p caps model
    rw [List.filterMap_cons, List.find?_cons, ← hoffers]
    cases hleft : f.allowedCapabilities p caps with
    | none => exact ih
    | some left =>
      rw [List.find?_cons, Option.any_some]
      split
      · exact congrArg some (hname left hleft)
      · exact ih

/-- The connectors are switched on for reading when they are for use. -/
def ReadWhenUsed (f : FailoverRouterService) : Prop :=
  ∀ caps ∈ f.listCapabilities, (f.access caps.name).read = (f.access caps.name).use

/-- Then what can be advertised is what can be called. -/
theorem filter_canAdvertise (hread : ReadWhenUsed f) :
    (f.listCapabilities.filter fun caps ↦ f.canAdvertiseForPolicy caps.name policy) =
      f.eligible policy := by
  unfold FailoverRouterService.eligible FailoverRouterService.globallyRoutable
  rw [List.filter_filter]
  refine List.filter_congr fun caps hcaps ↦ ?_
  rw [Bool.eq_iff_iff]
  simp only [FailoverRouterService.canUseForPolicy, Bool.and_eq_true]
  by_cases huse : (f.access caps.name).use = true
  · have hcan : f.canRead caps.name = true := (hread caps hcaps).trans huse
    rw [canAdvertiseForPolicy_iff hcan]
    exact ⟨fun h ↦ ⟨⟨huse, h.2⟩, huse⟩, fun h ↦ ⟨env_of_ready h.1.2, h.1.2⟩⟩
  · have hcan : f.canRead caps.name = false :=
      (hread caps hcaps).trans (Bool.eq_false_iff.2 huse)
    simp [World.canAdvertiseForPolicy, hcan, huse]

/-- A model that is asked for as it is listed: its id has no space around it and is no alias. -/
def AskedAs (model : String) : Prop :=
  String.ofList (Number.trim model.toList) = model ∧
    String.ofList (model.toList.map Char.toLower) ∉ AUTO_ALIASES

/-- The first connector that can be called and offers the model is one the policy allows it on. -/
def FirstAllowed (f : FailoverRouterService) (policy : Option ApiKeyPolicy) (model : String) :
    Prop :=
  ∀ caps, (f.eligible policy).find? (·.offers model) = some caps → ∀ p, policy = some p →
    isProviderAllowed (some p) caps.name = true ∧ f.modelAllowed p caps.name model = true

/-- The owner of a listed model is the first connector that can be called and offers it. -/
theorem owner_of_listed (hread : ReadWhenUsed f) (hpolicy : f.policyOf apiKeyId = .ok policy)
    {m : OpenAiModel} {now : ℤ} (hm : m ∈ listModels f (some apiKeyId) now)
    (hfirst : FirstAllowed f policy m.id) :
    ((f.eligible policy).find? (·.offers m.id)).map DeclaredCapabilities.name =
      some m.ownedBy := by
  have howner := mem_toOpenAiModelList hm
  simp only [ConnectorRegistry.listCapabilitiesForKey, World.callerPolicy, hpolicy,
    filter_canAdvertise hread] at howner
  cases policy with
  | none => exact howner
  | some p =>
    rw [find?_allowedCapabilities] at howner
    cases hfind : (f.eligible (some p)).find? (·.offers m.id) with
    | none =>
      obtain ⟨caps, hcaps, -⟩ := Option.map_eq_some_iff.1 howner
      have hoffers := List.find?_some hcaps
      have hnot := List.find?_eq_none.1 hfind caps (List.mem_of_find?_eq_some hcaps)
      simp only [Bool.and_eq_true] at hoffers
      exact absurd hoffers.2 hnot
    | some caps =>
      obtain ⟨hprovider, hallowed⟩ := hfirst caps hfind p rfl
      have hsame : (f.eligible (some p)).find? (fun caps ↦ isProviderAllowed (some p) caps.name &&
          f.modelAllowed p caps.name m.id && caps.offers m.id) = some caps := by
        obtain ⟨hoffers, before, after, heq, hbefore⟩ := List.find?_eq_some_iff_append.1 hfind
        refine List.find?_eq_some_iff_append.2 ⟨?_, before, after, heq, fun c hc ↦ ?_⟩
        · rw [hprovider, hallowed, hoffers]
          rfl
        · have hnot : c.offers m.id = false := by simpa using hbefore c hc
          simp [hnot]
      rw [hsame] at howner
      exact howner

/-- The model that is asked for is promoted at the first connector that offers it. -/
theorem promoted_of_asked {model owner : String} (hasked : AskedAs model)
    (howner : ((f.eligible policy).find? (·.offers model)).map DeclaredCapabilities.name =
      some owner) :
    ∃ e, (f.candidatesInput policy model).promoted = some e ∧ e.candidate.connector = owner ∧
      e.candidate.model = model := by
  have hrequested : (f.candidatesInput policy model).requested = some model := by
    unfold BuildFailoverCandidatesInput.requested
    simp only [FailoverRouterService.candidatesInput, Option.map_some, hasked.1]
    rw [Option.filter_some, if_pos]
    simpa using hasked.2
  have hfound : (((collectEntries (f.candidatesInput policy model)).find? fun e ↦
      decide (e.candidate.model = model)).map BuiltEntry.candidate).map CascadeCandidate.connector =
        some owner := by
    rw [← howner, ← find?_offered DeclaredCapabilities.candidate CascadeCandidate.model
      CascadeCandidate.connector (fun _ _ ↦ rfl) (fun _ _ ↦ rfl)]
    unfold collectEntries
    rw [find?_mapIdx (q := fun c : CascadeCandidate ↦ decide (c.model = model)) (fun _ _ ↦ rfl)
      (fun _ _ ↦ rfl)]
    rfl
  cases hentry : (collectEntries (f.candidatesInput policy model)).find? fun e ↦
      decide (e.candidate.model = model) with
  | none =>
    rw [hentry] at hfound
    cases hfound
  | some e =>
    rw [hentry] at hfound
    refine ⟨e, ?_, Option.some.inj hfound, ?_⟩
    · rw [BuildFailoverCandidatesInput.promoted, hrequested]
      exact hentry
    · exact of_decide_eq_true
        (List.find?_some (p := fun e : BuiltEntry ↦ decide (e.candidate.model = model)) hentry)

/-- The promoted candidate leads, when the policy allows it. -/
theorem candidates_of_promoted {model : String} {e : BuiltEntry}
    (he : (f.candidatesInput policy model).promoted = some e)
    (hallowed : f.isCandidateAllowedByPolicy policy e.candidate = true) :
    ∃ rest, f.candidates policy model = .ok (e.candidate :: rest) := by
  obtain ⟨built, hbuilt, hdeclared, hlead⟩ :=
    buildFailoverCandidates_ok (f.candidatesInput policy model)
  obtain ⟨rest, rfl⟩ := hlead e he
  obtain ⟨caps, hcaps, -⟩ := hdeclared e.candidate List.mem_cons_self
  have hroutable : f.globallyRoutable ≠ [] :=
    List.ne_nil_of_mem (List.mem_of_mem_filter hcaps)
  refine ⟨rest.filter (f.isCandidateAllowedByPolicy policy), ?_⟩
  unfold FailoverRouterService.candidates
  rw [if_neg fun h ↦ hroutable h.2, hbuilt]
  simp only [List.filter_cons_of_pos hallowed]
  exact if_neg fun h ↦ List.cons_ne_nil _ _ h.2

/-- A chat completion starts with the promoted candidate, when the policy allows it. -/
theorem complete_of_promoted (hpolicy : f.policyOf apiKeyId = .ok policy) {w : ChatWorld}
    (hpolicyRead : w.policyRead = true) (htime : 1 ≤ f.config.chainDeadlineMs)
    {request : TranslatedRequest} {e : BuiltEntry}
    (he : (f.candidatesInput policy request.requestedModel).promoted = some e)
    (hallowed : f.isCandidateAllowedByPolicy policy e.candidate = true) :
    ∃ hop hops, (f.complete apiKeyId w request).2 = hop :: hops ∧ hop.candidate = e.candidate := by
  obtain ⟨rest, hcandidates⟩ := candidates_of_promoted he hallowed
  have hkey : f.getKeyPolicy w.policyRead apiKeyId request.requestedModel = .ok policy := by
    unfold FailoverRouterService.getKeyPolicy
    rw [hpolicyRead, if_pos rfl, hpolicy]
  have hserved : (f.complete apiKeyId w request).2 =
      (runFailoverChain (f.chainArgs apiKeyId w request) w.startedAt
        (e.candidate :: rest)).hops := by
    unfold FailoverRouterService.complete
    simp only [hkey, hcandidates]
  rw [hserved]
  cases hhops : (runFailoverChain (f.chainArgs apiKeyId w request) w.startedAt
      (e.candidate :: rest)).hops with
  | nil =>
    rcases hops_eq_nil_iff.1 hhops with hnil | hspent
    · cases hnil
    · rw [sub_self, sub_zero] at hspent
      exact absurd hspent (not_lt.2 (by exact_mod_cast htime))
  | cons hop hops =>
    have horder := runFailoverChain_candidates (f.chainArgs apiKeyId w request) w.startedAt
      (e.candidate :: rest)
    rw [hhops] at horder
    exact ⟨hop, hops, rfl, (List.cons.inj horder).1⟩

/-- **A listed model is tried first at its owner.** Where the connectors that can be read are those
that can be used, a chat completion for a model that is listed for the key starts with a hop on the
connector that is shown as the owner of the model. With a policy, this asks that the first connector
that offers the model is one the policy allows it on. -/
theorem listed_model_leads (hread : ReadWhenUsed f) (hpolicy : f.policyOf apiKeyId = .ok policy)
    {m : OpenAiModel} {now : ℤ} (hm : m ∈ listModels f (some apiKeyId) now) (hasked : AskedAs m.id)
    (hfirst : FirstAllowed f policy m.id) {w : ChatWorld} (hpolicyRead : w.policyRead = true)
    (htime : 1 ≤ f.config.chainDeadlineMs) {idempotencyKey : Option String}
    {body : OpenAiChatCompletionRequest} (hsupported : unsupported idempotencyKey body = none)
    (hmodel : body.model = m.id) :
    ∃ hop hops, (chatCompletions f w idempotencyKey (some apiKeyId) body).2 = hop :: hops ∧
      hop.candidate.connector = m.ownedBy ∧ hop.candidate.model = m.id := by
  have howner := owner_of_listed hread hpolicy hm hfirst
  obtain ⟨e, hpromoted, hconnector, hid⟩ := promoted_of_asked hasked howner
  have hallowed : f.isCandidateAllowedByPolicy policy e.candidate = true := by
    obtain ⟨caps, hcaps, hname⟩ := Option.map_eq_some_iff.1 howner
    cases policy with
    | none => rfl
    | some p =>
      obtain ⟨hprovider, hmodelAllowed⟩ := hfirst caps hcaps p rfl
      simp only [FailoverRouterService.isCandidateAllowedByPolicy, Option.all_some, hconnector, hid,
        ← hname, hprovider, hmodelAllowed, Bool.and_self]
  have hrequested : (toConnectorRequest body).requestedModel = m.id := hmodel
  obtain ⟨hop, hops, hhops, hcandidate⟩ := complete_of_promoted hpolicy hpolicyRead htime
    (hrequested ▸ hpromoted) hallowed
  refine ⟨hop, hops, ?_, hcandidate ▸ hconnector, hcandidate ▸ hid⟩
  unfold chatCompletions
  simp only [hsupported, Option.getD_some, hhops]

/-- Two providers, of which the policy of every key allows the second one. -/
def limited : FailoverRouterService where
  rows := []
  policyOf _ := .ok (some
    { policyVersion := .v1, providers := some ["mistral"], accepted_eq := by decide +kernel })
  access _ := { read := true, use := true }
  env _ := none
  measured _ := .ready
  measuredWith _ _ := .ready
  status _ := .ready
  listCapabilities :=
    [{ name := "cerebras", models := ["llama"], freeModels := some ["llama"] },
      { name := "mistral", models := ["ministral", "llama", "codestral"]
        freeModels := some ["ministral", "llama"] }]
  getTier _ _ := none
  credentialRegistry := none
  same_models := by
    intro caps hcaps model
    simp only [List.mem_cons, List.not_mem_nil, or_false] at hcaps
    rcases hcaps with rfl | rfl <;> simp [DeclaredCapabilities.metas]
  config := { providerOrder := [], chainDeadlineMs := (180000 : ℕ) }
  isApi _ := true
  maxTimeout _ := none
  connectorTimeoutMs _ := 30000

/-- Every hop takes a second and is told to slow down. -/
def busy : ChatWorld where
  hop _ _ now _ :=
    ({ dispatch := fun _ ↦ .ok
        { model := "codestral", result := "", usage := .zero, status := .rateLimited
          error := some ⟨"rate_limited", "Too many requests", true, "wait"⟩ } }, now + 1000)
  uuid := "0"
  created := 0

/-- A client that asks for a model. -/
def asking (model : String) : OpenAiChatCompletionRequest where
  model
  messages := [{ role := .user, content := .text "Hello" }]

/-- A paid model is asked for that only the second provider offers. -/
theorem listed_model_leads_codestral :
    ∃ hop hops, (chatCompletions limited busy none (some "key") (asking "codestral")).2 =
      hop :: hops ∧ hop.candidate.connector = "mistral" ∧ hop.candidate.model = "codestral" := by
  have hfound : (limited.eligible (limited.policyOf "key").toOption.join).find?
      (·.offers "codestral") = some
        { name := "mistral", models := ["ministral", "llama", "codestral"]
          freeModels := some ["ministral", "llama"] } := by decide +kernel
  have hlisted : (⟨"codestral", 0, "mistral"⟩ : OpenAiModel) ∈
      listModels limited (some "key") 0 := by
    decide +kernel
  refine listed_model_leads (fun _ _ ↦ rfl) rfl hlisted ⟨by decide +kernel, by decide +kernel⟩
    (fun caps hcaps p hp ↦ ?_) rfl (by decide +kernel) (by decide +kernel) rfl
  cases hcaps.symm.trans hfound
  cases hp
  decide +kernel

/- The first provider offers this model too, and is not allowed. -/
example : ¬ FirstAllowed limited (limited.policyOf "key").toOption.join "llama" := by
  intro h
  have hprovider := (h { name := "cerebras", models := ["llama"], freeModels := some ["llama"] }
    (by decide +kernel) _ rfl).1
  revert hprovider
  decide +kernel

end Listed

/-! ### The gates of a hop -/

section Gates

variable {f : FailoverRouterService} {apiKeyId : String} {policy : Option ApiKeyPolicy}
  {c : CascadeCandidate}

/-- What the gates ask of a candidate that may be called: a name where models are restricted, and a
registered credential where the policy is bound to one. -/
def Bound (f : FailoverRouterService) (apiKeyId : String) (policy : Option ApiKeyPolicy)
    (c : CascadeCandidate) : Prop :=
  ∀ p, policy = some p → (restrictsModels p = true → c.model ≠ "") ∧
    (p.policyVersion = .v2 →
      (resolveRegisteredCredential f.deployment c.connector p apiKeyId).isSome = true)

theorem policyGates_iff (hpolicy : f.policyOf apiKeyId = .ok policy) (hc : Callable f policy c) :
    Passes f.deployment c.connector { model := some c.model } apiKeyId ↔
      Bound f apiKeyId policy c := by
  have hread : readPolicy f.deployment { model := some c.model } true apiKeyId = .ok policy := by
    unfold readPolicy
    simp only [Bool.not_true, Bool.false_eq_true, if_false]
    rw [show f.deployment.policyOf apiKeyId = .ok policy from hpolicy]
  have hcredential : credentialGate f.deployment c.connector { model := some c.model } policy =
      .ok () := credentialGate_eq_ok.2 ⟨env_of_ready hc.ready, hc.ready⟩
  have hprovider : isProviderAllowed policy c.connector = true := by
    cases policy with
    | none => rfl
    | some p => exact (hc.allowed p rfl).1
  have hsteps : Passes f.deployment c.connector { model := some c.model } apiKeyId ↔
      modelGate f.deployment c.connector { model := some c.model } policy = .ok () ∧
        ∃ o, keyOverride f.deployment c.connector { model := some c.model } policy apiKeyId =
          .ok o := by
    simp only [Passes, policyGates, Except.bind_eq_ok, hread, providerGate, gate_eq_ok, hprovider,
      hcredential, Except.ok.injEq, exists_eq_left', true_and, exists_const]
    constructor
    · rintro ⟨o, _, hm, ho⟩
      exact ⟨hm, o, ho⟩
    · rintro ⟨hm, o, ho⟩
      exact ⟨o, (), hm, ho⟩
  rw [hsteps]
  cases policy with
  | none => exact iff_of_true ⟨rfl, none, rfl⟩ fun p h ↦ by cases h
  | some p =>
    obtain ⟨-, hmodel⟩ := hc.allowed p rfl
    rw [modelGate_eq_ok rfl]
    constructor
    · rintro ⟨⟨-, hnamed⟩, hkey⟩ p' hp'
      cases hp'
      exact ⟨hnamed, fun hv ↦ (keyOverride_of_v2 hv).1 hkey⟩
    · intro hbound
      obtain ⟨hnamed, hregistered⟩ := hbound p rfl
      refine ⟨⟨hmodel, hnamed⟩, ?_⟩
      cases hv : p.policyVersion with
      | v1 => exact (keyOverride_of_v1 hv).2 (env_of_ready hc.ready)
      | v2 => exact (keyOverride_of_v2 hv).2 (hregistered hv)

/-- Every connector is registered once, and declares a model once. -/
structure DeclaredOnce (f : FailoverRouterService) : Prop where
  names : (f.listCapabilities.map DeclaredCapabilities.name).Nodup
  models : ∀ caps ∈ f.listCapabilities, (caps.metas.map ProviderModelMeta.id).Nodup

/-- Of a candidate, the connector reports a modality that can be executed, if any. -/
theorem modalityGate_of_callable (honce : DeclaredOnce f) (hc : Callable f policy c) :
    ∃ modalityOf, getConnector f.deployment c.connector = .ok modalityOf ∧
      modalityGate c.connector { model := some c.model } modalityOf = .ok () := by
  obtain ⟨caps, hcaps, info, hinfo, hchat, rfl⟩ := hc.declared
  have hfind : f.listCapabilities.find? (·.name = caps.name) = some caps := by
    cases hfound : f.listCapabilities.find? (·.name = caps.name) with
    | none => simpa using List.find?_eq_none.1 hfound caps hcaps
    | some caps' =>
      have hname : caps'.name = caps.name := by simpa using List.find?_some hfound
      rw [List.inj_on_of_nodup_map honce.names (List.mem_of_find?_eq_some hfound) hcaps hname]
  refine ⟨caps.modalityOf, ?_, ?_⟩
  · unfold getConnector
    simp only [ConnectorRegistry.deployment, DeclaredCapabilities.candidate, hfind, Option.map_some]
  · -- the model is found in the data of the connector as itself, or not at all
    have hmodality : ∀ modality, caps.modalityOf info.id = some modality → modality = .chat := by
      intro modality hmodality
      obtain ⟨found, hfound, hsome⟩ := Option.bind_eq_some_iff.1 hmodality
      have hmem := List.mem_of_find?_eq_some hfound
      have hid : found.id = info.id := by simpa using List.find?_some hfound
      have hmetas : caps.metas = caps.modelMeta.getD [] := by
        unfold DeclaredCapabilities.metas
        split
        · rename_i heq
          rw [heq]
          rfl
        · rename_i hnot
          cases hmeta : caps.modelMeta with
          | none =>
            rw [hmeta] at hmem
            cases hmem
          | some metas =>
            cases metas with
            | nil =>
              rw [hmeta] at hmem
              cases hmem
            | cons first rest => exact absurd hmeta (hnot first rest)
      rw [← hmetas] at hmem
      rw [List.inj_on_of_nodup_map (honce.models caps hcaps) hmem hinfo hid] at hsome
      rw [hsome] at hchat
      exact hchat
    unfold modalityGate
    simp only [DeclaredCapabilities.candidate]
    by_cases hnamed : info.id = ""
    · simp [hnamed, Option.filter]
    · cases hreported : caps.modalityOf info.id with
      | none => simp [hnamed, hreported, Option.filter]
      | some modality =>
        rw [hmodality modality hreported] at hreported
        simp [hnamed, hreported, Option.filter, gate, isModalityExecutableHere]

/-- **No hop is made in vain.** Where every connector declares a model once, what the gates of
`execute` refuse of the hops of a chat completion is a registered credential that does not resolve,
or a model without a name where models are restricted. -/
theorem hops_clear_gates (honce : DeclaredOnce f) (w : ChatWorld) (request : TranslatedRequest) :
    ∀ hop ∈ (f.complete apiKeyId w request).2, ∃ policy, f.policyOf apiKeyId = .ok policy ∧
      ((∃ o, gates f.deployment hop.candidate.connector { model := some hop.candidate.model } true
          apiKeyId = .ok o) ↔ Bound f apiKeyId policy hop.candidate) := by
  intro hop hhop
  unfold FailoverRouterService.complete at hhop
  split at hhop
  · cases hhop
  rename_i policy hpolicy
  split at hhop
  · cases hhop
  rename_i cs hcandidates
  have hc := callable_of_mem hcandidates (candidate_mem_of_hop hhop)
  obtain ⟨modalityOf, hconnector, hmodality⟩ := modalityGate_of_callable honce hc
  refine ⟨policy, getKeyPolicy_ok hpolicy, ?_⟩
  rw [← policyGates_iff (getKeyPolicy_ok hpolicy) hc]
  simp only [gates_eq_ok]
  constructor
  · rintro ⟨o, _, -, -, -, hpasses, -⟩
    exact ⟨o, hpasses⟩
  · rintro ⟨o, hpasses⟩
    exact ⟨o, modalityOf, hconnector, hc.use, fun _ ↦ trivial, hpasses, hmodality⟩

/-- The model of the provider that is allowed is tried, and its gates let it through. -/
theorem hops_clear_gates_limited :
    ∃ hop ∈ (limited.complete "key" busy (toConnectorRequest (asking "codestral"))).2,
      ∃ o, gates limited.deployment hop.candidate.connector
        { model := some hop.candidate.model } true "key" = .ok o := by
  have hpromoted : ((limited.candidatesInput (limited.policyOf "key").toOption.join
      "codestral").promoted.map BuiltEntry.candidate) =
        some ⟨"mistral", "codestral", .paid⟩ := by decide +kernel
  obtain ⟨e, he, hcandidate⟩ := Option.map_eq_some_iff.1 hpromoted
  have hlead : ∃ hop hops, (limited.complete "key" busy
      (toConnectorRequest (asking "codestral"))).2 = hop :: hops ∧ hop.candidate = e.candidate :=
    complete_of_promoted rfl rfl (by decide +kernel) he (hcandidate ▸ by decide +kernel)
  obtain ⟨hop, hops, hhops, -⟩ := hlead
  have hmem : hop ∈ (limited.complete "key" busy (toConnectorRequest (asking "codestral"))).2 :=
    hhops ▸ List.mem_cons_self
  obtain ⟨policy, hpolicy, hgates⟩ :=
    hops_clear_gates ⟨by decide +kernel, by decide +kernel⟩ busy _ hop hmem
  refine ⟨hop, hmem, hgates.2 fun p hp ↦ ?_⟩
  cases hpolicy
  cases hp
  exact ⟨fun h ↦ (by cases h), fun h ↦ (by cases h)⟩

end Gates

end ModelConnector.Connectors
