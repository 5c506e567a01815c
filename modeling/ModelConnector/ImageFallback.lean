import Mathlib.Data.List.Perm.Subperm
import ModelConnector.ImageRows

/-!
# The fallback of an image request

The loop of `handleRequest` goes on past a provider that is not provisioned, and counts nothing:
what ends it is the list of excluded providers. A request without a pinned model is never routed to
an excluded provider, so the loop makes no more attempts than its tier has candidates
(`handleLoop_ends`). A pinned one is routed past the list, to its own provider again, and for it the
fallback is sound exactly when the first attempt does not end in an unprovisioned provider
(`fallbackEnds_iff`).
-/

namespace ModelConnector.Images

section

variable (served : ProviderId → Bool) (request : ImageGenerationRequest) (apiKeyId : String)
  (world : ℕ → AttemptWorld)

/-! ### Attempts -/

/-- The routes that the loop of `handleRequest` makes attempts with, in order. -/
def routingsLoop : ℕ → ℕ → RoutingDecision → List ProviderId → ImageState → List RoutingDecision
  | 0, _, _, _, _ => []
  | attempts + 1, id, routing, excluded, s =>
    routing ::
      match handleWithRouting served request apiKeyId (world id) routing id s with
      | (.error (.notProvisioned _ _), s) =>
        let excluded := excluded ++ [routing.chosenProvider]
        match routeExcluding (world (id + 1)).isOpen request.tier request.model excluded with
        | .error _ => []
        | .ok routing => routingsLoop attempts (id + 1) routing excluded s
      | _ => []

/-- The routes that `handleRequest` makes attempts with. -/
def routings (attempts : ℕ) : List RoutingDecision :=
  match route (world 0).isOpen request.tier request.model with
  | .error _ => []
  | .ok routing => routingsLoop served request apiKeyId world attempts 0 routing [] {}

/-- What a request is answered: images that a connector generated, a job when its model runs
asynchronously, or an error. -/
def Delivered : Except ImageError ImageGenerationResult → Prop
  | .ok (.completed images id) =>
    ∃ provider model, served provider = true ∧
      (world id).generate provider model = .completed images
  | .ok (.queued _ routing) => shouldRunAsync routing.chosenModel request.outputAsync = true
  | .error _ => True

/-- The request is answered, and no provider is attempted twice. -/
structure FallbackEnds : Prop where
  ends : ∃ attempts answer, (handleRequest served request apiKeyId world attempts).1 = some answer ∧
    Delivered served request world answer
  once : ∀ attempts, ((routings served request apiKeyId world attempts).map
    RoutingDecision.chosenProvider).Nodup

/-- A connector answers that it is not provisioned. -/
def GenerateEnd.unprovisioned : GenerateEnd → Bool
  | completed _ => false
  | notProvisioned _ _ => true
  | failed _ => false

/-- An attempt on the synchronous path that ends in a provider that is not provisioned. -/
def AttemptWorld.unprovisioned (w : AttemptWorld) (provider : ProviderId) (model : String) : Bool :=
  w.create = .done && !shouldRunAsync model request.outputAsync &&
    (!served provider || (w.generate provider (some model)).unprovisioned)

/-- The request is not pinned, or the first attempt with its pin does not end in a provider that is
not provisioned. -/
def FallbackSound : Prop :=
  ∀ model, pinnedModel request.model = some model →
    (world 0).unprovisioned served request (pinnedProvider model) model = false

end

section

variable {served : ProviderId → Bool} {request : ImageGenerationRequest} {apiKeyId : String}
  {world : ℕ → AttemptWorld} {routing : RoutingDecision} {id : ℕ} {s : ImageState}
  {excluded : List ProviderId}

/-! ### One attempt -/

variable (served request apiKeyId routing id s) in
/-- An attempt whose row is not known to be created ends in the error of the database. -/
theorem handleWithRouting_not_created {w : AttemptWorld} (h : w.create ≠ .done) :
    ∃ message row, handleWithRouting served request apiKeyId w routing id s =
      (.error (.other message), s.create w.create id row) := by
  cases hcreate : w.create with
  | done => exact absurd hcreate h
  | refused message =>
    rw [← hcreate]
    exact ⟨message, _, handleWithRouting_error (by rw [hcreate]; rfl)⟩
  | unanswered message =>
    rw [← hcreate]
    exact ⟨message, _, handleWithRouting_error (by rw [hcreate]; rfl)⟩

theorem handleSync_delivered {w : AttemptWorld} {answer : ImageGenerationResult}
    (h : (handleSync served request w routing id s).1 = .ok answer) :
    ∃ images provider model, answer = .completed images id ∧ served provider = true ∧
      w.generate provider model = .completed images := by
  simp only [handleSync, processRequest, callConnector] at h
  cases hserved : served routing.chosenProvider with
  | false => simp [hserved] at h
  | true =>
    cases hgenerate : w.generate routing.chosenProvider (some routing.chosenModel) with
    | completed images =>
      refine ⟨images, _, _, ?_, hserved, hgenerate⟩
      simp only [hserved, hgenerate, if_true] at h
      cases hupdate : ((s.call (some routing.chosenProvider)).update w.update id
          (ImageRow.complete images)).1 with
      | error e =>
        rw [hupdate] at h
        cases h
      | ok _ =>
        rw [hupdate] at h
        cases h
        rfl
    | notProvisioned provider vaultPath => simp [hserved, hgenerate] at h
    | failed message => simp [hserved, hgenerate] at h

/-- What an attempt answers. -/
theorem handleWithRouting_delivered : Delivered served request world
    (handleWithRouting served request apiKeyId (world id) routing id s).1 := by
  cases hanswer : (handleWithRouting served request apiKeyId (world id) routing id s).1 with
  | error e => trivial
  | ok answer =>
    by_cases hcreate : (world id).create = .done
    · rw [handleWithRouting_created hcreate] at hanswer
      dsimp only at hanswer
      split_ifs at hanswer with hasync
      · cases henqueue : (world id).enqueue.answer with
        | error e =>
          rw [henqueue] at hanswer
          cases hanswer
        | ok _ =>
          rw [henqueue] at hanswer
          cases hanswer
          exact hasync
      · obtain ⟨images, provider, model, rfl, hserved, hgenerate⟩ := handleSync_delivered hanswer
        exact ⟨provider, model, hserved, hgenerate⟩
    · obtain ⟨message, row, hattempt⟩ := handleWithRouting_not_created served request apiKeyId
        routing id s hcreate
      rw [hattempt] at hanswer
      cases hanswer

/-- When the synchronous path ends in a provider that is not provisioned. -/
theorem handleSync_notProvisioned_iff (w : AttemptWorld) :
    (∃ provider vaultPath, (handleSync served request w routing id s).1 =
      .error (.notProvisioned provider vaultPath)) ↔
        (!served routing.chosenProvider ||
          (w.generate routing.chosenProvider (some routing.chosenModel)).unprovisioned) = true := by
  simp only [handleSync, processRequest, callConnector]
  cases hserved : served routing.chosenProvider with
  | false => simp
  | true =>
    cases hgenerate : w.generate routing.chosenProvider (some routing.chosenModel) with
    | completed images =>
      simp only [if_true, GenerateEnd.unprovisioned, Bool.not_true, Bool.or_false,
        Bool.false_eq_true, iff_false, not_exists]
      intro provider vaultPath h
      simp only [ImageState.update] at h
      split at h
      · cases h
      · cases hupdate : w.update <;> rw [hupdate] at h <;> cases h
    | notProvisioned provider vaultPath => simp [GenerateEnd.unprovisioned]
    | failed message => simp [GenerateEnd.unprovisioned]

variable (apiKeyId id s) in
/-- When an attempt ends in a provider that is not provisioned. -/
theorem handleWithRouting_notProvisioned_iff (w : AttemptWorld) :
    (∃ provider vaultPath, (handleWithRouting served request apiKeyId w routing id s).1 =
      .error (.notProvisioned provider vaultPath)) ↔
        w.unprovisioned served request routing.chosenProvider routing.chosenModel = true := by
  unfold AttemptWorld.unprovisioned
  by_cases hcreate : w.create = .done
  · rw [handleWithRouting_created hcreate, hcreate]
    simp only [decide_true, Bool.true_and]
    cases hasync : shouldRunAsync routing.chosenModel request.outputAsync with
    | true =>
      simp only [if_true, Bool.not_true, Bool.false_and, Bool.false_eq_true, iff_false, not_exists]
      intro provider vaultPath h
      cases henqueue : w.enqueue <;> rw [henqueue] at h <;> cases h
    | false =>
      simp only [Bool.false_eq_true, if_false, Bool.not_false, Bool.true_and]
      exact handleSync_notProvisioned_iff w
  · obtain ⟨message, row, hattempt⟩ := handleWithRouting_not_created served request apiKeyId routing
      id s hcreate
    rw [hattempt]
    simp [hcreate]

/-! ### The loop -/

variable (apiKeyId s excluded) in
/-- The loop ends with an attempt that does not end in an unprovisioned provider. -/
theorem handleLoop_of_provisioned (attempts : ℕ)
    (h : (world id).unprovisioned served request routing.chosenProvider routing.chosenModel =
      false) :
    handleLoop served request apiKeyId world (attempts + 1) id routing excluded s =
        (some (handleWithRouting served request apiKeyId (world id) routing id s).1,
          (handleWithRouting served request apiKeyId (world id) routing id s).2) ∧
      routingsLoop served request apiKeyId world (attempts + 1) id routing excluded s =
        [routing] := by
  have hne : ∀ provider vaultPath,
      (handleWithRouting served request apiKeyId (world id) routing id s).1 ≠
        .error (.notProvisioned provider vaultPath) := fun provider vaultPath heq ↦ by
    rw [(handleWithRouting_notProvisioned_iff apiKeyId id s _).1 ⟨provider, vaultPath, heq⟩] at h
    cases h
  refine ⟨handleLoop_of_forall_ne hne, ?_⟩
  rw [routingsLoop]
  split
  · rename_i provider vaultPath s' heq
    exact absurd (congrArg Prod.fst heq) (hne provider vaultPath)
  · rfl

/-- An attempt that ends in an unprovisioned provider. -/
theorem handleWithRouting_unprovisioned (apiKeyId : String) (s : ImageState)
    (h : (world id).unprovisioned served request routing.chosenProvider routing.chosenModel =
      true) :
    ∃ provider vaultPath, handleWithRouting served request apiKeyId (world id) routing id s =
      (.error (.notProvisioned provider vaultPath),
        (handleWithRouting served request apiKeyId (world id) routing id s).2) := by
  obtain ⟨provider, vaultPath, herror⟩ := (handleWithRouting_notProvisioned_iff apiKeyId id s
    (world id)).2 h
  exact ⟨provider, vaultPath, Prod.ext herror rfl⟩

variable (apiKeyId s excluded) in
/-- The loop ends past an unprovisioned provider when the request is not routed without it. -/
theorem handleLoop_exhausted (attempts : ℕ) {message : String}
    (h : (world id).unprovisioned served request routing.chosenProvider routing.chosenModel = true)
    (hrouted : routeExcluding (world (id + 1)).isOpen request.tier request.model
      (excluded ++ [routing.chosenProvider]) = .error message) :
    handleLoop served request apiKeyId world (attempts + 1) id routing excluded s =
        (some (.error (allUnprovisioned request (excluded ++ [routing.chosenProvider]))),
          (handleWithRouting served request apiKeyId (world id) routing id s).2) ∧
      routingsLoop served request apiKeyId world (attempts + 1) id routing excluded s =
        [routing] := by
  obtain ⟨provider, vaultPath, hattempt⟩ := handleWithRouting_unprovisioned apiKeyId s h
  rw [handleLoop, routingsLoop, hattempt]
  simp only [hrouted, and_self]

variable (apiKeyId s excluded) in
/-- Past an unprovisioned provider, the loop goes on where the request is routed without it. -/
theorem handleLoop_next (attempts : ℕ) {next : RoutingDecision}
    (h : (world id).unprovisioned served request routing.chosenProvider routing.chosenModel = true)
    (hrouted : routeExcluding (world (id + 1)).isOpen request.tier request.model
      (excluded ++ [routing.chosenProvider]) = .ok next) :
    handleLoop served request apiKeyId world (attempts + 1) id routing excluded s =
        handleLoop served request apiKeyId world attempts (id + 1) next
          (excluded ++ [routing.chosenProvider])
          (handleWithRouting served request apiKeyId (world id) routing id s).2 ∧
      routingsLoop served request apiKeyId world (attempts + 1) id routing excluded s =
        routing :: routingsLoop served request apiKeyId world attempts (id + 1) next
          (excluded ++ [routing.chosenProvider])
          (handleWithRouting served request apiKeyId (world id) routing id s).2 := by
  obtain ⟨provider, vaultPath, hattempt⟩ := handleWithRouting_unprovisioned apiKeyId s h
  rw [handleLoop, routingsLoop, hattempt]
  simp only [hrouted, and_self]

/-- The providers of a tier. -/
def tierProviders (tier : Tier) : List ProviderId :=
  (TIER_MAP tier).map Candidate.provider

/-- A route to a provider of the tier that is not excluded, past excluded providers of the tier. -/
structure Fallback (tier : Tier) (routing : RoutingDecision) (excluded : List ProviderId) :
    Prop where
  candidate : routing.chosenProvider ∈ tierProviders tier
  fresh : routing.chosenProvider ∉ excluded
  nodup : excluded.Nodup
  subset : excluded ⊆ tierProviders tier

theorem Fallback.nodup_append {tier : Tier} (h : Fallback tier routing excluded) :
    (excluded ++ [routing.chosenProvider]).Nodup := by
  rw [(List.perm_append_singleton _ _).nodup_iff]
  exact List.nodup_cons.2 ⟨h.fresh, h.nodup⟩

theorem Fallback.subset_append {tier : Tier} (h : Fallback tier routing excluded) :
    excluded ++ [routing.chosenProvider] ⊆ tierProviders tier := by
  refine List.append_subset.2 ⟨h.subset, ?_⟩
  simpa using h.candidate

/-- Each fallback leaves fewer providers of the tier. -/
theorem Fallback.length_lt {tier : Tier} (h : Fallback tier routing excluded) :
    excluded.length < (tierProviders tier).length := by
  have hle := (List.subperm_of_subset h.nodup_append h.subset_append).length_le
  rw [List.length_append, List.length_singleton] at hle
  exact hle

/-- A request that is not pinned is routed to a provider of its tier that is not excluded. -/
theorem Fallback.next {isOpen : String → Bool} {next : RoutingDecision}
    (h : Fallback request.tier routing excluded) (hpin : pinnedModel request.model = none)
    (hrouted : routeExcluding isOpen request.tier request.model
      (excluded ++ [routing.chosenProvider]) = .ok next) :
    Fallback request.tier next (excluded ++ [routing.chosenProvider]) := by
  obtain ⟨hmem, hfresh⟩ := routeExcluding_ok hpin hrouted
  exact ⟨List.mem_map_of_mem hmem, hfresh, h.nodup_append, h.subset_append⟩

variable (served apiKeyId world id s) in
/-- **The loop ends** after as many attempts as the tier has providers that are not excluded. -/
theorem handleLoop_ends (hpin : pinnedModel request.model = none) {attempts : ℕ}
    (h : Fallback request.tier routing excluded)
    (hattempts : (tierProviders request.tier).length ≤ attempts + excluded.length) :
    ∃ answer, (handleLoop served request apiKeyId world attempts id routing excluded s).1 =
      some answer ∧ Delivered served request world answer := by
  induction attempts generalizing id routing excluded s with
  | zero => exact absurd h.length_lt (by omega)
  | succ attempts ih =>
    cases hunprovisioned : (world id).unprovisioned served request routing.chosenProvider
        routing.chosenModel with
    | false =>
      rw [(handleLoop_of_provisioned apiKeyId s excluded attempts hunprovisioned).1]
      exact ⟨_, rfl, handleWithRouting_delivered⟩
    | true =>
      cases hrouted : routeExcluding (world (id + 1)).isOpen request.tier request.model
          (excluded ++ [routing.chosenProvider]) with
      | error message =>
        rw [(handleLoop_exhausted apiKeyId s excluded attempts hunprovisioned hrouted).1]
        exact ⟨_, rfl, trivial⟩
      | ok next =>
        rw [(handleLoop_next apiKeyId s excluded attempts hunprovisioned hrouted).1]
        refine ih _ _ (h.next hpin hrouted) ?_
        rw [List.length_append, List.length_singleton]
        omega

/-- No provider is attempted twice, and no excluded one is. -/
theorem routingsLoop_nodup (hpin : pinnedModel request.model = none) {attempts : ℕ}
    (h : Fallback request.tier routing excluded) :
    (excluded ++ (routingsLoop served request apiKeyId world attempts id routing excluded s).map
      RoutingDecision.chosenProvider).Nodup := by
  induction attempts generalizing id routing excluded s with
  | zero =>
    rw [routingsLoop, List.map_nil, List.append_nil]
    exact h.nodup
  | succ attempts ih =>
    cases hunprovisioned : (world id).unprovisioned served request routing.chosenProvider
        routing.chosenModel with
    | false =>
      rw [(handleLoop_of_provisioned apiKeyId s excluded attempts hunprovisioned).2]
      exact h.nodup_append
    | true =>
      cases hrouted : routeExcluding (world (id + 1)).isOpen request.tier request.model
          (excluded ++ [routing.chosenProvider]) with
      | error message =>
        rw [(handleLoop_exhausted apiKeyId s excluded attempts hunprovisioned hrouted).2]
        exact h.nodup_append
      | ok next =>
        rw [(handleLoop_next apiKeyId s excluded attempts hunprovisioned hrouted).2, List.map_cons,
          List.append_cons]
        exact ih (h.next hpin hrouted)

/-! ### When the fallback ends -/

theorem fallbackEnds_of_not_pinned (hpin : pinnedModel request.model = none) :
    FallbackEnds served request apiKeyId world := by
  cases hroute : route (world 0).isOpen request.tier request.model with
  | error message =>
    constructor
    · exact ⟨0, .error (.routing message), by rw [handleRequest, hroute], trivial⟩
    · intro attempts
      rw [routings, hroute]
      exact List.nodup_nil
  | ok routing =>
    obtain ⟨before, after, htier, -⟩ := route_ok hpin hroute
    have hfallback : Fallback request.tier routing [] := by
      refine ⟨?_, List.not_mem_nil, List.nodup_nil, List.nil_subset _⟩
      simp [tierProviders, htier]
    constructor
    · obtain ⟨answer, hanswer, hdelivered⟩ := handleLoop_ends served apiKeyId world 0 {}
        hpin hfallback le_rfl
      exact ⟨_, answer, by rw [handleRequest, hroute]; exact hanswer, hdelivered⟩
    · intro attempts
      rw [routings, hroute]
      exact routingsLoop_nodup hpin hfallback

theorem fallbackEnds_pinned_iff {model : String} (hpin : pinnedModel request.model = some model) :
    FallbackEnds served request apiKeyId world ↔
      (world 0).unprovisioned served request (pinnedProvider model) model = false := by
  have hroute : route (world 0).isOpen request.tier request.model =
      .ok (pinnedDecision request.tier model) := route_pinned hpin
  constructor
  · intro h
    by_contra hunprovisioned
    have hpinned : (world 0).unprovisioned served request
        (pinnedDecision request.tier model).chosenProvider
        (pinnedDecision request.tier model).chosenModel = true := by
      rwa [Bool.not_eq_false] at hunprovisioned
    -- The pin is routed to its provider again.
    have honce := h.once 2
    rw [routings, hroute] at honce
    simp only [(handleLoop_next apiKeyId {} [] 1 hpinned (routeExcluding_pinned hpin)).2] at honce
    rw [routingsLoop, List.map_cons, List.map_cons, List.nodup_cons] at honce
    exact honce.1 List.mem_cons_self
  · intro hprovisioned
    have hpinned : (world 0).unprovisioned served request
        (pinnedDecision request.tier model).chosenProvider
        (pinnedDecision request.tier model).chosenModel = false := hprovisioned
    have hloop := fun attempts ↦ handleLoop_of_provisioned apiKeyId {} [] attempts hpinned
    constructor
    · have hend : (handleRequest served request apiKeyId world 1).1 = some (handleWithRouting served
          request apiKeyId (world 0) (pinnedDecision request.tier model) 0 {}).1 := by
        rw [handleRequest, hroute]
        exact congrArg Prod.fst (hloop 0).1
      exact ⟨1, _, hend, handleWithRouting_delivered⟩
    · intro attempts
      rw [routings, hroute]
      cases attempts with
      | zero => exact List.nodup_nil
      | succ attempts =>
        simp only [(hloop attempts).2, List.map_cons, List.map_nil, List.nodup_cons,
          List.not_mem_nil, not_false_iff, List.nodup_nil, and_self]

/-- **When the fallback ends.** The request is answered without attempting a provider twice exactly
when it is not pinned, or its first attempt does not end in an unprovisioned provider. -/
theorem fallbackEnds_iff :
    FallbackEnds served request apiKeyId world ↔ FallbackSound served request world := by
  cases hpin : pinnedModel request.model with
  | none =>
    refine iff_of_true (fallbackEnds_of_not_pinned hpin) fun model hmodel ↦ ?_
    rw [hpin] at hmodel
    cases hmodel
  | some model =>
    rw [fallbackEnds_pinned_iff hpin]
    refine ⟨fun h model' hmodel ↦ ?_, fun h ↦ h model hpin⟩
    rw [hpin] at hmodel
    cases hmodel
    exact h

/-- A request with a pin whose provider is not provisioned is never answered. -/
theorem handleLoop_never_ends {model : String} (hpin : pinnedModel request.model = some model)
    (h : ∀ id, (world id).unprovisioned served request (pinnedProvider model) model = true)
    (attempts : ℕ) :
    (handleLoop served request apiKeyId world attempts id (pinnedDecision request.tier model)
      excluded s).1 = none := by
  induction attempts generalizing id excluded s with
  | zero => rfl
  | succ attempts ih =>
    have hpinned : (world id).unprovisioned served request
        (pinnedDecision request.tier model).chosenProvider
        (pinnedDecision request.tier model).chosenModel = true := h id
    rw [(handleLoop_next apiKeyId s excluded attempts hpinned (routeExcluding_pinned hpin)).1]
    exact ih

end

/-- A request for the model of a provider that is not configured. -/
def unservedPin : ImageGenerationRequest where
  model := some "fal-ai:flux/dev"

/-- Without connectors, the request for a pinned model is never answered. -/
theorem pinned_never_ends :
    (∀ attempts, (handleRequest (fun _ ↦ false) unservedPin "key"
      (fun _ ↦ writtenAttempt (.failed "Fal.ai API error 500")) attempts).1 = none) ∧
    ¬FallbackEnds (fun _ ↦ false) unservedPin "key" fun _ ↦
      writtenAttempt (.failed "Fal.ai API error 500") := by
  have hpin : pinnedModel unservedPin.model = some "fal-ai:flux/dev" := by decide
  have hloop : ∀ attempts, (handleRequest (fun _ ↦ false) unservedPin "key"
      (fun _ ↦ writtenAttempt (.failed "Fal.ai API error 500")) attempts).1 = none := by
    intro attempts
    rw [handleRequest, route_pinned hpin]
    exact handleLoop_never_ends hpin (fun _ ↦ by decide) attempts
  refine ⟨hloop, fun h ↦ ?_⟩
  obtain ⟨attempts, answer, hanswer, -⟩ := h.ends
  rw [hloop attempts] at hanswer
  cases hanswer

end ModelConnector.Images
