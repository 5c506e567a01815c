import Mathlib.Data.List.TakeWhile
import Mathlib.Data.Rat.Defs

/-!
# Routing image requests

`ImageRouterService`: a request names a tier, whose candidates are tried in order past those whose
circuit is open, or it is pinned to a model. Whether a circuit is open when it is asked is an
argument.
-/

namespace ModelConnector.Images

/-! ### Providers and models -/

/-- `ProviderId`. -/
inductive ProviderId
  | vertex
  | replicate
  | openaiImages
  | falAi
  deriving DecidableEq

/-- The text of a provider. -/
def ProviderId.value : ProviderId → String
  | vertex => "vertex"
  | replicate => "replicate"
  | openaiImages => "openai-images"
  | falAi => "fal-ai"

/-- `Tier`. -/
inductive Tier
  | cheap
  | mid
  | premium
  deriving DecidableEq

/-- The text of a tier. -/
def Tier.value : Tier → String
  | cheap => "cheap"
  | mid => "mid"
  | premium => "premium"

/-- A provider and the model it is asked for. -/
structure Candidate where
  provider : ProviderId
  model : String
  deriving DecidableEq

/-- `TIER_MAP`. -/
def TIER_MAP : Tier → List Candidate
  | .cheap => [⟨.vertex, "vertex:nano-banana"⟩]
  | .mid =>
    [⟨.vertex, "vertex:imagen-4-fast"⟩, ⟨.vertex, "vertex:imagen-4"⟩, ⟨.falAi, "fal-ai:flux/dev"⟩]
  | .premium =>
    [⟨.vertex, "vertex:imagen-4-ultra"⟩, ⟨.replicate, "replicate:flux-pro"⟩,
      ⟨.openaiImages, "openai:gpt-image-1-high"⟩, ⟨.falAi, "fal-ai:flux-pro/v1.1"⟩]

/-- `ASYNC_PROVIDERS`. -/
def ASYNC_PROVIDERS : List String :=
  ["vertex:imagen-4-ultra", "replicate:flux-pro", "openai:gpt-image-1-high"]

/-- The providers of `IMAGE_CAPABILITIES`, by model. -/
def IMAGE_CAPABILITIES : List (String × ProviderId) :=
  [("vertex:nano-banana", .vertex), ("vertex:imagen-4-fast", .vertex),
    ("vertex:imagen-4", .vertex), ("vertex:imagen-4-ultra", .vertex),
    ("replicate:flux-pro", .replicate), ("openai:gpt-image-1-low", .openaiImages),
    ("openai:gpt-image-1-medium", .openaiImages), ("openai:gpt-image-1-high", .openaiImages),
    ("fal-ai:flux/dev", .falAi), ("fal-ai:flux-pro/v1.1", .falAi)]

/-- `PRICING_TABLE`. -/
def PRICING_TABLE : List (String × ℚ) :=
  [("vertex:nano-banana", 39 / 1000), ("vertex:imagen-4-fast", 20 / 1000),
    ("vertex:imagen-4", 40 / 1000), ("vertex:imagen-4-ultra", 70 / 1000),
    ("replicate:flux-pro", 40 / 1000), ("openai:gpt-image-1-low", 11 / 1000),
    ("openai:gpt-image-1-medium", 60 / 1000), ("openai:gpt-image-1-high", 250 / 1000),
    ("fal-ai:flux/dev", 25 / 1000), ("fal-ai:flux-pro/v1.1", 40 / 1000)]

/-- `calculateCostUsd`. -/
def calculateCostUsd (modelId : String) (count : ℕ) : ℚ :=
  (PRICING_TABLE.lookup modelId).getD 0 * count

/-! ### Routing -/

/-- `RoutingDecision`. -/
structure RoutingDecision where
  chosenProvider : ProviderId
  chosenModel : String
  fallbackUsed : Bool
  reason : String
  tier : Tier
  costUsd : ℚ
  deriving DecidableEq

/-- The decision for a candidate of a tier. -/
def Candidate.decision (candidate : Candidate) (tier : Tier) (fallbackUsed : Bool)
    (reason : String) : RoutingDecision where
  chosenProvider := candidate.provider
  chosenModel := candidate.model
  fallbackUsed
  reason
  tier
  costUsd := calculateCostUsd candidate.model 1

/-- The model a request is pinned to: the empty text pins nothing. -/
def pinnedModel (model : Option String) : Option String :=
  model.filter (· ≠ "")

/-- The provider of a pinned model. -/
def pinnedProvider (model : String) : ProviderId :=
  (IMAGE_CAPABILITIES.lookup model).getD .vertex

/-- The decision for a pinned model. -/
def pinnedDecision (tier : Tier) (model : String) : RoutingDecision :=
  Candidate.decision ⟨pinnedProvider model, model⟩ tier false ("pinned to model " ++ model)

/-- The first candidate that is not skipped, and whether one before it was. -/
def firstCandidate (skips : Candidate → Bool) (candidates : List Candidate) :
    Option (Candidate × Bool) :=
  match candidates.dropWhile skips with
  | [] => none
  | candidate :: _ => some (candidate, candidates.head?.any skips)

/-- `route`; the error is the message of an `ImageRoutingError`. -/
def route (isOpen : String → Bool) (tier : Tier) (model : Option String) :
    Except String RoutingDecision :=
  match pinnedModel model with
  | some model => .ok (pinnedDecision tier model)
  | none =>
    match firstCandidate (fun c ↦ isOpen c.model) (TIER_MAP tier) with
    | some (candidate, firstOpen) => .ok (candidate.decision tier firstOpen
        (if firstOpen then "fallback to " ++ candidate.model ++ " (primary circuit open)"
        else "tier " ++ tier.value ++ " primary"))
    | none => .error ("All providers for tier \"" ++ tier.value ++
        "\" have open circuits. No candidate available.")

/-- The providers of a list, as the text of a message. -/
def providerTexts (providers : List ProviderId) : String :=
  ", ".intercalate (providers.map ProviderId.value)

/-- `routeExcluding`. -/
def routeExcluding (isOpen : String → Bool) (tier : Tier) (model : Option String)
    (excludedProviders : List ProviderId) : Except String RoutingDecision :=
  if (pinnedModel model).isSome then route isOpen tier model
  else
    match firstCandidate (fun c ↦ excludedProviders.contains c.provider || isOpen c.model)
      (TIER_MAP tier) with
    | some (candidate, firstSkipped) => .ok (candidate.decision tier firstSkipped
        (if firstSkipped then "fallback to " ++ candidate.model ++ " (" ++
          providerTexts excludedProviders ++ " unprovisioned or circuit open)"
        else "tier " ++ tier.value ++ " primary"))
    | none => .error ("All providers for tier \"" ++ tier.value ++
        "\" unprovisioned or have open circuits: " ++
          providerTexts ((TIER_MAP tier).map Candidate.provider))

/-! ### Where a request can be routed -/

section Routes

variable {isOpen : String → Bool} {tier : Tier} {model : Option String} {routing : RoutingDecision}

/-- The first candidate is in the list, is not skipped, and all before it are. -/
theorem firstCandidate_eq_some {skips : Candidate → Bool} {candidates : List Candidate}
    {candidate : Candidate} {skipped : Bool}
    (h : firstCandidate skips candidates = some (candidate, skipped)) :
    ∃ before after, candidates = before ++ candidate :: after ∧
      (∀ c ∈ before, skips c = true) ∧ skips candidate = false := by
  unfold firstCandidate at h
  split at h
  · cases h
  · rename_i first rest hdrop
    cases h
    refine ⟨candidates.takeWhile skips, rest, ?_, fun c ↦ List.mem_takeWhile_imp, ?_⟩
    · rw [← hdrop, List.takeWhile_append_dropWhile]
    · have hne : candidates.dropWhile skips ≠ [] := by simp [hdrop]
      have hhead := List.head_dropWhile_not skips hne
      simpa [hdrop] using hhead

/-- A candidate that is not skipped is the first one when all before it are skipped. -/
theorem firstCandidate_append (skips : Candidate → Bool) {before : List Candidate}
    (after : List Candidate) {candidate : Candidate} (hbefore : ∀ c ∈ before, skips c = true)
    (hcandidate : skips candidate = false) :
    ∃ skipped, firstCandidate skips (before ++ candidate :: after) = some (candidate, skipped) := by
  have hdrop : (before ++ candidate :: after).dropWhile skips = candidate :: after := by
    rw [List.dropWhile_append_of_pos hbefore, List.dropWhile_cons_of_neg (by simp [hcandidate])]
  exact ⟨_, by simp only [firstCandidate, hdrop]; rfl⟩

/-- A pinned request is routed to the provider of its model. -/
theorem route_pinned {pinned : String} (h : pinnedModel model = some pinned) :
    route isOpen tier model = .ok (pinnedDecision tier pinned) := by
  simp [route, h]

/-- A request that is not pinned is routed to the first candidate whose circuit is not open. -/
theorem route_ok (hpin : pinnedModel model = none) (h : route isOpen tier model = .ok routing) :
    ∃ before after, TIER_MAP tier =
        before ++ ⟨routing.chosenProvider, routing.chosenModel⟩ :: after ∧
      (∀ c ∈ before, isOpen c.model = true) ∧ isOpen routing.chosenModel = false := by
  simp only [route, hpin] at h
  split at h
  · rename_i candidate firstOpen hfirst
    cases h
    exact firstCandidate_eq_some hfirst
  · cases h

/-- What is routed past excluded providers is a candidate of none of them. -/
theorem routeExcluding_ok {excluded : List ProviderId} (hpin : pinnedModel model = none)
    (h : routeExcluding isOpen tier model excluded = .ok routing) :
    ⟨routing.chosenProvider, routing.chosenModel⟩ ∈ TIER_MAP tier ∧
      routing.chosenProvider ∉ excluded := by
  simp only [routeExcluding, hpin, Option.isSome_none, Bool.false_eq_true, if_false] at h
  split at h
  · rename_i candidate firstSkipped hfirst
    cases h
    obtain ⟨before, after, htier, -, hskips⟩ := firstCandidate_eq_some hfirst
    refine ⟨by rw [htier]; simp [Candidate.decision], ?_⟩
    simpa [Candidate.decision] using (Bool.or_eq_false_iff.1 hskips).1
  · cases h

/-- A pin takes no notice of excluded providers. -/
theorem routeExcluding_pinned {pinned : String} {excluded : List ProviderId}
    (h : pinnedModel model = some pinned) :
    routeExcluding isOpen tier model excluded = .ok (pinnedDecision tier pinned) := by
  simp [routeExcluding, h, route_pinned h]

variable (isOpen) in
/-- A candidate is where a request is routed when all circuits before it are open. -/
theorem route_of_open {before after : List Candidate} {candidate : Candidate}
    (hpin : pinnedModel model = none) (htier : TIER_MAP tier = before ++ candidate :: after)
    (hbefore : ∀ c ∈ before, isOpen c.model = true) (hcandidate : isOpen candidate.model = false) :
    ∃ routing, route isOpen tier model = .ok routing ∧
      routing.chosenProvider = candidate.provider ∧ routing.chosenModel = candidate.model := by
  obtain ⟨skipped, hfirst⟩ :=
    firstCandidate_append (fun c ↦ isOpen c.model) after hbefore hcandidate
  rw [← htier] at hfirst
  simp only [route, hpin, hfirst]
  exact ⟨_, rfl, rfl, rfl⟩

end Routes

end ModelConnector.Images
