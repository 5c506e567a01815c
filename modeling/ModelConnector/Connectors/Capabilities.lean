import ModelConnector.Connectors.FailoverCandidates
import ModelConnector.Connectors.ProviderGates

/-!
# The models a key is shown

`ConnectorsService.listCapabilitiesForKey`: what the registered connectors declare, without those
that cannot be advertised under the policy of the key, and with the models the policy lets through.
`policyGates` are the gates of `execute` that ask the policy, the credential and the model.

What is read of the database is answered: the tiers of the models are there when they are asked for.
-/

namespace ModelConnector.Connectors

open Policy

/-- The registered connectors, and what they run on. -/
structure ConnectorRegistry extends World where
  /-- `listCapabilities`. -/
  listCapabilities : List DeclaredCapabilities
  /-- `getTier`. -/
  getTier : String → String → Option Policy.ModelTier
  /-- `PROVIDER_CREDENTIAL_REGISTRY`, when its schema accepts it. -/
  credentialRegistry : Option (List (String × RegisteredCredential))
  /-- The models of a connector and their data come from one source. -/
  same_models : ∀ caps ∈ listCapabilities, ∀ model,
    model ∈ caps.models ↔ model ∈ caps.metas.map ProviderModelMeta.id

/-- The modality a connector reports of a model. -/
def DeclaredCapabilities.modalityOf (caps : DeclaredCapabilities) (model : String) :
    Option ModelModality :=
  ((caps.modelMeta.getD []).find? (·.id = model)).bind ProviderModelMeta.modality

/-- A model policy that does not let every model through. -/
def restrictsModels (policy : ApiKeyPolicy) : Bool :=
  policy.models.any (·.mode ≠ .all)

namespace ConnectorRegistry

variable (r : ConnectorRegistry)

/-- The deployment `execute` runs in. -/
def deployment : Deployment where
  toWorld := r.toWorld
  connector name := (r.listCapabilities.find? (·.name = name)).map DeclaredCapabilities.modalityOf
  tierOf provider model := .ok (r.getTier provider model)
  credentialRegistry := r.credentialRegistry

/-- The policy lets a model through, by its tier where the policy asks for free ones. -/
def modelAllowed (policy : ApiKeyPolicy) (provider model : String) : Bool :=
  let tier := if policy.models.any (·.mode = .freeOnly) then r.getTier provider model else none
  (isModelAllowed (some policy) provider model tier).isOk

/-- What the policy leaves of the models of a connector, when it leaves any. -/
def allowedCapabilities (policy : ApiKeyPolicy) (caps : DeclaredCapabilities) :
    Option DeclaredCapabilities :=
  if !isProviderAllowed (some policy) caps.name then none
  else if !restrictsModels policy then some caps
  else
    let allowedMetas := caps.metas.filter fun info ↦ r.modelAllowed policy caps.name info.id
    if allowedMetas.isEmpty then none
    else
      let allowedIds := firsts id [] (allowedMetas.map ProviderModelMeta.id)
      some { caps with
        models := allowedIds
        modelMeta :=
          if caps.modelMeta.any (!·.isEmpty) then some allowedMetas else caps.modelMeta
        freeModels := caps.freeModels.map fun ids ↦ ids.filter allowedIds.contains }

/-- `listCapabilitiesForKey`; a key has an id that is not the empty text. -/
def listCapabilitiesForKey (apiKeyId : Option String) : List DeclaredCapabilities :=
  match r.callerPolicy apiKeyId with
  | .error () => []
  | .ok policy =>
    let all := r.listCapabilities.filter fun caps ↦ r.canAdvertiseForPolicy caps.name policy
    match policy with
    | none => all
    | some policy => all.filterMap (r.allowedCapabilities policy)

/-- A model of a connector is listed for a key. -/
def Lists (apiKeyId connectorName model : String) : Prop :=
  ∃ caps ∈ r.listCapabilitiesForKey (some apiKeyId),
    caps.name = connectorName ∧ model ∈ caps.models

instance (apiKeyId connectorName model : String) :
    Decidable (r.Lists apiKeyId connectorName model) :=
  inferInstanceAs (Decidable (∃ caps ∈ r.listCapabilitiesForKey (some apiKeyId),
    caps.name = connectorName ∧ model ∈ caps.models))

end ConnectorRegistry

/-! ### The gates that ask the policy -/

section Gates

variable (d : Deployment) (connectorName : String) (request : ServiceExecuteRequest)

/-- The gates of `execute` on the policy, the credential and the model. -/
def policyGates (apiKeyId : String) : Except Refusal (Option ProviderKeyOverride) := do
  let policy ← readPolicy d request true apiKeyId
  providerGate connectorName request policy
  credentialGate d connectorName request policy
  modelGate d connectorName request policy
  keyOverride d connectorName request policy apiKeyId

/-- The gates let a request through. -/
def Passes (apiKeyId : String) : Prop :=
  ∃ override_, policyGates d connectorName request apiKeyId = .ok override_

variable {d connectorName request} {apiKeyId : String} {override_ : Option ProviderKeyOverride}

theorem gate_eq_ok {open_ : Bool} {model : Option String} {type message : String} {u : Unit} :
    gate open_ model type message = .ok u ↔ open_ = true := by
  refine ⟨gate_ok, fun h ↦ ?_⟩
  rw [h]
  rfl

/-- The gates of `execute` are these, and those on the connector, its access and the request. -/
theorem gates_eq_ok : gates d connectorName request true apiKeyId = .ok override_ ↔
    ∃ modalityOf, getConnector d connectorName = .ok modalityOf ∧
      (d.access connectorName).use = true ∧
      (connectorName = "deepseek" → request.deepSeekOptions = true) ∧
      policyGates d connectorName request apiKeyId = .ok override_ ∧
      modalityGate connectorName request modalityOf = .ok () := by
  simp only [gates, policyGates, Except.bind_eq_ok, useGate, optionsGate, gate_eq_ok]
  constructor
  · rintro ⟨modalityOf, hconnector, policy, hpolicy, _, huse, _, hoptions, _, hprovider, _,
      hcredential, _, hmodel, _, hkey, _, hmodality, h⟩
    cases h
    refine ⟨modalityOf, hconnector, huse, fun hname ↦ ?_,
      ⟨policy, hpolicy, (), hprovider, (), hcredential, (), hmodel, hkey⟩, hmodality⟩
    simpa [hname] using hoptions
  · rintro ⟨modalityOf, hconnector, huse, hoptions,
      ⟨policy, hpolicy, _, hprovider, _, hcredential, _, hmodel, hkey⟩, hmodality⟩
    refine ⟨modalityOf, hconnector, policy, hpolicy, (), huse, (), ?_, (), hprovider, (),
      hcredential, (), hmodel, override_, hkey, (), hmodality, rfl⟩
    by_cases hname : connectorName = "deepseek"
    · simp [hoptions hname]
    · simp [hname]

end Gates

end ModelConnector.Connectors
