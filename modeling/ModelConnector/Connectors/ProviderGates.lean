import ModelConnector.Connectors.CatalogView
import ModelConnector.Connectors.Failover
import ModelConnector.Connectors.Metering
import ModelConnector.Foundations.Result

/-!
# The gates of a dispatch

`ConnectorsService.execute` up to the call of the connector: the global access of the provider, the
policy of the key, the credential it selects and the modality of the model are asked in turn, and
each can refuse the request. The routers that try several providers call `execute` for each of them,
so what they filter beforehand decides only how a refusal is reported.

What is opened for the request before its connector is called, an intent or an observation, and what
the connector answers are arguments.
-/

namespace ModelConnector.Connectors

open Policy

/-! ### Registered credentials -/

/-- An entry of `PROVIDER_CREDENTIAL_REGISTRY`. -/
structure RegisteredCredential where
  provider : String
  profileId : String
  clientKeyIds : List String
  /-- The names of environment variables, by version. -/
  versions : List (String × String)

/-- `ProviderKeyOverride`; the key is the value of an environment variable. -/
structure ProviderKeyOverride where
  provider : String
  envName : String
  registered : Option (CredentialReference × PolicyProfile) := none

/-- The prefixes of the names a registered credential may have. -/
def credentialPrefixes : List (String × String) :=
  [("openrouter", "OPENROUTER_API_KEY_"), ("typesafe-jev", "TYPESAFE_API_KEY_"),
    ("deepseek", "DEEPSEEK_API_KEY_")]

/-- What a deployment is made of. -/
structure Deployment extends World where
  /-- The connectors by name, with the modality they report of a model. -/
  connector : String → Option (String → Option ModelModality)
  /-- `getTier`, unless it throws. -/
  tierOf : String → String → Except String (Option Policy.ModelTier)
  /-- `PROVIDER_CREDENTIAL_REGISTRY`, when its schema accepts it. -/
  credentialRegistry : Option (List (String × RegisteredCredential))

/-- `ServiceExecuteRequest`, as far as the gates read it. -/
structure ServiceExecuteRequest where
  model : Option String := none
  /-- `parseDeepSeekOptions` accepts the request. -/
  deepSeekOptions : Bool := true
  attemptsForRequest : ℕ := 1

/-- A gate refuses a request with a response, or throws. -/
inductive Refusal
  | response (response : ConnectorResponse)
  | threw (message : String)

/-! ### Refusals -/

/-- The text of an action. -/
def ErrorAction.value : ErrorAction → String
  | retry => "retry"
  | wait => "wait"
  | abort => "abort"
  | reauth => "reauth"

/-- `gateErrorResponse`, and `policyErrorResponse`. -/
def gateErrorResponse (model : Option String) (type message : String) : ConnectorResponse where
  model := (model.filter (· ≠ "")).getD "unknown"
  result := ""
  usage := .zero
  status := .error
  error := some
    { type, message, retryable := (classifyErrorAction type).1
      recommendation := (classifyErrorAction type).2.value }

/-- A gate that lets a request through on a condition. -/
def gate (open_ : Bool) (model : Option String) (type message : String) : Except Refusal Unit :=
  if open_ then .ok () else .error (.response (gateErrorResponse model type message))

/-! ### The gates -/

section Gates

variable (d : Deployment) (connectorName : String) (request : ServiceExecuteRequest)

/-- `get`. -/
def getConnector : Except Refusal (String → Option ModelModality) :=
  match d.connector connectorName with
  | none => .error (.threw ("Connector \"" ++ connectorName ++ "\" not found"))
  | some modalityOf => .ok modalityOf

/-- `getPolicyForKey`; the read may fail. -/
def readPolicy (policyRead : Bool) (apiKeyId : String) : Except Refusal (Option ApiKeyPolicy) :=
  if !policyRead then .error (.threw "The policy could not be read.")
  else
    match d.policyOf apiKeyId with
    | .error () => .error (.response (gateErrorResponse request.model "config_error"
        "The access policy stored for this API key is invalid; contact the administrator."))
    | .ok policy => .ok policy

/-- The gate of the global access. -/
def useGate : Except Refusal Unit :=
  gate (d.access connectorName).use request.model "provider_not_routable"
    ("Connector '" ++ connectorName ++ "' is READ-only (PROVIDER_ACCESS): " ++
      "its models are visible in the catalog but MC does not route traffic to it.")

/-- The gate of the options of a provider. -/
def optionsGate : Except Refusal Unit :=
  gate (connectorName ≠ "deepseek" || request.deepSeekOptions) request.model "validation_error"
    "Invalid DeepSeek thinking/effort options"

/-- The gate of the providers of a policy. -/
def providerGate (policy : Option ApiKeyPolicy) : Except Refusal Unit :=
  gate (isProviderAllowed policy connectorName) request.model "policy_violation"
    ("Provider '" ++ connectorName ++ "' is not permitted by this API key's access policy.")

/-- The gates of the credential a policy selects. -/
def credentialGate (policy : Option ApiKeyPolicy) : Except Refusal Unit := do
  gate ((resolveProviderKeyEnv policy connectorName).all fun name ↦ (d.env name).isSome)
    request.model "config_error" ("Provider key alias for '" ++ connectorName ++
      "' is not configured on the server; contact the administrator.")
  gate (d.isCredentialReadyForPolicy connectorName policy) request.model "config_error"
    ("No provider credential is configured for '" ++ connectorName ++ "'.")

/-- The gate of the models of a policy. -/
def modelGate (policy : Option ApiKeyPolicy) : Except Refusal Unit :=
  match policy.bind fun p ↦ p.models with
  | none => .ok ()
  | some models =>
    if models.mode = .all then .ok ()
    else
      match request.model.filter (· ≠ "") with
      | none => .error (.response (gateErrorResponse request.model "policy_violation"
          ("This API key's access policy restricts models on provider '" ++ connectorName ++
            "', but the request did not name a model (fail-closed).")))
      | some model =>
        match if models.mode = .freeOnly then d.tierOf connectorName model else .ok none with
        | .error message => .error (.threw message)
        | .ok tier =>
          match isModelAllowed policy connectorName model tier with
          | .ok () => .ok ()
          | .error reason =>
            .error (.response (gateErrorResponse request.model "policy_violation" reason))

/-- `resolveRegisteredCredential`. -/
def resolveRegisteredCredential (policy : ApiKeyPolicy) (clientKeyId : String) :
    Option ProviderKeyOverride :=
  match policy.policyVersion, policy.profile,
    policy.providerKeys.bind (·.lookup connectorName) with
  | .v2, some profile, some (.references (selected :: _)) => do
    let registry ← d.credentialRegistry
    let registered ← registry.lookup selected.credentialRef
    let name ← registered.versions.lookup selected.version
    let start ← credentialPrefixes.lookup connectorName
    if registered.provider = connectorName ∧ registered.profileId = profile.id ∧
        registered.clientKeyIds.contains clientKeyId ∧ name.startsWith start ∧
        (d.env name).isSome then
      some { provider := connectorName, envName := name, registered := some (selected, profile) }
    else none
  | _, _, _ => none

/-- The key a policy puts in place of the shared one. -/
def keyOverride (policy : Option ApiKeyPolicy) (apiKeyId : String) :
    Except Refusal (Option ProviderKeyOverride) :=
  match policy with
  | none => .ok none
  | some policy =>
    match policy.policyVersion with
    | .v2 =>
      match resolveRegisteredCredential d connectorName policy apiKeyId with
      | some override_ => .ok (some override_)
      | none => .error (.response (gateErrorResponse request.model "config_error"
          "Dedicated provider credential is unavailable or unauthorized."))
    | .v1 =>
      match resolveProviderKeyEnv (some policy) connectorName with
      | none => .ok none
      | some envName =>
        if (d.env envName).isSome then .ok (some { provider := connectorName, envName })
        else .error (.response (gateErrorResponse request.model "config_error"
          ("Provider key alias for '" ++ connectorName ++
            "' is not configured on the server; contact the administrator.")))

/-- The gate of the modality a connector reports of a model. -/
def modalityGate (modalityOf : String → Option ModelModality) : Except Refusal Unit :=
  match (request.model.filter (· ≠ "")).bind fun m ↦ (modalityOf m).map (m, ·) with
  | none => .ok ()
  | some (model, modality) =>
    gate (isModalityExecutableHere modality) request.model "unsupported_modality"
      ("Model '" ++ model ++ "' is a '" ++ modality.value ++
        "' model and cannot be executed through the chat endpoint of connector '" ++
          connectorName ++ "'. Route it via the dedicated " ++ modality.value ++
            " connector instead.")

/-- All gates of `execute`, in their order. -/
def gates (policyRead : Bool) (apiKeyId : String) :
    Except Refusal (Option ProviderKeyOverride) := do
  let modalityOf ← getConnector d connectorName
  let policy ← readPolicy d request policyRead apiKeyId
  useGate d connectorName request
  optionsGate connectorName request
  providerGate connectorName request policy
  credentialGate d connectorName request policy
  modelGate d connectorName request policy
  let override_ ← keyOverride d connectorName request policy apiKeyId
  modalityGate connectorName request modalityOf
  pure override_

end Gates

/-! ### The dispatch -/

/-- What happens in a call of `execute`. -/
structure ExecuteWorld where
  policyRead : Bool := true
  /-- `openRequestIntent` and the reservation of an observation: they go on, answer, or throw. -/
  opened : Except Refusal Unit := .ok ()
  dispatch : Dispatch

/-- What a refused request gets. -/
def Refusal.answer : Refusal → Except String ConnectorResponse
  | .response answer => .ok answer
  | .threw message => .error message

/-- `execute`, with the providers whose connector is called. -/
def execute (d : Deployment) (w : ExecuteWorld) (connectorName : String)
    (request : ServiceExecuteRequest) (apiKeyId : String) :
    Except String ConnectorResponse × List String :=
  match gates d connectorName request w.policyRead apiKeyId >>= fun _ ↦ w.opened with
  | .error refusal => (refusal.answer, [])
  | .ok () =>
    ((runAttempts w.dispatch request.attemptsForRequest).map AttemptsMade.lastResponse,
      [connectorName])

/-- `PolicyService` permits the provider for the key: its stored policy is valid and allows it. -/
def Deployment.permits (d : Deployment) (apiKeyId provider : String) : Prop :=
  ∃ policy, d.policyOf apiKeyId = .ok policy ∧ isProviderAllowed policy provider = true

/-! ### What the gates let through -/

section Permitted

variable {d : Deployment} {connectorName apiKeyId : String} {request : ServiceExecuteRequest}

theorem gate_ok {open_ : Bool} {model : Option String} {type message : String} {u : Unit}
    (h : gate open_ model type message = .ok u) : open_ = true := by
  cases open_ with
  | false => cases h
  | true => rfl

theorem readPolicy_ok {policyRead : Bool} {policy : Option ApiKeyPolicy}
    (h : readPolicy d request policyRead apiKeyId = .ok policy) :
    d.policyOf apiKeyId = .ok policy := by
  unfold readPolicy at h
  split at h
  · cases h
  · split at h
    · cases h
    · rename_i hpolicy
      cases h
      exact hpolicy

/-- A request that passes the gates is for a provider that is permitted. -/
theorem gates_ok {policyRead : Bool} {override_ : Option ProviderKeyOverride}
    (h : gates d connectorName request policyRead apiKeyId = .ok override_) :
    d.permits apiKeyId connectorName := by
  obtain ⟨_, -, h⟩ := Except.bind_ok h
  obtain ⟨policy, hpolicy, h⟩ := Except.bind_ok h
  obtain ⟨_, -, h⟩ := Except.bind_ok h
  obtain ⟨_, -, h⟩ := Except.bind_ok h
  obtain ⟨_, hprovider, -⟩ := Except.bind_ok h
  exact ⟨policy, readPolicy_ok hpolicy, gate_ok hprovider⟩

/-- What `execute` dispatches is permitted. -/
theorem execute_permits {w : ExecuteWorld} {provider : String}
    (h : provider ∈ (execute d w connectorName request apiKeyId).2) :
    d.permits apiKeyId provider := by
  unfold execute at h
  split at h
  · cases h
  · rename_i hgates
    rw [List.mem_singleton.1 h]
    obtain ⟨_, hpassed, -⟩ := Except.bind_ok hgates
    exact gates_ok hpassed

end Permitted

end ModelConnector.Connectors
