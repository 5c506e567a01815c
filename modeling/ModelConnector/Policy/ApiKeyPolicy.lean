import Mathlib.Data.String.Basic

/-!
# Access policies of API keys

The schema of the `ApiKey.policy` column and the gates `PolicyService` evaluates. What is stored is
parsed by the schema on every read, so a policy is one that the schema accepts; a stored value that
it rejects is an error of the read.
-/

namespace ModelConnector.Policy

/-! ### The schema -/

/-- The two versions of a policy. -/
inductive PolicyVersion
  | v1
  | v2
  deriving DecidableEq

/-- The modes of a restriction of models. -/
inductive ModelMode
  | all
  | freeOnly
  | list
  deriving DecidableEq

/-- `modelPolicySchema`. -/
structure ModelPolicy where
  mode : ModelMode
  list : Option (List String) := none
  deriving DecidableEq

/-- `referenceSchema`. -/
structure CredentialReference where
  credentialRef : String
  version : String
  deriving DecidableEq

/-- What a provider is bound to: the name of an environment variable, or registered references. -/
inductive ProviderBinding
  | env (name : String)
  | references (refs : List CredentialReference)
  deriving DecidableEq

/-- The profile of a dedicated key. -/
structure PolicyProfile where
  id : String
  revision : String
  accountingBucket : String
  deriving DecidableEq

/-- A policy, before the schema has accepted it. -/
structure PolicyFields where
  policyVersion : PolicyVersion
  profile : Option PolicyProfile := none
  providers : Option (List String) := none
  models : Option ModelPolicy := none
  providerKeys : Option (List (String × ProviderBinding)) := none
  deriving DecidableEq

/-- `KEY_OVERRIDE_CAPABLE`. -/
def KEY_OVERRIDE_CAPABLE : List String :=
  ["openrouter", "typesafe-jev", "deepseek"]

/-- `/^[A-Za-z0-9][A-Za-z0-9._-]{0,63}$/`. -/
def isIdentifier (s : String) : Bool :=
  match s.toList with
  | [] => false
  | c :: rest => c.isAlphanum && rest.length ≤ 63 &&
      rest.all fun c ↦ c.isAlphanum || c == '.' || c == '_' || c == '-'

/-- `ENV_VAR_NAME_RE`. -/
def isEnvVarName (s : String) : Bool :=
  match s.toList with
  | [] => false
  | c :: rest => c.isUpper && rest.all fun c ↦ c.isUpper || c.isDigit || c == '_'

/-- A list of texts none of which is empty, and that is not empty itself. -/
def nonEmptyTexts (texts : List String) : Bool :=
  !texts.isEmpty && texts.all (· ≠ "")

/-- `modelPolicySchema` accepts the restriction. -/
def ModelPolicy.accepted (models : ModelPolicy) : Bool :=
  models.list.all nonEmptyTexts &&
    (if models.mode = .list then models.list.isSome else models.list.isNone)

/-- The schema of a binding accepts it. -/
def ProviderBinding.accepted : ProviderBinding → Bool
  | .env name => isEnvVarName name
  | .references refs => !refs.isEmpty && refs.length ≤ 16 &&
      refs.all fun r ↦ isIdentifier r.credentialRef && isIdentifier r.version

/-- The rules of a binding, by the version of the policy. -/
def PolicyFields.bindingAccepted (policy : PolicyFields) (provider : String)
    (binding : ProviderBinding) : Bool :=
  provider ≠ "" && binding.accepted && KEY_OVERRIDE_CAPABLE.contains provider &&
    match policy.policyVersion, binding with
    | .v1, .env _ => provider == "openrouter"
    | .v2, .references _ => policy.providers.any (·.contains provider)
    | _, _ => false

/-- `apiKeyPolicySchema` accepts the policy. -/
def PolicyFields.accepted (policy : PolicyFields) : Bool :=
  policy.profile.all (fun p ↦ isIdentifier p.id && isIdentifier p.revision &&
    isIdentifier p.accountingBucket) &&
  policy.providers.all nonEmptyTexts &&
  policy.models.all ModelPolicy.accepted &&
  policy.providerKeys.all (fun keys ↦ keys.all fun (provider, binding) ↦
    policy.bindingAccepted provider binding) &&
  match policy.policyVersion with
  | .v1 => policy.profile.isNone
  | .v2 => policy.profile.isSome &&
      match policy.providers, policy.providerKeys with
      | some providers, some keys => providers.all fun provider ↦ (keys.lookup provider).isSome
      | _, _ => false

/-- A policy the schema has accepted. -/
structure ApiKeyPolicy extends PolicyFields where
  accepted_eq : toPolicyFields.accepted = true
  deriving DecidableEq

/-! ### The gates -/

/-- The tier of a model in the catalogue, when it is known. -/
inductive ModelTier
  | free
  | paid
  deriving DecidableEq

/-- `isProviderAllowed`. -/
def isProviderAllowed (policy : Option ApiKeyPolicy) (provider : String) : Bool :=
  match policy.bind fun p ↦ p.providers with
  | none => true
  | some providers => providers.contains provider

/-- `isModelAllowed`, with the reason of a denial. -/
def isModelAllowed (policy : Option ApiKeyPolicy) (provider modelId : String)
    (tier : Option ModelTier) : Except String Unit :=
  match policy.bind fun p ↦ p.models with
  | none => .ok ()
  | some models =>
    match models.mode, tier with
    | .all, _ => .ok ()
    | .list, _ =>
      if (models.list.getD []).contains modelId then .ok ()
      else .error ("Model '" ++ modelId ++ "' on provider '" ++ provider ++
        "' is not in this API key's allowed model list.")
    | .freeOnly, some .free => .ok ()
    | .freeOnly, some .paid => .error ("Model '" ++ modelId ++ "' on provider '" ++ provider ++
        "' is a paid-tier model; this API key is restricted to free-tier models.")
    | .freeOnly, none => .error ("Model '" ++ modelId ++ "' on provider '" ++ provider ++
        "' is not recorded as free-tier in the model catalog; " ++
        "this API key is restricted to free-tier models (unknown tier is denied, fail-closed).")

/-- `resolveProviderKeyEnv`. -/
def resolveProviderKeyEnv (policy : Option ApiKeyPolicy) (provider : String) : Option String :=
  match policy.bind fun p ↦ p.providerKeys.bind (·.lookup provider) with
  | some (.env name) => some name
  | some (.references _) => none
  | none => none

/-! ### What the gates let through -/

variable {policy : ApiKeyPolicy} {provider : String}

@[simp]
theorem isProviderAllowed_none : isProviderAllowed none provider = true :=
  rfl

end ModelConnector.Policy
