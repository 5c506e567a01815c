import ModelConnector.Connectors.Capabilities

/-!
# Advertised and executable

What a key is shown against what the gates of `execute` let through. Without a policy, and under one
of the first version, the two agree: visibility asks for the binding the request will use. A policy
of the second version binds a provider to a registered credential, which visibility does not look
up: it asks for the shared one. Such a provider is shown, and every request for it is refused,
unless the registered credential resolves.
-/

namespace ModelConnector.Connectors

open Policy

/-! ### The credential -/

section Credential

variable {r : ConnectorRegistry} {connectorName apiKeyId : String} {request : ServiceExecuteRequest}
  {policy : Option ApiKeyPolicy}

/-- What can be seen of a provider that can be read is what the gates of the credential ask. -/
theorem canAdvertiseForPolicy_iff {w : World} (hread : w.canRead connectorName = true) :
    w.canAdvertiseForPolicy connectorName policy = true ↔
      ((resolveProviderKeyEnv policy connectorName).all fun name ↦ (w.env name).isSome) = true ∧
      w.isCredentialReadyForPolicy connectorName policy = true := by
  unfold World.canAdvertiseForPolicy
  cases henv : resolveProviderKeyEnv policy connectorName with
  | none =>
    by_cases hmanaged : isManaged connectorName = true
    · simp [hread, hmanaged]
    · simp [hread, hmanaged, World.canAdvertise]
  | some name =>
    cases hvalue : w.env name with
    | none => simp [hread, hvalue]
    | some credential =>
      by_cases hmanaged : isManaged connectorName = true
      · simp [hread, hvalue, hmanaged]
      · simp [hread, hvalue, hmanaged, World.isCredentialReadyForPolicy, henv]

/-- The gates of the credential. -/
theorem credentialGate_eq_ok {d : Deployment} {u : Unit} :
    credentialGate d connectorName request policy = .ok u ↔
      ((resolveProviderKeyEnv policy connectorName).all fun name ↦ (d.env name).isSome) = true ∧
      d.isCredentialReadyForPolicy connectorName policy = true := by
  simp only [credentialGate, Except.bind_eq_ok, gate_eq_ok]
  exact ⟨fun ⟨_, h, h'⟩ ↦ ⟨h, h'⟩, fun ⟨h, h'⟩ ↦ ⟨(), h, h'⟩⟩

/-- Under a policy of the second version, the key is that of the registered credential. -/
theorem keyOverride_of_v2 {d : Deployment} {policy : ApiKeyPolicy}
    (hv : policy.policyVersion = .v2) :
    (∃ o, keyOverride d connectorName request (some policy) apiKeyId = .ok o) ↔
      (resolveRegisteredCredential d connectorName policy apiKeyId).isSome = true := by
  simp only [keyOverride, hv]
  cases resolveRegisteredCredential d connectorName policy apiKeyId with
  | none => simp
  | some o => simp

/-- Under one of the first version, it is that of the variable the gates asked for. -/
theorem keyOverride_of_v1 {d : Deployment} {policy : ApiKeyPolicy}
    (hv : policy.policyVersion = .v1) :
    (∃ o, keyOverride d connectorName request (some policy) apiKeyId = .ok o) ↔
      ((resolveProviderKeyEnv (some policy) connectorName).all fun name ↦ (d.env name).isSome)
        = true := by
  simp only [keyOverride, hv]
  cases henv : resolveProviderKeyEnv (some policy) connectorName with
  | none => simp
  | some name =>
    by_cases hvalue : (d.env name).isSome = true
    · simp [hvalue]
    · simp [hvalue]

end Credential

/-! ### The models -/

section Models

variable {r : ConnectorRegistry} {connectorName : String} {request : ServiceExecuteRequest}
  {policy : ApiKeyPolicy} {model : String}

theorem modelAllowed_of_not_restricts (h : restrictsModels policy = false) :
    r.modelAllowed policy connectorName model = true := by
  unfold ConnectorRegistry.modelAllowed isModelAllowed
  cases hmodels : policy.models with
  | none => simp [hmodels, Except.isOk, Except.toBool]
  | some models =>
    have hall : models.mode = .all := by simpa [restrictsModels, hmodels] using h
    simp [hmodels, hall, Except.isOk, Except.toBool]

/-- A model passes the gate when the policy allows it, and it is named where models are restricted.
-/
theorem modelGate_eq_ok (hmodel : request.model = some model) :
    modelGate r.deployment connectorName request (some policy) = .ok () ↔
      r.modelAllowed policy connectorName model = true ∧
        (restrictsModels policy = true → model ≠ "") := by
  cases hmodels : policy.models with
  | none =>
    have hfree : restrictsModels policy = false := by simp [restrictsModels, hmodels]
    simp [modelGate, hmodels, modelAllowed_of_not_restricts hfree, hfree]
  | some models =>
    by_cases hall : models.mode = .all
    · have hfree : restrictsModels policy = false := by simp [restrictsModels, hmodels, hall]
      simp [modelGate, hmodels, hall, modelAllowed_of_not_restricts hfree, hfree]
    · have hrestricts : restrictsModels policy = true := by simp [restrictsModels, hmodels, hall]
      by_cases hnamed : model = ""
      · simp [modelGate, hmodels, hall, hmodel, hnamed, hrestricts, Option.filter]
      · have htier : (if models.mode = .freeOnly then r.deployment.tierOf connectorName model
            else Except.ok none) = .ok (if models.mode = .freeOnly then
              r.getTier connectorName model else none) := by
          split <;> rfl
        simp only [modelGate, Option.bind_some, hmodels, if_neg hall, hmodel, Option.filter_some,
          hnamed, ne_eq, not_false_eq_true, decide_true, if_true, htier,
          ConnectorRegistry.modelAllowed, Option.any_some, decide_eq_true_eq, implies_true,
          and_true]
        cases isModelAllowed (some policy) connectorName model
            (if models.mode = .freeOnly then r.getTier connectorName model else none) with
        | ok u => simp [Except.isOk, Except.toBool]
        | error reason => simp [Except.isOk, Except.toBool]

end Models

/-! ### What is listed, and what passes -/

section Agreement

variable {r : ConnectorRegistry} {apiKeyId connectorName model : String}
  {request : ServiceExecuteRequest}

/-- What the policy leaves of the capabilities of a connector has its name, and the models of the
connector that are allowed. -/
theorem mem_allowedCapabilities {policy : ApiKeyPolicy} {caps : DeclaredCapabilities}
    (hcaps : caps ∈ r.listCapabilities) :
    (∃ left ∈ r.allowedCapabilities policy caps, left.name = connectorName ∧ model ∈ left.models) ↔
      caps.name = connectorName ∧ model ∈ caps.models ∧
        isProviderAllowed (some policy) connectorName = true ∧
        r.modelAllowed policy connectorName model = true := by
  unfold ConnectorRegistry.allowedCapabilities
  by_cases hprovider : isProviderAllowed (some policy) caps.name = true
  case neg =>
    simp only [hprovider, Bool.not_false, if_true, Option.mem_def, reduceCtorEq, false_and,
      exists_false, false_iff]
    rintro ⟨rfl, -, h, -⟩
    exact hprovider h
  cases hrestricts : restrictsModels policy with
  | false =>
    simp only [hprovider, Bool.not_true, Bool.false_eq_true, if_false, Bool.not_false, if_true,
      Option.mem_def, Option.some.injEq, exists_eq_left']
    constructor
    · rintro ⟨rfl, hmodel⟩
      exact ⟨rfl, hmodel, hprovider, modelAllowed_of_not_restricts hrestricts⟩
    · rintro ⟨rfl, hmodel, -⟩
      exact ⟨rfl, hmodel⟩
  | true =>
    -- the models of the connector are those its catalogue describes
    have hids : model ∈ (caps.metas.filter fun info ↦
          r.modelAllowed policy caps.name info.id).map ProviderModelMeta.id ↔
        model ∈ caps.models ∧ r.modelAllowed policy caps.name model = true := by
      rw [r.same_models caps hcaps]
      constructor
      · intro h
        obtain ⟨info, hinfo, rfl⟩ := List.mem_map.1 h
        obtain ⟨hmem, hallowed⟩ := List.mem_filter.1 hinfo
        exact ⟨List.mem_map_of_mem hmem, hallowed⟩
      · rintro ⟨h, hallowed⟩
        obtain ⟨info, hinfo, rfl⟩ := List.mem_map.1 h
        exact List.mem_map_of_mem (List.mem_filter.2 ⟨hinfo, hallowed⟩)
    simp only [hprovider, Bool.not_true, Bool.false_eq_true, if_false]
    split
    · rename_i hempty
      rw [List.isEmpty_iff.1 hempty] at hids
      constructor
      · rintro ⟨left, h, -⟩
        cases h
      · rintro ⟨rfl, hmodel, -, hallowed⟩
        cases hids.2 ⟨hmodel, hallowed⟩
    · simp only [Option.mem_def, Option.some.injEq, exists_eq_left']
      constructor
      · rintro ⟨rfl, hmodel⟩
        obtain ⟨hmem, hallowed⟩ := hids.1 ((firsts_sublist []).subset hmodel)
        exact ⟨rfl, hmem, hprovider, hallowed⟩
      · rintro ⟨rfl, hmodel, -, hallowed⟩
        obtain ⟨kept, hkept, heq, -⟩ := exists_mem_firsts id (hids.2 ⟨hmodel, hallowed⟩)
        rw [show kept = model from heq] at hkept
        exact ⟨rfl, hkept⟩

/-- A model is listed when its provider can be seen under the policy, and the policy allows both. -/
theorem lists_iff {policy : Option ApiKeyPolicy} (hpolicy : r.policyOf apiKeyId = .ok policy) :
    r.Lists apiKeyId connectorName model ↔
      (∃ caps ∈ r.listCapabilities, caps.name = connectorName ∧ model ∈ caps.models) ∧
        r.canAdvertiseForPolicy connectorName policy = true ∧
        ∀ p, policy = some p → isProviderAllowed (some p) connectorName = true ∧
          r.modelAllowed p connectorName model = true := by
  simp only [ConnectorRegistry.Lists, ConnectorRegistry.listCapabilitiesForKey,
    World.callerPolicy, hpolicy]
  cases policy with
  | none =>
    constructor
    · rintro ⟨caps, hmem, rfl, hmodel⟩
      obtain ⟨hcaps, hseen⟩ := List.mem_filter.1 hmem
      exact ⟨⟨caps, hcaps, rfl, hmodel⟩, hseen, nofun⟩
    · rintro ⟨⟨caps, hcaps, rfl, hmodel⟩, hseen, -⟩
      exact ⟨caps, List.mem_filter.2 ⟨hcaps, hseen⟩, rfl, hmodel⟩
  | some policy =>
    constructor
    · rintro ⟨left, hmem, hname, hmodel⟩
      obtain ⟨caps, hmem, hleft⟩ := List.mem_filterMap.1 hmem
      obtain ⟨hcaps, hseen⟩ := List.mem_filter.1 hmem
      obtain ⟨rfl, hmodel, hprovider, hallowed⟩ :=
        (mem_allowedCapabilities hcaps).1 ⟨left, hleft, hname, hmodel⟩
      refine ⟨⟨caps, hcaps, rfl, hmodel⟩, hseen, fun p h ↦ ?_⟩
      cases h
      exact ⟨hprovider, hallowed⟩
    · rintro ⟨⟨caps, hcaps, hname, hmodel⟩, hseen, hallowed⟩
      obtain ⟨hprovider, hallowed⟩ := hallowed policy rfl
      obtain ⟨left, hleft, hname', hmodel⟩ :=
        (mem_allowedCapabilities hcaps).2 ⟨hname, hmodel, hprovider, hallowed⟩
      rw [← hname] at hseen
      exact ⟨left, List.mem_filterMap.2 ⟨caps, List.mem_filter.2 ⟨hcaps, hseen⟩, hleft⟩, hname',
        hmodel⟩

/-- A request for a model passes when its credential is ready, the policy allows provider and model,
the model is named where models are restricted, and the registered credential resolves where the
policy is bound to one. -/
theorem passes_iff {policy : Option ApiKeyPolicy} (hpolicy : r.policyOf apiKeyId = .ok policy)
    (hread : r.canRead connectorName = true) (hmodel : request.model = some model) :
    Passes r.deployment connectorName request apiKeyId ↔
      r.canAdvertiseForPolicy connectorName policy = true ∧
        ∀ p, policy = some p → isProviderAllowed (some p) connectorName = true ∧
          r.modelAllowed p connectorName model = true ∧
          (restrictsModels p = true → model ≠ "") ∧
          (p.policyVersion = .v2 →
            (resolveRegisteredCredential r.deployment connectorName p apiKeyId).isSome = true) := by
  have hreadPolicy : readPolicy r.deployment request true apiKeyId = .ok policy := by
    unfold readPolicy
    simp only [Bool.not_true, Bool.false_eq_true, if_false]
    rw [show r.deployment.policyOf apiKeyId = .ok policy from hpolicy]
  -- the gates in the order in which the service goes through them
  have hsteps : Passes r.deployment connectorName request apiKeyId ↔
      isProviderAllowed policy connectorName = true ∧
      credentialGate r.deployment connectorName request policy = .ok () ∧
      modelGate r.deployment connectorName request policy = .ok () ∧
      ∃ o, keyOverride r.deployment connectorName request policy apiKeyId = .ok o := by
    simp only [Passes, policyGates, Except.bind_eq_ok, hreadPolicy, providerGate, gate_eq_ok,
      Except.ok.injEq, exists_eq_left']
    constructor
    · rintro ⟨o, _, hp, _, hc, _, hm, ho⟩
      exact ⟨hp, hc, hm, o, ho⟩
    · rintro ⟨hp, hc, hm, o, ho⟩
      exact ⟨o, (), hp, (), hc, (), hm, ho⟩
  rw [hsteps, credentialGate_eq_ok,
    show r.canAdvertiseForPolicy connectorName policy = true ↔ _ from
      canAdvertiseForPolicy_iff hread]
  cases policy with
  | none =>
    constructor
    · rintro ⟨-, hcredential, -, -⟩
      exact ⟨hcredential, fun _ h ↦ (by cases h)⟩
    · rintro ⟨hcredential, -⟩
      exact ⟨rfl, hcredential, rfl, none, rfl⟩
  | some policy =>
    rw [modelGate_eq_ok hmodel]
    constructor
    · rintro ⟨hprovider, hcredential, ⟨hallowed, hnamed⟩, hkey⟩
      refine ⟨hcredential, fun p h ↦ ?_⟩
      cases h
      exact ⟨hprovider, hallowed, hnamed, fun hv ↦ (keyOverride_of_v2 hv).1 hkey⟩
    · rintro ⟨hcredential, h⟩
      obtain ⟨hprovider, hallowed, hnamed, hbound⟩ := h policy rfl
      refine ⟨hprovider, hcredential, ⟨hallowed, hnamed⟩, ?_⟩
      cases hv : policy.policyVersion with
      | v1 => exact (keyOverride_of_v1 hv).2 hcredential.1
      | v2 => exact (keyOverride_of_v2 hv).2 (hbound hv)

/-- What is listed for a key, of the providers that can be read and used, is what it can execute. -/
def AdvertisedExecutes (r : ConnectorRegistry) (apiKeyId : String) : Prop :=
  ∀ caps ∈ r.listCapabilities, r.access caps.name = { read := true, use := true } →
    ∀ model ∈ caps.models, ∀ request : ServiceExecuteRequest, request.model = some model →
      (r.Lists apiKeyId caps.name model ↔ Passes r.deployment caps.name request apiKeyId)

/-- Where a provider can be seen under the policy of a key, and the policy allows it and one of its
models, the registered credential of a policy of the second version resolves. Where models are
restricted, the model has a name. -/
def BoundWhereSeen (r : ConnectorRegistry) (apiKeyId : String) : Prop :=
  ∀ policy, r.policyOf apiKeyId = .ok (some policy) →
    ∀ caps ∈ r.listCapabilities, r.access caps.name = { read := true, use := true } →
      ∀ model ∈ caps.models, r.canAdvertiseForPolicy caps.name (some policy) = true →
        isProviderAllowed (some policy) caps.name = true →
        r.modelAllowed policy caps.name model = true →
          (restrictsModels policy = true → model ≠ "") ∧
          (policy.policyVersion = .v2 →
            (resolveRegisteredCredential r.deployment caps.name policy apiKeyId).isSome = true)

/-- A key is shown what it can execute exactly when the registered credentials of what it sees
resolve. -/
theorem advertisedExecutes_iff : AdvertisedExecutes r apiKeyId ↔ BoundWhereSeen r apiKeyId := by
  constructor
  · intro h policy hpolicy caps hcaps haccess model hmodel hseen hprovider hallowed
    have hread : r.canRead caps.name = true := by rw [World.canRead, haccess]
    have hlists : r.Lists apiKeyId caps.name model := by
      refine (lists_iff hpolicy).2 ⟨⟨caps, hcaps, rfl, hmodel⟩, hseen, fun p hp ↦ ?_⟩
      cases hp
      exact ⟨hprovider, hallowed⟩
    have hpasses := (h caps hcaps haccess model hmodel { model := some model } rfl).1 hlists
    exact (((passes_iff hpolicy hread rfl).1 hpasses).2 policy rfl).2.2
  · intro h caps hcaps haccess model hmodel request hrequest
    have hread : r.canRead caps.name = true := by rw [World.canRead, haccess]
    cases hpolicy : r.policyOf apiKeyId with
    | error e =>
      constructor
      · rintro ⟨caps, hmem, -⟩
        rw [ConnectorRegistry.listCapabilitiesForKey, World.callerPolicy, hpolicy] at hmem
        cases hmem
      · rintro ⟨o, ho⟩
        obtain ⟨policy, hread, -⟩ := Except.bind_ok ho
        cases hpolicy.symm.trans (readPolicy_ok hread)
    | ok policy =>
      rw [lists_iff hpolicy, passes_iff hpolicy hread hrequest]
      constructor
      · rintro ⟨-, hseen, hallowed⟩
        refine ⟨hseen, fun p hp ↦ ?_⟩
        cases hp
        obtain ⟨hprovider, hmodels⟩ := hallowed p rfl
        exact ⟨hprovider, hmodels,
          h p hpolicy caps hcaps haccess model hmodel hseen hprovider hmodels⟩
      · rintro ⟨hseen, hallowed⟩
        exact ⟨⟨caps, hcaps, rfl, hmodel⟩, hseen,
          fun p hp ↦ ⟨(hallowed p hp).1, (hallowed p hp).2.1⟩⟩

end Agreement

/-- A key whose policy binds a provider to a credential that is not registered. The shared
credential of the provider is set. -/
def unregistered : ConnectorRegistry where
  rows := []
  policyOf _ := .ok (some
    { policyVersion := .v2
      profile := some { id := "mail", revision := "r1", accountingBucket := "mail" }
      providers := some ["deepseek"]
      providerKeys :=
        some [("deepseek", .references [{ credentialRef := "mail", version := "v1" }])]
      accepted_eq := by decide +kernel })
  access _ := { read := true, use := true }
  env name := if name = "DEEPSEEK_API_KEY" then some "shared" else none
  measured _ := .ready
  measuredWith _ _ := .ready
  status _ := .ready
  listCapabilities := [{ name := "deepseek", models := ["deepseek-chat"] }]
  getTier _ _ := none
  credentialRegistry := some []
  same_models := by
    intro caps hcaps model
    rw [List.mem_singleton.1 hcaps]
    rfl

theorem unregistered_seen : ¬ AdvertisedExecutes unregistered "client" := by
  intro h
  have hpasses := h _ List.mem_cons_self rfl "deepseek-chat" List.mem_cons_self
    { model := some "deepseek-chat" } rfl
  have hlists : unregistered.Lists "client" "deepseek" "deepseek-chat" := by decide +kernel
  have hrefused : (policyGates unregistered.deployment "deepseek"
    { model := some "deepseek-chat" } "client").isOk = false := by decide +kernel
  obtain ⟨o, ho⟩ := hpasses.1 hlists
  rw [ho] at hrefused
  cases hrefused

end ModelConnector.Connectors
