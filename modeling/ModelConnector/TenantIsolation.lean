import Mathlib.Data.List.Dedup
import ModelConnector.SessionConstancy

/-!
# The isolation of tenants in the prompt cache

A prefix and a session belong to the tenant they were first let through for. A request whose body
cannot be read is let through without being asked for its session, so ownership is a property of the
requests that can be read. A refused request leaves no trace in the store.
-/

namespace ModelConnector.PromptCache

/-! ### Owners -/

section Owners

variable {owners : AList fun _ : String ↦ Owner} {maxOwners : ℕ} {key tenantId : String} {nowMs : ℕ}

/-- The owner of a key, once it is claimed while there is room. -/
theorem lookup_claim (hroom : key ∉ owners → owners.entries.length < maxOwners) (k : String) :
    ((claim maxOwners owners key tenantId nowMs).lookup k).map Owner.tenantId =
      if k = key then some (((owners.lookup key).map Owner.tenantId).getD tenantId)
      else (owners.lookup k).map Owner.tenantId := by
  unfold claim
  cases hlookup : owners.lookup key with
  | some owner =>
    rw [Option.isSome_some, if_pos rfl]
    split
    · rename_i hk
      rw [hk, hlookup]
      rfl
    · rfl
  | none =>
    have hmem : key ∉ owners := AList.lookup_eq_none.1 hlookup
    have hnewest : newest maxOwners (owners.insert key ⟨tenantId, nowMs⟩) =
        owners.insert key ⟨tenantId, nowMs⟩ := by
      refine AList.ext (List.take_of_length_le ?_)
      rw [AList.entries_insert_of_notMem hmem, List.length_cons]
      exact hroom hmem
    rw [Option.isSome_none, if_neg Bool.false_ne_true, hnewest]
    split
    · rename_i hk
      rw [hk, AList.lookup_insert]
      rfl
    · rename_i hk
      rw [AList.lookup_insert_ne hk]

/-- Claiming a key adds no other. -/
theorem mem_of_mem_claim {k : String} (h : k ∈ claim maxOwners owners key tenantId nowMs) :
    k = key ∨ k ∈ owners := by
  unfold claim at h
  split at h
  · exact .inr h
  · have hkeys : k ∈ (owners.insert key ⟨tenantId, nowMs⟩).keys :=
      ((List.take_sublist _ _).map Sigma.fst).subset (AList.mem_keys.1 h)
    exact (AList.mem_insert _).1 (AList.mem_keys.2 hkeys)

/-- A map has no more entries than a list that has all its keys has different elements. -/
theorem length_le_dedup {keys : List String} (h : ∀ k ∈ owners, k ∈ keys) :
    owners.entries.length ≤ keys.dedup.length := by
  have hlength : owners.keys.length = owners.entries.length := by
    rw [AList.keys, List.keys, List.length_map]
  rw [← hlength]
  exact (List.subperm_of_subset owners.keys_nodup fun k hk ↦
    List.mem_dedup.2 (h k (AList.mem_keys.2 hk))).length_le

end Owners

/-! ### Runs -/

section Runs

variable {sha256Text : String → String} {options : EvaluateOptions}
  {h : List (PolicyStore × EvaluateCall)} {s : PolicyStore}

/-- A request is let through. -/
structure LetThrough (sha256Text : String → String) (options : EvaluateOptions)
    (p : PolicyStore × EvaluateCall) (decision : PromptCachePolicyDecision) : Prop where
  decided : (evaluatePromptCachePolicy sha256Text options p.2 p.1).1 = .ok decision
  passed : decision.action ≠ .refuse

/-- The prefix of a request, if its body can be read. -/
def prefixOf (sha256Text : String → String) (p : PolicyStore × EvaluateCall) : Option String :=
  (derive sha256Text p.2.body).toOption.map Derivation.prefixHash

/-- The session a request names. -/
def sessionIdOf (p : PolicyStore × EvaluateCall) : Option String :=
  p.2.ctx.sessionId

/-- The owners of the store are those of the requests let through so far. -/
structure Owned (sha256Text : String → String) (options : EvaluateOptions)
    (h : List (PolicyStore × EvaluateCall)) (s : PolicyStore) : Prop where
  prefixes : ∀ k ∈ s.prefixOwners, k ∈ h.filterMap (prefixOf sha256Text)
  sessions : ∀ k ∈ s.sessionOwners, k ∈ h.filterMap sessionIdOf
  prefixOwner : ∀ p ∈ h, ∀ d session decision,
    Recorded sha256Text options p.2 p.1 d session decision →
      s.prefixOwner d.prefixHash = some p.2.ctx.tenant
  sessionOwner : ∀ p ∈ h, ∀ d session decision,
    Recorded sha256Text options p.2 p.1 d session decision →
      ∀ id, p.2.ctx.sessionId = some id → s.sessionOwner id = some p.2.ctx.tenant

/-- What a recorded request does to the owners of prefixes. -/
theorem Recorded.prefixOwners_eq {call : EvaluateCall} {store : PolicyStore} {d : Derivation}
    {session : SessionEvaluation} {decision : PromptCachePolicyDecision}
    (hrec : Recorded sha256Text options call store d session decision) :
    (evaluatePromptCachePolicy sha256Text options call store).2.prefixOwners =
      claim options.limits.maxOwners store.prefixOwners d.prefixHash call.ctx.tenant
        call.nowMs := by
  rw [hrec.result]
  unfold record
  dsimp only
  split
  · unfold PolicyStore.setSession
    dsimp only
    split <;> rfl
  · rfl

/-- What a recorded request does to the owners of sessions. -/
theorem Recorded.sessionOwners_eq {call : EvaluateCall} {store : PolicyStore} {d : Derivation}
    {session : SessionEvaluation} {decision : PromptCachePolicyDecision}
    (hmode : options.mode = .enforce)
    (hrec : Recorded sha256Text options call store d session decision) :
    (evaluatePromptCachePolicy sha256Text options call store).2.sessionOwners =
      match call.ctx.sessionId with
      | none => store.sessionOwners
      | some id =>
        claim options.limits.maxOwners store.sessionOwners id call.ctx.tenant call.nowMs := by
  rw [hrec.result]
  cases hcall : call.ctx.sessionId with
  | none =>
    unfold record
    simp only [hcall]
    rfl
  | some id =>
    obtain ⟨-, -, snapshot, -, -, hnext, -⟩ :=
      evaluateSession_ok (hrec.evaluateSession_eq hmode hcall)
    simp only [record, hcall, hnext, PolicyStore.setSession]
    split <;> rfl

/-- A prefix that is let through has no other owner. -/
theorem Recorded.prefixOwner_eq {call : EvaluateCall} {store : PolicyStore} {d : Derivation}
    {session : SessionEvaluation} {decision : PromptCachePolicyDecision}
    (hmode : options.mode = .enforce)
    (hrec : Recorded sha256Text options call store d session decision) :
    (store.prefixOwner d.prefixHash).getD call.ctx.tenant = call.ctx.tenant := by
  cases howner : store.prefixOwner d.prefixHash with
  | none => rfl
  | some owner =>
    by_contra hne
    have hmem : gatewayFinding .CROSS_TENANT_PREFIX .wholePrefix
        "prefix_hash first cached under another tenant" ∈ decision.findings := by
      rw [hrec.findings_eq, prefixFindings, howner]
      have hother : owner ≠ call.ctx.tenant := hne
      simp [hother]
    exact (hrec.severity_ne hmode hmem).2 rfl

/-- A session that is let through has no other owner. -/
theorem Recorded.sessionOwner_eq {call : EvaluateCall} {store : PolicyStore} {d : Derivation}
    {session : SessionEvaluation} {decision : PromptCachePolicyDecision} {id : String}
    (hmode : options.mode = .enforce)
    (hrec : Recorded sha256Text options call store d session decision)
    (hcall : call.ctx.sessionId = some id) :
    (store.sessionOwner id).getD call.ctx.tenant = call.ctx.tenant := by
  cases howner : store.sessionOwner id with
  | none => rfl
  | some owner =>
    by_contra hne
    have heval := hrec.evaluated
    have hany : ((some owner).any fun o ↦ decide (o ≠ call.ctx.tenant)) = true :=
      decide_eq_true hne
    simp only [evaluateSessionOf, hcall, howner, hany, if_true] at heval
    cases heval
    have hmem : gatewayFinding .SESSION_TENANT_MISMATCH .session
        "session_id is owned by another tenant" ∈ decision.findings := by
      rw [hrec.findings_eq]
      simp
    exact (hrec.severity_ne hmode hmem).1 rfl

/-- The owner of a prefix after a recorded request, if there is room. -/
theorem Recorded.prefixOwner_after {call : EvaluateCall} {store : PolicyStore} {d : Derivation}
    {session : SessionEvaluation} {decision : PromptCachePolicyDecision}
    (hmode : options.mode = .enforce)
    (hrec : Recorded sha256Text options call store d session decision)
    (hroom : store.prefixOwners.entries.length < options.limits.maxOwners) (k : String) :
    (evaluatePromptCachePolicy sha256Text options call store).2.prefixOwner k =
      if k = d.prefixHash then some call.ctx.tenant else store.prefixOwner k := by
  have howner := hrec.prefixOwner_eq hmode
  rw [PolicyStore.prefixOwner] at howner
  rw [PolicyStore.prefixOwner, hrec.prefixOwners_eq, lookup_claim fun _ ↦ hroom, howner]
  rfl

/-- The owner of a session after a recorded request, if there is room. -/
theorem Recorded.sessionOwner_after {call : EvaluateCall} {store : PolicyStore} {d : Derivation}
    {session : SessionEvaluation} {decision : PromptCachePolicyDecision}
    (hmode : options.mode = .enforce)
    (hrec : Recorded sha256Text options call store d session decision)
    (hroom : store.sessionOwners.entries.length < options.limits.maxOwners) (k : String) :
    (evaluatePromptCachePolicy sha256Text options call store).2.sessionOwner k =
      if call.ctx.sessionId = some k then some call.ctx.tenant else store.sessionOwner k := by
  rw [PolicyStore.sessionOwner, hrec.sessionOwners_eq hmode]
  cases hcall : call.ctx.sessionId with
  | none => simp [PolicyStore.sessionOwner]
  | some id =>
    have howner := hrec.sessionOwner_eq hmode hcall
    rw [PolicyStore.sessionOwner] at howner
    dsimp only
    rw [lookup_claim fun _ ↦ hroom, howner]
    simp only [Option.some.injEq, eq_comm (a := k)]
    rfl

/-- A recorded request claims nothing but its prefix. -/
theorem Recorded.mem_prefixOwners {call : EvaluateCall} {store : PolicyStore} {d : Derivation}
    {session : SessionEvaluation} {decision : PromptCachePolicyDecision} {k : String}
    (hrec : Recorded sha256Text options call store d session decision)
    (h : k ∈ (evaluatePromptCachePolicy sha256Text options call store).2.prefixOwners) :
    prefixOf sha256Text (store, call) = some k ∨ k ∈ store.prefixOwners := by
  rw [hrec.prefixOwners_eq] at h
  refine (mem_of_mem_claim h).imp_left fun hk ↦ ?_
  simp [prefixOf, hrec.derived, Except.toOption, hk]

/-- Nor anything but its session. -/
theorem Recorded.mem_sessionOwners {call : EvaluateCall} {store : PolicyStore} {d : Derivation}
    {session : SessionEvaluation} {decision : PromptCachePolicyDecision} {k : String}
    (hmode : options.mode = .enforce)
    (hrec : Recorded sha256Text options call store d session decision)
    (h : k ∈ (evaluatePromptCachePolicy sha256Text options call store).2.sessionOwners) :
    sessionIdOf (store, call) = some k ∨ k ∈ store.sessionOwners := by
  rw [hrec.sessionOwners_eq hmode] at h
  cases hcall : call.ctx.sessionId with
  | none =>
    rw [hcall] at h
    exact .inr h
  | some id =>
    rw [hcall] at h
    refine (mem_of_mem_claim h).imp_left fun hk ↦ ?_
    rw [hk]
    exact hcall

/-- What the requests of a history name, those of a longer one name too. -/
theorem mem_filterMap_snoc {α β : Type} {f : α → Option β} {l : List α} {a : α} {k : β} :
    k ∈ (l ++ [a]).filterMap f ↔ k ∈ l.filterMap f ∨ f a = some k := by
  rw [List.filterMap_append, List.mem_append]
  exact or_congr_right (by simp [List.mem_filterMap])

/-- Nothing changes when a request is not recorded. -/
theorem Owned.unrecorded {call : EvaluateCall} (howned : Owned sha256Text options h s)
    (hnot : ∀ d session decision, ¬Recorded sha256Text options call s d session decision) :
    Owned sha256Text options (h ++ [(s, call)]) s where
  prefixes k hk := mem_filterMap_snoc.2 (.inl (howned.prefixes k hk))
  sessions k hk := mem_filterMap_snoc.2 (.inl (howned.sessions k hk))
  prefixOwner p hp d session decision hrec := by
    rcases List.mem_append.1 hp with hp | hp
    · exact howned.prefixOwner p hp d session decision hrec
    · rw [List.mem_singleton.1 hp] at hrec
      exact absurd hrec (hnot _ _ _)
  sessionOwner p hp d session decision hrec := by
    rcases List.mem_append.1 hp with hp | hp
    · exact howned.sessionOwner p hp d session decision hrec
    · rw [List.mem_singleton.1 hp] at hrec
      exact absurd hrec (hnot _ _ _)

/-- A request that is recorded takes what it names from nobody. -/
theorem Owned.recorded {call : EvaluateCall} {d : Derivation} {session : SessionEvaluation}
    {decision : PromptCachePolicyDecision} (howned : Owned sha256Text options h s)
    (hmode : options.mode = .enforce)
    (hrec : Recorded sha256Text options call s d session decision)
    (hprefixes : (h.filterMap (prefixOf sha256Text)).dedup.length < options.limits.maxOwners)
    (hsessions : (h.filterMap sessionIdOf).dedup.length < options.limits.maxOwners) :
    Owned sha256Text options (h ++ [(s, call)])
      (evaluatePromptCachePolicy sha256Text options call s).2 where
  prefixes k hk := mem_filterMap_snoc.2
    ((hrec.mem_prefixOwners hk).symm.imp_left (howned.prefixes k))
  sessions k hk := mem_filterMap_snoc.2
    ((hrec.mem_sessionOwners hmode hk).symm.imp_left (howned.sessions k))
  prefixOwner p hp d' session' decision' hrec' := by
    rw [hrec.prefixOwner_after hmode ((length_le_dedup howned.prefixes).trans_lt hprefixes)]
    rcases List.mem_append.1 hp with hp | hp
    · have hbefore := howned.prefixOwner p hp d' session' decision' hrec'
      split
      · rename_i heq
        have howner := hrec.prefixOwner_eq hmode
        rw [← heq, hbefore] at howner
        exact congrArg some howner.symm
      · exact hbefore
    · rw [List.mem_singleton.1 hp] at hrec' ⊢
      have hd : d' = d := Except.ok.inj (hrec'.derived.symm.trans hrec.derived)
      rw [hd, if_pos rfl]
  sessionOwner p hp d' session' decision' hrec' id hid := by
    rw [hrec.sessionOwner_after hmode ((length_le_dedup howned.sessions).trans_lt hsessions)]
    rcases List.mem_append.1 hp with hp | hp
    · have hbefore := howned.sessionOwner p hp d' session' decision' hrec' id hid
      split
      · rename_i heq
        have howner := hrec.sessionOwner_eq hmode heq
        rw [hbefore] at howner
        exact congrArg some howner.symm
      · exact hbefore
    · rw [List.mem_singleton.1 hp] at hid ⊢
      rw [if_pos hid]

/-- Nothing is forgotten of the owners in a run with fewer prefixes and sessions than there is room
for. -/
theorem owned_of_run (hmode : options.mode = .enforce)
    (hr : Run (evaluateStep sha256Text options) {} h s)
    (hprefixes : (h.filterMap (prefixOf sha256Text)).dedup.length < options.limits.maxOwners)
    (hsessions : (h.filterMap sessionIdOf).dedup.length < options.limits.maxOwners) :
    Owned sha256Text options h s := by
  induction hr with
  | nil =>
    have hnone := fun k ↦ AList.notMem_empty (α := String) (β := fun _ ↦ Owner) k
    exact ⟨fun k hk ↦ absurd hk (hnone k), fun k hk ↦ absurd hk (hnone k),
      fun p hp ↦ (by cases hp), fun p hp ↦ (by cases hp)⟩
  | @snoc h s s' call _ hstep ih =>
    have hfewer : ∀ f : PolicyStore × EvaluateCall → Option String,
        (h.filterMap f).dedup.length ≤ ((h ++ [(s, call)]).filterMap f).dedup.length := fun f ↦ by
      refine (List.subperm_of_subset (List.nodup_dedup _) fun k hk ↦ ?_).length_le
      rw [List.mem_dedup] at hk ⊢
      exact mem_filterMap_snoc.2 (.inl hk)
    have hprefixes := (hfewer _).trans_lt hprefixes
    have hsessions := (hfewer _).trans_lt hsessions
    have howned := ih hprefixes hsessions
    cases hstep
    rcases evaluate_cases sha256Text options call s with
      ⟨hsame, hnone⟩ | ⟨d, session, decision, hrec⟩
    · rw [hsame]
      refine howned.unrecorded fun d session decision hrec ↦ ?_
      rcases hnone decision (by rw [hrec.result]) with hrefused | ⟨-, hhash, -⟩
      · exact hrec.passed hrefused
      · rw [hrec.prefix_hash_eq] at hhash
        cases hhash
    · exact howned.recorded hmode hrec hprefixes hsessions

/-- The decisions on calls that follow each other. -/
def decisionsFrom (sha256Text : String → String) (options : EvaluateOptions) :
    PolicyStore → List EvaluateCall → List (Except String PromptCachePolicyDecision)
  | _, [] => []
  | store, call :: later =>
    (evaluatePromptCachePolicy sha256Text options call store).1 ::
      decisionsFrom sha256Text options (evaluatePromptCachePolicy sha256Text options call store).2
        later

/-- A request that is let through with a prefix is recorded under it. -/
theorem LetThrough.recorded_of_prefix {p : PolicyStore × EvaluateCall}
    {decision : PromptCachePolicyDecision} {hash : String}
    (hp : LetThrough sha256Text options p decision) (hhash : decision.prefix_hash = some hash) :
    ∃ d session, Recorded sha256Text options p.2 p.1 d session decision ∧ d.prefixHash = hash := by
  rcases evaluate_cases sha256Text options p.2 p.1 with ⟨-, hother⟩ | ⟨d, session, decision', hrec⟩
  · rcases hother decision hp.decided with hrefused | ⟨-, hnone, -⟩
    · exact absurd hrefused hp.passed
    · rw [hnone] at hhash
      cases hhash
  · have hdecided := hp.decided
    rw [hrec.result] at hdecided
    cases hdecided
    exact ⟨d, session, hrec, Option.some.inj (hrec.prefix_hash_eq.symm.trans hhash)⟩

/-- A request that claims the cache, can be read and is let through is recorded. -/
theorem LetThrough.recorded_of_readable {p : PolicyStore × EvaluateCall}
    {decision : PromptCachePolicyDecision} (hp : LetThrough sha256Text options p decision)
    (hclaimed : decision.caching_claimed = true)
    (hread : (derive sha256Text p.2.body).isOk = true) :
    ∃ d session, Recorded sha256Text options p.2 p.1 d session decision := by
  rcases evaluate_cases sha256Text options p.2 p.1 with ⟨-, hother⟩ | ⟨d, session, decision', hrec⟩
  · rcases hother decision hp.decided with hrefused | ⟨-, -, hunread⟩
    · exact absurd hrefused hp.passed
    · rw [hunread hclaimed] at hread
      cases hread
  · have hdecided := hp.decided
    rw [hrec.result] at hdecided
    cases hdecided
    exact ⟨d, session, hrec⟩

/-- No prefix is let through for two tenants, no session is let through as claiming the cache for
two tenants by requests that can be read, and a refused request changes no later decision. -/
theorem tenant_isolation (hmode : options.mode = .enforce)
    (hr : Run (evaluateStep sha256Text options) {} h s)
    (hprefixes : (h.filterMap (prefixOf sha256Text)).dedup.length < options.limits.maxOwners)
    (hsessions : (h.filterMap sessionIdOf).dedup.length < options.limits.maxOwners) :
    (∀ p ∈ h, ∀ q ∈ h, ∀ dp dq hash, LetThrough sha256Text options p dp →
      LetThrough sha256Text options q dq → dp.prefix_hash = some hash →
        dq.prefix_hash = some hash → dp.tenant = dq.tenant) ∧
    (∀ p ∈ h, ∀ q ∈ h, ∀ dp dq id, LetThrough sha256Text options p dp →
      LetThrough sha256Text options q dq → dp.caching_claimed = true → dq.caching_claimed = true →
        p.2.ctx.sessionId = some id → q.2.ctx.sessionId = some id →
          (derive sha256Text p.2.body).isOk = true → (derive sha256Text q.2.body).isOk = true →
            dp.tenant = dq.tenant) ∧
    ∀ p ∈ h, ∀ decision,
      (evaluatePromptCachePolicy sha256Text options p.2 p.1).1 = .ok decision →
        decision.action = .refuse → ∀ later,
          decisionsFrom sha256Text options
            (evaluatePromptCachePolicy sha256Text options p.2 p.1).2 later =
          decisionsFrom sha256Text options p.1 later := by
  have howned := owned_of_run hmode hr hprefixes hsessions
  refine ⟨?_, ?_, ?_⟩
  · intro p hp q hq dp dq hash hlp hlq hhash hhash'
    obtain ⟨d, _, hrec, hd⟩ := hlp.recorded_of_prefix hhash
    obtain ⟨d', _, hrec', hd'⟩ := hlq.recorded_of_prefix hhash'
    have howner := howned.prefixOwner p hp _ _ _ hrec
    rw [hd, ← hd', howned.prefixOwner q hq _ _ _ hrec'] at howner
    rw [hrec.tenant_eq, hrec'.tenant_eq, Option.some.inj howner]
  · intro p hp q hq dp dq id hlp hlq hclaimed hclaimed' hid hid' hread hread'
    obtain ⟨_, _, hrec⟩ := hlp.recorded_of_readable hclaimed hread
    obtain ⟨_, _, hrec'⟩ := hlq.recorded_of_readable hclaimed' hread'
    have howner := howned.sessionOwner p hp _ _ _ hrec id hid
    rw [howned.sessionOwner q hq _ _ _ hrec' id hid'] at howner
    rw [hrec.tenant_eq, hrec'.tenant_eq, Option.some.inj howner]
  · intro p _ decision hdecision hrefused later
    rcases evaluate_cases sha256Text options p.2 p.1 with ⟨hsame, -⟩ | ⟨_, _, _, hrec⟩
    · rw [hsame]
    · rw [hrec.result] at hdecision
      exact absurd (Except.ok.inj hdecision ▸ hrefused) hrec.passed

end Runs

/-! ### Instances -/

section Instances

/-- A run of two requests has no more than two prefixes and sessions. -/
theorem dedup_lt_of_two (f : PolicyStore × EvaluateCall → Option String)
    (p q : PolicyStore × EvaluateCall) :
    ([p, q].filterMap f).dedup.length < enforcing.limits.maxOwners := by
  have hlength : ([p, q].filterMap f).dedup.length ≤ 2 :=
    (List.dedup_sublist _).length_le.trans (List.length_filterMap_le _ _)
  have hmax : enforcing.limits.maxOwners = 50000 := rfl
  omega

/-- A request of another tenant. -/
def EvaluateCall.as (tenantId : String) (call : EvaluateCall) : EvaluateCall :=
  { call with ctx := { call.ctx with tenantId := some tenantId } }

/-- A request whose tools hold a number that is not finite. -/
def unreadableRequest : EvaluateCall :=
  sessionRequest (.obj [("name", .str "set"), ("limit", .nonFinite)]) []

/-- What is done with a request, and for whom. -/
def actionOn (p : PolicyStore × EvaluateCall) : Option (PolicyAction × String × Bool) :=
  match (evaluatePromptCachePolicy id enforcing p.2 p.1).1 with
  | .error _ => none
  | .ok d => some (d.action, d.tenant, d.caching_claimed)

theorem decided_of_actionOn {p : PolicyStore × EvaluateCall} {action : PolicyAction}
    {tenant : String} {claimed : Bool} (h : actionOn p = some (action, tenant, claimed)) :
    ∃ decision, (evaluatePromptCachePolicy id enforcing p.2 p.1).1 = .ok decision ∧
      decision.action = action ∧ decision.tenant = tenant ∧ decision.caching_claimed = claimed := by
  unfold actionOn at h
  split at h
  · cases h
  · rename_i decision hdecided
    simp only [Option.some.injEq, Prod.mk.injEq] at h
    exact ⟨decision, hdecided, h⟩

/-- A request for the session of another tenant is refused, and nothing after it changes. -/
theorem tenant_isolation_refused :
    ∃ first second : EvaluateCall,
      actionOn (afterFirst first, second) = some (.refuse, "other", true) ∧
      ∀ later, decisionsFrom id enforcing
          (evaluatePromptCachePolicy id enforcing second (afterFirst first)).2 later =
        decisionsFrom id enforcing (afterFirst first) later := by
  have hrefused : actionOn (afterFirst (sessionRequest (schemaTool "size" true) []),
      (sessionRequest (schemaTool "length" true) []).as "other") = some (.refuse, "other", true) := by
    decide +kernel
  generalize sessionRequest (schemaTool "size" true) [] = first at hrefused
  generalize (sessionRequest (schemaTool "length" true) []).as "other" = second at hrefused
  obtain ⟨decision, hdecided, haction, -⟩ := decided_of_actionOn hrefused
  exact ⟨first, second, hrefused, (tenant_isolation rfl (run_two first second)
    (dedup_lt_of_two _ _ _) (dedup_lt_of_two _ _ _)).2.2 (afterFirst first, second)
      (List.mem_cons_of_mem _ (List.mem_singleton_self _)) decision hdecided haction⟩

/-- A request that cannot be read is let through as claiming the cache in the session of another
tenant. -/
theorem session_of_two_tenants :
    ¬∀ (sha256Text : String → String) (options : EvaluateOptions)
      (h : List (PolicyStore × EvaluateCall)) (s : PolicyStore), options.mode = .enforce →
      Run (evaluateStep sha256Text options) {} h s →
      (h.filterMap (prefixOf sha256Text)).dedup.length < options.limits.maxOwners →
      (h.filterMap sessionIdOf).dedup.length < options.limits.maxOwners →
      ∀ p ∈ h, ∀ q ∈ h, ∀ dp dq id, LetThrough sha256Text options p dp →
        LetThrough sha256Text options q dq → dp.caching_claimed = true →
          dq.caching_claimed = true → p.2.ctx.sessionId = some id → q.2.ctx.sessionId = some id →
            dp.tenant = dq.tenant := by
  intro hall
  let first := sessionRequest (schemaTool "size" true) []
  have hfirst : actionOn ({}, first) = some (.mark, "key", true) := by decide +kernel
  obtain ⟨dp, hp, hpaction, hptenant, hpclaimed⟩ := decided_of_actionOn hfirst
  have hsecond : actionOn (afterFirst first, unreadableRequest.as "other") =
      some (.mark, "other", true) := by decide +kernel
  obtain ⟨dq, hq, hqaction, hqtenant, hqclaimed⟩ := decided_of_actionOn hsecond
  have heq := hall id enforcing _ _ rfl (run_two first (unreadableRequest.as "other"))
    (dedup_lt_of_two _ _ _) (dedup_lt_of_two _ _ _) _ (List.mem_cons_self ..) _
      (List.mem_cons_of_mem _ (List.mem_singleton_self _)) dp dq "s"
        ⟨hp, by rw [hpaction]; decide⟩ ⟨hq, by rw [hqaction]; decide⟩ hpclaimed hqclaimed rfl rfl
  rw [hptenant, hqtenant] at heq
  exact absurd heq (by decide)

end Instances

end ModelConnector.PromptCache
