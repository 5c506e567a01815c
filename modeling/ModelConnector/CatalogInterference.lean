import ModelConnector.Connectors.CatalogView
import ModelConnector.Foundations.Run

/-!
# The catalogue cache between callers

A cached response was written for some caller, from the rows that could be advertised under that
caller's policy, and is filtered again for whoever reads it. So it never shows a caller more than a
cold cache would, and shows the same exactly when its writer was advertised every connector the
caller would be shown a model of.
-/

namespace ModelConnector.Connectors

open Policy

/-! ### Filters are told apart by their keys -/

/-- The value of a member among the members of filters. -/
def entryOf (key : String) (entries : List Json) : Option Json :=
  entries.findSome? fun
    | .arr [.str k, v] => if k = key then some v else none
    | _ => none

theorem entryOf_append (key : String) (l l' : List Json) :
    entryOf key (l ++ l') = (entryOf key l).or (entryOf key l') := by
  rw [entryOf, List.findSome?_append]
  rfl

theorem entryOf_filterEntry (key k : String) (value : Option Json) :
    entryOf key (filterEntry k value) = if k = key then value else none := by
  cases value with
  | none => simp [entryOf, filterEntry]
  | some v => simp [entryOf, filterEntry]

/-- A member of filters is a text or a boolean. -/
def IsPlain (v : Json) : Prop :=
  v.normalize = v ∧ v.finite = true

theorem isPlain_str (s : String) : IsPlain (.str s) :=
  ⟨rfl, rfl⟩

theorem isPlain_bool (b : Bool) : IsPlain (.bool b) :=
  ⟨rfl, rfl⟩

theorem plain_filterEntry {key : String} {value : Option Json}
    (h : ∀ v, value = some v → IsPlain v) : ∀ e ∈ filterEntry key value, IsPlain e := by
  intro e he
  obtain ⟨v, hv, rfl⟩ := Option.map_eq_some_iff.1 (Option.mem_toList.1 he)
  obtain ⟨hnormal, hfinite⟩ := h v hv
  refine ⟨?_, ?_⟩
  · rw [Json.normalize, Json.normalizeAll_eq_map, List.map_cons, List.map_singleton, hnormal]
    rfl
  · rw [Json.finite, Json.allFinite_iff]
    simp [hfinite, Json.finite]

theorem plain_sortedEntries (filters : CatalogFilters) : ∀ e ∈ filters.sortedEntries, IsPlain e := by
  have hstr : ∀ {α : Type} (f : α → String) (o : Option α) (v : Json),
      (o.map fun a ↦ Json.str (f a)) = some v → IsPlain v := by
    intro α f o v h
    obtain ⟨a, -, rfl⟩ := Option.map_eq_some_iff.1 h
    exact isPlain_str _
  have hbool : ∀ (b : Bool) (v : Json), some (Json.bool b) = some v → IsPlain v := by
    rintro b _ ⟨⟩
    exact isPlain_bool b
  intro e he
  simp only [CatalogFilters.sortedEntries, List.mem_append] at he
  rcases he with (((((he | he) | he) | he) | he) | he) | he
  · exact plain_filterEntry (hstr _ _) e he
  · exact plain_filterEntry (hbool _) e he
  · exact plain_filterEntry (hstr id _) e he
  · exact plain_filterEntry (hbool _) e he
  · exact plain_filterEntry (hstr id _) e he
  · exact plain_filterEntry (hstr _ _) e he
  · exact plain_filterEntry (hstr id _) e he

/-- The text of the members of filters determines them. -/
theorem sortedEntries_eq_of_text_eq {f g : CatalogFilters}
    (h : (Json.arr f.sortedEntries).text = (Json.arr g.sortedEntries).text) :
    f.sortedEntries = g.sortedEntries := by
  have hfinite : ∀ f : CatalogFilters, (Json.arr f.sortedEntries).finite = true := fun f ↦ by
    rw [Json.finite, Json.allFinite_iff]
    exact fun e he ↦ (plain_sortedEntries f e he).2
  have hnormal : ∀ f : CatalogFilters, (Json.arr f.sortedEntries).normalize =
      .arr f.sortedEntries := fun f ↦ by
    rw [Json.normalize, Json.normalizeAll_eq_map,
      List.map_congr_left fun e he ↦ (plain_sortedEntries f e he).1, List.map_id']
  have heq := Json.normalize_eq_of_text_eq (hfinite f) (hfinite g) h
  rw [hnormal, hnormal] at heq
  exact Json.arr.inj heq

/-- The members are those of the fields. -/
theorem entryOf_sortedEntries (f : CatalogFilters) :
    entryOf "capability" f.sortedEntries = f.capability.map (fun c ↦ .str c.value) ∧
    entryOf "cheap" f.sortedEntries = some (.bool f.cheap) ∧
    entryOf "connector" f.sortedEntries = f.connector.map .str ∧
    entryOf "free" f.sortedEntries = some (.bool f.free) ∧
    entryOf "group" f.sortedEntries = f.group.map .str ∧
    entryOf "modality" f.sortedEntries = f.modality.map (fun m ↦ .str m.value) ∧
    entryOf "tag" f.sortedEntries = f.tag.map .str := by
  simp [CatalogFilters.sortedEntries, entryOf_append, entryOf_filterEntry]

theorem map_str_injective {α : Type} {f : α → String} (hf : Function.Injective f) :
    Function.Injective (Option.map fun a ↦ Json.str (f a)) :=
  Option.map_injective fun _ _ h ↦ hf (Json.str.inj h)

theorem sortedEntries_injective : Function.Injective CatalogFilters.sortedEntries := by
  intro f g h
  obtain ⟨hcapability, hcheap, hconnector, hfree, hgroup, hmodality, htag⟩ :=
    entryOf_sortedEntries f
  rw [h] at hcapability hcheap hconnector hfree hgroup hmodality htag
  obtain ⟨hcapability', hcheap', hconnector', hfree', hgroup', hmodality', htag'⟩ :=
    entryOf_sortedEntries g
  have hvalue : Function.Injective ModelModality.value := by
    intro m m' hm
    cases m <;> cases m' <;> first | rfl | simp [ModelModality.value] at hm
  have hvalue' : Function.Injective CapabilityFilter.value := by
    intro c c' hc
    cases c <;> cases c' <;> first | rfl | simp [CapabilityFilter.value] at hc
  cases f
  cases g
  simp only [CatalogFilters.mk.injEq]
  exact ⟨Json.bool.inj (Option.some.inj (hfree.symm.trans hfree')),
    Json.bool.inj (Option.some.inj (hcheap.symm.trans hcheap')),
    map_str_injective hvalue' (hcapability.symm.trans hcapability'),
    map_str_injective hvalue (hmodality.symm.trans hmodality'),
    map_str_injective Function.injective_id (hconnector.symm.trans hconnector'),
    map_str_injective Function.injective_id (htag.symm.trans htag'),
    map_str_injective Function.injective_id (hgroup.symm.trans hgroup')⟩

/-- The key of the cache tells filters apart, when the digest tells texts apart. -/
theorem catalogCacheKey_injective {sha1 : String → String} (hsha1 : Function.Injective sha1) :
    Function.Injective (catalogCacheKey sha1) := by
  intro f g h
  have hdigest := (String.append_right_inj "conn:catalog:").1 h
  exact sortedEntries_injective (sortedEntries_eq_of_text_eq
    (String.ofList_injective (hsha1 hdigest)))

/-! ### What is shown -/

section Shown

variable (w : World) (call : CatalogCall)

/-- A row is shown to a caller when nothing is cached. -/
def shows (row : ModelCatalogRow) : Bool :=
  match w.callerPolicy call.apiKeyId with
  | .error () => false
  | .ok policy => w.canAdvertiseForPolicy row.connector policy &&
      entryMatchesFilters (rowToEntry row) call.filters &&
      policy.all (policyAllows · (rowToEntry row))

/-- The entry as it is shown to a caller. -/
def shownAs (entry : CatalogModelEntry) : CatalogModelEntry :=
  match w.callerPolicy call.apiKeyId with
  | .ok (some policy) => credentialReady w policy entry
  | _ => entry

/-- The models of a call when nothing is cached. -/
def coldModels (sha1 : String → String) (cacheEnabled : Bool) : List CatalogModelEntry :=
  (getCatalog w sha1 cacheEnabled call fun _ ↦ none).1.models

/-- The entries a call leaves of entries that were advertised under its policy. -/
theorem applyPolicyToCatalog_models {policy : Option ApiKeyPolicy}
    (hpolicy : w.callerPolicy call.apiKeyId = .ok policy) {response : CatalogResponse}
    (hmodels : ∀ entry ∈ response.models, w.canAdvertiseForPolicy entry.connector policy = true) :
    (applyPolicyToCatalog w response call.apiKeyId).models =
      (response.models.filter fun entry ↦ policy.all (policyAllows · entry)).map
        (shownAs w call) := by
  have hadvertised : advertised w policy response.models = response.models :=
    List.filter_eq_self.2 hmodels
  unfold applyPolicyToCatalog shownAs
  rw [hpolicy]
  cases hid : call.apiKeyId with
  | none =>
    rw [hid] at hpolicy
    cases hpolicy
    simp
  | some id =>
    rw [hid] at hpolicy
    have hpolicy' : w.policyOf id = .ok policy := hpolicy
    simp only [hpolicy', hadvertised]
    cases policy with
    | none => simp
    | some policy => rfl

/-- The rows that can be advertised under a policy and match the filters. -/
def listedRows (filters : CatalogFilters) (policy : Option ApiKeyPolicy) : List ModelCatalogRow :=
  w.rows.filter fun row ↦ w.canAdvertiseForPolicy row.connector policy &&
    entryMatchesFilters (rowToEntry row) filters

theorem catalogOfRows_models (filters : CatalogFilters) (policy : Option ApiKeyPolicy) (now : ℤ) :
    (catalogOfRows w filters policy now).models = (listedRows w filters policy).map rowToEntry := by
  unfold catalogOfRows listedRows
  simp only [List.filter_map, List.filter_filter]
  congr 2
  funext row
  exact Bool.and_comm _ _

theorem coldModels_eq (sha1 : String → String) (cacheEnabled : Bool) :
    coldModels w call sha1 cacheEnabled =
      (w.rows.filter (shows w call)).map fun row ↦ shownAs w call (rowToEntry row) := by
  unfold coldModels getCatalog
  cases hpolicy : w.callerPolicy call.apiKeyId with
  | error e => simp [shows, hpolicy]
  | ok policy =>
    have hcached : call.cached sha1 cacheEnabled (fun _ ↦ none) = none := by
      simp [CatalogCall.cached]
    simp only [hcached]
    rw [applyPolicyToCatalog_models w call hpolicy, catalogOfRows_models, List.filter_map,
      List.map_map, listedRows, List.filter_filter]
    · congr 2
      funext row
      simp only [shows, hpolicy, Function.comp_apply, Bool.and_assoc]
      rw [Bool.and_comm (policy.all _), Bool.and_assoc]
    · intro entry hentry
      rw [catalogOfRows_models] at hentry
      obtain ⟨row, hrow, rfl⟩ := List.mem_map.1 hentry
      exact (Bool.and_eq_true _ _ ▸ (List.mem_filter.1 hrow).2).1

/-! ### What is cached -/

@[simp]
theorem storedNumber_storedNumber (n : Option Number) :
    storedNumber (storedNumber n) = storedNumber n := by
  rw [storedNumber, storedNumber, Option.filter_filter]
  simp

@[simp]
theorem stored_stored (entry : CatalogModelEntry) : entry.stored.stored = entry.stored := by
  cases h : entry.pricing <;> simp [CatalogModelEntry.stored, h]

@[simp]
theorem stored_connector (entry : CatalogModelEntry) : entry.stored.connector = entry.connector :=
  rfl

@[simp]
theorem rowToEntry_connector (row : ModelCatalogRow) : (rowToEntry row).connector = row.connector :=
  rfl

@[simp]
theorem policyAllows_stored (policy : ApiKeyPolicy) (entry : CatalogModelEntry) :
    policyAllows policy entry.stored = policyAllows policy entry :=
  rfl

/-- What is shown of a cached entry is stored as what is shown of the entry. -/
theorem shownAs_stored (entry : CatalogModelEntry) :
    (shownAs w call entry.stored).stored = (shownAs w call entry).stored := by
  have hready : ∀ policy, credentialReady w policy entry.stored =
      (credentialReady w policy entry).stored := by
    intro policy
    unfold credentialReady
    rw [stored_connector]
    cases resolveProviderKeyEnv (some policy) entry.connector <;> rfl
  unfold shownAs
  split
  · rw [hready, stored_stored]
  · exact stored_stored entry

/-- Every cached response lists the rows of some filters, for its writer. -/
def Cached (sha1 : String → String) (cache : CatalogCache) : Prop :=
  ∀ key response, cache key = some response → ∃ filters, key = catalogCacheKey sha1 filters ∧
    response.models = (listedRows w filters response.writer).map fun row ↦ (rowToEntry row).stored

variable {w}

theorem Cached.step {sha1 : String → String} {cacheEnabled : Bool} {cache cache' : CatalogCache}
    {e : CatalogEvent} (hc : Cached w sha1 cache)
    (h : catalogStep w sha1 cacheEnabled cache e = some cache') : Cached w sha1 cache' := by
  intro key response hkey
  cases e with
  | expire expired =>
    cases h
    by_cases heq : key = expired
    · subst heq
      rw [Function.update_self] at hkey
      cases hkey
    · rw [Function.update_of_ne heq] at hkey
      exact hc key response hkey
  | call call =>
    cases h
    unfold getCatalog at hkey
    split at hkey
    · exact hc key response hkey
    · rename_i policy _
      split at hkey
      · exact hc key response hkey
      · simp only at hkey
        split at hkey
        · by_cases heq : key = catalogCacheKey sha1 call.filters
          · subst heq
            rw [Function.update_self] at hkey
            cases hkey
            refine ⟨call.filters, rfl, ?_⟩
            simp only [catalogOfRows_models, List.map_map]
            rfl
          · rw [Function.update_of_ne heq] at hkey
            exact hc key response hkey
        · exact hc key response hkey

/-- The models of a call that reads a cached response. -/
theorem warmModels_eq {sha1 : String → String} (hsha1 : Function.Injective sha1)
    {cacheEnabled : Bool} {cache : CatalogCache} (hc : Cached w sha1 cache)
    {response : CachedCatalog} (hread : call.cached sha1 cacheEnabled cache = some response) :
    (getCatalog w sha1 cacheEnabled call cache).1.models =
      ((w.rows.filter (shows w call)).filter fun row ↦
        w.canAdvertiseForPolicy row.connector response.writer).map
          fun row ↦ shownAs w call (rowToEntry row).stored := by
  have hkey : cache (catalogCacheKey sha1 call.filters) = some response :=
    (Option.ite_none_right_eq_some.1 hread).2
  obtain ⟨filters, hfilters, hmodels⟩ := hc _ _ hkey
  obtain rfl := catalogCacheKey_injective hsha1 hfilters
  unfold getCatalog
  cases hpolicy : w.callerPolicy call.apiKeyId with
  | error e => simp [shows, hpolicy]
  | ok policy =>
    simp only [hread]
    rw [applyPolicyToCatalog_models w call hpolicy]
    · simp only [advertised, hmodels, List.filter_map, List.map_map, listedRows, List.filter_filter]
      congr 2
      funext row
      simp only [shows, hpolicy, Function.comp_apply, stored_connector, rowToEntry_connector,
        policyAllows_stored]
      rw [Bool.eq_iff_iff]
      simp only [Bool.and_eq_true]
      tauto
    · intro entry hentry
      exact (List.mem_filter.1 hentry).2

end Shown

/-! ### Main result -/

/-- A list that was filtered once more is the same when nothing was lost. -/
theorem map_filter_filter_eq_iff {α β : Type} (g : α → β) (p q : α → Bool) (l : List α) :
    ((l.filter p).filter q).map g = (l.filter p).map g ↔ ∀ a ∈ l, p a = true → q a = true := by
  constructor
  · intro h a ha hp
    have hlength := congrArg List.length h
    rw [List.length_map, List.length_map] at hlength
    exact List.length_filter_eq_length_iff.1 hlength a (List.mem_filter.2 ⟨ha, hp⟩)
  · intro h
    rw [List.filter_eq_self.2 fun a ha ↦ h a (List.mem_filter.1 ha).1 (List.mem_filter.1 ha).2]

/-- **What a shared cache shows.** However calls of any callers and expiries came before, a call
shows no model that it would not show with nothing cached; and it shows the same models exactly when
it reads no cached response, or one whose writer was advertised every connector of the models the
caller would be shown. -/
theorem catalog_same_iff (w : World) {sha1 : String → String} (hsha1 : Function.Injective sha1)
    (cacheEnabled : Bool) {history : List (CatalogCache × CatalogEvent)} {cache : CatalogCache}
    (hr : Run (catalogStep w sha1 cacheEnabled) (fun _ ↦ none) history cache)
    (call : CatalogCall) :
    ((getCatalog w sha1 cacheEnabled call cache).1.models.map CatalogModelEntry.stored).Sublist
      ((coldModels w call sha1 cacheEnabled).map CatalogModelEntry.stored) ∧
    ((getCatalog w sha1 cacheEnabled call cache).1.models.map CatalogModelEntry.stored =
        (coldModels w call sha1 cacheEnabled).map CatalogModelEntry.stored ↔
      ∀ response, call.cached sha1 cacheEnabled cache = some response →
        ∀ row ∈ w.rows, shows w call row = true →
          w.canAdvertiseForPolicy row.connector response.writer = true) := by
  have hc : Cached w sha1 cache :=
    hr.invariant (P := Cached w sha1) (fun _ _ h ↦ by cases h) fun hc h ↦ hc.step h
  cases hread : call.cached sha1 cacheEnabled cache with
  | none =>
    have hsame : (getCatalog w sha1 cacheEnabled call cache).1.models =
        coldModels w call sha1 cacheEnabled := by
      have hnone : call.cached sha1 cacheEnabled (fun _ ↦ none) = none := by
        simp [CatalogCall.cached]
      unfold coldModels getCatalog
      rw [hread, hnone]
      split <;> rfl
    rw [hsame]
    exact ⟨List.Sublist.refl _, by simp⟩
  | some response =>
    have hstored : ∀ rows : List ModelCatalogRow,
        (rows.map fun row ↦ shownAs w call (rowToEntry row).stored).map CatalogModelEntry.stored =
          rows.map fun row ↦ (shownAs w call (rowToEntry row)).stored := by
      intro rows
      rw [List.map_map]
      exact List.map_congr_left fun row _ ↦ shownAs_stored w call (rowToEntry row)
    rw [warmModels_eq call hsha1 hc hread, coldModels_eq, hstored, List.map_map]
    refine ⟨(List.filter_sublist).map _, ?_⟩
    refine (map_filter_filter_eq_iff _ _ _ _).trans ⟨fun h response' heq ↦ ?_, fun h ↦ ?_⟩
    · cases heq
      exact h
    · exact h response rfl

/-! ### A key with a credential of its own -/

/-- A model of a provider that needs a credential. -/
def sonnetRow : ModelCatalogRow where
  connector := "openrouter"
  model := "sonnet"
  modality := .chat
  status := .online
  lastChecked := 1000
  supportsStreaming := true
  supportsJsonSchema := true
  supportsTools := true
  inputPerMTok := some (.finite 3)
  outputPerMTok := some (.finite 15)
  cachedInputPerMTok := none
  cacheWrite5mPerMTok := none
  cacheWrite1hPerMTok := none
  priceUnit := DEFAULT_PRICE_UNIT
  tier := .paid
  free := false
  priceMultiplier := none
  contextWindow := none
  maxOutputTokens := none
  endpoint := none
  executableHere := true
  routable := true
  id := 1
  firstSeen := 0
  lastSeen := 1000
  absent := false
  snapshotId := none
  contentFingerprint := none
  observedAt := 1000
  source := .providerApi
  freshness := .fresh
  absentSince := none

/-- A key of its own for the provider. -/
def ownCredential : ApiKeyPolicy where
  policyVersion := .v1
  providerKeys := some [("openrouter", .env "OPENROUTER_API_KEY_MAIL")]
  accepted_eq := by decide

/-- Only the key of its own is configured. -/
def mailWorld : World where
  rows := [sonnetRow]
  policyOf id := .ok (if id = "mail" then some ownCredential else none)
  access _ := { read := true, use := true }
  env name := if name = "OPENROUTER_API_KEY_MAIL" then some "secret" else none
  measured _ := .missing
  measuredWith _ _ := .ready
  status _ := .missing

/-- A call without filters. -/
def plainCall (apiKeyId : Option String) : CatalogCall where
  filters := {}
  apiKeyId
  now := 2000

/-- A call without a key empties the catalogue of a key with a credential of its own, whatever the
digest of the cache key. -/
theorem catalog_interferes : ∃ cache,
    Run (catalogStep mailWorld id true) (fun _ ↦ none)
      [(fun _ ↦ none, .call (plainCall none))] cache ∧
    (getCatalog mailWorld id true (plainCall (some "mail")) cache).1.models = [] ∧
    (coldModels mailWorld (plainCall (some "mail")) id true).map CatalogModelEntry.model =
      ["sonnet"] := by
  have hcache : (getCatalog mailWorld id true (plainCall none) fun _ ↦ none).2 =
      Function.update (fun _ ↦ none) (catalogCacheKey id {})
        (some { catalogOfRows mailWorld {} none 2000 with
          models := (catalogOfRows mailWorld {} none 2000).models.map CatalogModelEntry.stored
          writer := none }) := rfl
  have hread : (plainCall (some "mail")).cached id true
      (getCatalog mailWorld id true (plainCall none) fun _ ↦ none).2 =
        some { catalogOfRows mailWorld {} none 2000 with
          models := (catalogOfRows mailWorld {} none 2000).models.map CatalogModelEntry.stored
          writer := none } := by
    rw [hcache]
    exact (if_pos rfl).trans (Function.update_self _ _ _)
  have hstep : catalogStep mailWorld id true (fun _ ↦ none) (.call (plainCall none)) =
      some (getCatalog mailWorld id true (plainCall none) fun _ ↦ none).2 := rfl
  have hcached : Cached mailWorld id (fun _ ↦ none) := fun _ _ h ↦ by cases h
  refine ⟨_, Run.snoc Run.nil hstep, ?_, ?_⟩
  · rw [warmModels_eq _ Function.injective_id (hcached.step hstep) hread]
    decide +kernel
  · rw [coldModels_eq]
    decide +kernel

/-- Every key has the credential. -/
def sharedWorld : World :=
  { mailWorld with policyOf := fun _ ↦ .ok (some ownCredential) }

/-- The response that a key has cached shows another key with the same credential the model, as with
nothing cached. -/
theorem catalog_same_iff_mail : ∃ cache,
    Run (catalogStep sharedWorld id true) (fun _ ↦ none)
      [(fun _ ↦ none, .call (plainCall (some "post")))] cache ∧
    ((plainCall (some "mail")).cached id true cache).isSome ∧
    (getCatalog sharedWorld id true (plainCall (some "mail")) cache).1.models.map
        CatalogModelEntry.stored =
      (coldModels sharedWorld (plainCall (some "mail")) id true).map CatalogModelEntry.stored ∧
    (coldModels sharedWorld (plainCall (some "mail")) id true).map CatalogModelEntry.model =
      ["sonnet"] := by
  have hcache : (getCatalog sharedWorld id true (plainCall (some "post")) fun _ ↦ none).2 =
      Function.update (fun _ ↦ none) (catalogCacheKey id {})
        (some { catalogOfRows sharedWorld {} (some ownCredential) 2000 with
          models := (catalogOfRows sharedWorld {} (some ownCredential) 2000).models.map
            CatalogModelEntry.stored
          writer := some ownCredential }) := rfl
  have hread : (plainCall (some "mail")).cached id true
      (getCatalog sharedWorld id true (plainCall (some "post")) fun _ ↦ none).2 =
        some { catalogOfRows sharedWorld {} (some ownCredential) 2000 with
          models := (catalogOfRows sharedWorld {} (some ownCredential) 2000).models.map
            CatalogModelEntry.stored
          writer := some ownCredential } := by
    rw [hcache]
    exact (if_pos rfl).trans (Function.update_self _ _ _)
  have hr : Run (catalogStep sharedWorld id true) (fun _ ↦ none)
      [(fun _ ↦ none, .call (plainCall (some "post")))]
      (getCatalog sharedWorld id true (plainCall (some "post")) fun _ ↦ none).2 :=
    Run.snoc Run.nil rfl
  refine ⟨_, hr, ?_, ?_, ?_⟩
  · rw [hread]
    rfl
  · refine (catalog_same_iff sharedWorld Function.injective_id true hr
      (plainCall (some "mail"))).2.2 fun response h row hrow _ ↦ ?_
    rw [hread] at h
    cases h
    cases List.mem_singleton.1 hrow
    decide +kernel
  · rw [coldModels_eq]
    decide +kernel

end ModelConnector.Connectors
