import Mathlib.Logic.Function.Basic
import ModelConnector.Connectors.Catalog
import ModelConnector.Foundations.Json
import ModelConnector.Policy.ApiKeyPolicy

/-!
# The catalogue a caller is shown

`ConnectorsService.getCatalog`: the rows of the catalogue filtered by what can be advertised under a
policy and by the caller's filters, kept in a shared cache under a key of the filters, and then
narrowed to the caller's policy. `World` holds what stays the same between calls: the rows, the
stored policies, the credentials and what was measured of them, and the provider access.

The alarm for a showcase key only writes a log line and is left out.
-/

namespace ModelConnector.Connectors

open Policy

/-! ### Credentials -/

/-- `CredentialProbeState`. -/
inductive CredentialProbeState
  | ready
  | missing
  | rejected
  | unavailable
  deriving DecidableEq

/-- A measured credential does not rule a provider out. -/
def CredentialProbeState.usable : CredentialProbeState → Bool
  | .missing => false
  | .rejected => false
  | _ => true

/-- `PROVIDER_CREDENTIAL_MANIFEST`, by name. -/
def PROVIDER_CREDENTIAL_MANIFEST : List String :=
  ["deepseek", "openrouter", "claude-code", "cursor", "groq", "gemini", "gemini-api"]

/-- `isManaged`. -/
def isManaged (connector : String) : Bool :=
  PROVIDER_CREDENTIAL_MANIFEST.contains connector

/-- `ProviderAccess`. -/
structure ProviderAccess where
  read : Bool
  use : Bool

/-- What does not change between calls. -/
structure World where
  rows : List ModelCatalogRow
  /-- `getPolicyForKey`; a stored policy that is not valid is an error of the read. -/
  policyOf : String → Except Unit (Option ApiKeyPolicy)
  access : String → ProviderAccess
  /-- `process.env[name]?.trim()`, unless it is empty. -/
  env : String → Option String
  /-- What probing a connector with its shared credential says. -/
  measured : String → CredentialProbeState
  /-- What probing a connector with a credential of a profile says. -/
  measuredWith : String → String → CredentialProbeState
  /-- The last measurement, `status(name)?.state`. -/
  status : String → CredentialProbeState

namespace World

variable (w : World)

/-- `canRead`. -/
def canRead (name : String) : Bool :=
  (w.access name).read

/-- `check`. -/
def check (connector : String) : Option CredentialProbeState :=
  if isManaged connector then some (w.measured connector) else none

/-- `checkCredential`. -/
def checkCredential (connector credential : String) : Option CredentialProbeState :=
  if connector = "deepseek" ∨ connector = "openrouter" then
    some (w.measuredWith connector credential)
  else none

/-- `isCredentialReadyForPolicy`. -/
def isCredentialReadyForPolicy (connector : String) (policy : Option ApiKeyPolicy) : Bool :=
  let envName := resolveProviderKeyEnv policy connector
  let credentialName := envName.or
    (if connector = "openrouter" then some "OPENROUTER_API_KEY"
    else if connector = "deepseek" then some "DEEPSEEK_API_KEY" else none)
  if credentialName.any (fun name ↦ (w.env name).isNone) then false
  else
    match envName with
    | some name =>
      match w.env name with
      | none => false
      | some credential =>
        !isManaged connector ||
          (w.checkCredential connector credential).any CredentialProbeState.usable
    | none => !isManaged connector || (w.check connector).any CredentialProbeState.usable

/-- `canAdvertise`. -/
def canAdvertise (name : String) : Bool :=
  w.canRead name && (!isManaged name || (w.status name).usable)

/-- `canAdvertiseForPolicy`. -/
def canAdvertiseForPolicy (name : String) (policy : Option ApiKeyPolicy) : Bool :=
  let envName := resolveProviderKeyEnv policy name
  if !w.canRead name then false
  else if envName.any (fun name ↦ (w.env name).isNone) then false
  else if envName.isNone && !w.isCredentialReadyForPolicy name policy then false
  else if isManaged name then w.isCredentialReadyForPolicy name policy
  else envName.isSome || w.canAdvertise name

end World

/-! ### Filters -/

/-- The capabilities a filter can ask for. -/
inductive CapabilityFilter
  | supportsJsonSchema
  | supportsTools
  | supportsStreaming
  deriving DecidableEq

/-- The text of a capability. -/
def CapabilityFilter.value : CapabilityFilter → String
  | supportsJsonSchema => "supportsJsonSchema"
  | supportsTools => "supportsTools"
  | supportsStreaming => "supportsStreaming"

/-- A capability of a model. -/
def ModelCapabilities.has (capabilities : ModelCapabilities) : CapabilityFilter → Bool
  | .supportsJsonSchema => capabilities.supportsJsonSchema
  | .supportsTools => capabilities.supportsTools
  | .supportsStreaming => capabilities.supportsStreaming

/-- `CatalogFilters`. -/
structure CatalogFilters where
  free : Bool := false
  cheap : Bool := false
  capability : Option CapabilityFilter := none
  modality : Option ModelModality := none
  connector : Option String := none
  tag : Option String := none
  group : Option String := none
  deriving DecidableEq

/-- `entryMatchesFilters`. -/
def entryMatchesFilters (entry : CatalogModelEntry) (filters : CatalogFilters) : Bool :=
  (!filters.free || entry.free) &&
  (!filters.cheap || entry.cheap) &&
  filters.capability.all entry.capabilities.has &&
  filters.modality.all (entry.modality = ·) &&
  filters.connector.all (entry.connector = ·) &&
  filters.tag.all entry.tags.contains &&
  filters.group.all fun group ↦
    let start := if group.endsWith ":" then group else group ++ ":"
    entry.tags.any fun tag ↦ tag.startsWith start

/-- A member of the filters, when it is defined. -/
def filterEntry (key : String) (value : Option Json) : List Json :=
  (value.map fun v ↦ Json.arr [.str key, v]).toList

/-- The members of the filters that are defined, by key. -/
def CatalogFilters.sortedEntries (filters : CatalogFilters) : List Json :=
  filterEntry "capability" (filters.capability.map fun c ↦ .str c.value) ++
    filterEntry "cheap" (some (.bool filters.cheap)) ++
    filterEntry "connector" (filters.connector.map .str) ++
    filterEntry "free" (some (.bool filters.free)) ++
    filterEntry "group" (filters.group.map .str) ++
    filterEntry "modality" (filters.modality.map fun m ↦ .str m.value) ++
    filterEntry "tag" (filters.tag.map .str)

/-- `catalogCacheKey`. -/
def catalogCacheKey (sha1 : String → String) (filters : CatalogFilters) : String :=
  "conn:catalog:" ++ sha1 (String.ofList (Json.arr filters.sortedEntries).text)

/-! ### Responses -/

/-- `CatalogResponse`. -/
structure CatalogResponse where
  models : List CatalogModelEntry
  /-- In milliseconds. -/
  generatedAt : ℤ
  count : ℕ
  deriving DecidableEq

/-- A number in a JSON text: one that is not finite is `null`. -/
def storedNumber (n : Option Number) : Option Number :=
  n.filter fun n ↦ n.finite?.isSome

/-- `JSON.parse(JSON.stringify(entry))`. -/
def CatalogModelEntry.stored (entry : CatalogModelEntry) : CatalogModelEntry :=
  { entry with
    priceMultiplier := storedNumber entry.priceMultiplier
    pricing := entry.pricing.map fun pricing ↦ { pricing with
      inputPerMTok := storedNumber pricing.inputPerMTok
      outputPerMTok := storedNumber pricing.outputPerMTok
      cachedInputPerMTok := storedNumber pricing.cachedInputPerMTok
      cacheWrite5mPerMTok := storedNumber pricing.cacheWrite5mPerMTok
      cacheWrite1hPerMTok := storedNumber pricing.cacheWrite1hPerMTok }
    contextWindow := storedNumber entry.contextWindow
    maxOutputTokens := storedNumber entry.maxOutputTokens }

/-- A cached response, and the policy of the caller it was written for. Nothing reads the policy: it
is kept to say where the response comes from. -/
structure CachedCatalog extends CatalogResponse where
  writer : Option ApiKeyPolicy

/-- The cache, when it is enabled. -/
abbrev CatalogCache :=
  String → Option CachedCatalog

section Requests

variable (w : World)

/-- The entries that can be advertised under a policy. -/
def advertised (policy : Option ApiKeyPolicy) (models : List CatalogModelEntry) :
    List CatalogModelEntry :=
  models.filter fun entry ↦ w.canAdvertiseForPolicy entry.connector policy

/-- The entries a policy lets through. -/
def policyAllows (policy : ApiKeyPolicy) (entry : CatalogModelEntry) : Bool :=
  isProviderAllowed (some policy) entry.connector &&
    match policy.models with
    | none => true
    | some models =>
      match models.mode with
      | .all => true
      | .list => (models.list.getD []).contains entry.model
      | .freeOnly => entry.free

/-- The entry with the availability its credential leaves. -/
def credentialReady (policy : ApiKeyPolicy) (entry : CatalogModelEntry) : CatalogModelEntry :=
  match resolveProviderKeyEnv (some policy) entry.connector with
  | none => entry
  | some name => { entry with available := entry.available && (w.env name).isSome }

/-- `applyPolicyToCatalog`. -/
def applyPolicyToCatalog (response : CatalogResponse) (apiKeyId : Option String) :
    CatalogResponse :=
  match apiKeyId with
  | none => response
  | some id =>
    match w.policyOf id with
    | .error () => { response with models := [], count := 0 }
    | .ok policy =>
      let visibleModels := advertised w policy response.models
      match policy with
      | none => { response with models := visibleModels, count := visibleModels.length }
      | some policy =>
        let models := (visibleModels.filter (policyAllows policy)).map (credentialReady w policy)
        { response with models, count := models.length }

/-- The response of a call that reads the rows, before the policy is applied. -/
def catalogOfRows (filters : CatalogFilters) (policy : Option ApiKeyPolicy) (now : ℤ) :
    CatalogResponse :=
  let visibleRows := w.rows.filter fun row ↦ w.canAdvertiseForPolicy row.connector policy
  let models := (visibleRows.map rowToEntry).filter (entryMatchesFilters · filters)
  { models
    generatedAt :=
      match visibleRows with
      | [] => now
      | row :: rest => rest.foldl (fun latest row ↦ max latest row.lastChecked) row.lastChecked
    count := models.length }

/-- A call of `getCatalog`: when the cache cannot be read or written, it goes on without it. -/
structure CatalogCall where
  filters : CatalogFilters
  /-- A key that is not the empty text. -/
  apiKeyId : Option String
  now : ℤ
  readFails : Bool := false
  writeFails : Bool := false

/-- The policy of the caller; nothing is shown to a key whose stored policy is not valid. -/
def World.callerPolicy (apiKeyId : Option String) : Except Unit (Option ApiKeyPolicy) :=
  match apiKeyId with
  | none => .ok none
  | some id => w.policyOf id

/-- What a call finds in the cache. -/
def CatalogCall.cached (sha1 : String → String) (cacheEnabled : Bool) (call : CatalogCall)
    (cache : CatalogCache) : Option CachedCatalog :=
  if cacheEnabled && !call.readFails then cache (catalogCacheKey sha1 call.filters) else none

/-- `getCatalog`. -/
def getCatalog (sha1 : String → String) (cacheEnabled : Bool) (call : CatalogCall)
    (cache : CatalogCache) : CatalogResponse × CatalogCache :=
  match w.callerPolicy call.apiKeyId with
  | .error () => ({ models := [], generatedAt := call.now, count := 0 }, cache)
  | .ok policy =>
    match call.cached sha1 cacheEnabled cache with
    | some response =>
      let models := advertised w policy response.models
      (applyPolicyToCatalog w { response.toCatalogResponse with models, count := models.length }
        call.apiKeyId, cache)
    | none =>
      let response := catalogOfRows w call.filters policy call.now
      let key := catalogCacheKey sha1 call.filters
      (applyPolicyToCatalog w response call.apiKeyId,
        if cacheEnabled && !call.writeFails then
          Function.update cache key (some
            { response with
              models := response.models.map CatalogModelEntry.stored, writer := policy })
        else cache)

/-- What happens to the cache. -/
inductive CatalogEvent
  | call (call : CatalogCall)
  /-- An entry expires, or is evicted. -/
  | expire (key : String)

/-- One event. -/
def catalogStep (sha1 : String → String) (cacheEnabled : Bool) (cache : CatalogCache) :
    CatalogEvent → Option CatalogCache
  | .call call => some (getCatalog w sha1 cacheEnabled call cache).2
  | .expire key => some (Function.update cache key none)

end Requests

end ModelConnector.Connectors
