import ModelConnector.Billing.MeasuredCost
import ModelConnector.Foundations.Number

/-!
# Catalogue entries and catalogue rows

`entryToRow` maps what a connector advertises for a model to the row of `model_catalog`, and
`rowToEntry` maps a row back. `deriveTier` is the one place a tier comes from: the two main tariffs
when both are known, the provider's own free flag when one of them is not.
-/

namespace ModelConnector.Connectors

open Billing

/-- What a model does. -/
inductive ModelModality
  | chat
  | embedding
  | imageGeneration
  | speechToText
  | textToSpeech
  | video
  | moderation
  | rerank
  deriving DecidableEq

/-- The text of a modality. -/
def ModelModality.value : ModelModality → String
  | chat => "chat"
  | embedding => "embedding"
  | imageGeneration => "image_generation"
  | speechToText => "speech_to_text"
  | textToSpeech => "text_to_speech"
  | video => "video"
  | moderation => "moderation"
  | rerank => "rerank"

/-- The prices of a model, per million tokens; a price that is not published is absent. -/
structure ModelPricing where
  inputPerMTok : Option Number
  outputPerMTok : Option Number
  cachedInputPerMTok : Option Number := none
  cacheWrite5mPerMTok : Option Number := none
  cacheWrite1hPerMTok : Option Number := none
  unit : String
  deriving DecidableEq

/-- What a model inherits from its connector. -/
structure ModelCapabilities where
  supportsStreaming : Bool
  supportsJsonSchema : Bool
  supportsTools : Bool
  deriving DecidableEq

/-- The limits of a connector that reports them. -/
structure RateLimits where
  requestsPerMinute : Option ℕ
  tokensPerMinute : Option ℕ
  deriving DecidableEq

/-- Where a model is called. -/
structure ModelRouting where
  connector : String
  model : String
  endpoint : Option String := none
  deriving DecidableEq

/-- Where a catalogue row comes from. -/
inductive CatalogSource
  | providerApi
  | staticCapabilities
  | staticModalityCatalog
  | legacyUnknown
  deriving DecidableEq

/-- How old a catalogue row is. -/
inductive CatalogFreshness
  | fresh
  | stale
  | static
  | unknown
  deriving DecidableEq

/-- The snapshot an entry was read from; the identity of a snapshot is its number in insertion
order. -/
structure CatalogProvenance where
  snapshotId : Option ℕ
  contentFingerprint : Option String
  observedAt : ℤ
  source : CatalogSource
  freshness : CatalogFreshness
  deriving DecidableEq

/-- An entry of the catalogue, as a connector advertises it and as it is served. -/
structure CatalogModelEntry where
  connector : String
  model : String
  modality : ModelModality
  tags : List String
  /-- The provider's own free flag. -/
  free : Bool
  cheap : Bool
  priceMultiplier : Option Number
  rateLimits : Option RateLimits
  pricing : Option ModelPricing
  contextWindow : Option Number
  maxOutputTokens : Option Number
  capabilities : ModelCapabilities
  routing : ModelRouting
  available : Bool
  /-- Present on what was read from the database. -/
  provenance : Option CatalogProvenance := none
  deriving DecidableEq

/-- The tier of a row. -/
inductive ModelTier
  | free
  | paid
  | unknown
  deriving DecidableEq

/-- The text of a tier. -/
def ModelTier.value : ModelTier → String
  | free => "free"
  | paid => "paid"
  | unknown => "unknown"

/-- Whether a model could be reached. -/
inductive ModelStatus
  | online
  | offline
  deriving DecidableEq

/-- What is written of a row of `model_catalog`. -/
structure ModelCatalogUpsert where
  connector : String
  model : String
  modality : ModelModality
  status : ModelStatus
  lastChecked : ℤ
  supportsStreaming : Bool
  supportsJsonSchema : Bool
  supportsTools : Bool
  inputPerMTok : Option Number
  outputPerMTok : Option Number
  cachedInputPerMTok : Option Number
  cacheWrite5mPerMTok : Option Number
  cacheWrite1hPerMTok : Option Number
  priceUnit : String
  tier : ModelTier
  free : Bool
  priceMultiplier : Option Number
  contextWindow : Option Number
  maxOutputTokens : Option Number
  endpoint : Option String
  executableHere : Bool
  routable : Bool
  deriving DecidableEq

/-- A row of `model_catalog`. -/
structure ModelCatalogRow extends ModelCatalogUpsert where
  id : ℕ
  firstSeen : ℤ
  lastSeen : ℤ
  /-- The provider no longer lists the model. -/
  absent : Bool
  snapshotId : Option ℕ
  contentFingerprint : Option String
  observedAt : ℤ
  source : CatalogSource
  freshness : CatalogFreshness
  absentSince : Option ℤ
  deriving DecidableEq

/-- `DEFAULT_PRICE_UNIT`. -/
def DEFAULT_PRICE_UNIT : String :=
  "USD/1M tokens"

/-- `deriveTier`: both main tariffs known, the free flag, and otherwise unknown. -/
def deriveTier (inputPerMTok outputPerMTok : Option Number) (free : Bool) : ModelTier × Bool :=
  match inputPerMTok, outputPerMTok with
  | some input, some output =>
    if input = .finite 0 ∧ output = .finite 0 then (.free, true) else (.paid, false)
  | _, _ => if free then (.free, true) else (.unknown, false)

/-- `isModalityExecutableHere`. -/
def isModalityExecutableHere : ModelModality → Bool
  | .speechToText => false
  | .textToSpeech => false
  | .imageGeneration => false
  | .video => false
  | .chat => true
  | .embedding => true
  | .rerank => true
  | .moderation => true

/-- A tariff of an entry, `entry.pricing?.field ?? null`. -/
def CatalogModelEntry.tariff (entry : CatalogModelEntry)
    (field : ModelPricing → Option Number) : Option Number :=
  entry.pricing.bind field

/-- `entryToRow`, at the time it is called. -/
def entryToRow (now : ℤ) (useEnabled : Bool) (entry : CatalogModelEntry) : ModelCatalogUpsert :=
  let inputPerMTok := entry.tariff ModelPricing.inputPerMTok
  let outputPerMTok := entry.tariff ModelPricing.outputPerMTok
  let tier := deriveTier inputPerMTok outputPerMTok entry.free
  { connector := entry.connector
    model := entry.model
    modality := entry.modality
    status := if entry.available then .online else .offline
    lastChecked := now
    supportsStreaming := entry.capabilities.supportsStreaming
    supportsJsonSchema := entry.capabilities.supportsJsonSchema
    supportsTools := entry.capabilities.supportsTools
    inputPerMTok
    outputPerMTok
    cachedInputPerMTok := entry.tariff ModelPricing.cachedInputPerMTok
    cacheWrite5mPerMTok := entry.tariff ModelPricing.cacheWrite5mPerMTok
    cacheWrite1hPerMTok := entry.tariff ModelPricing.cacheWrite1hPerMTok
    priceUnit := (entry.pricing.map ModelPricing.unit).getD DEFAULT_PRICE_UNIT
    tier := tier.1
    free := tier.2
    priceMultiplier := entry.priceMultiplier
    contextWindow := entry.contextWindow
    maxOutputTokens := entry.maxOutputTokens
    endpoint := entry.routing.endpoint
    executableHere := isModalityExecutableHere entry.modality
    routable := useEnabled }

/-- `buildDerivedTags`. -/
def buildDerivedTags (modality : ModelModality) (free cheap : Bool)
    (capabilities : ModelCapabilities) (routable : Bool) : List String :=
  ["modality:" ++ modality.value] ++ (if free then ["cost:free"] else []) ++
    (if cheap then ["cost:cheap"] else []) ++
    (if capabilities.supportsStreaming then ["cap:streaming"] else []) ++
    (if capabilities.supportsTools then ["cap:tools"] else []) ++
    (if capabilities.supportsJsonSchema then ["cap:json-schema"] else []) ++
    (if routable then [] else ["access:read-only"])

/-- `priceMultiplier !== null && priceMultiplier <= 1`. -/
def lowMultiplier : Option Number → Bool
  | some (.finite value) => decide (value ≤ 1)
  | some (.infinite negative) => negative
  | some .nan => false
  | none => false

/-- `rowToEntry`. -/
def rowToEntry (row : ModelCatalogRow) : CatalogModelEntry :=
  let capabilities : ModelCapabilities :=
    { supportsStreaming := row.supportsStreaming
      supportsJsonSchema := row.supportsJsonSchema
      supportsTools := row.supportsTools }
  let cheap := row.free || lowMultiplier row.priceMultiplier
  { connector := row.connector
    model := row.model
    modality := row.modality
    tags := buildDerivedTags row.modality row.free cheap capabilities row.routable
    free := row.free
    cheap
    priceMultiplier := row.priceMultiplier
    rateLimits := none
    pricing :=
      if row.inputPerMTok = none ∧ row.outputPerMTok = none ∧ row.cachedInputPerMTok = none ∧
          row.cacheWrite5mPerMTok = none ∧ row.cacheWrite1hPerMTok = none then none
      else
        some
          { inputPerMTok := row.inputPerMTok
            outputPerMTok := row.outputPerMTok
            cachedInputPerMTok := row.cachedInputPerMTok
            cacheWrite5mPerMTok := row.cacheWrite5mPerMTok
            cacheWrite1hPerMTok := row.cacheWrite1hPerMTok
            unit := row.priceUnit }
    contextWindow := row.contextWindow
    maxOutputTokens := row.maxOutputTokens
    capabilities
    routing :=
      { connector := row.connector
        model := row.model
        endpoint := row.endpoint.filter fun endpoint ↦ endpoint ≠ "" }
    available := decide (row.status = .online)
    provenance := some
      { snapshotId := row.snapshotId
        contentFingerprint := row.contentFingerprint
        observedAt := row.observedAt
        source := row.source
        freshness := row.freshness } }

/-- What a provider's listing says of a price. -/
inductive RawPrice
  | number (value : Number)
  | text (value : String)
  | other

/-- A finite price per token as one per million tokens, to six decimals. -/
def scalePerToken (perToken : Number) : Option Number :=
  perToken.finite?.map fun _ ↦ (perToken.scale 1000000).toFixed 6

/-- `normalizePerMTokPrice`. -/
def normalizePerMTokPrice : RawPrice → Option Number
  | .number value => scalePerToken value
  | .text raw =>
    if Number.trim raw.toList = [] then none else scalePerToken (Number.ofString raw.toList)
  | .other => none

/-- A tariff as the meter takes it: `isUsablePrice` refuses every number that is not finite, so
such a tariff is none. -/
def meterPrice (price : Option Number) : Option ℚ :=
  price.bind Number.finite?

/-- The columns `findPricing` selects, as the meter takes them. -/
def ModelCatalogUpsert.catalogPricing (row : ModelCatalogUpsert) : MeasuredCostPricing where
  inputPerMTok := meterPrice row.inputPerMTok
  outputPerMTok := meterPrice row.outputPerMTok
  cachedInputPerMTok := meterPrice row.cachedInputPerMTok
  cacheWrite5mPerMTok := meterPrice row.cacheWrite5mPerMTok
  cacheWrite1hPerMTok := meterPrice row.cacheWrite1hPerMTok
  tier := some row.tier.value

/-! ### Properties -/

/-- The tier is free when both main tariffs are zero, or when one of them is unknown and the
provider says so. -/
theorem deriveTier_eq_free_iff {inputPerMTok outputPerMTok : Option Number} {free : Bool} :
    (deriveTier inputPerMTok outputPerMTok free).1 = .free ↔
      inputPerMTok = some (.finite 0) ∧ outputPerMTok = some (.finite 0) ∨
        (inputPerMTok = none ∨ outputPerMTok = none) ∧ free = true := by
  unfold deriveTier
  split
  · rename_i input output
    split
    · rename_i h
      simp [h]
    · rename_i h
      simp [h]
  · rename_i hknown
    have hnone : inputPerMTok = none ∨ outputPerMTok = none := by
      by_contra hsome
      obtain ⟨hinput, houtput⟩ := not_or.1 hsome
      obtain ⟨input, rfl⟩ := Option.ne_none_iff_exists'.1 hinput
      obtain ⟨output, rfl⟩ := Option.ne_none_iff_exists'.1 houtput
      exact hknown input output rfl rfl
    have hzero : ¬ (inputPerMTok = some (.finite 0) ∧ outputPerMTok = some (.finite 0)) := by
      rintro ⟨rfl, rfl⟩
      simp at hnone
    split
    · rename_i hfree
      simp [hnone, hfree]
    · rename_i hfree
      simp [hzero, hfree]

/-- The flag of a row says what its tier says. -/
theorem deriveTier_free (inputPerMTok outputPerMTok : Option Number) (free : Bool) :
    (deriveTier inputPerMTok outputPerMTok free).2 = true ↔
      (deriveTier inputPerMTok outputPerMTok free).1 = .free := by
  unfold deriveTier
  split
  · split <;> simp
  · split <;> simp

/-- An entry read back from a row is free exactly when the row's tier is. -/
theorem rowToEntry_free_iff {row : ModelCatalogRow} {now : ℤ} {useEnabled : Bool}
    {entry : CatalogModelEntry} (h : row.toModelCatalogUpsert = entryToRow now useEnabled entry) :
    (rowToEntry row).free = true ↔ row.tier = .free := by
  show row.toModelCatalogUpsert.free = true ↔ row.toModelCatalogUpsert.tier = .free
  rw [h]
  exact deriveTier_free _ _ _

theorem ModelTier.value_eq_free_iff {tier : ModelTier} : tier.value = "free" ↔ tier = .free := by
  cases tier with
  | free => simp [value]
  | paid => simp [value]
  | unknown => simp [value]

end ModelConnector.Connectors
