import ModelConnector.Connectors.Catalog

/-!
# The content of a catalogue snapshot

What of a row is content and what is bookkeeping, the fingerprints of the content, and the drift
between the rows that were stored and the rows a provider lists now. A fingerprint is SHA-256 of the
JSON text of a value; it and the order of `localeCompare` are parameters.
-/

namespace ModelConnector.Connectors

/-- What a row says of its model. -/
structure CatalogStableContent where
  connector : String
  model : String
  modality : ModelModality
  supportsStreaming : Bool
  supportsJsonSchema : Bool
  supportsTools : Bool
  inputPerMTok : Option Number
  outputPerMTok : Option Number
  cachedInputPerMTok : Option Number
  cacheWrite5mPerMTok : Option Number
  cacheWrite1hPerMTok : Option Number
  priceUnit : String
  tier : ModelTier
  free : Bool
  priceMultiplier : Option Number
  contextWindow : Option Number
  maxOutputTokens : Option Number
  endpoint : Option String
  executableHere : Bool
  deriving DecidableEq

/-- `sha256` of the values that are fingerprinted, and `a.localeCompare(b) <= 0`. -/
structure CatalogDigest where
  content : CatalogStableContent → String
  provider : String → List (String × String) → String
  localeLe : String → String → Bool

/-- A row that is about to be written. -/
structure PreparedCatalogRow where
  row : ModelCatalogUpsert
  stableContent : CatalogStableContent
  contentFingerprint : String
  deriving DecidableEq

/-- What happened to a model. -/
inductive CatalogChangeType
  | added
  | removed
  | changed
  deriving DecidableEq

/-- A difference between two snapshots. -/
structure CatalogDrift where
  model : String
  changeType : CatalogChangeType
  beforeFingerprint : Option String
  afterFingerprint : Option String
  changedFields : List String
  deriving DecidableEq

/-- `catalogStableContent`. -/
def catalogStableContent (row : ModelCatalogUpsert) : CatalogStableContent where
  connector := row.connector
  model := row.model
  modality := row.modality
  supportsStreaming := row.supportsStreaming
  supportsJsonSchema := row.supportsJsonSchema
  supportsTools := row.supportsTools
  inputPerMTok := row.inputPerMTok
  outputPerMTok := row.outputPerMTok
  cachedInputPerMTok := row.cachedInputPerMTok
  cacheWrite5mPerMTok := row.cacheWrite5mPerMTok
  cacheWrite1hPerMTok := row.cacheWrite1hPerMTok
  priceUnit := row.priceUnit
  tier := row.tier
  free := row.free
  priceMultiplier := row.priceMultiplier
  contextWindow := row.contextWindow
  maxOutputTokens := row.maxOutputTokens
  endpoint := row.endpoint
  executableHere := row.executableHere

/-- `===` on a number or `null`: not a number is not equal to itself. -/
def strictEq (a b : Option Number) : Bool :=
  decide (a = b) && decide (a ≠ some .nan)

/-- The fields of a content in the order of its keys, each with `===` on it. -/
def contentFields : List (String × (CatalogStableContent → CatalogStableContent → Bool)) :=
  [("connector", fun a b ↦ decide (a.connector = b.connector)),
    ("model", fun a b ↦ decide (a.model = b.model)),
    ("modality", fun a b ↦ decide (a.modality = b.modality)),
    ("supportsStreaming", fun a b ↦ decide (a.supportsStreaming = b.supportsStreaming)),
    ("supportsJsonSchema", fun a b ↦ decide (a.supportsJsonSchema = b.supportsJsonSchema)),
    ("supportsTools", fun a b ↦ decide (a.supportsTools = b.supportsTools)),
    ("inputPerMTok", fun a b ↦ strictEq a.inputPerMTok b.inputPerMTok),
    ("outputPerMTok", fun a b ↦ strictEq a.outputPerMTok b.outputPerMTok),
    ("cachedInputPerMTok", fun a b ↦ strictEq a.cachedInputPerMTok b.cachedInputPerMTok),
    ("cacheWrite5mPerMTok", fun a b ↦ strictEq a.cacheWrite5mPerMTok b.cacheWrite5mPerMTok),
    ("cacheWrite1hPerMTok", fun a b ↦ strictEq a.cacheWrite1hPerMTok b.cacheWrite1hPerMTok),
    ("priceUnit", fun a b ↦ decide (a.priceUnit = b.priceUnit)),
    ("tier", fun a b ↦ decide (a.tier = b.tier)),
    ("free", fun a b ↦ decide (a.free = b.free)),
    ("priceMultiplier", fun a b ↦ strictEq a.priceMultiplier b.priceMultiplier),
    ("contextWindow", fun a b ↦ strictEq a.contextWindow b.contextWindow),
    ("maxOutputTokens", fun a b ↦ strictEq a.maxOutputTokens b.maxOutputTokens),
    ("endpoint", fun a b ↦ decide (a.endpoint = b.endpoint)),
    ("executableHere", fun a b ↦ decide (a.executableHere = b.executableHere))]

/-- `changedFieldNames`. -/
def changedFieldNames (before after : CatalogStableContent) : List String :=
  ((contentFields.filter fun field ↦ !field.2 before after).map Prod.fst).mergeSort
    fun a b ↦ decide (a ≤ b)

variable (digest : CatalogDigest)

/-- `fingerprintCatalogRow`. -/
def fingerprintCatalogRow (row : ModelCatalogUpsert) : String :=
  digest.content (catalogStableContent row)

/-- A row with its content and fingerprint. -/
def prepareCatalogRow (row : ModelCatalogUpsert) : PreparedCatalogRow where
  row
  stableContent := catalogStableContent row
  contentFingerprint := digest.content (catalogStableContent row)

/-- `prepareCatalogRows`. -/
def prepareCatalogRows (rows : List ModelCatalogUpsert) : List PreparedCatalogRow :=
  rows.map (prepareCatalogRow digest)

/-- `fingerprintProviderSnapshot`. -/
def fingerprintProviderSnapshot (connector : String) (rows : List PreparedCatalogRow) : String :=
  digest.provider connector
    ((rows.map fun prepared ↦ (prepared.row.model, prepared.contentFingerprint)).mergeSort
      fun a b ↦ digest.localeLe a.1 b.1)

/-- The drift of a row that is listed now, with the row of its model that was stored. -/
def listedDrift (previous : Option ModelCatalogRow) (prepared : PreparedCatalogRow) :
    Option CatalogDrift :=
  match previous.filter fun row ↦ !row.absent with
  | none =>
    some
      { model := prepared.row.model
        changeType := .added
        beforeFingerprint := previous.bind ModelCatalogRow.contentFingerprint
        afterFingerprint := some prepared.contentFingerprint
        changedFields := [] }
  | some row =>
    if row.contentFingerprint ≠ none ∧
        row.contentFingerprint ≠ some prepared.contentFingerprint then
      some
        { model := prepared.row.model
          changeType := .changed
          beforeFingerprint := row.contentFingerprint
          afterFingerprint := some prepared.contentFingerprint
          changedFields := changedFieldNames (catalogStableContent row.toModelCatalogUpsert)
            prepared.stableContent }
    else none

/-- The drift of a row that was stored, when it is no longer listed. -/
def removedDrift (nextRows : List PreparedCatalogRow) (previous : ModelCatalogRow) :
    Option CatalogDrift :=
  if previous.absent = false ∧ ∀ prepared ∈ nextRows, prepared.row.model ≠ previous.model then
    some
      { model := previous.model
        changeType := .removed
        beforeFingerprint := previous.contentFingerprint
        afterFingerprint := none
        changedFields := [] }
  else none

/-- `diffCatalogRows`. Of the stored rows of one model the map of them keeps the last. -/
def diffCatalogRows (previousRows : List ModelCatalogRow) (nextRows : List PreparedCatalogRow) :
    List CatalogDrift :=
  let previousByModel := fun model ↦ previousRows.reverse.find? fun row ↦
    decide (row.model = model)
  (nextRows.filterMap (fun prepared ↦ listedDrift (previousByModel prepared.row.model) prepared) ++
      previousRows.filterMap (removedDrift nextRows)).mergeSort
    fun a b ↦ digest.localeLe a.model b.model

end ModelConnector.Connectors
