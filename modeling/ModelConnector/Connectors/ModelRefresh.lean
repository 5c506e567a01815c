import Mathlib.Data.Rat.Defs
import ModelConnector.Foundations.EcmaString

/-!
# Refreshing the models of a connector

`refreshModels` of `BaseApiConnector` reads the pages of a provider's listing one after the other
and then replaces the models it has. Where a page continues is up to the connector. The default is
that none does; `GeminiApiConnector` follows the token that the provider sends.

What is fetched is an argument, an answer for each URL. Nothing in the source bounds the loop, so
the loop has a number of rounds here, and no result when they do not suffice.
-/

namespace ModelConnector.Refresh

open Ecma

/-! ### What a connector makes of a page -/

/-- `ModelPricing`, where a rate may be missing. -/
structure ModelPricing where
  inputPerMTok : Option ℚ := none
  outputPerMTok : Option ℚ := none
  unit : String
  deriving DecidableEq

/-- `ProviderModelMeta`, as far as a listing fills it. -/
structure ProviderModelMeta where
  id : Text
  pricing : Option ModelPricing := none
  deriving DecidableEq

/-- The methods that a connector overrides. `none` is an error that is thrown. -/
structure ModelListing where
  modelsUrl : Text
  extractModels : Value → Option (List ProviderModelMeta)
  getNextModelsUrl : Value → Option (Option Text)

/-- `extractModels` of the base class. -/
def extractModelIds (json : Value) : List ProviderModelMeta :=
  match optional "data" (some json) with
  | some (.arr entries) => entries.filterMap fun entry ↦
    match optional "id" (some entry) with
    | some (.str (u :: us)) => some { id := u :: us }
    | _ => none
  | _ => []

/-- A connector that overrides nothing but the URL. -/
def baseListing (modelsUrl : Text) : ModelListing where
  modelsUrl := modelsUrl
  extractModels json := some (extractModelIds json)
  getNextModelsUrl _ := some none

/-! ### The listing of Gemini -/

/-- `DEFAULT_BASE_URL`. -/
def DEFAULT_BASE_URL : Text :=
  ascii "https://generativelanguage.googleapis.com/v1beta"

/-- `GEMINI_LIST_PRICES_USD_PER_MTOK`. -/
def GEMINI_LIST_PRICES_USD_PER_MTOK : List (Text × ModelPricing) :=
  [(ascii "gemini-2.5-flash",
    { inputPerMTok := some (3 / 10), outputPerMTok := some (5 / 2), unit := "USD/1M tokens" })]

/-- The property names that every object inherits. -/
def inheritedNames : List Text :=
  ["constructor", "__defineGetter__", "__defineSetter__", "hasOwnProperty", "__lookupGetter__",
    "__lookupSetter__", "isPrototypeOf", "propertyIsEnumerable", "toString", "valueOf", "__proto__",
    "toLocaleString"].map ascii

/-- `withGeminiPrice`. An inherited property is an object without rates. -/
def withGeminiPrice (id : Text) : ProviderModelMeta where
  id := id
  pricing := (GEMINI_LIST_PRICES_USD_PER_MTOK.lookup id).or
    (if inheritedNames.contains id then some { unit := "USD/1M tokens" } else none)

/-- `.replace(/^models\//, '')`. -/
def stripModels (name : Text) : Text :=
  if ascii "models/" <+: name then name.drop 7 else name

/-- Whether a value is a given string. -/
def isString (s : Text) : Value → Bool
  | .str t => t = s
  | _ => false

/-- What `extractModels` makes of an entry. -/
def geminiEntry (entry : Value) : Option (List ProviderModelMeta) :=
  match entry.property? "name", entry.property? "supportedGenerationMethods" with
  | some (some (.str name)), some (some (.arr methods)) =>
    if methods.any (isString (ascii "generateContent")) then
      match stripModels name with
      | [] => some []
      | u :: us => some [withGeminiPrice (u :: us)]
    else some []
  | some _, some _ => some []
  | _, _ => none

/-- `extractModels` of `GeminiApiConnector`. -/
def geminiModels (json : Value) : Option (List ProviderModelMeta) :=
  match json.property? "models" with
  | none => none
  | some (some (.arr entries)) => (entries.mapM geminiEntry).map List.flatten
  | some _ => some []

/-- `getNextModelsUrl` of `GeminiApiConnector`. -/
def geminiNextUrl (modelsUrl : Text) (json : Value) : Option (Option Text) :=
  match json.property? "nextPageToken" with
  | none => none
  | some (some (.str (u :: us))) =>
    (encodeURIComponent (u :: us)).map fun token ↦ some (modelsUrl ++ ascii "&pageToken=" ++ token)
  | some _ => some none

/-- `getBaseUrl` of `GeminiApiConnector`. -/
def geminiBaseUrl (GEMINI_API_BASE_URL : Text) : Text :=
  let url := if GEMINI_API_BASE_URL = [] then DEFAULT_BASE_URL else GEMINI_API_BASE_URL
  if url.getLast? = some 0x2F then url.dropLast else url

/-- `GeminiApiConnector`. -/
def geminiListing (GEMINI_API_BASE_URL : Text) : ModelListing where
  modelsUrl := geminiBaseUrl GEMINI_API_BASE_URL ++ ascii "/models?pageSize=1000"
  extractModels := geminiModels
  getNextModelsUrl :=
    geminiNextUrl (geminiBaseUrl GEMINI_API_BASE_URL ++ ascii "/models?pageSize=1000")

/-! ### The loop -/

/-- What fetching a page comes to; the body is missing when it cannot be parsed. -/
inductive PageAnswer
  | rejected
  | answered (status : ℕ) (body : Option Value)

/-- The reasons of a failed refresh. -/
inductive RefreshFailure
  | http
  | network
  | parse
  | empty
  deriving DecidableEq

/-- How a refresh ends. -/
inductive RefreshEnd
  | success
  | failed (reason : RefreshFailure)
  /-- A method of the connector throws. -/
  | thrown
  deriving DecidableEq

/-- What a round of the loop comes to. -/
inductive PageRead
  | stopped (result : RefreshEnd)
  | read (models : List ProviderModelMeta) (next : Option Text)

/-- The body of the loop. -/
def readPage (listing : ModelListing) : PageAnswer → PageRead
  | .rejected => .stopped (.failed .network)
  | .answered status body =>
    if isOk status then
      match body with
      | none => .stopped (.failed .parse)
      | some json =>
        match listing.extractModels json, listing.getNextModelsUrl json with
        | some models, some next => .read models next
        | _, _ => .stopped .thrown
    else .stopped (.failed .http)

/-- The loop from a URL on, with the models read so far, and what follows it. The models that a
refresh puts in the place of the old ones come with how it ends. -/
def refreshFrom (listing : ModelListing) (fetch : Text → PageAnswer) :
    ℕ → Option Text → List ProviderModelMeta → Option (RefreshEnd × Option (List ProviderModelMeta))
  | 0, _, _ => none
  | rounds + 1, pageUrl, metas =>
    match pageUrl with
    | some (u :: us) =>
      match readPage listing (fetch (u :: us)) with
      | .stopped result => some (result, none)
      | .read models next => refreshFrom listing fetch rounds next (metas ++ models)
    | _ => if metas = [] then some (.failed .empty, none) else some (.success, some metas)

/-- `refreshModels`: how it ends, and `_refreshedModels` afterwards. -/
def refreshModels (listing : ModelListing) (fetch : Text → PageAnswer)
    (_refreshedModels : Option (List ProviderModelMeta)) (rounds : ℕ) :
    Option (RefreshEnd × Option (List ProviderModelMeta)) :=
  (refreshFrom listing fetch rounds (some listing.modelsUrl) []).map fun p ↦
    (p.1, p.2.or _refreshedModels)

end ModelConnector.Refresh
