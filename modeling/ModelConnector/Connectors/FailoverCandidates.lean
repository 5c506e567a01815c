import ModelConnector.Connectors.Catalog
import ModelConnector.Connectors.Failover
import ModelConnector.Foundations.Firsts

/-!
# The candidates of a failover chain

`buildFailoverCandidates` flattens the chat models the connectors declare, sorts the free ones
before the paid ones, puts the model that was asked for in front, and keeps of the candidates that
are spelled alike the first. The order of a cascade is checked by `validateFreeBeforePaid`.
-/

namespace ModelConnector.Connectors

/-- What a connector says of one of its models. -/
structure ProviderModelMeta where
  id : String
  modality : Option ModelModality := none
  free : Option Bool := none
  deriving DecidableEq

/-- What the `ConnectorCapabilities` of a connector say of its models. -/
structure DeclaredCapabilities where
  name : String
  models : List String
  freeModels : Option (List String) := none
  modality : Option ModelModality := none
  modelMeta : Option (List ProviderModelMeta) := none
  deriving DecidableEq

/-- `AUTO_ALIASES`. -/
def AUTO_ALIASES : List String :=
  ["", "auto", "failover", "free", "default"]

/-- `BuildFailoverCandidatesInput`. -/
structure BuildFailoverCandidatesInput where
  capabilities : List DeclaredCapabilities
  requestedModel : Option String := none
  providerOrder : List String
  deepseekModel : String
  paidEnabled : Bool
  allowFreeDowngrade : Bool
  deriving DecidableEq

/-- A candidate with what it is sorted by. -/
structure BuiltEntry where
  candidate : CascadeCandidate
  isDeepseek : Bool
  providerRank : ℕ
  declOrder : ℕ
  deriving DecidableEq

/-! ### The declared models -/

/-- `isDeepseekEntry`. Only letters of the Latin alphabet match `/deepseek/i`. -/
def isDeepseekEntry (model deepseekModel : String) : Bool :=
  decide (model = deepseekModel) ||
    decide ("deepseek".toList <:+: model.toList.map Char.toLower)

/-- The models of a connector. -/
def DeclaredCapabilities.metas (caps : DeclaredCapabilities) : List ProviderModelMeta :=
  match caps.modelMeta with
  | some (info :: rest) => info :: rest
  | _ => caps.models.map fun id ↦ { id }

/-- The candidate of a model. -/
def DeclaredCapabilities.candidate (caps : DeclaredCapabilities) (info : ProviderModelMeta) :
    CascadeCandidate where
  connector := caps.name
  model := info.id
  tier := if info.free.getD ((caps.freeModels.getD []).contains info.id) then .free else .paid

/-- The candidates of a connector. -/
def DeclaredCapabilities.candidates (caps : DeclaredCapabilities) : List CascadeCandidate :=
  (caps.metas.filter fun info ↦
    decide (info.modality.getD (caps.modality.getD .chat) = .chat)).map caps.candidate

/-- A candidate with its place in the declarations. -/
def BuildFailoverCandidatesInput.entry (input : BuildFailoverCandidatesInput) (declOrder : ℕ)
    (candidate : CascadeCandidate) : BuiltEntry where
  candidate
  isDeepseek := decide (candidate.tier = .free) &&
    isDeepseekEntry candidate.model input.deepseekModel
  -- a name that is not in the order ranks after those that are
  providerRank := input.providerOrder.idxOf candidate.connector
  declOrder

/-- `collectEntries`. -/
def collectEntries (input : BuildFailoverCandidatesInput) : List BuiltEntry :=
  (input.capabilities.flatMap DeclaredCapabilities.candidates).mapIdx input.entry

/-! ### Order -/

/-- The text candidates are compared by. -/
def CascadeCandidate.key (c : CascadeCandidate) : String :=
  c.connector ++ ":" ++ c.model

/-- `dedupe`. -/
def dedupe (candidates : List CascadeCandidate) : List CascadeCandidate :=
  firsts CascadeCandidate.key [] candidates

/-- `byRank`. -/
def byRank (a b : BuiltEntry) : ℤ :=
  let ranks : ℤ := a.providerRank - b.providerRank
  if ranks ≠ 0 then ranks else a.declOrder - b.declOrder

/-- The comparison of free entries. -/
def byDeepseekThenRank (a b : BuiltEntry) : ℤ :=
  if a.isDeepseek ≠ b.isDeepseek then (if a.isDeepseek then -1 else 1) else byRank a b

/-- `entries.sort(compare)`. -/
def sortEntries (compare : BuiltEntry → BuiltEntry → ℤ) (entries : List BuiltEntry) :
    List BuiltEntry :=
  entries.mergeSort fun a b ↦ decide (compare a b ≤ 0)

/-- The free entries in order. -/
def freeSorted (entries : List BuiltEntry) : List BuiltEntry :=
  sortEntries byDeepseekThenRank (entries.filter fun e ↦ decide (e.candidate.tier = .free))

/-- The paid entries in order. -/
def paidSorted (entries : List BuiltEntry) (paidEnabled : Bool) : List BuiltEntry :=
  sortEntries byRank
    (if paidEnabled then entries.filter fun e ↦ decide (e.candidate.tier = .paid) else [])

/-- `orderFreeFirst`. -/
def orderFreeFirst (entries : List BuiltEntry) (paidEnabled : Bool) : List CascadeCandidate :=
  (freeSorted entries ++ paidSorted entries paidEnabled).map BuiltEntry.candidate

/-- The loop of `validateFreeBeforePaid`. -/
def checkFreeBeforePaid : Bool → List CascadeCandidate → Except String Unit
  | _, [] => .ok ()
  | seenPaid, c :: rest =>
    if c.tier = .paid then checkFreeBeforePaid true rest
    else if seenPaid then
      .error ("Cascade order violation: free candidate \"" ++ c.connector ++ ":" ++ c.model ++
        "\" appears after a paid candidate")
    else checkFreeBeforePaid seenPaid rest

/-- `validateFreeBeforePaid`. -/
def validateFreeBeforePaid (candidates : List CascadeCandidate) : Except String Unit :=
  checkFreeBeforePaid false candidates

/-! ### The list -/

/-- The model that is asked for, unless it is an alias. No other letters than those of the Latin
alphabet are those of an alias in lower case. -/
def BuildFailoverCandidatesInput.requested (input : BuildFailoverCandidatesInput) :
    Option String :=
  (input.requestedModel.map fun model ↦ String.ofList (Number.trim model.toList)).filter
    fun requested ↦ !AUTO_ALIASES.contains (String.ofList (requested.toList.map Char.toLower))

/-- The first declaration of a model that is asked for. -/
def BuildFailoverCandidatesInput.promoted (input : BuildFailoverCandidatesInput) :
    Option BuiltEntry :=
  input.requested.bind fun requested ↦
    (collectEntries input).find? fun e ↦ decide (e.candidate.model = requested)

/-- `buildFailoverCandidates`. -/
def buildFailoverCandidates (input : BuildFailoverCandidatesInput) :
    Except String (List CascadeCandidate) :=
  let freeFirst := orderFreeFirst (collectEntries input) input.paidEnabled
  match input.promoted with
  | none => do
    let result := dedupe freeFirst
    validateFreeBeforePaid result
    return result
  | some entry =>
    if entry.candidate.tier = .paid ∧ input.allowFreeDowngrade = false then
      .ok [entry.candidate]
    else .ok (dedupe (entry.candidate :: freeFirst))

end ModelConnector.Connectors
