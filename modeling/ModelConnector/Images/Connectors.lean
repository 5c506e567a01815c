import ModelConnector.Images.Generation

/-!
# The connectors of the image providers

What `generate` of each connector asks its provider for. The model of a request is optional, and
each connector has its own way with it: Vertex and Fal.ai have a default, OpenAI goes by the quality
and Replicate has one model. What the providers do, and which credentials are missing, is an
argument. -/

namespace ModelConnector.Images

/-- The values of `quality`. -/
inductive Quality
  | low
  | medium
  | high
  deriving DecidableEq

/-- What a provider is asked for: its own name of the model, and the quality where that says which
model of the catalogue is meant. -/
structure ApiRequest where
  provider : ProviderId
  apiModel : String
  quality : Option Quality := none
  deriving DecidableEq

/-- `apiModelName` of `IMAGE_CAPABILITIES`, by model. -/
def API_MODEL_NAMES : List (String × String) :=
  [("vertex:nano-banana", "gemini-2.5-flash-image"),
    ("vertex:imagen-4-fast", "imagen-4.0-fast-generate-001"),
    ("vertex:imagen-4", "imagen-4.0-generate-001"),
    ("vertex:imagen-4-ultra", "imagen-4.0-ultra-generate-001"),
    ("replicate:flux-pro", "black-forest-labs/flux-pro"),
    ("openai:gpt-image-1-low", "gpt-image-1"), ("openai:gpt-image-1-medium", "gpt-image-1"),
    ("openai:gpt-image-1-high", "gpt-image-1"), ("fal-ai:flux/dev", "flux/dev"),
    ("fal-ai:flux-pro/v1.1", "flux-pro/v1.1")]

/-- `NANO_BANANA_MODEL`. -/
def NANO_BANANA_MODEL : String := "vertex:nano-banana"

/-- `resolveVertexApiModel`; it throws for one model. -/
def resolveVertexApiModel (modelId : String) : Option String :=
  if modelId = NANO_BANANA_MODEL then none
  else some ((API_MODEL_NAMES.lookup modelId).getD "imagen-4.0-fast-generate-001")

/-- `MODEL_ID_MAP`. -/
def MODEL_ID_MAP : Quality → String
  | .low => "openai:gpt-image-1-low"
  | .medium => "openai:gpt-image-1-medium"
  | .high => "openai:gpt-image-1-high"

/-- A call of a provider, and the model the connector reports for it. -/
structure ConnectorCall where
  modelId : String
  request : ApiRequest
  deriving DecidableEq

/-- The path of a Fal.ai model. -/
def falModelPath (modelId : String) : String :=
  if "fal-ai:".toList.isPrefixOf modelId.toList then String.ofList (modelId.toList.drop 7)
  else modelId

/-- The call that `generate` of a connector makes, if it does not throw before. -/
def connectorCall (provider : ProviderId) (model : Option String) (quality : Quality) :
    Option ConnectorCall :=
  match provider with
  | .vertex =>
    let modelId := model.getD "vertex:imagen-4-fast"
    (resolveVertexApiModel modelId).map fun apiModel ↦ ⟨modelId, { provider := .vertex, apiModel }⟩
  | .replicate =>
    some ⟨"replicate:flux-pro",
      { provider := .replicate, apiModel := "black-forest-labs/flux-pro" }⟩
  | .openaiImages =>
    some ⟨MODEL_ID_MAP quality, ⟨.openaiImages, "gpt-image-1", some quality⟩⟩
  | .falAi =>
    let modelId := model.getD "fal-ai:flux/dev"
    some ⟨modelId, { provider := .falAi, apiModel := falModelPath modelId }⟩

/-- What the providers do. -/
structure ProviderWorld where
  /-- Where credentials are missing. -/
  missing : ProviderId → Option String
  /-- The circuit of the model, the provider, and storing what it answers. -/
  api : ApiRequest → GenerateEnd

/-- `generate` of the connectors. -/
def connectorGenerate (quality : Quality) (p : ProviderWorld) : Generate := fun provider model ↦
  match p.missing provider with
  | some vaultPath => .notProvisioned provider.value vaultPath
  | none =>
    match connectorCall provider model quality with
    | none => .failed ("Vertex model '" ++ NANO_BANANA_MODEL ++
        "' (Nano Banana / Gemini 2.5 Flash Image) is not yet supported. It requires a separate " ++
        ":generateContent endpoint. See GD-9 in INSIGHTS-CONN-0052.md.")
    | some call => p.api call.request

/-- The request that stands for a model of the catalogue. -/
def catalogueRequest (model : String) : Option ApiRequest :=
  match IMAGE_CAPABILITIES.lookup model, API_MODEL_NAMES.lookup model with
  | some provider, some apiModel =>
    some ⟨provider, apiModel,
      [.low, .medium, .high].find? fun quality ↦ MODEL_ID_MAP quality = model⟩
  | _, _ => none

/-- Images come from a call of the provider. -/
theorem connectorGenerate_completed {quality : Quality} {p : ProviderWorld} {provider : ProviderId}
    {model : Option String} {images : GeneratedImages}
    (h : connectorGenerate quality p provider model = .completed images) :
    ∃ call, connectorCall provider model quality = some call ∧
      p.api call.request = .completed images := by
  unfold connectorGenerate at h
  split at h
  · cases h
  · split at h
    · cases h
    · rename_i call hcall
      exact ⟨call, hcall, h⟩

/-- A call goes to the provider of its connector. -/
theorem connectorCall_provider {provider : ProviderId} {model : Option String} {quality : Quality}
    {call : ConnectorCall} (h : connectorCall provider model quality = some call) :
    call.request.provider = provider := by
  cases provider with
  | vertex =>
    obtain ⟨apiModel, -, rfl⟩ := Option.map_eq_some_iff.1 h
    rfl
  | replicate | openaiImages | falAi =>
    cases h
    rfl

end ModelConnector.Images
