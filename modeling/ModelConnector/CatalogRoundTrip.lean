import ModelConnector.Connectors.CatalogSnapshot

/-!
# Entries, rows, and entries again

A row keeps what an entry says, and `rowToEntry` reads an entry from it. Two things do not come
back. Where no price is known the entry read from the row has no pricing, so the unit of a pricing
without prices is lost; and an endpoint that is the empty text is read as none. Otherwise the row of
the entry that was read back has the same stable content, and from the second row on it always has.
-/

namespace ModelConnector.Connectors

/-- No price is known. -/
def ModelPricing.NoPrice (pricing : ModelPricing) : Prop :=
  pricing.inputPerMTok = none ∧ pricing.outputPerMTok = none ∧ pricing.cachedInputPerMTok = none ∧
    pricing.cacheWrite5mPerMTok = none ∧ pricing.cacheWrite1hPerMTok = none

instance (pricing : ModelPricing) : Decidable pricing.NoPrice :=
  inferInstanceAs (Decidable (_ ∧ _))

/-- The entry says something that its row does not give back. -/
def CatalogModelEntry.LosesContent (entry : CatalogModelEntry) : Prop :=
  (∃ pricing, entry.pricing = some pricing ∧ pricing.NoPrice ∧ pricing.unit ≠ DEFAULT_PRICE_UNIT) ∨
    entry.routing.endpoint = some ""

variable {entry : CatalogModelEntry} {row : ModelCatalogRow} {now now' : ℤ}
  {useEnabled useEnabled' : Bool}

/-! ### Prices -/

/-- The pricing that is read from the row of an entry: none where no price is known. -/
theorem pricing_rowToEntry (h : row.toModelCatalogUpsert = entryToRow now useEnabled entry) :
    (rowToEntry row).pricing = entry.pricing.filter fun pricing ↦ ¬pricing.NoPrice := by
  have hprices : (rowToEntry row).pricing =
      if row.inputPerMTok = none ∧ row.outputPerMTok = none ∧ row.cachedInputPerMTok = none ∧
          row.cacheWrite5mPerMTok = none ∧ row.cacheWrite1hPerMTok = none then none
      else
        some ⟨row.inputPerMTok, row.outputPerMTok, row.cachedInputPerMTok, row.cacheWrite5mPerMTok,
          row.cacheWrite1hPerMTok, row.priceUnit⟩ := rfl
  rw [hprices, h]
  cases hpricing : entry.pricing with
  | none =>
    simp only [entryToRow, CatalogModelEntry.tariff, hpricing]
    rfl
  | some pricing =>
    simp only [entryToRow, CatalogModelEntry.tariff, hpricing, Option.bind_some, Option.map_some,
      Option.getD_some, Option.filter_some]
    by_cases hnone : pricing.NoPrice
    · exact (if_pos hnone).trans (if_neg (by simpa using hnone)).symm
    · exact (if_neg hnone).trans (if_pos (by simpa using hnone)).symm

/-- Every tariff comes back. -/
theorem tariff_rowToEntry (h : row.toModelCatalogUpsert = entryToRow now useEnabled entry)
    {field : ModelPricing → Option Number}
    (hfield : ∀ pricing : ModelPricing, pricing.NoPrice → field pricing = none) :
    (rowToEntry row).tariff field = entry.tariff field := by
  rw [CatalogModelEntry.tariff, pricing_rowToEntry h, CatalogModelEntry.tariff]
  cases hpricing : entry.pricing with
  | none => rfl
  | some pricing =>
    by_cases hnone : pricing.NoPrice
    · rw [Option.filter_some, if_neg (by simpa using hnone), Option.bind_some, hfield pricing hnone]
      rfl
    · rw [Option.filter_some, if_pos (by simpa using hnone)]

/-- The unit comes back unless it is that of a pricing without prices. -/
theorem priceUnit_rowToEntry_iff (h : row.toModelCatalogUpsert = entryToRow now useEnabled entry) :
    ((rowToEntry row).pricing.map ModelPricing.unit).getD DEFAULT_PRICE_UNIT =
        (entry.pricing.map ModelPricing.unit).getD DEFAULT_PRICE_UNIT ↔
      ¬∃ pricing, entry.pricing = some pricing ∧ pricing.NoPrice ∧
        pricing.unit ≠ DEFAULT_PRICE_UNIT := by
  rw [pricing_rowToEntry h]
  cases hpricing : entry.pricing with
  | none => exact iff_of_true rfl (by simp)
  | some pricing =>
    by_cases hnone : pricing.NoPrice
    · rw [Option.filter_some, if_neg (by simpa using hnone)]
      constructor
      · rintro hunit ⟨_, ⟨⟩, -, hne⟩
        exact hne hunit.symm
      · intro hall
        by_contra hne
        exact hall ⟨pricing, rfl, hnone, Ne.symm hne⟩
    · rw [Option.filter_some, if_pos (by simpa using hnone)]
      refine iff_of_true rfl ?_
      rintro ⟨_, ⟨⟩, hnone', -⟩
      exact hnone hnone'

/-! ### Tiers -/

/-- A tier that was derived is derived again from the tariffs and the flag it left. -/
theorem deriveTier_deriveTier (inputPerMTok outputPerMTok : Option Number) (free : Bool) :
    deriveTier inputPerMTok outputPerMTok (deriveTier inputPerMTok outputPerMTok free).2 =
      deriveTier inputPerMTok outputPerMTok free := by
  cases inputPerMTok with
  | none => cases free <;> rfl
  | some input =>
    cases outputPerMTok with
    | none => cases free <;> rfl
    | some output => rfl

/-! ### The round trip -/

/-- The stable content of the row of the entry that was read back, in terms of what does not always
come back. -/
theorem catalogStableContent_rowToEntry
    (h : row.toModelCatalogUpsert = entryToRow now useEnabled entry) :
    catalogStableContent (entryToRow now' useEnabled' (rowToEntry row)) =
      { catalogStableContent (entryToRow now useEnabled entry) with
        priceUnit := ((rowToEntry row).pricing.map ModelPricing.unit).getD DEFAULT_PRICE_UNIT
        endpoint := entry.routing.endpoint.filter fun endpoint ↦ endpoint ≠ "" } := by
  have hrow : ∀ {β : Type} (field : ModelCatalogUpsert → β),
      field row.toModelCatalogUpsert = field (entryToRow now useEnabled entry) :=
    fun field ↦ by rw [h]
  have htier : deriveTier (entry.tariff ModelPricing.inputPerMTok)
      (entry.tariff ModelPricing.outputPerMTok) (rowToEntry row).free =
        deriveTier (entry.tariff ModelPricing.inputPerMTok)
          (entry.tariff ModelPricing.outputPerMTok) entry.free := by
    have hfree : (rowToEntry row).free = (deriveTier (entry.tariff ModelPricing.inputPerMTok)
        (entry.tariff ModelPricing.outputPerMTok) entry.free).2 := hrow ModelCatalogUpsert.free
    rw [hfree, deriveTier_deriveTier]
  have hendpoint : (rowToEntry row).routing.endpoint =
      entry.routing.endpoint.filter fun endpoint ↦ endpoint ≠ "" :=
    congrArg (Option.filter _) (hrow ModelCatalogUpsert.endpoint)
  unfold catalogStableContent
  rw [CatalogStableContent.mk.injEq]
  simp only [entryToRow, tariff_rowToEntry h fun _ hnone ↦ hnone.1,
    tariff_rowToEntry h fun _ hnone ↦ hnone.2.1, tariff_rowToEntry h fun _ hnone ↦ hnone.2.2.1,
    tariff_rowToEntry h fun _ hnone ↦ hnone.2.2.2.1, tariff_rowToEntry h fun _ hnone ↦ hnone.2.2.2.2,
    htier, hendpoint]
  exact ⟨hrow ModelCatalogUpsert.connector, hrow ModelCatalogUpsert.model,
    hrow ModelCatalogUpsert.modality, hrow ModelCatalogUpsert.supportsStreaming,
    hrow ModelCatalogUpsert.supportsJsonSchema, hrow ModelCatalogUpsert.supportsTools, trivial,
    trivial, trivial, trivial, trivial, trivial, trivial, trivial,
    hrow ModelCatalogUpsert.priceMultiplier, hrow ModelCatalogUpsert.contextWindow,
    hrow ModelCatalogUpsert.maxOutputTokens, trivial,
    congrArg isModalityExecutableHere (hrow ModelCatalogUpsert.modality)⟩

theorem filter_ne_empty_iff {endpoint : Option String} :
    (endpoint.filter fun endpoint ↦ endpoint ≠ "") = endpoint ↔ endpoint ≠ some "" := by
  cases endpoint with
  | none => exact iff_of_true rfl (by simp)
  | some text =>
    by_cases htext : text = ""
    · rw [htext]
      exact iff_of_false (by simp) (by simp)
    · exact iff_of_true (by simp [htext]) (by simp [htext])

/-- **A row after a round trip.** It has the same stable content unless the entry says something
that a row does not give back, and the entry that is read is free exactly when the tier is. -/
theorem catalogStableContent_roundTrip_iff
    (h : row.toModelCatalogUpsert = entryToRow now useEnabled entry) :
    (catalogStableContent (entryToRow now' useEnabled' (rowToEntry row)) =
        catalogStableContent row.toModelCatalogUpsert ∧
      ((rowToEntry row).free = true ↔ row.tier = .free)) ↔ ¬entry.LosesContent := by
  rw [and_iff_left (rowToEntry_free_iff h), catalogStableContent_rowToEntry h, h,
    CatalogModelEntry.LosesContent, not_or, ← priceUnit_rowToEntry_iff h, ← Ne,
    ← filter_ne_empty_iff]
  constructor
  · intro heq
    exact ⟨congrArg CatalogStableContent.priceUnit heq, congrArg CatalogStableContent.endpoint heq⟩
  · rintro ⟨hunit, hendpoint⟩
    rw [hunit, hendpoint]
    rfl

/-- An entry that was read from a row loses nothing more: from there on the content stays. -/
theorem not_losesContent_rowToEntry
    (h : row.toModelCatalogUpsert = entryToRow now useEnabled entry) :
    ¬(rowToEntry row).LosesContent := by
  rintro (⟨pricing, hpricing, hnone, -⟩ | hendpoint)
  · rw [pricing_rowToEntry h, Option.filter_eq_some_iff] at hpricing
    exact of_decide_eq_true hpricing.2 hnone
  · have hkept : row.endpoint.filter (fun endpoint ↦ endpoint ≠ "") = some "" := hendpoint
    have hne := (Option.filter_eq_some_iff.1 hkept).2
    simp at hne

/-- A speech model whose prices are per hour: none is known per token. -/
def hourlyEntry : CatalogModelEntry where
  connector := "groq"
  model := "whisper-large-v3"
  modality := .speechToText
  tags := []
  free := false
  cheap := false
  priceMultiplier := none
  rateLimits := none
  pricing := some { inputPerMTok := none, outputPerMTok := none, unit := "USD/hour" }
  contextWindow := none
  maxOutputTokens := none
  capabilities := ⟨false, false, false⟩
  routing := { connector := "groq", model := "whisper-large-v3" }
  available := true

/-- The row an entry is kept as. -/
def keptRow (entry : CatalogModelEntry) : ModelCatalogRow :=
  { entryToRow 0 true entry with
    id := 0
    firstSeen := 0
    lastSeen := 0
    absent := false
    snapshotId := none
    contentFingerprint := none
    observedAt := 0
    source := .providerApi
    freshness := .fresh
    absentSince := none }

/-- A model with prices per token. -/
def pricedEntry : CatalogModelEntry :=
  { hourlyEntry with
    connector := "openai"
    model := "gpt-5-mini"
    modality := .chat
    pricing := some {
      inputPerMTok := some (.finite (1 / 4))
      outputPerMTok := some (.finite 2)
      cachedInputPerMTok := some (.finite (1 / 40))
      unit := DEFAULT_PRICE_UNIT }
    contextWindow := some (.finite 400000)
    routing := { connector := "openai", model := "gpt-5-mini", endpoint := some "v1/responses" } }

/-- It comes back as it was. -/
theorem roundTrip_priced :
    catalogStableContent (entryToRow 0 true (rowToEntry (keptRow pricedEntry))) =
        catalogStableContent (keptRow pricedEntry).toModelCatalogUpsert ∧
      ((rowToEntry (keptRow pricedEntry)).free = true ↔ (keptRow pricedEntry).tier = .free) := by
  have hkept : (keptRow pricedEntry).toModelCatalogUpsert = entryToRow 0 true pricedEntry := rfl
  refine (catalogStableContent_roundTrip_iff hkept).2 ?_
  rintro (⟨pricing, hpricing, ⟨hinput, -⟩, -⟩ | hendpoint)
  · cases hpricing
    cases hinput
  · exact absurd hendpoint (by decide)

/-- The unit of the speech model is read as the default one. -/
theorem hourly_unit_lost :
    catalogStableContent (entryToRow 0 true (rowToEntry (keptRow hourlyEntry))) ≠
      catalogStableContent (keptRow hourlyEntry).toModelCatalogUpsert := by
  decide +kernel

end ModelConnector.Connectors
