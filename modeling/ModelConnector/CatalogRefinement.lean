import ModelConnector.Foundations.Run
import ModelConnector.DriftReplay
import ModelConnector.SnapshotApplied

/-!
# What the catalogue shows over time

The stored catalogue against a simpler one: a shelf has a place for every model of a connector,
which is empty, or holds what is shown there, or what was shown there and is gone. A snapshot that
is applied acts on the places of its own connector, one by one (`relist`). After any run of
snapshots, among which some are refused, meet faults or conflicts, the place of a model is what the
snapshots of its connector that were applied make of it, in their order. -/

namespace ModelConnector.CatalogRefinement

open Connectors SnapshotApplied

/-! ### The shelf -/

/-- The place of a model: nothing was listed there, or it is gone, or its content is shown. -/
inductive Place
  | empty
  | gone
  | shown (content : ModelCatalogUpsert)

/-- What an applied snapshot of its connector makes of the place of a model. -/
def relist (input : ApplyProviderSnapshotInput) (model : String) (place : Place) : Place :=
  match input.rows.find? (fun row ↦ decide (row.model = model)), place with
  | some row, .empty => .shown row
  | some row, place => if input.authoritative then .shown row else place
  | none, .shown content => if input.authoritative then .gone else .shown content
  | none, place => place

/-- The place of a key in the stored catalogue. -/
def placeOf (db : CatalogDb) (key : String × String) : Place :=
  match db.rows.lookup key with
  | none => .empty
  | some row => if row.absent then .gone else .shown row.toModelCatalogUpsert

/-- What is read from the catalogue is what is shown. -/
theorem mem_findAll_iff {db : CatalogDb} {content : ModelCatalogUpsert} :
    content ∈ db.findAll.map ModelCatalogRow.toModelCatalogUpsert ↔
      placeOf db (rowKey content) = .shown content := by
  have hvisible : content ∈ db.findAll.map ModelCatalogRow.toModelCatalogUpsert ↔
      content ∈ visibleRows content.connector db := by
    simp only [visibleRows, List.mem_map, List.mem_filter, decide_eq_true_eq]
    constructor
    · rintro ⟨row, hrow, rfl⟩
      exact ⟨row, ⟨hrow, rfl⟩, rfl⟩
    · rintro ⟨row, ⟨hrow, -⟩, heq⟩
      exact ⟨row, hrow, heq⟩
  rw [hvisible, mem_visibleRows_iff, and_iff_right rfl, placeOf]
  constructor
  · rintro ⟨row, hlookup, rfl, habsent⟩
    simp [hlookup, habsent]
  · intro h
    cases hlookup : db.rows.lookup (rowKey content) with
    | none =>
      rw [hlookup] at h
      cases h
    | some row =>
      rw [hlookup] at h
      cases habsent : row.absent with
      | true => simp [habsent] at h
      | false =>
        refine ⟨row, rfl, ?_, habsent⟩
        simpa [habsent] using h

/-! ### One snapshot -/

section Step

variable {digest : CatalogDigest} {fault : ℕ → CatalogStatement → Option CatalogDbError}
  {input : ApplyProviderSnapshotInput} {db db' : CatalogDb}

/-- An applied snapshot acts on the places of its connector, and on no others. -/
theorem placeOf_of_applied {valid : ValidSnapshotInput} {snapshotId : ℕ}
    (hvalid : valid.toApplyProviderSnapshotInput = { input with rows := input.deduped })
    (h : Applied valid snapshotId db db') (key : String × String) :
    placeOf db' key =
      if key.1 = input.connector then relist input key.2 (placeOf db key) else placeOf db key := by
  have hconnector : valid.connector = input.connector := by rw [hvalid]
  have hauth : valid.authoritative = input.authoritative := by rw [hvalid]
  obtain ⟨connector, model⟩ := key
  by_cases hown : connector = input.connector
  · subst hown
    rw [if_pos rfl]
    cases hfirst : input.rows.find? fun row ↦ decide (row.model = model) with
    | none =>
      have hunlisted : model ∉ valid.rows.map ModelCatalogUpsert.model := by
        rw [mem_models_iff hvalid]
        rintro hmem
        obtain ⟨row, hrow, hmodel⟩ := List.mem_map.1 hmem
        exact absurd (decide_eq_true hmodel) (List.find?_eq_none.1 hfirst row hrow)
      have hlookup := h.unlisted model hunlisted
      rw [hconnector, hauth] at hlookup
      simp only [placeOf, hlookup, relist, hfirst]
      cases hstored : db.rows.lookup (input.connector, model) with
      | none => rfl
      | some stored =>
        cases habsent : stored.absent <;> cases hauth' : input.authoritative <;>
          simp [habsent, tombstoned]
    | some row =>
      have hmodel : row.model = model := of_decide_eq_true
        (List.find?_some (p := fun r : ModelCatalogUpsert ↦ decide (r.model = model)) hfirst)
      have hrow : row ∈ valid.rows := (mem_rows_iff hvalid).2 (by rw [hmodel, hfirst])
      have hkey : rowKey row = (input.connector, model) := by
        rw [rowKey_of_mem hrow, hconnector, hmodel]
      simp only [relist, hfirst]
      by_cases hwrites : input.authoritative = true ∨ db.rows.lookup (rowKey row) = none
      · obtain ⟨stored', hstored', hcontent, habsent', -⟩ :=
          h.listed row hrow (hauth ▸ hwrites)
        rw [hkey] at hstored' hwrites
        simp only [placeOf, hstored', habsent', Bool.false_eq_true, if_false, hcontent]
        rcases hwrites with hauth' | hnone
        · cases db.rows.lookup (input.connector, model) with
          | none => rfl
          | some stored => cases habsent : stored.absent <;> simp [hauth', habsent]
        · rw [hnone]
      · obtain ⟨hauth', hstored⟩ := not_or.1 hwrites
        obtain ⟨stored, hstored⟩ := Option.ne_none_iff_exists'.1 hstored
        have hkept := h.known row hrow (hauth.trans (by simpa using hauth')) stored hstored
        rw [hkey] at hstored hkept
        simp only [placeOf, hstored, hkept]
        cases habsent : stored.absent <;> simp [hauth']
  · rw [if_neg hown]
    simp only [placeOf, h.elsewhere (connector, model) (hconnector ▸ hown)]

end Step

/-! ### Runs -/

/-- A call with the faults it meets. -/
structure SnapshotCall where
  fault : ℕ → CatalogStatement → Option CatalogDbError
  input : ApplyProviderSnapshotInput

/-- One call, as a step of the tables. -/
def snapshotStep (digest : CatalogDigest) (db : CatalogDb) (call : SnapshotCall) :
    Option CatalogDb :=
  some (applyProviderSnapshot digest call.fault call.input db).2

/-- The snapshot of a call was applied. -/
def isApplied (digest : CatalogDigest) (p : CatalogDb × SnapshotCall) : Bool :=
  (applyProviderSnapshot digest p.2.fault p.2.input p.1).1.isOk

/-- The snapshots of a connector that were applied, in their order. -/
def appliedTo (digest : CatalogDigest) (connector : String)
    (h : List (CatalogDb × SnapshotCall)) : List ApplyProviderSnapshotInput :=
  (h.filter fun p ↦ isApplied digest p && decide (p.2.input.connector = connector)).map
    fun p ↦ p.2.input

theorem placeOf_step (digest : CatalogDigest) (p : CatalogDb × SnapshotCall)
    (key : String × String) :
    placeOf (applyProviderSnapshot digest p.2.fault p.2.input p.1).2 key =
      (appliedTo digest key.1 [p]).foldl (fun place input ↦ relist input key.2 place)
        (placeOf p.1 key) := by
  rcases applyProviderSnapshot_cases digest p.2.fault p.2.input p.1 with
    ⟨valid, applied, db', hvalid, heq, happlied⟩ | ⟨error, heq⟩
  · have hok : isApplied digest p = true := by rw [isApplied, heq]; rfl
    rw [heq, placeOf_of_applied hvalid happlied]
    by_cases hown : key.1 = p.2.input.connector
    · simp [appliedTo, hok, hown]
    · simp [appliedTo, hok, hown, Ne.symm hown]
  · have hfailed : isApplied digest p = false := by rw [isApplied, heq]; rfl
    rw [heq]
    simp [appliedTo, hfailed]

/-- **The catalogue over time**: after any run, the place of a model is what the applied snapshots
of its connector make of it, and what is read is what is shown. -/
theorem catalogue_refines {digest : CatalogDigest} {db db' : CatalogDb}
    {h : List (CatalogDb × SnapshotCall)} (hr : Run (snapshotStep digest) db h db') :
    (∀ key, placeOf db' key =
      (appliedTo digest key.1 h).foldl (fun place input ↦ relist input key.2 place)
        (placeOf db key)) ∧
    ∀ content, content ∈ db'.findAll.map ModelCatalogRow.toModelCatalogUpsert ↔
      (appliedTo digest content.connector h).foldl
        (fun place input ↦ relist input content.model place) (placeOf db (rowKey content)) =
          .shown content := by
  have hplaces : ∀ key, placeOf db' key =
      (appliedTo digest key.1 h).foldl (fun place input ↦ relist input key.2 place)
        (placeOf db key) := by
    induction hr with
    | nil => exact fun _ ↦ rfl
    | @snoc h s s' call _ hs ih =>
      intro key
      obtain rfl : (applyProviderSnapshot digest call.fault call.input s).2 = s' :=
        Option.some.inj hs
      rw [placeOf_step digest (s, call) key, ih key, ← List.foldl_append, appliedTo, appliedTo,
        ← List.map_append, ← List.filter_append]
      rfl
  exact ⟨hplaces, fun content ↦ by rw [mem_findAll_iff, hplaces]; rfl⟩

/-- A listing of a provider, which meets no fault. -/
def listing (rows : List ModelCatalogUpsert) : SnapshotCall where
  fault _ _ := none
  input :=
    { connector := "openrouter"
      rows
      source := .providerApi
      freshness := .fresh
      observedAt := 1000
      authoritative := true }

/-- A model that is listed, and then no more, is not shown. -/
theorem catalogue_refines_delisted : ∃ db h db',
    Run (snapshotStep DriftReplay.windowDigest) db h db' ∧
      appliedTo DriftReplay.windowDigest "openrouter" h =
        [(listing [DriftReplay.windowRow "m" none]).input, (listing []).input] ∧
      DriftReplay.windowRow "m" none ∉ db'.findAll.map ModelCatalogRow.toModelCatalogUpsert := by
  obtain ⟨h, db', hr, happlied⟩ : ∃ h db',
      Run (snapshotStep DriftReplay.windowDigest) ⟨Table.empty, [], []⟩ h db' ∧
        appliedTo DriftReplay.windowDigest "openrouter" h =
          [(listing [DriftReplay.windowRow "m" none]).input, (listing []).input] :=
    ⟨_, _, (Run.nil.snoc (e := listing [DriftReplay.windowRow "m" none]) rfl).snoc
      (e := listing []) rfl, by decide +kernel⟩
  refine ⟨_, h, db', hr, happlied, fun hmem ↦ ?_⟩
  have hshown := ((catalogue_refines hr).2 _).1 hmem
  rw [show (DriftReplay.windowRow "m" none).connector = "openrouter" from rfl, happlied] at hshown
  have hempty : placeOf ⟨Table.empty, [], []⟩ (rowKey (DriftReplay.windowRow "m" none)) =
    .empty := rfl
  simp [relist, listing, hempty] at hshown

end ModelConnector.CatalogRefinement
