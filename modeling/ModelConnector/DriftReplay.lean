import ModelConnector.Foundations.Delta
import ModelConnector.SnapshotApplied

/-!
# The drift between two catalogues

The entries of `diffCatalogRows` are a delta from the visible rows to the listed ones. A catalogue
is read here as the map from its models to the fingerprints of their contents; an entry sets its
model to the fingerprint it has afterwards, and a model that is removed has none.

A visible row without a fingerprint is one from before fingerprints were kept, and the listing it is
found in is its baseline: no entry tells how its content differs.
-/

namespace ModelConnector.DriftReplay

open Connectors Atomic SnapshotApplied

variable {digest : CatalogDigest} {previousRows : List ModelCatalogRow}
  {rows : List ModelCatalogUpsert}

/-! ### Contents -/

/-- A number as it is written to JSON: what is not finite is `null`. -/
def asWritten (number : Option Number) : Option Number :=
  number.filter fun number ↦ number.finite?.isSome

/-- A content as it is written to JSON. -/
def written (content : CatalogStableContent) : CatalogStableContent :=
  { content with
    inputPerMTok := asWritten content.inputPerMTok
    outputPerMTok := asWritten content.outputPerMTok
    cachedInputPerMTok := asWritten content.cachedInputPerMTok
    cacheWrite5mPerMTok := asWritten content.cacheWrite5mPerMTok
    cacheWrite1hPerMTok := asWritten content.cacheWrite1hPerMTok
    priceMultiplier := asWritten content.priceMultiplier
    contextWindow := asWritten content.contextWindow
    maxOutputTokens := asWritten content.maxOutputTokens }

/-- Two rows have the same stable content. -/
def SameContent (a b : ModelCatalogUpsert) : Prop :=
  written (catalogStableContent a) = written (catalogStableContent b)

instance (a b : ModelCatalogUpsert) : Decidable (SameContent a b) :=
  inferInstanceAs (Decidable (_ = _))

theorem eq_of_strictEq {a b : Option Number} (h : strictEq a b = true) : a = b :=
  of_decide_eq_true (Bool.and_eq_true_iff.1 h).1

/-- Contents none of whose fields is named are equal. -/
theorem eq_of_changedFieldNames {before after : CatalogStableContent}
    (h : changedFieldNames before after = []) : before = after := by
  unfold changedFieldNames at h
  have hnone : contentFields.filter (fun field ↦ !field.2 before after) = [] := by
    have hperm := List.mergeSort_perm
      ((contentFields.filter fun field ↦ !field.2 before after).map Prod.fst)
      fun a b ↦ decide (a ≤ b)
    rw [h] at hperm
    exact List.map_eq_nil_iff.1 hperm.symm.eq_nil
  have hfields : ∀ field ∈ contentFields, field.2 before after = true := fun field hfield ↦ by
    simpa using List.filter_eq_nil_iff.1 hnone field hfield
  simp only [contentFields, List.forall_mem_cons, decide_eq_true_eq] at hfields
  obtain ⟨hconnector, hmodel, hmodality, hstreaming, hschema, htools, hinput, houtput, hcached,
    hwrite5m, hwrite1h, hunit, htier, hfree, hmultiplier, hwindow, hmax, hendpoint, hexecutable,
    -⟩ := hfields
  cases before
  cases after
  rw [CatalogStableContent.mk.injEq]
  exact ⟨hconnector, hmodel, hmodality, hstreaming, hschema, htools, eq_of_strictEq hinput,
    eq_of_strictEq houtput, eq_of_strictEq hcached, eq_of_strictEq hwrite5m,
    eq_of_strictEq hwrite1h, hunit, htier, hfree, eq_of_strictEq hmultiplier,
    eq_of_strictEq hwindow, eq_of_strictEq hmax, hendpoint, hexecutable⟩

/-! ### The rows that are compared -/

/-- The rows that are not absent. -/
def visible (previousRows : List ModelCatalogRow) : List ModelCatalogUpsert :=
  (previousRows.filter fun row ↦ !row.absent).map ModelCatalogRow.toModelCatalogUpsert

/-- The fingerprints of the contents of rows, by model. -/
def fingerprints (digest : CatalogDigest) (rows : List ModelCatalogUpsert) (model : String) :
    Option String :=
  (rows.find? fun row ↦ decide (row.model = model)).map (fingerprintCatalogRow digest)

/-- What is promised of rows that are compared: every model has one row, a fingerprint that is
stored is that of the content, and fingerprints tell contents apart. -/
structure Comparable (digest : CatalogDigest) (previousRows : List ModelCatalogRow)
    (rows : List ModelCatalogUpsert) : Prop where
  previous : (previousRows.map fun row ↦ row.model).Nodup
  next : (rows.map ModelCatalogUpsert.model).Nodup
  stored : ∀ row ∈ previousRows, ∀ fingerprint, row.contentFingerprint = some fingerprint →
    fingerprint = fingerprintCatalogRow digest row.toModelCatalogUpsert
  apart : ∀ previous ∈ previousRows, ∀ row ∈ rows,
    fingerprintCatalogRow digest previous.toModelCatalogUpsert = fingerprintCatalogRow digest row ↔
      SameContent previous.toModelCatalogUpsert row

/-- The model is listed, and its visible row is from before fingerprints were kept. -/
def IsBaseline (previousRows : List ModelCatalogRow) (rows : List ModelCatalogUpsert)
    (model : String) : Prop :=
  ∃ previous ∈ previousRows, previous.absent = false ∧ previous.contentFingerprint = none ∧
    previous.model = model ∧ ∃ row ∈ rows, row.model = model

namespace Comparable

variable (h : Comparable digest previousRows rows) {model : String}
include h

/-- The map of the stored rows, of which the last of a model counts. -/
theorem find?_previous {previous : ModelCatalogRow} :
    (previousRows.reverse.find? fun row ↦ decide (row.model = model)) = some previous ↔
      previous ∈ previousRows ∧ previous.model = model := by
  have hnodup : (previousRows.reverse.map fun row ↦ row.model).Nodup := by
    rw [List.map_reverse, List.nodup_reverse]
    exact h.previous
  rw [find?_key_eq_some_iff hnodup, List.mem_reverse]

theorem fingerprints_next {row : ModelCatalogUpsert} (hrow : row ∈ rows) :
    fingerprints digest rows row.model = some (fingerprintCatalogRow digest row) := by
  unfold fingerprints
  rw [(find?_key_eq_some_iff h.next).2 ⟨hrow, rfl⟩]
  rfl

theorem fingerprints_visible {previous : ModelCatalogRow} (hprevious : previous ∈ previousRows)
    (hvisible : previous.absent = false) :
    fingerprints digest (visible previousRows) previous.model =
      some (fingerprintCatalogRow digest previous.toModelCatalogUpsert) := by
  have hnodup : ((visible previousRows).map ModelCatalogUpsert.model).Nodup := by
    unfold visible
    rw [List.map_map]
    exact h.previous.sublist (List.filter_sublist.map _)
  have hmem : previous.toModelCatalogUpsert ∈ visible previousRows :=
    List.mem_map_of_mem (List.mem_filter.2 ⟨hprevious, by rw [hvisible]; rfl⟩)
  unfold fingerprints
  rw [(find?_key_eq_some_iff hnodup).2 ⟨hmem, rfl⟩]
  rfl

end Comparable

/-- A model without a row has no fingerprint. -/
theorem fingerprints_of_forall_ne {model : String} (h : ∀ row ∈ rows, row.model ≠ model) :
    fingerprints digest rows model = none := by
  unfold fingerprints
  rw [find?_key_eq_none_iff.2 h]
  rfl

/-! ### The entries -/

section Entries

variable {previous : Option ModelCatalogRow} {prepared : PreparedCatalogRow} {entry : CatalogDrift}

/-- What an entry of a listed row says. -/
structure Listed (previous : Option ModelCatalogRow) (prepared : PreparedCatalogRow)
    (entry : CatalogDrift) : Prop where
  model : entry.model = prepared.row.model
  after : entry.afterFingerprint = some prepared.contentFingerprint
  visible : ∀ row, previous = some row → row.absent = false → entry.changeType = .changed
  changed : entry.changeType = .changed → ∃ row fingerprint, previous = some row ∧
    row.absent = false ∧ row.contentFingerprint = some fingerprint ∧
    fingerprint ≠ prepared.contentFingerprint ∧
    entry.changedFields =
      changedFieldNames (catalogStableContent row.toModelCatalogUpsert) prepared.stableContent

theorem filter_visible_iff {row : ModelCatalogRow} :
    (previous.filter fun row ↦ !row.absent) = some row ↔
      previous = some row ∧ row.absent = false := by
  rw [Option.filter_eq_some_iff, Bool.not_eq_true']

theorem listed_of_listedDrift (h : listedDrift previous prepared = some entry) :
    Listed previous prepared entry := by
  unfold listedDrift at h
  split at h
  · rename_i hnone
    obtain rfl := Option.some.inj h
    refine ⟨rfl, rfl, fun row hrow hvisible ↦ ?_, fun hchanged ↦ by cases hchanged⟩
    rw [filter_visible_iff.2 ⟨hrow, hvisible⟩] at hnone
    cases hnone
  · rename_i row hrow
    obtain ⟨hprevious, hvisible⟩ := filter_visible_iff.1 hrow
    split at h
    · rename_i hdiffers
      obtain rfl := Option.some.inj h
      obtain ⟨fingerprint, hfingerprint⟩ := Option.ne_none_iff_exists'.1 hdiffers.1
      refine ⟨rfl, rfl, fun _ _ _ ↦ rfl, fun _ ↦ ⟨row, fingerprint, hprevious,
        hvisible, hfingerprint, ?_, rfl⟩⟩
      rintro rfl
      exact hdiffers.2 hfingerprint
    · cases h

/-- A listed row has no entry exactly when a visible row of its model has no fingerprint, or the
same. -/
theorem listedDrift_eq_none_iff : listedDrift previous prepared = none ↔
    ∃ row, previous = some row ∧ row.absent = false ∧
      (row.contentFingerprint = none ∨
        row.contentFingerprint = some prepared.contentFingerprint) := by
  unfold listedDrift
  split
  · rename_i hnone
    simp only [reduceCtorEq, false_iff]
    rintro ⟨row, hprevious, habsent, -⟩
    rw [filter_visible_iff.2 ⟨hprevious, habsent⟩] at hnone
    cases hnone
  · rename_i row hrow
    obtain ⟨rfl, habsent⟩ := filter_visible_iff.1 hrow
    rw [ite_eq_right_iff]
    simp only [reduceCtorEq, imp_false, not_and_or, not_not, Option.some.injEq, exists_eq_left',
      habsent, true_and]

theorem removedDrift_eq_some_iff {nextRows : List PreparedCatalogRow} {row : ModelCatalogRow} :
    removedDrift nextRows row = some entry ↔
      (row.absent = false ∧ ∀ prepared ∈ nextRows, prepared.row.model ≠ row.model) ∧
        entry = ⟨row.model, .removed, row.contentFingerprint, none, []⟩ := by
  unfold removedDrift
  rw [Option.ite_none_right_eq_some, Option.some.injEq, eq_comm (a := entry)]

end Entries

/-- The entries are those of the listed rows and those of the stored ones. -/
theorem mem_drift_iff {entry : CatalogDrift} :
    entry ∈ diffCatalogRows digest previousRows (prepareCatalogRows digest rows) ↔
      (∃ row ∈ rows, listedDrift
        (previousRows.reverse.find? fun previous ↦ decide (previous.model = row.model))
        (prepareCatalogRow digest row) = some entry) ∨
      ∃ previous ∈ previousRows,
        (previous.absent = false ∧ ∀ row ∈ rows, row.model ≠ previous.model) ∧
          entry = ⟨previous.model, .removed, previous.contentFingerprint, none, []⟩ := by
  unfold diffCatalogRows prepareCatalogRows
  simp only [List.mem_mergeSort, List.mem_append, List.mem_filterMap, List.mem_map,
    removedDrift_eq_some_iff, exists_exists_and_eq_and, forall_exists_index, and_imp,
    forall_apply_eq_imp_iff₂]
  rfl

/-- Apply the entries to a catalogue. -/
def replay (drift : List CatalogDrift) (catalogue : String → Option String) :
    String → Option String :=
  applyDelta CatalogDrift.model CatalogDrift.afterFingerprint drift catalogue

/-- What the entries tell of two catalogues. -/
structure Replays (digest : CatalogDigest) (previousRows : List ModelCatalogRow)
    (rows : List ModelCatalogUpsert) (drift : List CatalogDrift) : Prop where
  /-- Applied to the visible rows they give the listed ones, -/
  next : ∀ model, ¬IsBaseline previousRows rows model →
    replay drift (fingerprints digest (visible previousRows)) model =
      fingerprints digest rows model
  /-- and leave a model alone whose listing is its baseline. -/
  baseline : ∀ model, IsBaseline previousRows rows model →
    replay drift (fingerprints digest (visible previousRows)) model =
      fingerprints digest (visible previousRows) model
  /-- A row on both sides is changed exactly when it has a fingerprint and its content differs. -/
  changed : ∀ previous ∈ previousRows, previous.absent = false →
    ∀ row ∈ rows, row.model = previous.model →
      ((∃ entry ∈ drift, entry.model = row.model ∧ entry.changeType = .changed) ↔
        previous.contentFingerprint ≠ none ∧ ¬SameContent previous.toModelCatalogUpsert row)
  /-- What changed is named. -/
  named : ∀ entry ∈ drift, entry.changeType = .changed → entry.changedFields ≠ []
  /-- A model has one entry at most. -/
  disjoint : (drift.map CatalogDrift.model).Nodup

namespace Comparable

variable (h : Comparable digest previousRows rows) {model : String}
include h

/-- The entries of a model say what it is listed with. -/
theorem after_of_mem {entry : CatalogDrift}
    (hentry : entry ∈ diffCatalogRows digest previousRows (prepareCatalogRows digest rows)) :
    entry.afterFingerprint = fingerprints digest rows entry.model := by
  rcases mem_drift_iff.1 hentry with ⟨row, hrow, hlisted⟩ | ⟨previous, -, ⟨-, hunlisted⟩, rfl⟩
  · have hlisted := listed_of_listedDrift hlisted
    rw [hlisted.after, hlisted.model]
    exact (h.fingerprints_next hrow).symm
  · exact (fingerprints_of_forall_ne hunlisted).symm

/-- A listed row that has no entry is visible with its content, or from before fingerprints. -/
theorem visible_of_no_entry {row : ModelCatalogUpsert} (hrow : row ∈ rows)
    (hnone : listedDrift
      (previousRows.reverse.find? fun previous ↦ decide (previous.model = row.model))
      (prepareCatalogRow digest row) = none) :
    IsBaseline previousRows rows row.model ∨
      fingerprints digest (visible previousRows) row.model =
        fingerprints digest rows row.model := by
  obtain ⟨previous, hfound, hvisible, hprint⟩ := listedDrift_eq_none_iff.1 hnone
  obtain ⟨hprevious, hmodel⟩ := h.find?_previous.1 hfound
  rcases hprint with hnone | hsame
  · exact .inl ⟨previous, hprevious, hvisible, hnone, hmodel, row, hrow, rfl⟩
  · right
    rw [h.fingerprints_next hrow, ← hmodel, h.fingerprints_visible hprevious hvisible,
      ← h.stored previous hprevious _ hsame]
    rfl

theorem replay_next (hmodel : ¬IsBaseline previousRows rows model) :
    replay (diffCatalogRows digest previousRows (prepareCatalogRows digest rows))
        (fingerprints digest (visible previousRows)) model = fingerprints digest rows model := by
  refine applyDelta_eq (fun entry hentry hkey ↦ hkey ▸ h.after_of_mem hentry) fun hne ↦ ?_
  by_cases hlisted : ∃ row ∈ rows, row.model = model
  · obtain ⟨row, hrow, rfl⟩ := hlisted
    cases hentry : listedDrift
        (previousRows.reverse.find? fun previous ↦ decide (previous.model = row.model))
        (prepareCatalogRow digest row) with
    | none =>
      rcases h.visible_of_no_entry hrow hentry with hbaseline | heq
      · exact absurd hbaseline hmodel
      · exact absurd heq hne
    | some entry =>
      exact ⟨entry, mem_drift_iff.2 (.inl ⟨row, hrow, hentry⟩),
        (listed_of_listedDrift hentry).model⟩
  · -- the model was visible, and is removed
    have hunlisted : ∀ row ∈ rows, row.model ≠ model := fun row hrow heq ↦ hlisted ⟨row, hrow, heq⟩
    have hvisible : ∃ row ∈ visible previousRows, row.model = model := by
      by_contra hall
      refine hne ?_
      rw [fingerprints_of_forall_ne hunlisted,
        fingerprints_of_forall_ne fun row hrow heq ↦ hall ⟨row, hrow, heq⟩]
    obtain ⟨row, hrow, hkey⟩ := hvisible
    obtain ⟨previous, hprevious, rfl⟩ := List.mem_map.1 hrow
    obtain ⟨hprevious, habsent⟩ := List.mem_filter.1 hprevious
    exact ⟨_, mem_drift_iff.2 (.inr ⟨previous, hprevious,
      ⟨Bool.not_eq_true' _ ▸ habsent, fun row hrow ↦ hkey ▸ hunlisted row hrow⟩, rfl⟩), hkey⟩

theorem replay_baseline (hmodel : IsBaseline previousRows rows model) :
    replay (diffCatalogRows digest previousRows (prepareCatalogRows digest rows))
        (fingerprints digest (visible previousRows)) model =
      fingerprints digest (visible previousRows) model := by
  obtain ⟨previous, hprevious, hvisible, hnone, hkey, row, hrow, hrowKey⟩ := hmodel
  refine applyDelta_of_forall_ne fun entry hentry heq ↦ ?_
  rcases mem_drift_iff.1 hentry with ⟨row', hrow', hlisted⟩ | ⟨previous', -, ⟨-, hunlisted⟩, rfl⟩
  · have hrowModel : row'.model = model := (listed_of_listedDrift hlisted).model ▸ heq
    rw [(h.find?_previous).2 ⟨hprevious, hkey.trans hrowModel.symm⟩,
      listedDrift_eq_none_iff.2 ⟨previous, rfl, hvisible, .inl hnone⟩] at hlisted
    cases hlisted
  · exact hunlisted row hrow (hrowKey.trans heq.symm)

/-- What the entries that are not removals say was stored. -/
theorem changed_iff {previous : ModelCatalogRow} (hprevious : previous ∈ previousRows)
    (hvisible : previous.absent = false) {row : ModelCatalogUpsert} (hrow : row ∈ rows)
    (hkey : row.model = previous.model) :
    (∃ entry ∈ diffCatalogRows digest previousRows (prepareCatalogRows digest rows),
        entry.model = row.model ∧ entry.changeType = .changed) ↔
      previous.contentFingerprint ≠ none ∧ ¬SameContent previous.toModelCatalogUpsert row := by
  have hfound : (previousRows.reverse.find? fun previous ↦ decide (previous.model = row.model)) =
      some previous := h.find?_previous.2 ⟨hprevious, hkey.symm⟩
  constructor
  · rintro ⟨entry, hentry, hmodel, hchanged⟩
    rcases mem_drift_iff.1 hentry with ⟨row', hrow', hlisted⟩ | ⟨_, _, _, rfl⟩
    · have hlisted' := listed_of_listedDrift hlisted
      obtain rfl : row' = row := List.inj_on_of_nodup_map h.next hrow' hrow
        (hlisted'.model.symm.trans hmodel)
      obtain ⟨stored, fingerprint, hstored, -, hprint, hne, -⟩ := hlisted'.changed hchanged
      obtain rfl : previous = stored := Option.some.inj (hfound.symm.trans hstored)
      refine ⟨by rw [hprint]; exact Option.some_ne_none _, fun hsame ↦ hne ?_⟩
      rw [h.stored previous hprevious _ hprint]
      exact (h.apart previous hprevious row' hrow).2 hsame
    · cases hchanged
  · rintro ⟨hprint, hdiffers⟩
    cases hentry : listedDrift (some previous) (prepareCatalogRow digest row) with
    | none =>
      obtain ⟨stored, hstored, -, hnone | hsame⟩ := listedDrift_eq_none_iff.1 hentry
      · exact absurd (Option.some.inj hstored ▸ hnone) hprint
      · obtain rfl := Option.some.inj hstored
        have heq := h.stored previous hprevious _ hsame
        exact absurd ((h.apart previous hprevious row hrow).1 heq.symm) hdiffers
    | some entry =>
      have hlisted := listed_of_listedDrift hentry
      exact ⟨entry, mem_drift_iff.2 (.inl ⟨row, hrow, by rw [hfound, hentry]⟩), hlisted.model,
        hlisted.visible previous rfl hvisible⟩

theorem named {entry : CatalogDrift}
    (hentry : entry ∈ diffCatalogRows digest previousRows (prepareCatalogRows digest rows))
    (hchanged : entry.changeType = .changed) : entry.changedFields ≠ [] := by
  rcases mem_drift_iff.1 hentry with ⟨row, hrow, hlisted⟩ | ⟨_, _, _, rfl⟩
  · obtain ⟨stored, fingerprint, hstored, -, hprint, hne, hfields⟩ :=
      (listed_of_listedDrift hlisted).changed hchanged
    rw [hfields]
    intro hnil
    -- a row whose content is the listed one has its fingerprint
    refine hne ?_
    rw [h.stored stored (h.find?_previous.1 hstored).1 _ hprint]
    exact congrArg digest.content (eq_of_changedFieldNames hnil)
  · cases hchanged

theorem nodup_drift : ((diffCatalogRows digest previousRows
    (prepareCatalogRows digest rows)).map CatalogDrift.model).Nodup := by
  unfold diffCatalogRows
  rw [((List.mergeSort_perm _ _).map _).nodup_iff, List.map_append, List.nodup_append]
  have hnext : ((prepareCatalogRows digest rows).map fun prepared ↦ prepared.row.model).Nodup := by
    rw [prepareCatalogRows, List.map_map]
    exact h.next
  refine ⟨nodup_map_filterMap hnext fun prepared entry hlisted ↦
      (listed_of_listedDrift hlisted).model,
    nodup_map_filterMap h.previous fun previous entry hremoved ↦ ?_,
    fun model hlisted model' hremoved ↦ ?_⟩
  · rw [(removedDrift_eq_some_iff.1 hremoved).2]
  · -- what is removed is not listed
    obtain ⟨entry, hentry, rfl⟩ := List.mem_map.1 hlisted
    obtain ⟨entry', hentry', rfl⟩ := List.mem_map.1 hremoved
    obtain ⟨prepared, hprepared, hlisted⟩ := List.mem_filterMap.1 hentry
    obtain ⟨previous, -, hremoved⟩ := List.mem_filterMap.1 hentry'
    obtain ⟨⟨-, hunlisted⟩, rfl⟩ := removedDrift_eq_some_iff.1 hremoved
    rw [(listed_of_listedDrift hlisted).model]
    exact hunlisted prepared hprepared

end Comparable

/-! ### What the repository compares -/

section Repository

variable {fault : CatalogStatement → Option CatalogDbError} {input : ValidSnapshotInput}
  {snapshotId : ℕ} {db db' : CatalogDb}

/-- A fingerprint that is stored is that of the content of its row. -/
def FingerprintsSound (digest : CatalogDigest) (db : CatalogDb) : Prop :=
  ∀ row ∈ db.rows, ∀ fingerprint, row.contentFingerprint = some fingerprint →
    fingerprint = fingerprintCatalogRow digest row.toModelCatalogUpsert

/-- What keeps the fingerprints sound. -/
def KeepsFingerprints (digest : CatalogDigest) (db db' : CatalogDb) : Prop :=
  FingerprintsSound digest db → FingerprintsSound digest db'

theorem KeepsFingerprints.refl (db : CatalogDb) : KeepsFingerprints digest db db :=
  id

theorem KeepsFingerprints.trans {db₁ db₂ db₃ : CatalogDb} (h : KeepsFingerprints digest db₁ db₂)
    (h' : KeepsFingerprints digest db₂ db₃) : KeepsFingerprints digest db₁ db₃ :=
  h' ∘ h

/-- An upsert writes a row with the fingerprint of its content. -/
theorem keepsFingerprints_upsert (row : ModelCatalogUpsert) :
    Relates (KeepsFingerprints digest)
      (modelCatalogUpsert input snapshotId (prepareCatalogRow digest row)) := by
  intro db _ db' hupsert hsound stored hstored fingerprint hprint
  have hlookup := lookup_modelCatalogUpsert hupsert stored.key
  rw [Table.lookup_eq_some_iff.2 ⟨hstored, rfl⟩] at hlookup
  split at hlookup
  · have hwritten : ∃ id firstSeen,
        stored = persistence input snapshotId (prepareCatalogRow digest row) id firstSeen := by
      cases hold : db.rows.lookup stored.key with
      | none =>
        rw [hold] at hlookup
        exact ⟨_, _, Option.some.inj hlookup⟩
      | some old =>
        rw [hold] at hlookup
        exact ⟨_, _, Option.some.inj hlookup⟩
    obtain ⟨id, firstSeen, rfl⟩ := hwritten
    exact (Option.some.inj hprint).symm
  · exact hsound stored (Table.lookup_eq_some_iff.1 hlookup.symm).1 fingerprint hprint

theorem keepsFingerprints_upsertRows (previousModels : List String)
    (rows : List ModelCatalogUpsert) :
    Relates (KeepsFingerprints digest)
      (upsertRows fault input snapshotId previousModels (prepareCatalogRows digest rows)) := by
  induction rows with
  | nil => exact .pure .refl ()
  | cons row rest ih =>
    exact .bind .trans (.onlyIf .refl _ (Relates.statement (keepsFingerprints_upsert row)))
      fun _ ↦ ih

/-- A tombstone keeps the content and the fingerprint. -/
theorem keepsFingerprints_tombstone (models : List String) :
    Relates (KeepsFingerprints digest) (modelCatalogTombstone input snapshotId models) := by
  refine .modify fun db hsound stored hstored fingerprint hprint ↦ ?_
  obtain ⟨old, hold, rfl⟩ := List.mem_map.1 hstored
  split_ifs at hprint ⊢ <;> exact hsound old hold fingerprint hprint

theorem keepsFingerprints_transaction (digest : CatalogDigest)
    (fault : CatalogStatement → Option CatalogDbError) (input : ValidSnapshotInput) :
    Relates (KeepsFingerprints digest) (applyProviderSnapshotTransaction digest fault input) := by
  refine .bind .trans (Relates.statement (.read .refl _)) fun previousRows ↦ ?_
  refine .bind .trans (Relates.statement ?_) fun snapshotId ↦ ?_
  · exact .bind .trans (.read .refl _) fun _ ↦ .bind .trans (.modify fun _ hsound ↦ hsound)
      fun _ ↦ .pure .refl _
  refine .bind .trans (keepsFingerprints_upsertRows _ _) fun _ ↦
    .bind .trans (.onlyIf .refl _ ?_) fun _ ↦
      .bind .trans (Relates.statement (.pure .refl ())) fun _ ↦ .pure .refl _
  exact .bind .trans (Relates.statement (keepsFingerprints_tombstone _)) fun _ ↦
    .onlyIf .refl _ (Relates.statement (.modify fun _ hsound ↦ hsound))

/-- Whatever becomes of a call, the fingerprints stay sound. -/
theorem fingerprintsSound_applyProviderSnapshot (hsound : FingerprintsSound digest db)
    (fault : ℕ → CatalogStatement → Option CatalogDbError) (input : ApplyProviderSnapshotInput) :
    FingerprintsSound digest (applyProviderSnapshot digest fault input db).2 :=
  relates_applyProviderSnapshot KeepsFingerprints.refl KeepsFingerprints.trans
    (keepsFingerprints_transaction digest) fault input db hsound

/-- What a transaction compares is comparable. -/
theorem comparable_of_sound (hsound : FingerprintsSound digest db) (input : ValidSnapshotInput)
    (happart : ∀ previous ∈ db.rows, ∀ row ∈ input.rows,
      fingerprintCatalogRow digest previous.toModelCatalogUpsert =
          fingerprintCatalogRow digest row ↔
        SameContent previous.toModelCatalogUpsert row) :
    Comparable digest (db.rows.rows.filter fun row ↦ decide (row.connector = input.connector))
      input.rows where
  previous := by
    rw [List.Nodup, List.pairwise_map]
    refine List.Pairwise.imp_of_mem ?_ (db.rows.unique.filter _)
    intro a b ha hb hclash heq
    have hca : a.connector = input.connector := of_decide_eq_true (List.mem_filter.1 ha).2
    have hcb : b.connector = input.connector := of_decide_eq_true (List.mem_filter.1 hb).2
    exact of_decide_eq_false hclash (Prod.ext (hca.trans hcb.symm) heq)
  next := input.distinct
  stored row hrow := hsound row (List.mem_filter.1 hrow).1
  apart previous hprevious := happart previous (List.mem_filter.1 hprevious).1

end Repository

/-- **The drift replays**, for rows that are as the repository compares them. -/
theorem drift_replays (h : Comparable digest previousRows rows) :
    Replays digest previousRows rows
      (diffCatalogRows digest previousRows (prepareCatalogRows digest rows)) where
  next _ hmodel := h.replay_next hmodel
  baseline _ hmodel := h.replay_baseline hmodel
  changed _ hprevious hvisible _ hrow hkey := h.changed_iff hprevious hvisible hrow hkey
  named _ hentry hchanged := h.named hentry hchanged
  disjoint := h.nodup_drift

/-- A row of a model, by its context window. -/
def windowRow (model : String) (contextWindow : Option Number) : ModelCatalogUpsert where
  connector := "openrouter"
  model
  modality := .chat
  status := .online
  lastChecked := 0
  supportsStreaming := true
  supportsJsonSchema := false
  supportsTools := false
  inputPerMTok := none
  outputPerMTok := none
  cachedInputPerMTok := none
  cacheWrite5mPerMTok := none
  cacheWrite1hPerMTok := none
  priceUnit := DEFAULT_PRICE_UNIT
  tier := .unknown
  free := false
  priceMultiplier := none
  contextWindow
  maxOutputTokens := none
  endpoint := none
  executableHere := true
  routable := true

/-- The stored row of a model without a context window. -/
def storedWindow (model : String) (contentFingerprint : Option String) : ModelCatalogRow :=
  { windowRow model none with
    id := 0
    firstSeen := 0
    lastSeen := 0
    absent := false
    snapshotId := none
    contentFingerprint
    observedAt := 0
    source := .legacyUnknown
    freshness := .unknown
    absentSince := none }

/-- Fingerprints that tell models apart, and whether a context window is known. -/
def windowDigest : CatalogDigest where
  content content := content.model ++ if content.contextWindow = none then ": none" else ": some"
  provider connector _ := connector
  localeLe a b := decide (a ≤ b)

/-- A model that changes, one that goes, one that stays, and one from before fingerprints were
kept. -/
def storedWindows : List ModelCatalogRow :=
  [storedWindow "changed" (some "changed: none"), storedWindow "gone" (some "gone: none"),
    storedWindow "same" (some "same: none"), storedWindow "legacy" none]

/-- The listing after it, with a new model. -/
def windowRows : List ModelCatalogUpsert :=
  [windowRow "changed" (some (.finite 128000)), windowRow "same" none, windowRow "new" none,
    windowRow "legacy" (some (.finite 128000))]

/-- The drift from the stored rows to the listing. -/
theorem drift_replays_window : Replays windowDigest storedWindows windowRows
    (diffCatalogRows windowDigest storedWindows (prepareCatalogRows windowDigest windowRows)) := by
  have hstored : ∀ row ∈ storedWindows, row.contentFingerprint = none ∨
      row.contentFingerprint =
        some (fingerprintCatalogRow windowDigest row.toModelCatalogUpsert) := by
    decide
  refine drift_replays ⟨by decide, by decide, fun row hrow fingerprint hprint ↦ ?_, by decide⟩
  rcases hstored row hrow with hnone | hsome
  · cases hnone.symm.trans hprint
  · exact Option.some.inj (hprint.symm.trans hsome)

/-- The same for a row from before fingerprints were kept: nothing is reported. -/
theorem baseline_not_reported :
    (storedWindow "m" none).absent = false ∧
      ¬SameContent (storedWindow "m" none).toModelCatalogUpsert
        (windowRow "m" (some (.finite 128000))) ∧
      diffCatalogRows windowDigest [storedWindow "m" none]
        (prepareCatalogRows windowDigest [windowRow "m" (some (.finite 128000))]) = [] := by
  refine ⟨rfl, by decide, List.eq_nil_iff_forall_not_mem.2 fun entry hentry ↦ ?_⟩
  rcases mem_drift_iff.1 hentry with ⟨row, hrow, hlisted⟩ | ⟨previous, hprevious, ⟨-, hunlisted⟩, -⟩
  · rw [List.mem_singleton.1 hrow] at hlisted
    cases hlisted
  · rw [List.mem_singleton.1 hprevious] at hunlisted
    exact hunlisted _ (List.mem_singleton_self _) rfl

end ModelConnector.DriftReplay
