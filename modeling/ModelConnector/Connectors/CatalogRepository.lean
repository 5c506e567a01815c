import ModelConnector.Connectors.CatalogSnapshot
import ModelConnector.Foundations.Atomic
import ModelConnector.Foundations.Firsts
import ModelConnector.Foundations.Keyed

/-!
# The catalogue repository

`applyProviderSnapshot` writes what a provider lists now in one serializable transaction: the row of
the snapshot, an upsert for every listed model, a tombstone on every model that is no longer listed,
and the drift. A listing that is not authoritative, a static floor, only adds models that were
never known.

Any statement of an attempt, its commit included, may fail; what an attempt wrote is then rolled
back. A write conflict is tried again, three attempts in all.
-/

namespace ModelConnector.Connectors

open Atomic

/-- The unique key of a row. -/
def ModelCatalogRow.key (row : ModelCatalogRow) : String × String :=
  (row.connector, row.model)

/-- The table `model_catalog`. -/
abbrev CatalogTable :=
  Table ModelCatalogRow (Table.sameKey ModelCatalogRow.key)

/-- A row of `catalog_snapshots`; its identity is its number in insertion order. -/
structure CatalogSnapshot where
  connector : String
  fingerprint : String
  source : CatalogSource
  observedAt : ℤ
  freshness : CatalogFreshness
  authoritative : Bool
  rowCount : ℕ
  deriving DecidableEq

/-- A row of `catalog_drift_events`. -/
structure CatalogDriftEvent extends CatalogDrift where
  snapshotId : ℕ
  connector : String
  observedAt : ℤ
  deriving DecidableEq

/-- The tables of the catalogue. -/
structure CatalogDb where
  rows : CatalogTable
  snapshots : List CatalogSnapshot
  driftEvents : List CatalogDriftEvent

/-- What a provider lists. -/
structure ApplyProviderSnapshotInput where
  connector : String
  rows : List ModelCatalogUpsert
  source : CatalogSource
  freshness : CatalogFreshness
  observedAt : ℤ
  authoritative : Bool
  deriving DecidableEq

/-- The answer of `applyProviderSnapshot`. -/
structure AppliedCatalogSnapshot where
  snapshotId : ℕ
  fingerprint : String
  rowCount : ℕ
  deriving DecidableEq

/-- The error of a statement: `P2034`, or any other. -/
inductive CatalogDbError
  | conflict
  | other (message : String)
  deriving DecidableEq

/-- The error of `applyProviderSnapshot`. -/
inductive CatalogError
  | snapshotInvalidInput
  | snapshotConflict
  | database (message : String)
  deriving DecidableEq

/-- The statements of a transaction. -/
inductive CatalogStatement
  | findRows
  | createSnapshot
  | upsertRow (model : String)
  | tombstone
  | createDrift
  | commit
  deriving DecidableEq

/-- All rows that are not absent. -/
def CatalogDb.findAll (db : CatalogDb) : List ModelCatalogRow :=
  db.rows.rows.filter fun row ↦ !row.absent

/-! ### The input -/

/-- `dedupeProviderSnapshotInput`: of the rows of one model the first is kept. -/
def dedupeRows : List String → List ModelCatalogUpsert → List ModelCatalogUpsert
  | _, [] => []
  | seen, row :: rows =>
    if row.model ∈ seen then dedupeRows seen rows
    else row :: dedupeRows (row.model :: seen) rows

theorem dedupeRows_eq_firsts {rows : List ModelCatalogUpsert} : ∀ seen : List String,
    dedupeRows seen rows = firsts ModelCatalogUpsert.model seen rows := by
  induction rows with
  | nil => exact fun _ ↦ rfl
  | cons row rows ih =>
    intro seen
    simp only [dedupeRows, firsts, ih]

/-- What is kept has models of its own. -/
theorem dedupeRows_models {rows : List ModelCatalogUpsert} (seen : List String) :
    (∀ row ∈ dedupeRows seen rows, row.model ∉ seen) ∧
      ((dedupeRows seen rows).map ModelCatalogUpsert.model).Nodup :=
  dedupeRows_eq_firsts seen ▸ firsts_keys _ seen

/-- What is kept is the first row of its model. -/
theorem mem_dedupeRows_iff {row : ModelCatalogUpsert} {rows : List ModelCatalogUpsert}
    {seen : List String} : row ∈ dedupeRows seen rows ↔
      row.model ∉ seen ∧ rows.find? (fun r ↦ decide (r.model = row.model)) = some row :=
  dedupeRows_eq_firsts seen ▸ mem_firsts_iff

/-- The rows that are kept. -/
def ApplyProviderSnapshotInput.deduped (input : ApplyProviderSnapshotInput) :
    List ModelCatalogUpsert :=
  dedupeRows [] input.rows

/-- An input that can be applied: its models are distinct and its rows are of its connector. -/
structure ValidSnapshotInput extends ApplyProviderSnapshotInput where
  distinct : (rows.map ModelCatalogUpsert.model).Nodup
  own : ∀ row ∈ rows, row.connector = connector

/-- `validateProviderSnapshotInput`, on the rows that are kept. -/
def validateProviderSnapshotInput (input : ApplyProviderSnapshotInput) :
    Option ValidSnapshotInput :=
  if own : ∀ row ∈ input.deduped, row.connector = input.connector then
    some { input with rows := input.deduped, distinct := (dedupeRows_models []).2, own }
  else none

theorem eq_of_validate {input : ApplyProviderSnapshotInput} {valid : ValidSnapshotInput}
    (h : validateProviderSnapshotInput input = some valid) :
    valid.toApplyProviderSnapshotInput = { input with rows := input.deduped } := by
  unfold validateProviderSnapshotInput at h
  split at h
  · obtain rfl := Option.some.inj h
    rfl
  · cases h

/-! ### The transaction -/

section Transaction

variable (digest : CatalogDigest) (fault : CatalogStatement → Option CatalogDbError)

/-- A statement of a transaction, or a whole one. -/
abbrev CatalogTx (α : Type) : Type :=
  Atomic CatalogDb CatalogDbError α

/-- A statement that may fail. -/
def statement {α : Type} (name : CatalogStatement) (x : CatalogTx α) : CatalogTx α :=
  match fault name with
  | some error => refuse error
  | none => x

/-- `tx.modelCatalog.findMany` on the connector. -/
def modelCatalogFindMany (connector : String) : CatalogTx (List ModelCatalogRow) :=
  read fun db ↦ db.rows.rows.filter fun row ↦ decide (row.connector = connector)

/-- `tx.catalogSnapshot.create`, the identity of the new row. -/
def catalogSnapshotCreate (data : CatalogSnapshot) : CatalogTx ℕ := do
  let snapshotId ← read fun db ↦ db.snapshots.length
  modify fun db ↦ { db with snapshots := db.snapshots ++ [data] }
  pure snapshotId

/-- The row a prepared row is written as. -/
def persistence (input : ValidSnapshotInput) (snapshotId : ℕ) (prepared : PreparedCatalogRow)
    (id : ℕ) (firstSeen : ℤ) : ModelCatalogRow :=
  { prepared.row with
    id
    firstSeen
    lastSeen := input.observedAt
    absent := false
    snapshotId := some snapshotId
    contentFingerprint := some prepared.contentFingerprint
    observedAt := input.observedAt
    source := input.source
    freshness := input.freshness
    absentSince := none }

/-- `tx.modelCatalog.upsert` on the connector and the model. -/
def modelCatalogUpsert (input : ValidSnapshotInput) (snapshotId : ℕ)
    (prepared : PreparedCatalogRow) : CatalogTx Unit :=
  modify fun db ↦
    { db with
      rows := db.rows.upsert
        (persistence input snapshotId prepared db.rows.rows.length input.observedAt)
        (fun stored ↦ persistence input snapshotId prepared stored.id stored.firstSeen)
        fun _ _ ↦ rfl }

/-- The upserts. A listing that is not authoritative leaves the models that were known alone. -/
def upsertRows (input : ValidSnapshotInput) (snapshotId : ℕ) (previousModels : List String) :
    List PreparedCatalogRow → CatalogTx Unit
  | [] => pure ()
  | prepared :: preparedRows => do
    onlyIf (input.authoritative || !previousModels.contains prepared.row.model)
      (statement fault (.upsertRow prepared.row.model)
        (modelCatalogUpsert input snapshotId prepared))
    upsertRows input snapshotId previousModels preparedRows

/-- The row of a model that is no longer listed. -/
def tombstoned (input : ValidSnapshotInput) (snapshotId : ℕ) (row : ModelCatalogRow) :
    ModelCatalogRow :=
  { row with
    absent := true
    absentSince := some input.observedAt
    snapshotId := some snapshotId }

/-- `tx.modelCatalog.updateMany` on what is visible and not listed. -/
def modelCatalogTombstone (input : ValidSnapshotInput) (snapshotId : ℕ)
    (models : List String) : CatalogTx Unit :=
  modify fun db ↦
    { db with
      rows := db.rows.updateRows
        (fun row ↦ decide (row.connector = input.connector) && !row.absent &&
          !models.contains row.model)
        (tombstoned input snapshotId) fun _ ↦ rfl }

/-- `tx.catalogDriftEvent.createMany`. -/
def catalogDriftEventCreateMany (input : ValidSnapshotInput) (snapshotId : ℕ)
    (drift : List CatalogDrift) : CatalogTx Unit :=
  modify fun db ↦
    { db with
      driftEvents := db.driftEvents ++ drift.map fun event ↦
        { event with snapshotId, connector := input.connector, observedAt := input.observedAt } }

/-- `applyProviderSnapshotTransaction`. -/
def applyProviderSnapshotTransaction (input : ValidSnapshotInput) :
    CatalogTx AppliedCatalogSnapshot := do
  let previousRows ← statement fault .findRows (modelCatalogFindMany input.connector)
  let preparedRows := prepareCatalogRows digest input.rows
  let fingerprint := fingerprintProviderSnapshot digest input.connector preparedRows
  let snapshotId ← statement fault .createSnapshot (catalogSnapshotCreate
    { connector := input.connector
      fingerprint
      source := input.source
      observedAt := input.observedAt
      freshness := input.freshness
      authoritative := input.authoritative
      rowCount := preparedRows.length })
  let drift := if input.authoritative then diffCatalogRows digest previousRows preparedRows else []
  upsertRows fault input snapshotId (previousRows.map fun row ↦ row.model) preparedRows
  onlyIf input.authoritative do
    statement fault .tombstone (modelCatalogTombstone input snapshotId
      (preparedRows.map fun prepared ↦ prepared.row.model))
    onlyIf (decide (drift.length > 0))
      (statement fault .createDrift (catalogDriftEventCreateMany input snapshotId drift))
  statement fault .commit (pure ())
  pure { snapshotId, fingerprint, rowCount := preparedRows.length }

end Transaction

/-! ### Attempts -/

section Attempts

variable (digest : CatalogDigest) (fault : ℕ → CatalogStatement → Option CatalogDbError)

/-- The attempts from one on, as many as remain. -/
def applyAttempts (input : ValidSnapshotInput) (db : CatalogDb) :
    ℕ → ℕ → Except CatalogError AppliedCatalogSnapshot × CatalogDb
  | _, 0 => (.error .snapshotConflict, db)
  | attempt, remaining + 1 =>
    match (applyProviderSnapshotTransaction digest (fault attempt) input).run db with
    | (.ok applied, db') => (.ok applied, db')
    -- the last conflict leaves no attempt
    | (.error .conflict, db') => applyAttempts input db' (attempt + 1) remaining
    | (.error (.other message), db') => (.error (.database message), db')

/-- `applyProviderSnapshot`. -/
def applyProviderSnapshot (input : ApplyProviderSnapshotInput) (db : CatalogDb) :
    Except CatalogError AppliedCatalogSnapshot × CatalogDb :=
  match validateProviderSnapshotInput input with
  | none => (.error .snapshotInvalidInput, db)
  | some input => applyAttempts digest fault input db 1 3

end Attempts

end ModelConnector.Connectors
