import Mathlib.Data.List.Nodup
import ModelConnector.Connectors.CatalogRepository

/-!
# What a snapshot leaves behind

A committed transaction is read key by key: `Written` says what the upserts did to the row of every
key, `Applied` what the whole transaction did. The visible rows, the tombstones and the rows of
other connectors are read off `Applied`; an attempt that fails is rolled back, so that an error
leaves the tables as they were is `applyProviderSnapshot_cases`.
-/

namespace ModelConnector.SnapshotApplied

open Connectors Atomic

/-- The key a row is written under. -/
def rowKey (row : ModelCatalogUpsert) : String × String :=
  (row.connector, row.model)

section Statements

variable {fault : CatalogStatement → Option CatalogDbError} {name : CatalogStatement}
  {input : ValidSnapshotInput} {snapshotId : ℕ} {db db' : CatalogDb}

theorem statement_eq_ok_iff {α : Type} {x : CatalogTx α} {a : α} :
    statement fault name x db = .ok (a, db') ↔ fault name = none ∧ x db = .ok (a, db') := by
  unfold statement
  cases fault name with
  | none => simp
  | some error => simp

/-- What an upsert does, key by key. -/
theorem lookup_modelCatalogUpsert {prepared : PreparedCatalogRow} {u : Unit}
    (h : modelCatalogUpsert input snapshotId prepared db = .ok (u, db')) (k : String × String) :
    db'.rows.lookup k =
      if k = rowKey prepared.row then
        some ((db.rows.lookup k).elim
          (persistence input snapshotId prepared db.rows.rows.length input.observedAt)
          fun stored ↦ persistence input snapshotId prepared stored.id stored.firstSeen)
      else db.rows.lookup k := by
  obtain rfl := modify_eq_ok_iff.1 h
  have hkey : ∀ stored : ModelCatalogRow,
      stored.key =
        (persistence input snapshotId prepared db.rows.rows.length input.observedAt).key →
      (persistence input snapshotId prepared stored.id stored.firstSeen).key =
        (persistence input snapshotId prepared db.rows.rows.length input.observedAt).key :=
    fun _ _ ↦ rfl
  exact Table.lookup_upsert hkey db.rows k

/-- What the upserts of a transaction do. A row that is skipped is one whose model was known, in a
listing that is not authoritative. -/
structure Written (input : ValidSnapshotInput) (snapshotId : ℕ) (previousModels : List String)
    (preparedRows : List PreparedCatalogRow) (db db' : CatalogDb) : Prop where
  others : ∀ k, (∀ prepared ∈ preparedRows, rowKey prepared.row ≠ k) →
    db'.rows.lookup k = db.rows.lookup k
  skipped : ∀ prepared ∈ preparedRows, input.authoritative = false →
    prepared.row.model ∈ previousModels →
    db'.rows.lookup (rowKey prepared.row) = db.rows.lookup (rowKey prepared.row)
  written : ∀ prepared ∈ preparedRows,
    (input.authoritative = true ∨ prepared.row.model ∉ previousModels) →
    ∃ id firstSeen, db'.rows.lookup (rowKey prepared.row) =
        some (persistence input snapshotId prepared id firstSeen) ∧
      ∀ stored, db.rows.lookup (rowKey prepared.row) = some stored →
        id = stored.id ∧ firstSeen = stored.firstSeen

/-- The loop of the upserts, by induction on the rows, whose keys are distinct. -/
theorem written_of_upsertRows {previousModels : List String} {u : Unit}
    {preparedRows : List PreparedCatalogRow} : ∀ {db : CatalogDb},
    (preparedRows.map fun prepared ↦ rowKey prepared.row).Nodup →
    upsertRows fault input snapshotId previousModels preparedRows db = .ok (u, db') →
    Written input snapshotId previousModels preparedRows db db' := by
  induction preparedRows with
  | nil =>
    intro db _ h
    obtain ⟨-, rfl⟩ := pure_eq_ok_iff.1 h
    exact ⟨fun _ _ ↦ rfl, by rintro _ ⟨⟩, by rintro _ ⟨⟩⟩
  | cons head rest ih =>
    intro db hnodup h
    obtain ⟨hfresh, hnodup⟩ := List.nodup_cons.1 hnodup
    obtain ⟨_, db₁, hhead, hrest⟩ := bind_eq_ok_iff.1 h
    have hwritten := ih hnodup hrest
    have hne : ∀ prepared ∈ rest, rowKey prepared.row ≠ rowKey head.row := fun prepared hp heq ↦
      hfresh (List.mem_map.2 ⟨prepared, hp, heq⟩)
    -- the rest does not touch the row of the head, nor the head the rows of the rest
    have hlast := hwritten.others (rowKey head.row) hne
    have hfirst : ∀ k, k ≠ rowKey head.row → db₁.rows.lookup k = db.rows.lookup k := by
      intro k hk
      rcases onlyIf_eq_ok_iff.1 hhead with ⟨-, hhead⟩ | ⟨-, rfl⟩
      · rw [lookup_modelCatalogUpsert (statement_eq_ok_iff.1 hhead).2, if_neg hk]
      · rfl
    refine ⟨fun k hk ↦ ?_, fun prepared hp hauth hknown ↦ ?_, fun prepared hp hwrites ↦ ?_⟩
    · rw [hwritten.others k fun prepared hp ↦ hk prepared (List.mem_cons_of_mem _ hp)]
      exact hfirst k (hk head List.mem_cons_self).symm
    · rcases List.mem_cons.1 hp with rfl | hp
      · rw [hlast]
        rcases onlyIf_eq_ok_iff.1 hhead with ⟨hwrites, -⟩ | ⟨-, rfl⟩
        · simp [hauth, hknown] at hwrites
        · rfl
      · rw [hwritten.skipped prepared hp hauth hknown]
        exact hfirst _ (hne prepared hp)
    · rcases List.mem_cons.1 hp with rfl | hp
      · rcases onlyIf_eq_ok_iff.1 hhead with ⟨-, hhead⟩ | ⟨hskips, -⟩
        · rw [hlast, lookup_modelCatalogUpsert (statement_eq_ok_iff.1 hhead).2, if_pos rfl]
          cases hstored : db.rows.lookup (rowKey prepared.row) with
          | none => exact ⟨_, _, rfl, by rintro _ ⟨⟩⟩
          | some stored =>
            refine ⟨stored.id, stored.firstSeen, rfl, fun stored' hs ↦ ?_⟩
            obtain rfl := Option.some.inj hs
            exact ⟨rfl, rfl⟩
        · rcases hwrites with hauth | hnew
          · simp [hauth] at hskips
          · simp [hnew] at hskips
      · obtain ⟨id, firstSeen, hlookup, hold⟩ := hwritten.written prepared hp hwrites
        refine ⟨id, firstSeen, hlookup, fun stored hs ↦ hold stored ?_⟩
        rw [hfirst _ (hne prepared hp), hs]

end Statements

section Transaction

variable {digest : CatalogDigest} {fault : CatalogStatement → Option CatalogDbError}
  {input : ValidSnapshotInput} {snapshotId : ℕ} {db db' : CatalogDb}

/-- **What a committed transaction does**, key by key. -/
structure Applied (input : ValidSnapshotInput) (snapshotId : ℕ) (db db' : CatalogDb) : Prop where
  elsewhere : ∀ k : String × String, k.1 ≠ input.connector →
    db'.rows.lookup k = db.rows.lookup k
  unlisted : ∀ model, model ∉ input.rows.map ModelCatalogUpsert.model →
    db'.rows.lookup (input.connector, model) =
      (db.rows.lookup (input.connector, model)).map fun stored ↦
        if input.authoritative && !stored.absent then tombstoned input snapshotId stored
        else stored
  known : ∀ row ∈ input.rows, input.authoritative = false → ∀ stored,
    db.rows.lookup (rowKey row) = some stored → db'.rows.lookup (rowKey row) = some stored
  listed : ∀ row ∈ input.rows,
    (input.authoritative = true ∨ db.rows.lookup (rowKey row) = none) →
    ∃ stored', db'.rows.lookup (rowKey row) = some stored' ∧
      stored'.toModelCatalogUpsert = row ∧ stored'.absent = false ∧
      ∀ stored, db.rows.lookup (rowKey row) = some stored → stored'.id = stored.id

theorem rowKey_of_mem {row : ModelCatalogUpsert} (hrow : row ∈ input.rows) :
    rowKey row = (input.connector, row.model) := by
  rw [rowKey, input.own row hrow]

theorem models_prepareCatalogRows (digest : CatalogDigest) (rows : List ModelCatalogUpsert) :
    (prepareCatalogRows digest rows).map (fun prepared ↦ prepared.row.model) =
      rows.map ModelCatalogUpsert.model := by
  simp [prepareCatalogRows, prepareCatalogRow]

/-- The keys of the rows are distinct because their models are. -/
theorem nodup_keys (input : ValidSnapshotInput) :
    ((prepareCatalogRows digest input.rows).map fun prepared ↦ rowKey prepared.row).Nodup := by
  refine List.Nodup.of_map Prod.snd ?_
  rw [List.map_map]
  exact models_prepareCatalogRows digest input.rows ▸ input.distinct

/-- The models that were known are those with a row. -/
theorem mem_previousModels_iff {connector model : String} :
    model ∈ (db.rows.rows.filter fun row ↦ decide (row.connector = connector)).map
        (fun row ↦ row.model) ↔
      db.rows.lookup (connector, model) ≠ none := by
  rw [ne_eq, Table.lookup_eq_none_iff]
  simp only [List.mem_map, List.mem_filter, decide_eq_true_eq, ModelCatalogRow.key, not_forall,
    not_not, Prod.mk.injEq]
  constructor
  · rintro ⟨row, ⟨hrow, hconnector⟩, hmodel⟩
    exact ⟨row, hrow, hconnector, hmodel⟩
  · rintro ⟨row, hrow, hconnector, hmodel⟩
    exact ⟨row, ⟨hrow, hconnector⟩, hmodel⟩

/-- The tombstones, key by key. -/
theorem lookup_modelCatalogTombstone {models : List String} {u : Unit}
    (h : modelCatalogTombstone input snapshotId models db = .ok (u, db')) (k : String × String) :
    db'.rows.lookup k = (db.rows.lookup k).map fun stored ↦
      if k.1 = input.connector ∧ stored.absent = false ∧ k.2 ∉ models then
        tombstoned input snapshotId stored
      else stored := by
  obtain rfl := modify_eq_ok_iff.1 h
  have hkey : ∀ stored, (tombstoned input snapshotId stored).key = stored.key := fun _ ↦ rfl
  refine (Table.lookup_updateRows _ hkey db.rows k).trans ?_
  cases hstored : db.rows.lookup k with
  | none => rfl
  | some stored =>
    obtain rfl := Table.key_of_lookup hstored
    refine congrArg some (if_congr ?_ rfl rfl)
    simp [ModelCatalogRow.key, and_assoc]

/-- Statements that leave the rows of the catalogue alone. -/
theorem rows_of_catalogSnapshotCreate {data : CatalogSnapshot}
    (h : catalogSnapshotCreate data db = .ok (snapshotId, db')) : db'.rows = db.rows := by
  simp only [catalogSnapshotCreate, bind_eq_ok_iff, read_eq_ok_iff, modify_eq_ok_iff,
    pure_eq_ok_iff] at h
  obtain ⟨_, _, ⟨-, rfl⟩, _, _, rfl, -, rfl⟩ := h
  rfl

/-- The second half of the transaction, after the upserts. -/
theorem lookup_of_tombstones {models : List String} {drift : List CatalogDrift} {u : Unit}
    (h : onlyIf input.authoritative (do
      statement fault .tombstone (modelCatalogTombstone input snapshotId models)
      onlyIf (decide (drift.length > 0))
        (statement fault .createDrift (catalogDriftEventCreateMany input snapshotId drift)))
      db = .ok (u, db')) (k : String × String) :
    db'.rows.lookup k = (db.rows.lookup k).map fun stored ↦
      if input.authoritative = true ∧ k.1 = input.connector ∧ stored.absent = false ∧
          k.2 ∉ models then tombstoned input snapshotId stored
      else stored := by
  rcases onlyIf_eq_ok_iff.1 h with ⟨hauth, h⟩ | ⟨hauth, rfl⟩
  · obtain ⟨_, db₁, htombstone, hdrift⟩ := bind_eq_ok_iff.1 h
    have hlookup := lookup_modelCatalogTombstone (statement_eq_ok_iff.1 htombstone).2 k
    simp only [hauth, true_and]
    rw [← hlookup]
    -- the drift events go to another table
    rcases onlyIf_eq_ok_iff.1 hdrift with ⟨-, hdrift⟩ | ⟨-, rfl⟩
    · obtain rfl := modify_eq_ok_iff.1 (statement_eq_ok_iff.1 hdrift).2
      rfl
    · rfl
  · simp [hauth]

/-- The rows of a transaction, key by key: what the upserts wrote, and then the tombstones. -/
theorem exists_written {applied : AppliedCatalogSnapshot}
    (h : applyProviderSnapshotTransaction digest fault input db = .ok (applied, db')) :
    ∃ db₁ db₂, db₁.rows = db.rows ∧
      Written input applied.snapshotId ((db.rows.rows.filter fun row ↦
        decide (row.connector = input.connector)).map fun row ↦ row.model)
        (prepareCatalogRows digest input.rows) db₁ db₂ ∧
      ∀ k, db'.rows.lookup k = (db₂.rows.lookup k).map fun stored ↦
        if input.authoritative = true ∧ k.1 = input.connector ∧ stored.absent = false ∧
            k.2 ∉ input.rows.map ModelCatalogUpsert.model then
          tombstoned input applied.snapshotId stored
        else stored := by
  unfold applyProviderSnapshotTransaction at h
  obtain ⟨previousRows, _, hfind, h⟩ := bind_eq_ok_iff.1 h
  obtain ⟨rfl, rfl⟩ := read_eq_ok_iff.1 (statement_eq_ok_iff.1 hfind).2
  obtain ⟨snapshotId, db₁, hcreate, h⟩ := bind_eq_ok_iff.1 h
  obtain ⟨_, db₂, hupserts, h⟩ := bind_eq_ok_iff.1 h
  obtain ⟨_, db₃, htombstones, h⟩ := bind_eq_ok_iff.1 h
  obtain ⟨_, _, hcommit, h⟩ := bind_eq_ok_iff.1 h
  obtain ⟨-, rfl⟩ := pure_eq_ok_iff.1 (statement_eq_ok_iff.1 hcommit).2
  obtain ⟨rfl, rfl⟩ := pure_eq_ok_iff.1 h
  refine ⟨db₁, db₂, rows_of_catalogSnapshotCreate (statement_eq_ok_iff.1 hcreate).2,
    written_of_upsertRows (nodup_keys input) hupserts, fun k ↦ ?_⟩
  rw [lookup_of_tombstones htombstones k, models_prepareCatalogRows]

theorem applied_of_transaction {applied : AppliedCatalogSnapshot}
    (h : applyProviderSnapshotTransaction digest fault input db = .ok (applied, db')) :
    Applied input applied.snapshotId db db' := by
  obtain ⟨db₁, db₂, hrows, hwritten, hlast⟩ := exists_written h
  -- a key that is not listed is not written
  have hothers : ∀ k : String × String,
      (k.1 = input.connector → k.2 ∉ input.rows.map ModelCatalogUpsert.model) →
      db₂.rows.lookup k = db.rows.lookup k := by
    intro k hk
    rw [← hrows]
    refine hwritten.others k fun prepared hp heq ↦ ?_
    obtain ⟨row, hrow, rfl⟩ := List.mem_map.1 hp
    obtain rfl := heq
    exact hk (input.own row hrow) (List.mem_map_of_mem hrow)
  refine ⟨fun k hk ↦ ?_, fun model hmodel ↦ ?_, fun row hrow hauth stored hstored ↦ ?_,
    fun row hrow hwrites ↦ ?_⟩
  · rw [hlast, hothers k fun heq ↦ absurd heq hk]
    simp [hk]
  · rw [hlast, hothers _ fun _ ↦ hmodel]
    refine congrArg (fun f ↦ Option.map f _) (funext fun stored ↦ if_congr ?_ rfl rfl)
    simp [hmodel]
  · have hp : prepareCatalogRow digest row ∈ prepareCatalogRows digest input.rows :=
      List.mem_map_of_mem hrow
    have hknown := mem_previousModels_iff.2 (by rw [← rowKey_of_mem hrow, hstored]; simp)
    have hskipped : db₂.rows.lookup (rowKey row) = db₁.rows.lookup (rowKey row) :=
      hwritten.skipped _ hp hauth hknown
    rw [hlast, hskipped, hrows, hstored]
    simp [hauth]
  · have hp : prepareCatalogRow digest row ∈ prepareCatalogRows digest input.rows :=
      List.mem_map_of_mem hrow
    have hnew : input.authoritative = true ∨ row.model ∉ (db.rows.rows.filter fun row ↦
        decide (row.connector = input.connector)).map fun row ↦ row.model :=
      hwrites.imp_right fun hnone ↦ by
        rw [mem_previousModels_iff, ← rowKey_of_mem hrow]
        exact not_not.2 hnone
    obtain ⟨id, firstSeen, hlookup, hold⟩ := hwritten.written _ hp hnew
    have hstored : db'.rows.lookup (rowKey row) =
        some (persistence input applied.snapshotId (prepareCatalogRow digest row) id firstSeen) := by
      rw [hlast]
      refine (congrArg (Option.map _) hlookup).trans ?_
      rw [Option.map_some, if_neg fun hcond ↦ hcond.2.2.2 (List.mem_map_of_mem hrow)]
    exact ⟨_, hstored, rfl, rfl, fun stored hs ↦ (hold stored (hrows ▸ hs)).1⟩

end Transaction

section Snapshot

variable {db : CatalogDb}

/-- An answer is that of a committed attempt, and an error leaves the tables as they were. -/
theorem applyAttempts_cases (digest : CatalogDigest)
    (fault : ℕ → CatalogStatement → Option CatalogDbError) (input : ValidSnapshotInput)
    (db : CatalogDb) (remaining : ℕ) : ∀ attempt : ℕ,
    (∃ applied db', applyAttempts digest fault input db attempt remaining = (.ok applied, db') ∧
      Applied input applied.snapshotId db db') ∨
    ∃ error, applyAttempts digest fault input db attempt remaining = (.error error, db) := by
  induction remaining with
  | zero => exact fun _ ↦ .inr ⟨_, rfl⟩
  | succ remaining ih =>
    intro attempt
    unfold applyAttempts
    rcases Atomic.run_cases (applyProviderSnapshotTransaction digest (fault attempt) input) db with
      ⟨applied, db', hcommit, hrun⟩ | ⟨error, -, hrun⟩
    · rw [hrun]
      exact .inl ⟨applied, db', rfl, applied_of_transaction hcommit⟩
    · rw [hrun]
      cases error with
      | conflict => exact ih (attempt + 1)
      | other message => exact .inr ⟨_, rfl⟩

theorem applyProviderSnapshot_cases (digest : CatalogDigest)
    (fault : ℕ → CatalogStatement → Option CatalogDbError) (input : ApplyProviderSnapshotInput)
    (db : CatalogDb) :
    (∃ valid : ValidSnapshotInput, ∃ applied db',
      valid.toApplyProviderSnapshotInput = { input with rows := input.deduped } ∧
      applyProviderSnapshot digest fault input db = (.ok applied, db') ∧
      Applied valid applied.snapshotId db db') ∨
    ∃ error, applyProviderSnapshot digest fault input db = (.error error, db) := by
  unfold applyProviderSnapshot
  cases hvalid : validateProviderSnapshotInput input with
  | none => exact .inr ⟨_, rfl⟩
  | some valid =>
    rcases applyAttempts_cases digest fault valid db 3 1 with
      ⟨applied, db', heq, happlied⟩ | ⟨error, heq⟩
    · exact .inl ⟨valid, applied, db', eq_of_validate hvalid, heq, happlied⟩
    · exact .inr ⟨error, heq⟩

/-! ### Attempts without a fault -/

section NoFault

variable {fault : CatalogStatement → Option CatalogDbError}

theorem Total.statement {α : Type} {name : CatalogStatement} {x : CatalogTx α}
    (h : fault name = none) (hx : Total x) : Total (Connectors.statement fault name x) := by
  unfold Connectors.statement
  rw [h]
  exact hx

theorem total_upsertRows (h : ∀ name, fault name = none) (input : ValidSnapshotInput)
    (snapshotId : ℕ) (previousModels : List String) (preparedRows : List PreparedCatalogRow) :
    Total (upsertRows fault input snapshotId previousModels preparedRows) := by
  induction preparedRows with
  | nil => exact .pure ()
  | cons prepared rest ih =>
    exact .bind (.onlyIf _ (Total.statement (h _) (.modify _))) fun _ ↦ ih

/-- An attempt none of whose statements fails commits. -/
theorem total_transaction (h : ∀ name, fault name = none) (digest : CatalogDigest)
    (input : ValidSnapshotInput) :
    Total (applyProviderSnapshotTransaction digest fault input) := by
  refine .bind (Total.statement (h _) (.read _)) fun previousRows ↦ ?_
  refine .bind (Total.statement (h _) ?_) fun snapshotId ↦ ?_
  · exact .bind (.read _) fun _ ↦ .bind (.modify _) fun _ ↦ .pure _
  refine .bind (total_upsertRows h _ _ _ _) fun _ ↦ .bind (.onlyIf _ ?_) fun _ ↦
    .bind (Total.statement (h _) (.pure ())) fun _ ↦ .pure _
  exact .bind (Total.statement (h _) (.modify _)) fun _ ↦
    .onlyIf _ (Total.statement (h _) (.modify _))

/-- An input whose rows are of its connector is applied when the first attempt meets no fault. -/
theorem exists_ok_of_no_fault (digest : CatalogDigest)
    (fault : ℕ → CatalogStatement → Option CatalogDbError) (input : ApplyProviderSnapshotInput)
    (db : CatalogDb) (hown : ∀ row ∈ input.deduped, row.connector = input.connector)
    (h : ∀ name, fault 1 name = none) :
    ∃ applied, (applyProviderSnapshot digest fault input db).1 = .ok applied := by
  unfold applyProviderSnapshot validateProviderSnapshotInput
  rw [dif_pos hown]
  obtain ⟨applied, db', hcommit⟩ := total_transaction h digest _ db
  refine ⟨applied, ?_⟩
  simp only [applyAttempts, Atomic.run]
  rw [hcommit]

end NoFault

/-! ### The history -/

section History

variable {fault : CatalogStatement → Option CatalogDbError}

theorem Relates.statement {α : Type} {R : CatalogDb → CatalogDb → Prop} {name : CatalogStatement}
    {x : CatalogTx α} (hx : Relates R x) : Relates R (Connectors.statement fault name x) :=
  fun s a s' h ↦ hx s a s' (statement_eq_ok_iff.1 h).2

/-- Whatever becomes of a call, it relates the tables as its attempts do. -/
theorem relates_applyProviderSnapshot {R : CatalogDb → CatalogDb → Prop} (hrefl : ∀ db, R db db)
    (htrans : ∀ {db₁ db₂ db₃}, R db₁ db₂ → R db₂ db₃ → R db₁ db₃) {digest : CatalogDigest}
    (htransaction : ∀ fault input, Relates R (applyProviderSnapshotTransaction digest fault input))
    (fault : ℕ → CatalogStatement → Option CatalogDbError) (input : ApplyProviderSnapshotInput)
    (db : CatalogDb) : R db (applyProviderSnapshot digest fault input db).2 := by
  have hattempts : ∀ valid remaining attempt db,
      R db (applyAttempts digest fault valid db attempt remaining).2 := by
    intro valid remaining
    induction remaining with
    | zero => exact fun _ db ↦ hrefl db
    | succ remaining ih =>
      intro attempt db
      have hrun : R db
          ((applyProviderSnapshotTransaction digest (fault attempt) valid).run db).2 :=
        (htransaction (fault attempt) valid).run hrefl db
      unfold applyAttempts
      split
      · rename_i heq
        rwa [heq] at hrun
      · rename_i heq
        rw [heq] at hrun
        exact htrans hrun (ih _ _)
      · rename_i heq
        rwa [heq] at hrun
  unfold applyProviderSnapshot
  split
  · exact hrefl db
  · exact hattempts _ 3 1 db

end History

/-! ### The rows -/

/-- The content of the rows of a connector that are not absent. -/
def visibleRows (connector : String) (db : CatalogDb) : List ModelCatalogUpsert :=
  (db.findAll.filter fun row ↦ decide (row.connector = connector)).map
    ModelCatalogRow.toModelCatalogUpsert

theorem mem_visibleRows_iff {connector : String} {content : ModelCatalogUpsert} :
    content ∈ visibleRows connector db ↔ content.connector = connector ∧
      ∃ row, db.rows.lookup (rowKey content) = some row ∧ row.toModelCatalogUpsert = content ∧
        row.absent = false := by
  simp only [visibleRows, CatalogDb.findAll, List.mem_map, List.mem_filter,
    decide_eq_true_eq, Bool.not_eq_true', Table.lookup_eq_some_iff]
  constructor
  · rintro ⟨row, ⟨⟨hrow, habsent⟩, hconnector⟩, rfl⟩
    exact ⟨hconnector, row, ⟨hrow, rfl⟩, rfl, habsent⟩
  · rintro ⟨hconnector, row, ⟨hrow, -⟩, rfl, habsent⟩
    exact ⟨row, ⟨⟨hrow, habsent⟩, hconnector⟩, rfl⟩

/-- The visible rows of a connector have models of their own. -/
theorem nodup_visibleRows (connector : String) (db : CatalogDb) :
    ((visibleRows connector db).map ModelCatalogUpsert.model).Nodup := by
  unfold visibleRows CatalogDb.findAll
  rw [List.map_map, List.Nodup, List.pairwise_map]
  refine List.Pairwise.imp_of_mem ?_ ((db.rows.unique.filter _).filter _)
  intro a b ha hb hclash heq
  have hca : a.connector = connector := of_decide_eq_true (List.mem_filter.1 ha).2
  have hcb : b.connector = connector := of_decide_eq_true (List.mem_filter.1 hb).2
  refine of_decide_eq_false hclash (Prod.ext (hca.trans hcb.symm) heq)

/-- What an applied input says of a model: the first row it has of it. -/
theorem mem_rows_iff {input : ApplyProviderSnapshotInput} {valid : ValidSnapshotInput}
    (hvalid : valid.toApplyProviderSnapshotInput = { input with rows := input.deduped })
    {row : ModelCatalogUpsert} :
    row ∈ valid.rows ↔ input.rows.find? (fun r ↦ decide (r.model = row.model)) = some row := by
  have hrows : valid.rows = input.deduped := congrArg ApplyProviderSnapshotInput.rows hvalid
  rw [hrows]
  exact mem_dedupeRows_iff.trans (and_iff_right List.not_mem_nil)

theorem mem_models_iff {input : ApplyProviderSnapshotInput} {valid : ValidSnapshotInput}
    (hvalid : valid.toApplyProviderSnapshotInput = { input with rows := input.deduped })
    {model : String} :
    model ∈ valid.rows.map ModelCatalogUpsert.model ↔
      model ∈ input.rows.map ModelCatalogUpsert.model := by
  simp only [List.mem_map]
  constructor
  · rintro ⟨row, hrow, rfl⟩
    exact ⟨row, List.mem_of_find?_eq_some ((mem_rows_iff hvalid).1 hrow), rfl⟩
  · rintro ⟨row, hrow, rfl⟩
    cases hfirst : input.rows.find? fun r ↦ decide (r.model = row.model) with
    | none => exact absurd (decide_eq_true rfl) (List.find?_eq_none.1 hfirst row hrow)
    | some first =>
      have hmodel : first.model = row.model := of_decide_eq_true
        (List.find?_some (p := fun r : ModelCatalogUpsert ↦ decide (r.model = row.model)) hfirst)
      exact ⟨first, (mem_rows_iff hvalid).2 (by rw [hmodel, hfirst]), hmodel⟩

/-- An authoritative transaction leaves the listed rows visible, and no others of its connector. -/
theorem Applied.mem_visibleRows_iff {input : ValidSnapshotInput} {snapshotId : ℕ}
    {db' : CatalogDb} (h : Applied input snapshotId db db') (hauth : input.authoritative = true)
    {content : ModelCatalogUpsert} :
    content ∈ visibleRows input.connector db' ↔ content ∈ input.rows := by
  rw [SnapshotApplied.mem_visibleRows_iff]
  constructor
  · rintro ⟨hconnector, row, hlookup, hcontent, habsent⟩
    by_cases hlisted : content.model ∈ input.rows.map ModelCatalogUpsert.model
    · -- the row of the key is the one that was written for the listed row
      obtain ⟨incoming, hincoming, hmodel⟩ := List.mem_map.1 hlisted
      obtain ⟨stored, hstored, hcontent', -⟩ := h.listed incoming hincoming (.inl hauth)
      have hkey : rowKey content = rowKey incoming := by
        rw [rowKey_of_mem hincoming, rowKey, hconnector, hmodel]
      rw [← hkey, hlookup] at hstored
      obtain rfl := Option.some.inj hstored
      rwa [← hcontent, hcontent']
    · -- a row that is not listed is absent
      have hunlisted := h.unlisted content.model hlisted
      rw [rowKey, hconnector] at hlookup
      rw [hlookup] at hunlisted
      obtain ⟨stored, -, hrow⟩ := Option.map_eq_some_iff.1 hunlisted.symm
      rw [hauth, Bool.true_and] at hrow
      split at hrow
      · subst hrow
        cases habsent
      · rename_i hpresent
        subst hrow
        simp [habsent] at hpresent
  · intro hcontent
    obtain ⟨stored, hstored, hstoredContent, habsent, -⟩ := h.listed content hcontent (.inl hauth)
    exact ⟨input.own content hcontent, stored, hstored, hstoredContent, habsent⟩

/-- A row keeps its key and its identity. -/
theorem Applied.id_kept {input : ValidSnapshotInput} {snapshotId : ℕ} {db' : CatalogDb}
    (h : Applied input snapshotId db db') {stored : ModelCatalogRow}
    (hstored : db.rows.lookup stored.key = some stored) :
    ∃ stored', db'.rows.lookup stored.key = some stored' ∧ stored'.id = stored.id := by
  by_cases hconnector : stored.connector = input.connector
  · by_cases hlisted : stored.model ∈ input.rows.map ModelCatalogUpsert.model
    · obtain ⟨row, hrow, hmodel⟩ := List.mem_map.1 hlisted
      have hkey : rowKey row = stored.key := by
        rw [rowKey_of_mem hrow, ModelCatalogRow.key, hconnector, hmodel]
      cases hauth : input.authoritative with
      | false =>
        exact ⟨stored, hkey ▸ h.known row hrow hauth stored (hkey ▸ hstored), rfl⟩
      | true =>
        obtain ⟨stored', hstored', -, -, hid⟩ := h.listed row hrow (.inl hauth)
        exact ⟨stored', hkey ▸ hstored', hid stored (hkey ▸ hstored)⟩
    · have hunlisted := h.unlisted stored.model hlisted
      have hkey : stored.key = (input.connector, stored.model) := by
        rw [ModelCatalogRow.key, hconnector]
      rw [← hkey, hstored, Option.map_some] at hunlisted
      refine ⟨_, hunlisted, ?_⟩
      split <;> rfl
  · exact ⟨stored, (h.elsewhere stored.key hconnector).trans hstored, rfl⟩

/-- A transaction that is not authoritative touches no row that was there. -/
theorem Applied.untouched {input : ValidSnapshotInput} {snapshotId : ℕ} {db' : CatalogDb}
    (h : Applied input snapshotId db db') (hauth : input.authoritative = false)
    {stored : ModelCatalogRow} (hstored : db.rows.lookup stored.key = some stored) :
    db'.rows.lookup stored.key = some stored := by
  by_cases hconnector : stored.connector = input.connector
  · have hkey : (input.connector, stored.model) = stored.key := by
      rw [ModelCatalogRow.key, hconnector]
    by_cases hlisted : stored.model ∈ input.rows.map ModelCatalogUpsert.model
    · obtain ⟨row, hrow, hmodel⟩ := List.mem_map.1 hlisted
      have hrowKey : rowKey row = stored.key := by
        rw [rowKey_of_mem hrow, hmodel, hkey]
      exact hrowKey ▸ h.known row hrow hauth stored (hrowKey ▸ hstored)
    · have hunlisted := h.unlisted stored.model hlisted
      rw [hkey, hstored, Option.map_some, hauth, Bool.false_and] at hunlisted
      exact hunlisted
  · exact (h.elsewhere stored.key hconnector).trans hstored

/-- What applying a snapshot does to the stored rows. -/
structure Exact (fault : ℕ → CatalogStatement → Option CatalogDbError)
    (input : ApplyProviderSnapshotInput) (db : CatalogDb)
    (result : Except CatalogError AppliedCatalogSnapshot × CatalogDb) : Prop where
  /-- An input whose rows are of its connector is applied when the first attempt meets no fault. -/
  applied : (∀ row ∈ input.deduped, row.connector = input.connector) →
    (∀ name, fault 1 name = none) → ∃ applied, result.1 = .ok applied
  /-- An error leaves everything as it was. -/
  error : ∀ error, result.1 = .error error → result.2 = db
  /-- The visible rows are the incoming ones, of those of one model the first. -/
  visible : ∀ applied, result.1 = .ok applied → input.authoritative = true →
    ((visibleRows input.connector result.2).map ModelCatalogUpsert.model).Nodup ∧
      ∀ content, content ∈ visibleRows input.connector result.2 ↔
        input.rows.find? (fun row ↦ decide (row.model = content.model)) = some content
  /-- What else was visible is marked absent and otherwise as it was. -/
  tombstoned : ∀ applied, result.1 = .ok applied → input.authoritative = true →
    ∀ stored ∈ db.findAll, stored.connector = input.connector →
      stored.model ∉ input.rows.map ModelCatalogUpsert.model →
      { stored with
        absent := true
        absentSince := some input.observedAt
        snapshotId := some applied.snapshotId } ∈ result.2.rows
  /-- No row is deleted. -/
  kept : ∀ stored ∈ db.rows, ∃ stored' ∈ result.2.rows,
    stored'.id = stored.id ∧ stored'.key = stored.key
  /-- A listing that is not authoritative adds the models that had no row. -/
  added : ∀ applied, result.1 = .ok applied → input.authoritative = false → ∀ content,
    input.rows.find? (fun row ↦ decide (row.model = content.model)) = some content →
    (∀ stored ∈ db.rows, stored.key ≠ (input.connector, content.model)) →
    content ∈ visibleRows input.connector result.2
  /-- And it touches no row that was there. -/
  untouched : input.authoritative = false → ∀ stored ∈ db.rows, stored ∈ result.2.rows
  /-- The rows of other connectors stay as they are. -/
  elsewhere : ∀ row : ModelCatalogRow, row.connector ≠ input.connector →
    (row ∈ result.2.rows ↔ row ∈ db.rows)

/-- **Catalogue snapshots are applied exactly.** -/
theorem snapshot_applied_exactly (digest : CatalogDigest)
    (fault : ℕ → CatalogStatement → Option CatalogDbError) (input : ApplyProviderSnapshotInput)
    (db : CatalogDb) : Exact fault input db (applyProviderSnapshot digest fault input db) := by
  have hlookup : ∀ stored ∈ db.rows, db.rows.lookup stored.key = some stored :=
    fun stored hstored ↦ Table.lookup_eq_some_iff.2 ⟨hstored, rfl⟩
  rcases applyProviderSnapshot_cases digest fault input db with
    ⟨valid, applied, db', hvalid, heq, happlied⟩ | ⟨error, heq⟩
  · have hconnector : valid.connector = input.connector := by
      rw [hvalid]
    have hauthoritative : valid.authoritative = input.authoritative := by
      rw [hvalid]
    have hobserved : valid.observedAt = input.observedAt := by
      rw [hvalid]
    rw [heq]
    refine ⟨fun _ _ ↦ ⟨applied, rfl⟩, by rintro _ ⟨⟩,
      fun _ _ hauth ↦ ⟨nodup_visibleRows _ _, fun content ↦ ?_⟩,
      fun applied' happlied' hauth stored hstored hown hunlisted ↦ ?_, fun stored hstored ↦ ?_,
      fun _ _ hauth content hfirst hnew ↦ ?_, fun hauth stored hstored ↦ ?_, fun row hrow ↦ ?_⟩
    · rw [← hconnector, happlied.mem_visibleRows_iff (hauthoritative.trans hauth),
        mem_rows_iff hvalid]
    · obtain rfl := Except.ok.inj happlied'
      obtain ⟨hstored, hpresent⟩ := List.mem_filter.1 hstored
      have hrow := happlied.unlisted stored.model (hunlisted ∘ (mem_models_iff hvalid).1)
      have hkey : (valid.connector, stored.model) = stored.key := by
        rw [ModelCatalogRow.key, hconnector, hown]
      rw [hkey, hlookup stored hstored, Option.map_some, hauthoritative, hauth, Bool.true_and,
        if_pos hpresent, tombstoned, hobserved] at hrow
      exact (Table.lookup_eq_some_iff.1 hrow).1
    · obtain ⟨stored', hstored', hid⟩ := happlied.id_kept (hlookup stored hstored)
      obtain ⟨hmem, hkey⟩ := Table.lookup_eq_some_iff.1 hstored'
      exact ⟨stored', hmem, hid, hkey⟩
    · have hcontent := (mem_rows_iff hvalid).2 hfirst
      have hkey : rowKey content = (input.connector, content.model) := by
        rw [rowKey_of_mem hcontent, hconnector]
      obtain ⟨stored, hstored, hstoredContent, habsent, -⟩ := happlied.listed content hcontent
        (.inr (Table.lookup_eq_none_iff.2 (hkey ▸ hnew)))
      exact mem_visibleRows_iff.2
        ⟨(valid.own content hcontent).trans hconnector, stored, hstored, hstoredContent, habsent⟩
    · exact (Table.lookup_eq_some_iff.1 (happlied.untouched (hauthoritative.trans hauth)
        (hlookup stored hstored))).1
    · exact Table.mem_iff_of_lookup_eq (happlied.elsewhere row.key (hconnector ▸ hrow))
  · have happlies := exists_ok_of_no_fault digest fault input db
    rw [heq] at happlies ⊢
    exact ⟨happlies, fun _ _ ↦ rfl, by rintro _ ⟨⟩, by rintro _ ⟨⟩,
      fun stored hstored ↦ ⟨stored, hstored, rfl, rfl⟩, by rintro _ ⟨⟩, fun _ _ hstored ↦ hstored,
      fun _ _ ↦ Iff.rfl⟩

end Snapshot

end ModelConnector.SnapshotApplied
