import Mathlib.Data.Rat.Defs
import Mathlib.Logic.Function.Basic

/-!
# The catalogues of a provider

The loop of the watcher fetches the catalogue of a provider from time to time and gives it to
`CatalogSync`, beside the one that it kept of the fetch before. `reconcile` counts for how many
fetches a model has been missing, blocks what would remove too many models at once, has the loop
keep the new catalogue, and submits what it has found to the writer unless that is blocked.

The clock, the catalogues and the writer are the environment's. A price is the number that is read.
-/

namespace ModelConnector.Watcher

/-! ### Catalogues -/

structure CatalogModel where
  id : String
  free : Bool
  promptPrice : ℚ
  completionPrice : ℚ
  contextLength : Option ℕ
  modality : Option String
  deriving DecidableEq

abbrev Catalog :=
  List CatalogModel

def Catalog.ids (catalog : Catalog) : List String :=
  catalog.map CatalogModel.id

/-- What a `Map` by the ids has for an id, which is the last model that has it. -/
def Catalog.byId (catalog : Catalog) (id : String) : Option CatalogModel :=
  catalog.reverse.find? fun model ↦ decide (model.id = id)

/-- The ids of a catalogue, entry by entry, that another one does not list. -/
def Catalog.missing (previous current : Catalog) : List String :=
  previous.ids.filter fun id ↦ decide (id ∉ current.ids)

/-! ### Reconciling -/

/-- What a `CatalogSync` is configured with. -/
structure CatalogSyncConfig where
  removalBlockRatio : ℚ
  removalBlockCount : ℕ
  missingBeforeDeprecate : Option ℕ

/-- The `catalog` section of the configuration. -/
structure CatalogConfig where
  fetchEnabled : Bool
  writeEnabled : Bool
  intervalMs : ℕ
  removalBlockRatio : ℚ
  removalBlockCount : ℕ
  consecutiveMissingBeforeDeprecate : ℕ
  ratio_nonneg : 0 ≤ removalBlockRatio
  deprecate_pos : 0 < consecutiveMissingBeforeDeprecate

def CatalogConfig.sync (config : CatalogConfig) : CatalogSyncConfig where
  removalBlockRatio := config.removalBlockRatio
  removalBlockCount := config.removalBlockCount
  missingBeforeDeprecate := some config.consecutiveMissingBeforeDeprecate

/-- Whether the writer is available, and whether it takes what is submitted. -/
structure CatalogWriter where
  isAvailable : Bool
  accepts : Bool

/-- `DisabledCatalogWriterAdapter`. -/
def disabledCatalogWriter : CatalogWriter where
  isAvailable := false
  accepts := false

/-- For how many fetches models have been missing, by provider and id. -/
abbrev MissingCounts :=
  String → Option ℕ

def missingKey (provider id : String) : String :=
  provider ++ ":" ++ id

/-- Each missing id is counted once more, and passes if its count is large enough. -/
def countMissing (missingBeforeDeprecate : ℕ) (provider : String) :
    List String → MissingCounts → List String × MissingCounts
  | [], counts => ([], counts)
  | id :: rest, counts =>
    let count := (counts (missingKey provider id)).getD 0 + 1
    let (eligible, counts) := countMissing missingBeforeDeprecate provider rest
      (Function.update counts (missingKey provider id) (some count))
    (if missingBeforeDeprecate ≤ count then id :: eligible else eligible, counts)

/-- The counts of ids are deleted. -/
def forgetMissing (provider : String) : List String → MissingCounts → MissingCounts
  | [], counts => counts
  | id :: rest, counts =>
    forgetMissing provider rest (Function.update counts (missingKey provider id) none)

/-- Too many models are missing at once. -/
def CatalogSyncConfig.blocks (config : CatalogSyncConfig) (previous current : Catalog) : Bool :=
  let missing := previous.missing current
  let ratio : ℚ := if previous.length = 0 then 0 else missing.length / previous.length
  decide (config.removalBlockRatio < ratio) || decide (config.removalBlockCount < missing.length)

/-- What `reconcile` returns. -/
structure Reconciled where
  added : List String
  changed : List String
  missing : List String
  eligibleMissing : List String
  blocked : Bool
  writeAttempted : Bool
  deriving DecidableEq

/-- The memory of the loop and of its `CatalogSync`. -/
structure CatalogState where
  catalogs : String → Option Catalog
  missingCounts : MissingCounts
  lastCatalogFetchAt : Option ℤ

def CatalogState.init : CatalogState where
  catalogs := fun _ ↦ none
  missingCounts := fun _ ↦ none
  lastCatalogFetchAt := none

/-- `reconcile`, where keeping the catalogue is what the loop has it do. It returns, unless what is
submitted is not taken. -/
def reconcile (config : CatalogSyncConfig) (provider : String) (previous current : Catalog)
    (writeEnabled : Bool) (writer : CatalogWriter) (s : CatalogState) :
    Reconciled × Bool × CatalogState :=
  let added := Catalog.ids (current.filter fun model ↦ (previous.byId model.id).isNone)
  let changed := Catalog.ids (current.filter fun model ↦
    (previous.byId model.id).any fun old ↦ decide (old ≠ model))
  let missing := previous.missing current
  let missingBeforeDeprecate := config.missingBeforeDeprecate.getD 2
  let (eligibleMissing, missingCounts) :=
    countMissing missingBeforeDeprecate provider missing s.missingCounts
  let missingCounts := forgetMissing provider current.ids missingCounts
  let blocked := config.blocks previous current
  let catalogs := Function.update s.catalogs provider (some current)
  let writeAttempted := writeEnabled && !blocked && writer.isAvailable
  ({ added, changed, missing, eligibleMissing, blocked, writeAttempted },
    !writeAttempted || writer.accepts, { s with catalogs, missingCounts })

/-! ### Refreshing -/

/-- What happens while a cycle refreshes the catalogue. -/
structure CatalogReading where
  now : ℤ
  /-- The catalogue, if it can be fetched. -/
  fetched : Option Catalog
  writer : CatalogWriter

/-- A catalogue that was fetched, and what came of it. -/
structure Fetch where
  current : Catalog
  reconciled : Reconciled
  deriving DecidableEq

def CatalogConfig.isDue (config : CatalogConfig) (now : ℤ) (s : CatalogState) : Bool :=
  config.fetchEnabled &&
    !s.lastCatalogFetchAt.any fun lastFetchAt ↦ decide (now - lastFetchAt < config.intervalMs)

/-- `refreshCatalogIfDue`: what was fetched, whether it returns, and the memory after it. -/
def refreshCatalogIfDue (config : CatalogConfig) (provider : String) (reading : CatalogReading)
    (s : CatalogState) : Option Fetch × Bool × CatalogState :=
  if !config.isDue reading.now s then (none, true, s)
  else
    match reading.fetched with
    | none => (none, false, s)
    | some current =>
      let previous := (s.catalogs provider).getD []
      match reconcile config.sync provider previous current config.writeEnabled reading.writer s with
      | (reconciled, false, s) => (some { current, reconciled }, false, s)
      | (reconciled, true, s) =>
        (some { current, reconciled }, true, { s with lastCatalogFetchAt := some reading.now })

/-- What the loop fetches in cycle after cycle; a cycle that fails is followed by the next. -/
def fetches (config : CatalogConfig) (provider : String) :
    List CatalogReading → CatalogState → List Fetch
  | [], _ => []
  | reading :: rest, s =>
    let (fetch, _, s) := refreshCatalogIfDue config provider reading s
    fetch.toList ++ fetches config provider rest s

/-! ### Counting -/

variable {provider id : String} {counts : MissingCounts} {ids : List String} {n : ℕ}

@[simp]
theorem missingKey_inj {id' : String} :
    missingKey provider id = missingKey provider id' ↔ id = id' := by
  unfold missingKey
  exact String.append_right_inj _

/-- An id passes when its count, with the entries that are missing now, is large enough. -/
theorem mem_countMissing :
    id ∈ (countMissing n provider ids counts).1 ↔
      id ∈ ids ∧ n ≤ (counts (missingKey provider id)).getD 0 + ids.count id := by
  induction ids generalizing counts with
  | nil => simp [countMissing]
  | cons first rest ih =>
    unfold countMissing
    dsimp only
    by_cases heq : id = first
    · subst heq
      have hrest := @ih (Function.update counts (missingKey provider id)
        (some ((counts (missingKey provider id)).getD 0 + 1)))
      rw [Function.update_self, Option.getD_some] at hrest
      have hnone : id ∉ rest → rest.count id = 0 := List.count_eq_zero_of_not_mem
      rw [List.count_cons_self]
      split
      · simp only [List.mem_cons, true_or, true_and, true_iff]
        omega
      · rw [hrest]
        simp only [List.mem_cons, true_or, true_and]
        constructor
        · rintro ⟨-, hle⟩
          omega
        · intro hle
          exact ⟨by_contra fun hmem ↦ by have := hnone hmem; omega, by omega⟩
    · have hrest := @ih (Function.update counts (missingKey provider first)
        (some ((counts (missingKey provider first)).getD 0 + 1)))
      rw [Function.update_of_ne (by simpa using heq)] at hrest
      rw [List.count_cons_of_ne (Ne.symm heq), List.mem_cons, or_iff_right heq, ← hrest]
      split
      · rw [List.mem_cons, or_iff_right heq]
      · rfl

theorem forgetMissing_of_mem (h : id ∈ ids ∨ counts (missingKey provider id) = none) :
    forgetMissing provider ids counts (missingKey provider id) = none := by
  induction ids generalizing counts with
  | nil => exact h.resolve_left List.not_mem_nil
  | cons first rest ih =>
    refine ih ?_
    by_cases heq : id = first
    · right
      rw [heq, Function.update_self]
    · rw [Function.update_of_ne (by simpa using heq)]
      simpa [heq] using h

/-! ### One fetch after another -/

variable {config : CatalogConfig} {previous : Catalog} {f : Fetch} {s : CatalogState}
  {reading : CatalogReading}

/-- The memory after a fetch: its catalogue is kept, and none of its ids is being counted. -/
structure CatalogState.Keeps (s : CatalogState) (provider : String) (previous : Catalog) : Prop where
  catalog : (s.catalogs provider).getD [] = previous
  uncounted : ∀ id ∈ previous.ids, s.missingCounts (missingKey provider id) = none

theorem keeps_init : CatalogState.init.Keeps provider [] where
  catalog := rfl
  uncounted _ h := nomatch h

/-- What a fetch after another one comes to. -/
structure Fetch.Follows (f : Fetch) (config : CatalogConfig) (previous : Catalog)
    (writer : CatalogWriter) : Prop where
  mem_eligibleMissing : ∀ id, id ∈ f.reconciled.eligibleMissing ↔
    id ∉ f.current.ids ∧ config.consecutiveMissingBeforeDeprecate ≤ previous.ids.count id
  blocked : f.reconciled.blocked = config.sync.blocks previous f.current
  writeAttempted : f.reconciled.writeAttempted =
    (config.writeEnabled && !config.sync.blocks previous f.current && writer.isAvailable)

/-- An id that is missing has been counted for no fetch before, so its count is that of the entries
that it had. -/
theorem mem_eligible_reconcile (h : s.Keeps provider previous) (current : Catalog) :
    id ∈ (countMissing config.consecutiveMissingBeforeDeprecate provider
        (previous.missing current) s.missingCounts).1 ↔
      id ∉ current.ids ∧ config.consecutiveMissingBeforeDeprecate ≤ previous.ids.count id := by
  have hpos := config.deprecate_pos
  rw [mem_countMissing]
  unfold Catalog.missing
  by_cases hcurrent : id ∈ current.ids
  · simp [hcurrent]
  · rw [List.count_filter (by simpa using hcurrent), List.mem_filter]
    simp only [hcurrent, not_false_eq_true, decide_true, and_true, true_and]
    by_cases hprevious : id ∈ previous.ids
    · rw [h.uncounted id hprevious, Option.getD_none, Nat.zero_add]
      exact and_iff_right hprevious
    · rw [List.count_eq_zero_of_not_mem hprevious]
      exact iff_of_false (fun hmem ↦ hprevious hmem.1) (by omega)

theorem keeps_reconcile {current : Catalog} {writer : CatalogWriter} {writeEnabled : Bool} :
    (reconcile config.sync provider previous current writeEnabled writer s).2.2.Keeps provider
      current where
  catalog := by
    unfold reconcile
    dsimp only
    rw [Function.update_self, Option.getD_some]
  uncounted id hid := by
    unfold reconcile
    exact forgetMissing_of_mem (.inl hid)

theorem follows_reconcile {current : Catalog} {writer : CatalogWriter}
    (h : s.Keeps provider previous) :
    Fetch.Follows ⟨current, (reconcile config.sync provider previous current config.writeEnabled
      writer s).1⟩ config previous writer where
  mem_eligibleMissing _ := mem_eligible_reconcile h current
  blocked := rfl
  writeAttempted := rfl

/-- A cycle without a fetch leaves the memory as it is. -/
theorem refresh_of_none (h : s.Keeps provider previous)
    (hnone : (refreshCatalogIfDue config provider reading s).1 = none) :
    (refreshCatalogIfDue config provider reading s).2.2.Keeps provider previous := by
  unfold refreshCatalogIfDue at hnone ⊢
  split
  · exact h
  · rw [if_neg ‹_›] at hnone
    split
    · exact h
    · rename_i current hfetched
      simp only [hfetched] at hnone
      split at hnone <;> cases hnone

/-- A cycle with a fetch. -/
theorem refresh_of_some (h : s.Keeps provider previous)
    (hsome : (refreshCatalogIfDue config provider reading s).1 = some f) :
    f.Follows config previous reading.writer ∧
      (refreshCatalogIfDue config provider reading s).2.2.Keeps provider f.current := by
  unfold refreshCatalogIfDue at hsome ⊢
  split
  · rw [if_pos ‹_›] at hsome
    cases hsome
  · rw [if_neg ‹_›] at hsome
    split
    · rename_i hfetched
      simp only [hfetched] at hsome
      cases hsome
    · rename_i current hfetched
      have hfollows := @follows_reconcile provider config previous s current reading.writer h
      simp only [hfetched, h.catalog] at hsome ⊢
      have hkeeps := @keeps_reconcile provider config previous s current reading.writer
        config.writeEnabled
      split at hsome
      · rename_i reconciled t heq
        rw [heq] at hfollows hkeeps
        obtain rfl := Option.some.inj hsome
        exact ⟨hfollows, hkeeps⟩
      · rename_i reconciled t heq
        rw [heq] at hfollows hkeeps
        obtain rfl := Option.some.inj hsome
        exact ⟨hfollows, hkeeps.catalog, hkeeps.uncounted⟩

/-- The last catalogue that was fetched. -/
def lastFetched (fs : List Fetch) : Catalog :=
  (fs.getLast?.map Fetch.current).getD []

/-- **Every fetch follows the one before it.** -/
theorem follows_of_fetches {readings : List CatalogReading} {before after : List Fetch}
    (h : fetches config provider readings CatalogState.init = before ++ f :: after) :
    ∃ reading ∈ readings, f.Follows config (lastFetched before) reading.writer := by
  have hall : ∀ (s : CatalogState) (previous : Catalog) (before : List Fetch),
      s.Keeps provider previous → fetches config provider readings s = before ++ f :: after →
        ∃ reading ∈ readings, f.Follows config ((before.getLast?.map Fetch.current).getD previous)
          reading.writer := by
    clear h
    induction readings with
    | nil => simp [fetches]
    | cons reading rest ih =>
      intro s previous before hkeeps hfetches
      unfold fetches at hfetches
      dsimp only at hfetches
      cases hfetch : (refreshCatalogIfDue config provider reading s).1 with
      | none =>
        rw [hfetch] at hfetches
        obtain ⟨reading', hmem, hfollows⟩ := ih _ _ _ (refresh_of_none hkeeps hfetch) hfetches
        exact ⟨reading', List.mem_cons_of_mem _ hmem, hfollows⟩
      | some g =>
        obtain ⟨hfollows, hnext⟩ := refresh_of_some hkeeps hfetch
        rw [hfetch] at hfetches
        cases before with
        | nil =>
          obtain ⟨rfl, -⟩ := List.cons.inj hfetches
          exact ⟨reading, List.mem_cons_self, hfollows⟩
        | cons g' before =>
          obtain ⟨rfl, hrest⟩ := List.cons.inj hfetches
          obtain ⟨reading', hmem, hfollows'⟩ := ih _ _ _ hnext hrest
          refine ⟨reading', List.mem_cons_of_mem _ hmem, ?_⟩
          cases hlast : before.getLast? <;> simpa [List.getLast?_cons, hlast] using hfollows'
  exact hall _ _ _ keeps_init h

end ModelConnector.Watcher
