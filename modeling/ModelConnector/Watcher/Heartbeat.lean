import ModelConnector.Watcher.Alerts
import ModelConnector.Watcher.CatalogSync

/-!
# The whole cycle

A cycle observes the pairs of the metrics one by one, then it refreshes the catalogue, then it
writes the heartbeat. Whatever throws ends the cycle there, and the next one goes on with what is in
memory. The writer of the catalogue is the one that is never available.
-/

namespace ModelConnector.Watcher

variable {config : WatcherConfig} {s : WatcherState}

/-! ### The model -/

/-- The loop over the evidence, and whether it comes to its end. -/
def observeLoop (config : WatcherConfig) :
    List (EvidenceSnapshot × Reading) → WatcherState → Outcome
  | [], s => (s, true)
  | (evidence, reading) :: rest, s =>
    match observePair config evidence reading s with
    | (s, true) => observeLoop config rest s
    | (s, false) => (s, false)

structure LoopConfig where
  watcher : WatcherConfig
  catalog : CatalogConfig
  /-- The provider of the catalogue. -/
  provider : String

/-- What is written to the state file. -/
structure Heartbeat where
  heartbeatAt : ℤ
  lastCycleOk : Bool
  shadowStart : Option ℤ
  deriving DecidableEq

/-- The memory of the loop, and what has been written to the state file; it holds the last. -/
structure LoopState where
  watcher : WatcherState
  catalogs : CatalogState
  lastCycleOk : Bool
  shadowStart : Option ℤ
  heartbeats : List Heartbeat

def LoopState.init : LoopState where
  watcher := .init
  catalogs := .init
  lastCycleOk := false
  shadowStart := none
  heartbeats := []

/-- A whole cycle: what is observed, whether the other three routes answered, the clock when the
catalogue is refreshed, the catalogue if it can be fetched, and whether the state file can be
written. -/
structure LoopCycle where
  cycle : Cycle
  others : Bool
  refreshedAt : ℤ
  fetched : Option Catalog
  stored : Bool

def LoopCycle.catalogReading (cycle : LoopCycle) : CatalogReading where
  now := cycle.refreshedAt
  fetched := cycle.fetched
  writer := disabledCatalogWriter

/-- The pairs of the metrics, if the service has given any. -/
def LoopCycle.evidence (cycle : LoopCycle) : List (EvidenceSnapshot × Reading) :=
  (cycle.cycle.metrics.map cycle.cycle.evidence).getD []

/-- Whether all four routes answered. -/
def LoopCycle.ok (cycle : LoopCycle) : Bool :=
  cycle.cycle.metrics.isSome && cycle.others

/-- The end of a cycle. -/
def LoopState.beat (s : LoopState) (cycle : LoopCycle) : LoopState :=
  let s := { s with lastCycleOk := cycle.ok }
  if cycle.stored then
    { s with
      heartbeats := s.heartbeats ++ [⟨cycle.cycle.observedAt, s.lastCycleOk, s.shadowStart⟩] }
  else s

/-- `runCycle`, from its beginning to its end. -/
def runLoopCycle (config : LoopConfig) (cycle : LoopCycle) (s : LoopState) : LoopState :=
  match observeLoop config.watcher cycle.evidence s.watcher with
  | (watcher, false) => { s with watcher }
  | (watcher, true) =>
    match refreshCatalogIfDue config.catalog config.provider cycle.catalogReading s.catalogs with
    | (_, false, catalogs) => { s with watcher, catalogs }
    | (_, true, catalogs) => LoopState.beat { s with watcher, catalogs } cycle

/-! ### The loop over the evidence -/

/-- The loop comes to its end when every observation it comes to lets it go on. -/
theorem observeLoop_snd (evidence : List (EvidenceSnapshot × Reading)) :
    (observeLoop config evidence s).2 = true ↔
      ∀ o ∈ observed config evidence s, (o.outcome config).2 = true := by
  induction evidence generalizing s with
  | nil => exact iff_of_true rfl (List.forall_mem_nil _)
  | cons p rest ih =>
    have hfirst : (Observation.mk s p.1 p.2).outcome config = observePair config p.1 p.2 s := rfl
    unfold observeLoop observed
    rw [List.forall_mem_cons, hfirst]
    generalize observePair config p.1 p.2 s = outcome
    obtain ⟨t, goesOn⟩ := outcome
    cases goesOn with
    | true => exact ih.trans (and_iff_right rfl).symm
    | false => exact iff_of_false Bool.false_ne_true fun h ↦ Bool.false_ne_true h.1

/-- The observations of a loop that comes to its end are those of all the pairs. -/
theorem map_observed_of_observeLoop {evidence : List (EvidenceSnapshot × Reading)}
    (h : (observeLoop config evidence s).2 = true) :
    (observed config evidence s).map (fun o ↦ (o.raw, o.reading)) = evidence := by
  induction evidence generalizing s with
  | nil => rfl
  | cons p rest ih =>
    unfold observeLoop at h
    unfold observed
    rw [List.map_cons]
    generalize observePair config p.1 p.2 s = outcome at h
    obtain ⟨t, goesOn⟩ := outcome
    cases goesOn with
    | true => rw [ih h]
    | false => cases h

end ModelConnector.Watcher
