import Mathlib.Algebra.Order.Field.Rat
import Mathlib.Tactic.NormNum
import ModelConnector.Foundations.Hysteresis
import ModelConnector.Watcher.CatalogSync

/-!
# Deprecation after misses

A model that has been missing for a number of fetches in a row is to be reported. `reconcile` counts
a model only at the fetch after the last one that lists it, since the catalogue it is compared with
is then that fetch's, and the count is the number of entries that the model had. So a model that
vanishes for good is reported once where one miss is enough, and never where it takes two, unless a
catalogue lists it more than once.
-/

namespace ModelConnector.Watcher

variable {config : CatalogConfig} {provider : String} {readings : List CatalogReading}
  {before after : List Fetch} {f : Fetch} {id : String}

/-! ### What is wanted of a fetch -/

/-- A fetch does not list an id. -/
def Fetch.lacks (id : String) (f : Fetch) : Bool :=
  decide (id ∉ f.current.ids)

/-- An id that an earlier fetch has listed. -/
def Listed (before : List Fetch) (id : String) : Prop :=
  ∃ g ∈ before, id ∈ g.current.ids

/-- **What is wanted of a fetch**: it reports the ids that an earlier fetch has listed and none of
the last fetches does, as many as the configuration says. -/
def ReportsMisses (config : CatalogConfig) (before : List Fetch) (f : Fetch) : Prop :=
  ∀ id, id ∈ f.reconciled.eligibleMissing ↔ Listed before id ∧
    Lasts config.consecutiveMissingBeforeDeprecate (Fetch.lacks id) (before ++ [f])

/-! ### Ids that are due -/

theorem lasts_succ_iff {n : ℕ} : Lasts (n + 1) (Fetch.lacks id) (before ++ [f]) ↔
    id ∉ f.current.ids ∧ Lasts n (Fetch.lacks id) before := by
  rw [lasts_iff, lasts_iff, streak_concat]
  unfold Fetch.lacks
  by_cases hid : id ∈ f.current.ids
  · simp [hid]
  · simp [hid]

/-- Whether the last fetch has listed an id that some fetch has. -/
theorem lasts_one_iff (h : Listed before id) :
    Lasts 1 (Fetch.lacks id) before ↔ id ∉ (lastFetched before).ids := by
  induction before using List.reverseRecOn with
  | nil =>
    obtain ⟨g, hg, -⟩ := h
    cases hg
  | append_singleton before g ih =>
    rw [lasts_succ_iff, lasts_iff]
    simp [lastFetched]

theorem listed_of_mem_lastFetched (h : id ∈ (lastFetched before).ids) : Listed before id := by
  unfold lastFetched at h
  cases hlast : before.getLast? with
  | none =>
    rw [hlast] at h
    cases h
  | some g =>
    rw [hlast] at h
    exact ⟨g, List.mem_of_getLast? hlast, h⟩

/-- A longer end of a list. -/
theorem lasts_of_le {m n : ℕ} {l : List Fetch} (hle : m ≤ n) (h : Lasts n (Fetch.lacks id) l) :
    Lasts m (Fetch.lacks id) l :=
  lasts_iff.2 (hle.trans (lasts_iff.1 h))

/-! ### The law of the reports -/

/-- **A fetch reports what it should** exactly when no id that was listed before has been missing
from the last two fetches and from as many as the configuration says, and no id that is missing
now had as many entries in the last catalogue, unless one is enough. -/
theorem reportsMisses_iff
    (h : fetches config provider readings CatalogState.init = before ++ f :: after) :
    ReportsMisses config before f ↔
      (∀ id, Listed before id → ¬ Lasts (max config.consecutiveMissingBeforeDeprecate 2)
        (Fetch.lacks id) (before ++ [f])) ∧
      (2 ≤ config.consecutiveMissingBeforeDeprecate → ∀ id, id ∉ f.current.ids →
        (lastFetched before).ids.count id < config.consecutiveMissingBeforeDeprecate) := by
  obtain ⟨_, -, hfollows⟩ := follows_of_fetches h
  have hmem := hfollows.mem_eligibleMissing
  have hpos := config.deprecate_pos
  unfold ReportsMisses
  generalize config.consecutiveMissingBeforeDeprecate = n at hmem hpos ⊢
  -- an id that is reported was in the last catalogue, so it has not been missing twice
  have htwice : ∀ id, id ∈ f.reconciled.eligibleMissing →
      Listed before id ∧ ¬ Lasts 2 (Fetch.lacks id) (before ++ [f]) := by
    intro id hid
    have hlast : id ∈ (lastFetched before).ids :=
      List.count_pos_iff.1 (hpos.trans_le ((hmem id).1 hid).2)
    have hlisted := listed_of_mem_lastFetched hlast
    refine ⟨hlisted, fun hlasts ↦ ?_⟩
    exact (lasts_one_iff hlisted).1 (lasts_succ_iff.1 hlasts).2 hlast
  rcases Nat.lt_or_ge n 2 with hlt | htwo
  · -- one miss is enough
    obtain rfl : n = 1 := by omega
    have hone : ∀ id, Lasts 1 (Fetch.lacks id) (before ++ [f]) ↔ id ∉ f.current.ids := by
      intro id
      rw [lasts_succ_iff, lasts_iff]
      simp
    constructor
    · refine fun hreports ↦ ⟨fun id hlisted hlasts ↦ ?_, fun hle ↦ absurd hle (by omega)⟩
      have hreported := (hreports id).2 ⟨hlisted, (hone id).2 (lasts_succ_iff.1 hlasts).1⟩
      exact (htwice id hreported).2 hlasts
    · rintro ⟨hnot, -⟩ id
      constructor
      · intro hid
        exact ⟨(htwice id hid).1, (hone id).2 ((hmem id).1 hid).1⟩
      · rintro ⟨hlisted, hlasts⟩
        have habsent := (hone id).1 hlasts
        refine (hmem id).2 ⟨habsent, List.count_pos_iff.2 (by_contra fun hlast ↦ ?_)⟩
        exact hnot id hlisted (lasts_succ_iff.2 ⟨habsent, (lasts_one_iff hlisted).2 hlast⟩)
  · -- what is reported is not due, and what is due is not reported
    rw [max_eq_left htwo]
    constructor
    · refine fun hreports ↦ ⟨fun id hlisted hlasts ↦ ?_, fun _ id habsent ↦ ?_⟩
      · exact (htwice id ((hreports id).2 ⟨hlisted, hlasts⟩)).2 (lasts_of_le htwo hlasts)
      · by_contra hle
        have hid := (hmem id).2 ⟨habsent, not_lt.1 hle⟩
        exact (htwice id hid).2 (lasts_of_le htwo ((hreports id).1 hid).2)
    · rintro ⟨hnot, hfew⟩ id
      refine iff_of_false (fun hid ↦ ?_) fun hdue ↦ hnot id hdue.1 hdue.2
      obtain ⟨habsent, hle⟩ := (hmem id).1 hid
      exact absurd hle (not_le.2 (hfew htwo id habsent))

/-! ### A model that vanishes -/

/-- Two misses in a row are reported, and writes are disabled. -/
def twoMisses : CatalogConfig where
  fetchEnabled := true
  writeEnabled := false
  intervalMs := 1000
  removalBlockRatio := 1 / 5
  removalBlockCount := 10
  consecutiveMissingBeforeDeprecate := 2
  ratio_nonneg := by norm_num
  deprecate_pos := Nat.two_pos

def freeModel (id : String) : CatalogModel where
  id := id
  free := true
  promptPrice := 0
  completionPrice := 0
  contextLength := none
  modality := none

/-- The catalogues, fetched at intervals of a second. -/
def everySecond (writer : CatalogWriter) (catalogs : List Catalog) : List CatalogReading :=
  catalogs.zipIdx.map fun (catalog, k) ↦
    { now := 1000 * (k : ℤ), fetched := some catalog, writer }

/-- A model is listed, then it is not, for three fetches. -/
def vanishing : List CatalogReading :=
  everySecond disabledCatalogWriter [[freeModel "a"], [], [], []]

/-- A fetch of an empty catalogue after another one. -/
def emptyFetch : Fetch where
  current := []
  reconciled :=
    { added := [], changed := [], missing := [], eligibleMissing := [], blocked := false
      writeAttempted := false }

/-- What the first two of them come to. -/
def vanished : List Fetch :=
  [{ current := [freeModel "a"]
     reconciled :=
      { added := ["a"], changed := [], missing := [], eligibleMissing := [], blocked := false
        writeAttempted := false } },
    { current := []
      reconciled :=
        { added := [], changed := [], missing := ["a"], eligibleMissing := [], blocked := true
          writeAttempted := false } }]

/-- The model returns. -/
def returning : List CatalogReading :=
  everySecond disabledCatalogWriter [[freeModel "a"], [], [freeModel "a"]]

def returnFetch : Fetch where
  current := [freeModel "a"]
  reconciled :=
    { added := ["a"], changed := [], missing := [], eligibleMissing := [], blocked := false
      writeAttempted := false }

/-- A model that returns is not reported. -/
theorem reportsMisses_returned :
    fetches twoMisses "openrouter" returning CatalogState.init = vanished ++ returnFetch :: [] ∧
      ReportsMisses twoMisses vanished returnFetch := by
  have hrun : fetches twoMisses "openrouter" returning CatalogState.init =
      vanished ++ returnFetch :: [] := by
    decide +kernel
  refine ⟨hrun, (reportsMisses_iff hrun).2 ⟨?_, fun _ id _ ↦ ?_⟩⟩
  · rintro id ⟨g, hg, hid⟩ hlasts
    have habsent : id ∉ ["a"] := (lasts_succ_iff.1 hlasts).1
    rcases List.mem_cons.1 hg with rfl | hg
    · exact habsent hid
    · obtain rfl := List.mem_singleton.1 hg
      cases hid
  · exact Nat.two_pos

/-- The model is missing from the last two fetches, then from the last three, and no fetch reports
it. -/
theorem vanished_unreported :
    fetches twoMisses "openrouter" vanishing CatalogState.init =
        vanished ++ [emptyFetch, emptyFetch] ∧
      Listed vanished "a" ∧ Lasts 2 (Fetch.lacks "a") (vanished ++ [emptyFetch]) ∧
      (∀ f ∈ vanished ++ [emptyFetch, emptyFetch], f.reconciled.eligibleMissing = []) ∧
      ¬ ReportsMisses twoMisses vanished emptyFetch ∧
      ¬ ReportsMisses twoMisses (vanished ++ [emptyFetch]) emptyFetch := by
  have hlisted : Listed vanished "a" := ⟨_, List.mem_cons_self, by decide⟩
  refine ⟨by decide +kernel, hlisted, by decide +kernel, by decide +kernel, fun h ↦ ?_,
    fun h ↦ ?_⟩
  · have hreported := (h "a").2 ⟨hlisted, by decide +kernel⟩
    cases hreported
  · obtain ⟨g, hg, hid⟩ := hlisted
    have hreported := (h "a").2 ⟨⟨g, List.mem_append_left _ hg, hid⟩, by decide +kernel⟩
    cases hreported

end ModelConnector.Watcher
