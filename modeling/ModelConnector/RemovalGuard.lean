import ModelConnector.DeprecationMisses

/-!
# The guard against mass removal

A catalogue that lacks too many models is blocked, and nothing is submitted for it. What it is
compared with is the catalogue that was fetched before it, blocked or not, so a truncated catalogue
that is fetched twice is blocked once and submitted then. The guard holds as long as no catalogue
that comes right after a blocked one is within the limits beside that one only.
-/

namespace ModelConnector.Watcher

variable {config : CatalogConfig} {provider : String} {readings : List CatalogReading}
  {before after : List Fetch} {f : Fetch} {known current : Catalog}

/-! ### What is wanted of a fetch -/

/-- A catalogue lacks at most so many of the ids of another one, and at most such a share of
them. -/
structure CatalogConfig.Within (config : CatalogConfig) (known current : Catalog) : Prop where
  count : (known.missing current).length ≤ config.removalBlockCount
  share : ((known.missing current).length : ℚ) ≤ config.removalBlockRatio * (known.length : ℚ)

instance : Decidable (config.Within known current) :=
  decidable_of_iff ((known.missing current).length ≤ config.removalBlockCount ∧
      ((known.missing current).length : ℚ) ≤ config.removalBlockRatio * (known.length : ℚ))
    ⟨fun h ↦ ⟨h.1, h.2⟩, fun h ↦ ⟨h.count, h.share⟩⟩

/-- A sequence of catalogues: the last one, and the last one within the limits beside the one before
it. -/
structure CatalogTail where
  last : Catalog := []
  good : Catalog := []

def CatalogTail.next (config : CatalogConfig) (tail : CatalogTail) (current : Catalog) :
    CatalogTail where
  last := current
  good := if config.Within tail.last current then current else tail.good

end ModelConnector.Watcher
