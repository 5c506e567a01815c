import ModelConnector.Billing.MeasuredCost
import ModelConnector.Foundations.Number

/-!
# The price coverage audit

`classifyPriceCoverage` gives every routable model one verdict: it has a tariff, it is free, its
lane is a seat, it is waived, or nothing accounts for its price.
-/

namespace ModelConnector.Billing

/-- The tariff a connector advertises. -/
structure RoutablePricing where
  inputPerMTok : Option Number
  outputPerMTok : Option Number
  deriving DecidableEq

/-- A model as the routing table reports it. -/
structure RoutableModel where
  connector : String
  model : String
  lane : Option BillingLane := none
  pricing : Option RoutablePricing := none
  free : Option Bool := none
  deriving DecidableEq

/-- A verdict of the audit. -/
inductive PriceCoverageVerdict
  | priced
  | free
  | subscription
  | waived
  | missing
  deriving DecidableEq

/-- A gap that is owned until it expires. A date that does not parse never expires. -/
structure PriceCoverageWaiver where
  connector : String
  /-- A model, or `*` for every model of the connector. -/
  model : String
  expiresAtUtc : Option ℤ
  deriving DecidableEq

/-- A tariff of the advertised ones. -/
def RoutableModel.tariff (entry : RoutableModel) (field : RoutablePricing → Option Number) :
    Option Number :=
  entry.pricing.bind field

/-- `hasTariff`: one of the two tariffs is a finite number. -/
def RoutableModel.hasTariff (entry : RoutableModel) : Bool :=
  ((entry.tariff RoutablePricing.inputPerMTok).bind Number.finite?).isSome ||
    ((entry.tariff RoutablePricing.outputPerMTok).bind Number.finite?).isSome

/-- `findWaiver`: the waiver that covers the model, and whether it has expired. The exact model
beats the whole connector. -/
def findWaiver (entry : RoutableModel) (waivers : List PriceCoverageWaiver) (now : ℤ) :
    Option (PriceCoverageWaiver × Bool) :=
  let candidates := waivers.filter fun w ↦
    decide (w.connector = entry.connector ∧ (w.model = entry.model ∨ w.model = "*"))
  ((candidates.find? fun w ↦ decide (w.model = entry.model)).or candidates.head?).map fun w ↦
    (w, w.expiresAtUtc.any fun expires ↦ decide (expires ≤ now))

/-- The verdict on a model without a price: a waiver that has expired excuses nothing. -/
def waiverVerdict : Option (PriceCoverageWaiver × Bool) → PriceCoverageVerdict
  | some (_, false) => .waived
  | some (_, true) => .missing
  | none => .missing

/-- `classifyPriceCoverage`. -/
def classifyPriceCoverage (entry : RoutableModel) (waivers : List PriceCoverageWaiver)
    (now : ℤ) : PriceCoverageVerdict :=
  if entry.hasTariff then .priced
  else if entry.free = some true then .free
  else if entry.lane = some .subscription then .subscription
  else waiverVerdict (findWaiver entry waivers now)

/-! ### Properties -/

section Properties

variable {entry : RoutableModel} {waivers : List PriceCoverageWaiver} {now : ℤ}

theorem waiverVerdict_mem (found : Option (PriceCoverageWaiver × Bool)) :
    waiverVerdict found ∈ [PriceCoverageVerdict.waived, PriceCoverageVerdict.missing] := by
  rcases found with _ | ⟨waiver, expired⟩
  · simp [waiverVerdict]
  · cases expired <;> simp [waiverVerdict]

theorem classifyPriceCoverage_free_iff :
    classifyPriceCoverage entry waivers now = .free ↔
      entry.hasTariff = false ∧ entry.free = some true := by
  have hrest := waiverVerdict_mem (findWaiver entry waivers now)
  unfold classifyPriceCoverage
  split_ifs with htariff hfree hlane
  · simp [htariff]
  · simp [htariff, hfree]
  · simp [hfree]
  · refine iff_of_false (fun heq ↦ ?_) fun h ↦ hfree h.2
    rw [heq] at hrest
    simp at hrest

end Properties

end ModelConnector.Billing
