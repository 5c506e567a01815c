import Mathlib.Data.List.Basic

/-!
# Where a settled cost came from

The provenance of `Request.costUsd`, and which sources may become a charge to the customer. Both
charging paths, the live settle and the recovery settle, decide by the one list
`NEVER_CHARGEABLE_COST_SOURCES`.
-/

namespace ModelConnector.Billing

/-- Where a settled cost came from. -/
inductive CostSource
  /-- The provider itself reported a cost. -/
  | provider
  /-- Computed from catalogue tariffs and measured tokens. -/
  | catalog
  /-- Catalogued as a free-tier model with no numeric tariff. -/
  | catalogFree
  /-- Nothing was consumed. -/
  | zeroUsage
  /-- Tokens of an aborted attempt, estimated by us: our own cost, never a charge. -/
  | estimatedInputUnbilled
  /-- Tokens were consumed and no price was known. -/
  | unpriced
  /-- The call ran on a subscription lane. -/
  | subscription
  deriving DecidableEq

/-- The text stored in `Request.costSource`. -/
def CostSource.text : CostSource → String
  | provider => "provider"
  | catalog => "catalog"
  | catalogFree => "catalog-free"
  | zeroUsage => "zero-usage"
  | estimatedInputUnbilled => "estimated-input-unbilled"
  | unpriced => "unpriced"
  | subscription => "subscription"

/-- The cost sources whose amount may never become a customer charge. -/
def NEVER_CHARGEABLE_COST_SOURCES : List CostSource :=
  [.estimatedInputUnbilled]

/-- May the customer be charged for a request recorded with this cost source? A missing or an
unknown source answers yes. -/
def isChargeableToCustomer (costSource : Option String) : Bool :=
  match costSource with
  | none => true
  | some text => !(NEVER_CHARGEABLE_COST_SOURCES.map CostSource.text).contains text

end ModelConnector.Billing
