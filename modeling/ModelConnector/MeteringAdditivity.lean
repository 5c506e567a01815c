import Mathlib.Algebra.Order.BigOperators.Group.List
import ModelConnector.Connectors.Metering

/-!
# Metering the attempts of a request

What a request is metered at should be what its attempts cost one by one. The merge adds up the
reports of all attempts, and the meter then takes one branch for the sum: when **any** attempt
reported a cost of its own, the sum of the reported costs is the price of everything, and the tokens
of the attempts that only reported tokens are free; and when any attempt cannot be priced, nothing
is.

On reports that keep the contract of the interface a report is a vector, the merge adds vectors,
and the cost is a function of the vector: linear in the tokens as long as everything can be priced.
`additive_iff` says exactly when the cost of the sum is the sum of the costs, and
`not_additive` is a request for which it is not.
-/

namespace ModelConnector

open Billing Connectors

/-! ### Reports as vectors -/

/-- The contract of the interface: no number is negative, what is cached and what is written to
the cache is part of the input, and the times to live are part of the cache writes. -/
structure Coherent (a : UsageField → ℚ) : Prop where
  output : 0 ≤ a .outputTokens
  cost : 0 ≤ a .costUsd
  cached : 0 ≤ a .cachedInputTokens
  ephemeral5m : 0 ≤ a .ephemeral5m
  ephemeral1h : 0 ≤ a .ephemeral1h
  writes : a .ephemeral5m + a .ephemeral1h ≤ a .cacheWrites
  input : a .cachedInputTokens + a .cacheWrites ≤ a .inputTokens

instance (a : UsageField → ℚ) : Decidable (Coherent a) :=
  decidable_of_iff (0 ≤ a .outputTokens ∧ 0 ≤ a .costUsd ∧ 0 ≤ a .cachedInputTokens ∧
      0 ≤ a .ephemeral5m ∧ 0 ≤ a .ephemeral1h ∧
      a .ephemeral5m + a .ephemeral1h ≤ a .cacheWrites ∧
      a .cachedInputTokens + a .cacheWrites ≤ a .inputTokens)
    ⟨fun ⟨h₁, h₂, h₃, h₄, h₅, h₆, h₇⟩ ↦ ⟨h₁, h₂, h₃, h₄, h₅, h₆, h₇⟩,
      fun ⟨h₁, h₂, h₃, h₄, h₅, h₆, h₇⟩ ↦ ⟨h₁, h₂, h₃, h₄, h₅, h₆, h₇⟩⟩

theorem Coherent.congr {a b : UsageField → ℚ} (ha : Coherent a)
    (h : ∀ field, field ≠ .totalTokens → b field = a field) : Coherent b := by
  obtain ⟨houtput, hcost, hcached, h5m, h1h, hwrites, hinput⟩ := ha
  constructor <;> simpa [h] using ‹_›

theorem Coherent.zero : Coherent 0 := by
  constructor <;> simp

theorem Coherent.add {a b : UsageField → ℚ} (ha : Coherent a) (hb : Coherent b) :
    Coherent (a + b) where
  output := add_nonneg ha.output hb.output
  cost := add_nonneg ha.cost hb.cost
  cached := add_nonneg ha.cached hb.cached
  ephemeral5m := add_nonneg ha.ephemeral5m hb.ephemeral5m
  ephemeral1h := add_nonneg ha.ephemeral1h hb.ephemeral1h
  writes := by
    have := ha.writes
    have := hb.writes
    simp only [Pi.add_apply]
    linarith
  input := by
    have := ha.input
    have := hb.input
    simp only [Pi.add_apply]
    linarith

theorem Coherent.sum {l : List (UsageField → ℚ)} (h : ∀ a ∈ l, Coherent a) : Coherent l.sum := by
  induction l with
  | nil => exact .zero
  | cons a l ih =>
    rw [List.sum_cons]
    exact (h a List.mem_cons_self).add (ih fun b hb ↦ h b (List.mem_cons_of_mem _ hb))

/-! ### Tariffs on vectors -/

/-- The classes of tokens that are priced apart. -/
inductive TokenClass
  | uncached
  | cached
  | write5m
  | write1h
  | output
  deriving DecidableEq

/-- All classes. -/
def TokenClass.all : List TokenClass :=
  [.uncached, .cached, .write5m, .write1h, .output]

/-- The tokens of a class in a report. -/
def TokenClass.tokens (a : UsageField → ℚ) : TokenClass → ℚ
  | uncached => a .inputTokens - a .cachedInputTokens - (a .ephemeral5m + a .ephemeral1h)
  | cached => a .cachedInputTokens
  | write5m => a .ephemeral5m
  | write1h => a .ephemeral1h
  | output => a .outputTokens

/-- The rate of a class in a catalogue row. -/
def TokenClass.rate (pricing : Option MeasuredCostPricing) : TokenClass → ℚ
  | uncached => (tariff pricing MeasuredCostPricing.inputPerMTok).getD 0
  | cached => cachedRate pricing
  | write5m => (tariff pricing MeasuredCostPricing.cacheWrite5mPerMTok).getD 0
  | write1h => (tariff pricing MeasuredCostPricing.cacheWrite1hPerMTok).getD 0
  | output => (tariff pricing MeasuredCostPricing.outputPerMTok).getD 0

/-- The tokens of all classes at their rates. -/
def priceOf (pricing : Option MeasuredCostPricing) (a : UsageField → ℚ) : ℚ :=
  (TokenClass.all.map fun c ↦ c.tokens a * c.rate pricing / TOKENS_PER_PRICE_UNIT).sum

/-- The times to live do not account for all cache writes, or one of them has no tariff. -/
def Unpriceable (pricing : Option MeasuredCostPricing) (a : UsageField → ℚ) : Prop :=
  a .cacheWrites ≠ a .ephemeral5m + a .ephemeral1h ∨
    0 < a .ephemeral5m ∧ tariff pricing MeasuredCostPricing.cacheWrite5mPerMTok = none ∨
    0 < a .ephemeral1h ∧ tariff pricing MeasuredCostPricing.cacheWrite1hPerMTok = none

instance (pricing : Option MeasuredCostPricing) (a : UsageField → ℚ) :
    Decidable (Unpriceable pricing a) :=
  inferInstanceAs (Decidable (_ ∨ _ ∧ _ ∨ _ ∧ _))

/-- The price of the tokens of a report. -/
def tokenPrice (pricing : Option MeasuredCostPricing) (a : UsageField → ℚ) : ℚ :=
  if hasTariff pricing = true ∧ ¬ Unpriceable pricing a then priceOf pricing a else 0

/-- The cost of a report: what the provider says, or else the price of its tokens. -/
def vectorCost (pricing : Option MeasuredCostPricing) (lane : BillingLane)
    (a : UsageField → ℚ) : ℚ :=
  if 0 < a .costUsd then a .costUsd
  else if lane = .subscription then 0
  else tokenPrice pricing a

/-- By the tariffs the tokens of a report cost nothing: there is no tariff, the report cannot be
priced, or every class it uses has the rate zero. -/
def Costless (pricing : Option MeasuredCostPricing) (a : UsageField → ℚ) : Prop :=
  hasTariff pricing = false ∨ Unpriceable pricing a ∨
    ∀ c : TokenClass, c ∈ TokenClass.all → c.tokens a = 0 ∨ c.rate pricing = 0

section Vectors

variable {pricing : Option MeasuredCostPricing} {lane : BillingLane} {a b : UsageField → ℚ}
  {l : List (UsageField → ℚ)}

theorem tokens_nonneg (ha : Coherent a) (c : TokenClass) : 0 ≤ c.tokens a := by
  obtain ⟨houtput, -, hcached, h5m, h1h, hwrites, hinput⟩ := ha
  cases c <;> simp only [TokenClass.tokens]
  case uncached => linarith
  all_goals assumption

theorem rate_nonneg (pricing : Option MeasuredCostPricing) (c : TokenClass) :
    0 ≤ c.rate pricing := by
  cases c <;> simp only [TokenClass.rate]
  case cached => exact cachedRate_nonneg pricing
  all_goals exact tariff_nonneg pricing _

theorem priceOf_zero (pricing : Option MeasuredCostPricing) : priceOf pricing 0 = 0 := by
  simp [priceOf, TokenClass.all, TokenClass.tokens]

/-- The price is linear in the tokens. -/
theorem priceOf_add (pricing : Option MeasuredCostPricing) (a b : UsageField → ℚ) :
    priceOf pricing (a + b) = priceOf pricing a + priceOf pricing b := by
  simp only [priceOf, TokenClass.all, List.map_cons, List.map_nil, List.sum_cons, List.sum_nil,
    TokenClass.tokens, Pi.add_apply]
  ring

theorem priceOf_sum (pricing : Option MeasuredCostPricing) (l : List (UsageField → ℚ)) :
    priceOf pricing l.sum = (l.map (priceOf pricing)).sum := by
  induction l with
  | nil => exact priceOf_zero pricing
  | cons a l ih => rw [List.sum_cons, priceOf_add, ih, List.map_cons, List.sum_cons]

theorem term_nonneg (ha : Coherent a) (c : TokenClass) :
    0 ≤ c.tokens a * c.rate pricing / TOKENS_PER_PRICE_UNIT :=
  div_nonneg (mul_nonneg (tokens_nonneg ha c) (rate_nonneg pricing c))
    (by norm_num [TOKENS_PER_PRICE_UNIT])

/-- Costs that are not negative add up to nothing when each is nothing. -/
theorem sum_map_eq_zero_iff {α : Type} {f : α → ℚ} {l : List α} (h : ∀ a ∈ l, 0 ≤ f a) :
    (l.map f).sum = 0 ↔ ∀ a ∈ l, f a = 0 := by
  constructor
  · intro hzero a ha
    exact List.all_zero_of_le_zero_le_of_sum_eq_zero (List.forall_mem_map.2 h) hzero
      (List.mem_map_of_mem ha)
  · exact fun hall ↦ List.sum_eq_zero (List.forall_mem_map.2 hall)

theorem priceOf_nonneg (ha : Coherent a) : 0 ≤ priceOf pricing a := by
  refine List.sum_nonneg fun x hx ↦ ?_
  obtain ⟨c, -, rfl⟩ := List.mem_map.1 hx
  exact term_nonneg ha c

theorem priceOf_eq_zero_iff (ha : Coherent a) : priceOf pricing a = 0 ↔
    ∀ c : TokenClass, c ∈ TokenClass.all → c.tokens a = 0 ∨ c.rate pricing = 0 := by
  have hunit : TOKENS_PER_PRICE_UNIT ≠ 0 := by norm_num [TOKENS_PER_PRICE_UNIT]
  refine (sum_map_eq_zero_iff fun c _ ↦ term_nonneg ha c).trans (forall₂_congr fun c _ ↦ ?_)
  rw [div_eq_zero_iff, or_iff_left hunit, mul_eq_zero]

theorem tokenPrice_nonneg (ha : Coherent a) : 0 ≤ tokenPrice pricing a := by
  unfold tokenPrice
  split
  · exact priceOf_nonneg ha
  · exact le_rfl

theorem tokenPrice_eq_zero_iff (ha : Coherent a) :
    tokenPrice pricing a = 0 ↔ Costless pricing a := by
  unfold tokenPrice Costless
  rw [← priceOf_eq_zero_iff ha]
  by_cases htariff : hasTariff pricing = true
  · by_cases hprice : Unpriceable pricing a <;> simp [htariff, hprice]
  · simp [htariff]

/-- The cost does not depend on the total a report gives. -/
theorem vectorCost_congr (h : ∀ field, field ≠ .totalTokens → a field = b field) :
    vectorCost pricing lane a = vectorCost pricing lane b := by
  have htokens : ∀ c : TokenClass, c.tokens a = c.tokens b := by
    intro c
    cases c <;> simp only [TokenClass.tokens, h _ (by decide : UsageField.inputTokens ≠ _),
      h _ (by decide : UsageField.cachedInputTokens ≠ _),
      h _ (by decide : UsageField.ephemeral5m ≠ _),
      h _ (by decide : UsageField.ephemeral1h ≠ _), h _ (by decide : UsageField.outputTokens ≠ _)]
  have hprice : Unpriceable pricing a ↔ Unpriceable pricing b := by
    rw [Unpriceable, Unpriceable, h _ (by decide : UsageField.cacheWrites ≠ _),
      h _ (by decide : UsageField.ephemeral5m ≠ _), h _ (by decide : UsageField.ephemeral1h ≠ _)]
  simp only [vectorCost, tokenPrice, priceOf, htokens, hprice,
    h _ (by decide : UsageField.costUsd ≠ _)]

/-- A sum of reports cannot be priced as soon as one of them cannot. -/
theorem unpriceable_add (ha : Coherent a) (hb : Coherent b) :
    Unpriceable pricing (a + b) ↔ Unpriceable pricing a ∨ Unpriceable pricing b := by
  obtain ⟨-, -, -, h5m, h1h, hwrites, -⟩ := ha
  obtain ⟨-, -, -, h5m', h1h', hwrites', -⟩ := hb
  have hadd : ∀ x y x' y' : ℚ, x ≤ y → x' ≤ y' → (y + y' ≠ x + x' ↔ y ≠ x ∨ y' ≠ x') := by
    intro x y x' y' h h'
    constructor
    · intro hne
      by_contra hnot
      push Not at hnot
      exact hne (by rw [hnot.1, hnot.2])
    · rintro (hne | hne) heq
      · exact hne (by linarith)
      · exact hne (by linarith)
  have hpos : ∀ x y : ℚ, 0 ≤ x → 0 ≤ y → (0 < x + y ↔ 0 < x ∨ 0 < y) := by
    intro x y hx hy
    constructor
    · intro h
      by_contra hnot
      push Not at hnot
      linarith [hnot.1, hnot.2]
    · rintro (h | h) <;> linarith
  have hsplit : (a + b) UsageField.ephemeral5m + (a + b) UsageField.ephemeral1h =
      a .ephemeral5m + a .ephemeral1h + (b .ephemeral5m + b .ephemeral1h) := by
    simp only [Pi.add_apply]
    ring
  simp only [Unpriceable, hsplit]
  simp only [Pi.add_apply]
  rw [hadd _ _ _ _ hwrites hwrites', hpos _ _ h5m h5m', hpos _ _ h1h h1h']
  tauto

theorem unpriceable_sum (hl : ∀ a ∈ l, Coherent a) :
    Unpriceable pricing l.sum ↔ ∃ a ∈ l, Unpriceable pricing a := by
  induction l with
  | nil => simp [Unpriceable]
  | cons a l ih =>
    have hrest : ∀ b ∈ l, Coherent b := fun b hb ↦ hl b (List.mem_cons_of_mem _ hb)
    rw [List.sum_cons, unpriceable_add (hl a List.mem_cons_self) (.sum hrest), ih hrest]
    simp

/-- The cost of a report with a cost of its own, and of one without. -/
theorem vectorCost_eq (ha : Coherent a) (hlane : lane ≠ .subscription) :
    vectorCost pricing lane a =
      a .costUsd + if a .costUsd = 0 then tokenPrice pricing a else 0 := by
  unfold vectorCost
  by_cases hcost : 0 < a .costUsd
  · simp [hcost, hcost.ne']
  · have hzero : a .costUsd = 0 := le_antisymm (not_lt.1 hcost) ha.cost
    simp [hzero, hlane]

theorem vectorCost_subscription (ha : Coherent a) :
    vectorCost pricing .subscription a = a .costUsd := by
  unfold vectorCost
  rw [if_pos rfl]
  split_ifs with hcost
  · rfl
  · exact le_antisymm ha.cost (not_lt.1 hcost)

/-! ### Adding reports up -/

theorem sum_apply (l : List (UsageField → ℚ)) (field : UsageField) :
    l.sum field = (l.map fun a ↦ a field).sum := by
  induction l with
  | nil => rfl
  | cons a l ih => rw [List.sum_cons, Pi.add_apply, ih, List.map_cons, List.sum_cons]

/-- The attempts of a request report a cost of their own, or the sum does not either. -/
theorem cost_sum_eq_zero_iff (hl : ∀ a ∈ l, Coherent a) :
    l.sum .costUsd = 0 ↔ ∀ a ∈ l, a .costUsd = 0 := by
  rw [sum_apply]
  exact sum_map_eq_zero_iff fun a ha ↦ (hl a ha).cost

/-- Where every report can be priced, the price of the sum is the sum of the prices. -/
theorem tokenPrice_sum_of_priceable (hl : ∀ a ∈ l, Coherent a)
    (hprice : ∀ a ∈ l, ¬ Unpriceable pricing a) :
    tokenPrice pricing l.sum = (l.map (tokenPrice pricing)).sum := by
  have hsum : ¬ Unpriceable pricing l.sum := fun h ↦ by
    obtain ⟨a, ha, hbad⟩ := (unpriceable_sum hl).1 h
    exact hprice a ha hbad
  by_cases htariff : hasTariff pricing = true
  · have hmap : l.map (tokenPrice pricing) = l.map (priceOf pricing) :=
      List.map_congr_left fun a ha ↦ by rw [tokenPrice, if_pos ⟨htariff, hprice a ha⟩]
    rw [hmap, tokenPrice, if_pos ⟨htariff, hsum⟩, priceOf_sum]
  · have hmap : l.map (tokenPrice pricing) = l.map fun _ ↦ 0 :=
      List.map_congr_left fun a _ ↦ by rw [tokenPrice, if_neg fun h ↦ htariff h.1]
    rw [hmap, tokenPrice, if_neg fun h ↦ htariff h.1]
    simp

/-- What is metered beside the reported costs. -/
def unreportedPrice (pricing : Option MeasuredCostPricing) (a : UsageField → ℚ) : ℚ :=
  if a .costUsd = 0 then tokenPrice pricing a else 0

theorem sum_unreportedPrice_eq_zero_iff (hl : ∀ a ∈ l, Coherent a) :
    (l.map (unreportedPrice pricing)).sum = 0 ↔
      ∀ a ∈ l, a .costUsd = 0 → Costless pricing a := by
  have hnonneg : ∀ a ∈ l, 0 ≤ unreportedPrice pricing a := by
    intro a ha
    unfold unreportedPrice
    split
    · exact tokenPrice_nonneg (hl a ha)
    · exact le_rfl
  refine (sum_map_eq_zero_iff hnonneg).trans (forall₂_congr fun a ha ↦ ?_)
  unfold unreportedPrice
  split
  · rename_i hcost
    rw [tokenPrice_eq_zero_iff (hl a ha)]
    exact ⟨fun h _ ↦ h, fun h ↦ h hcost⟩
  · rename_i hcost
    exact iff_of_true rfl fun h ↦ absurd h hcost

/-- The costs of the reports, one by one: what they report and the price of the others. -/
theorem sum_vectorCost (hl : ∀ a ∈ l, Coherent a) (hlane : lane ≠ .subscription) :
    (l.map (vectorCost pricing lane)).sum =
      l.sum .costUsd + (l.map (unreportedPrice pricing)).sum := by
  rw [sum_apply, ← List.sum_map_add]
  exact congrArg List.sum (List.map_congr_left fun a ha ↦ vectorCost_eq (hl a ha) hlane)

/-- When the cost of a sum of reports is the sum of their costs: a subscription lane charges only
what is reported; without any reported cost the tariffs are linear as long as they apply; and
otherwise the tokens beside the reported costs have to be worth nothing. -/
def PricesAdditively (pricing : Option MeasuredCostPricing) (lane : BillingLane)
    (l : List (UsageField → ℚ)) : Prop :=
  lane = .subscription ∨
    (∀ a ∈ l, a .costUsd = 0 → Costless pricing a) ∨
    ∀ a ∈ l, a .costUsd = 0 ∧ ¬ Unpriceable pricing a

theorem vectorCost_sum_iff (hl : ∀ a ∈ l, Coherent a) :
    vectorCost pricing lane l.sum = (l.map (vectorCost pricing lane)).sum ↔
      PricesAdditively pricing lane l := by
  by_cases hlane : lane = .subscription
  · subst hlane
    refine iff_of_true ?_ (.inl rfl)
    have hmap : l.map (vectorCost pricing .subscription) = l.map fun a ↦ a UsageField.costUsd :=
      List.map_congr_left fun a ha ↦ vectorCost_subscription (hl a ha)
    rw [vectorCost_subscription (.sum hl), hmap, sum_apply]
  rw [vectorCost_eq (.sum hl) hlane, sum_vectorCost hl hlane, add_right_inj, PricesAdditively,
    or_iff_right hlane]
  by_cases hcost : l.sum .costUsd = 0
  · -- nobody reports a cost: the tokens of the sum are priced
    have hall := (cost_sum_eq_zero_iff hl).1 hcost
    have hmap : l.map (unreportedPrice pricing) = l.map (tokenPrice pricing) :=
      List.map_congr_left fun a ha ↦ by rw [unreportedPrice, if_pos (hall a ha)]
    rw [if_pos hcost]
    by_cases hprice : ∀ a ∈ l, ¬ Unpriceable pricing a
    · refine iff_of_true ?_ (.inr fun a ha ↦ ⟨hall a ha, hprice a ha⟩)
      rw [hmap, tokenPrice_sum_of_priceable hl hprice]
    · -- one report cannot be priced, so nothing is
      have hzero : tokenPrice pricing l.sum = 0 := by
        push Not at hprice
        rw [tokenPrice, if_neg fun h ↦ h.2 ((unpriceable_sum hl).2 hprice)]
      rw [hzero, eq_comm, sum_unreportedPrice_eq_zero_iff hl]
      exact (or_iff_left fun h ↦ hprice fun a ha ↦ (h a ha).2).symm
  · -- somebody reports a cost: the tokens of the sum are not priced at all
    rw [if_neg hcost, eq_comm, sum_unreportedPrice_eq_zero_iff hl]
    refine (or_iff_left fun h ↦ hcost ?_).symm
    exact (cost_sum_eq_zero_iff hl).2 fun a ha ↦ (h a ha).1

end Vectors

/-! ### The meter on vectors -/

section Meter

variable {usage : Usage} (pricing : Option MeasuredCostPricing) (lane : BillingLane)

theorem nonNegativeTokens_getD {value : Option ℚ} (h : 0 ≤ value.getD 0) :
    nonNegativeTokens value = value.getD 0 := by
  cases value with
  | none => rfl
  | some tokens => exact nonNegativeTokens_of_nonneg h

theorem Coherent.inputTokens_nonneg {a : UsageField → ℚ} (h : Coherent a) :
    0 ≤ a .inputTokens := by
  have := h.input
  have := h.writes
  have := h.cached
  have := h.ephemeral5m
  have := h.ephemeral1h
  linarith

/-- The meter reads a report that keeps the contract as it is: nothing is clamped. -/
theorem measureInput_counts (h : Coherent usage.amount) :
    (usage.measureInput pricing lane).tokensIn = usage.amount .inputTokens ∧
      (usage.measureInput pricing lane).tokensOut = usage.amount .outputTokens ∧
      (usage.measureInput pricing lane).cachedIn = usage.amount .cachedInputTokens ∧
      (usage.measureInput pricing lane).write5m = usage.amount .ephemeral5m ∧
      (usage.measureInput pricing lane).write1h = usage.amount .ephemeral1h := by
  have hinput : (usage.measureInput pricing lane).tokensIn = usage.amount .inputTokens :=
    nonNegativeTokens_of_nonneg h.inputTokens_nonneg
  refine ⟨hinput, nonNegativeTokens_of_nonneg h.output, ?_, nonNegativeTokens_getD h.ephemeral5m,
    nonNegativeTokens_getD h.ephemeral1h⟩
  have hcached : nonNegativeTokens usage.cachedInputTokens = usage.amount .cachedInputTokens :=
    nonNegativeTokens_getD h.cached
  rw [MeasureInput.cachedIn, hinput]
  refine (congrArg (fun x ↦ min x _) hcached).trans (min_eq_left ?_)
  have := h.input
  have := h.writes
  have := h.ephemeral5m
  have := h.ephemeral1h
  linarith

theorem measureInput_reportedWrites (h : Coherent usage.amount) :
    (usage.measureInput pricing lane).reportedWrites = usage.amount .cacheWrites := by
  obtain ⟨-, -, -, h5m, h1h⟩ := measureInput_counts pricing lane h
  have hwrites : 0 ≤ usage.cacheWrites :=
    (add_nonneg h.ephemeral5m h.ephemeral1h).trans h.writes
  have hreported : (usage.measureInput pricing lane).cacheCreationInputTokens =
      usage.cacheCreationInputTokens := rfl
  show _ = usage.cacheWrites
  unfold MeasureInput.reportedWrites
  unfold Usage.cacheWrites at hwrites ⊢
  rw [h5m, h1h, hreported]
  generalize usage.cacheCreationInputTokens = reported at hwrites ⊢
  cases reported with
  | none => rfl
  | some tokens => exact nonNegativeTokens_of_nonneg hwrites

theorem measureInput_unpriceable (h : Coherent usage.amount) :
    (usage.measureInput pricing lane).unpriceable = true ↔ Unpriceable pricing usage.amount := by
  obtain ⟨hin, -, hcached, h5m, h1h⟩ := measureInput_counts pricing lane h
  have hroom : ¬ usage.amount .inputTokens - usage.amount .cachedInputTokens <
      usage.amount .ephemeral5m + usage.amount .ephemeral1h := by
    have := h.input
    have := h.writes
    linarith
  rw [MeasureInput.unpriceable, measureInput_reportedWrites pricing lane h, hin, hcached, h5m, h1h]
  simp [Unpriceable, hroom, Usage.measureInput, or_assoc]

theorem measureInput_tokenCost (h : Coherent usage.amount) :
    (usage.measureInput pricing lane).tokenCost = tokenPrice pricing usage.amount := by
  obtain ⟨hin, hout, hcached, h5m, h1h⟩ :=
    measureInput_counts pricing lane h
  have hprice : (usage.measureInput pricing lane).inputCost +
      (usage.measureInput pricing lane).outputCost = priceOf pricing usage.amount := by
    rw [MeasureInput.inputCost, MeasureInput.outputCost, hin, hout, hcached, h5m, h1h]
    simp only [priceOf, TokenClass.all, List.map_cons, List.map_nil, List.sum_cons, List.sum_nil,
      TokenClass.tokens, TokenClass.rate, Usage.measureInput]
    ring
  rw [MeasureInput.tokenCost, hprice, tokenPrice]
  refine if_congr (and_congr Iff.rfl ?_) rfl rfl
  rw [← measureInput_unpriceable pricing lane h, Bool.not_eq_true]

/-- **The meter on vectors**: on a report that keeps the contract the cost is `vectorCost`. -/
theorem exactCostUsd_measureInput (h : Coherent usage.amount) :
    exactCostUsd (usage.measureInput pricing lane) = vectorCost pricing lane usage.amount := by
  obtain ⟨hin, hout, -, -, -⟩ := measureInput_counts pricing lane h
  rw [exactCostUsd_eq, hin, hout, measureInput_tokenCost pricing lane h]
  by_cases hcost : 0 < usage.costUsd
  · have hreported : (usage.measureInput pricing lane).providerReported = some usage.costUsd :=
      Option.filter_some_pos (by simpa using hcost)
    rw [hreported, vectorCost]
    exact (if_pos hcost).symm
  · have hreported : (usage.measureInput pricing lane).providerReported = none :=
      Option.filter_some_neg (by simpa using hcost)
    rw [hreported, vectorCost]
    refine Eq.trans ?_ (if_neg hcost).symm
    by_cases hlane : lane = .subscription
    · rw [if_pos hlane]
      exact if_pos (.inl hlane)
    rw [if_neg hlane]
    by_cases hnone : usage.amount .inputTokens = 0 ∧ usage.amount .outputTokens = 0
    · -- no tokens at all: there is nothing to price either
      refine (if_pos (.inr hnone)).trans ((tokenPrice_eq_zero_iff h).2 ?_).symm
      have := h.input
      have := h.writes
      have := h.cached
      have := h.ephemeral5m
      have := h.ephemeral1h
      refine .inr (.inr fun c _ ↦ .inl ?_)
      cases c <;> simp only [TokenClass.tokens] <;> linarith [hnone.1, hnone.2]
    · exact if_neg fun h ↦ h.elim hlane hnone

end Meter

/-! ### The attempts of a request -/

section Attempts

variable {dispatch : Dispatch} {attemptsForRequest : ℕ} {made : AttemptsMade}
  {pricing : Option MeasuredCostPricing} {lane : BillingLane}

/-- What a request is metered at is what its attempts are metered at, one by one. -/
def Additive (pricing : Option MeasuredCostPricing) (lane : BillingLane) (made : AttemptsMade) :
    Prop :=
  exactCostUsd (made.usage.measureInput pricing lane) =
    (made.all.map fun response ↦ exactCostUsd (response.usage.measureInput pricing lane)).sum

instance (pricing : Option MeasuredCostPricing) (lane : BillingLane) (made : AttemptsMade) :
    Decidable (Additive pricing lane made) :=
  inferInstanceAs (Decidable (_ = _))

theorem recovered_amount (h : runAttempts dispatch attemptsForRequest = .ok made)
    {field : UsageField} (hfield : field ≠ .totalTokens) :
    made.recovered.amount field =
      (made.retried.map fun response ↦ response.usage.amount).sum field := by
  have hzero : ({} : Recovered).amount field = 0 := by
    cases field <;> simp [Recovered.amount]
  rw [runAttempts_recovered h, foldl_add_amount _ _ hfield, hzero, zero_add, List.map_map]
  rfl

/-- **No report is dropped and none is counted twice**: the meter is given the sum of the reports
of all attempts. -/
theorem usage_amount (h : runAttempts dispatch attemptsForRequest = .ok made)
    (hcoherent : ∀ response ∈ made.all, Coherent response.usage.amount) {field : UsageField}
    (hfield : field ≠ .totalTokens) : made.usage.amount field = made.reports.sum field := by
  have hretried : Coherent made.recovered.amount := by
    refine (Coherent.sum (l := made.retried.map fun response ↦ response.usage.amount) ?_).congr
      fun field hfield ↦ recovered_amount h hfield
    intro a ha
    obtain ⟨response, hresponse, rfl⟩ := List.mem_map.1 ha
    exact hcoherent response (List.mem_append_left _ hresponse)
  have hnonneg : ∀ other, 0 ≤ made.recovered.amount other := by
    obtain ⟨houtput, hcost, hcached, h5m, h1h, hwrites, hinput⟩ := id hretried
    have hin := hretried.inputTokens_nonneg
    intro other
    cases other with
    | totalTokens => exact add_nonneg hin houtput
    | cacheWrites => exact (add_nonneg h5m h1h).trans hwrites
    | inputTokens | outputTokens | costUsd | cachedInputTokens | ephemeral5m | ephemeral1h =>
      assumption
  have hmerge := mergeUsage_amount made.lastResponse.usage hfield hnonneg
    hretried.writes ((le_add_of_nonneg_left hretried.cached).trans hretried.input)
  rw [AttemptsMade.usage, hmerge, recovered_amount h hfield, AttemptsMade.reports,
    AttemptsMade.all, List.map_append, List.sum_append, Pi.add_apply, add_comm]
  simp

theorem coherent_reports (hcoherent : ∀ response ∈ made.all, Coherent response.usage.amount) :
    ∀ a ∈ made.reports, Coherent a := by
  intro a ha
  obtain ⟨response, hresponse, rfl⟩ := List.mem_map.1 ha
  exact hcoherent response hresponse

/-- A retried attempt that reports neither tokens nor a cost. -/
def ReportsNothing (usage : Usage) : Prop :=
  usage.inputTokens ≤ 0 ∧ usage.outputTokens ≤ 0 ∧ usage.cachedInputTokens.getD 0 ≤ 0 ∧
    usage.costUsd ≤ 0

/-- Where nothing is recovered, the request is metered as its last attempt. -/
theorem additive_iff_of_not_anything (h : made.recovered.anything = false) :
    Additive pricing lane made ↔
      ∀ response ∈ made.retried, exactCostUsd (response.usage.measureInput pricing lane) = 0 := by
  have husage : made.usage = made.lastResponse.usage := by
    rw [AttemptsMade.usage, mergeUsage, h]
    rfl
  rw [Additive, husage, AttemptsMade.all, List.map_append, List.map_singleton, List.sum_append,
    List.sum_singleton, eq_comm, add_eq_right]
  exact sum_map_eq_zero_iff fun response _ ↦ exactCostUsd_nonneg _

/-- Nothing is recovered from attempts that report nothing. -/
theorem not_anything_of_reportsNothing (h : runAttempts dispatch attemptsForRequest = .ok made)
    (hnothing : ∀ response ∈ made.retried, ReportsNothing response.usage) :
    made.recovered.anything = false := by
  have hfield : ∀ field, field ≠ UsageField.totalTokens →
      (∀ response ∈ made.retried, response.usage.amount field ≤ 0) →
        made.recovered.amount field ≤ 0 := by
    intro field hfield hle
    rw [recovered_amount h hfield, sum_apply, List.map_map]
    exact (List.sum_le_sum hle).trans_eq (by simp)
  have hin := hfield .inputTokens nofun fun response hr ↦ (hnothing response hr).1
  have hout := hfield .outputTokens nofun fun response hr ↦ (hnothing response hr).2.1
  have hcached := hfield .cachedInputTokens nofun fun response hr ↦ (hnothing response hr).2.2.1
  have hcost := hfield .costUsd nofun fun response hr ↦ (hnothing response hr).2.2.2
  simp only [Recovered.amount] at hin hout hcached hcost
  simp [Recovered.anything, hin, hout, hcached, hcost]

theorem exactCostUsd_of_reportsNothing {usage : Usage} (h : ReportsNothing usage) :
    exactCostUsd (usage.measureInput pricing lane) = 0 := by
  have hreported : (usage.measureInput pricing lane).providerReported = none :=
    Option.filter_some_neg (by simpa [Usage.measureInput] using h.2.2.2)
  have hin : (usage.measureInput pricing lane).tokensIn = 0 := if_neg (not_lt.2 h.1)
  have hout : (usage.measureInput pricing lane).tokensOut = 0 := if_neg (not_lt.2 h.2.1)
  rw [exactCostUsd_eq, hreported]
  exact if_pos (.inr ⟨hin, hout⟩)

theorem additive_of_reportsNothing (h : runAttempts dispatch attemptsForRequest = .ok made)
    (hnothing : ∀ response ∈ made.retried, ReportsNothing response.usage) :
    Additive pricing lane made :=
  (additive_iff_of_not_anything (not_anything_of_reportsNothing h hnothing)).2
    fun response hr ↦ exactCostUsd_of_reportsNothing (hnothing response hr)

/-- **Metering is additive exactly when the tariffs are.** Where nothing is recovered from the
retried attempts, which is so when they report nothing, the request is metered as its last attempt,
and that is the sum when each of the others is metered at nothing. Of reports that keep the contract
the meter is given the sum, and what it makes of that is the sum of what it makes of them one by one
on a subscription lane, or when the attempts without a reported cost cost nothing, or when no
attempt reports a cost and all of them can be priced. -/
theorem additive_iff (h : runAttempts dispatch attemptsForRequest = .ok made) :
    ((∀ response ∈ made.retried, ReportsNothing response.usage) → Additive pricing lane made) ∧
      (made.recovered.anything = false → (Additive pricing lane made ↔
        ∀ response ∈ made.retried, exactCostUsd (response.usage.measureInput pricing lane) = 0)) ∧
      ((∀ response ∈ made.all, Coherent response.usage.amount) →
        (Additive pricing lane made ↔ PricesAdditively pricing lane made.reports)) := by
  refine ⟨additive_of_reportsNothing h, additive_iff_of_not_anything, fun hcoherent ↦ ?_⟩
  have hreports := coherent_reports hcoherent
  have hmerged : exactCostUsd (made.usage.measureInput pricing lane) =
      vectorCost pricing lane made.reports.sum := by
    have hsame := fun field (hfield : field ≠ UsageField.totalTokens) ↦
      usage_amount h hcoherent hfield
    rw [exactCostUsd_measureInput pricing lane ((Coherent.sum hreports).congr hsame)]
    exact vectorCost_congr hsame
  have heach : (made.all.map fun response ↦ exactCostUsd (response.usage.measureInput pricing lane))
      = made.reports.map (vectorCost pricing lane) := by
    rw [AttemptsMade.reports, List.map_map]
    exact List.map_congr_left fun response hresponse ↦
      exactCostUsd_measureInput pricing lane (hcoherent response hresponse)
  rw [Additive, hmerged, heach]
  exact vectorCost_sum_iff hreports

end Attempts

/-- A catalogue row that prices input and output. -/
def pricedRow : Option MeasuredCostPricing :=
  some { inputPerMTok := some 3, outputPerMTok := some 15 }

/-- The first answer cannot be parsed and reports its tokens only, the second one succeeds and
reports what it cost. -/
def secondSucceeds (costUsd : ℚ) : Dispatch := fun answers ↦
  if answers = [] then
    .ok { model := "m", result := "", usage := ⟨1000, 500, 1500, 0, none, none, none, false⟩
          status := .error, error := some ⟨"json_parse_error", "not JSON", true, "retry"⟩ }
  else
    .ok { model := "m", result := "\x7b\x7d"
          usage := ⟨2000, 100, 2100, costUsd, some 400, none, none, false⟩, status := .success }

/-- Two attempts that report tokens only. -/
theorem additive_iff_tokens : ∃ made, runAttempts (secondSucceeds 0) 2 = .ok made ∧
    made.retried ≠ [] ∧ PricesAdditively pricedRow .api made.reports ∧
      Additive pricedRow .api made := by
  obtain ⟨made, hmade, hcheck⟩ : ∃ made, runAttempts (secondSucceeds 0) 2 = .ok made ∧
      made.retried ≠ [] ∧ (∀ response ∈ made.all, Coherent response.usage.amount) ∧
        ∀ a ∈ made.reports, a .costUsd = 0 ∧ ¬ Unpriceable pricedRow a :=
    ⟨_, rfl, by decide +kernel⟩
  obtain ⟨hretried, hcoherent, hprice⟩ := hcheck
  have hadditive : PricesAdditively pricedRow .api made.reports := .inr (.inr hprice)
  exact ⟨made, hmade, hretried, hadditive, ((additive_iff hmade).2.2 hcoherent).2 hadditive⟩

/-- Metering is not additive: as soon as the second attempt reports a cost, the tokens of the first
are free, though alone they are priced. -/
theorem not_additive : ∃ made, runAttempts (secondSucceeds (1 / 4)) 2 = .ok made ∧
    (∀ response ∈ made.all, Coherent response.usage.amount) ∧
      (meterCost pricedRow .api made.usage).costUsd = 1 / 4 ∧
      (made.all.map fun response ↦ (meterCost pricedRow .api response.usage).costUsd).sum =
        1 / 4 + 21 / 2000 ∧
      ¬ Additive pricedRow .api made :=
  ⟨_, rfl, by decide +kernel⟩

end ModelConnector
