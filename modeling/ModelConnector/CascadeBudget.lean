import ModelConnector.Connectors.Cascade
import ModelConnector.Foundations.History

/-!
# The daily budget of the cascade

`dailyPaidCostUsd` is meant to be what paid hops have cost today. It is only a part of it: a hop
that failed and reports a cost is not counted, and a response that arrives after midnight is added
to the sum of the day before as long as no request has started since, which the next one resets. And
it is a sum of doubles, which may be rounded to less than the costs add up to. `paid_budget` says
that the budget is kept in every run without these three, and `paid_budget_exceeded` shows runs with
one of them in which it is not. -/

namespace ModelConnector.CascadeBudget

open Connectors

/-- The responses of paid hops so far: the day each was received on, and the cost it reported. -/
abbrev Receipts := List (ℕ × ℚ)

/-- What paid hops have reported on a day. -/
def spentOn (day : ℕ) (receipts : Receipts) : ℚ :=
  ((receipts.filter fun r ↦ r.1 == day).map Prod.snd).sum

/-- The response of a paid hop that an event receives. -/
def paidResponse (s : CascadeRouter) : CascadeEvent → Option BilledResponse
  | .receive id (.returned response) =>
    (s.waitingFor id).bind fun candidate ↦
      if candidate.tier = .paid then some response else none
  | _ => none

/-- The receipts after an event. -/
def record (receipts : Receipts) (s : CascadeRouter) (e : CascadeEvent) (_ : CascadeRouter) :
    Receipts :=
  match paidResponse s e with
  | some response => (utcDay s.now, response.response.usage.costUsd) :: receipts
  | none => receipts

/-- The candidate an event dispatches. -/
def dispatched (config : CascadeConfig) (s : CascadeRouter) : CascadeEvent → Option CascadeCandidate
  | .hop id => (s.step config (.hop id)).bind fun s' ↦ s'.waitingFor id
  | _ => none

/-- When a paid hop is dispatched, what paid hops have reported on the same day is below the
limit. -/
def WithinBudget (config : CascadeConfig) (receipts : Receipts) (s : CascadeRouter)
    (e : CascadeEvent) : Prop :=
  ∀ candidate, dispatched config s e = some candidate → candidate.tier = .paid →
    spentOn (utcDay s.now) receipts < config.limitUsd

/-- A paid response that reports a cost is a success, a request has started since midnight, and the
cost of the day is not rounded down when it is added. -/
def Accounted (_ : Receipts) (s : CascadeRouter) (e : CascadeEvent) : Prop :=
  ∀ response, paidResponse s e = some response → response.response.usage.costUsd ≠ 0 →
    response.response.status = .success ∧ utcDay s.now = s.budgetResetDate ∧
      s.dailyPaidCostUsd + response.response.usage.costUsd ≤
        double (s.dailyPaidCostUsd + double response.response.usage.costUsd)

instance (config : CascadeConfig) (receipts : Receipts) (s : CascadeRouter) (e : CascadeEvent) :
    Decidable (WithinBudget config receipts s e) :=
  decidable_of_iff ((dispatched config s e).all (fun candidate ↦ decide (candidate.tier = .paid →
      spentOn (utcDay s.now) receipts < config.limitUsd)) = true) <| by
    simp only [Option.all_eq_true, decide_eq_true_eq, WithinBudget]

instance (receipts : Receipts) (s : CascadeRouter) (e : CascadeEvent) :
    Decidable (Accounted receipts s e) :=
  decidable_of_iff ((paidResponse s e).all (fun response ↦
      decide (response.response.usage.costUsd ≠ 0 →
        response.response.status = .success ∧ utcDay s.now = s.budgetResetDate ∧
          s.dailyPaidCostUsd + response.response.usage.costUsd ≤
            double (s.dailyPaidCostUsd + double response.response.usage.costUsd))) = true) <| by
    simp only [Option.all_eq_true, decide_eq_true_eq, Accounted]

/-- The budget is a double that counts at least what was received on its day, and nothing was
received since that costs. -/
structure Counts (receipts : Receipts) (s : CascadeRouter) : Prop where
  past : s.budgetResetDate ≤ utcDay s.now
  nonneg : 0 ≤ s.dailyPaidCostUsd
  rounded : double s.dailyPaidCostUsd = s.dailyPaidCostUsd
  spent : spentOn s.budgetResetDate receipts ≤ s.dailyPaidCostUsd
  later : ∀ r ∈ receipts, s.budgetResetDate < r.1 → r.2 = 0

section Counts

variable {config : CascadeConfig} {receipts : Receipts} {s s' : CascadeRouter} {e : CascadeEvent}

theorem spentOn_cons (day : ℕ) (r : ℕ × ℚ) (receipts : Receipts) :
    spentOn day (r :: receipts) = (if r.1 = day then r.2 else 0) + spentOn day receipts := by
  unfold spentOn
  by_cases hday : r.1 = day
  · simp [hday]
  · simp [hday]

/-- Nothing was spent on a day after the one the budget is for. -/
theorem Counts.spentOn_later (h : Counts receipts s) {day : ℕ} (hday : s.budgetResetDate < day) :
    spentOn day receipts = 0 := by
  refine List.sum_eq_zero fun cost hcost ↦ ?_
  obtain ⟨r, hr, rfl⟩ := List.mem_map.1 hcost
  obtain ⟨hmem, hr⟩ := List.mem_filter.1 hr
  exact h.later r hmem (by rwa [beq_iff_eq.1 hr])

/-- Starting a request keeps the count: on a new day it begins at nothing. -/
theorem Counts.reset (h : Counts receipts s) : Counts receipts s.resetDailyBudgetIfNeeded := by
  unfold CascadeRouter.resetDailyBudgetIfNeeded
  split
  · exact h
  · rename_i hday
    have hlater : s.budgetResetDate < utcDay s.now := lt_of_le_of_ne h.past (Ne.symm hday)
    exact
      { past := le_rfl
        nonneg := le_rfl
        rounded := double_zero
        spent := (h.spentOn_later hlater).le
        later := fun r hr hrday ↦ h.later r hr (hlater.trans hrday) }

theorem Counts.congr (h : Counts receipts s) (hnow : utcDay s.now ≤ utcDay s'.now)
    (hspent : s'.dailyPaidCostUsd = s.dailyPaidCostUsd)
    (hdate : s'.budgetResetDate = s.budgetResetDate) : Counts receipts s' where
  past := by rw [hdate]; exact h.past.trans hnow
  nonneg := by rw [hspent]; exact h.nonneg
  rounded := by rw [hspent]; exact h.rounded
  spent := by rw [hdate, hspent]; exact h.spent
  later := by rw [hdate]; exact h.later

/-- A response keeps the count when it is accounted for. -/
theorem Counts.receive (h : Counts receipts s) {id : ℕ} {result : CascadeResult}
    {candidate : CascadeCandidate} (hc : Accounted receipts s (.receive id result))
    (hwaiting : s.waitingFor id = some candidate) (hnow : s'.now = s.now)
    (hspent : s'.dailyPaidCostUsd = s.charged candidate result)
    (hdate : s'.budgetResetDate = s.budgetResetDate) :
    Counts (record receipts s (.receive id result) s') s' := by
  cases result with
  | threw => exact h.congr (by rw [hnow]) hspent hdate
  | returned response =>
    have hpaid : paidResponse s (.receive id (.returned response)) =
        if candidate.tier = .paid then some response else none := by
      simp only [paidResponse, hwaiting, Option.bind_some]
    unfold record
    rw [hpaid]
    by_cases htier : candidate.tier = .paid
    · rw [if_pos htier] at hpaid ⊢
      by_cases hcost : response.response.usage.costUsd = 0
      · -- nothing is reported, so nothing has to be counted
        have hcharged : s.charged candidate (.returned response) = s.dailyPaidCostUsd := by
          show (if _ then double (_ + double response.response.usage.costUsd) else _) = _
          rw [hcost, double_zero, add_zero, h.rounded, ite_self]
        have hold : Counts receipts s' := h.congr (by rw [hnow]) (hspent.trans hcharged) hdate
        refine ⟨hold.past, hold.nonneg, hold.rounded, ?_, ?_⟩
        · rw [spentOn_cons, hcost, ite_self, zero_add]
          exact hold.spent
        · intro r hr hday
          rcases List.mem_cons.1 hr with rfl | hr
          · exact hcost
          · exact hold.later r hr hday
      · obtain ⟨hstatus, hday, hup⟩ := hc response hpaid hcost
        have hcharged : s.charged candidate (.returned response) =
            double (s.dailyPaidCostUsd + double response.response.usage.costUsd) :=
          if_pos ⟨hstatus, htier⟩
        rw [hcharged] at hspent
        refine ⟨by rw [hnow, hdate]; exact h.past, ?_, ?_, ?_, ?_⟩
        · rw [hspent]
          exact double_nonneg (add_nonneg h.nonneg (double_nonneg response.cost_nonneg))
        · rw [hspent, double_double]
        · rw [spentOn_cons, hdate, if_pos hday, hspent, add_comm]
          exact (add_le_add_left h.spent _).trans hup
        · intro r hr hlater
          rw [hdate] at hlater
          rcases List.mem_cons.1 hr with rfl | hr
          · exact absurd hday hlater.ne'
          · exact h.later r hr hlater
    · rw [if_neg htier]
      exact h.congr (by rw [hnow]) (hspent.trans (if_neg fun hboth ↦ htier hboth.2)) hdate

/-- The step lemma. -/
theorem Counts.step (h : Counts receipts s) (hc : Accounted receipts s e)
    (hs : s.step config e = some s') : Counts (record receipts s e s') s' := by
  obtain ⟨ms, rfl, hnow, hspent, hdate⟩ | ⟨id, timeout, rfl, hnow, hspent, hdate⟩ |
    ⟨id, he, hnow, hspent, hdate⟩ | ⟨id, result, candidate, rfl, hwaiting, hnow, hspent, hdate⟩ :=
    CascadeRouter.step_budget hs
  · refine h.congr (utcDay_mono ?_) hspent hdate
    omega
  · have hreset : s.resetDailyBudgetIfNeeded.now = s.now := by
      unfold CascadeRouter.resetDailyBudgetIfNeeded
      split <;> rfl
    exact h.reset.congr (by rw [hnow, hreset]) hspent hdate
  · have hrecord : record receipts s e s' = receipts := by
      rcases he with rfl | ⟨routing, rfl⟩ <;> rfl
    rw [hrecord]
    exact h.congr (by rw [hnow]) hspent hdate
  · exact h.receive hc hwaiting hnow hspent hdate

/-- What is dispatched while the budget counts right is within it. -/
theorem Counts.withinBudget (h : Counts receipts s) : WithinBudget config receipts s e := by
  intro candidate hdispatched hpaid
  cases e with
  | hop id =>
    obtain ⟨s', hs, hwaiting⟩ := Option.bind_eq_some_iff.1 hdispatched
    obtain ⟨request, hrequest, hphase⟩ := Option.bind_eq_some_iff.1 hs
    split at hphase
    · cases hphase
      simp only [CascadeRouter.waitingFor, CascadeRouter.set, Function.update_self,
        Option.bind_some] at hwaiting
      split at hwaiting
      · rename_i hnext
        cases hwaiting
        have hbelow := CascadeRouter.hop_waiting hnext hpaid
        have hspent : spentOn (utcDay s.now) receipts ≤ s.dailyPaidCostUsd := by
          rcases h.past.lt_or_eq with hlater | hsame
          · rw [h.spentOn_later hlater]
            exact h.nonneg
          · rw [← hsame]
            exact h.spent
        -- a sum at the limit would be a double at the double of the limit
        by_contra hlimit
        have hrounded := double_mono ((not_lt.1 hlimit).trans hspent)
        rw [h.rounded] at hrounded
        exact absurd hbelow (not_lt.2 hrounded)
      · cases hwaiting
    · cases hphase
  | tick ms => cases hdispatched
  | start id timeout => cases hdispatched
  | route id routing => cases hdispatched
  | receive id result => cases hdispatched

end Counts

/-- **When the daily budget is kept.** In every run of the router all of whose paid responses with
a cost are successes, received on a day on which a request has started before, and added without
rounding down, every paid hop is dispatched within the budget. -/
theorem paid_budget (config : CascadeConfig) (start : ℕ) {h : List (CascadeRouter × CascadeEvent)}
    {s : CascadeRouter} (hr : Run (CascadeRouter.step config) (CascadeRouter.fresh start) h s)
    (hc : History.Meets (CascadeRouter.step config) record Accounted [] h) :
    History.Meets (CascadeRouter.step config) record (WithinBudget config) [] h := by
  have hfresh : Counts [] (CascadeRouter.fresh start) :=
    { past := le_rfl
      nonneg := le_rfl
      rounded := double_zero
      spent := le_rfl
      later := fun r hr ↦ by cases hr }
  exact History.meets_of_invariant hfresh (fun h hc hs ↦ h.step hc hs)
    (fun h _ ↦ h.withinBudget) hr hc

/-! ### Runs -/

/-- The default budget, and one paid candidate. -/
def sampleConfig : CascadeConfig where
  limitUsd := 17 / 100
  deadlineMs := 180000
  connectorBudgetMs _ := 120000
  maxTimeout _ := none
  isApi _ := true

/-- The paid candidate. -/
def paidCandidate : CascadeCandidate :=
  ⟨"openrouter", "deepseek-v4-flash", .paid⟩

/-- A response that costs so many cents. -/
def costs (status : ResponseStatus) (cents : ℕ) : BilledResponse where
  response :=
    { model := "deepseek-v4-flash"
      result := ""
      usage := { Usage.zero with costUsd := cents / 100 }
      status
      error := if status = .success then none else some ⟨"api_error", "failed", true, "retry"⟩ }
  cost_nonneg := div_nonneg (Nat.cast_nonneg cents) (by norm_num)

/-- A request up to the dispatch of its paid hop. -/
def dispatch (id : ℕ) : List CascadeEvent :=
  [.start id none, .route id (.routed paidCandidate []), .hop id]

/-- A run that keeps the condition, and two paid hops of it. -/
theorem paid_budget_two_hops :
    ∃ h s, Run (CascadeRouter.step sampleConfig) (CascadeRouter.fresh 0) h s ∧
      h.map (fun p ↦ (dispatched sampleConfig p.1 p.2).isSome) =
        [false, false, true, false, false, false, true] ∧
      History.Meets (CascadeRouter.step sampleConfig) record (WithinBudget sampleConfig) [] h := by
  obtain ⟨h, s, hr, hcheck⟩ := Run.exists_of_check (CascadeRouter.step sampleConfig)
    (CascadeRouter.fresh 0)
    (dispatch 0 ++ [.receive 0 (.returned (costs .success 10))] ++ dispatch 1)
    (fun h _ ↦ decide (History.Meets (CascadeRouter.step sampleConfig) record Accounted [] h) &&
      decide (h.map (fun p ↦ (dispatched sampleConfig p.1 p.2).isSome) =
        [false, false, true, false, false, false, true])) (by decide +kernel)
  obtain ⟨hmeets, hhops⟩ := Bool.and_eq_true_iff.1 hcheck
  exact ⟨h, s, hr, of_decide_eq_true hhops,
    paid_budget sampleConfig 0 hr (of_decide_eq_true hmeets)⟩

/-- The costs that paid hops have reported in a history. -/
def reported (h : List (CascadeRouter × CascadeEvent)) : List ℚ :=
  h.filterMap fun p ↦ (paidResponse p.1 p.2).map fun response ↦ response.response.usage.costUsd

/-- A run that goes beyond the budget, when an execution does. -/
theorem exists_exceeding (start : ℕ) (events : List CascadeEvent) (costs : List ℚ)
    (hcheck : (Run.exec (CascadeRouter.step sampleConfig) (CascadeRouter.fresh start) events).any
      (fun p ↦ decide (reported p.1 = costs ∧ ¬ History.Meets (CascadeRouter.step sampleConfig)
        record (WithinBudget sampleConfig) [] p.1)) = true) :
    ∃ h s, Run (CascadeRouter.step sampleConfig) (CascadeRouter.fresh start) h s ∧
      reported h = costs ∧
      ¬ History.Meets (CascadeRouter.step sampleConfig) record (WithinBudget sampleConfig) [] h := by
  obtain ⟨h, s, hr, hfails⟩ := Run.exists_of_check (CascadeRouter.step sampleConfig)
    (CascadeRouter.fresh start) events
    (fun h _ ↦ decide (reported h = costs ∧ ¬ History.Meets (CascadeRouter.step sampleConfig)
      record (WithinBudget sampleConfig) [] h)) hcheck
  exact ⟨h, s, hr, of_decide_eq_true hfails⟩

/-- Paid hops beyond the budget: after a failed hop that cost a dollar; after a success that
arrived, for a dollar, on the day after its request had started; and after successes for 0.08 and
0.09 USD, which add up to less than 0.17 as doubles. -/
theorem paid_budget_exceeded :
    (∃ h s, Run (CascadeRouter.step sampleConfig) (CascadeRouter.fresh 0) h s ∧
      reported h = [1] ∧
      ¬ History.Meets (CascadeRouter.step sampleConfig) record (WithinBudget sampleConfig) [] h) ∧
    (∃ h s, Run (CascadeRouter.step sampleConfig) (CascadeRouter.fresh 86399000) h s ∧
      reported h = [1] ∧
      ¬ History.Meets (CascadeRouter.step sampleConfig) record (WithinBudget sampleConfig) [] h) ∧
    ∃ h s, Run (CascadeRouter.step sampleConfig) (CascadeRouter.fresh 0) h s ∧
      reported h = [8 / 100, 9 / 100] ∧
      ¬ History.Meets (CascadeRouter.step sampleConfig) record (WithinBudget sampleConfig) [] h :=
  ⟨exists_exceeding 0
      (dispatch 0 ++ [.receive 0 (.returned (costs .error 100))] ++ dispatch 1) [1]
      (by decide +kernel),
    exists_exceeding 86399000
      (dispatch 0 ++ [.tick 2000, .receive 0 (.returned (costs .success 100))] ++ dispatch 1) [1]
      (by decide +kernel),
    exists_exceeding 0
      (dispatch 0 ++ [.receive 0 (.returned (costs .success 8))] ++ dispatch 1 ++
        [.receive 1 (.returned (costs .success 9))] ++ dispatch 2) [8 / 100, 9 / 100]
      (by decide +kernel)⟩

end ModelConnector.CascadeBudget
