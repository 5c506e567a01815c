import Mathlib.Data.List.DropRight
import ModelConnector.Resilience.CircuitBreaker

/-!
# The breaker sums up its history

The state of a breaker is written by four of its five operations, and `check` writes it although it
is a question. `breaker_summarizes` says what that state is in terms of the calls alone: it is not
closed just when the failures since the last success or reset were enough. `getState` writes
nothing and still says what `check` does.
-/

namespace ModelConnector.Resilience

/-- A call of a breaker. -/
inductive BreakerCall
  | check
  | recordSuccess
  | recordFailure (errorType : String)
  | getState
  | reset
  deriving DecidableEq

namespace BreakerCall

/-- The call clears the count. -/
def clears : BreakerCall → Bool
  | recordSuccess => true
  | reset => true
  | _ => false

/-- The call records a failure. -/
def isFailure : BreakerCall → Bool
  | recordFailure _ => true
  | _ => false

/-- The call records a failure that opens the breaker at once. -/
def opensInstantly : BreakerCall → Bool
  | recordFailure errorType => decide (errorType ∈ INSTANT_OPEN_ERRORS)
  | _ => false

/-- The call reads the state. -/
def isRead : BreakerCall → Bool
  | getState => true
  | _ => false

end BreakerCall

namespace CircuitBreaker

/-- The breaker after a call at a time. -/
def perform (b : CircuitBreaker) : ℤ × BreakerCall → CircuitBreaker
  | (now, .check) =>
    match b.check now with
    | .ok b' => b'
    | .error _ => b
  | (_, .recordSuccess) => b.recordSuccess
  | (now, .recordFailure errorType) => b.recordFailure now errorType
  | (_, .getState) => b
  | (_, .reset) => b.reset

/-- The breaker after a history. -/
def after (b : CircuitBreaker) (calls : List (ℤ × BreakerCall)) : CircuitBreaker :=
  calls.foldl perform b

/-- What the checks of a history answer: nothing, or the error they throw. -/
def checkResults (b : CircuitBreaker) : List (ℤ × BreakerCall) → List (Option CircuitOpenError)
  | [] => []
  | (now, .check) :: rest =>
    (match b.check now with
      | .ok _ => none
      | .error e => some e) :: checkResults (b.perform (now, .check)) rest
  | call :: rest => checkResults (b.perform call) rest

end CircuitBreaker

/-- The calls since the last success or reset. -/
def sinceCleared (calls : List (ℤ × BreakerCall)) : List (ℤ × BreakerCall) :=
  calls.rtakeWhile fun call ↦ !call.2.clears

/-- Since the last success or reset there were as many failures as the threshold, or one that opens
the breaker at once. -/
def Tripped (threshold : ℕ) (calls : List (ℤ × BreakerCall)) : Prop :=
  threshold ≤ (sinceCleared calls).countP (fun call ↦ call.2.isFailure) ∨
    ∃ call ∈ sinceCleared calls, call.2.opensInstantly = true

/-- A report and a check of one instant agree. -/
def Agree (report : CircuitReport) : Except CircuitOpenError CircuitBreaker → Prop
  | .error e => report.state = .opened ∧ report.nextRetryAt = some e.nextRetryAt
  | .ok b => report.state ≠ .opened ∧ report.state = b.state ∧ report.nextRetryAt = none

/-! ### The count -/

variable {b : CircuitBreaker} {calls : List (ℤ × BreakerCall)} {threshold : ℕ}

theorem sinceCleared_of_clears {call : ℤ × BreakerCall} (h : call.2.clears = true) :
    sinceCleared (calls ++ [call]) = [] :=
  List.rtakeWhile_concat_neg _ _ _ (by simp [h])

theorem sinceCleared_of_not_clears {call : ℤ × BreakerCall} (h : call.2.clears = false) :
    sinceCleared (calls ++ [call]) = sinceCleared calls ++ [call] :=
  List.rtakeWhile_concat_pos _ _ _ (by simp [h])

/-- After a success or a reset nothing is left to trip the breaker. -/
theorem not_tripped_of_clears {call : ℤ × BreakerCall} (hthreshold : 1 ≤ threshold)
    (h : call.2.clears = true) : ¬Tripped threshold (calls ++ [call]) := by
  unfold Tripped
  rw [sinceCleared_of_clears h]
  rintro (hcount | ⟨_, hmem, -⟩)
  · exact absurd (hthreshold.trans hcount) (by decide)
  · cases hmem

/-- A call that neither clears nor fails leaves it as it was. -/
theorem tripped_of_neither {call : ℤ × BreakerCall} (h : call.2.clears = false)
    (hfailure : call.2.isFailure = false) (hinstant : call.2.opensInstantly = false) :
    Tripped threshold (calls ++ [call]) ↔ Tripped threshold calls := by
  unfold Tripped
  rw [sinceCleared_of_not_clears h]
  simp [hfailure, hinstant]

/-- A failure counts. -/
theorem tripped_of_failure (now : ℤ) (errorType : String) :
    Tripped threshold (calls ++ [(now, .recordFailure errorType)]) ↔
      threshold ≤ (sinceCleared calls).countP (fun call ↦ call.2.isFailure) + 1 ∨
        errorType ∈ INSTANT_OPEN_ERRORS ∨
          ∃ call ∈ sinceCleared calls, call.2.opensInstantly = true := by
  unfold Tripped
  rw [sinceCleared_of_not_clears rfl]
  simp only [List.countP_append, List.countP_singleton, List.mem_append, List.mem_singleton,
    or_and_right, exists_or, exists_eq_left, BreakerCall.isFailure, BreakerCall.opensInstantly,
    decide_eq_true_eq, if_true]
  rw [or_comm (a := errorType ∈ INSTANT_OPEN_ERRORS)]

/-! ### The invariant -/

/-- A breaker sums up a history: while it is closed it has counted the failures since the last
success or reset, and it is closed until they are enough. -/
structure Summarizes (b : CircuitBreaker) (calls : List (ℤ × BreakerCall)) : Prop where
  tripped : b.state ≠ .closed ↔ Tripped b.threshold calls
  counted : b.state = .closed → b.consecutiveFailures =
    (sinceCleared calls).countP fun call ↦ call.2.isFailure
  reached : b.state ≠ .closed → b.threshold ≤ b.consecutiveFailures

theorem effectiveState_eq_closed_iff (b : CircuitBreaker) (now : ℤ) :
    b.effectiveState now = .closed ↔ b.state = .closed := by
  unfold CircuitBreaker.effectiveState
  split_ifs with hopen
  · rw [hopen.1]
    decide
  · rfl

/-- A check writes at most the state, and neither closes a breaker nor opens a closed one. -/
theorem perform_check (b : CircuitBreaker) (now : ℤ) : ∃ state : CircuitState,
    b.perform (now, .check) = { b with state } ∧ (state = .closed ↔ b.state = .closed) := by
  simp only [CircuitBreaker.perform, CircuitBreaker.check_eq]
  split_ifs
  · exact ⟨b.state, rfl, Iff.rfl⟩
  · exact ⟨_, rfl, effectiveState_eq_closed_iff b now⟩

/-- The invariant for a call that neither clears nor fails. -/
theorem Summarizes.neither {call : ℤ × BreakerCall} {state : CircuitState}
    (h : Summarizes b calls) (hclears : call.2.clears = false) (hfailure : call.2.isFailure = false)
    (hinstant : call.2.opensInstantly = false) (hstate : state = .closed ↔ b.state = .closed) :
    Summarizes { b with state } (calls ++ [call]) where
  tripped := by
    rw [tripped_of_neither hclears hfailure hinstant, ← h.tripped]
    exact not_congr hstate
  counted := fun hclosed ↦ by
    rw [sinceCleared_of_not_clears hclears]
    simpa [hfailure] using h.counted (hstate.1 hclosed)
  reached := fun hopen ↦ h.reached fun hclosed ↦ hopen (hstate.2 hclosed)

/-- The invariant for a call that clears. -/
theorem Summarizes.clears {call : ℤ × BreakerCall} (hthreshold : 1 ≤ b.threshold)
    (hclears : call.2.clears = true) (hclosed : b.state = .closed)
    (hcount : b.consecutiveFailures = 0) : Summarizes b (calls ++ [call]) where
  tripped := iff_of_false (not_not_intro hclosed) (not_tripped_of_clears hthreshold hclears)
  counted := fun _ ↦ by rw [sinceCleared_of_clears hclears, hcount, List.countP_nil]
  reached := fun hopen ↦ absurd hclosed hopen

/-- The invariant for a failure. -/
theorem Summarizes.failure (h : Summarizes b calls) (now : ℤ) (errorType : String) :
    Summarizes (b.recordFailure now errorType) (calls ++ [(now, .recordFailure errorType)]) := by
  have hsince : (sinceCleared (calls ++ [(now, .recordFailure errorType)])).countP
      (fun call ↦ call.2.isFailure) =
        (sinceCleared calls).countP (fun call ↦ call.2.isFailure) + 1 := by
    rw [sinceCleared_of_not_clears rfl, List.countP_append]
    rfl
  unfold CircuitBreaker.recordFailure
  by_cases hinstant : errorType ∈ INSTANT_OPEN_ERRORS
  · rw [if_pos hinstant]
    refine ⟨iff_of_true CircuitState.noConfusion ?_, CircuitState.noConfusion, fun _ ↦ le_rfl⟩
    rw [tripped_of_failure]
    exact .inr (.inl hinstant)
  · rw [if_neg hinstant]
    by_cases hclosed : b.state = .closed
    · -- the count is that of the history, so that the threshold decides
      have hcount := h.counted hclosed
      have hnone : ¬∃ call ∈ sinceCleared calls, call.2.opensInstantly = true := fun hsome ↦
        h.tripped.2 (.inr hsome) hclosed
      have hstate : (if b.state = .halfOpen ∨ b.threshold ≤ b.consecutiveFailures + 1 then
          CircuitState.opened else b.state) ≠ .closed ↔ b.threshold ≤ b.consecutiveFailures + 1 := by
        rw [hclosed]
        by_cases hreached : b.threshold ≤ b.consecutiveFailures + 1
        · exact iff_of_true (by rw [if_pos (.inr hreached)]; exact CircuitState.noConfusion) hreached
        · exact iff_of_false (by simp [hreached]) hreached
      refine ⟨?_, fun _ ↦ by rw [hsince, ← hcount], fun hopen ↦ hstate.1 hopen⟩
      rw [tripped_of_failure, ← hcount]
      exact hstate.trans
        ⟨Or.inl, fun hor ↦ hor.resolve_right fun hlate ↦ hlate.elim hinstant hnone⟩
    · -- it is open or half open already, and stays or becomes open
      have hreached := h.reached hclosed
      have hstate : (if b.state = .halfOpen ∨ b.threshold ≤ b.consecutiveFailures + 1 then
          CircuitState.opened else b.state) ≠ .closed := by
        split_ifs
        · exact CircuitState.noConfusion
        · exact hclosed
      refine ⟨iff_of_true hstate ?_, fun hc ↦ absurd hc hstate,
        fun _ ↦ hreached.trans (Nat.le_succ _)⟩
      rw [tripped_of_failure]
      rcases h.tripped.1 hclosed with hcount | hsome
      · exact .inl (hcount.trans (Nat.le_succ _))
      · exact .inr (.inr hsome)

theorem Summarizes.perform (hthreshold : 1 ≤ b.threshold) (h : Summarizes b calls)
    (call : ℤ × BreakerCall) : Summarizes (b.perform call) (calls ++ [call]) := by
  obtain ⟨now, call⟩ := call
  cases call with
  | check =>
    obtain ⟨state, hperform, hstate⟩ := perform_check b now
    rw [hperform]
    exact h.neither rfl rfl rfl hstate
  | recordSuccess => exact .clears hthreshold rfl rfl rfl
  | recordFailure errorType => exact h.failure now errorType
  | getState => exact h.neither rfl rfl rfl Iff.rfl
  | reset => exact .clears hthreshold rfl rfl rfl

theorem threshold_perform (b : CircuitBreaker) (call : ℤ × BreakerCall) :
    (b.perform call).threshold = b.threshold := by
  obtain ⟨now, call⟩ := call
  cases call with
  | check =>
    obtain ⟨state, hperform, -⟩ := perform_check b now
    rw [hperform]
  | recordFailure errorType =>
    simp only [CircuitBreaker.perform, CircuitBreaker.recordFailure]
    split_ifs <;> rfl
  | _ => rfl

theorem summarizes_after (hthreshold : 1 ≤ b.threshold) (h : Summarizes b [])
    (calls : List (ℤ × BreakerCall)) :
    Summarizes (b.after calls) calls ∧ (b.after calls).threshold = b.threshold := by
  induction calls using List.reverseRecOn with
  | nil => exact ⟨h, rfl⟩
  | append_singleton calls call ih =>
    obtain ⟨hcalls, heq⟩ := ih
    rw [CircuitBreaker.after, List.foldl_append]
    exact ⟨hcalls.perform (heq ▸ hthreshold) call, (threshold_perform _ call).trans heq⟩

/-! ### Reads -/

/-- The report at an instant says what a check does at it. -/
theorem agree_getState_check (b : CircuitBreaker) (now : ℤ) :
    Agree (b.getState now) (b.check now) := by
  rw [CircuitBreaker.check_eq]
  split_ifs with hopen
  · exact ⟨hopen, if_pos hopen⟩
  · exact ⟨hopen, rfl, if_neg hopen⟩

/-- The checks of a history answer the same without its reads. -/
theorem checkResults_filter (b : CircuitBreaker) (calls : List (ℤ × BreakerCall)) :
    b.checkResults (calls.filter fun call ↦ !call.2.isRead) = b.checkResults calls := by
  induction calls generalizing b with
  | nil => rfl
  | cons call rest ih =>
    obtain ⟨now, call⟩ := call
    cases call with
    | getState => exact ih b
    | check => exact congrArg (List.cons _) (ih _)
    | recordSuccess | recordFailure _ | reset => exact ih _

/-- **The breaker sums up its history.** Over every history of calls at any times: the breaker is
not closed if and only if the failures since the last success or reset were as many as the threshold
or one of them opens at once; a report says at every instant what a check would do at it; and
histories that differ in reads alone have the same results of checks. -/
theorem breaker_summarizes {threshold : ℕ} (hthreshold : 1 ≤ threshold) (cooldownMs : ℤ)
    (connectorName : String) (calls : List (ℤ × BreakerCall)) :
    let fresh : CircuitBreaker := { threshold, cooldownMs, connectorName }
    ((fresh.after calls).state ≠ .closed ↔ Tripped threshold calls) ∧
      (∀ now, Agree ((fresh.after calls).getState now) ((fresh.after calls).check now)) ∧
      ∀ calls' : List (ℤ × BreakerCall),
        (calls'.filter fun call ↦ !call.2.isRead) = (calls.filter fun call ↦ !call.2.isRead) →
          fresh.checkResults calls' = fresh.checkResults calls := by
  intro fresh
  have hfresh : Summarizes fresh [] := by
    refine ⟨iff_of_false (not_not_intro rfl) ?_, fun _ ↦ rfl, fun hopen ↦ absurd rfl hopen⟩
    rintro (hcount | ⟨_, hmem, -⟩)
    · exact absurd (hthreshold.trans hcount) (by decide)
    · cases hmem
  obtain ⟨hsummary, heq⟩ := summarizes_after hthreshold hfresh calls
  refine ⟨?_, agree_getState_check _, fun calls' hfilter ↦ ?_⟩
  · rw [hsummary.tripped, heq]
  · rw [← checkResults_filter, hfilter, checkResults_filter]

/-- Two failures open a breaker of threshold two, and it is half open once it has cooled down. -/
theorem breaker_summarizes_two :
    let calls : List (ℤ × BreakerCall) :=
      [(0, .check), (10, .recordFailure "timeout"), (20, .recordFailure "timeout"), (90, .check)]
    let fresh : CircuitBreaker := { threshold := 2, cooldownMs := 50, connectorName := "cursor" }
    Tripped 2 calls ∧ fresh.checkResults ((15, .getState) :: calls) = [none, none] := by
  intro calls fresh
  obtain ⟨htripped, -, hreads⟩ :=
    breaker_summarizes (show 1 ≤ 2 by decide) 50 "cursor" calls
  exact ⟨htripped.1 (by decide +kernel), (hreads _ rfl).trans (by decide +kernel)⟩

/-! ### A breaker for each model -/

/-- A call of a manager, or of a breaker it gave to a caller. -/
inductive ManagerCall
  /-- A caller gets the breaker of a model and uses it. A breaker stays in the map, so that this is
  also what a caller does who got it before. -/
  | use (model : String) (call : BreakerCall)
  | resetAll
  | resetModel (model : String)
  | getStates
  deriving DecidableEq

namespace CircuitBreakerManager

/-- The manager after a call at a time. -/
def perform (m : CircuitBreakerManager) : ℤ × ManagerCall → CircuitBreakerManager
  | (now, .use model call) =>
    (m.getCircuitBreaker model).2.put (breakerKey model)
      ((m.getCircuitBreaker model).1.perform (now, call))
  | (now, .resetAll) => (m.resetAll now).2
  | (now, .resetModel model) => (m.resetModel now model).2
  | (_, .getStates) => m

/-- The manager after a history. -/
def after (m : CircuitBreakerManager) (calls : List (ℤ × ManagerCall)) : CircuitBreakerManager :=
  calls.foldl perform m

/-- The breaker of a key, or the one that would be made for it. -/
def breaker (m : CircuitBreakerManager) (key : String) : CircuitBreaker :=
  (m.circuitBreakers.lookup key).getD (m.fresh key)

end CircuitBreakerManager

/-- What a call is to the breaker of a key. -/
def ManagerCall.own (key : String) : ℤ × ManagerCall → Option (ℤ × BreakerCall)
  | (now, .use model call) => if breakerKey model = key then some (now, call) else none
  | (now, .resetAll) => some (now, .reset)
  | (now, .resetModel model) => if breakerKey model = key then some (now, .reset) else none
  | (_, .getStates) => none

/-- The calls of a history that concern the breaker of a key. -/
def ownCalls (key : String) (calls : List (ℤ × ManagerCall)) : List (ℤ × BreakerCall) :=
  calls.filterMap (ManagerCall.own key)

/-- A caller has used the breaker of a key. -/
def Used (key : String) (calls : List (ℤ × ManagerCall)) : Prop :=
  ∃ now model call, (now, .use model call) ∈ calls ∧ breakerKey model = key

section Manager

variable {m m₀ : CircuitBreakerManager} {history : List (ℤ × ManagerCall)} {key : String}

/-- A breaker that was never used. -/
theorem summarizes_nil (hthreshold : 1 ≤ b.threshold) (hclosed : b.state = .closed)
    (hcount : b.consecutiveFailures = 0) : Summarizes b [] where
  tripped := by
    refine iff_of_false (not_not_intro hclosed) ?_
    rintro (hreached | ⟨_, hmem, -⟩)
    · exact absurd (hthreshold.trans hreached) (by decide)
    · cases hmem
  counted := fun _ ↦ hcount
  reached := fun hopen ↦ absurd hclosed hopen

theorem ownCalls_concat (key : String) (history : List (ℤ × ManagerCall))
    (call : ℤ × ManagerCall) :
    ownCalls key (history ++ [call]) =
      ownCalls key history ++ (ManagerCall.own key call).toList := by
  unfold ownCalls
  rw [List.filterMap_append]
  cases hown : ManagerCall.own key call <;> simp [hown]

theorem used_concat {call : ℤ × ManagerCall} : Used key (history ++ [call]) ↔
    Used key history ∨ ∃ model use, call.2 = .use model use ∧ breakerKey model = key := by
  simp only [Used, List.mem_append, List.mem_singleton, or_and_right, exists_or, Prod.ext_iff]
  refine or_congr_right ⟨?_, ?_⟩
  · rintro ⟨_, model, use, ⟨-, hcall⟩, hkey⟩
    exact ⟨model, use, hcall.symm, hkey⟩
  · rintro ⟨model, use, hcall, hkey⟩
    exact ⟨call.1, model, use, ⟨rfl, hcall.symm⟩, hkey⟩

namespace CircuitBreakerManager

theorem breaker_put (m : CircuitBreakerManager) (key : String) (cb : CircuitBreaker)
    (key' : String) : (m.put key cb).breaker key' = if key' = key then cb else m.breaker key' := by
  unfold breaker put
  split_ifs with hkey
  · rw [hkey, Members.lookup_set_self, Option.getD_some]
  · rw [Members.lookup_set_of_ne hkey]
    rfl

theorem getCircuitBreaker_of_some {m : CircuitBreakerManager} {model : String} {cb : CircuitBreaker}
    (h : m.circuitBreakers.lookup (breakerKey model) = some cb) :
    m.getCircuitBreaker model = (cb, m) := by
  unfold getCircuitBreaker
  simp only [h]

theorem getCircuitBreaker_of_none {m : CircuitBreakerManager} {model : String}
    (h : m.circuitBreakers.lookup (breakerKey model) = none) : m.getCircuitBreaker model =
      (m.fresh (breakerKey model), m.put (breakerKey model) (m.fresh (breakerKey model))) := by
  unfold getCircuitBreaker
  simp only [h]

theorem resetModel_of_some {m : CircuitBreakerManager} {model : String} {cb : CircuitBreaker}
    (now : ℤ) (h : m.circuitBreakers.lookup (breakerKey model) = some cb) :
    (m.resetModel now model).2 = m.put (breakerKey model) cb.reset := by
  unfold resetModel
  simp only [h]

theorem resetModel_of_none {m : CircuitBreakerManager} {model : String} (now : ℤ)
    (h : m.circuitBreakers.lookup (breakerKey model) = none) :
    (m.resetModel now model).2 = m := by
  unfold resetModel
  simp only [h]

/-- Getting the breaker of a model changes no breaker. -/
theorem getCircuitBreaker_spec (m : CircuitBreakerManager) (model : String) :
    (m.getCircuitBreaker model).1 = m.breaker (breakerKey model) ∧
      (∀ key, (m.getCircuitBreaker model).2.breaker key = m.breaker key) ∧
        (m.getCircuitBreaker model).2.fresh = m.fresh := by
  cases hlookup : m.circuitBreakers.lookup (breakerKey model) with
  | some cb =>
    rw [getCircuitBreaker_of_some hlookup, breaker, hlookup]
    exact ⟨rfl, fun _ ↦ rfl, rfl⟩
  | none =>
    rw [getCircuitBreaker_of_none hlookup]
    refine ⟨by rw [breaker, hlookup]; rfl, fun key ↦ ?_, rfl⟩
    rw [breaker_put]
    split_ifs with hkey
    · rw [breaker, hkey, hlookup, Option.getD_none]
    · rfl

theorem breaker_resetAll (m : CircuitBreakerManager) (now : ℤ) (key : String) :
    (m.resetAll now).2.breaker key = (m.breaker key).reset := by
  simp only [breaker, resetAll, Members.lookup_map_snd]
  cases m.circuitBreakers.lookup key <;> rfl

theorem breaker_resetModel (m : CircuitBreakerManager) (now : ℤ) (model key : String) :
    (m.resetModel now model).2.breaker key =
      if key = breakerKey model then (m.breaker key).reset else m.breaker key := by
  cases hlookup : m.circuitBreakers.lookup (breakerKey model) with
  | none =>
    rw [resetModel_of_none now hlookup]
    split_ifs with hkey
    · rw [breaker, hkey, hlookup]
      rfl
    · rfl
  | some cb =>
    rw [resetModel_of_some now hlookup, breaker_put]
    split_ifs with hkey
    · rw [breaker, hkey, hlookup, Option.getD_some]
    · rfl

end CircuitBreakerManager

/-- The breakers of a manager, by key, are those their own calls make, and the map has one entry for
each key that was used. -/
structure Separates (m₀ m : CircuitBreakerManager) (history : List (ℤ × ManagerCall)) : Prop where
  fresh : m.fresh = m₀.fresh
  breaker : ∀ key, m.breaker key = (m₀.fresh key).after (ownCalls key history)
  nodup : (m.circuitBreakers.map Prod.fst).Nodup
  used : ∀ key, key ∈ m.circuitBreakers.map Prod.fst ↔ Used key history

theorem CircuitBreaker.after_append (b : CircuitBreaker) (calls more : List (ℤ × BreakerCall)) :
    b.after (calls ++ more) = (b.after calls).after more :=
  List.foldl_append

/-- A call does to each breaker what it is to that one. -/
theorem breaker_perform (m : CircuitBreakerManager) (call : ℤ × ManagerCall) (key : String) :
    (m.perform call).breaker key = (m.breaker key).after (ManagerCall.own key call).toList := by
  obtain ⟨now, call⟩ := call
  cases call with
  | use model use =>
    obtain ⟨hgot, hothers, -⟩ := m.getCircuitBreaker_spec model
    simp only [CircuitBreakerManager.perform, CircuitBreakerManager.breaker_put, hgot, hothers,
      ManagerCall.own]
    by_cases hkey : key = breakerKey model
    · rw [if_pos hkey, if_pos hkey.symm, hkey]
      rfl
    · rw [if_neg hkey, if_neg (Ne.symm hkey)]
      rfl
  | resetAll => exact m.breaker_resetAll now key
  | resetModel model =>
    simp only [CircuitBreakerManager.perform, CircuitBreakerManager.breaker_resetModel,
      ManagerCall.own]
    by_cases hkey : key = breakerKey model
    · rw [if_pos hkey, if_pos hkey.symm]
      rfl
    · rw [if_neg hkey, if_neg (Ne.symm hkey)]
      rfl
  | getStates => rfl

/-- The keys of the map after a call. -/
theorem keys_perform (m : CircuitBreakerManager) (call : ℤ × ManagerCall) :
    (∀ model use, call.2 = .use model use → (m.perform call).circuitBreakers.map Prod.fst =
      if breakerKey model ∈ m.circuitBreakers.map Prod.fst then m.circuitBreakers.map Prod.fst
      else m.circuitBreakers.map Prod.fst ++ [breakerKey model]) ∧
    ((∀ model use, call.2 ≠ .use model use) →
      (m.perform call).circuitBreakers.map Prod.fst = m.circuitBreakers.map Prod.fst) := by
  obtain ⟨now, call⟩ := call
  refine ⟨?_, fun hnone ↦ ?_⟩
  · rintro model use rfl
    simp only [CircuitBreakerManager.perform]
    cases hlookup : m.circuitBreakers.lookup (breakerKey model) with
    | some cb =>
      rw [CircuitBreakerManager.getCircuitBreaker_of_some hlookup]
      exact Members.map_fst_set
    | none =>
      have hnot : breakerKey model ∉ m.circuitBreakers.map Prod.fst := by
        rw [← Members.isSome_lookup, hlookup]
        exact Bool.false_ne_true
      rw [CircuitBreakerManager.getCircuitBreaker_of_none hlookup, if_neg hnot]
      simp only [CircuitBreakerManager.put, Members.map_fst_set, if_neg hnot]
      exact if_pos (List.mem_append_right _ (List.mem_singleton_self _))
  · cases call with
    | use model use => exact absurd rfl (hnone model use)
    | resetAll => exact List.map_map
    | resetModel model =>
      simp only [CircuitBreakerManager.perform]
      cases hlookup : m.circuitBreakers.lookup (breakerKey model) with
      | none => rw [CircuitBreakerManager.resetModel_of_none now hlookup]
      | some cb =>
        have hmem : breakerKey model ∈ m.circuitBreakers.map Prod.fst :=
          Members.isSome_lookup.1 (by rw [hlookup]; rfl)
        rw [CircuitBreakerManager.resetModel_of_some now hlookup]
        exact Members.map_fst_set.trans (if_pos hmem)
    | getStates => rfl

theorem Separates.perform (h : Separates m₀ m history) (call : ℤ × ManagerCall) :
    Separates m₀ (m.perform call) (history ++ [call]) where
  fresh := by
    rw [← h.fresh]
    obtain ⟨now, call⟩ := call
    cases call with
    | use model use => exact (m.getCircuitBreaker_spec model).2.2
    | resetAll => rfl
    | resetModel model =>
      simp only [CircuitBreakerManager.perform]
      cases hlookup : m.circuitBreakers.lookup (breakerKey model) with
      | none => rw [CircuitBreakerManager.resetModel_of_none now hlookup]
      | some cb =>
        rw [CircuitBreakerManager.resetModel_of_some now hlookup]
        rfl
    | getStates => rfl
  breaker := fun key ↦ by
    rw [breaker_perform, h.breaker, ownCalls_concat, CircuitBreaker.after_append]
  nodup := by
    obtain ⟨huse, hother⟩ := keys_perform m call
    by_cases hcall : ∃ model use, call.2 = .use model use
    · obtain ⟨model, use, hcall⟩ := hcall
      rw [huse model use hcall]
      split_ifs with hmem
      · exact h.nodup
      · exact List.nodup_append.2 ⟨h.nodup, List.nodup_singleton _, fun a ha b hb heq ↦
          hmem (List.mem_singleton.1 hb ▸ heq ▸ ha)⟩
    · push Not at hcall
      rw [hother hcall]
      exact h.nodup
  -- only a use makes a breaker, and keeps the others in their order
  used := fun key ↦ by
    obtain ⟨huse, hother⟩ := keys_perform m call
    rw [used_concat, ← h.used]
    by_cases hcall : ∃ model use, call.2 = .use model use
    · obtain ⟨model, use, hcall⟩ := hcall
      rw [huse model use hcall]
      simp only [hcall, ManagerCall.use.injEq]
      split_ifs with hmem
      · refine ⟨Or.inl, fun hor ↦ hor.elim id ?_⟩
        rintro ⟨_, _, ⟨rfl, rfl⟩, rfl⟩
        exact hmem
      · rw [List.mem_append, List.mem_singleton]
        refine or_congr_right ⟨fun hkey ↦ ⟨model, use, ⟨rfl, rfl⟩, hkey.symm⟩, ?_⟩
        rintro ⟨_, _, ⟨rfl, rfl⟩, rfl⟩
        rfl
    · rw [hother (by push Not at hcall; exact hcall)]
      refine ⟨Or.inl, fun hor ↦ hor.resolve_right ?_⟩
      rintro ⟨model, use, hused, -⟩
      exact hcall ⟨model, use, hused⟩

theorem separates_after (hempty : m₀.circuitBreakers = []) (history : List (ℤ × ManagerCall)) :
    Separates m₀ (m₀.after history) history := by
  induction history using List.reverseRecOn with
  | nil =>
    refine ⟨rfl, fun key ↦ ?_, ?_, fun key ↦ ?_⟩
    · simp [CircuitBreakerManager.after, CircuitBreakerManager.breaker, hempty, ownCalls,
        CircuitBreaker.after]
    · simp [CircuitBreakerManager.after, hempty]
    · simp [CircuitBreakerManager.after, hempty, Used]
  | append_singleton history call ih =>
    rw [CircuitBreakerManager.after, List.foldl_append]
    exact ih.perform call

/-! ### The aggregate -/

theorem aggregate_spec (a : CircuitAggregate) (reports : List CircuitReport) :
    ((reports.foldl CircuitAggregate.add a).state = .closed ↔
      a.state = .closed ∧ ∀ r ∈ reports, r.state = .closed) ∧
    ((reports.foldl CircuitAggregate.add a).state = .opened ↔
      a.state = .opened ∨ ∃ r ∈ reports, r.state = .opened) ∧
    (reports.foldl CircuitAggregate.add a).consecutiveFailures =
      a.consecutiveFailures + (reports.map CircuitReport.consecutiveFailures).sum := by
  induction reports generalizing a with
  | nil => simp
  | cons r reports ih =>
    obtain ⟨hclosed, hopened, hfailures⟩ := ih (a.add r)
    have hadd : ((a.add r).state = .closed ↔ a.state = .closed ∧ r.state = .closed) ∧
        ((a.add r).state = .opened ↔ a.state = .opened ∨ r.state = .opened) := by
      unfold CircuitAggregate.add
      cases ha : a.state <;> cases hr : r.state <;> simp
    rw [List.foldl_cons, hclosed, hopened, hfailures, hadd.1, hadd.2]
    refine ⟨by simp [and_assoc], by simp [or_assoc], ?_⟩
    rw [List.map_cons, List.sum_cons, ← Nat.add_assoc]
    rfl

/-- The aggregate is that of the breakers in the map. -/
theorem getStates_spec (m : CircuitBreakerManager) (now : ℤ) :
    ((m.getStates now).1.state = .closed ↔ ∀ p ∈ m.circuitBreakers, p.2.state = .closed) ∧
    ((m.getStates now).1.state = .opened ↔
      ∃ p ∈ m.circuitBreakers, p.2.effectiveState now = .opened) ∧
    (m.getStates now).1.consecutiveFailures =
      (m.circuitBreakers.map fun p ↦ p.2.consecutiveFailures).sum := by
  have hreports : ((m.circuitBreakers.map fun p ↦ (p.1, p.2.getState now)).map Prod.snd) =
      m.circuitBreakers.map fun p ↦ p.2.getState now := List.map_map
  have haggregate : (m.getStates now).1 =
      (m.circuitBreakers.map fun p ↦ p.2.getState now).foldl CircuitAggregate.add {} := by
    rw [← hreports]
    rfl
  obtain ⟨hclosed, hopened, hfailures⟩ := aggregate_spec {}
    (m.circuitBreakers.map fun p ↦ p.2.getState now)
  rw [haggregate, hclosed, hopened, hfailures, List.map_map, Nat.zero_add]
  refine ⟨?_, ?_, rfl⟩
  · simp only [true_and, List.forall_mem_map, CircuitBreaker.getState, effectiveState_eq_closed_iff]
  · simp only [reduceCtorEq, false_or, List.mem_map, exists_exists_and_eq_and,
      CircuitBreaker.getState]

end Manager

/-- **The circuits of the models are apart.** Over every history of calls through a manager, at any
times: the breaker of a key is the one its own calls make, and it is not closed if and only if their
failures tripped it; the map has one entry for each key that was used; and the aggregate is closed
exactly when no model is tripped, open exactly when a model refuses calls, and counts the failures
of all. -/
theorem breakers_separate {threshold : ℕ} (hthreshold : 1 ≤ threshold) (cooldownMs : ℤ)
    (connectorName : String) (history : List (ℤ × ManagerCall)) :
    let manager : CircuitBreakerManager := { connectorName, threshold, cooldownMs }
    let m := manager.after history
    (∀ key, m.breaker key = (manager.fresh key).after (ownCalls key history) ∧
      ((m.breaker key).state ≠ .closed ↔ Tripped threshold (ownCalls key history))) ∧
    (m.circuitBreakers.map Prod.fst).Nodup ∧
    (∀ key, key ∈ m.circuitBreakers.map Prod.fst ↔ Used key history) ∧
    ∀ now, ((m.getStates now).1.state = .closed ↔
        ∀ key, ¬ Tripped threshold (ownCalls key history)) ∧
      ((m.getStates now).1.state = .opened ↔ ∃ key, (m.breaker key).passes now = false) ∧
      (m.getStates now).1.consecutiveFailures = ((m.circuitBreakers.map Prod.fst).map fun key ↦
        (m.breaker key).consecutiveFailures).sum := by
  intro manager m
  have hseparates : Separates manager m history := separates_after rfl history
  have hsummary : ∀ key, Summarizes (m.breaker key) (ownCalls key history) ∧
      (m.breaker key).threshold = threshold := by
    intro key
    have hfresh : Summarizes (manager.fresh key) [] := summarizes_nil hthreshold rfl rfl
    rw [hseparates.breaker]
    exact summarizes_after hthreshold hfresh (ownCalls key history)
  have htripped : ∀ key,
      (m.breaker key).state ≠ .closed ↔ Tripped threshold (ownCalls key history) := by
    intro key
    rw [(hsummary key).1.tripped, (hsummary key).2]
  have hentry : ∀ p ∈ m.circuitBreakers, p.2 = m.breaker p.1 := by
    intro p hp
    rw [CircuitBreakerManager.breaker, Members.lookup_of_mem hseparates.nodup hp, Option.getD_some]
  -- a key that was never used has a closed breaker
  have hunused : ∀ key, key ∉ m.circuitBreakers.map Prod.fst → m.breaker key = m.fresh key := by
    intro key hkey
    have hnone : m.circuitBreakers.lookup key = none := by
      rw [← Option.not_isSome_iff_eq_none, Members.isSome_lookup]
      exact hkey
    rw [CircuitBreakerManager.breaker, hnone, Option.getD_none]
  refine ⟨fun key ↦ ⟨hseparates.breaker key, htripped key⟩, hseparates.nodup, hseparates.used,
    fun now ↦ ?_⟩
  obtain ⟨hclosed, hopened, hfailures⟩ := getStates_spec m now
  rw [hclosed, hopened, hfailures, List.map_map]
  refine ⟨⟨fun hall key ↦ ?_, fun hnone p hp ↦ ?_⟩, ⟨?_, ?_⟩, ?_⟩
  · rw [← htripped, not_not]
    by_cases hkey : key ∈ m.circuitBreakers.map Prod.fst
    · obtain ⟨p, hp, rfl⟩ := List.mem_map.1 hkey
      rw [← hentry p hp]
      exact hall p hp
    · rw [hunused key hkey]
      rfl
  · have hnot := hnone p.1
    rw [← htripped, not_not] at hnot
    rw [hentry p hp]
    exact hnot
  · rintro ⟨p, hp, hopen⟩
    refine ⟨p.1, Bool.eq_false_iff.2 fun hpasses ↦ ?_⟩
    rw [← hentry p hp, CircuitBreaker.passes_iff] at hpasses
    exact hpasses hopen
  · rintro ⟨key, hrefused⟩
    have hopen : (m.breaker key).effectiveState now = .opened := by
      by_contra hopen
      rw [CircuitBreaker.passes_iff.2 hopen] at hrefused
      cases hrefused
    by_cases hkey : key ∈ m.circuitBreakers.map Prod.fst
    · obtain ⟨p, hp, rfl⟩ := List.mem_map.1 hkey
      exact ⟨p, hp, hentry p hp ▸ hopen⟩
    · rw [hunused key hkey] at hopen
      cases hopen
  · refine congrArg List.sum (List.map_congr_left fun p hp ↦ ?_)
    rw [Function.comp_apply, ← hentry p hp]

/-- Two failures of one model trip its circuit, and not that of another one. -/
theorem breakers_separate_two :
    let history : List (ℤ × ManagerCall) :=
      [(0, .use "a" (.recordFailure "timeout")), (5, .use "b" .check),
        (10, .use "a" (.recordFailure "timeout")), (20, .use "" .recordSuccess)]
    Tripped 2 (ownCalls "a" history) ∧ ¬ Tripped 2 (ownCalls "b" history) := by
  intro history
  obtain ⟨hkeys, -, -, -⟩ := breakers_separate (show 1 ≤ 2 by decide) 50 "groq" history
  refine ⟨(hkeys "a").2.1 (by decide +kernel), mt (hkeys "b").2.2 ?_⟩
  exact not_not_intro (by decide +kernel)

end ModelConnector.Resilience
