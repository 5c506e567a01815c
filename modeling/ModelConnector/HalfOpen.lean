import ModelConnector.Foundations.Run
import ModelConnector.Resilience.CircuitBreaker

/-!
# Probes of a half-open breaker

Callers of one breaker check it, are away for as long as their provider call takes, and then record
how it went. Once the cooldown of an open breaker has passed one probe is meant to go through, and
its outcome decides. The first `check` writes `half_open` down, and `check` then lets everybody
pass: `one_probe_iff` says that at most one caller passes before the next outcome exactly when
nobody checks a breaker that is already half open.
-/

namespace ModelConnector.HalfOpen

open Resilience

/-- One breaker, the clock and the callers that have passed and not yet recorded an outcome. -/
structure State where
  now : ℤ
  breaker : CircuitBreaker
  inFlight : List ℕ
  deriving DecidableEq

/-- What happens. -/
inductive Event
  | tick (ms : ℕ)
  | check (caller : ℕ)
  | recordSuccess (caller : ℕ)
  | recordFailure (caller : ℕ) (errorType : String)
  deriving DecidableEq

namespace Event

/-- A caller asks to pass. -/
def isCheck : Event → Bool
  | check _ => true
  | tick _ => false
  | recordSuccess _ => false
  | recordFailure _ _ => false

/-- An outcome is recorded. -/
def isOutcome : Event → Bool
  | recordSuccess _ => true
  | recordFailure _ _ => true
  | tick _ => false
  | check _ => false

end Event

/-- One event. A caller that is refused is done; one that has passed records one outcome. -/
def step (s : State) : Event → Option State
  | .tick ms => some { s with now := s.now + ms }
  | .check caller =>
    if caller ∈ s.inFlight then none
    else
      match s.breaker.check s.now with
      | .ok breaker => some { s with breaker, inFlight := caller :: s.inFlight }
      | .error _ => some s
  | .recordSuccess caller =>
    if caller ∈ s.inFlight then
      some { s with breaker := s.breaker.recordSuccess, inFlight := s.inFlight.erase caller }
    else none
  | .recordFailure caller errorType =>
    if caller ∈ s.inFlight then
      some
        { s with
          breaker := s.breaker.recordFailure s.now errorType
          inFlight := s.inFlight.erase caller }
    else none

/-- A caller passes. -/
def passed (p : State × Event) : Bool :=
  p.2.isCheck && p.1.breaker.passes p.1.now

/-- A caller checks a breaker whose probe is already out. -/
def checksHalfOpen (p : State × Event) : Bool :=
  p.2.isCheck && decide (p.1.breaker.state = .halfOpen)

section Step

variable {s s' : State} {e : Event}

/-- What a step does. -/
theorem step_cases (hs : step s e = some s') :
    (∃ ms, e = .tick ms ∧ s' = { s with now := s.now + ms }) ∨
    (∃ caller, e = .check caller ∧ s.breaker.passes s.now = true ∧
      s' = { s with
        breaker := { s.breaker with state := s.breaker.effectiveState s.now }
        inFlight := caller :: s.inFlight }) ∨
    (∃ caller, e = .check caller ∧ s.breaker.passes s.now = false ∧ s' = s) ∨
    (e.isOutcome = true ∧ s'.now = s.now) := by
  cases e with
  | tick ms => exact .inl ⟨ms, rfl, (Option.some.inj hs).symm⟩
  | check caller =>
    simp only [step, CircuitBreaker.check_eq] at hs
    by_cases hopen : s.breaker.effectiveState s.now = .opened
    · have hrefused : s.breaker.passes s.now = false := by
        rw [← Bool.not_eq_true, CircuitBreaker.passes_iff]
        exact not_not.2 hopen
      rw [if_pos hopen] at hs
      split at hs
      · cases hs
      · exact .inr (.inr (.inl ⟨caller, rfl, hrefused, (Option.some.inj hs).symm⟩))
    · rw [if_neg hopen] at hs
      split at hs
      · cases hs
      · exact .inr (.inl ⟨caller, rfl, CircuitBreaker.passes_iff.2 hopen,
          (Option.some.inj hs).symm⟩)
  | recordSuccess caller =>
    simp only [step] at hs
    split at hs
    · exact .inr (.inr (.inr ⟨rfl, by rw [← Option.some.inj hs]⟩))
    · cases hs
  | recordFailure caller errorType =>
    simp only [step] at hs
    split at hs
    · exact .inr (.inr (.inr ⟨rfl, by rw [← Option.some.inj hs]⟩))
    · cases hs

theorem now_le_of_step (hs : step s e = some s') : s.now ≤ s'.now := by
  obtain ⟨ms, -, rfl⟩ | ⟨caller, -, -, rfl⟩ | ⟨caller, -, -, rfl⟩ | ⟨-, hnow⟩ := step_cases hs
  · show s.now ≤ s.now + ms
    omega
  · exact le_rfl
  · exact le_rfl
  · exact hnow.ge

/-- Without an outcome a step leaves the breaker alone, or a caller passes and leaves the state it
met. -/
theorem breaker_of_step (hs : step s e = some s') (hquiet : e.isOutcome = false) :
    s'.breaker = if e.isCheck ∧ s.breaker.passes s.now then
        { s.breaker with state := s.breaker.effectiveState s.now }
      else s.breaker := by
  obtain ⟨ms, rfl, rfl⟩ | ⟨caller, rfl, hpass, rfl⟩ | ⟨caller, rfl, hpass, rfl⟩ | ⟨hout, -⟩ :=
    step_cases hs
  · rfl
  · rw [if_pos ⟨rfl, hpass⟩]
  · rw [if_neg fun h ↦ by rw [hpass] at h; cases h.2]
  · rw [hquiet] at hout
    cases hout

end Step

/-- Where a window without outcomes stands, which began with the breaker `b` open and its cooldown
elapsed: nobody has passed yet, or the first who passed left the breaker half open and has been the
only one as long as nobody checked it then. -/
inductive Window (b : CircuitBreaker) (h : List (State × Event)) (t : State) : Prop
  | idle (hbreaker : t.breaker = b) (hcount : h.countP passed = 0)
      (hprobes : h.countP checksHalfOpen = 0)
  | probing (hbreaker : t.breaker = { b with state := .halfOpen })
      (hcount : h.countP passed = h.countP checksHalfOpen + 1)

/-- The window invariant. -/
theorem window_of_run {s t : State} {h : List (State × Event)} (hr : Run step s h t)
    (hopen : s.breaker.state = .opened) (helapsed : s.breaker.cooldownElapsed s.now = true)
    (hquiet : ∀ p ∈ h, p.2.isOutcome = false) : s.now ≤ t.now ∧ Window s.breaker h t := by
  induction hr with
  | nil => exact ⟨le_rfl, .idle rfl rfl rfl⟩
  | @snoc h t t' e hr hs ih =>
    obtain ⟨hnow, hwindow⟩ := ih fun p hp ↦ hquiet p (List.mem_append_left _ hp)
    have hq : e.isOutcome = false := hquiet (t, e) (List.mem_append_right _ (by simp))
    have hbreaker := breaker_of_step hs hq
    refine ⟨hnow.trans (now_le_of_step hs), ?_⟩
    cases hwindow with
    | idle hidle hcount hprobes =>
      -- the cooldown stays elapsed, so the first check finds the breaker half open
      have heffective : t.breaker.effectiveState t.now = .halfOpen := by
        have hlater := CircuitBreaker.cooldownElapsed_mono hnow helapsed
        rw [hidle, CircuitBreaker.effectiveState, if_pos ⟨hopen, hlater⟩]
      have hpasses : t.breaker.passes t.now = true :=
        CircuitBreaker.passes_iff.2 (by rw [heffective]; decide)
      have hstate : ¬ t.breaker.state = .halfOpen := by
        rw [hidle, hopen]
        decide
      by_cases hcheck : e.isCheck = true
      · refine .probing ?_ ?_
        · rw [hbreaker, if_pos ⟨hcheck, hpasses⟩, heffective, hidle]
        · simp [List.countP_append, hcount, hprobes, passed, checksHalfOpen, hcheck, hpasses,
            hstate]
      · refine .idle ?_ ?_ ?_
        · rw [hbreaker, if_neg fun h ↦ hcheck h.1, hidle]
        · simp [List.countP_append, hcount, passed, hcheck]
        · simp [List.countP_append, hprobes, checksHalfOpen, hcheck]
    | probing hhalf hcount =>
      have hstate : t.breaker.state = .halfOpen := by rw [hhalf]
      have heffective : t.breaker.effectiveState t.now = .halfOpen := by
        rw [CircuitBreaker.effectiveState, if_neg (by rw [hstate]; simp), hstate]
      have hpasses : t.breaker.passes t.now = true :=
        CircuitBreaker.passes_iff.2 (by rw [heffective]; decide)
      refine .probing ?_ ?_
      · rw [hbreaker, heffective, ← hhalf]
        split
        · rw [hhalf]
        · rfl
      · by_cases hcheck : e.isCheck = true
        · simp [List.countP_append, passed, checksHalfOpen, hcheck, hpasses, hstate]
          simpa [passed, checksHalfOpen] using hcount
        · simp [List.countP_append, passed, checksHalfOpen, hcheck]
          simpa [passed, checksHalfOpen] using hcount

/-- **When one probe goes through.** From any state with an open breaker whose cooldown has elapsed,
at most one caller passes before the next recorded outcome exactly when no caller checks the
breaker while it is half open. -/
theorem one_probe_iff {s t : State} {h : List (State × Event)} (hr : Run step s h t)
    (hopen : s.breaker.state = .opened) (helapsed : s.breaker.cooldownElapsed s.now = true)
    (hquiet : ∀ p ∈ h, p.2.isOutcome = false) :
    h.countP passed ≤ 1 ↔ ∀ p ∈ h, checksHalfOpen p = false := by
  have hzero : h.countP checksHalfOpen = 0 ↔ ∀ p ∈ h, checksHalfOpen p = false := by
    rw [List.countP_eq_zero]
    exact forall₂_congr fun p _ ↦ Bool.not_eq_true _ ▸ Iff.rfl
  rw [← hzero]
  cases (window_of_run hr hopen helapsed hquiet).2 with
  | idle _ hcount hprobes => omega
  | probing _ hcount => omega

/-! ### Two probes -/

/-- A breaker in use, nobody in flight. -/
def fresh : State where
  now := 1000
  breaker := {}
  inFlight := []

/-- The same breaker after five failures and its cooldown. -/
def tripped : State where
  now := 31001
  breaker :=
    { state := .opened
      consecutiveFailures := 5
      lastFailureTime := 1000
      lastErrorType := some "api_error" }
  inFlight := []

/-- Five callers that fail, and the cooldown. -/
def tripping : List Event :=
  [.check 0, .recordFailure 0 "api_error", .check 1, .recordFailure 1 "api_error",
    .check 2, .recordFailure 2 "api_error", .check 3, .recordFailure 3 "api_error",
    .check 4, .recordFailure 4 "api_error", .tick 30001]

/-- After five failures and a cooldown, two callers pass before either has an outcome. -/
theorem two_probes : ∃ h₁ s h₂ t, Run step fresh h₁ s ∧ s.breaker.state = .opened ∧
    s.breaker.cooldownElapsed s.now = true ∧ Run step s h₂ t ∧
    (∀ p ∈ h₂, p.2.isOutcome = false) ∧ h₂.countP passed = 2 := by
  obtain ⟨h₁, s, hr₁, hs⟩ := Run.exists_of_check step fresh tripping
    (fun _ s ↦ decide (s = tripped)) (by decide +kernel)
  obtain ⟨h₂, t, hr₂, hcheck⟩ := Run.exists_of_check step tripped [.check 5, .check 6]
    (fun h _ ↦ h.all (fun p ↦ !p.2.isOutcome) && decide (h.countP passed = 2)) (by decide +kernel)
  obtain rfl := of_decide_eq_true hs
  obtain ⟨hquiet, hcount⟩ := Bool.and_eq_true_iff.1 hcheck
  refine ⟨h₁, tripped, h₂, t, hr₁, rfl, by decide, hr₂, fun p hp ↦ ?_, of_decide_eq_true hcount⟩
  simpa using List.all_eq_true.1 hquiet p hp

/-- One caller that checks the tripped breaker is the only one who passes. -/
theorem one_probe_iff_tripped : ∃ h t, Run step tripped h t ∧ h.map Prod.snd = [.check 5, .tick 10] ∧
    (h.countP passed ≤ 1 ↔ ∀ p ∈ h, checksHalfOpen p = false) := by
  obtain ⟨h, t, hr, hcheck⟩ := Run.exists_of_check step tripped [.check 5, .tick 10]
    (fun h _ ↦ decide (h.map Prod.snd = [.check 5, .tick 10]) &&
      h.all fun p ↦ !p.2.isOutcome) (by decide +kernel)
  obtain ⟨hevents, hquiet⟩ := Bool.and_eq_true_iff.1 hcheck
  exact ⟨h, t, hr, of_decide_eq_true hevents, one_probe_iff hr rfl (by decide) fun p hp ↦ by
    simpa using List.all_eq_true.1 hquiet p hp⟩

end ModelConnector.HalfOpen
