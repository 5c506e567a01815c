import ModelConnector.Connectors.ApiAttempt

/-!
# A caller's own budget and the shared breaker

A timeout on a budget that the caller made shorter than the connector's own says nothing about the
provider, and records nothing. It is not without trace while it lasts: the check of such an attempt
may turn an open breaker, whose cooldown has elapsed, into a half-open one. What a later caller
meets is the same, and every record makes the two breakers equal again, so a run with and a run
without the impatient attempts answer everybody else alike. `Concealed` is the relation between
their breakers, and `impatient_leave_no_trace` the result.
-/

namespace ModelConnector.CallerBudget

open Connectors Resilience

/-! ### One breaker -/

/-- The breakers of a run with and of a run without the impatient attempts: they are equal, or
the first stores the half-open state that the second has only decayed to. -/
inductive Concealed (now : ℤ) (a b : CircuitBreaker) : Prop
  | same (heq : a = b)
  | probed (hopen : b.state = .opened) (helapsed : b.cooldownElapsed now = true)
      (heq : a = { b with state := .halfOpen })

section Concealed

variable {now later : ℤ} {a a' b : CircuitBreaker}

theorem Concealed.mono (h : Concealed now a b) (hle : now ≤ later) : Concealed later a b := by
  cases h with
  | same heq => exact .same heq
  | probed hopen helapsed heq =>
    exact .probed hopen (CircuitBreaker.cooldownElapsed_mono hle helapsed) heq

/-- Callers are answered alike, and their check makes the breakers equal. -/
theorem Concealed.check (h : Concealed now a b) : a.check now = b.check now := by
  cases h with
  | same heq => rw [heq]
  | probed hopen helapsed heq =>
    subst heq
    unfold CircuitBreaker.check
    rw [hopen]
    exact (if_pos helapsed).symm

/-- A check on the one side only conceals nothing else. -/
theorem Concealed.of_check (h : Concealed now a b) (hcheck : a.check now = .ok a') :
    Concealed now a' b := by
  cases h with
  | same heq =>
    subst heq
    unfold CircuitBreaker.check at hcheck
    split at hcheck
    · exact .same (Except.ok.inj hcheck).symm
    · rename_i hopen
      split at hcheck
      · rename_i helapsed
        exact .probed hopen helapsed (Except.ok.inj hcheck).symm
      · cases hcheck
    · exact .same (Except.ok.inj hcheck).symm
  | probed hopen helapsed heq =>
    subst heq
    exact .probed hopen helapsed (Except.ok.inj hcheck).symm

theorem Concealed.recordSuccess (h : Concealed now a b) : a.recordSuccess = b.recordSuccess := by
  cases h with
  | same heq => rw [heq]
  | probed _ _ heq =>
    subst heq
    rfl

theorem Concealed.recordFailure (h : Concealed now a b) (at_ : ℤ) (errorType : String) :
    a.recordFailure at_ errorType = b.recordFailure at_ errorType := by
  cases h with
  | same heq => rw [heq]
  | probed hopen _ heq =>
    subst heq
    unfold CircuitBreaker.recordFailure
    split
    · rfl
    · -- a failed probe opens the one, and the other is open already
      simp [hopen]

theorem Concealed.reset (h : Concealed now a b) : a.reset = b.reset := by
  cases h with
  | same heq => rw [heq]
  | probed _ _ heq =>
    subst heq
    rfl

theorem Concealed.record (h : Concealed now a b) (attempt : Attempt) :
    Concealed now (attempt.record now a) (attempt.record now b) := by
  unfold Attempt.record
  split
  · exact h
  · exact .same (h.recordFailure _ _)
  · exact .same (h.recordFailure _ _)
  · exact .same h.recordSuccess
  · split
    · exact h
    · exact .same (h.recordFailure _ _)

end Concealed

/-! ### One connector -/

section Connector

variable {attempts : ℕ → Attempt} {deleted : ℕ → Bool}

/-- The states of a run with and of a run without the deleted attempts. -/
structure Matches (deleted : ℕ → Bool) (s t : ApiConnector) : Prop where
  now : s.now = t.now
  breakers : ∀ key, Concealed s.now (s.breakers key) (t.breakers key)
  arrived : ∀ id, deleted id = false → (id ∈ s.arrived ↔ id ∈ t.arrived)
  inFlight : ∀ id, deleted id = false → (id ∈ s.inFlight ↔ id ∈ t.inFlight)

theorem Matches.refl (s : ApiConnector) : Matches deleted s s where
  now := rfl
  breakers _ := .same rfl
  arrived _ _ := Iff.rfl
  inFlight _ _ := Iff.rfl

variable {s s' t : ApiConnector}

/-- What remains is answered alike. -/
theorem Matches.admission (h : Matches deleted s t) (id : ℕ) :
    s.admission attempts id = t.admission attempts id := by
  unfold ApiConnector.admission
  rw [(h.breakers _).check, h.now]

theorem Matches.update (h : Matches deleted s t) {key : String} {a b : CircuitBreaker}
    (hab : Concealed s.now a b) (key' : String) :
    Concealed s.now (Function.update s.breakers key a key')
      (Function.update t.breakers key b key') := by
  by_cases hkey : key' = key
  · subst hkey
    rw [Function.update_self, Function.update_self]
    exact hab
  · rw [Function.update_of_ne hkey, Function.update_of_ne hkey]
    exact h.breakers key'

theorem Matches.update_left (h : Matches deleted s t) {key : String} {a : CircuitBreaker}
    (ha : Concealed s.now a (t.breakers key)) (key' : String) :
    Concealed s.now (Function.update s.breakers key a key') (t.breakers key') := by
  have hupdate : Concealed s.now (Function.update s.breakers key a key')
      (Function.update t.breakers key (t.breakers key) key') := h.update ha key'
  rwa [Function.update_eq_self] at hupdate

/-- The check of an attempt that remains. -/
theorem Matches.breakerAfterCheck (h : Matches deleted s t) (id : ℕ) :
    Concealed s.now (s.breakerAfterCheck attempts id) (t.breakerAfterCheck attempts id) := by
  unfold ApiConnector.breakerAfterCheck
  split
  · exact h.breakers _
  · rw [(h.breakers _).check, h.now]
    split
    · exact .same rfl
    · rw [← h.now]
      exact h.breakers _

/-- The check of a deleted attempt. -/
theorem Matches.breakerAfterCheck_left (h : Matches deleted s t) (id : ℕ) :
    Concealed s.now (s.breakerAfterCheck attempts id) (t.breakers (attempts id).breakerKey) := by
  unfold ApiConnector.breakerAfterCheck
  split
  · exact h.breakers _
  · split
    · rename_i breaker hcheck
      exact (h.breakers _).of_check hcheck
    · exact h.breakers _

theorem mem_cons_iff_of_ne {id id' : ℕ} {l l' : List ℕ} (hne : id' ≠ id)
    (h : id' ∈ l ↔ id' ∈ l') : id' ∈ id :: l ↔ id' ∈ l' := by
  rw [List.mem_cons, or_iff_right hne, h]

/-- What a deleted attempt does leaves the two sides matching. -/
theorem Matches.step_left (h : Matches deleted s t) {id : ℕ} (hdeleted : deleted id = true)
    (himpatient : (attempts id).impatient = true) {e : AttemptEvent} (he : e.id? = some id)
    (hs : ApiConnector.step attempts s e = some s') : Matches deleted s' t := by
  have hne : ∀ id', deleted id' = false → id' ≠ id := by
    rintro id' hkept rfl
    rw [hdeleted] at hkept
    cases hkept
  cases e with
  | arrive id' =>
    obtain rfl : id' = id := Option.some.inj he
    simp only [ApiConnector.step] at hs
    split at hs
    · cases hs
    · obtain rfl := Option.some.inj hs
      refine ⟨h.now, h.update_left (h.breakerAfterCheck_left id'), fun other hkept ↦ ?_,
        fun other hkept ↦ ?_⟩
      · exact mem_cons_iff_of_ne (hne other hkept) (h.arrived other hkept)
      · show other ∈ (if _ then _ else _) ↔ _
        split
        · exact mem_cons_iff_of_ne (hne other hkept) (h.inFlight other hkept)
        · exact h.inFlight other hkept
  | finish id' =>
    obtain rfl : id' = id := Option.some.inj he
    simp only [ApiConnector.step] at hs
    split at hs
    · obtain rfl := Option.some.inj hs
      refine ⟨h.now, h.update_left ?_, h.arrived, fun other hkept ↦ ?_⟩
      · -- nothing is recorded
        rw [Attempt.record_of_impatient himpatient]
        exact h.breakers _
      · show other ∈ s.inFlight.filter _ ↔ _
        rw [← h.inFlight other hkept]
        simp [hne other hkept]
    · cases hs
  | tick ms => cases he
  | resetModel key => cases he
  | resetAll => cases he

/-- What anybody else does is possible on the other side as well. -/
theorem Matches.step (h : Matches deleted s t) {e : AttemptEvent}
    (hkept : ∀ id, e.id? = some id → deleted id = false)
    (hs : ApiConnector.step attempts s e = some s') :
    ∃ t', ApiConnector.step attempts t e = some t' ∧ Matches deleted s' t' := by
  cases e with
  | tick ms =>
    obtain rfl := Option.some.inj hs
    refine ⟨_, rfl, congrArg (· + (ms : ℤ)) h.now, fun key ↦ (h.breakers key).mono ?_, h.arrived,
      h.inFlight⟩
    show s.now ≤ s.now + ms
    omega
  | arrive id =>
    have hid := hkept id rfl
    simp only [ApiConnector.step] at hs ⊢
    split at hs
    · cases hs
    · rename_i hfresh
      obtain rfl := Option.some.inj hs
      rw [if_neg fun ht ↦ hfresh ((h.arrived id hid).2 ht)]
      refine ⟨_, rfl, h.now, h.update (h.breakerAfterCheck id), fun other hother ↦ ?_,
        fun other hother ↦ ?_⟩
      · show other ∈ id :: s.arrived ↔ other ∈ id :: t.arrived
        rw [List.mem_cons, List.mem_cons, h.arrived other hother]
      · show other ∈ (if _ then _ else _) ↔ other ∈ (if _ then _ else _)
        rw [h.admission id]
        split
        · rw [List.mem_cons, List.mem_cons, h.inFlight other hother]
        · exact h.inFlight other hother
  | finish id =>
    have hid := hkept id rfl
    simp only [ApiConnector.step] at hs ⊢
    split at hs
    · rename_i hflight
      obtain rfl := Option.some.inj hs
      rw [if_pos ((h.inFlight id hid).1 hflight)]
      refine ⟨_, rfl, h.now, h.update ?_, h.arrived, fun other hother ↦ ?_⟩
      · rw [← h.now]
        exact (h.breakers _).record (attempts id)
      · show other ∈ s.inFlight.filter _ ↔ other ∈ t.inFlight.filter _
        rw [List.mem_filter, List.mem_filter, h.inFlight other hother]
    · cases hs
  | resetModel key =>
    obtain rfl := Option.some.inj hs
    exact ⟨_, rfl, h.now, h.update (.same (h.breakers key).reset), h.arrived, h.inFlight⟩
  | resetAll =>
    obtain rfl := Option.some.inj hs
    exact ⟨_, rfl, h.now, fun key ↦ .same (h.breakers key).reset, h.arrived, h.inFlight⟩

/-- An event is not about a deleted attempt. -/
def remains (deleted : ℕ → Bool) (e : AttemptEvent) : Bool :=
  !e.id?.any deleted

/-- The answer one event of a history adds. -/
theorem answers_snoc (h : List (ApiConnector × AttemptEvent)) (s : ApiConnector)
    (e : AttemptEvent) : ApiConnector.answers attempts (h ++ [(s, e)]) =
      ApiConnector.answers attempts h ++ ApiConnector.answers attempts [(s, e)] :=
  List.filterMap_append

/-- The run without the deleted attempts, and its answers. -/
theorem delete_run (himpatient : ∀ id, deleted id = true → (attempts id).impatient = true)
    {s₀ : ApiConnector} {h : List (ApiConnector × AttemptEvent)}
    (hr : Run (ApiConnector.step attempts) s₀ h s) :
    ∃ h' t, Run (ApiConnector.step attempts) s₀ h' t ∧ Matches deleted s t ∧
      h'.map Prod.snd = (h.map Prod.snd).filter (remains deleted) ∧
      ApiConnector.answers attempts h' =
        (ApiConnector.answers attempts h).filter fun answer ↦ !deleted answer.1 := by
  induction hr with
  | nil => exact ⟨[], s₀, .nil, .refl s₀, rfl, rfl⟩
  | @snoc h s s' e hr hs ih =>
    obtain ⟨h', t, hr', hmatch, hevents, hanswers⟩ := ih
    rw [List.map_append, List.filter_append, ← hevents, answers_snoc, List.filter_append,
      ← hanswers]
    cases hid : e.id?.any deleted with
    | true =>
      -- the event is deleted, and the shorter run stays where it is
      obtain ⟨id, he, hdeleted⟩ := (Option.any_eq_true deleted e.id?).1 hid
      refine ⟨h', t, hr', hmatch.step_left hdeleted (himpatient id hdeleted) he hs, ?_, ?_⟩
      · simp [remains, hid]
      · cases e with
        | arrive id' =>
          obtain rfl : id' = id := Option.some.inj he
          simp [ApiConnector.answers, hdeleted]
        | finish id' => simp [ApiConnector.answers]
        | tick ms => cases he
        | resetModel key => cases he
        | resetAll => cases he
    | false =>
      have hkept : ∀ id, e.id? = some id → deleted id = false := by
        intro id he
        rw [he] at hid
        exact hid
      obtain ⟨t', ht, hmatch'⟩ := hmatch.step hkept hs
      refine ⟨h' ++ [(t, e)], t', hr'.snoc ht, hmatch', ?_, ?_⟩
      · simp [remains, hid]
      · rw [answers_snoc]
        congr 1
        cases e with
        | arrive id =>
          simp [ApiConnector.answers, hkept id rfl, hmatch.admission id]
        | finish id => simp [ApiConnector.answers]
        | tick ms => simp [ApiConnector.answers]
        | resetModel key => simp [ApiConnector.answers]
        | resetAll => simp [ApiConnector.answers]

end Connector

/-- The attempts of a history that ended in a timeout while their caller's budget was shorter than
the connector's own. -/
def endedImpatient (attempts : ℕ → Attempt) (h : List (ApiConnector × AttemptEvent)) (id : ℕ) :
    Bool :=
  decide (AttemptEvent.finish id ∈ h.map Prod.snd) && (attempts id).impatient

/-- **A short budget leaves no trace.** Delete from any run all attempts that ended in a timeout on
a budget shorter than the connector's own: what is left is a run, and every attempt in it is
answered as before. -/
theorem impatient_leave_no_trace (attempts : ℕ → Attempt) {s₀ s : ApiConnector}
    {h : List (ApiConnector × AttemptEvent)} (hr : Run (ApiConnector.step attempts) s₀ h s) :
    ∃ h' t, Run (ApiConnector.step attempts) s₀ h' t ∧
      h'.map Prod.snd = (h.map Prod.snd).filter (remains (endedImpatient attempts h)) ∧
      ApiConnector.answers attempts h' = (ApiConnector.answers attempts h).filter
        fun answer ↦ !endedImpatient attempts h answer.1 := by
  obtain ⟨h', t, hr', -, hevents, hanswers⟩ :=
    delete_run (fun id hid ↦ (Bool.and_eq_true_iff.1 hid).2) hr
  exact ⟨h', t, hr', hevents, hanswers⟩

/-- Attempts 0 to 4 fail, attempt 5 gives up after five seconds, and the others succeed. -/
def sampleAttempts (id : ℕ) : Attempt where
  model := some "model"
  requestTimeoutMs := if id = 5 then some 5000 else none
  connectorBudgetMs := 120000
  advertisedMaxTimeoutMs := some (.finite 60000)
  ending :=
    if id < 5 then .answered true
    else if id = 5 then .thrown .timeoutAbort
    else .answered false

/-- A connector nobody has called yet. -/
def idleConnector : ApiConnector where
  now := 1000
  breakers _ := {}
  arrived := []
  inFlight := []

/-- The impatient attempt is the one that finds the breaker's cooldown elapsed, and the attempt
after it passes in both runs. -/
theorem impatient_leave_no_trace_probe :
    ∃ h s, Run (ApiConnector.step sampleAttempts) idleConnector h s ∧
      endedImpatient sampleAttempts h 5 = true ∧
      ApiConnector.answers sampleAttempts h = [(0, .admitted), (1, .admitted), (2, .admitted),
        (3, .admitted), (4, .admitted), (5, .admitted), (6, .admitted)] ∧
      ∃ h' t, Run (ApiConnector.step sampleAttempts) idleConnector h' t ∧
        h'.map Prod.snd =
          (h.map Prod.snd).filter (remains (endedImpatient sampleAttempts h)) ∧
        ApiConnector.answers sampleAttempts h' = (ApiConnector.answers sampleAttempts h).filter
          fun answer ↦ !endedImpatient sampleAttempts h answer.1 := by
  obtain ⟨h, s, hr, hcheck⟩ := Run.exists_of_check (ApiConnector.step sampleAttempts) idleConnector
    [.arrive 0, .finish 0, .arrive 1, .finish 1, .arrive 2, .finish 2, .arrive 3, .finish 3,
      .arrive 4, .finish 4, .tick 30001, .arrive 5, .tick 5000, .finish 5, .arrive 6, .finish 6]
    (fun h _ ↦ endedImpatient sampleAttempts h 5 &&
      decide (ApiConnector.answers sampleAttempts h = [(0, .admitted), (1, .admitted),
        (2, .admitted), (3, .admitted), (4, .admitted), (5, .admitted), (6, .admitted)]))
    (by decide +kernel)
  obtain ⟨hended, hanswers⟩ := Bool.and_eq_true_iff.1 hcheck
  exact ⟨h, s, hr, hended, of_decide_eq_true hanswers,
    impatient_leave_no_trace sampleAttempts hr⟩

end ModelConnector.CallerBudget
