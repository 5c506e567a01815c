import ModelConnector.Auth.KeyRateLimit
import ModelConnector.Foundations.Run
import ModelConnector.Foundations.Window

/-!
# The rate limit of a key over time

A counter belongs to one window and outlives it by another one, so as long as its window lasts it
says how many transactions have counted on it: that is `CounterInv`. A request that is let through
is one of at most `limit` counted before it, which bounds every aligned window; the rest is
arithmetic of aligned windows.
-/

namespace ModelConnector.RateWindows

open Auth

/-- The counter an event counts on, when its transaction takes effect. -/
def counted (p : RateLimiter × RateEvent) : Option CounterKey :=
  match p.2 with
  | .tick _ => none
  | .consume keyId delivery =>
    if delivery.applied then some (requestKey keyId p.1.nowMs) else none
  | .recordAbort keyId delivery =>
    if delivery.applied then some (abortKey keyId p.1.nowMs) else none

/-- The length of the windows of a counter. -/
def windowSeconds : CounterKey → ℕ
  | .req _ _ => RATE_LIMIT_WINDOW_SECONDS
  | .abort _ _ => ABORT_BUDGET_WINDOW_SECONDS

/-- The window of a counter. -/
def ordinal : CounterKey → ℕ
  | .req _ ordinal => ordinal
  | .abort _ ordinal => ordinal

theorem windowOrdinal_eq (nowMs seconds : ℕ) :
    windowOrdinal nowMs seconds = nowMs / (1000 * seconds) :=
  Nat.div_div_eq_div_mul nowMs 1000 seconds

theorem windowSeconds_pos (key : CounterKey) : 0 < 1000 * windowSeconds key := by
  cases key with
  | req keyId ordinal => exact (by decide : 0 < 1000 * RATE_LIMIT_WINDOW_SECONDS)
  | abort keyId ordinal => exact (by decide : 0 < 1000 * ABORT_BUDGET_WINDOW_SECONDS)

/-- An event counts in the window of its own time. -/
theorem ordinal_of_counted {p : RateLimiter × RateEvent} {key : CounterKey}
    (h : counted p = some key) : ordinal key = p.1.nowMs / (1000 * windowSeconds key) := by
  unfold counted at h
  split at h
  · cases h
  · split at h
    · cases h
      exact windowOrdinal_eq _ _
    · cases h
  · split at h
    · cases h
      exact windowOrdinal_eq _ _
    · cases h

section Step

variable {limits : String → ℕ} {s s' : RateLimiter} {e : RateEvent} {key : CounterKey}

/-- What an event does: it leaves Redis alone, or it adds one to a counter of its own window, which
lives for two windows more. -/
theorem step_cases (hs : s.step limits e = some s') :
    (counted (s, e) = none ∧ s.nowMs ≤ s'.nowMs ∧ s'.redis = s.redis) ∨
    (∃ key, counted (s, e) = some key ∧ s'.nowMs = s.nowMs ∧
      s'.redis.counters = Function.update s.redis.counters key
        (some ⟨(s.redis.get key s.nowMs).getD 0 + 1,
          some (s.nowMs + windowSeconds key * 2 * 1000)⟩)) := by
  cases e with
  | tick ms =>
    cases hs
    exact .inl ⟨rfl, Nat.le_add_right _ _, rfl⟩
  | consume keyId delivery =>
    cases hs
    rw [consume_snd]
    by_cases happlied : delivery.applied = true
    · rw [if_pos happlied]
      exact .inr ⟨requestKey keyId s.nowMs, if_pos happlied, rfl,
        Redis.counters_expire_incr _ _ _ _⟩
    · rw [if_neg happlied]
      exact .inl ⟨if_neg happlied, le_rfl, rfl⟩
  | recordAbort keyId delivery =>
    cases hs
    rw [recordAbort_eq]
    by_cases happlied : delivery.applied = true
    · rw [if_pos happlied]
      exact .inr ⟨abortKey keyId s.nowMs, if_pos happlied, rfl,
        Redis.counters_expire_incr _ _ _ _⟩
    · rw [if_neg happlied]
      exact .inl ⟨if_neg happlied, le_rfl, rfl⟩

theorem nowMs_le_of_step (hs : s.step limits e = some s') : s.nowMs ≤ s'.nowMs := by
  obtain ⟨-, hle, -⟩ | ⟨-, -, hnow, -⟩ := step_cases hs
  · exact hle
  · exact hnow.ge

end Step

section Runs

variable {limits : String → ℕ} {s₀ s s' : RateLimiter} {e : RateEvent}
  {h : List (RateLimiter × RateEvent)} {key : CounterKey}

/-- How often a counter has been counted on. -/
def tally (h : List (RateLimiter × RateEvent)) (key : CounterKey) : ℕ :=
  h.countP fun p ↦ decide (counted p = some key)

/-- **The counters of a run.** A counter holds what has been counted on it, and lives to the end of
the window after its own. -/
structure CounterInv (h : List (RateLimiter × RateEvent)) (s : RateLimiter) : Prop where
  past : ∀ p ∈ h, p.1.nowMs ≤ s.nowMs
  unused : ∀ key, tally h key = 0 → s.redis.counters key = none
  used : ∀ key, 0 < tally h key → ∃ expiresAt,
    s.redis.counters key = some ⟨tally h key, some expiresAt⟩ ∧
      1000 * windowSeconds key * (ordinal key + 2) ≤ expiresAt

/-- A counter of a window that has not begun has not been counted on. -/
theorem CounterInv.tally_future (hinv : CounterInv h s)
    (hfuture : s.nowMs / (1000 * windowSeconds key) < ordinal key) : tally h key = 0 := by
  refine List.countP_eq_zero.2 fun p hp hcounted ↦ ?_
  have hordinal := ordinal_of_counted (of_decide_eq_true hcounted)
  have hle : p.1.nowMs / (1000 * windowSeconds key) ≤ s.nowMs / (1000 * windowSeconds key) :=
    Nat.div_le_div_right (hinv.past p hp)
  omega

/-- In its own window a counter says how often it has been counted on. -/
theorem CounterInv.get (hinv : CounterInv h s)
    (hnow : ordinal key = s.nowMs / (1000 * windowSeconds key)) :
    (s.redis.get key s.nowMs).getD 0 = tally h key := by
  unfold Redis.get Redis.live
  rcases Nat.eq_zero_or_pos (tally h key) with hzero | hpos
  · rw [hinv.unused key hzero, hzero]
    rfl
  · -- the clock is still in the window, which the counter outlives
    obtain ⟨expiresAt, hcounter, hlives⟩ := hinv.used key hpos
    have hlt : s.nowMs < 1000 * windowSeconds key * (ordinal key + 1) :=
      hnow ▸ (Window.mul_div_le_lt (windowSeconds_pos key) s.nowMs).2
    have hle : 1000 * windowSeconds key * (ordinal key + 1) ≤
        1000 * windowSeconds key * (ordinal key + 2) :=
      Nat.mul_le_mul_left _ (Nat.le_succ _)
    have hlive : (decide (s.nowMs < expiresAt)) = true :=
      decide_eq_true (hlt.trans_le (hle.trans hlives))
    rw [hcounter]
    simp [Option.filter_some, hlive]

theorem tally_snoc (p : RateLimiter × RateEvent) :
    tally (h ++ [p]) key = tally h key + if counted p = some key then 1 else 0 := by
  unfold tally
  rw [List.countP_append, List.countP_singleton]
  simp only [decide_eq_true_eq]

/-- The step lemma. -/
theorem CounterInv.step (hinv : CounterInv h s) (hs : s.step limits e = some s') :
    CounterInv (h ++ [(s, e)]) s' := by
  have hpast : ∀ p ∈ h ++ [(s, e)], p.1.nowMs ≤ s'.nowMs := by
    intro p hp
    rcases List.mem_append.1 hp with hp | hp
    · exact (hinv.past p hp).trans (nowMs_le_of_step hs)
    · rw [List.mem_singleton.1 hp]
      exact nowMs_le_of_step hs
  obtain ⟨hcounted, -, hredis⟩ | ⟨key, hcounted, -, hcounters⟩ := step_cases hs
  · have htally : ∀ key, tally (h ++ [(s, e)]) key = tally h key := fun key ↦ by
      rw [tally_snoc, hcounted, if_neg (by simp), Nat.add_zero]
    refine ⟨hpast, fun key hzero ↦ ?_, fun key hpos ↦ ?_⟩
    · rw [hredis]
      exact hinv.unused key (htally key ▸ hzero)
    · rw [hredis, htally]
      exact hinv.used key (htally key ▸ hpos)
  · have hordinal := ordinal_of_counted hcounted
    rw [hinv.get hordinal] at hcounters
    have hself : tally (h ++ [(s, e)]) key = tally h key + 1 := by
      rw [tally_snoc, if_pos hcounted]
    have hother : ∀ key', key' ≠ key → tally (h ++ [(s, e)]) key' = tally h key' :=
      fun key' hne ↦ by
        rw [tally_snoc, hcounted, if_neg fun heq ↦ hne (Option.some.inj heq).symm, Nat.add_zero]
    refine ⟨hpast, fun key' hzero ↦ ?_, fun key' hpos ↦ ?_⟩
    · have hne : key' ≠ key := by
        rintro rfl
        omega
      rw [hcounters, Function.update_of_ne hne]
      exact hinv.unused key' (hother key' hne ▸ hzero)
    · rw [hcounters]
      by_cases hkey : key' = key
      · subst hkey
        refine ⟨_, by rw [Function.update_self, hself], ?_⟩
        -- the event is no earlier than the window begins
        have hle : 1000 * windowSeconds key' * ordinal key' ≤ s.nowMs :=
          hordinal ▸ (Window.mul_div_le_lt (windowSeconds_pos key') s.nowMs).1
        rw [Nat.mul_add]
        omega
      · rw [Function.update_of_ne hkey, hother key' hkey]
        exact hinv.used key' (hother key' hkey ▸ hpos)

/-- A service none of whose counters exist. -/
def fresh (nowMs : ℕ) : RateLimiter where
  nowMs
  redis := { counters := fun _ ↦ none }

theorem counterInv_of_run {nowMs : ℕ} (hr : Run (RateLimiter.step limits) (fresh nowMs) h s) :
    CounterInv h s := by
  induction hr with
  | nil => exact ⟨by simp, fun _ _ ↦ rfl, fun _ hpos ↦ absurd hpos (Nat.lt_irrefl 0)⟩
  | snoc _ hs ih => exact ih.step hs

end Runs

/-! ### What a key gets -/

section Keys

variable {limits : String → ℕ} {s : RateLimiter} {h : List (RateLimiter × RateEvent)}
  {keyId : String} {p : RateLimiter × RateEvent}

/-- The event lets a request of the key through. -/
def allows (limits : String → ℕ) (keyId : String) (p : RateLimiter × RateEvent) : Bool :=
  (RateLimiter.decision? limits keyId p).any fun decision ↦ decide (decision.outcome = .allowed)

theorem eq_consume_of_decision? {decision : RateLimitDecision}
    (hd : RateLimiter.decision? limits keyId p = some decision) :
    ∃ delivery, p.2 = .consume keyId delivery ∧
      decision = (consume p.1.redis keyId (limits keyId) p.1.nowMs delivery).1 := by
  unfold RateLimiter.decision? at hd
  split at hd
  · rename_i keyId' delivery he
    split at hd
    · rename_i hkey
      exact ⟨delivery, hkey ▸ he, (Option.some.inj hd).symm⟩
    · cases hd
  · cases hd

/-- A request that is let through has been counted, and was within the limit. -/
theorem counted_of_allows (ha : allows limits keyId p = true) :
    counted p = some (requestKey keyId p.1.nowMs) ∧
      (p.1.redis.get (requestKey keyId p.1.nowMs) p.1.nowMs).getD 0 + 1 ≤ limits keyId := by
  obtain ⟨decision, hd, houtcome⟩ := (Option.any_eq_true _ _).1 ha
  obtain ⟨delivery, he, rfl⟩ := eq_consume_of_decision? hd
  obtain ⟨happlied, hlimit⟩ := consume_allowed (of_decide_eq_true houtcome)
  refine ⟨?_, hlimit⟩
  unfold counted
  rw [he]
  exact if_pos happlied

/-- How many requests of the key were let through in a window. -/
def allowedIn (limits : String → ℕ) (keyId : String) (h : List (RateLimiter × RateEvent))
    (ordinal : ℕ) : ℕ :=
  h.countP fun p ↦ allows limits keyId p &&
    decide (windowOrdinal p.1.nowMs RATE_LIMIT_WINDOW_SECONDS = ordinal)

/-- What was let through was counted. -/
theorem allowedIn_le_tally (limits : String → ℕ) (keyId : String)
    (h : List (RateLimiter × RateEvent)) (ordinal : ℕ) :
    allowedIn limits keyId h ordinal ≤ tally h (.req keyId ordinal) := by
  refine List.countP_mono_left fun p _ hp ↦ ?_
  obtain ⟨hallows, hordinal⟩ := Bool.and_eq_true_iff.1 hp
  refine decide_eq_true ?_
  rw [(counted_of_allows hallows).1, requestKey, of_decide_eq_true hordinal]

/-- The bound for one window. -/
theorem allowedIn_le {nowMs : ℕ} (hr : Run (RateLimiter.step limits) (fresh nowMs) h s)
    (ordinal : ℕ) : allowedIn limits keyId h ordinal ≤ limits keyId := by
  induction hr with
  | nil => exact Nat.zero_le _
  | @snoc h s s' e hr hs ih =>
    unfold allowedIn
    rw [List.countP_append, List.countP_singleton]
    split
    · -- it is let through, so it and all that were before are among those counted
      rename_i hp
      obtain ⟨hallows, hordinal⟩ := Bool.and_eq_true_iff.1 hp
      obtain rfl := of_decide_eq_true hordinal
      have hlimit := (counted_of_allows hallows).2
      have hget : (s.redis.get (requestKey keyId s.nowMs) s.nowMs).getD 0 =
          tally h (requestKey keyId s.nowMs) :=
        (counterInv_of_run hr).get (windowOrdinal_eq _ _)
      have hle := allowedIn_le_tally limits keyId h
        (windowOrdinal s.nowMs RATE_LIMIT_WINDOW_SECONDS)
      rw [hget] at hlimit
      exact (Nat.add_le_add_right hle 1).trans hlimit
    · exact ih

/-- The retry lands in the next window. -/
theorem windowOrdinal_retry {seconds : ℕ} (hpos : 0 < seconds) (nowMs : ℕ) :
    windowOrdinal (nowMs + secondsToWindowEnd nowMs seconds * 1000) seconds =
      windowOrdinal nowMs seconds + 1 := by
  have hlt := Nat.mod_lt (nowMs / 1000) hpos
  have hretry : secondsToWindowEnd nowMs seconds = seconds - nowMs / 1000 % seconds :=
    max_eq_right (by omega)
  unfold windowOrdinal
  rw [hretry, Nat.add_mul_div_right _ _ (by decide : 0 < 1000)]
  exact Window.add_rest_div hpos _

theorem windowSeconds_outcome_pos (outcome : RateLimitOutcome) : 0 < outcome.windowSeconds := by
  cases outcome <;> decide

theorem windowSeconds_counter (outcome : RateLimitOutcome) (keyId : String) (k : ℕ) :
    windowSeconds (outcome.counter keyId k) = outcome.windowSeconds := by
  cases outcome <;> rfl

theorem ordinal_counter (outcome : RateLimitOutcome) (keyId : String) (k : ℕ) :
    ordinal (outcome.counter keyId k) = k := by
  cases outcome <;> rfl

/-- What the rate limit of a key guarantees in a run. -/
structure Guarantee (limits : String → ℕ) (keyId : String)
    (h : List (RateLimiter × RateEvent)) (s : RateLimiter) : Prop where
  /-- No aligned window lets more than the limit through. -/
  window : ∀ ordinal, allowedIn limits keyId h ordinal ≤ limits keyId
  /-- No span of one window's length, its ends included, lets more than twice the limit through. -/
  rolling : ∀ start, (h.countP fun p ↦ allows limits keyId p &&
    decide (start ≤ p.1.nowMs ∧ p.1.nowMs ≤ start + RATE_LIMIT_WINDOW_SECONDS * 1000)) ≤
      2 * limits keyId
  /-- A refused call may retry in the window after its own, and when it is refused nothing has been
  counted in that window. -/
  refused : ∀ p ∈ h, ∀ decision, RateLimiter.decision? limits keyId p = some decision →
    decision.outcome ≠ .allowed →
    let next := windowOrdinal p.1.nowMs decision.outcome.windowSeconds + 1
    windowOrdinal (p.1.nowMs + decision.retryAfterSeconds * 1000)
        decision.outcome.windowSeconds = next ∧
      ∀ s', p.1.step limits p.2 = some s' →
        s'.redis.counters (decision.outcome.counter keyId next) = none
  /-- What the next call finds in the counter of its window is what was counted in that window. -/
  counter : (s.redis.get (requestKey keyId s.nowMs) s.nowMs).getD 0 =
    tally h (requestKey keyId s.nowMs)

/-- **The rate limit of a key over time**, for every run of calls of this key and of others. -/
theorem rate_limit_over_time {nowMs : ℕ}
    (hr : Run (RateLimiter.step limits) (fresh nowMs) h s) : Guarantee limits keyId h s := by
  refine ⟨allowedIn_le hr, fun start ↦ ?_, fun p hp decision hd _ ↦ ⟨?_, fun s' hs ↦ ?_⟩,
    (counterInv_of_run hr).get (windowOrdinal_eq _ _)⟩
  · refine Window.countP_span_le (fun p ↦ p.1.nowMs) (allows limits keyId)
      (by decide : 0 < RATE_LIMIT_WINDOW_SECONDS * 1000) (fun ordinal ↦ ?_) start
    simpa only [windowOrdinal_eq, allowedIn, Nat.mul_comm] using allowedIn_le hr ordinal
  · obtain ⟨delivery, -, rfl⟩ := eq_consume_of_decision? hd
    rw [consume_retryAfterSeconds]
    exact windowOrdinal_retry (windowSeconds_outcome_pos _) _
  · -- a run leads to the state after the call, whose time is still the call's
    obtain ⟨h', hr', -⟩ := hr.exists_of_mem p hp
    obtain ⟨delivery, he, -⟩ := eq_consume_of_decision? hd
    have hinv := (counterInv_of_run hr').step hs
    have hnow : s'.nowMs = p.1.nowMs := by
      rw [he] at hs
      cases hs
      rfl
    refine hinv.unused _ (hinv.tally_future ?_)
    rw [windowSeconds_counter, ordinal_counter, hnow, windowOrdinal_eq]
    exact Nat.lt_succ_self _

end Keys

/-! ### A run -/

/-- Two bursts around the edge of a window, and a burst of aborts. -/
def sampleEvents : List RateEvent :=
  [.tick 59500, .consume "k" .answered, .consume "k" .answered, .consume "k" .answered,
    .tick 500, .consume "k" (.failed true), .consume "k" .answered, .consume "j" .answered] ++
  List.replicate 10 (.recordAbort "k" .answered) ++ [.consume "k" .answered]

/-- The outcomes of the bursts, and the guarantee. -/
theorem rate_limit_over_time_bursts :
    ∃ h s, Run (RateLimiter.step fun _ ↦ 2) (fresh 0) h s ∧
      (h.filterMap (RateLimiter.decision? (fun _ ↦ 2) "k")).map
          (fun decision ↦ (decision.outcome, decision.retryAfterSeconds)) =
        [(.allowed, 1), (.allowed, 1), (.overLimit, 1), (.backendUnavailable, 60), (.allowed, 60),
          (.abortBudgetExhausted, 240)] ∧
      Guarantee (fun _ ↦ 2) "k" h s := by
  obtain ⟨h, s, hr, hcheck⟩ := Run.exists_of_check (RateLimiter.step fun _ ↦ 2) (fresh 0)
    sampleEvents
    (fun h _ ↦ decide ((h.filterMap (RateLimiter.decision? (fun _ ↦ 2) "k")).map
        (fun decision ↦ (decision.outcome, decision.retryAfterSeconds)) =
      [(.allowed, 1), (.allowed, 1), (.overLimit, 1), (.backendUnavailable, 60), (.allowed, 60),
        (.abortBudgetExhausted, 240)]))
    (by decide +kernel)
  exact ⟨h, s, hr, of_decide_eq_true hcheck, rate_limit_over_time hr⟩

/-! ### Other keys -/

/-- The key a counter belongs to. -/
def owner : CounterKey → String
  | .req keyId _ => keyId
  | .abort keyId _ => keyId

/-- The event is about a key, or the clock moves. -/
def concerns (keyId : String) : RateEvent → Bool
  | .tick _ => true
  | .consume keyId' _ => decide (keyId' = keyId)
  | .recordAbort keyId' _ => decide (keyId' = keyId)

/-- Two services that look the same to a key. -/
structure SameTo (keyId : String) (s t : RateLimiter) : Prop where
  nowMs : t.nowMs = s.nowMs
  counters : ∀ key, owner key = keyId → t.redis.counters key = s.redis.counters key

section Apart

variable {limits limits' : String → ℕ} {keyId : String} {s s' t : RateLimiter} {e : RateEvent}
  {h : List (RateLimiter × RateEvent)}

theorem SameTo.get (hsame : SameTo keyId s t) {key : CounterKey} (hkey : owner key = keyId)
    (nowMs : ℕ) : t.redis.get key nowMs = s.redis.get key nowMs := by
  unfold Redis.get Redis.live
  rw [hsame.counters key hkey]

/-- What is counted on a counter of the key is counted alike. -/
theorem SameTo.update (hsame : SameTo keyId s t) {key : CounterKey} (hkey : owner key = keyId)
    (seconds : ℕ) : SameTo keyId
      { s with redis := (s.redis.incr key s.nowMs).2.expire key s.nowMs seconds }
      { t with redis := (t.redis.incr key s.nowMs).2.expire key s.nowMs seconds } where
  nowMs := hsame.nowMs
  counters := fun key' hkey' ↦ by
    simp only [Redis.counters_expire_incr, hsame.get hkey]
    by_cases heq : key' = key
    · rw [heq, Function.update_self, Function.update_self]
    · rw [Function.update_of_ne heq, Function.update_of_ne heq, hsame.counters key' hkey']

/-- What is counted on a counter of another key is not seen. -/
theorem SameTo.other (hsame : SameTo keyId s t) {key : CounterKey} (hkey : owner key ≠ keyId)
    (seconds : ℕ) : SameTo keyId
      { s with redis := (s.redis.incr key s.nowMs).2.expire key s.nowMs seconds } t where
  nowMs := hsame.nowMs
  counters := fun key' hkey' ↦ by
    have hne : key' ≠ key := fun heq ↦ hkey (heq ▸ hkey')
    simp only [Redis.counters_expire_incr, Function.update_of_ne hne]
    exact hsame.counters key' hkey'

/-- A step of another key is not seen. -/
theorem SameTo.skip (hsame : SameTo keyId s t) (hs : s.step limits e = some s')
    (hother : concerns keyId e = false) : SameTo keyId s' t := by
  cases e with
  | tick ms => cases hother
  | consume keyId' delivery =>
    have hne : keyId' ≠ keyId := of_decide_eq_false hother
    have howner : owner (requestKey keyId' s.nowMs) ≠ keyId := hne
    cases hs
    rw [consume_snd]
    split
    · exact hsame.other howner _
    · exact hsame
  | recordAbort keyId' delivery =>
    have hne : keyId' ≠ keyId := of_decide_eq_false hother
    have howner : owner (abortKey keyId' s.nowMs) ≠ keyId := hne
    cases hs
    rw [recordAbort_eq]
    split
    · exact hsame.other howner _
    · exact hsame

/-- A step of the key, or of the clock, is taken alike. -/
theorem SameTo.step (hsame : SameTo keyId s t) (hs : s.step limits e = some s')
    (hown : concerns keyId e = true) : ∃ t', t.step limits' e = some t' ∧ SameTo keyId s' t' := by
  cases e with
  | tick ms =>
    cases hs
    exact ⟨_, rfl, congrArg (· + ms) hsame.nowMs, hsame.counters⟩
  | consume keyId' delivery =>
    obtain rfl : keyId' = keyId := of_decide_eq_true hown
    cases hs
    refine ⟨_, rfl, ?_⟩
    rw [consume_snd, consume_snd, hsame.nowMs]
    split
    · have howner : owner (requestKey keyId' s.nowMs) = keyId' := rfl
      exact ⟨rfl, (hsame.update howner _).counters⟩
    · exact ⟨rfl, hsame.counters⟩
  | recordAbort keyId' delivery =>
    obtain rfl : keyId' = keyId := of_decide_eq_true hown
    cases hs
    refine ⟨_, rfl, ?_⟩
    rw [recordAbort_eq, recordAbort_eq, hsame.nowMs]
    split
    · have howner : owner (abortKey keyId' s.nowMs) = keyId' := rfl
      exact ⟨rfl, (hsame.update howner _).counters⟩
    · exact ⟨rfl, hsame.counters⟩

/-- The answer of a call is made of what the key sees. -/
theorem SameTo.decision? (hsame : SameTo keyId s t) (hlimit : limits' keyId = limits keyId) :
    RateLimiter.decision? limits' keyId (t, e) = RateLimiter.decision? limits keyId (s, e) := by
  unfold RateLimiter.decision?
  cases e with
  | tick ms => rfl
  | recordAbort keyId' delivery => rfl
  | consume keyId' delivery =>
    dsimp only
    split
    · have hrequest : owner (requestKey keyId s.nowMs) = keyId := rfl
      have habort : owner (abortKey keyId s.nowMs) = keyId := rfl
      have hvalue : (t.redis.incr (requestKey keyId s.nowMs) s.nowMs).1 =
          (s.redis.incr (requestKey keyId s.nowMs) s.nowMs).1 := by
        rw [Redis.incr_fst, Redis.incr_fst, hsame.get hrequest]
      have htally := (hsame.update hrequest (RATE_LIMIT_WINDOW_SECONDS * 2)).get habort s.nowMs
      simp only at htally
      rw [hsame.nowMs, hlimit]
      cases delivery <;> simp only [consume, hvalue, htally]
      split <;> rfl
    · rfl

theorem decision?_of_other (hother : concerns keyId e = false) :
    RateLimiter.decision? limits keyId (s, e) = none := by
  cases e with
  | tick ms => rfl
  | consume keyId' delivery => exact if_neg (of_decide_eq_false hother)
  | recordAbort keyId' delivery => rfl

/-- **The limits of two keys are apart.** In any run, the answers a key gets are those of the run of
its own calls alone, at the same times, whatever the limits of other keys are. -/
theorem rate_limits_apart {nowMs : ℕ} (hlimit : limits' keyId = limits keyId)
    (hr : Run (RateLimiter.step limits) (fresh nowMs) h s) :
    ∃ h' t, Run (RateLimiter.step limits') (fresh nowMs) h' t ∧
      h'.map Prod.snd = (h.map Prod.snd).filter (concerns keyId) ∧
      h'.filterMap (RateLimiter.decision? limits' keyId) =
        h.filterMap (RateLimiter.decision? limits keyId) := by
  have hfresh : SameTo keyId (fresh nowMs) (fresh nowMs) := ⟨rfl, fun _ _ ↦ rfl⟩
  obtain ⟨h', t, hr', -, hevents, hdecisions⟩ := hr.unwind hfresh
    (fun hsame hother hs ↦ ⟨hsame.skip hs hother, decision?_of_other hother⟩)
    (fun hsame hown hs ↦ ⟨hsame.step hs hown, hsame.decision? hlimit⟩)
  exact ⟨h', t, hr', hevents, hdecisions⟩

end Apart

/-- The bursts of a key do not touch the calls of another one. -/
theorem rate_limits_apart_bursts :
    ∃ h t, Run (RateLimiter.step fun keyId ↦ if keyId = "k" then 0 else 2) (fresh 0) h t ∧
      h.map Prod.snd = [.tick 59500, .tick 500, .consume "j" .answered] ∧
      (h.filterMap (RateLimiter.decision? (fun keyId ↦ if keyId = "k" then 0 else 2) "j")).map
        RateLimitDecision.outcome = [.allowed] := by
  obtain ⟨h, s, hr, hcheck⟩ := Run.exists_of_check (RateLimiter.step fun _ ↦ 2) (fresh 0)
    sampleEvents
    (fun h _ ↦ decide ((h.map Prod.snd).filter (concerns "j") =
        [.tick 59500, .tick 500, .consume "j" .answered] ∧
      (h.filterMap (RateLimiter.decision? (fun _ ↦ 2) "j")).map RateLimitDecision.outcome =
        [.allowed]))
    (by decide +kernel)
  obtain ⟨hevents, houtcomes⟩ := of_decide_eq_true hcheck
  have happart : ∃ h' t,
      Run (RateLimiter.step fun keyId ↦ if keyId = "k" then 0 else 2) (fresh 0) h' t ∧
      h'.map Prod.snd = (h.map Prod.snd).filter (concerns "j") ∧
      h'.filterMap (RateLimiter.decision? (fun keyId ↦ if keyId = "k" then 0 else 2) "j") =
        h.filterMap (RateLimiter.decision? (fun _ ↦ 2) "j") := rate_limits_apart rfl hr
  obtain ⟨h', t, hr', hevents', hdecisions⟩ := happart
  exact ⟨h', t, hr', hevents'.trans hevents, hdecisions ▸ houtcomes⟩

end ModelConnector.RateWindows
