import Mathlib.Data.Nat.Basic
import Mathlib.Logic.Function.Basic

/-!
# The rate limit of a key

`KeyRateLimitService` counts requests and aborted attempts in Redis, in counters whose key holds the
ordinal of the window they belong to. `consume` sends one `MULTI` that counts the request, sets the
time to live of its counter and reads the abort counter; `recordAbort` sends one that counts an
abort. The transaction of a call takes effect at the time the call reads, and the clock of Redis is
the clock of the service. The limit is what `resolveLimit` has read.

A transaction may go unanswered, or be answered with an error: it has then taken effect or not.
Dates are milliseconds; up to the largest date JavaScript knows, the quotients of `windowOrdinal`
are rounded to the side of the window edge they are on.
-/

namespace ModelConnector.Auth

def RATE_LIMIT_WINDOW_SECONDS : ℕ :=
  60

def ABORT_BUDGET_WINDOW_SECONDS : ℕ :=
  300

def ABORT_BUDGET_THRESHOLD : ℕ :=
  10

/-- Why a request was let through or not. -/
inductive RateLimitOutcome
  | allowed
  | overLimit
  | abortBudgetExhausted
  | backendUnavailable
  deriving DecidableEq

/-- The answer of `consume`. -/
structure RateLimitDecision where
  outcome : RateLimitOutcome
  limit : ℕ
  count : ℕ
  abortCount : ℕ
  retryAfterSeconds : ℕ
  deriving DecidableEq

/-- The window a time falls into. -/
def windowOrdinal (nowMs windowSeconds : ℕ) : ℕ :=
  nowMs / 1000 / windowSeconds

/-- The seconds that are left of the window. -/
def secondsToWindowEnd (nowMs windowSeconds : ℕ) : ℕ :=
  let elapsed := nowMs / 1000 % windowSeconds
  max 1 (windowSeconds - elapsed)

/-! ### Redis -/

/-- `rl:req:<keyId>:<ordinal>` and `rl:abort:<keyId>:<ordinal>`. -/
inductive CounterKey
  | req (keyId : String) (ordinal : ℕ)
  | abort (keyId : String) (ordinal : ℕ)
  deriving DecidableEq

/-- A counter and the time it expires at, if it does. -/
structure Counter where
  value : ℕ
  expiresAt : Option ℕ
  deriving DecidableEq

/-- The counters of a Redis server. -/
structure Redis where
  counters : CounterKey → Option Counter

namespace Redis

variable (redis : Redis) (key : CounterKey) (nowMs : ℕ)

/-- The counter of a key, unless it has expired. -/
def live : Option Counter :=
  (redis.counters key).filter fun counter ↦ counter.expiresAt.all fun expiresAt ↦
    decide (nowMs < expiresAt)

/-- `GET`. -/
def get : Option ℕ :=
  (redis.live key nowMs).map Counter.value

/-- `INCR`: the new value, and the server afterwards. -/
def incr : ℕ × Redis :=
  let counter := (redis.live key nowMs).getD { value := 0, expiresAt := none }
  (counter.value + 1,
    { counters := Function.update redis.counters key
        (some { counter with value := counter.value + 1 }) })

/-- `EXPIRE`. -/
def expire (seconds : ℕ) : Redis :=
  match redis.live key nowMs with
  | none => redis
  | some counter =>
    { counters := Function.update redis.counters key
        (some { counter with expiresAt := some (nowMs + seconds * 1000) }) }

/-- A counter that is written and has not expired is live. -/
theorem live_update {counter : Counter}
    (h : (counter.expiresAt.all fun expiresAt ↦ decide (nowMs < expiresAt)) = true) :
    live { counters := Function.update redis.counters key (some counter) } key nowMs =
      some counter := by
  simp only [live, Function.update_self, Option.filter_some, h, if_true]

theorem incr_fst : (redis.incr key nowMs).1 = (redis.get key nowMs).getD 0 + 1 := by
  unfold incr get
  cases redis.live key nowMs <;> rfl

/-- `INCR` leaves the counter live: it does not touch its time to live. -/
theorem live_incr : ∃ expiresAt, (redis.incr key nowMs).2.live key nowMs =
    some { value := (redis.get key nowMs).getD 0 + 1, expiresAt } := by
  unfold incr get
  cases hcounter : redis.live key nowMs with
  | none => exact ⟨none, live_update redis key nowMs rfl⟩
  | some counter =>
    have hall := (Option.filter_eq_some_iff.1 hcounter).2
    exact ⟨counter.expiresAt, live_update redis key nowMs hall⟩

/-- `INCR` and `EXPIRE` in one transaction. -/
theorem counters_expire_incr (seconds : ℕ) :
    ((redis.incr key nowMs).2.expire key nowMs seconds).counters =
      Function.update redis.counters key
        (some ⟨(redis.get key nowMs).getD 0 + 1, some (nowMs + seconds * 1000)⟩) := by
  obtain ⟨expiresAt, hlive⟩ := redis.live_incr key nowMs
  unfold expire
  rw [hlive]
  exact Function.update_idem ..

end Redis

/-- What becomes of a transaction: it is answered, or it is not, or with an error, after it has
taken effect or without. -/
inductive Delivery
  | answered
  | failed (applied : Bool)
  deriving DecidableEq

/-- The transaction takes effect. -/
def Delivery.applied : Delivery → Bool
  | answered => true
  | failed applied => applied

/-! ### The service -/

/-- The counter of the requests of a key. -/
def requestKey (keyId : String) (nowMs : ℕ) : CounterKey :=
  .req keyId (windowOrdinal nowMs RATE_LIMIT_WINDOW_SECONDS)

/-- The counter of the aborted attempts of a key. -/
def abortKey (keyId : String) (nowMs : ℕ) : CounterKey :=
  .abort keyId (windowOrdinal nowMs ABORT_BUDGET_WINDOW_SECONDS)

/-- Count one request against its key, and say what to do with it. -/
def consume (redis : Redis) (keyId : String) (limit nowMs : ℕ) (delivery : Delivery) :
    RateLimitDecision × Redis :=
  let (value, incremented) := redis.incr (requestKey keyId nowMs) nowMs
  let written := incremented.expire (requestKey keyId nowMs) nowMs (RATE_LIMIT_WINDOW_SECONDS * 2)
  let tally := written.get (abortKey keyId nowMs) nowMs
  match delivery with
  | .answered =>
    let count := value
    let abortCount := tally.getD 0
    -- the request has been counted, whichever reason it is refused for
    if abortCount ≥ ABORT_BUDGET_THRESHOLD then
      ({ outcome := .abortBudgetExhausted
         limit
         count
         abortCount
         retryAfterSeconds := secondsToWindowEnd nowMs ABORT_BUDGET_WINDOW_SECONDS }, written)
    else
      ({ outcome := if count > limit then .overLimit else .allowed
         limit
         count
         abortCount
         retryAfterSeconds := secondsToWindowEnd nowMs RATE_LIMIT_WINDOW_SECONDS }, written)
  | .failed applied =>
    ({ outcome := .backendUnavailable
       limit
       count := 0
       abortCount := 0
       retryAfterSeconds := secondsToWindowEnd nowMs RATE_LIMIT_WINDOW_SECONDS },
      if applied then written else redis)

/-- Count one billable aborted attempt against its key. -/
def recordAbort (redis : Redis) (keyId : String) (nowMs : ℕ) (delivery : Delivery) : Redis :=
  let (_, incremented) := redis.incr (abortKey keyId nowMs) nowMs
  let written := incremented.expire (abortKey keyId nowMs) nowMs (ABORT_BUDGET_WINDOW_SECONDS * 2)
  match delivery with
  | .answered => written
  | .failed applied => if applied then written else redis

theorem consume_snd (redis : Redis) (keyId : String) (limit nowMs : ℕ) (delivery : Delivery) :
    (consume redis keyId limit nowMs delivery).2 =
      if delivery.applied then
        (redis.incr (requestKey keyId nowMs) nowMs).2.expire (requestKey keyId nowMs) nowMs
          (RATE_LIMIT_WINDOW_SECONDS * 2)
      else redis := by
  cases delivery with
  | answered =>
    simp only [consume, Delivery.applied, if_true]
    split <;> rfl
  | failed applied => rfl

theorem recordAbort_eq (redis : Redis) (keyId : String) (nowMs : ℕ) (delivery : Delivery) :
    recordAbort redis keyId nowMs delivery =
      if delivery.applied then
        (redis.incr (abortKey keyId nowMs) nowMs).2.expire (abortKey keyId nowMs) nowMs
          (ABORT_BUDGET_WINDOW_SECONDS * 2)
      else redis := by
  cases delivery <;> rfl

/-- A request that is let through has been counted, and was within the limit. -/
theorem consume_allowed {redis : Redis} {keyId : String} {limit nowMs : ℕ} {delivery : Delivery}
    (h : (consume redis keyId limit nowMs delivery).1.outcome = .allowed) :
    delivery.applied = true ∧ (redis.get (requestKey keyId nowMs) nowMs).getD 0 + 1 ≤ limit := by
  cases delivery with
  | answered =>
    refine ⟨rfl, ?_⟩
    simp only [consume] at h
    split at h
    · cases h
    · split at h
      · cases h
      · rename_i hcount
        rw [← Redis.incr_fst]
        exact not_lt.1 hcount
  | failed applied => cases h

/-- The window a refusal is about. -/
def RateLimitOutcome.windowSeconds : RateLimitOutcome → ℕ
  | abortBudgetExhausted => ABORT_BUDGET_WINDOW_SECONDS
  | _ => RATE_LIMIT_WINDOW_SECONDS

/-- The counter a refusal is about. -/
def RateLimitOutcome.counter (keyId : String) (ordinal : ℕ) : RateLimitOutcome → CounterKey
  | abortBudgetExhausted => .abort keyId ordinal
  | _ => .req keyId ordinal

theorem consume_retryAfterSeconds (redis : Redis) (keyId : String) (limit nowMs : ℕ)
    (delivery : Delivery) :
    (consume redis keyId limit nowMs delivery).1.retryAfterSeconds =
      secondsToWindowEnd nowMs
        (consume redis keyId limit nowMs delivery).1.outcome.windowSeconds := by
  cases delivery with
  | answered =>
    simp only [consume]
    split
    · rfl
    · split <;> rfl
  | failed applied => rfl

/-! ### A service and its keys -/

/-- The clock and the counters. -/
structure RateLimiter where
  nowMs : ℕ
  redis : Redis

/-- What happens. -/
inductive RateEvent
  | tick (ms : ℕ)
  | consume (keyId : String) (delivery : Delivery)
  | recordAbort (keyId : String) (delivery : Delivery)
  deriving DecidableEq

namespace RateLimiter

variable (limits : String → ℕ)

/-- One event, while the limit of every key stays what it is. -/
def step (s : RateLimiter) : RateEvent → Option RateLimiter
  | .tick ms => some { s with nowMs := s.nowMs + ms }
  | .consume keyId delivery =>
    some { s with redis := (Auth.consume s.redis keyId (limits keyId) s.nowMs delivery).2 }
  | .recordAbort keyId delivery =>
    some { s with redis := Auth.recordAbort s.redis keyId s.nowMs delivery }

/-- The answer a key gets in an event. -/
def decision? (keyId : String) (p : RateLimiter × RateEvent) : Option RateLimitDecision :=
  match p.2 with
  | .consume keyId' delivery =>
    if keyId' = keyId then
      some (Auth.consume p.1.redis keyId (limits keyId) p.1.nowMs delivery).1
    else none
  | _ => none

end RateLimiter

end ModelConnector.Auth
