import Mathlib.Data.List.Basic
import ModelConnector.Auth.KeyRateLimit

/-!
# The limit a key is held to

`resolveLimit` reads the `rateLimit` column behind a cache of ten seconds, and `setKeyRateLimit`
writes the column and drops the entry of its key. A call is kept in the phase it waits in: a query
takes effect at one moment and its call goes on at a later one, and anything else may happen in
between. Rows are also written by others.
-/

namespace ModelConnector.Auth

def LIMIT_CACHE_TTL_MS : ℕ :=
  10000

def FALLBACK_RATE_LIMIT : ℕ :=
  60

/-- An entry of `limitCache`. -/
structure CachedLimit where
  limit : ℕ
  expiresAt : ℕ
  deriving DecidableEq

/-- Where a call stands. -/
inductive LimitPhase
  /-- `resolveLimit`: `findUnique` is sent. -/
  | reading (keyId : String)
  /-- `resolveLimit`: it has read the `rateLimit` column, if there is such a row. -/
  | read (keyId : String) (row : Option ℕ)
  /-- `consume`: `resolveLimit` has returned. -/
  | resolved (keyId : String) (limit : ℕ)
  /-- `consume` has returned. -/
  | decided (keyId : String) (decision : RateLimitDecision)
  /-- `setKeyRateLimit`: `findUnique` is sent. -/
  | finding (id : String) (rateLimit : ℕ)
  /-- `setKeyRateLimit`: the row that was found. -/
  | found (id : String) (rateLimit : ℕ) (row : Option ℕ)
  /-- `setKeyRateLimit`: the update is sent. -/
  | updating (id : String) (rateLimit : ℕ)
  /-- `setKeyRateLimit`: the row is written. -/
  | updated (id : String)
  /-- `setKeyRateLimit` has returned. -/
  | set (id : String)
  /-- The call has thrown. -/
  | threw
  deriving DecidableEq

/-- The clock, the `rateLimit` columns, the cache, Redis, and the calls in the order they began. -/
structure LimitState where
  now : ℕ := 0
  rows : String → Option ℕ
  limitCache : String → Option CachedLimit := fun _ ↦ none
  redis : Redis := { counters := fun _ ↦ none }
  calls : List LimitPhase := []

/-- What happens: time passes, a call begins, its query takes effect, it goes on, it counts its
request, or it fails; a row is written by others, or the cache is flushed. -/
inductive LimitEvent
  | tick (ms : ℕ)
  | consume (keyId : String)
  | setKeyRateLimit (id : String) (rateLimit : ℕ)
  | query (n : ℕ)
  | resume (n : ℕ)
  | count (n : ℕ) (delivery : Delivery)
  | fail (n : ℕ)
  | edit (id : String) (row : Option ℕ)
  | flushLimitCache
  deriving DecidableEq

/-- The limit a row stands for. -/
def limitOf (row : Option ℕ) : ℕ :=
  row.getD FALLBACK_RATE_LIMIT

namespace LimitState

variable (s : LimitState)

def enter (phase : LimitPhase) : LimitState :=
  { s with calls := s.calls ++ [phase] }

def setPhase (n : ℕ) (phase : LimitPhase) : LimitState :=
  { s with calls := s.calls.set n phase }

/-- `limitCache.set` and `limitCache.delete`. -/
def setEntry (keyId : String) (entry : Option CachedLimit) : LimitState :=
  { s with limitCache := Function.update s.limitCache keyId entry }

/-- `apiKey.update`, and other writers. -/
def setRow (id : String) (row : Option ℕ) : LimitState :=
  { s with rows := Function.update s.rows id row }

/-- The entry of a key that has not expired. -/
def cached (keyId : String) : Option CachedLimit :=
  (s.limitCache keyId).filter fun entry ↦ decide (s.now < entry.expiresAt)

/-- The query of a call takes effect. -/
def runQuery (n : ℕ) : LimitPhase → Option LimitState
  | .reading keyId => some (s.setPhase n (.read keyId (s.rows keyId)))
  | .finding id rateLimit => some (s.setPhase n (.found id rateLimit (s.rows id)))
  | .updating id rateLimit =>
    -- a row that is gone is not updated, and the query fails
    match s.rows id with
    | none => some (s.setPhase n .threw)
    | some _ => some ((s.setRow id (some rateLimit)).setPhase n (.updated id))
  | _ => none

/-- A call goes on with what its query has returned. -/
def resumeCall (n : ℕ) : LimitPhase → Option LimitState
  | .read keyId row =>
    some ((s.setEntry keyId (some ⟨limitOf row, s.now + LIMIT_CACHE_TTL_MS⟩)).setPhase n
      (.resolved keyId (limitOf row)))
  | .found _ _ none => some (s.setPhase n .threw)
  | .found id rateLimit (some _) => some (s.setPhase n (.updating id rateLimit))
  -- `invalidateLimit`
  | .updated id => some ((s.setEntry id none).setPhase n (.set id))
  | _ => none

/-- A query of a call fails. -/
def failCall (n : ℕ) : LimitPhase → Option LimitState
  | .reading _ | .finding _ _ | .updating _ _ | .updated _ => some (s.setPhase n .threw)
  | _ => none

/-- One step. -/
def step (s : LimitState) : LimitEvent → Option LimitState
  | .tick ms => some { s with now := s.now + ms }
  | .consume keyId =>
    match s.cached keyId with
    | some entry => some (s.enter (.resolved keyId entry.limit))
    | none => some (s.enter (.reading keyId))
  | .setKeyRateLimit id rateLimit => some (s.enter (.finding id rateLimit))
  | .query n => s.calls[n]?.bind (s.runQuery n)
  | .resume n => s.calls[n]?.bind (s.resumeCall n)
  | .count n delivery =>
    match s.calls[n]? with
    | some (.resolved keyId limit) =>
      let (decision, redis) := Auth.consume s.redis keyId limit s.now delivery
      some ({ s with redis }.setPhase n (.decided keyId decision))
    | _ => none
  | .fail n => s.calls[n]?.bind (s.failCall n)
  | .edit id row => some (s.setRow id row)
  | .flushLimitCache => some { s with limitCache := fun _ ↦ none }

end LimitState

/-- The key a call has a limit of, and the limit. -/
def LimitPhase.limit? : LimitPhase → Option (String × ℕ)
  | .resolved keyId limit => some (keyId, limit)
  | .decided keyId decision => some (keyId, decision.limit)
  | _ => none

/-- A decision is made with the limit that was resolved. -/
theorem limit_consume (redis : Redis) (keyId : String) (limit nowMs : ℕ) (delivery : Delivery) :
    (consume redis keyId limit nowMs delivery).1.limit = limit := by
  unfold consume
  cases delivery with
  | answered =>
    dsimp only
    split_ifs <;> rfl
  | failed applied => rfl

end ModelConnector.Auth
