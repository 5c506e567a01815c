import ModelConnector.Connectors.CredentialHealth
import ModelConnector.Foundations.Run

/-!
# One probe at a time

A probe is held by the map of probes in flight from its start until `finally`, under its key, and by
nothing else, so a key never has two of them. What an entry of the cache says is what a probe of its
key came to. A probe that rejects has written nothing and is not held, so the next query begins
anew. Queries go by the same keys, and different credentials have different keys as long as the
digest does not confuse them.
-/

namespace ModelConnector.Health

open Ecma

variable {sha256 : Text → Text} {s s' : HealthState} {connector connector' : ManifestConnector}
  {probed probed' : Probed} {key : Text} {id : ℕ} {p : Probe} {q : Query} {force : Bool}
  {outcome : ProbeOutcome} {endedAt : ℕ}

/-! ### Keys -/

/-- A probe answers a query: it is of the connector and the credentials of the query, and it has not
ended as long ago as an entry of the cache lasts. -/
structure Query.AnsweredBy (q : Query) (id : ℕ) (p : Probe) : Prop where
  connector : p.connector = q.connector
  probed : p.probed = q.probed
  recent : ∀ outcome endedAt, p.phase.ended? = some (outcome, endedAt) →
    q.madeAt < endedAt + CACHE_TTL_MS
  answer : match q.answer with
    | .cached result => ∃ state endedAt, p.phase.ended? = some (some state, endedAt) ∧
        result = healthOf p.connector state endedAt
    | .awaits id' => id' = id

/-- What the maps say about the probes, and what the probes say about the queries. -/
structure Tracks (sha256 : Text → Text) (s : HealthState) : Prop where
  held : ∀ {key : Text} {id : ℕ}, s.inFlight key = some id ↔
    ∃ p : Probe, s.probes[id]? = some p ∧ p.phase.isHeld = true ∧ p.key sha256 = key
  stored : ∀ {key : Text} {entry : CacheEntry}, s.cache key = some entry →
    ∃ (id : ℕ) (p : Probe) (state : CredentialProbeState), s.probes[id]? = some p ∧
    p.key sha256 = key ∧ p.phase.ended? = some (some state, entry.storedAt) ∧
    entry.result = healthOf p.connector state entry.storedAt
  settling : ∀ {id : ℕ} {p : Probe} {outcome : ProbeOutcome} {endedAt : ℕ}, s.probes[id]? = some p →
    p.phase = .settled outcome endedAt → endedAt = s.now
  made : ∀ q ∈ s.queries, q.madeAt ≤ s.now
  answered : ∀ q ∈ s.queries, ∃ (id : ℕ) (p : Probe), s.probes[id]? = some p ∧ q.AnsweredBy id p

theorem tracks_init : Tracks sha256 {} where
  held := by simp
  stored h := by cases h
  settling h := by simp at h
  made := by simp
  answered := by simp

end ModelConnector.Health
