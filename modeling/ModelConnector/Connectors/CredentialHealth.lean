import Mathlib.Logic.Function.Basic
import ModelConnector.Foundations.EcmaString

/-!
# The health of provider credentials

`check` and `checkCredential` of `ProviderCredentialHealthService`. A query is answered from the
cache, by a probe that is in flight, or by a probe of its own; the maps are keyed by the connector
and a digest of its credentials. `checkAdvertised` is a `check` for each name.

A probe comes to a state, or its promise rejects, whenever and however it likes: what the requests
and commands make of the answers they get is not part of the model. Once a probe has come to its
end, its result goes into the cache first, and its entry in the map of probes in flight is deleted
later. Other queries may run in between, but no time passes: the event loop does not go on before it
has run what follows a settled promise.
-/

namespace ModelConnector.Health

open Ecma

/-! ### The manifest -/

/-- `ManifestConnector`. -/
inductive ManifestConnector
  | deepseek
  | openrouter
  | claudeCode
  | cursor
  | groq
  | gemini
  | geminiApi
  deriving DecidableEq

namespace ManifestConnector

/-- The name of a connector. -/
def name : ManifestConnector → String
  | deepseek => "deepseek"
  | openrouter => "openrouter"
  | claudeCode => "claude-code"
  | cursor => "cursor"
  | groq => "groq"
  | gemini => "gemini"
  | geminiApi => "gemini-api"

/-- `required` of `PROVIDER_CREDENTIAL_MANIFEST`. -/
def required : ManifestConnector → Bool
  | deepseek => true
  | _ => false

/-- `source` of `PROVIDER_CREDENTIAL_MANIFEST`. -/
def source : ManifestConnector → String
  | deepseek => "DEEPSEEK_API_KEY or DEEPSEEK_API_KEY_* (protected deployment environment)"
  | openrouter => "Vault-managed deployment secret → OPENROUTER_API_KEY or OPENROUTER_API_KEY_*"
  | claudeCode => "Docker auth volume claude-auth mounted at ~/.claude"
  | cursor =>
    "Docker auth volumes cursor-auth (~/.cursor) and cursor-config (~/.config/cursor), or " ++
      "CURSOR_API_KEY"
  | groq => "GROQ_API_KEY (protected deployment environment)"
  | gemini => "Gemini CLI auth profile in the process HOME"
  | geminiApi => "GEMINI_API_KEY (protected deployment environment)"

/-- `sharedName` of `credentialFor`; the other connectors have no credential of their own. -/
def sharedName? : ManifestConnector → Option String
  | openrouter => some "OPENROUTER_API_KEY"
  | deepseek => some "DEEPSEEK_API_KEY"
  | groq => some "GROQ_API_KEY"
  | geminiApi => some "GEMINI_API_KEY"
  | _ => none

end ManifestConnector

/-- `isManaged`, with the connector. -/
def managed? (connector : String) : Option ManifestConnector :=
  [.deepseek, .openrouter, .claudeCode, .cursor, .groq, .gemini, .geminiApi].find? fun c ↦
    c.name = connector

/-! ### Credentials and keys -/

/-- A credential is a text that is not empty. -/
abbrev Credential :=
  {t : Text // t ≠ []}

/-- `value.trim() || undefined`. -/
def trimmed? (value : Text) : Option Credential :=
  if h : trim value = [] then none else some ⟨trim value, h⟩

/-- What is probed: the credential of a connector, if it has one, or a profile without one. -/
inductive Probed
  | credentials (credential : Option Credential)
  | missingProfile
  deriving DecidableEq

/-- `cacheKey`, and the key of a profile without a credential. -/
def cacheKey (sha256 : Text → Text) (connector : ManifestConnector) : Probed → Text
  | .credentials credential =>
    ascii connector.name ++ 0x3A :: sha256 ([0].intercalate (credential.toList.map Subtype.val))
  | .missingProfile => ascii connector.name ++ 0x3A :: ascii "missing-profile"

/-! ### Probes and queries -/

/-- `CredentialProbeState`. -/
inductive CredentialProbeState
  | ready
  | missing
  | rejected
  | unavailable
  deriving DecidableEq

/-- `ProviderCredentialHealth`. -/
structure ProviderCredentialHealth where
  connector : ManifestConnector
  required : Bool
  state : CredentialProbeState
  source : String
  checkedAt : ℕ
  deriving DecidableEq

/-- What is made of the state that a probe comes to. -/
def healthOf (connector : ManifestConnector) (state : CredentialProbeState) (now : ℕ) :
    ProviderCredentialHealth where
  connector := connector
  required := connector.required
  state := state
  source := connector.source
  checkedAt := now

/-- An entry of `cache`. -/
structure CacheEntry where
  result : ProviderCredentialHealth
  storedAt : ℕ
  deriving DecidableEq

/-- How a probe ends: with a state, or its promise rejects. -/
abbrev ProbeOutcome :=
  Option CredentialProbeState

/-- Where a probe stands. -/
inductive ProbePhase
  | running
  /-- It has ended at a time, and `finally` is still to come. -/
  | settled (outcome : ProbeOutcome) (endedAt : ℕ)
  | released (outcome : ProbeOutcome) (endedAt : ℕ)
  deriving DecidableEq

/-- How and when a probe ended. -/
def ProbePhase.ended? : ProbePhase → Option (ProbeOutcome × ℕ)
  | .running => none
  | .settled outcome endedAt => some (outcome, endedAt)
  | .released outcome endedAt => some (outcome, endedAt)

/-- A probe is on its way, or what follows its end is. -/
def ProbePhase.isHeld : ProbePhase → Bool
  | .running | .settled _ _ => true
  | .released _ _ => false

/-- A probe. -/
structure Probe where
  connector : ManifestConnector
  probed : Probed
  phase : ProbePhase := .running
  deriving DecidableEq

/-- The key of a probe. -/
def Probe.key (sha256 : Text → Text) (p : Probe) : Text :=
  cacheKey sha256 p.connector p.probed

/-- What a query is answered with. -/
inductive QueryAnswer
  | cached (result : ProviderCredentialHealth)
  /-- The result of a probe, whenever there is one. -/
  | awaits (id : ℕ)
  deriving DecidableEq

/-- A query, and when it was made. -/
structure Query where
  connector : ManifestConnector
  probed : Probed
  madeAt : ℕ
  answer : QueryAnswer
  deriving DecidableEq

/-- `CACHE_TTL_MS`. -/
def CACHE_TTL_MS : ℕ :=
  30000

/-- The clock, the environment, the maps of the service, and the probes and queries in the order
they began. -/
structure HealthState where
  now : ℕ := 0
  env : String → Option Text := fun _ ↦ none
  cache : Text → Option CacheEntry := fun _ ↦ none
  inFlight : Text → Option ℕ := fun _ ↦ none
  probes : List Probe := []
  queries : List Query := []

/-- What happens: time passes, a variable changes, a query is made, a probe comes to its end, or
what follows that is done. -/
inductive HealthEvent
  | tick (ms : ℕ)
  | setEnv (name : String) (value : Option Text)
  | check (connector : String) (force : Bool)
  | checkCredential (connector : String) (credential : Text) (force : Bool)
  | settle (id : ℕ) (outcome : ProbeOutcome)
  | release (id : ℕ)
  deriving DecidableEq

namespace HealthState

variable (sha256 : Text → Text) (s : HealthState)

/-- `httpCredentials`. -/
def httpCredentials (connector : ManifestConnector) : Option Credential :=
  (connector.sharedName?.bind s.env).bind trimmed?

/-- The entry of a key that has not expired. -/
def fresh? (key : Text) : Option CacheEntry :=
  (s.cache key).filter fun entry ↦ decide (s.now < entry.storedAt + CACHE_TTL_MS)

/-- A query is made, and answered with something. -/
def ask (connector : ManifestConnector) (probed : Probed) (answer : QueryAnswer) : HealthState :=
  { s with queries := s.queries ++ [{ connector, probed, madeAt := s.now, answer }] }

/-- A probe begins. -/
def startProbe (connector : ManifestConnector) (probed : Probed) : HealthState :=
  { s with
    probes := s.probes ++ [{ connector, probed }]
    inFlight :=
      Function.update s.inFlight (cacheKey sha256 connector probed) (some s.probes.length) }

/-- `checkCached`. -/
def checkCached (connector : ManifestConnector) (probed : Probed) (force : Bool) : HealthState :=
  let key := cacheKey sha256 connector probed
  match (if force then none else s.fresh? key) with
  | some entry => s.ask connector probed (.cached entry.result)
  | none =>
    match s.inFlight key with
    | some current => s.ask connector probed (.awaits current)
    | none =>
      (s.startProbe sha256 connector probed).ask connector probed (.awaits s.probes.length)

/-- `check`. -/
def check (connector : String) (force : Bool) : HealthState :=
  match managed? connector with
  | none => s
  | some c => s.checkCached sha256 c (.credentials (s.httpCredentials c)) force

/-- `checkCredential`. -/
def checkCredential (connector : String) (credential : Text) (force : Bool) : HealthState :=
  match managed? connector with
  | some c =>
    if c = .deepseek ∨ c = .openrouter then
      match trimmed? credential with
      | none => s.checkCached sha256 c .missingProfile force
      | some value => s.checkCached sha256 c (.credentials (some value)) force
    else s
  | none => s

/-- A probe moves on. -/
def setPhase (id : ℕ) (p : Probe) (phase : ProbePhase) : HealthState :=
  { s with probes := s.probes.set id { p with phase } }

/-- A probe comes to its end; its result, if it has one, goes into the cache. -/
def settle (id : ℕ) (outcome : ProbeOutcome) (p : Probe) : Option HealthState :=
  match p.phase with
  | .running =>
    match outcome with
    | some state =>
      some ({ s with
        cache := Function.update s.cache (p.key sha256)
          (some ⟨healthOf p.connector state s.now, s.now⟩) }.setPhase id p (.settled outcome s.now))
    | none => some (s.setPhase id p (.settled outcome s.now))
  | _ => none

/-- `finally`. -/
def release (id : ℕ) (p : Probe) : Option HealthState :=
  match p.phase with
  | .settled outcome endedAt =>
    let s' := s.setPhase id p (.released outcome endedAt)
    if s.inFlight (p.key sha256) = some id then
      some { s' with inFlight := Function.update s.inFlight (p.key sha256) none }
    else some s'
  | _ => none

/-- A probe has ended, and what follows has not run. -/
def isSettling : Bool :=
  s.probes.any fun p ↦ match p.phase with
    | .settled _ _ => true
    | _ => false

/-- One step. -/
def step : HealthEvent → Option HealthState
  | .tick ms => if s.isSettling then none else some { s with now := s.now + ms }
  | .setEnv name value => some { s with env := Function.update s.env name value }
  | .check connector force => some (s.check sha256 connector force)
  | .checkCredential connector credential force =>
    some (s.checkCredential sha256 connector credential force)
  | .settle id outcome => s.probes[id]?.bind (s.settle sha256 id outcome)
  | .release id => s.probes[id]?.bind (s.release sha256 id)

end HealthState

end ModelConnector.Health
