import ModelConnector.Connectors.CatalogView
import ModelConnector.Foundations.EcmaString
import ModelConnector.Foundations.Keyed
import ModelConnector.Foundations.Members
import ModelConnector.Foundations.Splits

/-!
# The access table of the providers

`ProviderAccessService`: the cached map of the table `provider_access`, its refreshes, and the
seeding of the table from the configuration. A refresh reads the clock and asks for the rows in one
go; the database reads them at some later moment, and the map is installed after that. Several
refreshes and several seedings may be on their way at once, and what the database answers comes in
any order. Administrators change the table as they like.

A moment is the number of events so far. The moments are what "before" means for the claims on the
service; the code has no such number.
-/

namespace ModelConnector.Access

open Ecma Connectors

deriving instance DecidableEq for ProviderAccess

/-! ### Configuration -/

/-- A map, in the order of insertion. -/
abbrev AccessMap :=
  List (Text × ProviderAccess)

/-- `DEFAULT_PROVIDER_ACCESS`. -/
def DEFAULT_PROVIDER_ACCESS : ProviderAccess where
  read := true
  use := true

/-- `toLowerCase`, as far as it matters for a comparison with `none`, `read` and `use`: nothing but
ASCII becomes one of their letters. -/
def toLowerCase (t : Text) : Text :=
  t.map fun u ↦ if 0x41 ≤ u.val && u.val ≤ 0x5A then u + 0x20 else u

/-- The access that a level stands for. -/
def levelAccess? (level : Text) : Option ProviderAccess :=
  if level = ascii "none" then some { read := false, use := false }
  else if level = ascii "read" then some { read := true, use := false }
  else if level = ascii "use" then some { read := true, use := true }
  else none

/-- The name and the level of an entry, `name` or `name:level`. -/
def splitEntry (raw : Text) : Text × Text :=
  let name := trim (raw.takeWhile (· ≠ 0x3A))
  match raw.dropWhile (· ≠ 0x3A) with
  | [] => (name, ascii "use")
  | _ :: rest =>
    let level := toLowerCase (trim rest)
    (name, if level = [] then ascii "use" else level)

/-- What an entry adds to the map. -/
def addEntry (map : AccessMap) (raw : Text) : AccessMap :=
  let (name, level) := splitEntry raw
  if name = [] then map
  else
    match levelAccess? level with
    | some access => Members.set map name access
    | none => map

/-- `parseProviderAccess`. -/
def parseProviderAccess (csv : Text) : AccessMap :=
  if trim csv = [] then []
  else (((Splits.split [0x2C] csv).map trim).filter (· ≠ [])).foldl addEntry []

/-- `resolveProviderAccess`. -/
def resolveProviderAccess (map : AccessMap) (name : Text) : ProviderAccess :=
  (map.lookup name).getD DEFAULT_PROVIDER_ACCESS

/-! ### The table -/

/-- A row of `provider_access`. -/
structure AccessRow where
  provider : Text
  readEnabled : Bool
  useEnabled : Bool
  deriving DecidableEq

/-- `provider_access`, whose key is the provider. -/
abbrev AccessTable :=
  Table AccessRow (Table.sameKey AccessRow.provider)

/-- The map of the rows. -/
def mapOf (table : AccessTable) : AccessMap :=
  table.rows.foldl
    (fun map row ↦ Members.set map row.provider { read := row.readEnabled, use := row.useEnabled })
    []

/-! ### Refreshes and seedings -/

/-- Where a refresh stands. -/
inductive RefreshPhase
  | reading
  /-- The database has read the rows at a moment. -/
  | read (rows : AccessTable) (readAt : ℕ)
  | installed
  | rejected

/-- A refresh that was not debounced. -/
structure Refresh where
  forced : Bool
  /-- `now`. -/
  now : ℕ
  begunAt : ℕ
  phase : RefreshPhase := .reading

/-- The rows of a refresh were read before a moment, and they are not installed yet. -/
def Refresh.readBefore (r : Refresh) (moment : ℕ) : Bool :=
  match r.phase with
  | .read _ readAt => decide (readAt < moment)
  | _ => false

/-- The promise of a refresh is fulfilled. -/
def Refresh.isCompleted (r : Refresh) : Bool :=
  match r.phase with
  | .installed => true
  | _ => false

/-- Where a seeding stands, with the names it still has to come to. -/
inductive SeedPhase
  /-- `findUnique` of a name. -/
  | finding (name : Text) (rest : List Text)
  /-- `create` of a name. -/
  | creating (name : Text) (rest : List Text)
  /-- The names are done, and what is left is the refresh with an index. -/
  | refreshing (id : ℕ)
  | rejected

/-- A call of `seedDefaults`. -/
structure Seeding where
  parsed : AccessMap
  phase : SeedPhase

/-- The row that a seeding has for a name. -/
def Seeding.row (seeding : Seeding) (name : Text) : AccessRow :=
  let access := resolveProviderAccess seeding.parsed name
  { provider := name, readEnabled := access.read, useEnabled := access.use }

/-! ### The service -/

/-- `REFRESH_DEBOUNCE_MS`. -/
def REFRESH_DEBOUNCE_MS : ℕ :=
  60000

/-- The clock, the configuration, the table, the fields of the service, and its refreshes and
seedings in the order they began. -/
structure AccessState where
  moment : ℕ := 0
  clock : ℕ := 0
  /-- `getConfig().PROVIDER_ACCESS`, once the environment is validated. -/
  csv : Option Text := none
  table : AccessTable := .empty
  cache : Option AccessMap := none
  cachedAt : ℕ := 0
  refreshes : List Refresh := []
  seedings : List Seeding := []

/-- What happens. -/
inductive AccessEvent
  | setClock (now : ℕ)
  | configure (csv : Option Text)
  /-- An administrator changes the table. -/
  | administer (table : AccessTable)
  /-- `refresh` is called. -/
  | refresh (force : Bool)
  /-- The database reads the rows for a refresh, or it fails to. -/
  | query (id : ℕ)
  | queryFails (id : ℕ)
  /-- A refresh goes on with its rows. -/
  | install (id : ℕ)
  /-- `seedDefaults` is called. -/
  | seed (providerNames : List Text)
  /-- The database answers `findUnique`, or it fails to. -/
  | find (id : ℕ)
  | findFails (id : ℕ)
  /-- The database answers `create`, or it fails to, whether or not it has made the row. -/
  | create (id : ℕ)
  | createFails (id : ℕ) (made : Bool)

namespace AccessState

variable (s : AccessState)

/-- `currentConfigCsv`. -/
def currentConfigCsv : Text :=
  s.csv.getD (ascii "openmodel:read")

/-- `configAccess`. -/
def configAccess (name : Text) : ProviderAccess :=
  resolveProviderAccess (parseProviderAccess s.currentConfigCsv) name

/-- `getAccess`. -/
def getAccess (name : Text) : ProviderAccess :=
  (s.cache.bind fun map ↦ map.lookup name).getD (s.configAccess name)

/-- `now - cachedAt < REFRESH_DEBOUNCE_MS`, of a cache that is there. -/
def debounced : Bool :=
  s.cache.isSome && decide (s.clock < s.cachedAt + REFRESH_DEBOUNCE_MS)

/-- A refresh begins. -/
def startRefresh (force : Bool) : AccessState :=
  { s with
    refreshes := s.refreshes ++ [{ forced := force, now := s.clock, begunAt := s.moment }] }

/-- `refresh`, as far as the query. -/
def refresh (force : Bool) : AccessState :=
  if !force && s.debounced then s else s.startRefresh force

/-- A refresh moves on. -/
def setPhase (id : ℕ) (r : Refresh) (phase : RefreshPhase) : AccessState :=
  { s with refreshes := s.refreshes.set id { r with phase } }

/-- A refresh goes on with its rows. -/
def install (id : ℕ) (r : Refresh) : Option AccessState :=
  match r.phase with
  | .read rows _ =>
    some { s.setPhase id r .installed with cache := some (mapOf rows), cachedAt := r.now }
  | _ => none

/-- The phase of a seeding that comes to the next of its names, and the refresh it begins when there
is none. -/
def nextName : List Text → AccessState × SeedPhase
  | name :: rest => (s, .finding name rest)
  | [] => (s.refresh true, .refreshing s.refreshes.length)

/-- `seedDefaults` is called. -/
def seed (providerNames : List Text) : AccessState :=
  let parsed := parseProviderAccess s.currentConfigCsv
  let (t, phase) := s.nextName (providerNames ++ parsed.map Prod.fst).eraseDups
  { t with seedings := s.seedings ++ [{ parsed, phase }] }

/-- A seeding is done with a name. -/
def proceed (id : ℕ) (seeding : Seeding) (rest : List Text) : AccessState :=
  let (t, phase) := s.nextName rest
  { t with seedings := s.seedings.set id { seeding with phase } }

/-- `findUnique` is answered. -/
def find (id : ℕ) (seeding : Seeding) : Option AccessState :=
  match seeding.phase with
  | .finding name rest =>
    match s.table.lookup name with
    | some _ => some (s.proceed id seeding rest)
    | none =>
      some { s with seedings := s.seedings.set id { seeding with phase := .creating name rest } }
  | _ => none

/-- `create` is answered or fails; a row of that name is there already, or it is made, or not. The
seeding goes on with the next name. -/
def create (id : ℕ) (seeding : Seeding) (made : Bool) : Option AccessState :=
  match seeding.phase with
  | .creating name rest =>
    let table := if made then (s.table.insert? (seeding.row name)).getD s.table else s.table
    some ({ s with table }.proceed id seeding rest)
  | _ => none

/-- What an event does, its moment apart. -/
def act : AccessEvent → Option AccessState
  | .setClock now => some { s with clock := now }
  | .configure csv => some { s with csv }
  | .administer table => some { s with table }
  | .refresh force => some (s.refresh force)
  | .query id => s.refreshes[id]?.bind fun r ↦
    match r.phase with
    | .reading => some (s.setPhase id r (.read s.table s.moment))
    | _ => none
  | .queryFails id => s.refreshes[id]?.bind fun r ↦
    match r.phase with
    | .reading => some (s.setPhase id r .rejected)
    | _ => none
  | .install id => s.refreshes[id]?.bind (s.install id)
  | .seed providerNames => some (s.seed providerNames)
  | .find id => s.seedings[id]?.bind (s.find id)
  | .findFails id => s.seedings[id]?.bind fun seeding ↦
    match seeding.phase with
    | .finding _ _ =>
      some { s with seedings := s.seedings.set id { seeding with phase := .rejected } }
    | _ => none
  | .create id => s.seedings[id]?.bind fun seeding ↦ s.create id seeding true
  | .createFails id made => s.seedings[id]?.bind fun seeding ↦ s.create id seeding made

/-- An event happens. -/
def step (e : AccessEvent) : Option AccessState :=
  (s.act e).map fun t ↦ { t with moment := s.moment + 1 }

end AccessState

end ModelConnector.Access
