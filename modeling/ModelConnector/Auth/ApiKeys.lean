import Mathlib.Data.List.Basic
import Mathlib.Logic.Function.Basic

/-!
# The keys of callers

`AuthService.validateKey` finds the key a caller presents. Each process keeps a **memo** of what it
has found under the digest of the raw key, positive entries for five minutes and negative ones for
one; a positive hit reads the `active` column again. Without a hit the active rows of `ApiKey` are
compared one by one. `AdminService.createKey` and `revokeKey` write the table and flush the memo of
their own process only.

A call is kept in the phase it waits in. A query takes effect at one moment and the call goes on at
a later one, and between the two, as between two comparisons, anything else may happen. `sha256Hex`,
`hash` and `compare` are parameters: the digest of a memo key, and the two functions of bcrypt.

Left out of a row are the columns neither function reads.
-/

namespace ModelConnector.Auth

def VERIFY_CACHE_TTL_MS : ℕ :=
  5 * 60000

def VERIFY_NEGATIVE_TTL_MS : ℕ :=
  60000

/-- Who a key stands for. -/
structure Identity where
  id : String
  name : String
  deriving DecidableEq

/-- A row of `ApiKey`. -/
structure ApiKeyRow where
  id : String
  name : String
  keyHash : String
  active : Bool
  deriving DecidableEq

/-- `active: false`, for the row of the id. -/
def ApiKeyRow.deactivate (id : String) (row : ApiKeyRow) : ApiKeyRow :=
  if row.id = id then { row with active := false } else row

/-- An entry of the memo. -/
structure VerifyEntry where
  identity : Option Identity
  expiresAt : ℕ
  deriving DecidableEq

/-- `verifyCache`, by the digest of the raw key. -/
abbrev VerifyCache :=
  String → Option VerifyEntry

/-- Where a call stands. -/
inductive AuthPhase
  /-- `validateKey`: `findUnique` is sent for a positive hit. -/
  | rechecking (rawKey : String) (identity : Identity)
  /-- `validateKey`: it has read the `active` column, if there is such a row. -/
  | rechecked (rawKey : String) (identity : Identity) (active : Option Bool)
  /-- `validateKey`: `findMany` is sent. -/
  | scanning (rawKey : String)
  /-- `validateKey`: the rows that are still to be compared. -/
  | comparing (rawKey : String) (keys : List ApiKeyRow)
  /-- `validateKey` has returned. -/
  | validated (rawKey : String) (identity : Option Identity)
  /-- `createKey`: the insert is sent, with the id and the salt that were drawn. -/
  | creating (id name rawKey salt : String)
  /-- `createKey`: the row is there. -/
  | inserted (id name rawKey : String)
  /-- `createKey` has returned. -/
  | created (id name key : String)
  /-- `revokeKey`: `findUnique` is sent. -/
  | finding (id : String)
  /-- `revokeKey`: whether there is such a row. -/
  | found (id : String) (row : Bool)
  /-- `revokeKey`: the update is sent. -/
  | updating (id : String)
  /-- `revokeKey`: the update is done. -/
  | updated (id : String)
  /-- `revokeKey` has returned. -/
  | revoked (id : String)
  /-- The call has thrown. -/
  | threw
  deriving DecidableEq

/-- A call and the process it runs in. -/
structure AuthCall where
  replica : ℕ
  phase : AuthPhase
  deriving DecidableEq

/-- The table, the memos of the processes and the calls. `issued` is what the callers know and the
table does not: which raw key was drawn for which row. -/
structure AuthState where
  keys : List ApiKeyRow := []
  caches : ℕ → VerifyCache := fun _ _ ↦ none
  calls : ℕ → Option AuthCall := fun _ ↦ none
  issued : List (String × Identity) := []

namespace AuthState

variable (s : AuthState)

def setPhase (n replica : ℕ) (phase : AuthPhase) : AuthState :=
  { s with calls := Function.update s.calls n (some ⟨replica, phase⟩) }

/-- `verifyCache.set` and `verifyCache.delete`. -/
def setEntry (replica : ℕ) (cacheKey : String) (entry : Option VerifyEntry) : AuthState :=
  { s with
    caches := Function.update s.caches replica
      (Function.update (s.caches replica) cacheKey entry) }

def flushVerifyCache (replica : ℕ) : AuthState :=
  { s with caches := Function.update s.caches replica fun _ ↦ none }

/-- `apiKey.create`. -/
def insert (row : ApiKeyRow) (rawKey : String) : AuthState :=
  { s with keys := s.keys ++ [row], issued := (rawKey, ⟨row.id, row.name⟩) :: s.issued }

/-- `apiKey.update`. -/
def deactivate (id : String) : AuthState :=
  { s with keys := s.keys.map (ApiKeyRow.deactivate id) }

end AuthState

/-- What happens: a call begins, its query takes effect, it goes on, or it fails. A process that is
started again has the memo of one that was flushed, and the calls it had do not go on. -/
inductive AuthEvent
  | validateKey (n replica : ℕ) (rawKey : String) (now : ℕ)
  | createKey (n replica : ℕ) (id name rawKey salt : String)
  | revokeKey (n replica : ℕ) (id : String)
  | query (n : ℕ)
  | resume (n now : ℕ)
  | fail (n : ℕ)
  | restart (replica : ℕ)
  deriving DecidableEq

section Calls

variable (sha256Hex : String → String) (hash : String → String → String)
  (compare : String → String → Bool) (s : AuthState)

/-- `validateKey` up to its first `await`. -/
def validateKey (n replica : ℕ) (rawKey : String) (now : ℕ) : AuthState :=
  match s.caches replica (sha256Hex rawKey) with
  | some entry =>
    if now < entry.expiresAt then
      match entry.identity with
      | none => s.setPhase n replica (.validated rawKey none)
      | some identity => s.setPhase n replica (.rechecking rawKey identity)
    else s.setPhase n replica (.scanning rawKey)
  | none => s.setPhase n replica (.scanning rawKey)

/-- The query a call has sent takes effect. -/
def runQuery (n replica : ℕ) : AuthPhase → Option AuthState
  | .rechecking rawKey identity =>
    some (s.setPhase n replica (.rechecked rawKey identity
      ((s.keys.find? fun row ↦ row.id = identity.id).map (·.active))))
  | .scanning rawKey => some (s.setPhase n replica (.comparing rawKey (s.keys.filter (·.active))))
  | .creating id name rawKey salt =>
    -- `id` is the primary key of the table and `keyHash` is unique
    if s.keys.any fun row ↦ row.id = id ∨ row.keyHash = hash salt rawKey then
      some (s.setPhase n replica .threw)
    else some ((s.insert ⟨id, name, hash salt rawKey, true⟩ rawKey).setPhase n replica
      (.inserted id name rawKey))
  | .finding id =>
    some (s.setPhase n replica (.found id (s.keys.any fun row ↦ row.id = id)))
  | .updating id =>
    if s.keys.any fun row ↦ row.id = id then
      some ((s.deactivate id).setPhase n replica (.updated id))
    else some (s.setPhase n replica .threw)
  | _ => none

/-- A call goes on after what it waited for. -/
def resume (n replica now : ℕ) : AuthPhase → Option AuthState
  | .rechecked rawKey identity active =>
    if active = some true then some (s.setPhase n replica (.validated rawKey (some identity)))
    else some ((s.setEntry replica (sha256Hex rawKey) none).setPhase n replica
      (.validated rawKey none))
  | .comparing rawKey (key :: keys) =>
    if compare rawKey key.keyHash then
      let identity : Identity := ⟨key.id, key.name⟩
      some ((s.setEntry replica (sha256Hex rawKey)
        (some ⟨some identity, now + VERIFY_CACHE_TTL_MS⟩)).setPhase n replica
          (.validated rawKey (some identity)))
    else some (s.setPhase n replica (.comparing rawKey keys))
  | .comparing rawKey [] =>
    some ((s.setEntry replica (sha256Hex rawKey)
      (some ⟨none, now + VERIFY_NEGATIVE_TTL_MS⟩)).setPhase n replica (.validated rawKey none))
  | .inserted id name rawKey =>
    some ((s.flushVerifyCache replica).setPhase n replica (.created id name rawKey))
  | .found id row => some (s.setPhase n replica (if row then .updating id else .threw))
  | .updated id => some ((s.flushVerifyCache replica).setPhase n replica (.revoked id))
  | _ => none

/-- One step of the processes and their table. -/
def authStep : AuthEvent → Option AuthState
  | .validateKey n replica rawKey now =>
    if (s.calls n).isNone then some (validateKey sha256Hex s n replica rawKey now) else none
  | .createKey n replica id name rawKey salt =>
    if (s.calls n).isNone then some (s.setPhase n replica (.creating id name rawKey salt)) else none
  | .revokeKey n replica id =>
    if (s.calls n).isNone then some (s.setPhase n replica (.finding id)) else none
  | .query n => (s.calls n).bind fun call ↦ runQuery hash s n call.replica call.phase
  | .resume n now =>
    (s.calls n).bind fun call ↦ resume sha256Hex compare s n call.replica now call.phase
  | .fail n => (s.calls n).map fun call ↦
    match call.phase with
    | .validated .. | .created .. | .revoked .. => s
    | _ => s.setPhase n call.replica .threw
  | .restart replica => some (s.flushVerifyCache replica)

end Calls

/-! ### What the steps leave alone -/

section Frame

variable {s : AuthState} {n replica : ℕ} {phase : AuthPhase} {id : String} {row : ApiKeyRow}

@[simp]
theorem ApiKeyRow.deactivate_id : (row.deactivate id).id = row.id := by
  rw [deactivate, apply_ite ApiKeyRow.id, ite_self]

@[simp]
theorem ApiKeyRow.deactivate_name : (row.deactivate id).name = row.name := by
  rw [deactivate, apply_ite ApiKeyRow.name, ite_self]

@[simp]
theorem ApiKeyRow.deactivate_keyHash : (row.deactivate id).keyHash = row.keyHash := by
  rw [deactivate, apply_ite ApiKeyRow.keyHash, ite_self]

theorem ApiKeyRow.deactivate_active_self (h : row.id = id) :
    (row.deactivate id).active = false := by
  rw [deactivate, if_pos h]

theorem ApiKeyRow.deactivate_active (h : row.active = false) :
    (row.deactivate id).active = false := by
  rw [deactivate, apply_ite ApiKeyRow.active, h, ite_self]

@[simp]
theorem AuthState.setPhase_keys : (s.setPhase n replica phase).keys = s.keys :=
  rfl

@[simp]
theorem AuthState.setPhase_caches : (s.setPhase n replica phase).caches = s.caches :=
  rfl

@[simp]
theorem AuthState.setPhase_issued : (s.setPhase n replica phase).issued = s.issued :=
  rfl

@[simp]
theorem AuthState.setPhase_calls_self :
    (s.setPhase n replica phase).calls n = some ⟨replica, phase⟩ :=
  Function.update_self ..

theorem AuthState.setPhase_calls_ne {m : ℕ} (h : m ≠ n) :
    (s.setPhase n replica phase).calls m = s.calls m :=
  Function.update_of_ne h ..

/-- After a phase is set, a call is the one it was set for or one there was. -/
theorem AuthState.calls_of_setPhase {m : ℕ} {call : AuthCall}
    (h : (s.setPhase n replica phase).calls m = some call) :
    m = n ∧ call = ⟨replica, phase⟩ ∨ m ≠ n ∧ s.calls m = some call := by
  change Function.update s.calls n (some ⟨replica, phase⟩) m = some call at h
  rcases eq_or_ne m n with rfl | hne
  · rw [Function.update_self] at h
    exact .inl ⟨rfl, (Option.some.inj h).symm⟩
  · rw [Function.update_of_ne hne] at h
    exact .inr ⟨hne, h⟩

/-- After an entry is set, an entry is that one or one there was. -/
theorem AuthState.caches_of_setEntry {cacheKey cacheKey' : String} {entry : Option VerifyEntry}
    {replica' : ℕ} {entry' : VerifyEntry}
    (h : (s.setEntry replica cacheKey entry).caches replica' cacheKey' = some entry') :
    cacheKey' = cacheKey ∧ entry = some entry' ∨ s.caches replica' cacheKey' = some entry' := by
  change Function.update s.caches replica (Function.update (s.caches replica) cacheKey entry)
    replica' cacheKey' = some entry' at h
  rcases eq_or_ne replica' replica with rfl | hne
  · rw [Function.update_self] at h
    rcases eq_or_ne cacheKey' cacheKey with rfl | hne
    · rw [Function.update_self] at h
      exact .inl ⟨rfl, h⟩
    · rw [Function.update_of_ne hne] at h
      exact .inr h
  · rw [Function.update_of_ne hne] at h
    exact .inr h

/-- After a flush, an entry is one there was. -/
theorem AuthState.caches_of_flush {replica' : ℕ} {cacheKey : String} {entry : VerifyEntry}
    (h : (s.flushVerifyCache replica).caches replica' cacheKey = some entry) :
    s.caches replica' cacheKey = some entry := by
  change Function.update s.caches replica (fun _ ↦ none) replica' cacheKey = some entry at h
  rcases eq_or_ne replica' replica with rfl | hne
  · rw [Function.update_self] at h
    cases h
  · rwa [Function.update_of_ne hne] at h

end Frame

end ModelConnector.Auth
