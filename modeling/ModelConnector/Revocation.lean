import ModelConnector.Foundations.Run
import ModelConnector.Auth.ApiKeys

/-!
# A revoked key is refused at once

A call that begins after the update of `revokeKey` has taken effect finds nothing for the key,
whatever the memo of its process holds: a positive entry has the `active` column read again, a
negative one refuses, and a scan reads active rows only. A scan that began before may still put an
entry into its memo after the revocation, and that entry is not believed.

Two invariants carry this. `Sound` says that whatever the table, a memo or a call says of a raw key
is about a row the key was issued for; every state has it. `Barred` says of a row and a call that
the row is inactive and the call cannot end with it; it begins with the call and every step keeps
it.
-/

namespace ModelConnector.Auth

variable {sha256Hex : String → String} {hash : String → String → String}
  {compare : String → String → Bool} {s s' : AuthState} {e : AuthEvent}
  {n replica : ℕ} {phase : AuthPhase} {rawKey : String}

/-- The raw key was drawn for the key of this identity. -/
def AuthState.Issued (s : AuthState) (rawKey : String) (identity : Identity) : Prop :=
  (rawKey, identity) ∈ s.issued

/-! ### What is known of a raw key is about the row it was issued for -/

section Sound

variable (hash) in
/-- A row holds the hash of a key that was issued for it. -/
def RowSound (issued : List (String × Identity)) (row : ApiKeyRow) : Prop :=
  ∃ rawKey salt, row.keyHash = hash salt rawKey ∧ (rawKey, ⟨row.id, row.name⟩) ∈ issued

variable (hash) in
/-- What a call knows of its raw key is about a row the key was issued for. -/
def PhaseSound (issued : List (String × Identity)) : AuthPhase → Prop
  | .rechecking rawKey identity => (rawKey, identity) ∈ issued
  | .rechecked rawKey identity _ => (rawKey, identity) ∈ issued
  | .comparing _ keys => ∀ row ∈ keys, RowSound hash issued row
  | .validated rawKey identity => ∀ found, identity = some found → (rawKey, found) ∈ issued
  | _ => True

variable (sha256Hex hash) in
/-- Rows, memos and calls are about the rows the keys were issued for. -/
structure Sound (s : AuthState) : Prop where
  row : ∀ row ∈ s.keys, RowSound hash s.issued row
  entry : ∀ replica cacheKey entry identity, s.caches replica cacheKey = some entry →
    entry.identity = some identity → ∃ rawKey, cacheKey = sha256Hex rawKey ∧
      s.Issued rawKey identity
  call : ∀ n call, s.calls n = some call → PhaseSound hash s.issued call.phase

variable {issued issued' : List (String × Identity)}

theorem RowSound.mono {row : ApiKeyRow} (h : RowSound hash issued row)
    (hsub : issued ⊆ issued') : RowSound hash issued' row := by
  obtain ⟨rawKey, salt, hrow, hmem⟩ := h
  exact ⟨rawKey, salt, hrow, hsub hmem⟩

theorem PhaseSound.mono (h : PhaseSound hash issued phase) (hsub : issued ⊆ issued') :
    PhaseSound hash issued' phase := by
  cases phase with
  | rechecking rawKey identity => exact hsub h
  | rechecked rawKey identity active => exact hsub h
  | comparing rawKey keys => exact fun row hrow ↦ (h row hrow).mono hsub
  | validated rawKey identity => exact fun found hfound ↦ hsub (h found hfound)
  | _ => trivial

theorem sound_init : Sound sha256Hex hash {} where
  row _ hrow := by cases hrow
  entry _ _ _ _ hentry := by cases hentry
  call _ _ hcall := by cases hcall

namespace Sound

theorem setPhase (h : Sound sha256Hex hash s) (hphase : PhaseSound hash s.issued phase) :
    Sound sha256Hex hash (s.setPhase n replica phase) where
  row := h.row
  entry := h.entry
  call m call hcall := by
    rcases AuthState.calls_of_setPhase hcall with ⟨-, rfl⟩ | ⟨-, hcall⟩
    · exact hphase
    · exact h.call m call hcall

theorem setEntry {entry : Option VerifyEntry} (h : Sound sha256Hex hash s)
    (hentry : ∀ identity, (entry.bind (·.identity)) = some identity →
      s.Issued rawKey identity) :
    Sound sha256Hex hash (s.setEntry replica (sha256Hex rawKey) entry) where
  row := h.row
  entry replica' cacheKey entry' identity hcached hidentity := by
    rcases AuthState.caches_of_setEntry hcached with ⟨rfl, rfl⟩ | hcached
    · exact ⟨rawKey, rfl, hentry identity hidentity⟩
    · exact h.entry replica' cacheKey entry' identity hcached hidentity
  call := h.call

theorem flushVerifyCache (h : Sound sha256Hex hash s) :
    Sound sha256Hex hash (s.flushVerifyCache replica) where
  row := h.row
  entry replica' cacheKey entry identity hcached :=
    h.entry replica' cacheKey entry identity (AuthState.caches_of_flush hcached)
  call := h.call

theorem insert {id name salt : String} (h : Sound sha256Hex hash s) :
    Sound sha256Hex hash (s.insert ⟨id, name, hash salt rawKey, true⟩ rawKey) where
  row row hrow := by
    rcases List.mem_append.1 hrow with hrow | hrow
    · exact (h.row row hrow).mono (List.subset_cons_self _ _)
    · rw [List.mem_singleton.1 hrow]
      exact ⟨rawKey, salt, rfl, List.mem_cons_self⟩
  entry replica cacheKey entry identity hcached hidentity := by
    obtain ⟨key, hkey, hissued⟩ := h.entry replica cacheKey entry identity hcached hidentity
    exact ⟨key, hkey, List.mem_cons_of_mem _ hissued⟩
  call n call hcall := (h.call n call hcall).mono (List.subset_cons_self _ _)

theorem deactivate {id : String} (h : Sound sha256Hex hash s) :
    Sound sha256Hex hash (s.deactivate id) where
  row row hrow := by
    obtain ⟨row₀, hrow₀, rfl⟩ := List.mem_map.1 hrow
    obtain ⟨rawKey, salt, hhash, hissued⟩ := h.row row₀ hrow₀
    exact ⟨rawKey, salt, by rw [ApiKeyRow.deactivate_keyHash, hhash],
      by rw [ApiKeyRow.deactivate_id, ApiKeyRow.deactivate_name]; exact hissued⟩
  entry := h.entry
  call := h.call

/-- What a call finds in the memo was issued for its raw key. -/
theorem validateKey (h : Sound sha256Hex hash s) (hinj : Function.Injective sha256Hex)
    {now : ℕ} : Sound sha256Hex hash (validateKey sha256Hex s n replica rawKey now) := by
  unfold Auth.validateKey
  split
  · rename_i entry hentry
    split_ifs
    · split
      · exact h.setPhase fun _ hfound ↦ by cases hfound
      · rename_i identity hidentity
        obtain ⟨key, hkey, hissued⟩ := h.entry _ _ _ _ hentry hidentity
        exact h.setPhase (show (rawKey, identity) ∈ s.issued from hinj hkey ▸ hissued)
    · exact h.setPhase trivial
  · exact h.setPhase trivial

theorem runQuery (h : Sound sha256Hex hash s) (hphase : PhaseSound hash s.issued phase)
    (hs : runQuery hash s n replica phase = some s') : Sound sha256Hex hash s' := by
  cases phase with
  | rechecking rawKey identity =>
    cases hs
    exact h.setPhase hphase
  | scanning rawKey =>
    cases hs
    exact h.setPhase fun row hrow ↦ h.row row (List.mem_filter.1 hrow).1
  | creating id name rawKey salt =>
    simp only [Auth.runQuery] at hs
    split_ifs at hs <;> cases hs
    · exact h.setPhase trivial
    · exact h.insert.setPhase trivial
  | finding id =>
    cases hs
    exact h.setPhase trivial
  | updating id =>
    simp only [Auth.runQuery] at hs
    split_ifs at hs <;> cases hs
    · exact h.deactivate.setPhase trivial
    · exact h.setPhase trivial
  | _ => cases hs

/-- A row that compares equal was issued for the raw key. -/
theorem resume (h : Sound sha256Hex hash s) (hphase : PhaseSound hash s.issued phase)
    (hexact : ∀ rawKey salt rawKey', compare rawKey (hash salt rawKey') = true ↔ rawKey = rawKey')
    {now : ℕ} (hs : resume sha256Hex compare s n replica now phase = some s') :
    Sound sha256Hex hash s' := by
  cases phase with
  | rechecked rawKey identity active =>
    simp only [Auth.resume] at hs
    split_ifs at hs <;> cases hs
    · exact h.setPhase fun found hfound ↦ Option.some.inj hfound ▸ hphase
    · exact (h.setEntry fun _ hnone ↦ by cases hnone).setPhase fun _ hfound ↦ by cases hfound
  | comparing rawKey keys =>
    cases keys with
    | nil =>
      cases hs
      exact (h.setEntry fun _ hnone ↦ by cases hnone).setPhase fun _ hfound ↦ by cases hfound
    | cons key keys =>
      simp only [Auth.resume] at hs
      split_ifs at hs with hmatch <;> cases hs
      · obtain ⟨rawKey', salt, hhash, hissued⟩ := hphase key List.mem_cons_self
        rw [hhash] at hmatch
        obtain rfl := (hexact _ _ _).1 hmatch
        exact (h.setEntry fun identity hidentity ↦ by cases hidentity; exact hissued).setPhase
          fun found hfound ↦ by cases hfound; exact hissued
      · exact h.setPhase fun row hrow ↦ hphase row (List.mem_cons_of_mem _ hrow)
  | inserted id name rawKey =>
    cases hs
    exact h.flushVerifyCache.setPhase trivial
  | found id row =>
    cases hs
    cases row with
    | false => exact h.setPhase trivial
    | true => exact h.setPhase trivial
  | updated id =>
    cases hs
    exact h.flushVerifyCache.setPhase trivial
  | _ => cases hs

theorem step (h : Sound sha256Hex hash s) (hinj : Function.Injective sha256Hex)
    (hexact : ∀ rawKey salt rawKey', compare rawKey (hash salt rawKey') = true ↔ rawKey = rawKey')
    (hs : authStep sha256Hex hash compare s e = some s') : Sound sha256Hex hash s' := by
  cases e with
  | validateKey n replica rawKey now =>
    simp only [authStep] at hs
    split_ifs at hs
    cases hs
    exact h.validateKey hinj
  | createKey n replica id name rawKey salt =>
    simp only [authStep] at hs
    split_ifs at hs
    cases hs
    exact h.setPhase trivial
  | revokeKey n replica id =>
    simp only [authStep] at hs
    split_ifs at hs
    cases hs
    exact h.setPhase trivial
  | query n =>
    obtain ⟨call, hcall, hs⟩ := Option.bind_eq_some_iff.1 hs
    exact h.runQuery (h.call n call hcall) hs
  | resume n now =>
    obtain ⟨call, hcall, hs⟩ := Option.bind_eq_some_iff.1 hs
    exact h.resume (h.call n call hcall) hexact hs
  | fail n =>
    obtain ⟨call, hcall, rfl⟩ := Option.map_eq_some_iff.1 hs
    split
    · exact h
    · exact h
    · exact h
    · exact h.setPhase trivial
  | restart replica =>
    cases hs
    exact h.flushVerifyCache

end Sound

end Sound

/-! ### A call that begins after the revocation -/

section Barred

variable {id : String}

/-- There is such a row, and it is inactive. -/
structure Revoked (id : String) (s : AuthState) : Prop where
  mem : ∃ row ∈ s.keys, row.id = id
  inactive : ∀ row ∈ s.keys, row.id = id → row.active = false

/-- The call looks for the raw key and does not end with the row. -/
def PhaseBarred (rawKey id : String) : AuthPhase → Prop
  | .rechecking rawKey' _ => rawKey' = rawKey
  | .rechecked rawKey' identity active =>
    rawKey' = rawKey ∧ (identity.id = id → active ≠ some true)
  | .scanning rawKey' => rawKey' = rawKey
  | .comparing rawKey' keys => rawKey' = rawKey ∧ ∀ row ∈ keys, row.id ≠ id
  | .validated rawKey' identity => rawKey' = rawKey ∧ ∀ found, identity = some found → found.id ≠ id
  | .threw => True
  | _ => False

/-- The row is inactive, and the call does not end with it. -/
structure Barred (rawKey id : String) (n : ℕ) (s : AuthState) : Prop where
  revoked : Revoked id s
  call : ∃ call, s.calls n = some call ∧ PhaseBarred rawKey id call.phase

theorem Revoked.insert {row : ApiKeyRow} (h : Revoked id s)
    (hfresh : ∀ row' ∈ s.keys, row'.id ≠ row.id) : Revoked id (s.insert row rawKey) := by
  obtain ⟨row₀, hrow₀, hid⟩ := h.mem
  refine ⟨⟨row₀, List.mem_append_left _ hrow₀, hid⟩, fun row' hrow' hid' ↦ ?_⟩
  rcases List.mem_append.1 hrow' with hrow' | hrow'
  · exact h.inactive row' hrow' hid'
  · rw [List.mem_singleton.1 hrow'] at hid'
    exact absurd (hid.trans hid'.symm) (hfresh row₀ hrow₀)

/-- The row an update makes inactive is inactive after it. -/
theorem revoked_deactivate (h : ∃ row ∈ s.keys, row.id = id) : Revoked id (s.deactivate id) := by
  obtain ⟨row₀, hrow₀, hid⟩ := h
  refine ⟨⟨_, List.mem_map_of_mem hrow₀, by rwa [ApiKeyRow.deactivate_id]⟩,
    fun row hrow hrowid ↦ ?_⟩
  obtain ⟨row', -, rfl⟩ := List.mem_map.1 hrow
  rw [ApiKeyRow.deactivate_id] at hrowid
  exact ApiKeyRow.deactivate_active_self hrowid

theorem Revoked.deactivate {id' : String} (h : Revoked id s) : Revoked id (s.deactivate id') := by
  obtain ⟨row₀, hrow₀, hid⟩ := h.mem
  refine ⟨⟨_, List.mem_map_of_mem hrow₀, by rwa [ApiKeyRow.deactivate_id]⟩,
    fun row hrow hrowid ↦ ?_⟩
  obtain ⟨row', hrow', rfl⟩ := List.mem_map.1 hrow
  rw [ApiKeyRow.deactivate_id] at hrowid
  exact ApiKeyRow.deactivate_active (h.inactive row' hrow' hrowid)

/-- What a query does to the table: it inserts a row under a new id, makes one inactive, or leaves
the rows as they are. -/
theorem Revoked.runQuery (h : Revoked id s) (hs : runQuery hash s n replica phase = some s') :
    Revoked id s' := by
  cases phase with
  | creating id' name rawKey salt =>
    simp only [Auth.runQuery] at hs
    split_ifs at hs with htaken <;> cases hs
    · exact ⟨h.mem, h.inactive⟩
    · have hfresh : ∀ row ∈ s.keys, row.id ≠ id' := by
        simp only [List.any_eq_true, not_exists, not_and, decide_eq_true_eq, not_or] at htaken
        exact fun row hrow ↦ (htaken row hrow).1
      have hinsert : Revoked id (s.insert ⟨id', name, hash salt rawKey, true⟩ rawKey) :=
        h.insert hfresh
      exact ⟨hinsert.mem, hinsert.inactive⟩
  | updating id' =>
    simp only [Auth.runQuery] at hs
    split_ifs at hs <;> cases hs
    · exact ⟨h.deactivate.mem, h.deactivate.inactive⟩
    · exact ⟨h.mem, h.inactive⟩
  | rechecking rawKey identity => cases hs; exact ⟨h.mem, h.inactive⟩
  | scanning rawKey => cases hs; exact ⟨h.mem, h.inactive⟩
  | finding id' => cases hs; exact ⟨h.mem, h.inactive⟩
  | _ => cases hs

/-- A call has moved to another phase, and at most memos have changed besides. -/
def Moved (n replica : ℕ) (s s' : AuthState) : Prop :=
  ∃ (t : AuthState) (phase : AuthPhase), s' = t.setPhase n replica phase ∧ t.keys = s.keys ∧
    t.calls = s.calls

theorem Moved.keys_eq (h : Moved n replica s s') : s'.keys = s.keys := by
  obtain ⟨t, phase, rfl, hkeys, -⟩ := h
  exact hkeys

theorem Moved.calls_ne {m : ℕ} (h : Moved n replica s s') (hne : m ≠ n) :
    s'.calls m = s.calls m := by
  obtain ⟨t, phase, rfl, -, hcalls⟩ := h
  rw [AuthState.setPhase_calls_ne hne, hcalls]

theorem moved_resume {now : ℕ} (hs : resume sha256Hex compare s n replica now phase = some s') :
    Moved n replica s s' := by
  cases phase with
  | rechecked rawKey identity active =>
    simp only [Auth.resume] at hs
    split_ifs at hs <;> cases hs <;> exact ⟨_, _, rfl, rfl, rfl⟩
  | comparing rawKey keys =>
    cases keys with
    | nil => cases hs; exact ⟨_, _, rfl, rfl, rfl⟩
    | cons key keys =>
      simp only [Auth.resume] at hs
      split_ifs at hs <;> cases hs <;> exact ⟨_, _, rfl, rfl, rfl⟩
  | inserted id name rawKey => cases hs; exact ⟨_, _, rfl, rfl, rfl⟩
  | found id row => cases hs; exact ⟨_, _, rfl, rfl, rfl⟩
  | updated id => cases hs; exact ⟨_, _, rfl, rfl, rfl⟩
  | _ => cases hs

variable (sha256Hex s n replica rawKey) in
theorem moved_validateKey (now : ℕ) :
    Moved n replica s (validateKey sha256Hex s n replica rawKey now) := by
  unfold Auth.validateKey
  split
  · split_ifs
    · split <;> exact ⟨_, _, rfl, rfl, rfl⟩
    · exact ⟨_, _, rfl, rfl, rfl⟩
  · exact ⟨_, _, rfl, rfl, rfl⟩

/-- A query leaves the other calls alone. -/
theorem calls_ne_of_runQuery {m : ℕ} (hs : runQuery hash s n replica phase = some s')
    (hne : m ≠ n) : s'.calls m = s.calls m := by
  cases phase with
  | creating id name rawKey salt =>
    simp only [Auth.runQuery] at hs
    split_ifs at hs <;> cases hs <;> exact AuthState.setPhase_calls_ne hne
  | updating id =>
    simp only [Auth.runQuery] at hs
    split_ifs at hs <;> cases hs <;> exact AuthState.setPhase_calls_ne hne
  | rechecking rawKey identity => cases hs; exact AuthState.setPhase_calls_ne hne
  | scanning rawKey => cases hs; exact AuthState.setPhase_calls_ne hne
  | finding id => cases hs; exact AuthState.setPhase_calls_ne hne
  | _ => cases hs

/-- Only a query touches the rows. -/
theorem Revoked.step (h : Revoked id s) (hs : authStep sha256Hex hash compare s e = some s') :
    Revoked id s' := by
  have hkept (t : AuthState) (hkeys : t.keys = s.keys) : Revoked id t :=
    ⟨by rw [hkeys]; exact h.mem, by rw [hkeys]; exact h.inactive⟩
  cases e with
  | validateKey n replica rawKey now =>
    simp only [authStep] at hs
    split_ifs at hs
    cases hs
    exact hkept _ (moved_validateKey ..).keys_eq
  | createKey n replica id name rawKey salt =>
    simp only [authStep] at hs
    split_ifs at hs
    cases hs
    exact hkept _ rfl
  | revokeKey n replica id =>
    simp only [authStep] at hs
    split_ifs at hs
    cases hs
    exact hkept _ rfl
  | query n =>
    obtain ⟨call, -, hs⟩ := Option.bind_eq_some_iff.1 hs
    exact h.runQuery hs
  | resume n now =>
    obtain ⟨call, -, hs⟩ := Option.bind_eq_some_iff.1 hs
    exact hkept _ (moved_resume hs).keys_eq
  | fail n =>
    obtain ⟨call, -, rfl⟩ := Option.map_eq_some_iff.1 hs
    split
    · exact h
    · exact h
    · exact h
    · exact hkept _ rfl
  | restart replica =>
    cases hs
    exact hkept _ rfl

/-- A query of the call does not find the row active. -/
theorem PhaseBarred.runQuery (h : PhaseBarred rawKey id phase) (hrev : Revoked id s)
    (hs : runQuery hash s n replica phase = some s') :
    ∃ call, s'.calls n = some call ∧ PhaseBarred rawKey id call.phase := by
  cases phase with
  | rechecking rawKey' identity =>
    cases hs
    refine ⟨_, AuthState.setPhase_calls_self, h, fun hid hactive ↦ ?_⟩
    obtain ⟨row, hfind, hrow⟩ := Option.map_eq_some_iff.1 hactive
    have hrowid : row.id = identity.id := by simpa using List.find?_some hfind
    have hinactive : row.active = false :=
      hrev.inactive row (List.mem_of_find?_eq_some hfind) (hrowid.trans hid)
    rw [hinactive] at hrow
    cases hrow
  | scanning rawKey' =>
    cases hs
    refine ⟨_, AuthState.setPhase_calls_self, h, fun row hrow hid ↦ ?_⟩
    obtain ⟨hmem, hactive⟩ := List.mem_filter.1 hrow
    rw [hrev.inactive row hmem hid] at hactive
    cases hactive
  | creating id name rawKey salt => exact h.elim
  | finding id => exact h.elim
  | updating id => exact h.elim
  | _ => cases hs

/-- And the call does not end with it. -/
theorem PhaseBarred.resume (h : PhaseBarred rawKey id phase) {now : ℕ}
    (hs : resume sha256Hex compare s n replica now phase = some s') :
    ∃ call, s'.calls n = some call ∧ PhaseBarred rawKey id call.phase := by
  cases phase with
  | rechecked rawKey' identity active =>
    simp only [Auth.resume] at hs
    split_ifs at hs with hactive <;> cases hs
    · exact ⟨_, AuthState.setPhase_calls_self, h.1, fun found hfound hid ↦
        h.2 (Option.some.inj hfound ▸ hid) hactive⟩
    · exact ⟨_, AuthState.setPhase_calls_self, h.1, fun found hfound ↦ by cases hfound⟩
  | comparing rawKey' keys =>
    cases keys with
    | nil =>
      cases hs
      exact ⟨_, AuthState.setPhase_calls_self, h.1, fun found hfound ↦ by cases hfound⟩
    | cons key keys =>
      simp only [Auth.resume] at hs
      split_ifs at hs <;> cases hs
      · exact ⟨_, AuthState.setPhase_calls_self, h.1, fun found hfound ↦
          Option.some.inj hfound ▸ h.2 key List.mem_cons_self⟩
      · exact ⟨_, AuthState.setPhase_calls_self, h.1, fun row hrow ↦
          h.2 row (List.mem_cons_of_mem _ hrow)⟩
  | inserted id name rawKey => exact h.elim
  | found id row => exact h.elim
  | updated id => exact h.elim
  | _ => cases hs

theorem Barred.step (h : Barred rawKey id n s)
    (hs : authStep sha256Hex hash compare s e = some s') : Barred rawKey id n s' := by
  obtain ⟨call, hcall, hbarred⟩ := h.call
  -- a call that begins is not this one
  have hnew (m : ℕ) (hm : (s.calls m).isNone = true) : n ≠ m := by
    rintro rfl
    rw [hcall] at hm
    cases hm
  refine ⟨h.revoked.step hs, ?_⟩
  cases e with
  | validateKey m replica rawKey' now =>
    simp only [authStep] at hs
    split_ifs at hs with hm
    cases hs
    exact ⟨call, by rw [(moved_validateKey ..).calls_ne (hnew m hm), hcall], hbarred⟩
  | createKey m replica id name rawKey' salt =>
    simp only [authStep] at hs
    split_ifs at hs with hm
    cases hs
    exact ⟨call, by rw [AuthState.setPhase_calls_ne (hnew m hm), hcall], hbarred⟩
  | revokeKey m replica id =>
    simp only [authStep] at hs
    split_ifs at hs with hm
    cases hs
    exact ⟨call, by rw [AuthState.setPhase_calls_ne (hnew m hm), hcall], hbarred⟩
  | query m =>
    obtain ⟨call', hcall', hs⟩ := Option.bind_eq_some_iff.1 hs
    rcases eq_or_ne n m with rfl | hne
    · rw [hcall] at hcall'
      cases hcall'
      exact hbarred.runQuery h.revoked hs
    · exact ⟨call, by rw [calls_ne_of_runQuery hs hne, hcall], hbarred⟩
  | resume m now =>
    obtain ⟨call', hcall', hs⟩ := Option.bind_eq_some_iff.1 hs
    rcases eq_or_ne n m with rfl | hne
    · rw [hcall] at hcall'
      cases hcall'
      exact hbarred.resume hs
    · exact ⟨call, by rw [(moved_resume hs).calls_ne hne, hcall], hbarred⟩
  | fail m =>
    obtain ⟨call', hcall', rfl⟩ := Option.map_eq_some_iff.1 hs
    rcases eq_or_ne n m with rfl | hne
    · split
      · exact h.call
      · exact h.call
      · exact h.call
      · exact ⟨_, AuthState.setPhase_calls_self, trivial⟩
    · refine ⟨call, ?_, hbarred⟩
      split
      · exact hcall
      · exact hcall
      · exact hcall
      · rw [AuthState.setPhase_calls_ne hne, hcall]
  | restart replica =>
    cases hs
    exact ⟨call, hcall, hbarred⟩

/-- Where a call begins: it has found nothing in the memo, or an entry. -/
theorem barred_validateKey {now : ℕ} (h : Revoked id s) :
    Barred rawKey id n (validateKey sha256Hex s n replica rawKey now) := by
  refine ⟨?_, ?_⟩
  · have hkeys := (moved_validateKey sha256Hex s n replica rawKey now).keys_eq
    exact ⟨by rw [hkeys]; exact h.mem, by rw [hkeys]; exact h.inactive⟩
  · unfold Auth.validateKey
    split
    · split_ifs
      · split
        · exact ⟨_, AuthState.setPhase_calls_self, rfl, fun found hfound ↦ by cases hfound⟩
        · exact ⟨_, AuthState.setPhase_calls_self, rfl⟩
      · exact ⟨_, AuthState.setPhase_calls_self, rfl⟩
    · exact ⟨_, AuthState.setPhase_calls_self, rfl⟩

end Barred

/-! ### Every run -/

section Runs

variable {h : List (AuthState × AuthEvent)}

/-- The update of a `revokeKey` takes effect. -/
def Revokes (id : String) (p : AuthState × AuthEvent) : Prop :=
  ∃ n replica, p.2 = .query n ∧ p.1.calls n = some ⟨replica, .updating id⟩ ∧
    ∃ row ∈ p.1.keys, row.id = id

theorem Revokes.revoked {id : String} (h : Revokes id (s, e))
    (hs : authStep sha256Hex hash compare s e = some s') : Revoked id s' := by
  obtain ⟨n, replica, rfl, hcall, hrow⟩ := h
  change s.calls n = _ at hcall
  simp only [authStep, hcall, Option.bind_some, runQuery] at hs
  rw [if_pos (List.any_eq_true.2 (hrow.imp fun _ ⟨hmem, hid⟩ ↦ ⟨hmem, decide_eq_true hid⟩))] at hs
  cases hs
  have hrevoked : Revoked id (s.deactivate id) := revoked_deactivate hrow
  exact ⟨hrevoked.mem, hrevoked.inactive⟩

/-- No call of `validateKey` returns another identity than that of the key its raw key was issued
for; and a call that begins after the update of a `revokeKey` has taken effect returns null when
its raw key was issued for the revoked key, whenever it returns and whatever the memo of its
process holds. -/
theorem revocation_immediate (hinj : Function.Injective sha256Hex)
    (hexact : ∀ rawKey salt rawKey', compare rawKey (hash salt rawKey') = true ↔ rawKey = rawKey')
    (hr : Run (authStep sha256Hex hash compare) {} h s) :
    (∀ n replica rawKey identity,
      s.calls n = some ⟨replica, .validated rawKey (some identity)⟩ → s.Issued rawKey identity) ∧
    ∀ before p after n replica rawKey now id, h = before ++ p :: after →
      (∃ q ∈ before, Revokes id q) → p.2 = .validateKey n replica rawKey now →
        (∀ identity, s.Issued rawKey identity → identity.id = id) →
          ∀ replica' rawKey' result,
            s.calls n = some ⟨replica', .validated rawKey' result⟩ → result = none := by
  have hsound : Sound sha256Hex hash s := hr.invariant sound_init fun h hs ↦ h.step hinj hexact hs
  have hissued (n replica : ℕ) (rawKey : String) (identity : Identity)
      (hcall : s.calls n = some ⟨replica, .validated rawKey (some identity)⟩) :
      s.Issued rawKey identity := hsound.call n _ hcall identity rfl
  refine ⟨hissued, ?_⟩
  rintro before ⟨t, e⟩ after n replica rawKey now id rfl ⟨⟨u, e'⟩, hq, hrevokes⟩ rfl hkey replica'
    rawKey' result hcall
  -- the run goes through the update, the beginning of the call and the end
  obtain ⟨_, hbefore, hrun⟩ := hr.exists_of_append
  obtain ⟨rfl, t', hbegin, hafter⟩ := hrun.exists_of_cons
  obtain ⟨pre, post, rfl⟩ := List.append_of_mem hq
  obtain ⟨_, -, hrun'⟩ := hbefore.exists_of_append
  obtain ⟨rfl, u', hupdate, hbetween⟩ := hrun'.exists_of_cons
  have hrevoked : Revoked id t := hbetween.invariant (hrevokes.revoked hupdate) fun h hs ↦ h.step hs
  have hbarred : Barred rawKey id n t' := by
    simp only [authStep] at hbegin
    split_ifs at hbegin
    cases hbegin
    exact barred_validateKey hrevoked
  obtain ⟨call, hcall', hend⟩ := (hafter.invariant hbarred fun h hs ↦ h.step hs).call
  rw [hcall] at hcall'
  cases hcall'
  cases hresult : result with
  | none => rfl
  | some identity =>
    have hid : identity.id = id := hkey identity
      (hissued n replica' rawKey identity (by rw [hcall, hresult, hend.1]))
    exact absurd hid (hend.2 identity hresult)

/-- The raw key itself in the place of its digest and its hash. -/
abbrev plainStep : AuthState → AuthEvent → Option AuthState :=
  authStep id (fun _ rawKey ↦ rawKey) fun rawKey keyHash ↦ rawKey == keyHash

/-- A key is created and two processes look for it; the second one is still comparing when a third
one revokes the key, puts it into its memo after that, and is asked again. -/
def staleEvents : List AuthEvent :=
  [.createKey 0 0 "a" "agent" "mc-1" "salt", .query 0, .resume 0 0,
    .validateKey 1 1 "mc-1" 10, .query 1, .validateKey 2 2 "mc-1" 10, .query 2, .resume 1 11,
    .revokeKey 3 3 "a", .query 3, .resume 3 12, .query 3, .resume 2 13,
    .validateKey 4 2 "mc-1" 20, .query 4, .resume 4 21]

/-- The run in which a stale entry is asked for. -/
def staleCheck (h : List (AuthState × AuthEvent)) (s : AuthState) : Bool :=
  decide (s.calls 2 = some ⟨2, .validated "mc-1" (some ⟨"a", "agent"⟩)⟩) &&
    decide (s.issued = [("mc-1", ⟨"a", "agent"⟩)]) &&
    (h.take 13).any (fun p ↦ decide (p.2 = .query 3) &&
      decide (p.1.calls 3 = some ⟨3, .updating "a"⟩) && p.1.keys.any fun row ↦ row.id = "a") &&
    decide ((h.drop 13).head?.map Prod.snd = some (.validateKey 4 2 "mc-1" 20)) &&
    match s.calls 4 with
    | some ⟨_, .validated _ _⟩ => true
    | _ => false

/-- The process that has the key in its memo does not let it through when it is asked again. -/
theorem revocation_immediate_stale :
    ∃ h s replica rawKey, Run plainStep {} h s ∧
      s.calls 2 = some ⟨2, .validated "mc-1" (some ⟨"a", "agent"⟩)⟩ ∧
      s.calls 4 = some ⟨replica, .validated rawKey none⟩ := by
  obtain ⟨h, s, hr, hcheck⟩ := Run.exists_of_check plainStep {} staleEvents staleCheck
    (by decide +kernel)
  simp only [staleCheck, Bool.and_eq_true, decide_eq_true_eq] at hcheck
  obtain ⟨⟨⟨⟨hstale, hissued⟩, hrevokes⟩, hbegin⟩, hreturned⟩ := hcheck
  obtain ⟨q, hq, hquery⟩ := List.any_eq_true.1 hrevokes
  simp only [Bool.and_eq_true, decide_eq_true_eq, List.any_eq_true] at hquery
  obtain ⟨p, hp, hpe⟩ := Option.map_eq_some_iff.1 hbegin
  have hsplit : h = h.take 13 ++ p :: (h.drop 13).tail := by
    rw [List.eq_cons_of_mem_head? hp |>.symm, List.take_append_drop]
  split at hreturned
  · rename_i replica rawKey result hcall
    have hnone : result = none := (revocation_immediate Function.injective_id
      (fun rawKey _ rawKey' ↦ beq_iff_eq) hr).2 _ p _ 4 2 "mc-1" 20 "a" hsplit
        ⟨q, hq, 3, 3, hquery.1.1, hquery.1.2, hquery.2⟩ hpe
        (fun identity hidentity ↦ by
          rw [AuthState.Issued, hissued, List.mem_singleton] at hidentity
          rw [(Prod.mk.inj hidentity).2]) replica rawKey result hcall
    exact ⟨h, s, replica, rawKey, hr, hstale, hnone ▸ hcall⟩
  · cases hreturned

end Runs

end ModelConnector.Auth
