import ModelConnector.Billing.ReverseStatements

/-!
# Concurrent reversals

The reversals of an original should never add up to more than the original. Each call of `reverse`
sums what was reversed before it posts its own row, inside its transaction; but at
`READ COMMITTED` the sum is of what was committed when it was read, and the lock of the balance row
is taken only afterwards. So two calls can read the same headroom and both use it.

`notOverReversed_of_run` is the guarantee for the runs in which the check of every call that
commits would still pass at its commit, and `not_notOverReversed` is a run of two calls in which it
would not. It passes at the commit of a call if no other reversal of the original commits between
its sum and its commit (`stillFits_of_apart`).
-/

namespace ModelConnector

open Billing

/-- The row is the negative row of a reversal of the entry. Its magnitude is what the reversal
recovered plus what it wrote off. -/
def reverses (originalKey : String) (row : LedgerRow) : Bool :=
  (row.entryType == .refund || row.entryType == .chargeback) && row.reversalOf == some originalKey

/-- What the committed reversals of an entry add up to. -/
def reversedOf (server : Server) (originalKey : String) : ℤ :=
  server.ledger.committedSum (reverses originalKey) fun row ↦ |row.amountUsd|

/-- No committed credit is reversed by more than its amount. -/
def NotOverReversed (server : Server) : Prop :=
  ∀ original ∈ server.ledger.committed, REVERSIBLE_ENTRY_TYPES.contains original.entryType = true →
    reversedOf server original.idempotencyKey ≤ |original.amountUsd|

instance (server : Server) : Decidable (NotOverReversed server) :=
  inferInstanceAs (Decidable (∀ original ∈ server.ledger.committed,
    REVERSIBLE_ENTRY_TYPES.contains original.entryType = true →
      reversedOf server original.idempotencyKey ≤ |original.amountUsd|))

namespace Billing

/-- The original against which a session has summed what was reversed. -/
def Statement.summed? : Statement → Option LedgerRow
  | .findOriginal | .findPrior _ | .returned _ => none
  | .createEntry original | .ensureBalance original | .lockBalance original
  | .createWriteOff original _ | .decrementBalance original _ | .commit original _ _ =>
    some original

/-- The session commits next. -/
def Statement.commits : Statement → Bool
  | .commit _ _ _ => true
  | _ => false

end Billing

/-- The session would pass the check of its headroom again, on what is committed now. As the check
does, it counts the rows that were written off besides the negative ones. -/
def passesAgain (server : Server) (session : Session) (original : LedgerRow) : Prop :=
  session.amountUsd ≤ headroom original
    (Server.reversals server.ledger.committed session.params.originalIdempotencyKey)

/-- A session that commits passes its check at the commit as well. -/
def FitsAtCommit (server : Server) (session : Session) : Prop :=
  match session.next with
  | .commit original _ _ => passesAgain server session original
  | _ => True

/-- A step that commits a reversal commits one that still fits. -/
def StillFits (server : Server) : ServerEvent → Prop
  | .statement i => ∀ session ∈ server.sessions[i]?, FitsAtCommit server session
  | _ => True

/-- When a session commits, no other one that reverses the same original has summed what was
reversed and not committed yet. -/
def Apart (server : Server) : ServerEvent → Prop
  | .statement i => ∀ session ∈ server.sessions[i]?, session.next.commits = true →
    ∀ j ≠ i, ∀ other ∈ server.sessions[j]?,
      other.params.originalIdempotencyKey = session.params.originalIdempotencyKey →
        other.next.summed? = none
  | _ => True

instance (server : Server) (session : Session) : Decidable (FitsAtCommit server session) := by
  unfold FitsAtCommit passesAgain
  split <;> infer_instance

instance (server : Server) (e : ServerEvent) : Decidable (StillFits server e) := by
  cases e
  case statement i =>
    exact inferInstanceAs (Decidable (∀ session ∈ server.sessions[i]?, FitsAtCommit server session))
  all_goals exact inferInstanceAs (Decidable True)

/-! ### What a statement does -/

namespace Billing

/-- The original a session has found. -/
def Statement.original? : Statement → Option LedgerRow
  | .findOriginal | .returned _ => none
  | .findPrior original | .createEntry original | .ensureBalance original | .lockBalance original
  | .createWriteOff original _ | .decrementBalance original _ | .commit original _ _ =>
    some original

/-- The session has inserted its negative row. -/
def Statement.wrote : Statement → Bool
  | .ensureBalance _ | .lockBalance _ | .createWriteOff _ _ | .decrementBalance _ _
  | .commit _ _ _ => true
  | _ => false

/-- What the session has pending against an entry. -/
def Session.claims (session : Session) (originalKey : String) : ℤ :=
  if session.next.wrote = true ∧ session.params.originalIdempotencyKey = originalKey then
    toMicros session.amountUsd
  else 0

/-- `Executed server i session server'`: session `i` went from one statement to the next. -/
inductive Executed (server : Server) (i : ℕ) (session : Session) (server' : Server) : Prop
  /-- It only read, or only locked. -/
  | moved {next : Statement} : server'.ledger = server.ledger →
      server'.sessions = server.sessions.set i { session with next } →
      next.wrote = session.next.wrote →
      (∀ original ∈ next.original?, session.next.original? = some original ∨
        original ∈ server.ledger.visibleTo i ∧
          original.idempotencyKey = session.params.originalIdempotencyKey ∧
            REVERSIBLE_ENTRY_TYPES.contains original.entryType = true) →
      (∀ original ∈ next.summed?, session.next.summed? = some original ∨
        session.amountUsd ≤ headroom original (Server.reversals (server.ledger.visibleTo i)
          session.params.originalIdempotencyKey)) →
      Executed server i session server'
  /-- It inserted a row. -/
  | inserted {row : LedgerRow} {next : Statement} :
      server.ledger.insert i row = .inserted server'.ledger →
      server'.sessions = server.sessions.set i { session with next } →
      next.original? = session.next.original? →
      next.summed? = session.next.summed? →
      row.reversalOf = some session.params.originalIdempotencyKey →
      REVERSIBLE_ENTRY_TYPES.contains row.entryType = false →
      (∀ originalKey, Session.claims { session with next } originalKey =
        session.claims originalKey + if reverses originalKey row then |row.amountUsd| else 0) →
      Executed server i session server'
  /-- It was rolled back. -/
  | rolledBack {answer : Except TxError ReversalResult} :
      server'.ledger = server.ledger.rollback i →
      server'.sessions = server.sessions.set i { session with next := .returned answer } →
      Executed server i session server'
  /-- It committed. -/
  | committed {original : LedgerRow} {locked balance : BalanceRow}
      {answer : Except TxError ReversalResult} :
      session.next = .commit original locked balance →
      server'.ledger = server.ledger.commit i →
      server'.sessions = server.sessions.set i { session with next := .returned answer } →
      Executed server i session server'

section Execute

variable {server server' : Server} {i : ℕ} {session : Session}

theorem executed_rollback (e : TxError) :
    Executed server i session (server.rollback i session e) :=
  .rolledBack rfl rfl

/-- An insertion is made, or the session is rolled back. -/
theorem executed_insert {data : LedgerEntry ℚ} {next : Statement}
    (h : server.insert i session data next = some server')
    (hnext : next.original? = session.next.original?)
    (hsummed : next.summed? = session.next.summed?)
    (hnames : data.reversalOf = some session.params.originalIdempotencyKey)
    (htype : REVERSIBLE_ENTRY_TYPES.contains data.entryType = false)
    (hclaims : ∀ originalKey, Session.claims { session with next } originalKey =
      session.claims originalKey +
        if reverses originalKey (data.toRow (toMicros data.amountUsd)) then
          |toMicros data.amountUsd| else 0) :
    Executed server i session server' := by
  unfold Server.insert at h
  split at h
  · cases h
    exact executed_rollback _
  rename_i amountUsd hstore
  obtain rfl := storeDecimal_eq_ok hstore
  split at h
  · cases h
    exact executed_rollback _
  split at h
  · rename_i ledger hinsert
    cases h
    exact .inserted hinsert rfl hnext hsummed hnames htype hclaims
  · cases h
    exact executed_rollback _
  · cases h

theorem executed_lock {apiKeyId : String} {next : Statement}
    (h : server.lock i session apiKeyId next = some server')
    (hwrote : next.wrote = session.next.wrote) (hnext : next.original? = session.next.original?)
    (hsummed : next.summed? = session.next.summed?) : Executed server i session server' := by
  unfold Server.lock at h
  split at h
  · cases h
    exact .moved rfl rfl hwrote (fun _ ho ↦ .inl (hnext ▸ ho)) fun _ ho ↦ .inl (hsummed ▸ ho)
  · cases h

theorem executed_goto {next : Statement} (hwrote : next.wrote = session.next.wrote)
    (hnext : next.original? = session.next.original?)
    (hsummed : next.summed? = session.next.summed?) :
    Executed server i session (server.goto i session next) :=
  .moved rfl rfl hwrote (fun _ ho ↦ .inl (hnext ▸ ho)) fun _ ho ↦ .inl (hsummed ▸ ho)

/-- The rows a reversal inserts are none that can be reversed. -/
theorem not_reversible_entry (params : ReverseParams) (original : LedgerRow) (amountUsd : ℚ) :
    REVERSIBLE_ENTRY_TYPES.contains (params.entry original amountUsd).entryType = false := by
  simp only [ReverseParams.entry]
  cases params.entryType.getD .refund <;> rfl

/-- The negative row counts against the original it names. -/
theorem reverses_entry (params : ReverseParams) (original : LedgerRow) (amountUsd : ℚ) (n : ℤ)
    (originalKey : String) : reverses originalKey ((params.entry original amountUsd).toRow n) =
      (params.originalIdempotencyKey == originalKey) := by
  simp only [reverses, ReverseParams.entry, LedgerEntry.toRow]
  cases params.entryType.getD .refund <;> simp [ReversalEntryType.toLedger]

/-- **What a statement does.** -/
theorem executed_of_execute (hpos : 0 ≤ session.amountUsd)
    (h : server.execute i session = some server') : Executed server i session server' := by
  obtain ⟨params, amountUsd, next⟩ := session
  unfold Server.execute at h
  cases next with
  | findOriginal =>
    simp only at h
    split at h
    · cases h
      exact executed_rollback _
    · rename_i original hfind
      split at h
      · rename_i hreversible
        cases h
        refine .moved rfl rfl rfl (fun a ha ↦ .inr ?_) fun _ ho ↦ by cases ho
        cases ha
        exact ⟨List.mem_of_find?_eq_some hfind, by simpa using List.find?_some hfind, hreversible⟩
      · cases h
        exact executed_rollback _
  | findPrior original =>
    simp only at h
    split at h
    · rename_i hchecked
      cases h
      refine .moved rfl rfl rfl (fun _ ho ↦ .inl ho) fun a ha ↦ .inr ?_
      cases ha
      exact hchecked
    · cases h
      exact executed_rollback _
  | createEntry original =>
    refine executed_insert h rfl rfl rfl (not_reversible_entry _ _ _) fun originalKey ↦ ?_
    rw [reverses_entry]
    simp [Session.claims, Statement.wrote, ReverseParams.entry, toMicros_neg,
      abs_of_nonneg (toMicros_nonneg hpos)]
  | ensureBalance original =>
    simp only at h
    split at h
    · cases h
      exact executed_goto rfl rfl rfl
    · exact executed_lock h rfl rfl rfl
  | lockBalance original => exact executed_lock h rfl rfl rfl
  | createWriteOff original locked =>
    simp only at h
    split at h
    · refine executed_insert h rfl rfl rfl rfl fun originalKey ↦ ?_
      simp [Session.claims, Statement.wrote, reverses, LedgerEntry.toRow, ReverseParams.writeOff]
    · cases h
      exact executed_goto rfl rfl rfl
  | decrementBalance original locked =>
    simp only at h
    split at h
    · split at h
      · cases h
        exact executed_rollback _
      · cases h
        exact executed_goto rfl rfl rfl
    · cases h
      exact executed_goto rfl rfl rfl
  | commit original locked balance =>
    cases h
    exact .committed rfl rfl rfl
  | returned answer => cases h

end Execute

end Billing

/-! ### The invariant -/

/-- What the session of a number has pending against an entry; nothing when there is none. -/
def claimsAt (sessions : List Session) (i : ℕ) (originalKey : String) : ℤ :=
  (sessions[i]?).elim 0 fun session ↦ session.claims originalKey

/-- The invariant: no credit is over-reversed, what a session has pending is what its statement
says, and the original it has found is committed. -/
structure Reversing (server : Server) : Prop where
  notOver : NotOverReversed server
  pending : ∀ i originalKey, server.ledger.pendingSum i (reverses originalKey)
    (fun row ↦ |row.amountUsd|) = claimsAt server.sessions i originalKey
  types : ∀ v ∈ server.ledger.rows, v.writer ≠ none →
    REVERSIBLE_ENTRY_TYPES.contains v.row.entryType = false
  originals : ∀ session ∈ server.sessions, ∀ original ∈ session.next.original?,
    original ∈ server.ledger.committed ∧
      original.idempotencyKey = session.params.originalIdempotencyKey ∧
        REVERSIBLE_ENTRY_TYPES.contains original.entryType = true
  nonneg : ∀ session ∈ server.sessions, 0 ≤ session.amountUsd

section Invariant

variable {server server' : Server} {i : ℕ} {session : Session} {e : ServerEvent}

theorem claimsAt_set (h : server.sessions[i]? = some session) (new : Session) (j : ℕ)
    (originalKey : String) : claimsAt (server.sessions.set i new) j originalKey =
      if i = j then new.claims originalKey else claimsAt server.sessions j originalKey := by
  unfold claimsAt
  by_cases hij : i = j
  · subst hij
    have hlt := (List.getElem?_eq_some_iff.1 h).1
    rw [List.getElem?_set_self hlt, if_pos rfl]
    rfl
  · rw [List.getElem?_set_ne hij, if_neg hij]

/-- The magnitudes of the negative rows are among those the check adds up. -/
theorem reversedOf_le_magnitude (server : Server) (originalKey : String) :
    reversedOf server originalKey ≤
      magnitude (Server.reversals server.ledger.committed originalKey) := by
  rw [reversedOf, Versions.committedSum_eq, magnitude, Server.reversals, List.map_map]
  have hsub : (server.ledger.committed.filter (reverses originalKey)).Sublist
      (server.ledger.committed.filter fun row ↦ row.reversalOf == some originalKey) := by
    unfold reverses
    rw [← List.filter_filter]
    exact List.filter_sublist
  refine (hsub.map _).sum_le_sum fun x hx ↦ ?_
  obtain ⟨row, -, rfl⟩ := List.mem_map.1 hx
  exact abs_nonneg _

/-- A committed original that a session sees is the one it is about. -/
theorem visible_committed (hs : Reversing server) {original : LedgerRow}
    (h : original ∈ server.ledger.visibleTo i)
    (htype : REVERSIBLE_ENTRY_TYPES.contains original.entryType = true) :
    original ∈ server.ledger.committed := by
  obtain ⟨⟨row, writer⟩, hmem, rfl⟩ := List.mem_map.1 h
  have hv := (List.mem_filter.1 hmem).1
  cases writer with
  | none => exact Versions.mem_committed_iff.2 hv
  | some j =>
    have hnot := hs.types _ hv (by simp)
    simp only at htype
    rw [htype] at hnot
    cases hnot

/-- A commit that still fits over-reverses nothing. -/
theorem notOver_commit (hs : Reversing server) (hsession : server.sessions[i]? = some session)
    {original : LedgerRow} {locked balance : BalanceRow}
    (hnext : session.next = .commit original locked balance)
    (hfits : passesAgain server session original)
    (hledger : server'.ledger = server.ledger.commit i) : NotOverReversed server' := by
  intro a ha htype
  rw [hledger] at ha
  have ha : a ∈ server.ledger.committed := by
    rcases Versions.mem_of_mem_committed_commit ha with ha | ha
    · exact ha
    · have hnot := hs.types _ ha (by simp)
      rw [htype] at hnot
      cases hnot
  have hsum : reversedOf server' a.idempotencyKey =
      reversedOf server a.idempotencyKey + session.claims a.idempotencyKey := by
    rw [reversedOf, hledger, Versions.committedSum_commit, hs.pending]
    simp only [claimsAt, hsession, Option.elim_some]
    rfl
  rw [hsum, Session.claims]
  split
  · -- the original of this session, whose headroom was checked
    rename_i hown
    obtain ⟨horiginal, hkey, -⟩ := hs.originals session (List.mem_of_getElem? hsession) original
      (by rw [hnext]; rfl)
    obtain rfl : a = original := by
      refine Versions.eq_of_mem_committed (fun x y ↦ ?_) ha horiginal ?_
      · simp only [LedgerRow.clash, Bool.beq_comm]
      · rw [LedgerRow.clash, hkey, ← hown.2, beq_self_eq_true]
    rw [passesAgain, ← hkey] at hfits
    have hmicros := toMicros_mono hfits
    rw [headroom, ← ofMicros_sub, toMicros_ofMicros] at hmicros
    have hle := reversedOf_le_magnitude server a.idempotencyKey
    omega
  · rw [add_zero]
    exact hs.notOver a ha htype

/-- The sessions after a step are the old ones and the one that went on. -/
theorem nonneg_set (hs : Reversing server) (hsession : server.sessions[i]? = some session)
    {next : Statement} (hset : server'.sessions = server.sessions.set i { session with next }) :
    ∀ a ∈ server'.sessions, 0 ≤ a.amountUsd := by
  intro a ha
  rw [hset] at ha
  rcases List.mem_or_eq_of_mem_set ha with ha | rfl
  · exact hs.nonneg a ha
  · exact hs.nonneg session (List.mem_of_getElem? hsession)

/-- The originals after a step, when what was committed still is. -/
theorem originals_set (hs : Reversing server) {next : Statement}
    (hset : server'.sessions = server.sessions.set i { session with next })
    (hkept : ∀ a ∈ server.ledger.committed, a ∈ server'.ledger.committed)
    (hnew : ∀ original ∈ next.original?, original ∈ server.ledger.committed ∧
      original.idempotencyKey = session.params.originalIdempotencyKey ∧
        REVERSIBLE_ENTRY_TYPES.contains original.entryType = true) :
    ∀ a ∈ server'.sessions, ∀ original ∈ a.next.original?,
      original ∈ server'.ledger.committed ∧
        original.idempotencyKey = a.params.originalIdempotencyKey ∧
          REVERSIBLE_ENTRY_TYPES.contains original.entryType = true := by
  intro a ha original ho
  rw [hset] at ha
  rcases List.mem_or_eq_of_mem_set ha with ha | rfl
  · exact (hs.originals a ha original ho).imp_left (hkept _)
  · exact (hnew original ho).imp_left (hkept _)

/-- A rollback leaves nothing behind. -/
theorem reversing_rollback (hs : Reversing server) (hsession : server.sessions[i]? = some session)
    {answer : Except TxError ReversalResult} (hledger : server'.ledger = server.ledger.rollback i)
    (hset : server'.sessions = server.sessions.set i { session with next := .returned answer }) :
    Reversing server' := by
  refine ⟨fun a ha hreversible ↦ ?_, fun j originalKey ↦ ?_, fun v hv hwriter ↦ ?_, ?_,
    nonneg_set hs hsession hset⟩
  · rw [hledger] at ha
    rw [reversedOf, hledger, Versions.committedSum_rollback]
    refine hs.notOver a ?_ hreversible
    exact Versions.mem_committed_iff.2 (List.mem_filter.1 (Versions.mem_committed_iff.1 ha)).1
  · rw [hledger, hset, Versions.pendingSum_rollback, claimsAt_set hsession, hs.pending]
    rfl
  · rw [hledger] at hv
    exact hs.types v (List.mem_filter.1 hv).1 hwriter
  · exact originals_set hs hset (fun a ha ↦ hledger ▸ Versions.mem_committed_rollback ha)
      fun _ ha ↦ by cases ha

/-- **What one statement preserves.** -/
theorem reversing_executed (hs : Reversing server) (hsession : server.sessions[i]? = some session)
    (hfits : FitsAtCommit server session) (h : Executed server i session server') :
    Reversing server' := by
  have hmem := List.mem_of_getElem? hsession
  cases h with
  | @moved next hledger hset hwrote hfound _ =>
    refine ⟨?_, fun j originalKey ↦ ?_, ?_, ?_, nonneg_set hs hsession hset⟩
    · unfold NotOverReversed reversedOf
      rw [hledger]
      exact hs.notOver
    · rw [hledger, hset, hs.pending, claimsAt_set hsession]
      split
      · rename_i hij
        subst hij
        simp only [claimsAt, hsession, Option.elim_some, Session.claims, hwrote]
      · rfl
    · rw [hledger]
      exact hs.types
    · refine originals_set hs hset (fun a ha ↦ hledger ▸ ha) fun original ho ↦ ?_
      rcases hfound original ho with hold | ⟨hvisible, hkey, htype⟩
      · exact hs.originals session hmem original hold
      · exact ⟨visible_committed hs hvisible htype, hkey, htype⟩
  | @inserted row next hinsert hset hnext _ _ htype hclaims =>
    refine ⟨fun a ha hreversible ↦ ?_, fun j originalKey ↦ ?_, fun v hv hwriter ↦ ?_, ?_,
      nonneg_set hs hsession hset⟩
    · rw [Versions.mem_committed_iff, Versions.insert_eq_inserted hinsert] at ha
      rcases List.mem_append.1 ha with ha | ha
      · rw [reversedOf, Versions.committedSum_insert hinsert]
        exact hs.notOver a (Versions.mem_committed_iff.2 ha) hreversible
      · simp at ha
    · rw [Versions.pendingSum_insert hinsert, hset, hs.pending, claimsAt_set hsession]
      by_cases hij : i = j
      · subst hij
        simp only [claimsAt, hsession, Option.elim_some, hclaims, true_and, if_pos]
      · simp [hij]
    · rw [Versions.insert_eq_inserted hinsert] at hv
      rcases List.mem_append.1 hv with hv | hv
      · exact hs.types v hv hwriter
      · rw [List.mem_singleton.1 hv]
        exact htype
    · refine originals_set hs hset (fun a ha ↦ Versions.mem_committed_insert hinsert ha)
        fun a ha ↦ ?_
      exact hs.originals session hmem a (hnext ▸ ha)
  | rolledBack hledger hset => exact reversing_rollback hs hsession hledger hset
  | committed hnext hledger hset =>
    rw [FitsAtCommit, hnext] at hfits
    refine ⟨notOver_commit hs hsession hnext hfits hledger,
      fun j originalKey ↦ ?_, fun v hv hwriter ↦ ?_, ?_, nonneg_set hs hsession hset⟩
    · rw [hledger, hset, Versions.pendingSum_commit, claimsAt_set hsession, hs.pending]
      rfl
    · rw [hledger] at hv
      obtain ⟨a, ha, rfl⟩ := List.mem_map.1 hv
      split at hwriter
      · exact absurd rfl hwriter
      · rename_i hother
        rw [if_neg hother]
        exact hs.types a ha hwriter
    · exact originals_set hs hset (fun a ha ↦ hledger ▸ Versions.mem_committed_commit ha)
        fun _ ha ↦ by cases ha

/-- A new call has nothing pending and has found nothing. -/
theorem reversing_begin (hs : Reversing server) {session : Session}
    (hnext : session.next.original? = none) (hwrote : session.next.wrote = false)
    (hnonneg : 0 ≤ session.amountUsd) :
    Reversing { server with sessions := server.sessions ++ [session] } := by
  refine ⟨hs.notOver, fun i originalKey ↦ ?_, hs.types, fun a ha original ho ↦ ?_, fun a ha ↦ ?_⟩
  · rw [hs.pending, claimsAt, claimsAt, List.getElem?_append]
    split
    · rfl
    · rename_i hlt
      rw [List.getElem?_eq_none (not_lt.1 hlt), List.getElem?_singleton]
      split
      · simp [Session.claims, hwrote]
      · rfl
  · rcases List.mem_append.1 ha with ha | ha
    · exact hs.originals a ha original ho
    · rw [List.mem_singleton.1 ha, hnext] at ho
      cases ho
  · rcases List.mem_append.1 ha with ha | ha
    · exact hs.nonneg a ha
    · rw [List.mem_singleton.1 ha]
      exact hnonneg

theorem reversing_step (hs : Reversing server) (hfits : StillFits server e)
    (h : server.step e = some server') : Reversing server' := by
  cases e with
  | reverse params =>
    cases h
    split
    · exact reversing_begin hs rfl rfl le_rfl
    · rename_i hvalid
      exact reversing_begin hs rfl rfl (validateReverse_eq_ok hvalid).2.le
  | statement i =>
    obtain ⟨session, hsession, hexecute⟩ := Option.bind_eq_some_iff.1 h
    exact reversing_executed hs hsession (hfits session hsession)
      (executed_of_execute (hs.nonneg session (List.mem_of_getElem? hsession)) hexecute)
  | abort i err =>
    simp only [Server.step] at h
    split at h
    · rename_i session hsession
      split at h
      · cases h
      · cases h
        exact reversing_rollback hs hsession rfl rfl
    · cases h

end Invariant

/-! ### Between the sum and the commit -/

/-- The row names the entry as the one it reverses. -/
def names (originalKey : String) (row : LedgerRow) : Bool :=
  row.reversalOf == some originalKey

/-- A session that has summed still fits, and a session has nothing pending against the original of
another one. -/
structure Fitting (server : Server) : Prop where
  fits : ∀ (i : ℕ) (session : Session), server.sessions[i]? = some session →
    ∀ original ∈ session.next.summed?, passesAgain server session original
  own : ∀ (i : ℕ) (originalKey : String),
    (∀ session ∈ server.sessions[i]?, session.params.originalIdempotencyKey ≠ originalKey) →
      server.ledger.pendingSum i (names originalKey) (fun row ↦ |row.amountUsd|) = 0

section Fitting

variable {server server' : Server} {i : ℕ} {session : Session} {e : ServerEvent}

theorem magnitude_reversals (server : Server) (originalKey : String) :
    magnitude (Server.reversals server.ledger.committed originalKey) =
      server.ledger.committedSum (names originalKey) fun row ↦ |row.amountUsd| := by
  rw [Versions.committedSum_eq, magnitude, Server.reversals, List.map_map]
  rfl

theorem passesAgain_iff {original : LedgerRow} : passesAgain server session original ↔
    session.amountUsd ≤ ofMicros |original.amountUsd| -
      ofMicros (server.ledger.committedSum (names session.params.originalIdempotencyKey)
        fun row ↦ |row.amountUsd|) := by
  rw [passesAgain, headroom, magnitude_reversals]

/-- A session sees what is committed, and more. -/
theorem passesAgain_of_visible {original : LedgerRow}
    (h : session.amountUsd ≤ headroom original
      (Server.reversals (server.ledger.visibleTo i) session.params.originalIdempotencyKey)) :
    passesAgain server session original := by
  have hsub : server.ledger.committed.Sublist (server.ledger.visibleTo i) := by
    refine List.Sublist.map _ (List.monotone_filter_right _ fun v hv ↦ ?_)
    rw [hv, Bool.true_or]
  have hle : magnitude (Server.reversals server.ledger.committed
        session.params.originalIdempotencyKey) ≤
      magnitude (Server.reversals (server.ledger.visibleTo i)
        session.params.originalIdempotencyKey) := by
    refine List.Sublist.sum_le_sum (((hsub.filter _).map _).map _) fun x hx ↦ ?_
    obtain ⟨amountUsd, -, rfl⟩ := List.mem_map.1 hx
    exact abs_nonneg _
  exact h.trans (sub_le_sub_left (ofMicros_le_ofMicros.2 hle) _)

/-- What fits, fits as long as nothing more against its original is committed. -/
theorem passesAgain_congr {original : LedgerRow} (h : passesAgain server session original)
    (hsum : server'.ledger.committedSum (names session.params.originalIdempotencyKey)
        (fun row ↦ |row.amountUsd|) =
      server.ledger.committedSum (names session.params.originalIdempotencyKey)
        fun row ↦ |row.amountUsd|) :
    passesAgain server' session original := by
  rw [passesAgain_iff, hsum]
  exact passesAgain_iff.1 h

/-- The sessions after a step: the one that went on, and the others as they were. -/
theorem getElem?_set_cases {next : Statement} {j : ℕ} {other : Session}
    (hset : server'.sessions = server.sessions.set i { session with next })
    (hj : server'.sessions[j]? = some other) :
    other = { session with next } ∨ j ≠ i ∧ server.sessions[j]? = some other := by
  rw [hset] at hj
  rcases eq_or_ne i j with rfl | hij
  · obtain ⟨hlt, rfl⟩ := List.getElem?_eq_some_iff.1 hj
    exact .inl (List.getElem_set_self _)
  · rw [List.getElem?_set_ne hij] at hj
    exact .inr ⟨hij.symm, hj⟩

/-- The sessions have the originals that they had. -/
theorem ne_of_set {next : Statement} {originalKey : String}
    (hsession : server.sessions[i]? = some session)
    (hset : server'.sessions = server.sessions.set i { session with next }) {j : ℕ}
    (h : ∀ other ∈ server'.sessions[j]?, other.params.originalIdempotencyKey ≠ originalKey) :
    ∀ other ∈ server.sessions[j]?, other.params.originalIdempotencyKey ≠ originalKey := by
  intro other hother
  rw [hset] at h
  rcases eq_or_ne i j with rfl | hij
  · obtain rfl := Option.some.inj (hsession.symm.trans hother)
    exact h { session with next } (List.getElem?_set_self (List.getElem?_eq_some_iff.1 hsession).1)
  · exact h other ((List.getElem?_set_ne hij).trans hother)

/-- A session that returns leaves the others as they were. -/
theorem fitting_returned (hs : Fitting server) (hsession : server.sessions[i]? = some session)
    {answer : Except TxError ReversalResult}
    (hset : server'.sessions = server.sessions.set i { session with next := .returned answer })
    (hcommitted : ∀ (j : ℕ) (other : Session), j ≠ i → server.sessions[j]? = some other →
      ∀ original ∈ other.next.summed?,
        server'.ledger.committedSum (names other.params.originalIdempotencyKey)
            (fun row ↦ |row.amountUsd|) =
          server.ledger.committedSum (names other.params.originalIdempotencyKey)
            fun row ↦ |row.amountUsd|)
    (hpending : ∀ (j : ℕ) (originalKey : String),
      server.ledger.pendingSum j (names originalKey) (fun row ↦ |row.amountUsd|) = 0 →
        server'.ledger.pendingSum j (names originalKey) (fun row ↦ |row.amountUsd|) = 0) :
    Fitting server' where
  fits j other hj original ho := by
    rcases getElem?_set_cases hset hj with rfl | ⟨hji, hj⟩
    · cases ho
    · exact passesAgain_congr (hs.fits j other hj original ho)
        (hcommitted j other hji hj original ho)
  own j originalKey hne :=
    hpending j originalKey (hs.own j originalKey (ne_of_set hsession hset hne))

theorem fitting_rollback (hs : Fitting server) (hsession : server.sessions[i]? = some session)
    {answer : Except TxError ReversalResult} (hledger : server'.ledger = server.ledger.rollback i)
    (hset : server'.sessions = server.sessions.set i { session with next := .returned answer }) :
    Fitting server' := by
  refine fitting_returned hs hsession hset (fun j other _ _ original _ ↦ ?_)
    fun j originalKey h ↦ ?_
  · rw [hledger, Versions.committedSum_rollback]
  · rw [hledger, Versions.pendingSum_rollback, h, ite_self]

/-- **What one statement preserves** when no other session has summed at a commit. -/
theorem fitting_executed (hs : Fitting server) (hsession : server.sessions[i]? = some session)
    (hapart : Apart server (.statement i)) (h : Executed server i session server') :
    Fitting server' := by
  cases h with
  | @moved next hledger hset _ _ hsummed =>
    refine ⟨fun j other hj original ho ↦ ?_, fun j originalKey hne ↦ ?_⟩
    · have hsum : passesAgain server other original := by
        rcases getElem?_set_cases hset hj with rfl | ⟨-, hj⟩
        · rcases hsummed original ho with hold | hchecked
          · exact hs.fits i session hsession original hold
          · exact passesAgain_of_visible hchecked
        · exact hs.fits j other hj original ho
      exact passesAgain_congr hsum (by rw [hledger])
    · rw [hledger]
      exact hs.own j originalKey (ne_of_set hsession hset hne)
  | @inserted row next hinsert hset _ hsummed hnames _ _ =>
    refine ⟨fun j other hj original ho ↦ ?_, fun j originalKey hne ↦ ?_⟩
    · have hsum : passesAgain server other original := by
        rcases getElem?_set_cases hset hj with rfl | ⟨-, hj⟩
        · exact hs.fits i session hsession original (hsummed ▸ ho)
        · exact hs.fits j other hj original ho
      exact passesAgain_congr hsum (Versions.committedSum_insert hinsert)
    · have hold := ne_of_set hsession hset hne
      rw [Versions.pendingSum_insert hinsert, hs.own j originalKey hold, zero_add, if_neg]
      rintro ⟨rfl, hrow⟩
      rw [names, hnames, beq_iff_eq, Option.some.injEq] at hrow
      exact hold session hsession hrow
  | rolledBack hledger hset => exact fitting_rollback hs hsession hledger hset
  | committed hnext hledger hset =>
    refine fitting_returned hs hsession hset (fun j other hji hj original ho ↦ ?_)
      fun j originalKey h ↦ ?_
    · -- the others that have summed are about other originals
      rw [hledger, Versions.committedSum_commit, hs.own i _ fun committing hcommitting heq ↦ ?_,
        add_zero]
      have hcommits : committing.next.commits = true := by
        obtain rfl := Option.some.inj (hsession.symm.trans hcommitting)
        rw [hnext]
        rfl
      have hnone := hapart committing hcommitting hcommits j hji other hj heq.symm
      cases hnone.symm.trans ho
    · rw [hledger, Versions.pendingSum_commit, h, ite_self]

theorem fitting_begin (hs : Fitting server) {session : Session}
    (hnext : session.next.summed? = none) :
    Fitting { server with sessions := server.sessions ++ [session] } where
  fits j other hj original ho := by
    rcases List.mem_append.1 (List.mem_of_getElem? hj) with hold | hnew
    · obtain ⟨k, hk⟩ := List.mem_iff_getElem?.1 hold
      exact hs.fits k other hk original ho
    · rw [List.mem_singleton.1 hnew, hnext] at ho
      cases ho
  own j originalKey hne := by
    refine hs.own j originalKey fun other hother ↦ hne other ?_
    have hlt := (List.getElem?_eq_some_iff.1 hother).1
    exact (List.getElem?_append_left hlt).trans hother

theorem fitting_step (hr : Reversing server) (hs : Fitting server) (hapart : Apart server e)
    (h : server.step e = some server') : Fitting server' := by
  cases e with
  | reverse params =>
    cases h
    split
    · exact fitting_begin hs rfl
    · exact fitting_begin hs rfl
  | statement i =>
    obtain ⟨session, hsession, hexecute⟩ := Option.bind_eq_some_iff.1 h
    exact fitting_executed hs hsession hapart
      (executed_of_execute (hr.nonneg session (List.mem_of_getElem? hsession)) hexecute)
  | abort i err =>
    simp only [Server.step] at h
    split at h
    · rename_i session hsession
      split at h
      · cases h
      · cases h
        exact fitting_rollback hs hsession rfl rfl
    · cases h

theorem stillFits_of_fitting (hs : Fitting server) : StillFits server e := by
  cases e with
  | statement i =>
    intro session hsession
    unfold FitsAtCommit
    split
    · rename_i original locked balance hnext
      exact hs.fits i session hsession original (by rw [hnext]; rfl)
    · trivial
  | reverse params => trivial
  | abort i err => trivial

theorem fitting_ofDb (db : Db) : Fitting (Server.ofDb db) where
  fits i session h := by simp [Server.ofDb] at h
  own i originalKey _ := by
    rw [Versions.pendingSum, Table.sumWhere, List.filter_eq_nil_iff.2]
    · rfl
    · intro v hv
      obtain ⟨row, -, rfl⟩ := List.mem_map.1 hv
      simp

end Fitting

/-! ### Runs -/

theorem reversing_ofDb {db : Db} (h : NotOverReversed (Server.ofDb db)) :
    Reversing (Server.ofDb db) := by
  refine ⟨h, fun i originalKey ↦ ?_, fun v hv hwriter ↦ ?_, ?_, ?_⟩
  · rw [Versions.pendingSum, Table.sumWhere, List.filter_eq_nil_iff.2]
    · rfl
    · intro v hv
      obtain ⟨row, -, rfl⟩ := List.mem_map.1 hv
      simp
  · obtain ⟨row, -, rfl⟩ := List.mem_map.1 hv
    exact absurd rfl hwriter
  · simp [Server.ofDb]
  · simp [Server.ofDb]

/-- **When calls still fit.** No call commits between the sum and the commit of another one that
reverses the same original: then the check of every call passes at its commit as well. -/
theorem stillFits_of_apart {db : Db} {server : Server} {h : List (Server × ServerEvent)}
    (h0 : NotOverReversed (Server.ofDb db)) (hr : Run Server.step (Server.ofDb db) h server)
    (hapart : ∀ p ∈ h, Apart p.1 p.2) : ∀ p ∈ h, StillFits p.1 p.2 := by
  have hstep : ∀ {server : Server} {e : ServerEvent} {server' : Server},
      Reversing server ∧ Fitting server → Apart server e → server.step e = some server' →
        Reversing server' ∧ Fitting server' := fun hs hapart hstep ↦
    ⟨reversing_step hs.1 (stillFits_of_fitting hs.2) hstep, fitting_step hs.1 hs.2 hapart hstep⟩
  have hall := Run.forall_mem_of_forall (P := fun server ↦ Reversing server ∧ Fitting server)
    ⟨reversing_ofDb h0, fitting_ofDb db⟩ hstep hr hapart
  exact fun p hp ↦ stillFits_of_fitting (hall p hp).2

/-- **No over-reversal over runs.** In every interleaving of the statements of any number of
reversals, from any store without an over-reversed credit, in which every call that commits still
fits into what is left of its original, no credit is ever reversed by more than its amount. -/
theorem notOverReversed_of_run {db : Db} {server : Server} {h : List (Server × ServerEvent)}
    (h0 : NotOverReversed (Server.ofDb db)) (hr : Run Server.step (Server.ofDb db) h server)
    (hfits : ∀ p ∈ h, StillFits p.1 p.2) : NotOverReversed server :=
  (Run.invariant_of_forall (P := Reversing) (c := StillFits) (reversing_ofDb h0)
    (fun hs hc hstep ↦ reversing_step hs hc hstep) hr hfits).notOver

/-- Two concurrent reversals, of 60 and of 40, which together are the payment. -/
theorem notOverReversed_of_run_partials : ∃ (server : Server) (h : List (Server × ServerEvent)),
    Run Server.step (Server.ofDb paidStore) h server ∧ reversedOf server "payment" = 100000000 ∧
      NotOverReversed server := by
  obtain ⟨h, server, hr, hcheck⟩ := Run.exists_of_check Server.step (Server.ofDb paidStore)
    ([.reverse (refundOf "part-1" 60), .reverse (refundOf "part-2" 40), .statement 0,
      .statement 1, .statement 0, .statement 1] ++ List.replicate 6 (.statement 1) ++
        List.replicate 6 (.statement 0))
    (fun h server ↦ decide ((∀ p ∈ h, StillFits p.1 p.2) ∧
      reversedOf server "payment" = 100000000)) (by decide +kernel)
  obtain ⟨hfits, hsum⟩ := of_decide_eq_true hcheck
  exact ⟨server, h, hr, hsum, notOverReversed_of_run (by decide +kernel) hr hfits⟩

/-- Credits are over-reversed in some runs: these two calls both read that nothing was reversed
before either commits, and take 120 back of 100. -/
theorem not_notOverReversed :
    ¬ ∀ (server : Server) (h : List (Server × ServerEvent)),
      Run Server.step (Server.ofDb paidStore) h server → NotOverReversed server := by
  intro hall
  obtain ⟨h, server, hr, hcheck⟩ := Run.exists_of_check Server.step (Server.ofDb paidStore)
    ([.reverse (refundOf "part-1" 60), .reverse (refundOf "part-2" 60), .statement 0,
      .statement 0, .statement 1, .statement 1] ++ List.replicate 6 (.statement 0) ++
        List.replicate 6 (.statement 1))
    (fun _ server ↦ decide (reversedOf server "payment" = 120000000 ∧ ¬ NotOverReversed server))
    (by decide +kernel)
  exact (of_decide_eq_true hcheck).2 (hall server h hr)

end ModelConnector
