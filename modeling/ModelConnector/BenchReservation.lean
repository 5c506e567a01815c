import ModelConnector.Bench.Replies
import ModelConnector.Foundations.Run

/-!
# Safety of bench reservations

However calls overlap, and wherever they are lost, what was signed for stays within the caps, and
the receipts lie on one chain. What carries this is `Safe`: the local reservations are a chain to
the local head, and the checkpoint is either level with the local head or exactly one reservation
ahead of it, the one of the only call whose append took effect and whose own transaction did not.

When that transaction is gone the checkpoint stays ahead for good: no call can append a second time,
so neither database ever moves again.
-/

namespace ModelConnector.Bench

variable {custody : Custody} {sha256 : String → String} {base : Head}

/-! ### Invariants -/

/-- The primary database of a chain. -/
structure Ledger (sha256 : String → String) (base : Head) (db : Primary) : Prop where
  chained : Chained sha256 base db.reservations db.campaign.toHead
  attempts : (db.reservations.map ReservationRow.attempt).Nodup
  nonces : (db.reservations.map ReservationRow.nonce).Nodup
  caps : db.campaign.toHead.aggregate ≤ CAPS

/-- The call has not sent the commit of its append. -/
def Phase.early : Phase → Bool
  | .locking | .chaining | .reading | .deduping | .anchoring | .casting | .recording => true
  | _ => false

/-- The call has its campaign row locked, and has not written to the primary database. -/
def Phase.reading? : Phase → Bool
  | .chaining | .reading | .deduping | .anchoring | .casting | .recording | .anchorCommit
  | .inserting => true
  | _ => false

/-- The append of a call took effect and its own transaction did not. -/
def Call.Pending (call : Call) : Prop :=
  call.anchored = true ∧ call.committed = false

/-- What a call knows, when the primary database is `db`. -/
structure Call.Sound (sha256 : String → String) (base : Head) (db : Primary) (call : Call) :
    Prop where
  attempt_eq : call.grant.attempt = call.request.attempt
  attempts_eq : call.request.reserved.attempts = 1
  /-- The head it has locked is the local head or an earlier one. -/
  previous_eq : ∀ p, call.previous = some p → p.campaign = call.grant.campaign ∧
    p.aggregate.attempts = p.sequence ∧
    (p = db.campaign.toHead ∨ p.sequence < db.campaign.sequence)
  next_eq : ∀ n, call.next = some n → ∃ p, call.previous = some p ∧
    n = succHead sha256 p call.request ∧ n.aggregate ≤ CAPS
  anchored_next : call.anchored = true → ∃ n, call.next = some n
  committed_placed : call.committed = true → call.anchored = true ∧ ∃ p n,
    call.previous = some p ∧ call.next = some n ∧
      Placed sha256 base db.reservations p (call.reservationRow sha256 p n)
  locking_none : call.phase = .locking → call.previous = none
  early_false : call.phase.early = true → call.anchored = false
  anchoring_next : call.phase = .anchoring → ∃ n, call.next = some n
  inserting_anchored : call.phase = .inserting → call.anchored = true
  reserved_eq : ∀ r, call.phase = .reserved r → call.committed = true ∧ ∃ p n,
    call.previous = some p ∧ call.next = some n ∧ r = call.receipt p n

/-- The view a call is to publish: `moves` of the database with the reservation of the call. -/
def Call.Writes (sha256 : String → String) (db : Primary) (call : Call)
    (moves : Head → Primary → Primary) (view : Primary) : Prop :=
  call.anchored = true ∧ ∃ p n, call.previous = some p ∧ call.next = some n ∧
    db.Unused (call.reservationRow sha256 p n) ∧
      view = moves n
        { db with reservations := db.reservations ++ [call.reservationRow sha256 p n] }

/-- What the open transaction of the primary database holds, by the call it is of. -/
structure HoldsPrimary (sha256 : String → String) (db : Primary) (call : Call)
    (hd : Holder Primary) : Prop where
  committed_eq : call.committed = false
  reading_view : call.phase.reading? = true → hd.view = db
  updating_view : call.phase = .updating → call.Writes sha256 db (fun _ db ↦ db) hd.view
  committing_view : hd.committing = true →
    call.Writes sha256 db (fun n db ↦ db.moved n) hd.view

/-- What the open transaction of the checkpoint database holds, by the call it is of. -/
structure HoldsCheckpoint (db : Checkpoint) (call : Call) (hd : Holder Checkpoint) : Prop where
  anchored_eq : call.anchored = false
  next_isSome : ∃ n, call.next = some n
  casting_view : call.phase = .casting → hd.view.row = db.row
  recording_view : call.phase = .recording ∨ hd.committing = true →
    call.previous = some db.row.toHead ∧ call.next = some hd.view.row.toHead
  committing_late : hd.committing = true → call.phase.early = false

/-- The checkpoint is level with the local head, or one reservation ahead of it. -/
inductive Tip (s : Campaign) : Prop
  | level : s.checkpoint.db.row.toHead = s.primary.db.campaign.toHead →
      (∀ id call, s.calls id = some call → ¬call.Pending) → Tip s
  | ahead (id : ℕ) (call : Call) : s.calls id = some call → call.Pending →
      call.previous = some s.primary.db.campaign.toHead →
      call.next = some s.checkpoint.db.row.toHead →
      (∀ id' call', s.calls id' = some call' → call'.Pending → id' = id) → Tip s

/-- The invariant of a campaign. -/
structure Safe (sha256 : String → String) (base : Head) (s : Campaign) : Prop where
  ledger : Ledger sha256 base s.primary.db
  sound : ∀ id call, s.calls id = some call → call.Sound sha256 base s.primary.db
  primary : ∀ hd, s.primary.holder = some hd →
    ∃ call, s.calls hd.owner = some call ∧ HoldsPrimary sha256 s.primary.db call hd
  checkpoint : ∀ hd, s.checkpoint.holder = some hd →
    ∃ call, s.calls hd.owner = some call ∧ HoldsCheckpoint s.checkpoint.db call hd
  tip : Tip s
  apart : ∀ id id' call call' n n', s.calls id = some call → s.calls id' = some call' →
    call.committed = true → call'.committed = true → call.next = some n → call'.next = some n' →
      n.sequence = n'.sequence → id = id'
  issued_reserved : ∀ p ∈ s.issued, ∃ call, s.calls p.1 = some call ∧ call.phase = .reserved p.2
  issued_nodup : (s.issued.map Prod.fst).Nodup

/-! ### Calls that go on -/

section Frame

variable {s s' : Campaign} {id : ℕ} {call call' : Call}

theorem set_calls_self (s : Campaign) (id : ℕ) (call : Call) :
    (s.set id call).calls id = some call :=
  Function.update_self _ _ _

theorem set_calls_of_ne (s : Campaign) {id id' : ℕ} (call : Call) (h : id' ≠ id) :
    (s.set id call).calls id' = s.calls id' :=
  Function.update_of_ne h _ _

/-- A call of the state after a change of one is the changed one or an old one. -/
theorem set_calls_cases {id' : ℕ} (h : (s.set id call').calls id' = some call) :
    id' = id ∧ call = call' ∨ id' ≠ id ∧ s.calls id' = some call := by
  by_cases hid : id' = id
  · subst hid
    rw [set_calls_self] at h
    exact .inl ⟨rfl, (Option.some.inj h).symm⟩
  · rw [set_calls_of_ne s call' hid] at h
    exact .inr ⟨hid, h⟩

/-- The holder of one database, after a change of one call that keeps the database. -/
theorem holds_set {δ : Type} {db : δ} {holder : Option (Holder δ)} {P : δ → Call → Holder δ → Prop}
    (hs : ∀ hd, holder = some hd → ∃ call, s.calls hd.owner = some call ∧ P db call hd)
    (hcall : s.calls id = some call)
    (hstep : ∀ hd, hd.owner = id → P db call hd → P db call' hd) :
    ∀ hd, holder = some hd →
      ∃ call, (s.set id call').calls hd.owner = some call ∧ P db call hd := by
  intro hd hhd
  obtain ⟨c, hc, hp⟩ := hs hd hhd
  by_cases hid : hd.owner = id
  · rw [hid, hcall] at hc
    cases hc
    exact ⟨call', by rw [hid, set_calls_self], hstep hd hid hp⟩
  · exact ⟨c, by rw [set_calls_of_ne s call' hid, hc], hp⟩

/-- The holder of one database, when it is the call that has changed. -/
theorem holds_own {δ : Type} {db : δ} {hd₀ : Holder δ} {P : δ → Call → Holder δ → Prop}
    (howner : hd₀.owner = id) (hp : P db call' hd₀) :
    ∀ hd, some hd₀ = some hd →
      ∃ call, (s.set id call').calls hd.owner = some call ∧ P db call hd := by
  intro hd hhd
  cases hhd
  exact ⟨call', by rw [howner, set_calls_self], hp⟩

theorem holds_write {δ : Type} {db view : δ} {l : Locked δ} {hd₀ : Holder δ}
    {P : δ → Call → Holder δ → Prop} (hholder : l.holder = some hd₀) (howner : hd₀.owner = id)
    (hp : P db call' { hd₀ with view }) :
    ∀ hd, (l.write view).holder = some hd →
      ∃ call, (s.set id call').calls hd.owner = some call ∧ P db call hd := by
  rw [Locked.write_holder hholder]
  exact holds_own howner hp

theorem holds_requestCommit {δ : Type} {db view : δ} {l : Locked δ} {hd₀ : Holder δ}
    {P : δ → Call → Holder δ → Prop} (hholder : l.holder = some hd₀) (howner : hd₀.owner = id)
    (hp : P db call' { hd₀ with view, committing := true }) :
    ∀ hd, (l.write view).requestCommit.holder = some hd →
      ∃ call, (s.set id call').calls hd.owner = some call ∧ P db call hd := by
  rw [Locked.write_requestCommit_holder hholder]
  exact holds_own howner hp

/-- A change of one call that keeps both databases, and what the call has done to them. -/
structure Kept (s s' : Campaign) (id : ℕ) (call call' : Call) : Prop where
  primary_db : s'.primary.db = s.primary.db
  checkpoint_db : s'.checkpoint.db = s.checkpoint.db
  calls_eq : s'.calls = (s.set id call').calls
  anchored_eq : call'.anchored = call.anchored
  committed_eq : call'.committed = call.committed
  heads_eq : call.anchored = true → call'.previous = call.previous ∧ call'.next = call.next

theorem Tip.keep (ht : Tip s) (hcall : s.calls id = some call) (hk : Kept s s' id call call') :
    Tip s' := by
  have hpending : call'.Pending ↔ call.Pending := by
    rw [Call.Pending, Call.Pending, hk.anchored_eq, hk.committed_eq]
  have hcalls : ∀ id' c, s'.calls id' = some c → c.Pending →
      ∃ c', s.calls id' = some c' ∧ c'.Pending := by
    intro id' c hc hp
    rw [hk.calls_eq] at hc
    rcases set_calls_cases hc with ⟨rfl, rfl⟩ | ⟨-, hc⟩
    · exact ⟨call, hcall, hpending.1 hp⟩
    · exact ⟨c, hc, hp⟩
  cases ht with
  | level heq hnone =>
    refine .level (by rw [hk.checkpoint_db, hk.primary_db, heq]) fun id' c hc hp ↦ ?_
    obtain ⟨c', hc', hp'⟩ := hcalls id' c hc hp
    exact hnone id' c' hc' hp'
  | ahead i c hc hp hprevious hnext hunique =>
    have hunique' : ∀ id' c', s'.calls id' = some c' → c'.Pending → id' = i := by
      intro id' c' hc' hp'
      obtain ⟨c'', hc'', hp''⟩ := hcalls id' c' hc' hp'
      exact hunique id' c'' hc'' hp''
    by_cases hid : i = id
    · subst hid
      rw [hcall] at hc
      cases hc
      obtain ⟨hp₁, hn₁⟩ := hk.heads_eq hp.1
      exact .ahead i call' (by rw [hk.calls_eq, set_calls_self]) (hpending.2 hp)
        (by rw [hk.primary_db, hp₁, hprevious]) (by rw [hk.checkpoint_db, hn₁, hnext]) hunique'
    · exact .ahead i c (by rw [hk.calls_eq, set_calls_of_ne s call' hid, hc]) hp
        (by rw [hk.primary_db, hprevious]) (by rw [hk.checkpoint_db, hnext]) hunique'

/-- A call goes on: what is left to see is that the call and the open transactions are sound. -/
theorem Safe.keep (hs : Safe sha256 base s) (hcall : s.calls id = some call)
    (hk : Kept s s' id call call') (hsound : call'.Sound sha256 base s.primary.db)
    (hprimary : ∀ hd, s'.primary.holder = some hd →
      ∃ c, (s.set id call').calls hd.owner = some c ∧ HoldsPrimary sha256 s.primary.db c hd)
    (hcheckpoint : ∀ hd, s'.checkpoint.holder = some hd →
      ∃ c, (s.set id call').calls hd.owner = some c ∧ HoldsCheckpoint s.checkpoint.db c hd)
    (hissued : ∀ p ∈ s'.issued, ∃ c, (s.set id call').calls p.1 = some c ∧ c.phase = .reserved p.2)
    (hnodup : (s'.issued.map Prod.fst).Nodup) : Safe sha256 base s' where
  ledger := by rw [hk.primary_db]; exact hs.ledger
  sound := by
    intro id' c hc
    rw [hk.calls_eq] at hc
    rw [hk.primary_db]
    rcases set_calls_cases hc with ⟨-, rfl⟩ | ⟨-, hc⟩
    · exact hsound
    · exact hs.sound id' c hc
  primary := by rw [hk.primary_db, hk.calls_eq]; exact hprimary
  checkpoint := by rw [hk.checkpoint_db, hk.calls_eq]; exact hcheckpoint
  tip := hs.tip.keep hcall hk
  apart := by
    have hold : ∀ id' c n, s'.calls id' = some c → c.committed = true → c.next = some n →
        ∃ c', s.calls id' = some c' ∧ c'.committed = true ∧ c'.next = some n := by
      intro id' c n hc hcommitted hn
      rw [hk.calls_eq] at hc
      rcases set_calls_cases hc with ⟨rfl, rfl⟩ | ⟨-, hc⟩
      · have hcommitted' : call.committed = true := by rw [← hk.committed_eq, hcommitted]
        obtain ⟨hanchored, -⟩ := (hs.sound id' call hcall).committed_placed hcommitted'
        exact ⟨call, hcall, hcommitted', by rw [← (hk.heads_eq hanchored).2, hn]⟩
      · exact ⟨c, hc, hcommitted, hn⟩
    intro i i' c c' n n' hc hc' hcommitted hcommitted' hn hn' hseq
    obtain ⟨d, hd, hdc, hdn⟩ := hold i c n hc hcommitted hn
    obtain ⟨d', hd', hdc', hdn'⟩ := hold i' c' n' hc' hcommitted' hn'
    exact hs.apart i i' d d' n n' hd hd' hdc hdc' hdn hdn' hseq
  issued_reserved := by rw [hk.calls_eq]; exact hissued
  issued_nodup := hnodup

/-- The receipts that were signed are still those of calls that ended. -/
theorem Safe.issued_set (hs : Safe sha256 base s) (hcall : s.calls id = some call)
    (hphase : ∀ r, call.phase ≠ .reserved r) :
    ∀ p ∈ s.issued, ∃ c, (s.set id call').calls p.1 = some c ∧ c.phase = .reserved p.2 := by
  intro p hp
  obtain ⟨c, hc, hreserved⟩ := hs.issued_reserved p hp
  have hne : p.1 ≠ id := by
    intro heq
    rw [heq, hcall] at hc
    cases hc
    exact hphase _ hreserved
  exact ⟨c, by rw [set_calls_of_ne s call' hne, hc], hreserved⟩

end Frame

section Moves

variable {s s' : Campaign} {id : ℕ} {call : Call} {phase : Phase}

theorem Call.Sound.set_phase {db : Primary} (hs : call.Sound sha256 base db)
    (hlocking : phase ≠ .locking) (hearly : phase.early = true → call.anchored = false)
    (hanchoring : phase ≠ .anchoring) (hinserting : phase = .inserting → call.anchored = true)
    (hreserved : ∀ r, phase = .reserved r → call.committed = true ∧ ∃ p n,
      call.previous = some p ∧ call.next = some n ∧ r = call.receipt p n) :
    Call.Sound sha256 base db { call with phase } :=
  { hs with
    locking_none := fun h ↦ absurd h hlocking
    early_false := hearly
    anchoring_next := fun h ↦ absurd h hanchoring
    inserting_anchored := hinserting
    reserved_eq := hreserved }

theorem HoldsPrimary.set_phase {db : Primary} {hd : Holder Primary}
    (h : HoldsPrimary sha256 db call hd)
    (hreading : phase.reading? = true → call.phase.reading? = true) (hupdating : phase ≠ .updating) :
    HoldsPrimary sha256 db { call with phase } hd where
  committed_eq := h.committed_eq
  reading_view := fun hr ↦ h.reading_view (hreading hr)
  updating_view := fun hu ↦ absurd hu hupdating
  committing_view := h.committing_view

theorem HoldsCheckpoint.set_phase {db : Checkpoint} {hd : Holder Checkpoint}
    (h : HoldsCheckpoint db call hd) (hcasting : phase ≠ .casting) (hrecording : phase ≠ .recording)
    (hlate : phase.early = true → call.phase.early = true) :
    HoldsCheckpoint db { call with phase } hd where
  anchored_eq := h.anchored_eq
  next_isSome := h.next_isSome
  casting_view := fun hc ↦ absurd hc hcasting
  recording_view := fun hr ↦ h.recording_view (.inr (hr.resolve_left hrecording))
  committing_late := by
    intro hc
    have hlate' := h.committing_late hc
    cases hphase : phase.early with
    | false => rfl
    | true => rw [hlate hphase] at hlate'; cases hlate'

/-- A change of nothing but what the call waits for, and of the open transactions. -/
theorem Kept.of_phase (hprimary : s'.primary.db = s.primary.db)
    (hcheckpoint : s'.checkpoint.db = s.checkpoint.db)
    (hcalls : s'.calls = (s.set id { call with phase }).calls) :
    Kept s s' id call { call with phase } :=
  ⟨hprimary, hcheckpoint, hcalls, rfl, rfl, fun _ ↦ ⟨rfl, rfl⟩⟩

/-- The transactions of a call that is refused or waits for something else are as they were. -/
theorem Safe.set_phase (hs : Safe sha256 base s) (hcall : s.calls id = some call)
    (hphase : ∀ r, call.phase ≠ .reserved r)
    (hsound : Call.Sound sha256 base s.primary.db { call with phase })
    (hreading : phase.reading? = true → call.phase.reading? = true) (hupdating : phase ≠ .updating)
    (hcasting : phase ≠ .casting) (hrecording : phase ≠ .recording)
    (hlate : phase.early = true → call.phase.early = true) :
    Safe sha256 base (s.set id { call with phase }) :=
  hs.keep hcall (.of_phase rfl rfl rfl) hsound
    (holds_set hs.primary hcall fun _ _ h ↦ h.set_phase hreading hupdating)
    (holds_set hs.checkpoint hcall fun _ _ h ↦ h.set_phase hcasting hrecording hlate)
    (hs.issued_set hcall hphase) hs.issued_nodup

theorem Call.Sound.refused {db : Primary} (hs : call.Sound sha256 base db) (condition : String) :
    Call.Sound sha256 base db { call with phase := .refused condition } :=
  hs.set_phase (by simp) (by simp [Phase.early]) (by simp) (by simp) (by simp)

/-- What a call that has taken the lock of the primary database can hold. -/
theorem HoldsPrimary.acquired {db : Primary} (hcommitted : call.committed = false)
    (hphase : call.phase ≠ .updating) :
    HoldsPrimary sha256 db call { owner := id, view := db } where
  committed_eq := hcommitted
  reading_view := fun _ ↦ rfl
  updating_view := fun h ↦ absurd h hphase
  committing_view := fun h ↦ by cases h

/-- What a call that has taken the lock of the checkpoint can hold. -/
theorem HoldsCheckpoint.acquired {db : Checkpoint} (hanchored : call.anchored = false)
    (hnext : ∃ n, call.next = some n) (hphase : call.phase ≠ .recording) :
    HoldsCheckpoint db call { owner := id, view := db } where
  anchored_eq := hanchored
  next_isSome := hnext
  casting_view := fun _ ↦ rfl
  recording_view := by
    rintro (h | h)
    · exact absurd h hphase
    · cases h
  committing_late := fun h ↦ by cases h

/-- A call that still waits for the campaign row has no head and no append. -/
theorem Call.Sound.locking {db : Primary} (hs : call.Sound sha256 base db)
    (hphase : call.phase = .locking) :
    call.previous = none ∧ call.next = none ∧ call.anchored = false ∧ call.committed = false := by
  have hprevious := hs.locking_none hphase
  have hnext : call.next = none := by
    cases hn : call.next with
    | none => rfl
    | some n =>
      obtain ⟨p, hp, -⟩ := hs.next_eq n hn
      rw [hprevious] at hp
      cases hp
  have hanchored : call.anchored = false := hs.early_false (by rw [hphase]; rfl)
  refine ⟨hprevious, hnext, hanchored, ?_⟩
  cases hc : call.committed with
  | false => rfl
  | true => rw [(hs.committed_placed hc).1] at hanchored; cases hanchored

/-! ### One lemma for each move -/

/-- The row of the head it compares with. -/
theorem CheckpointRow.toHead_eq_of_cas {row : CheckpointRow} {p : Head}
    (hattempts : p.aggregate.attempts = p.sequence)
    (h : row.campaign = p.campaign ∧ row.journal_id = p.journal ∧
      row.sequence = p.aggregate.attempts ∧ row.input_tokens = p.aggregate.input ∧
      row.output_tokens = p.aggregate.output ∧ row.head_sha256 = p.head) : row.toHead = p := by
  obtain ⟨hcampaign, hjournal, hsequence, hinput, houtput, hhead⟩ := h
  exact Head.ext hcampaign hjournal (hsequence.trans hattempts)
    (Counters.ext hsequence hinput houtput) hhead

/-- The row that was moved to a head says that head. -/
theorem CheckpointRow.toHead_moved (row : CheckpointRow) {n : Head}
    (hcampaign : row.campaign = n.campaign) (hjournal : row.journal_id = n.journal)
    (hattempts : n.aggregate.attempts = n.sequence) :
    CheckpointRow.toHead { row with
      sequence := n.sequence
      input_tokens := n.aggregate.input
      output_tokens := n.aggregate.output
      head_sha256 := n.head } = n :=
  Head.ext hcampaign hjournal rfl (Counters.ext hattempts.symm rfl rfl) rfl

theorem Primary.toHead_moved (db : Primary) {n : Head}
    (hcampaign : db.campaign.campaign = n.campaign) (hjournal : db.campaign.journal_id = n.journal)
    (hattempts : n.aggregate.attempts = n.sequence) : (db.moved n).campaign.toHead = n :=
  Head.ext hcampaign hjournal rfl (Counters.ext hattempts.symm rfl rfl) rfl

variable {primary : Locked Primary} {checkpoint : Locked Checkpoint} {condition : String}

theorem Safe.refuse (hs : Safe sha256 base s) (hcall : s.calls id = some call)
    (hphase : ∀ r, call.phase ≠ .reserved r) :
    Safe sha256 base (s.set id { call with phase := .refused condition }) :=
  hs.set_phase hcall hphase ((hs.sound id call hcall).refused condition) (by simp [Phase.reading?])
    (by simp) (by simp) (by simp) (by simp [Phase.early])

theorem Safe.refuseLocked (hs : Safe sha256 base s) (hcall : s.calls id = some call)
    (hphase : call.phase = .locking) (hacquire : s.primary.acquire id = some primary) :
    Safe sha256 base
      ({ s with primary }.set id { call with phase := .refused condition }) := by
  obtain ⟨-, rfl⟩ := Locked.acquire_eq_some hacquire
  have hsound := hs.sound id call hcall
  obtain ⟨-, -, -, hcommitted⟩ := hsound.locking hphase
  refine hs.keep hcall (.of_phase rfl rfl rfl) (hsound.refused condition)
    (holds_own rfl (.acquired hcommitted (by simp)))
    (holds_set hs.checkpoint hcall fun _ _ h ↦
      h.set_phase (by simp) (by simp) (by simp [Phase.early]))
    (hs.issued_set hcall (by simp [hphase])) hs.issued_nodup

theorem Safe.refuseAnchoring (hs : Safe sha256 base s) (hcall : s.calls id = some call)
    (hphase : call.phase = .anchoring) (hacquire : s.checkpoint.acquire id = some checkpoint) :
    Safe sha256 base
      ({ s with checkpoint }.set id { call with phase := .refused condition }) := by
  obtain ⟨-, rfl⟩ := Locked.acquire_eq_some hacquire
  have hsound := hs.sound id call hcall
  refine hs.keep hcall (.of_phase rfl rfl rfl) (hsound.refused condition)
    (holds_set hs.primary hcall fun _ _ h ↦ h.set_phase (by simp [Phase.reading?]) (by simp))
    (holds_own rfl (.acquired (hsound.early_false (by rw [hphase]; rfl))
      (hsound.anchoring_next hphase) (by simp)))
    (hs.issued_set hcall (by simp [hphase])) hs.issued_nodup

theorem Safe.lock (hs : Safe sha256 base s) (hcall : s.calls id = some call)
    (hphase : call.phase = .locking) (hacquire : s.primary.acquire id = some primary)
    (hcampaign : s.primary.db.campaign.campaign = call.grant.campaign)
    (hbase : base.aggregate.attempts = base.sequence) :
    Safe sha256 base ({ s with primary }.set id
      { call with phase := .chaining, previous := some s.primary.db.campaign.toHead }) := by
  obtain ⟨-, rfl⟩ := Locked.acquire_eq_some hacquire
  have hsound := hs.sound id call hcall
  obtain ⟨-, hnext, hanchored, hcommitted⟩ := hsound.locking hphase
  refine hs.keep hcall ⟨rfl, rfl, rfl, rfl, rfl, fun h ↦ ?_⟩ ?_
    (holds_own rfl (.acquired hcommitted (by simp)))
    (holds_set hs.checkpoint hcall fun hd _ h ↦ ?_)
    (hs.issued_set hcall (by simp [hphase])) hs.issued_nodup
  · rw [hanchored] at h
    cases h
  · exact {
      attempt_eq := hsound.attempt_eq
      attempts_eq := hsound.attempts_eq
      previous_eq := by
        intro p hp
        cases hp
        exact ⟨hcampaign, hs.ledger.chained.attempts_eq hbase, .inl rfl⟩
      next_eq := fun n hn ↦ by rw [hnext] at hn; cases hn
      anchored_next := fun h ↦ by rw [hanchored] at h; cases h
      committed_placed := fun h ↦ by rw [hcommitted] at h; cases h
      locking_none := fun h ↦ by cases h
      early_false := fun _ ↦ hanchored
      anchoring_next := fun h ↦ by cases h
      inserting_anchored := fun h ↦ by cases h
      reserved_eq := fun r h ↦ by cases h }
  · obtain ⟨n, hn⟩ := h.next_isSome
    rw [hnext] at hn
    cases hn

theorem Safe.next {previous : Head} (hs : Safe sha256 base s) (hcall : s.calls id = some call)
    (hphase : call.phase = .deduping) (hprevious : call.previous = some previous)
    (hcaps : (succHead sha256 previous call.request).aggregate ≤ CAPS) :
    Safe sha256 base (s.set id { call with
      phase := .anchoring
      next := some (succHead sha256 previous call.request) }) := by
  have hsound := hs.sound id call hcall
  have hearly : call.phase.early = true := by rw [hphase]; rfl
  have hanchored := hsound.early_false hearly
  -- nothing of this call is anchored or committed yet
  have hcommitted : call.committed = true → False := by
    intro h
    rw [(hsound.committed_placed h).1] at hanchored
    cases hanchored
  refine hs.keep hcall ⟨rfl, rfl, rfl, rfl, rfl, fun h ↦ ?_⟩ ?_
    (holds_set hs.primary hcall fun hd _ h ↦ ?_) (holds_set hs.checkpoint hcall fun hd _ h ↦ ?_)
    (hs.issued_set hcall (by simp [hphase])) hs.issued_nodup
  · rw [hanchored] at h
    cases h
  · exact {
      attempt_eq := hsound.attempt_eq
      attempts_eq := hsound.attempts_eq
      previous_eq := hsound.previous_eq
      next_eq := by
        intro n hn
        cases hn
        exact ⟨previous, hprevious, rfl, hcaps⟩
      anchored_next := fun _ ↦ ⟨_, rfl⟩
      committed_placed := fun h ↦ (hcommitted h).elim
      locking_none := fun h ↦ by cases h
      early_false := fun _ ↦ hanchored
      anchoring_next := fun _ ↦ ⟨_, rfl⟩
      inserting_anchored := fun h ↦ by cases h
      reserved_eq := fun r h ↦ by cases h }
  · exact {
      committed_eq := h.committed_eq
      reading_view := fun _ ↦ h.reading_view (by rw [hphase]; rfl)
      updating_view := fun h ↦ by cases h
      committing_view := fun hc ↦ by
        rw [(h.committing_view hc).1] at hanchored
        cases hanchored }
  · have hopen : hd.committing = true → False := by
      intro hc
      rw [h.committing_late hc] at hearly
      cases hearly
    exact {
      anchored_eq := hanchored
      next_isSome := ⟨_, rfl⟩
      casting_view := fun h ↦ by cases h
      recording_view := by
        rintro (h | h)
        · cases h
        · exact (hopen h).elim
      committing_late := fun h ↦ (hopen h).elim }

theorem Safe.anchor (hs : Safe sha256 base s) (hcall : s.calls id = some call)
    (hphase : call.phase = .anchoring) (hacquire : s.checkpoint.acquire id = some checkpoint) :
    Safe sha256 base ({ s with checkpoint }.set id { call with phase := .casting }) := by
  obtain ⟨-, rfl⟩ := Locked.acquire_eq_some hacquire
  have hsound := hs.sound id call hcall
  have hanchored := hsound.early_false (by rw [hphase]; rfl)
  exact hs.keep hcall (.of_phase rfl rfl rfl)
    (hsound.set_phase (by simp) (fun _ ↦ hanchored) (by simp) (by simp) (by simp))
    (holds_set hs.primary hcall fun _ _ h ↦ h.set_phase (by simp [hphase, Phase.reading?]) (by simp))
    (holds_own rfl (.acquired hanchored (hsound.anchoring_next hphase) (by simp)))
    (hs.issued_set hcall (by simp [hphase])) hs.issued_nodup

theorem Safe.cast {previous next : Head} {db db' : Checkpoint} (hs : Safe sha256 base s)
    (hcall : s.calls id = some call) (hphase : call.phase = .casting)
    (hprevious : call.previous = some previous) (hnext : call.next.getD previous = next)
    (hview : s.checkpoint.view? id = some db) (hupdate : db.compareUpdate previous next = .ok db') :
    Safe sha256 base
      ({ s with checkpoint := s.checkpoint.write db' }.set id { call with phase := .recording }) := by
  have hsound := hs.sound id call hcall
  have hanchored := hsound.early_false (by rw [hphase]; rfl)
  have hholder := Locked.view?_eq_some hview
  obtain ⟨c, hc, hh⟩ := hs.checkpoint _ hholder
  obtain rfl : c = call := Option.some.inj (hc.symm.trans hcall)
  obtain ⟨n, hn⟩ := hh.next_isSome
  obtain rfl : n = next := by rw [hn] at hnext; exact hnext
  obtain ⟨-, hattempts, -⟩ := hsound.previous_eq previous hprevious
  obtain ⟨p, hp, hsucc, -⟩ := hsound.next_eq n hn
  obtain rfl : p = previous := Option.some.inj (hp.symm.trans hprevious)
  obtain ⟨hcas, rfl⟩ := Checkpoint.compareUpdate_ok hupdate
  have hrow : db.row.toHead = p := CheckpointRow.toHead_eq_of_cas hattempts hcas
  have hdb : s.checkpoint.db.row.toHead = p := by rw [← hh.casting_view hphase, hrow]
  have hnrow := CheckpointRow.toHead_moved db.row (n := n)
    (by rw [hsucc]; exact hcas.1) (by rw [hsucc]; exact hcas.2.1)
    (by rw [hsucc]; exact succHead_attempts hattempts hsound.attempts_eq)
  refine hs.keep hcall (.of_phase rfl rfl rfl)
    (hsound.set_phase (by simp) (fun _ ↦ hanchored) (by simp) (by simp) (by simp))
    (holds_set hs.primary hcall fun _ _ h ↦ h.set_phase (by simp [hphase, Phase.reading?]) (by simp))
    (holds_write hholder rfl {
      anchored_eq := hanchored
      next_isSome := ⟨n, hn⟩
      casting_view := fun h ↦ by cases h
      recording_view := fun _ ↦ ⟨by rw [hdb]; exact hp, by rw [hnrow]; exact hn⟩
      committing_late := fun h ↦ by cases h })
    (hs.issued_set hcall (by simp [hphase])) hs.issued_nodup

theorem Safe.record {db db' : Checkpoint} (hs : Safe sha256 base s)
    (hcall : s.calls id = some call) (hphase : call.phase = .recording)
    (hview : s.checkpoint.view? id = some db) (hrow : db'.row = db.row) :
    Safe sha256 base ({ s with checkpoint := (s.checkpoint.write db').requestCommit }.set id
      { call with phase := .anchorCommit }) := by
  have hsound := hs.sound id call hcall
  have hholder := Locked.view?_eq_some hview
  obtain ⟨c, hc, hh⟩ := hs.checkpoint _ hholder
  obtain rfl : c = call := Option.some.inj (hc.symm.trans hcall)
  exact hs.keep hcall (.of_phase rfl rfl rfl)
    (hsound.set_phase (by simp) (by simp [Phase.early]) (by simp) (by simp) (by simp))
    (holds_set hs.primary hcall fun _ _ h ↦ h.set_phase (by simp [hphase, Phase.reading?]) (by simp))
    (holds_requestCommit hholder rfl {
      anchored_eq := hh.anchored_eq
      next_isSome := hh.next_isSome
      casting_view := fun h ↦ by cases h
      recording_view := fun _ ↦ by
        obtain ⟨hprevious, hnext⟩ := hh.recording_view (.inl hphase)
        exact ⟨hprevious, by rw [hrow]; exact hnext⟩
      committing_late := fun _ ↦ rfl })
    (hs.issued_set hcall (by simp [hphase])) hs.issued_nodup

theorem Safe.insert {previous next : Head} {db db' : Primary} (hs : Safe sha256 base s)
    (hcall : s.calls id = some call) (hphase : call.phase = .inserting)
    (hprevious : call.previous = some previous) (hnext : call.next.getD previous = next)
    (hview : s.primary.view? id = some db)
    (hinsert : db.insert (call.reservationRow sha256 previous next) = .ok db') :
    Safe sha256 base
      ({ s with primary := s.primary.write db' }.set id { call with phase := .updating }) := by
  have hsound := hs.sound id call hcall
  have hholder := Locked.view?_eq_some hview
  obtain ⟨c, hc, hh⟩ := hs.primary _ hholder
  obtain rfl : c = call := Option.some.inj (hc.symm.trans hcall)
  obtain rfl : db = s.primary.db := hh.reading_view (by rw [hphase]; rfl)
  have hanchored := hsound.inserting_anchored hphase
  obtain ⟨n, hn⟩ := hsound.anchored_next hanchored
  obtain rfl : n = next := by rw [hn] at hnext; exact hnext
  obtain ⟨hunused, rfl⟩ := Primary.insert_ok hinsert
  exact hs.keep hcall (.of_phase rfl rfl rfl)
    (hsound.set_phase (by simp) (by simp [Phase.early]) (by simp) (by simp) (by simp))
    (holds_write hholder rfl {
      committed_eq := hh.committed_eq
      reading_view := fun h ↦ by cases h
      updating_view := fun _ ↦ ⟨hanchored, previous, n, hprevious, hn, hunused, rfl⟩
      committing_view := fun h ↦ by cases h })
    (holds_set hs.checkpoint hcall fun _ _ h ↦
      h.set_phase (by simp) (by simp) (by simp [Phase.early]))
    (hs.issued_set hcall (by simp [hphase])) hs.issued_nodup

theorem Safe.update {previous next : Head} {db : Primary} (hs : Safe sha256 base s)
    (hcall : s.calls id = some call) (hphase : call.phase = .updating)
    (hprevious : call.previous = some previous) (hnext : call.next.getD previous = next)
    (hview : s.primary.view? id = some db) :
    Safe sha256 base ({ s with primary := (s.primary.write (db.moved next)).requestCommit }.set id
      { call with phase := .committing }) := by
  have hsound := hs.sound id call hcall
  have hholder := Locked.view?_eq_some hview
  obtain ⟨c, hc, hh⟩ := hs.primary _ hholder
  obtain rfl : c = call := Option.some.inj (hc.symm.trans hcall)
  obtain ⟨hanchored, p, n, hp, hn, hunused, hdb⟩ := hh.updating_view hphase
  obtain rfl : p = previous := Option.some.inj (hp.symm.trans hprevious)
  obtain rfl : n = next := by rw [hn] at hnext; exact hnext
  exact hs.keep hcall (.of_phase rfl rfl rfl)
    (hsound.set_phase (by simp) (by simp [Phase.early]) (by simp) (by simp) (by simp))
    (holds_requestCommit hholder rfl {
      committed_eq := hh.committed_eq
      reading_view := fun h ↦ by cases h
      updating_view := fun h ↦ by cases h
      committing_view := fun _ ↦ ⟨hanchored, p, n, hp, hn, hunused,
        congrArg (Primary.moved · n) hdb⟩ })
    (holds_set hs.checkpoint hcall fun _ _ h ↦
      h.set_phase (by simp) (by simp) (by simp [Phase.early]))
    (hs.issued_set hcall (by simp [hphase])) hs.issued_nodup

theorem Safe.issue {previous next : Head} (hs : Safe sha256 base s)
    (hcall : s.calls id = some call) (hphase : call.phase = .committing)
    (hcommitted : call.committed = true) (hprevious : call.previous = some previous)
    (hnext : call.next = some next) :
    Safe sha256 base
      { s.set id { call with phase := .reserved (call.receipt previous next) } with
        issued := s.issued ++ [(id, call.receipt previous next)] } := by
  have hsound := hs.sound id call hcall
  have hold : ∀ p ∈ s.issued, ∃ c, (s.set id
      { call with phase := .reserved (call.receipt previous next) }).calls p.1 = some c ∧
        c.phase = .reserved p.2 := hs.issued_set hcall (by simp [hphase])
  refine hs.keep hcall (.of_phase rfl rfl rfl)
    (hsound.set_phase (by simp) (by simp [Phase.early]) (by simp) (by simp) fun r hr ↦ ?_)
    (holds_set hs.primary hcall fun _ _ h ↦ h.set_phase (by simp [Phase.reading?]) (by simp))
    (holds_set hs.checkpoint hcall fun _ _ h ↦
      h.set_phase (by simp) (by simp) (by simp [Phase.early])) ?_ ?_
  · cases hr
    exact ⟨hcommitted, previous, next, hprevious, hnext, rfl⟩
  · intro p hp
    rcases List.mem_append.1 hp with hp | hp
    · exact hold p hp
    · cases List.mem_singleton.1 hp
      exact ⟨_, set_calls_self _ _ _, rfl⟩
  · rw [List.map_append, List.map_singleton]
    refine List.Nodup.append hs.issued_nodup (List.nodup_singleton _) ?_
    rw [List.disjoint_singleton]
    intro hmem
    obtain ⟨p, hp, rfl⟩ := List.mem_map.1 hmem
    obtain ⟨c, hc, hreserved⟩ := hs.issued_reserved p hp
    rw [hcall] at hc
    cases hc
    rw [hphase] at hreserved
    cases hreserved

/-- A call that moves leaves the campaign safe. -/
theorem Safe.move (hs : Safe custody.sha256 base s)
    (hbase : base.aggregate.attempts = base.sequence) (hcall : s.calls id = some call)
    (hphase : ∀ r, call.phase ≠ .reserved r) (hm : Move custody s id call s') :
    Safe custody.sha256 base s' := by
  have hsound := hs.sound id call hcall
  cases hm with
  | refuse condition => exact hs.refuse hcall hphase
  | refuseLocked condition hphase hacquire => exact hs.refuseLocked hcall hphase hacquire
  | refuseAnchoring condition hphase hacquire => exact hs.refuseAnchoring hcall hphase hacquire
  | lock hphase hacquire hcampaign => exact hs.lock hcall hphase hacquire hcampaign hbase
  | chain hp =>
    have hearly := hsound.early_false (by rw [hp]; rfl)
    exact hs.set_phase hcall hphase
      (hsound.set_phase (by simp) (fun _ ↦ hearly) (by simp) (by simp) (by simp))
      (by simp [hp, Phase.reading?]) (by simp) (by simp) (by simp) (by simp [hp, Phase.early])
  | read hp =>
    have hearly := hsound.early_false (by rw [hp]; rfl)
    exact hs.set_phase hcall hphase
      (hsound.set_phase (by simp) (fun _ ↦ hearly) (by simp) (by simp) (by simp))
      (by simp [hp, Phase.reading?]) (by simp) (by simp) (by simp) (by simp [hp, Phase.early])
  | next hphase hprevious hcaps => exact hs.next hcall hphase hprevious hcaps
  | anchor hphase hacquire => exact hs.anchor hcall hphase hacquire
  | cast hphase hprevious hnext hview hupdate =>
    exact hs.cast hcall hphase hprevious hnext hview hupdate
  | record hphase hview hrow => exact hs.record hcall hphase hview hrow
  | anchored hp hanchored =>
    exact hs.set_phase hcall hphase
      (hsound.set_phase (by simp) (by simp [Phase.early]) (by simp) (fun _ ↦ hanchored) (by simp))
      (by simp [hp, Phase.reading?]) (by simp) (by simp) (by simp) (by simp [Phase.early])
  | insert hphase hprevious hnext hview hinsert =>
    exact hs.insert hcall hphase hprevious hnext hview hinsert
  | update hphase hprevious hnext hview => exact hs.update hcall hphase hprevious hnext hview
  | issue hphase hcommitted hprevious hnext => exact hs.issue hcall hphase hcommitted hprevious hnext

end Moves

/-! ### Commits -/

section Commits

variable {s : Campaign} {id : ℕ} {call : Call}

/-- A call that appends is the only one ahead, from the local head. -/
theorem Safe.append_level (hs : Safe sha256 base s) (hcall : s.calls id = some call)
    (hprevious : call.previous = some s.checkpoint.db.row.toHead) :
    s.checkpoint.db.row.toHead = s.primary.db.campaign.toHead ∧
      ∀ id' call', s.calls id' = some call' → ¬call'.Pending := by
  cases hs.tip with
  | level heq hnone => exact ⟨heq, hnone⟩
  | ahead i c hc _ hp hn _ =>
    -- the checkpoint is past every head that was locked
    obtain ⟨p, hp', hsucc, -⟩ := (hs.sound i c hc).next_eq _ hn
    obtain rfl : p = s.primary.db.campaign.toHead := Option.some.inj (hp'.symm.trans hp)
    have hahead : s.checkpoint.db.row.toHead.sequence =
        s.primary.db.campaign.toHead.sequence + 1 := by rw [hsucc]; rfl
    have hlocal : s.primary.db.campaign.toHead.sequence = s.primary.db.campaign.sequence := rfl
    obtain ⟨-, -, heq | hlt⟩ := (hs.sound id call hcall).previous_eq _ hprevious
    · rw [heq] at hahead
      omega
    · omega

theorem Safe.checkpointCommit {view : Checkpoint} (hs : Safe sha256 base s)
    (hcall : s.calls id = some call)
    (hholder : s.checkpoint.holder = some { owner := id, view, committing := true }) :
    Safe sha256 base
      ({ s with checkpoint := { db := view } }.set id { call with anchored := true }) := by
  have hsound := hs.sound id call hcall
  obtain ⟨c, hc, hh⟩ := hs.checkpoint _ hholder
  obtain rfl : c = call := Option.some.inj (hc.symm.trans hcall)
  obtain ⟨hprevious, hnext⟩ := hh.recording_view (.inr rfl)
  have hlate := hh.committing_late rfl
  obtain ⟨hlevel, hnone⟩ := hs.append_level hcall hprevious
  have hcommitted : c.committed = false := by
    cases h : c.committed with
    | false => rfl
    | true => exact absurd (hsound.committed_placed h).1 (by simp [hh.anchored_eq])
  exact {
    ledger := hs.ledger
    sound := by
      intro id' c' hc'
      rcases set_calls_cases hc' with ⟨-, rfl⟩ | ⟨-, hc'⟩
      · exact { hsound with
          anchored_next := fun _ ↦ ⟨_, hnext⟩
          committed_placed := fun h ↦ by rw [hcommitted] at h; cases h
          early_false := fun h ↦ by rw [hlate] at h; cases h
          inserting_anchored := fun _ ↦ rfl
          reserved_eq := fun r h ↦ by
            have h' := (hsound.reserved_eq r h).1
            rw [hcommitted] at h'
            cases h' }
      · exact hs.sound id' c' hc'
    primary := by
      refine holds_set hs.primary hcall fun hd _ h ↦ ?_
      exact { h with
        updating_view := fun hu ↦ ⟨rfl, (h.updating_view hu).2⟩
        committing_view := fun hc ↦ ⟨rfl, (h.committing_view hc).2⟩ }
    checkpoint := fun hd hhd ↦ by cases hhd
    tip := by
      refine .ahead id { c with anchored := true } (set_calls_self _ _ _) ⟨rfl, hcommitted⟩
        (hprevious.trans (congrArg some hlevel)) hnext fun id' c' hc' hp' ↦ ?_
      rcases set_calls_cases hc' with ⟨rfl, -⟩ | ⟨-, hc'⟩
      · rfl
      · exact absurd hp' (hnone id' c' hc')
    apart := by
      intro i i' d d' n n' hd hd' hdc hdc' hdn hdn' hseq
      rcases set_calls_cases hd with ⟨rfl, rfl⟩ | ⟨-, hd⟩
      · rw [hcommitted] at hdc
        cases hdc
      rcases set_calls_cases hd' with ⟨rfl, rfl⟩ | ⟨-, hd'⟩
      · rw [hcommitted] at hdc'
        cases hdc'
      exact hs.apart i i' d d' n n' hd hd' hdc hdc' hdn hdn' hseq
    issued_reserved := by
      refine hs.issued_set hcall fun r hr ↦ ?_
      have h' := (hsound.reserved_eq r hr).1
      rw [hcommitted] at h'
      cases h'
    issued_nodup := hs.issued_nodup }

/-- The ledger with the reservation of the next head. -/
theorem Ledger.append {db : Primary} {row : ReservationRow} {n : Head}
    (hl : Ledger sha256 base db) (hunused : db.Unused row)
    (hfollows : row.Follows sha256 db.campaign.toHead)
    (hn : n = succHead sha256 db.campaign.toHead row.request)
    (hbase : base.aggregate.attempts = base.sequence) (hcaps : n.aggregate ≤ CAPS) :
    (Primary.moved { db with reservations := db.reservations ++ [row] } n).campaign.toHead = n ∧
    Ledger sha256 base
      (Primary.moved { db with reservations := db.reservations ++ [row] } n) := by
  have hattempts : n.aggregate.attempts = n.sequence := by
    rw [hn]
    exact succHead_attempts (hl.chained.attempts_eq hbase) hfollows.attempts_eq
  have hhead := Primary.toHead_moved { db with reservations := db.reservations ++ [row] }
    (n := n) (by rw [hn]; rfl) (by rw [hn]; rfl) hattempts
  -- nothing of the campaign uses the attempt or the nonce of the row
  have hfree : ∀ r ∈ db.reservations, r.attempt ≠ row.attempt ∧ r.nonce ≠ row.nonce := by
    intro r hr
    have hcampaign : r.campaign = row.campaign := by
      rw [(hl.chained.sequence_of_mem r hr).1, hfollows.campaign_eq, hl.chained.campaign_eq]
    exact ⟨fun h ↦ hunused r hr ⟨hcampaign, .inl h⟩,
      fun h ↦ hunused r hr ⟨hcampaign, .inr (.inl h)⟩⟩
  refine ⟨hhead, ?_, ?_, ?_, by rw [hhead]; exact hcaps⟩
  · rw [hhead, hn]
    exact hl.chained.snoc hfollows
  · change ((db.reservations ++ [row]).map _).Nodup
    rw [List.map_append, List.map_singleton]
    refine hl.attempts.append (List.nodup_singleton _) (List.disjoint_singleton.2 fun h ↦ ?_)
    obtain ⟨r, hr, heq⟩ := List.mem_map.1 h
    exact (hfree r hr).1 heq
  · change ((db.reservations ++ [row]).map _).Nodup
    rw [List.map_append, List.map_singleton]
    refine hl.nonces.append (List.nodup_singleton _) (List.disjoint_singleton.2 fun h ↦ ?_)
    obtain ⟨r, hr, heq⟩ := List.mem_map.1 h
    exact (hfree r hr).2 heq

/-- The reservation of a call follows the head it has locked. -/
theorem Call.Sound.follows {db : Primary} (hs : call.Sound sha256 base db) {p n : Head}
    (hp : call.previous = some p) (hn : call.next = some n) :
    (call.reservationRow sha256 p n).Follows sha256 p := by
  obtain ⟨hcampaign, -, -⟩ := hs.previous_eq p hp
  obtain ⟨p', hp', hsucc, -⟩ := hs.next_eq n hn
  obtain rfl : p' = p := Option.some.inj (hp'.symm.trans hp)
  exact {
    campaign_eq := hcampaign.symm
    attempt_eq := hs.attempt_eq
    nonce_eq := rfl
    sequence_eq := by rw [Progress.reservationRow, hsucc]; rfl
    previous_eq := rfl
    head_eq := by rw [Progress.reservationRow, hsucc]
    attempts_eq := hs.attempts_eq }

/-- What a call knows outlives the reservations that are made later. -/
theorem Call.Sound.mono {db db' : Primary} {rest : List ReservationRow}
    (hs : call.Sound sha256 base db) (hrows : db'.reservations = db.reservations ++ rest)
    (hseq : db.campaign.sequence < db'.campaign.sequence) : call.Sound sha256 base db' :=
  { hs with
    previous_eq := fun p hp ↦ by
      obtain ⟨hcampaign, hattempts, hle⟩ := hs.previous_eq p hp
      refine ⟨hcampaign, hattempts, .inr ?_⟩
      rcases hle with rfl | hlt
      · exact hseq
      · exact hlt.trans hseq
    committed_placed := fun h ↦ by
      obtain ⟨hanchored, p, n, hp, hn, hplaced⟩ := hs.committed_placed h
      exact ⟨hanchored, p, n, hp, hn, by rw [hrows]; exact hplaced.append rest⟩ }

/-- The reservation of a call that committed is at most as far as the local head. -/
theorem Safe.committed_le (hs : Safe sha256 base s) (hcall : s.calls id = some call)
    (hcommitted : call.committed = true) {n : Head} (hn : call.next = some n) :
    n.sequence ≤ s.primary.db.campaign.sequence := by
  obtain ⟨-, p, n', -, hn', hplaced⟩ := (hs.sound id call hcall).committed_placed hcommitted
  obtain rfl : n' = n := Option.some.inj (hn'.symm.trans hn)
  exact (hs.ledger.chained.sequence_of_mem _ hplaced.mem).2

theorem Safe.primaryCommit {view : Primary} (hs : Safe sha256 base s)
    (hbase : base.aggregate.attempts = base.sequence) (hcall : s.calls id = some call)
    (hholder : s.primary.holder = some { owner := id, view, committing := true }) :
    Safe sha256 base
      ({ s with primary := { db := view } }.set id { call with committed := true }) := by
  have hsound := hs.sound id call hcall
  obtain ⟨c, hc, hh⟩ := hs.primary _ hholder
  obtain rfl : c = call := Option.some.inj (hc.symm.trans hcall)
  obtain ⟨hanchored, p, n, hp, hn, hunused, hview⟩ := hh.committing_view rfl
  change view = Primary.moved _ n at hview
  have hpending : c.Pending := ⟨hanchored, hh.committed_eq⟩
  -- the call is the one ahead, so the two databases are level again
  obtain ⟨hlocal, hanchor, honly⟩ : p = s.primary.db.campaign.toHead ∧
      n = s.checkpoint.db.row.toHead ∧
      ∀ id' c', s.calls id' = some c' → c'.Pending → id' = id := by
    cases hs.tip with
    | level _ hnone => exact absurd hpending (hnone id c hcall)
    | ahead i d hd _ hdp hdn honly =>
      obtain rfl := honly id c hcall hpending
      obtain rfl : d = c := Option.some.inj (hd.symm.trans hcall)
      exact ⟨Option.some.inj (hp.symm.trans hdp), Option.some.inj (hn.symm.trans hdn), honly⟩
  subst hlocal
  obtain ⟨p', hp', hsucc, hcaps⟩ := hsound.next_eq n hn
  obtain rfl : p' = s.primary.db.campaign.toHead := Option.some.inj (hp'.symm.trans hp)
  have hfollows := hsound.follows hp hn
  obtain ⟨hhead, hledger⟩ := hs.ledger.append hunused hfollows hsucc hbase hcaps
  have hseq : s.primary.db.campaign.sequence < view.campaign.sequence := by
    rw [hview, Primary.moved, hsucc]
    exact Nat.lt_succ_self _
  have hrows : view.reservations = s.primary.db.reservations ++
      [c.reservationRow sha256 s.primary.db.campaign.toHead n] := by
    rw [hview, Primary.moved]
  have hn' : view.campaign.sequence = n.sequence := by rw [hview, Primary.moved]
  rw [← hview] at hhead hledger
  have hold : ∀ i d m, s.calls i = some d → d.committed = true → d.next = some m →
      m.sequence < n.sequence := by
    intro i d m hd hdc hdm
    exact (hs.committed_le hd hdc hdm).trans_lt (hn' ▸ hseq)
  exact {
    ledger := hledger
    sound := by
      intro id' c' hc'
      rcases set_calls_cases hc' with ⟨-, rfl⟩ | ⟨-, hc'⟩
      · exact { hsound.mono hrows hseq with
          committed_placed := fun _ ↦ ⟨hanchored, _, n, hp, hn, hfollows, s.primary.db.reservations,
            [], hrows, hs.ledger.chained⟩
          reserved_eq := fun r h ↦ ⟨rfl, (hsound.reserved_eq r h).2⟩ }
      · exact (hs.sound id' c' hc').mono hrows hseq
    primary := fun hd hhd ↦ by cases hhd
    checkpoint := holds_set hs.checkpoint hcall fun hd _ h ↦ by
      have h' := h.anchored_eq
      rw [hanchored] at h'
      cases h'
    tip := by
      refine .level (hanchor.symm.trans hhead.symm) fun id' c' hc' hp' ↦ ?_
      rcases set_calls_cases hc' with ⟨-, rfl⟩ | ⟨hne, hc'⟩
      · exact absurd hp'.2 (by simp)
      · exact hne (honly id' c' hc' hp')
    apart := by
      intro i i' d d' m m' hd hd' hdc hdc' hdm hdm' hseq'
      rcases set_calls_cases hd with ⟨rfl, rfl⟩ | ⟨-, hold₁⟩ <;>
        rcases set_calls_cases hd' with ⟨rfl, rfl⟩ | ⟨-, hold₂⟩
      · rfl
      · obtain rfl : m = n := Option.some.inj (hdm.symm.trans hn)
        exact absurd hseq' (hold i' d' m' hold₂ hdc' hdm').ne'
      · obtain rfl : m' = n := Option.some.inj (hdm'.symm.trans hn)
        exact absurd hseq' (hold i d m hold₁ hdc hdm).ne
      · exact hs.apart i i' d d' m m' hold₁ hold₂ hdc hdc' hdm hdm' hseq'
    issued_reserved := by
      refine hs.issued_set hcall fun r hr ↦ ?_
      have h' := (hsound.reserved_eq r hr).1
      rw [hh.committed_eq] at h'
      cases h'
    issued_nodup := hs.issued_nodup }

end Commits

/-! ### Runs -/

section Runs

variable {s s' : Campaign} {e : Event} {bootstrap : Grant}

/-- Every step keeps the campaign safe. -/
theorem Safe.step (hs : Safe custody.sha256 base s)
    (hbase : base.aggregate.attempts = base.sequence) (h : s.step custody e = some s') :
    Safe custody.sha256 base s' := by
  cases step_cases h with
  | skipped => exact hs
  | @admitted id payload grant request lease hnone hattempt hone =>
    have hne : ∀ i c, s.calls i = some c → i ≠ id := by
      rintro i c hc rfl
      rw [hnone] at hc
      cases hc
    have hkeep : ∀ i c, s.calls i = some c →
        (s.set id { payload, grant, request, lease }).calls i = some c := by
      intro i c hc
      rw [set_calls_of_ne s _ (hne i c hc), hc]
    have hold : ∀ i c, (s.set id { payload, grant, request, lease }).calls i = some c →
        c = { payload, grant, request, lease } ∨ s.calls i = some c := by
      intro i c hc
      rcases set_calls_cases hc with ⟨-, rfl⟩ | ⟨-, hc⟩
      · exact .inl rfl
      · exact .inr hc
    exact {
      ledger := hs.ledger
      sound := by
        intro i c hc
        rcases hold i c hc with rfl | hc
        · exact {
            attempt_eq := hattempt
            attempts_eq := hone
            previous_eq := fun p h ↦ by cases h
            next_eq := fun n h ↦ by cases h
            anchored_next := fun h ↦ by cases h
            committed_placed := fun h ↦ by cases h
            locking_none := fun _ ↦ rfl
            early_false := fun _ ↦ rfl
            anchoring_next := fun h ↦ by cases h
            inserting_anchored := fun h ↦ by cases h
            reserved_eq := fun r h ↦ by cases h }
        · exact hs.sound i c hc
      primary := fun hd hhd ↦ by
        obtain ⟨c, hc, hh⟩ := hs.primary hd hhd
        exact ⟨c, hkeep _ c hc, hh⟩
      checkpoint := fun hd hhd ↦ by
        obtain ⟨c, hc, hh⟩ := hs.checkpoint hd hhd
        exact ⟨c, hkeep _ c hc, hh⟩
      tip := by
        cases hs.tip with
        | level heq hpending =>
          refine .level heq fun i c hc hp ↦ ?_
          rcases hold i c hc with rfl | hc
          · cases hp.1
          · exact hpending i c hc hp
        | ahead i c hc hp hprevious hnext honly =>
          refine .ahead i c (hkeep i c hc) hp hprevious hnext fun i' c' hc' hp' ↦ ?_
          rcases hold i' c' hc' with rfl | hc'
          · cases hp'.1
          · exact honly i' c' hc' hp'
      apart := by
        intro i i' c c' n n' hc hc' hcommitted hcommitted' hn hn' hseq
        rcases hold i c hc with rfl | hc
        · cases hcommitted
        rcases hold i' c' hc' with rfl | hc'
        · cases hcommitted'
        exact hs.apart i i' c c' n n' hc hc' hcommitted hcommitted' hn hn' hseq
      issued_reserved := fun p hp ↦ by
        obtain ⟨c, hc, hreserved⟩ := hs.issued_reserved p hp
        exact ⟨c, hkeep _ c hc, hreserved⟩
      issued_nodup := hs.issued_nodup }
  | moved hcall hphase hm => exact hs.move hbase hcall hphase hm
  | checkpointCommit hcall hholder => exact hs.checkpointCommit hcall hholder
  | primaryCommit hcall hholder => exact hs.primaryCommit hbase hcall hholder
  | checkpointAbort => exact { hs with
      checkpoint := fun hd hhd ↦ by cases hhd
      tip := by
        cases hs.tip with
        | level heq hnone => exact .level heq hnone
        | ahead i c hc hp hprevious hnext honly => exact .ahead i c hc hp hprevious hnext honly }
  | primaryAbort => exact { hs with
      primary := fun hd hhd ↦ by cases hhd
      tip := by
        cases hs.tip with
        | level heq hnone => exact .level heq hnone
        | ahead i c hc hp hprevious hnext honly => exact .ahead i c hc hp hprevious hnext honly }

theorem Safe.provisioned (hcaps : bootstrap.retained_baseline ≤ CAPS) :
    Safe custody.sha256 (initialHead custody.sha256 bootstrap)
      (provisioned custody bootstrap) where
  ledger := ⟨.nil, List.nodup_nil, List.nodup_nil, hcaps⟩
  sound := fun _ _ h ↦ by cases h
  primary := fun _ h ↦ by cases h
  checkpoint := fun _ h ↦ by cases h
  tip := .level rfl fun _ _ h ↦ by cases h
  apart := fun _ _ _ _ _ _ h ↦ by cases h
  issued_reserved := fun _ h ↦ by cases h
  issued_nodup := List.nodup_nil

end Runs

/-! ### What was signed -/

section Issued

variable {s : Campaign}

/-- The receipt is for the reservation after a head. -/
structure Receipt.Extends (sha256 : String → String) (receipt : Receipt) (h : Head) : Prop where
  previous_eq : receipt.previous_head_sha256 = h.head
  sequence_eq : receipt.sequence = h.sequence + 1
  aggregate_eq : receipt.aggregate = h.aggregate + receipt.request.reserved
  head_eq : receipt.head_sha256 = (succHead sha256 h receipt.request).head

/-- A receipt and the reservation it is for. -/
def Receipt.For (receipt : Receipt) (row : ReservationRow) : Prop :=
  receipt.request = row.request ∧ receipt.sequence = row.sequence

/-- What was signed for stands in the chain. -/
theorem Safe.placed (hs : Safe sha256 base s) : ∀ p ∈ s.issued, ∃ h row,
    Placed sha256 base s.primary.db.reservations h row ∧ p.2.For row ∧ p.2.Extends sha256 h := by
  intro p hp
  obtain ⟨call, hcall, hphase⟩ := hs.issued_reserved p hp
  have hsound := hs.sound p.1 call hcall
  obtain ⟨hcommitted, h, n, hprevious, hnext, hreceipt⟩ := hsound.reserved_eq _ hphase
  obtain ⟨-, h', n', hp', hn', hplaced⟩ := hsound.committed_placed hcommitted
  obtain rfl : h' = h := Option.some.inj (hp'.symm.trans hprevious)
  obtain rfl : n' = n := Option.some.inj (hn'.symm.trans hnext)
  obtain ⟨h'', hp'', hsucc, -⟩ := hsound.next_eq n' hnext
  obtain rfl : h'' = h' := Option.some.inj (hp''.symm.trans hprevious)
  refine ⟨h'', _, hplaced, ?_, ?_⟩
  · rw [hreceipt]
    exact ⟨rfl, rfl⟩
  · rw [hreceipt, Progress.receipt, hsucc]
    exact ⟨rfl, rfl, rfl, rfl⟩

/-- Two receipts are for two positions, two attempts and two nonces. -/
theorem Safe.issued_pairwise (hs : Safe sha256 base s) :
    s.issued.Pairwise fun p q ↦ p.2.sequence ≠ q.2.sequence ∧
      p.2.request.attempt ≠ q.2.request.attempt ∧ p.2.request.nonce ≠ q.2.request.nonce := by
  have hids : s.issued.Pairwise fun p q ↦ p.1 ≠ q.1 := List.pairwise_map.1 hs.issued_nodup
  refine hids.imp_of_mem fun {p q} hp hq hne ↦ ?_
  have hsequence : p.2.sequence ≠ q.2.sequence := by
    intro heq
    obtain ⟨c, hc, hphase⟩ := hs.issued_reserved p hp
    obtain ⟨c', hc', hphase'⟩ := hs.issued_reserved q hq
    obtain ⟨hcommitted, _, n, _, hn, hr⟩ := (hs.sound _ c hc).reserved_eq _ hphase
    obtain ⟨hcommitted', _, n', _, hn', hr'⟩ := (hs.sound _ c' hc').reserved_eq _ hphase'
    rw [hr, hr'] at heq
    exact hne (hs.apart _ _ c c' n n' hc hc' hcommitted hcommitted' hn hn' heq)
  obtain ⟨h, row, hplaced, hfor, -⟩ := hs.placed p hp
  obtain ⟨h', row', hplaced', hfor', -⟩ := hs.placed q hq
  have hrows : row ≠ row' := by
    rintro rfl
    exact hsequence (hfor.2.trans hfor'.2.symm)
  refine ⟨hsequence, fun heq ↦ hrows ?_, fun heq ↦ hrows ?_⟩
  · refine List.inj_on_of_nodup_map hs.ledger.attempts hplaced.mem hplaced'.mem ?_
    rw [hplaced.1.attempt_eq, hplaced'.1.attempt_eq, ← hfor.1, ← hfor'.1, heq]
  · refine List.inj_on_of_nodup_map hs.ledger.nonces hplaced.mem hplaced'.mem ?_
    rw [hplaced.1.nonce_eq, hplaced'.1.nonce_eq, ← hfor.1, ← hfor'.1, heq]

/-- What was signed for is a part of what was reserved. -/
theorem Safe.issued_le (hs : Safe sha256 base s) :
    base.aggregate + (s.issued.map fun p ↦ p.2.request.reserved).sum ≤ CAPS := by
  have hnodup : (s.issued.map fun p ↦ p.2.request).Nodup :=
    List.pairwise_map.2 (hs.issued_pairwise.imp fun h heq ↦ h.2.2 (by rw [heq]))
  have hsub : (s.issued.map fun p ↦ p.2.request) ⊆
      s.primary.db.reservations.map ReservationRow.request := by
    intro request hrequest
    obtain ⟨p, hp, rfl⟩ := List.mem_map.1 hrequest
    obtain ⟨h, row, hplaced, hfor, -⟩ := hs.placed p hp
    exact List.mem_map.2 ⟨row, hplaced.mem, hfor.1.symm⟩
  obtain ⟨requests, hperm, hsublist⟩ := List.subperm_of_subset hnodup hsub
  have hsum := Counters.sum_le_of_subperm ⟨requests.map ReservationRequest.reserved,
    hperm.map _, hsublist.map _⟩
  rw [List.map_map, List.map_map] at hsum
  have hcaps := hs.ledger.caps
  rw [hs.ledger.chained.aggregate_eq] at hcaps
  exact Counters.le_trans (Counters.add_le_add_left hsum _) hcaps

/-- The later of two receipts extends the earlier one. -/
theorem Safe.issued_extends (hs : Safe sha256 base s) {p q : ℕ × Receipt} (hp : p ∈ s.issued)
    (hq : q ∈ s.issued) (hlt : p.2.sequence < q.2.sequence) :
    p.2.aggregate + q.2.request.reserved ≤ q.2.aggregate ∧
      (q.2.sequence = p.2.sequence + 1 → q.2.previous_head_sha256 = p.2.head_sha256 ∧
        q.2.aggregate = p.2.aggregate + q.2.request.reserved) := by
  obtain ⟨h, row, hplaced, hfor, hext⟩ := hs.placed p hp
  obtain ⟨h', row', hplaced', hfor', hext'⟩ := hs.placed q hq
  rw [hfor.2, hfor'.2] at hlt ⊢
  obtain ⟨hle, hsucc⟩ := hplaced.extends_of_lt hplaced' hlt
  have hnext : p.2.aggregate = (succHead sha256 h row.request).aggregate := by
    rw [hext.aggregate_eq, hfor.1]
    rfl
  refine ⟨?_, fun heq ↦ ⟨?_, ?_⟩⟩
  · rw [hext'.aggregate_eq, hnext, add_comm, add_comm h'.aggregate]
    exact Counters.add_le_add_left hle _
  · rw [hext'.previous_eq, hsucc heq, hext.head_eq, hfor.1]
  · rw [hext'.aggregate_eq, hsucc heq, hnext]

end Issued

/-! ### Frozen campaigns -/

section Frozen

variable {s s' : Campaign} {id : ℕ} {e : Event}

/-- The append of a call took effect, and its own transaction is over and took none. -/
def Campaign.Frozen (s : Campaign) (id : ℕ) : Prop :=
  (∃ call, s.calls id = some call ∧ call.Pending) ∧
    ∀ hd, s.primary.holder = some hd → hd.owner ≠ id

/-- The position of a call that froze the campaign is the one after the local head. -/
theorem Safe.frozen_ahead (hs : Safe sha256 base s) (hf : s.Frozen id) :
    s.checkpoint.db.row.sequence = s.primary.db.campaign.sequence + 1 ∧
      ∀ id' call', s.calls id' = some call' → call'.Pending → id' = id := by
  obtain ⟨⟨call, hcall, hpending⟩, -⟩ := hf
  cases hs.tip with
  | level _ hnone => exact absurd hpending (hnone id call hcall)
  | ahead i c hc hp hprevious hnext honly =>
    obtain rfl := honly id call hcall hpending
    obtain ⟨p, hp', hsucc, -⟩ := (hs.sound _ c hc).next_eq _ hnext
    obtain rfl : p = s.primary.db.campaign.toHead := Option.some.inj (hp'.symm.trans hprevious)
    exact ⟨congrArg Head.sequence hsucc, honly⟩

/-- What a move leaves as it is. -/
theorem Move.kept {call : Call} (hm : Move custody s id call s') :
    s'.primary.db = s.primary.db ∧ s'.checkpoint.db = s.checkpoint.db ∧
      ∃ call' : Call, s'.calls = (s.set id call').calls ∧ call'.anchored = call.anchored ∧
        call'.committed = call.committed := by
  cases hm with
  | refuse => exact ⟨rfl, rfl, _, rfl, rfl, rfl⟩
  | refuseLocked _ _ hacquire =>
    obtain ⟨-, rfl⟩ := Locked.acquire_eq_some hacquire
    exact ⟨rfl, rfl, _, rfl, rfl, rfl⟩
  | refuseAnchoring _ _ hacquire =>
    obtain ⟨-, rfl⟩ := Locked.acquire_eq_some hacquire
    exact ⟨rfl, rfl, _, rfl, rfl, rfl⟩
  | lock _ hacquire =>
    obtain ⟨-, rfl⟩ := Locked.acquire_eq_some hacquire
    exact ⟨rfl, rfl, _, rfl, rfl, rfl⟩
  | anchor _ hacquire =>
    obtain ⟨-, rfl⟩ := Locked.acquire_eq_some hacquire
    exact ⟨rfl, rfl, _, rfl, rfl, rfl⟩
  | _ => exact ⟨rfl, rfl, _, rfl, rfl, rfl⟩

/-- Only a call that waits for the campaign row can take its lock. -/
theorem Move.holder {call : Call} (hm : Move custody s id call s') :
    ∀ hd, s'.primary.holder = some hd →
      (∃ hd', s.primary.holder = some hd' ∧ hd'.owner = hd.owner) ∨
        hd.owner = id ∧ call.phase = .locking := by
  intro hd hhd
  cases hm with
  | refuseLocked _ hphase hacquire =>
    obtain ⟨-, rfl⟩ := Locked.acquire_eq_some hacquire
    cases hhd
    exact .inr ⟨rfl, hphase⟩
  | lock hphase hacquire =>
    obtain ⟨-, rfl⟩ := Locked.acquire_eq_some hacquire
    cases hhd
    exact .inr ⟨rfl, hphase⟩
  | insert _ _ _ hview =>
    have hholder := Locked.view?_eq_some hview
    change (s.primary.write _).holder = some hd at hhd
    rw [Locked.write_holder hholder] at hhd
    cases hhd
    exact .inl ⟨_, hholder, rfl⟩
  | update _ _ _ hview =>
    have hholder := Locked.view?_eq_some hview
    change (s.primary.write _).requestCommit.holder = some hd at hhd
    rw [Locked.write_requestCommit_holder hholder] at hhd
    cases hhd
    exact .inl ⟨_, hholder, rfl⟩
  | _ => exact .inl ⟨hd, hhd, rfl⟩

/-- A frozen campaign stays frozen, and neither database moves. -/
theorem Safe.frozen_step (hs : Safe custody.sha256 base s) (hf : s.Frozen id)
    (h : s.step custody e = some s') :
    s'.Frozen id ∧ s'.primary.db = s.primary.db ∧ s'.checkpoint.db = s.checkpoint.db := by
  obtain ⟨-, honly⟩ := hs.frozen_ahead hf
  have hfrozen := hf
  obtain ⟨⟨call, hcall, hpending⟩, hgone⟩ := hfrozen
  cases step_cases h with
  | skipped => exact ⟨hf, rfl, rfl⟩
  | admitted hnone =>
    refine ⟨⟨⟨call, ?_, hpending⟩, hgone⟩, rfl, rfl⟩
    rw [set_calls_of_ne, hcall]
    rintro rfl
    rw [hnone] at hcall
    cases hcall
  | @moved i c s' hc _ hm =>
    obtain ⟨hprimary, hcheckpoint, c', hcalls, hanchored, hcommitted⟩ := hm.kept
    refine ⟨⟨?_, fun hd hhd ↦ ?_⟩, hprimary, hcheckpoint⟩
    · rw [hcalls]
      by_cases hid : id = i
      · subst hid
        rw [hcall] at hc
        cases hc
        exact ⟨c', set_calls_self _ _ _, hanchored.trans hpending.1, hcommitted.trans hpending.2⟩
      · exact ⟨call, by rw [set_calls_of_ne s c' hid, hcall], hpending⟩
    · rcases hm.holder hd hhd with ⟨hd', hhd', howner⟩ | ⟨rfl, hphase⟩
      · exact howner ▸ hgone hd' hhd'
      · rintro rfl
        obtain rfl : call = c := Option.some.inj (hcall.symm.trans hc)
        obtain ⟨-, -, hno, -⟩ := (hs.sound _ call hcall).locking hphase
        exact absurd (hno.symm.trans hpending.1) (by decide)
  | @checkpointCommit i c view hc hholder =>
    -- it would have to append to the local head, which the checkpoint is ahead of
    obtain ⟨d, hd, hh⟩ := hs.checkpoint _ hholder
    obtain rfl : d = c := Option.some.inj (hd.symm.trans hc)
    obtain ⟨-, hnone⟩ := hs.append_level hc (hh.recording_view (.inr rfl)).1
    exact absurd hpending (hnone id call hcall)
  | @primaryCommit i c view hc hholder =>
    -- it would have to be the call that is ahead, whose transaction is gone
    obtain ⟨d, hd, hh⟩ := hs.primary _ hholder
    obtain rfl : d = c := Option.some.inj (hd.symm.trans hc)
    exact absurd (honly i d hc ⟨(hh.committing_view rfl).1, hh.committed_eq⟩)
      (hgone _ hholder)
  | checkpointAbort => exact ⟨⟨⟨call, hcall, hpending⟩, hgone⟩, rfl, rfl⟩
  | primaryAbort => exact ⟨⟨⟨call, hcall, hpending⟩, fun hd hhd ↦ by cases hhd⟩, rfl, rfl⟩

/-- The same over a run, with what is signed in it. -/
theorem Safe.frozen_run (hs : Safe custody.sha256 base s)
    (hbase : base.aggregate.attempts = base.sequence) (hf : s.Frozen id)
    {history : List (Campaign × Event)} (hr : Run (Campaign.step custody) s history s') :
    Safe custody.sha256 base s' ∧ s'.Frozen id ∧ s'.primary.db = s.primary.db ∧
      s'.checkpoint.db = s.checkpoint.db :=
  hr.invariant (P := fun s' ↦ Safe custody.sha256 base s' ∧ s'.Frozen id ∧
      s'.primary.db = s.primary.db ∧ s'.checkpoint.db = s.checkpoint.db)
    ⟨hs, hf, rfl, rfl⟩ fun ⟨hs', hf', hprimary, hcheckpoint⟩ h ↦ by
      obtain ⟨hf'', hprimary', hcheckpoint'⟩ := hs'.frozen_step hf' h
      exact ⟨hs'.step hbase h, hf'', hprimary'.trans hprimary, hcheckpoint'.trans hcheckpoint⟩

/-- Everything signed for is at most as far as the local head. -/
theorem Safe.issued_sequence_le (hs : Safe sha256 base s) :
    ∀ p ∈ s.issued, p.2.sequence ≤ s.primary.db.campaign.sequence := by
  intro p hp
  obtain ⟨h, row, hplaced, hfor, -⟩ := hs.placed p hp
  rw [hfor.2]
  exact (hs.ledger.chained.sequence_of_mem _ hplaced.mem).2

end Frozen

/-! ### Main result -/

/-- **Bench reservations are safe.** However calls overlap and wherever they are lost, what was
signed for stays, with the retained baseline, within the caps of the campaign; two receipts differ
in position, attempt and nonce; every receipt extends the head after the reservations before it, and
so the receipt before it; and once an append took effect whose own transaction is gone, neither
database moves again, and nothing is ever signed for that position or a later one. -/
theorem reservation_safe (custody : Custody) (bootstrap : Grant) {now : ℤ}
    (hgrant : checkGrant bootstrap now = .ok ()) {history : List (Campaign × Event)} {s : Campaign}
    (hr : Run (Campaign.step custody) (provisioned custody bootstrap) history s) :
    bootstrap.retained_baseline + (s.issued.map fun p ↦ p.2.request.reserved).sum ≤ CAPS ∧
    (s.issued.Pairwise fun p q ↦ p.2.sequence ≠ q.2.sequence ∧
      p.2.request.attempt ≠ q.2.request.attempt ∧ p.2.request.nonce ≠ q.2.request.nonce) ∧
    (∀ p ∈ s.issued, ∃ rows h, rows <+: s.primary.db.reservations ∧
      Chained custody.sha256 (initialHead custody.sha256 bootstrap) rows h ∧
        p.2.Extends custody.sha256 h) ∧
    (∀ p ∈ s.issued, ∀ q ∈ s.issued, p.2.sequence < q.2.sequence →
      p.2.aggregate + q.2.request.reserved ≤ q.2.aggregate ∧
        (q.2.sequence = p.2.sequence + 1 → q.2.previous_head_sha256 = p.2.head_sha256 ∧
          q.2.aggregate = p.2.aggregate + q.2.request.reserved)) ∧
    ∀ id, s.Frozen id → ∀ history' s', Run (Campaign.step custody) s history' s' →
      s'.primary.db = s.primary.db ∧ s'.checkpoint.db = s.checkpoint.db ∧
        ∀ p ∈ s'.issued, p.2.sequence < s.checkpoint.db.row.sequence := by
  have hcaps : bootstrap.retained_baseline ≤ CAPS := by
    unfold checkGrant at hgrant
    obtain ⟨-, hgrant⟩ := requireBench_bind_ok.1 hgrant
    exact (requireBench_bind_ok.1 hgrant).1.2
  have hbase : (initialHead custody.sha256 bootstrap).aggregate.attempts =
      (initialHead custody.sha256 bootstrap).sequence := rfl
  have hs : Safe custody.sha256 (initialHead custody.sha256 bootstrap) s :=
    hr.invariant (Safe.provisioned hcaps) fun hs h ↦ hs.step hbase h
  refine ⟨hs.issued_le, hs.issued_pairwise, fun p hp ↦ ?_,
    fun p hp q hq hlt ↦ hs.issued_extends hp hq hlt, fun id hf history' s' hr' ↦ ?_⟩
  · obtain ⟨h, row, ⟨-, before, after, hrows, hc⟩, -, hext⟩ := hs.placed p hp
    exact ⟨before, h, ⟨row :: after, hrows.symm⟩, hc, hext⟩
  · obtain ⟨hs', -, hprimary, hcheckpoint⟩ := hs.frozen_run hbase hf hr'
    refine ⟨hprimary, hcheckpoint, fun p hp ↦ ?_⟩
    rw [(hs.frozen_ahead hf).1, ← hprimary]
    exact Nat.lt_succ_of_le (hs'.issued_sequence_le p hp)

/-! ### A run -/

/-- A digest: the run below is about the order of its steps. -/
def someDigest : String :=
  "416715bbf4b6f25a3ef9bb0c3085651792f66548789239e2e96c093e7e7e26fb"

/-- The grant of an attempt. -/
def someGrant (attempt : String) : Grant where
  campaign := "campaign"
  subject := "subject"
  attempt
  account := "account"
  provider := "chatgpt-subscription"
  model := "gpt-6-luna"
  source_sha256 := someDigest
  binary_sha256 := someDigest
  expires_unix := 2000
  caps := CAPS
  retained_baseline := FLOOR
  hard_output_tokens := 100
  journal_id := "journal"
  custodian_public_key := "custodian"
  caller_subject := "caller"
  auth_audience := "bench"
  auth_jwks_sha256 := someDigest
  original_ledger_sha256 := ORIGINAL_LEDGER

/-- The request of an attempt. -/
def someRequest (attempt : String) : ReservationRequest where
  schema := "NativeBenchReservationRequest/v1"
  campaign := "campaign"
  subject := "subject"
  attempt
  account := "account"
  provider := "chatgpt-subscription"
  model := "gpt-6-luna"
  source_sha256 := someDigest
  binary_sha256 := someDigest
  journal_id := "journal"
  wire_sha256 := someDigest
  reserved := ⟨1, 10, 100⟩
  caps := CAPS
  retained_baseline := FLOOR
  nonce := attempt

/-- Every payload is the attempt it is for. -/
def someCustody : Custody where
  sha256 _ := someDigest
  verifyEnvelope envelope _ := some envelope
  readToken _ := some {
    sub := "caller"
    aud := ["bench"]
    exp := 1200
    iat := 1000
    nbf := none
    scopes := ["bench:reserve"] }
  authArcanaJwks := "keys"
  custodianPublicKey := "custodian"
  issuerPublicKey := "issuer"
  parseGrant payload := some (someGrant payload)
  parseRequest raw := some (someRequest raw)

/-- The call of an attempt. -/
def reserves (id : ℕ) (attempt : String) : Event :=
  .reserve id { signedGrant := attempt, rawRequest := attempt, callerAccessToken := "token" }
    ⟨"primary", "campaign", false⟩ ⟨"checkpoint", "anchor", false⟩ fun _ ↦ 1000

/-- As many replies to a call. -/
def replies (id n : ℕ) : List Event :=
  List.replicate n (.reply id fun _ ↦ 1001)

/-- One call is reserved; another is lost once its append took effect. -/
def freezing : List Event :=
  [reserves 1 "first", reserves 2 "second"] ++
    replies 1 7 ++ [.checkpointCommit 1] ++ replies 1 3 ++ [.primaryCommit 1] ++ replies 1 1 ++
    replies 2 7 ++ [.checkpointCommit 2, .lose 2, .primaryAbort 2]

/-- The campaign is frozen by the lost call, and stays as it is. -/
theorem reservation_safe_freezing :
    ∃ history s, Run (Campaign.step someCustody) (provisioned someCustody (someGrant "first"))
        history s ∧
      s.issued.length = 1 ∧ s.Frozen 2 ∧
      FLOOR + (s.issued.map fun p ↦ p.2.request.reserved).sum ≤ CAPS ∧
      ∀ history' s', Run (Campaign.step someCustody) s history' s' →
        s'.primary.db = s.primary.db := by
  obtain ⟨history, s, hr, hcheck⟩ := Run.exists_of_check (Campaign.step someCustody)
    (provisioned someCustody (someGrant "first")) freezing
    (fun _ s ↦ decide (s.issued.length = 1) && s.primary.holder.isNone &&
      (s.calls 2).any fun call ↦ call.anchored && !call.committed) (by decide +kernel)
  simp only [Bool.and_eq_true, decide_eq_true_eq, Option.isNone_iff_eq_none, Option.any_eq_true,
    Bool.not_eq_true'] at hcheck
  obtain ⟨⟨hissued, hholder⟩, call, hcall, hanchored, hcommitted⟩ := hcheck
  have hfrozen : s.Frozen 2 :=
    ⟨⟨call, hcall, hanchored, hcommitted⟩, fun hd hhd ↦ by rw [hholder] at hhd; cases hhd⟩
  obtain ⟨hcaps, -, -, -, hfreeze⟩ :=
    reservation_safe someCustody (someGrant "first")
      (show checkGrant (someGrant "first") 1000 = .ok () by decide) hr
  exact ⟨history, s, hr, hissued, hfrozen, hcaps,
    fun history' s' hr' ↦ (hfreeze 2 hfrozen history' s' hr').1⟩

end ModelConnector.Bench
