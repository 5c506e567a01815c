import ModelConnector.Bench.Chain
import ModelConnector.Bench.Service
import ModelConnector.Foundations.Result

/-!
# What the steps of a bench reservation can do

`Move` lists what a reply does to the databases and to the call it is for, with what the call has
checked by then as far as the chain rests on it. Every step of the service is one of the cases of
`step_cases`.
-/

namespace ModelConnector.Bench

variable {custody : Custody}

/-! ### The checks of a call -/

theorem checkedHead_ok {h h' : Head} (hok : checkedHead h = .ok h') : h' = h := by
  unfold checkedHead at hok
  exact (Except.ok.inj (requireBench_bind_ok.1 hok).2).symm

theorem nextHead_ok {sha256 : String → String} {h h' : Head} {request : ReservationRequest}
    (hok : nextHead sha256 h request = .ok h') : h' = succHead sha256 h request :=
  (Except.ok.inj (requireBench_bind_ok.1 hok).2).symm

theorem Call.lockedRow_ok {call : Call} {row : CampaignRow} {clock : ℕ → ℤ} {h : Head}
    (hok : call.lockedRow custody row clock = .ok h) :
    h = row.toHead ∧ row.campaign = call.grant.campaign := by
  unfold Call.lockedRow at hok
  obtain ⟨_, -, hok⟩ := Except.bind_ok hok
  obtain ⟨hcampaign, hok⟩ := requireBench_bind_ok.1 hok
  obtain ⟨h', hhead, hok⟩ := Except.bind_ok hok
  obtain ⟨-, hok⟩ := requireBench_bind_ok.1 hok
  obtain ⟨-, hok⟩ := requireBench_bind_ok.1 hok
  cases hok
  exact ⟨checkedHead_ok hhead, hcampaign.1⟩

theorem Call.nextOf_ok {call : Call} {previous next : Head} {db : Primary} {clock : ℕ → ℤ}
    (hok : call.nextOf custody previous db clock = .ok next) :
    next = succHead custody.sha256 previous call.request ∧ next.aggregate ≤ CAPS := by
  unfold Call.nextOf at hok
  obtain ⟨-, hok⟩ := requireBench_bind_ok.1 hok
  obtain ⟨h', hnext, hok⟩ := Except.bind_ok hok
  obtain ⟨hcaps, hok⟩ := requireBench_bind_ok.1 hok
  obtain ⟨_, -, hok⟩ := Except.bind_ok hok
  cases hok
  exact ⟨nextHead_ok hnext, hcaps⟩

theorem Checkpoint.compareUpdate_ok {db db' : Checkpoint} {previous next : Head}
    (hok : db.compareUpdate previous next = .ok db') :
    (db.row.campaign = previous.campaign ∧ db.row.journal_id = previous.journal ∧
      db.row.sequence = previous.aggregate.attempts ∧
      db.row.input_tokens = previous.aggregate.input ∧
      db.row.output_tokens = previous.aggregate.output ∧ db.row.head_sha256 = previous.head) ∧
      db' = { db with
        row := { db.row with
          sequence := next.sequence
          input_tokens := next.aggregate.input
          output_tokens := next.aggregate.output
          head_sha256 := next.head } } := by
  unfold Checkpoint.compareUpdate at hok
  obtain ⟨hprevious, hok⟩ := requireBench_bind_ok.1 hok
  obtain ⟨-, hok⟩ := requireBench_bind_ok.1 hok
  cases hok
  exact ⟨hprevious, rfl⟩

theorem Checkpoint.record_row {db db' : Checkpoint} {previous next : Head}
    {request : ReservationRequest} (hok : db.record previous next request = .ok db') :
    db'.row = db.row := by
  unfold Checkpoint.record at hok
  obtain ⟨-, hok⟩ := requireBench_bind_ok.1 hok
  cases hok
  rfl

/-- The attempt, the nonce and the position of a row are not used in its campaign yet. -/
def Primary.Unused (db : Primary) (row : ReservationRow) : Prop :=
  ∀ r ∈ db.reservations, ¬(r.campaign = row.campaign ∧
    (r.attempt = row.attempt ∨ r.nonce = row.nonce ∨ r.sequence = row.sequence))

theorem Primary.insert_ok {db db' : Primary} {row : ReservationRow}
    (hok : db.insert row = .ok db') :
    db.Unused row ∧ db' = { db with reservations := db.reservations ++ [row] } := by
  unfold Primary.insert at hok
  obtain ⟨hunused, hok⟩ := requireBench_bind_ok.1 hok
  cases hok
  exact ⟨hunused, rfl⟩

theorem Primary.update_ok {db db' : Primary} {next : Head} (hok : db.update next = .ok db') :
    db' = db.moved next := by
  unfold Primary.update at hok
  obtain ⟨-, hok⟩ := requireBench_bind_ok.1 hok
  cases hok
  rfl

/-- What a request that was bound to a grant agrees with. -/
theorem bindRequest_ok {grant : Grant} {request : ReservationRequest} {u : Unit}
    (hok : bindRequest grant request = .ok u) :
    grant.attempt = request.attempt ∧ request.reserved.attempts = 1 := by
  unfold bindRequest at hok
  obtain ⟨_, hbindings, hok⟩ := Except.bind_ok hok
  obtain ⟨-, hok⟩ := requireBench_bind_ok.1 hok
  simp only [bindings, List.forM_eq_forM, List.forM_cons, requireBench_bind_ok] at hbindings
  exact ⟨hbindings.2.2.1, (requireBench_ok.1 hok).1⟩

/-- A call that was admitted has its grant and its request, and waits for the campaign row. -/
theorem admit_ok {input : CallInput} {primary checkpoint : DatabaseIdentity} {clock : ℕ → ℤ}
    {call : Call} (hok : admitCall custody input primary checkpoint clock = .ok call) :
    ∃ payload grant request lease, call = { payload, grant, request, lease } ∧
      grant.attempt = request.attempt ∧ request.reserved.attempts = 1 := by
  unfold admitCall at hok
  obtain ⟨payload, -, hok⟩ := Except.bind_ok hok
  obtain ⟨grant, -, hok⟩ := Except.bind_ok hok
  obtain ⟨lease, -, hok⟩ := Except.bind_ok hok
  obtain ⟨_, -, hok⟩ := Except.bind_ok hok
  obtain ⟨_, -, hok⟩ := Except.bind_ok hok
  obtain ⟨_, -, hok⟩ := Except.bind_ok hok
  obtain ⟨request, -, hok⟩ := Except.bind_ok hok
  obtain ⟨_, hbind, hok⟩ := Except.bind_ok hok
  obtain ⟨_, -, hok⟩ := Except.bind_ok hok
  cases hok
  exact ⟨payload, grant, request, lease, rfl, bindRequest_ok hbind⟩

/-! ### Moves of a call -/

/-- What a reply, or the loss of a call, does. -/
inductive Move (custody : Custody) (s : Campaign) (id : ℕ) (call : Call) : Campaign → Prop
  | refuse (condition : String) :
      Move custody s id call (s.set id { call with phase := .refused condition })
  | refuseLocked (condition : String) {primary : Locked Primary} :
      call.phase = .locking → s.primary.acquire id = some primary →
        Move custody s id call
          ({ s with primary }.set id { call with phase := .refused condition })
  | refuseAnchoring (condition : String) {checkpoint : Locked Checkpoint} :
      call.phase = .anchoring → s.checkpoint.acquire id = some checkpoint →
        Move custody s id call
          ({ s with checkpoint }.set id { call with phase := .refused condition })
  | lock {primary : Locked Primary} :
      call.phase = .locking → s.primary.acquire id = some primary →
        s.primary.db.campaign.campaign = call.grant.campaign →
        Move custody s id call ({ s with primary }.set id
          { call with phase := .chaining, previous := some s.primary.db.campaign.toHead })
  | chain : call.phase = .chaining →
      Move custody s id call (s.set id { call with phase := .reading })
  | read : call.phase = .reading →
      Move custody s id call (s.set id { call with phase := .deduping })
  | next {previous : Head} :
      call.phase = .deduping → call.previous = some previous →
        (succHead custody.sha256 previous call.request).aggregate ≤ CAPS →
        Move custody s id call (s.set id { call with
          phase := .anchoring
          next := some (succHead custody.sha256 previous call.request) })
  | anchor {checkpoint : Locked Checkpoint} :
      call.phase = .anchoring → s.checkpoint.acquire id = some checkpoint →
        Move custody s id call
          ({ s with checkpoint }.set id { call with phase := .casting })
  | cast {previous next : Head} {db db' : Checkpoint} :
      call.phase = .casting → call.previous = some previous → call.next.getD previous = next →
        s.checkpoint.view? id = some db → db.compareUpdate previous next = .ok db' →
        Move custody s id call
          ({ s with checkpoint := s.checkpoint.write db' }.set id { call with phase := .recording })
  | record {db db' : Checkpoint} :
      call.phase = .recording → s.checkpoint.view? id = some db → db'.row = db.row →
        Move custody s id call
          ({ s with checkpoint := (s.checkpoint.write db').requestCommit }.set id
            { call with phase := .anchorCommit })
  | anchored : call.phase = .anchorCommit → call.anchored = true →
      Move custody s id call (s.set id { call with phase := .inserting })
  | insert {previous next : Head} {db db' : Primary} :
      call.phase = .inserting → call.previous = some previous → call.next.getD previous = next →
        s.primary.view? id = some db →
        db.insert (call.reservationRow custody.sha256 previous next) = .ok db' →
        Move custody s id call
          ({ s with primary := s.primary.write db' }.set id { call with phase := .updating })
  | update {previous next : Head} {db : Primary} :
      call.phase = .updating → call.previous = some previous → call.next.getD previous = next →
        s.primary.view? id = some db →
        Move custody s id call
          ({ s with primary := (s.primary.write (db.moved next)).requestCommit }.set id
            { call with phase := .committing })
  | issue {previous next : Head} :
      call.phase = .committing → call.committed = true → call.previous = some previous →
        call.next = some next →
        Move custody s id call
          { s.set id { call with phase := .reserved (call.receipt previous next) } with
            issued := s.issued ++ [(id, call.receipt previous next)] }

section Replies

variable {s s' : Campaign} {id : ℕ} {call : Call} {clock : ℕ → ℤ}

/-- A call is refused unless it goes on. -/
theorem Move.settle {t : Campaign} {r : Except String Campaign}
    (hrefuse : ∀ condition, Move custody s id call
      (t.set id { call with phase := .refused condition }))
    (hok : ∀ s', r = .ok s' → Move custody s id call s') :
    Move custody s id call (t.settle id call r) := by
  cases r with
  | ok s' => exact hok s' rfl
  | error condition => exact hrefuse condition

theorem Move.of_answer {previous : Head} (hprevious : call.previous = some previous)
    (hok : s.answer custody id call previous (call.next.getD previous) clock = .ok s') :
    Move custody s id call s' := by
  unfold Campaign.answer at hok
  split at hok
  · rename_i hphase
    obtain ⟨_, -, hok⟩ := Except.bind_ok hok
    obtain ⟨_, -, hok⟩ := Except.bind_ok hok
    cases hok
    exact .chain hphase
  · rename_i hphase
    obtain ⟨_, -, hok⟩ := Except.bind_ok hok
    cases hok
    exact .read hphase
  · rename_i hphase
    obtain ⟨_, -, hok⟩ := Except.bind_ok hok
    obtain ⟨next, hnext, hok⟩ := Except.bind_ok hok
    cases hok
    obtain ⟨rfl, hcaps⟩ := Call.nextOf_ok hnext
    exact .next hphase hprevious hcaps
  · rename_i hphase
    obtain ⟨db, hdb, hok⟩ := Except.bind_ok hok
    obtain ⟨db', hupdate, hok⟩ := Except.bind_ok hok
    cases hok
    exact .cast hphase hprevious rfl (orUnknown_ok.1 hdb) hupdate
  · rename_i hphase
    obtain ⟨db, hdb, hok⟩ := Except.bind_ok hok
    obtain ⟨db', hrecord, hok⟩ := Except.bind_ok hok
    obtain ⟨_, -, hok⟩ := Except.bind_ok hok
    cases hok
    exact .record hphase (orUnknown_ok.1 hdb) (Checkpoint.record_row hrecord)
  · rename_i hphase
    obtain ⟨db, hdb, hok⟩ := Except.bind_ok hok
    obtain ⟨db', hinsert, hok⟩ := Except.bind_ok hok
    cases hok
    exact .insert hphase hprevious rfl (orUnknown_ok.1 hdb) hinsert
  · rename_i hphase
    obtain ⟨db, hdb, hok⟩ := Except.bind_ok hok
    obtain ⟨db', hupdate, hok⟩ := Except.bind_ok hok
    obtain ⟨_, -, hok⟩ := Except.bind_ok hok
    cases hok
    cases Primary.update_ok hupdate
    exact .update hphase hprevious rfl (orUnknown_ok.1 hdb)
  · cases hok

/-- A reply is a move. -/
theorem Move.of_reply (h : s.reply custody id call clock = some s') :
    Move custody s id call s' := by
  unfold Campaign.reply at h
  split at h
  · rename_i hphase
    split at h
    · obtain ⟨primary, hacquire, rfl⟩ := Option.map_eq_some_iff.1 h
      refine .settle (fun condition ↦ .refuseLocked condition hphase hacquire) fun s' hok ↦ ?_
      obtain ⟨previous, hlocked, hok⟩ := Except.bind_ok hok
      cases hok
      obtain ⟨rfl, hcampaign⟩ := Call.lockedRow_ok hlocked
      obtain ⟨-, hprimary⟩ := Locked.acquire_eq_some hacquire
      have hdb : primary.db = s.primary.db := by rw [hprimary]
      rw [hdb] at hcampaign ⊢
      exact .lock hphase hacquire hcampaign
    · cases h
      refine .settle (fun condition ↦ .refuse condition) fun s' hok ↦ ?_
      obtain ⟨_, -, hok⟩ := Except.bind_ok hok
      cases hok
  · rename_i hphase
    obtain ⟨checkpoint, hacquire, rfl⟩ := Option.map_eq_some_iff.1 h
    refine .settle (fun condition ↦ .refuseAnchoring condition hphase hacquire) fun s' hok ↦ ?_
    obtain ⟨_, -, hok⟩ := Except.bind_ok hok
    cases hok
    exact .anchor hphase hacquire
  · rename_i hphase
    obtain ⟨hanchored, h⟩ := Option.ite_none_right_eq_some.1 h
    cases h
    refine .settle (fun condition ↦ .refuse condition) fun s' hok ↦ ?_
    obtain ⟨_, -, hok⟩ := Except.bind_ok hok
    cases hok
    exact .anchored hphase hanchored
  · rename_i hphase
    split at h
    · rename_i previous next hcommitted hprevious hnext
      cases h
      refine .settle (fun condition ↦ .refuse condition) fun s' hok ↦ ?_
      obtain ⟨_, -, hok⟩ := Except.bind_ok hok
      cases hok
      exact .issue hphase hcommitted hprevious hnext
    · cases h
  · cases h
  · cases h
  · obtain ⟨previous, hprevious, rfl⟩ := Option.map_eq_some_iff.1 h
    exact .settle (fun condition ↦ .refuse condition) fun s' hok ↦ .of_answer hprevious hok

/-- A call that is lost is refused. -/
theorem Move.of_lose (h : s.lose id call = some s') : Move custody s id call s' := by
  unfold Campaign.lose at h
  split at h
  · cases h
  · cases h
  · cases h
    exact .refuse _

/-- What a step does. -/
inductive Stepped (custody : Custody) (s : Campaign) : Campaign → Prop
  | skipped : Stepped custody s s
  | admitted {id : ℕ} {payload : String} {grant : Grant} {request : ReservationRequest}
      {lease : Lease} :
      s.calls id = none → grant.attempt = request.attempt → request.reserved.attempts = 1 →
        Stepped custody s (s.set id { payload, grant, request, lease })
  | moved {id : ℕ} {call : Call} {s' : Campaign} :
      s.calls id = some call → (∀ r, call.phase ≠ .reserved r) → Move custody s id call s' →
        Stepped custody s s'
  | checkpointCommit {id : ℕ} {call : Call} {view : Checkpoint} :
      s.calls id = some call →
        s.checkpoint.holder = some { owner := id, view, committing := true } →
        Stepped custody s ({ s with checkpoint := { db := view } }.set id
          { call with anchored := true })
  | primaryCommit {id : ℕ} {call : Call} {view : Primary} :
      s.calls id = some call →
        s.primary.holder = some { owner := id, view, committing := true } →
        Stepped custody s ({ s with primary := { db := view } }.set id
          { call with committed := true })
  | checkpointAbort : Stepped custody s { s with checkpoint := { db := s.checkpoint.db } }
  | primaryAbort : Stepped custody s { s with primary := { db := s.primary.db } }

theorem step_cases {e : Event} (h : s.step custody e = some s') : Stepped custody s s' := by
  cases e with
  | reserve id input primary checkpoint clock =>
    simp only [Campaign.step] at h
    split at h
    · cases h
    · rename_i hnone
      split at h
      · rename_i call hadmit
        cases h
        obtain ⟨payload, grant, request, lease, rfl, hattempt, hone⟩ := admit_ok hadmit
        exact .admitted hnone hattempt hone
      · cases h
        exact .skipped
  | reply id clock =>
    obtain ⟨call, hcall, h⟩ := Option.bind_eq_some_iff.1 h
    refine .moved hcall (fun r hr ↦ ?_) (.of_reply h)
    simp [Campaign.reply, hr] at h
  | lose id =>
    obtain ⟨call, hcall, h⟩ := Option.bind_eq_some_iff.1 h
    refine .moved hcall (fun r hr ↦ ?_) (.of_lose h)
    simp [Campaign.lose, hr] at h
  | checkpointCommit id =>
    obtain ⟨call, hcall, h⟩ := Option.bind_eq_some_iff.1 h
    obtain ⟨checkpoint, hcommit, rfl⟩ := Option.map_eq_some_iff.1 h
    obtain ⟨view, hholder, rfl⟩ := Locked.commit_eq_some hcommit
    exact .checkpointCommit hcall hholder
  | primaryCommit id =>
    obtain ⟨call, hcall, h⟩ := Option.bind_eq_some_iff.1 h
    obtain ⟨primary, hcommit, rfl⟩ := Option.map_eq_some_iff.1 h
    obtain ⟨view, hholder, rfl⟩ := Locked.commit_eq_some hcommit
    exact .primaryCommit hcall hholder
  | checkpointAbort id =>
    obtain ⟨checkpoint, habort, rfl⟩ := Option.map_eq_some_iff.1 h
    obtain ⟨-, rfl⟩ := Locked.abort_eq_some habort
    exact .checkpointAbort
  | primaryAbort id =>
    obtain ⟨primary, habort, rfl⟩ := Option.map_eq_some_iff.1 h
    obtain ⟨-, rfl⟩ := Locked.abort_eq_some habort
    exact .primaryAbort

end Replies

end ModelConnector.Bench
