import Mathlib.Data.List.Nodup
import ModelConnector.Connectors.StrictChat
import ModelConnector.Foundations.Run

/-!
# Strict chat dispatches at most once

One row carries the guarantee. It can be inserted once, it is never deleted, and its digest never
changes, so of all requests of a tenant and intent only one ever learns that its own `INSERT` put it
there, and only that one opens the provider's stream. A row that is completed stays as it is, so
what was read back when it was completed still holds when the client is sent the receipt and the
end of the answer.

`SessionInv` is what every request knows of the row, `StrictInv` adds that at most one request holds
it, and `strict_chat_dispatches_once` puts the guarantees together, for every interleaving with
lost acknowledgements, store failures and crashes.
-/

namespace ModelConnector.StrictDispatch

open Connectors

namespace Phase

/-- The row a request goes by. -/
def row? : StrictPhase → Option IntentRecord
  | .inserting row _ => some row
  | .reading row _ => some row
  | .claimed row => some row
  | .streaming row => some row
  | .finishing row _ _ => some row
  | .rereading row _ _ => some row
  | .committed row _ => some row
  | .receiptSent row _ => some row
  | .checked => none
  | .done => none

/-- The `INSERT` of the request has put the row there. -/
def holds : StrictPhase → Bool
  | .checked => false
  | .inserting _ applied => applied.getD false
  | .reading _ inserted => inserted
  | _ => true

/-- The request has opened the provider's stream. -/
def opened : StrictPhase → Bool
  | .checked => false
  | .inserting _ _ => false
  | .reading _ _ => false
  | .claimed _ => false
  | _ => true

/-- The receipt the row has been completed with. -/
def completed? : StrictPhase → Option StrictReceipt
  | .committed _ receipt => some receipt
  | .receiptSent _ receipt => some receipt
  | _ => none

theorem holds_of_opened {phase : StrictPhase} (h : opened phase = true) : holds phase = true := by
  cases phase <;> first | rfl | cases h

end Phase

section Session

variable {chatDigest : String → StrictChatRequest → String} {rows rows' : IntentTable}
  {s s' : StrictSession}

/-- The row is the one of the request's intent, with the request's digest. -/
def Own (chatDigest : String → StrictChatRequest → String) (s : StrictSession)
    (stored : IntentRecord) : Prop :=
  stored.tenant = s.tenant ∧ stored.intent = s.body.intent ∧
    stored.digest = s.digest chatDigest

/-- What a request knows of the store. -/
structure SessionInv (chatDigest : String → StrictChatRequest → String) (rows : IntentTable)
    (s : StrictSession) : Prop where
  row : ∀ row, Phase.row? s.phase = some row → Own chatDigest s row
  holds : Phase.holds s.phase = true → ∃ stored ∈ rows.rows, Own chatDigest s stored
  completed : ∀ receipt, Phase.completed? s.phase = some receipt →
    ∃ stored ∈ rows.rows, Own chatDigest s stored ∧ stored.state = .completed ∧
      stored.receipt = some receipt
  receiptSent : ∀ row receipt, s.phase = .receiptSent row receipt →
    ClientEvent.receipt receipt ∈ s.sent
  sent : s.sent ≠ [] → Phase.opened s.phase = true
  ended : s.ended = some (.error .uncertain) ∨ s.ended = some .answered →
    Phase.holds s.phase = true
  replay : s.ended = some (.error .replayUnavailable) →
    ∃ stored ∈ rows.rows, Own chatDigest s stored

/-- What time does to the table: rows keep their key and digest, and rows that are finished stay
as they are. -/
def RowsLe (rows rows' : IntentTable) : Prop :=
  ∀ stored ∈ rows.rows,
    (∃ stored' ∈ rows'.rows, stored'.tenant = stored.tenant ∧ stored'.intent = stored.intent ∧
      stored'.digest = stored.digest) ∧
    (stored.state ≠ .dispatchStarted → stored ∈ rows'.rows)

theorem RowsLe.refl (rows : IntentTable) : RowsLe rows rows :=
  fun stored h ↦ ⟨⟨stored, h, rfl, rfl, rfl⟩, fun _ ↦ h⟩

theorem rowsLe_insert {row : IntentRecord} (h : rows.insert? row = some rows') :
    RowsLe rows rows' := by
  obtain ⟨-, hrows⟩ := Table.insert?_eq_some_iff.1 h
  intro stored hstored
  have hmem : stored ∈ rows'.rows := by
    rw [hrows]
    exact List.mem_append_left _ hstored
  exact ⟨⟨stored, hmem, rfl, rfl, rfl⟩, fun _ ↦ hmem⟩

theorem rowsLe_updateRows (row : IntentRecord) (receipt : StrictReceipt) :
    RowsLe rows (StrictWorld.updateRows rows row receipt) := by
  intro stored hstored
  have hmem := List.mem_map_of_mem
    (f := fun r ↦ if StrictWorld.finishes row r then
      { r with state := receipt.state, receipt := some receipt } else r) hstored
  refine ⟨⟨_, hmem, ?_⟩, fun hstate ↦ ?_⟩
  · split <;> exact ⟨rfl, rfl, rfl⟩
  · -- the `UPDATE` selects rows that are still started
    have hnot : ¬ StrictWorld.finishes row stored = true := fun h ↦
      hstate (of_decide_eq_true (Bool.and_eq_true_iff.1 h).2)
    rwa [if_neg hnot] at hmem

theorem Own.mono (hle : RowsLe rows rows') (h : ∃ stored ∈ rows.rows, Own chatDigest s stored) :
    ∃ stored ∈ rows'.rows, Own chatDigest s stored := by
  obtain ⟨stored, hstored, hown⟩ := h
  obtain ⟨⟨stored', hstored', htenant, hintent, hdigest⟩, -⟩ := hle stored hstored
  exact ⟨stored', hstored', htenant.trans hown.1, hintent.trans hown.2.1,
    hdigest.trans hown.2.2⟩

theorem SessionInv.mono (h : SessionInv chatDigest rows s) (hle : RowsLe rows rows') :
    SessionInv chatDigest rows' s where
  row := h.row
  holds hh := Own.mono hle (h.holds hh)
  completed receipt hr := by
    obtain ⟨stored, hstored, hown, hstate, hreceipt⟩ := h.completed receipt hr
    exact ⟨stored, (hle stored hstored).2 (by rw [hstate]; decide), hown, hstate, hreceipt⟩
  receiptSent := h.receiptSent
  sent := h.sent
  ended := h.ended
  replay hr := Own.mono hle (h.replay hr)

theorem mem_of_read {row stored : IntentRecord} (h : StrictSession.read rows row = some stored) :
    stored ∈ rows.rows :=
  List.mem_of_find?_eq_some h

theorem own_row (s : StrictSession) (exposure : SupplierPin) :
    Own chatDigest s (s.row chatDigest exposure) :=
  ⟨rfl, rfl, rfl⟩

/-- A request ends. Some of the ends say something of its row. -/
theorem SessionInv.end_ (h : SessionInv chatDigest rows s) {e : SessionEnd}
    (hended : e = .error .uncertain ∨ e = .answered → Phase.holds s.phase = true)
    (hreplay : e = .error .replayUnavailable → ∃ stored ∈ rows.rows, Own chatDigest s stored) :
    SessionInv chatDigest rows { s with ended := some e } where
  row := h.row
  holds := h.holds
  completed := h.completed
  receiptSent := h.receiptSent
  sent := h.sent
  ended he := hended (he.imp Option.some.inj Option.some.inj)
  replay he := hreplay (Option.some.inj he)

/-- An end that says nothing of the row. -/
theorem SessionInv.end_quiet (h : SessionInv chatDigest rows s) {e : SessionEnd}
    (hquiet : e ≠ .error .uncertain ∧ e ≠ .answered ∧ e ≠ .error .replayUnavailable) :
    SessionInv chatDigest rows { s with ended := some e } :=
  h.end_ (fun he ↦ absurd he (not_or.2 ⟨hquiet.1, hquiet.2.1⟩)) fun he ↦ absurd he hquiet.2.2

/-- A request that holds its row may end in doubt or with an answer. -/
theorem SessionInv.end_holding (h : SessionInv chatDigest rows s) {e : SessionEnd}
    (hholds : Phase.holds s.phase = true) (he : e ≠ .error .replayUnavailable) :
    SessionInv chatDigest rows { s with ended := some e } :=
  h.end_ (fun _ ↦ hholds) fun heq ↦ absurd heq he

/-- A request that goes by its row as before. -/
theorem SessionInv.row_of_eq (h : SessionInv chatDigest rows s) {phase : StrictPhase}
    (hphase : Phase.row? phase = Phase.row? s.phase) :
    ∀ row, Phase.row? phase = some row → Own chatDigest s row :=
  fun row hrow ↦ h.row row (hphase ▸ hrow)

/-- A request that moves on to a phase without a receipt. -/
theorem SessionInv.move (h : SessionInv chatDigest rows s) {phase : StrictPhase}
    (hrow : ∀ row, Phase.row? phase = some row → Own chatDigest s row)
    (hholds : Phase.holds phase = Phase.holds s.phase)
    (hopened : Phase.opened s.phase = true → Phase.opened phase = true)
    (hcompleted : Phase.completed? phase = none) :
    SessionInv chatDigest rows { s with phase } where
  row := hrow
  holds hh := h.holds (hholds ▸ hh)
  completed receipt hr := by
    rw [hcompleted] at hr
    cases hr
  receiptSent row receipt hphase := by
    subst hphase
    cases hcompleted
  sent hs := hopened (h.sent hs)
  ended he := hholds.trans (h.ended he)
  replay he := h.replay he

/-- The request after it has read its row back. -/
theorem SessionInv.afterReadBack (h : SessionInv chatDigest rows s) {row : IntentRecord}
    {inserted : Bool} (hphase : s.phase = .reading row inserted) :
    SessionInv chatDigest rows
      (s.afterReadBack chatDigest row inserted (StrictSession.read rows row)) := by
  cases hread : StrictSession.read rows row with
  | none => exact h.end_quiet (by decide)
  | some stored =>
    have hmem := mem_of_read hread
    unfold StrictSession.afterReadBack
    simp only
    split
    · exact h.end_quiet (by decide)
    · rename_i hsame
      push Not at hsame
      split
      · -- the row has this digest, but another request put it there
        exact h.end_ (by rintro (⟨⟨⟩⟩ | ⟨⟨⟩⟩)) fun _ ↦ ⟨stored, hmem, hsame⟩
      · rename_i hinserted
        have hclaimed : SessionInv chatDigest rows { s with phase := .claimed row } := by
          refine h.move (h.row_of_eq ?_) ?_ ?_ rfl
          · rw [hphase]
            rfl
          · rw [hphase]
            exact (Bool.not_eq_false _ ▸ hinserted : inserted = true).symm
          · rw [hphase]
            rintro ⟨⟩
        split
        · exact hclaimed
        · exact hclaimed.end_holding rfl (by decide)

/-- What a request that has not ended can do, action by action. -/
inductive Acts (chatDigest : String → StrictChatRequest → String) (rows : IntentTable)
    (s : StrictSession) : StrictAction → StrictSession → Prop
  | begin {lease} (hphase : s.phase = .checked) : Acts chatDigest rows s (.begin lease)
      { s with phase := .inserting (s.row chatDigest lease.exposure) none }
  | refuse {lease} (hphase : s.phase = .checked) :
      Acts chatDigest rows s (.begin lease) (s.throw .refused)
  | ackInsert {row inserted} (hphase : s.phase = .inserting row (some inserted)) :
      Acts chatDigest rows s .ackInsert { s with phase := .reading row inserted }
  | readBack {row inserted} (hphase : s.phase = .reading row inserted) :
      Acts chatDigest rows s .readBack
        (s.afterReadBack chatDigest row inserted (StrictSession.read rows row))
  | openStream {row} (hphase : s.phase = .claimed row) :
      Acts chatDigest rows s .openStream { s with phase := .streaming row }
  | deliver {frame row} (hphase : s.phase = .streaming row) :
      Acts chatDigest rows s (.deliver frame) { s with sent := s.sent ++ [.frame frame] }
  | summarise {summary row} (hphase : s.phase = .streaming row) :
      Acts chatDigest rows s (.summarise summary)
        { s with phase := .finishing row (s.receipt chatDigest row.exposure summary) none }
  | ackFinish {row receipt updated} (hphase : s.phase = .finishing row receipt (some updated)) :
      Acts chatDigest rows s .ackFinish { s with phase := .rereading row receipt updated }
  | commit {row receipt updated} (hphase : s.phase = .rereading row receipt updated)
      (hread : StrictSession.read rows row =
        some { row with state := receipt.state, receipt := some receipt })
      (hstate : receipt.state = .completed) :
      Acts chatDigest rows s .readFinish { s with phase := .committed row receipt }
  | doubt {row receipt updated} (hphase : s.phase = .rereading row receipt updated) :
      Acts chatDigest rows s .readFinish (s.throw .uncertain)
  | sendReceipt {row receipt} (hphase : s.phase = .committed row receipt) :
      Acts chatDigest rows s .sendReceipt
        { s with phase := .receiptSent row receipt, sent := s.sent ++ [.receipt receipt] }
  | sendDone {row receipt} (hphase : s.phase = .receiptSent row receipt) :
      Acts chatDigest rows s .sendDone { s with phase := .done, sent := s.sent ++ [.done] }
  | answer (hphase : s.phase = .done) :
      Acts chatDigest rows s .answer { s with ended := some .answered }
  | fail : Acts chatDigest rows s .fail (s.throw (if s.started then .uncertain else .refused))
  | crash : Acts chatDigest rows s .crash { s with ended := some .crashed }

theorem acts_of_act {action : StrictAction} (hs : s.act chatDigest rows action = some s') :
    s.ended = none ∧ Acts chatDigest rows s action s' := by
  unfold StrictSession.act at hs
  split at hs
  · cases hs
  · rename_i hended
    refine ⟨not_not.1 hended, ?_⟩
    split at hs
    case h_1 hphase =>
      split at hs
      · obtain rfl := Option.some.inj hs
        exact .begin hphase
      · obtain rfl := Option.some.inj hs
        exact .refuse hphase
    case h_2 hphase => exact Option.some.inj hs ▸ .ackInsert hphase
    case h_3 hphase => exact Option.some.inj hs ▸ .readBack hphase
    case h_4 hphase => exact Option.some.inj hs ▸ .openStream hphase
    case h_5 hphase => exact Option.some.inj hs ▸ .deliver hphase
    case h_6 hphase => exact Option.some.inj hs ▸ .summarise hphase
    case h_7 hphase => exact Option.some.inj hs ▸ .ackFinish hphase
    case h_8 hphase =>
      split at hs
      · rename_i hall
        obtain rfl := Option.some.inj hs
        exact .commit hphase hall.2.1 hall.2.2
      · obtain rfl := Option.some.inj hs
        exact .doubt hphase
    case h_9 hphase => exact Option.some.inj hs ▸ .sendReceipt hphase
    case h_10 hphase => exact Option.some.inj hs ▸ .sendDone hphase
    case h_11 hphase => exact Option.some.inj hs ▸ .answer hphase
    case h_12 => exact Option.some.inj hs ▸ .fail
    case h_13 => exact Option.some.inj hs ▸ .crash
    case h_14 => cases hs

theorem holds_of_started (h : s.started = true) : Phase.holds s.phase = true := by
  unfold StrictSession.started at h
  split at h
  · cases h
  · cases h
  · cases h
  · rename_i hchecked hinserting hreading
    unfold Phase.holds
    split
    · exact absurd ‹_› hchecked
    · exact absurd ‹_› (hinserting _ _)
    · exact absurd ‹_› (hreading _ _)
    · rfl

/-- The step lemma of one request. -/
theorem SessionInv.act (h : SessionInv chatDigest rows s) {action : StrictAction}
    (hs : s.act chatDigest rows action = some s') : SessionInv chatDigest rows s' := by
  obtain ⟨-, hacts⟩ := acts_of_act hs
  cases hacts with
  | begin hphase =>
    refine h.move ?_ (by rw [hphase]; rfl) (by rw [hphase]; rintro ⟨⟩) rfl
    intro row hrow
    obtain rfl := Option.some.inj hrow
    exact own_row s _
  | refuse hphase => exact h.end_quiet (by decide)
  | ackInsert hphase =>
    exact h.move (h.row_of_eq (by rw [hphase]; rfl)) (by rw [hphase]; rfl)
      (by rw [hphase]; rintro ⟨⟩) rfl
  | readBack hphase => exact h.afterReadBack hphase
  | openStream hphase =>
    exact h.move (h.row_of_eq (by rw [hphase]; rfl)) (by rw [hphase]; rfl) (fun _ ↦ rfl) rfl
  | deliver hphase =>
    exact
      { row := h.row
        holds := h.holds
        completed := h.completed
        receiptSent := fun row receipt hr ↦ List.mem_append_left _ (h.receiptSent row receipt hr)
        sent := fun _ ↦ by rw [hphase]; rfl
        ended := h.ended
        replay := h.replay }
  | summarise hphase =>
    exact h.move (h.row_of_eq (by rw [hphase]; rfl)) (by rw [hphase]; rfl) (fun _ ↦ rfl) rfl
  | ackFinish hphase =>
    exact h.move (h.row_of_eq (by rw [hphase]; rfl)) (by rw [hphase]; rfl) (fun _ ↦ rfl) rfl
  | @commit row receipt updated hphase hread hstate =>
    have hown := h.row row (by rw [hphase]; rfl)
    exact
      { row := h.row_of_eq (by rw [hphase]; rfl)
        holds := fun _ ↦ h.holds (by rw [hphase]; rfl)
        completed := fun receipt' hr ↦ by
          -- what was read back is the row, completed with this receipt
          obtain rfl := Option.some.inj hr
          exact ⟨_, mem_of_read hread, hown, hstate, rfl⟩
        receiptSent := by rintro _ _ ⟨⟩
        sent := fun _ ↦ rfl
        ended := fun _ ↦ rfl
        replay := h.replay }
  | doubt hphase => exact h.end_holding (by rw [hphase]; rfl) (by decide)
  | @sendReceipt row receipt hphase =>
    exact
      { row := h.row_of_eq (by rw [hphase]; rfl)
        holds := fun _ ↦ h.holds (by rw [hphase]; rfl)
        completed := fun receipt' hr ↦ h.completed receipt' (by rw [hphase]; exact hr)
        receiptSent := fun row' receipt' hr ↦ by
          obtain ⟨-, rfl⟩ := StrictPhase.receiptSent.inj hr
          exact List.mem_append_right _ (List.mem_singleton_self _)
        sent := fun _ ↦ rfl
        ended := fun _ ↦ rfl
        replay := h.replay }
  | sendDone hphase =>
    exact
      { row := by rintro _ ⟨⟩
        holds := fun _ ↦ h.holds (by rw [hphase]; rfl)
        completed := by rintro _ ⟨⟩
        receiptSent := by rintro _ _ ⟨⟩
        sent := fun _ ↦ rfl
        ended := fun _ ↦ rfl
        replay := h.replay }
  | answer hphase => exact h.end_holding (by rw [hphase]; rfl) (by decide)
  | fail =>
    by_cases hstarted : s.started = true
    · rw [if_pos hstarted]
      exact h.end_holding (holds_of_started hstarted) (by decide)
    · rw [if_neg hstarted]
      exact h.end_quiet (by decide)
  | crash => exact h.end_quiet (by decide)

/-- What a step of a request leaves alone: whom it is from, what it asks for, whether it holds its
row, and an opened stream. -/
structure Kept (s s' : StrictSession) : Prop where
  tenant : s'.tenant = s.tenant
  body : s'.body = s.body
  holds : Phase.holds s'.phase = Phase.holds s.phase
  opened : Phase.opened s.phase = true → Phase.opened s'.phase = true

theorem kept_end (s : StrictSession) (e : SessionEnd) : Kept s { s with ended := some e } :=
  ⟨rfl, rfl, rfl, id⟩

theorem kept_move {phase : StrictPhase} (hholds : Phase.holds phase = Phase.holds s.phase)
    (hopened : Phase.opened s.phase = true → Phase.opened phase = true) :
    Kept s { s with phase } :=
  ⟨rfl, rfl, hholds, hopened⟩

theorem kept_afterReadBack {row : IntentRecord} {inserted : Bool}
    (hphase : s.phase = .reading row inserted) (stored : Option IntentRecord) :
    Kept s (s.afterReadBack chatDigest row inserted stored) := by
  cases stored with
  | none => exact kept_end s _
  | some stored =>
    unfold StrictSession.afterReadBack
    simp only
    split
    · exact kept_end s _
    · split
      · exact kept_end s _
      · rename_i hinserted
        have hclaimed : Kept s { s with phase := .claimed row } := by
          refine kept_move ?_ ?_
          · rw [hphase]
            exact (Bool.not_eq_false _ ▸ hinserted : inserted = true).symm
          · rw [hphase]
            rintro ⟨⟩
        split
        · exact hclaimed
        · exact ⟨rfl, rfl, hclaimed.holds, hclaimed.opened⟩

theorem kept_of_act {action : StrictAction} (hs : s.act chatDigest rows action = some s') :
    Kept s s' := by
  obtain ⟨-, hacts⟩ := acts_of_act hs
  cases hacts with
  | begin hphase => exact kept_move (by rw [hphase]; rfl) (by rw [hphase]; rintro ⟨⟩)
  | refuse hphase => exact kept_end s _
  | ackInsert hphase => exact kept_move (by rw [hphase]; rfl) (by rw [hphase]; rintro ⟨⟩)
  | readBack hphase => exact kept_afterReadBack hphase _
  | openStream hphase => exact kept_move (by rw [hphase]; rfl) fun _ ↦ rfl
  | deliver hphase => exact ⟨rfl, rfl, rfl, id⟩
  | summarise hphase => exact kept_move (by rw [hphase]; rfl) fun _ ↦ rfl
  | ackFinish hphase => exact kept_move (by rw [hphase]; rfl) fun _ ↦ rfl
  | commit hphase hread hstate => exact kept_move (by rw [hphase]; rfl) fun _ ↦ rfl
  | doubt hphase => exact kept_end s _
  | sendReceipt hphase => exact ⟨rfl, rfl, by rw [hphase]; rfl, fun _ ↦ rfl⟩
  | sendDone hphase => exact ⟨rfl, rfl, by rw [hphase]; rfl, fun _ ↦ rfl⟩
  | answer hphase => exact kept_end s _
  | fail => exact kept_end s _
  | crash => exact kept_end s _

end Session

/-! ### All requests -/

section World

variable {chatDigest : String → StrictChatRequest → String} {rows₀ : IntentTable}
  {w w' : StrictWorld} {e : StrictEvent}

/-- The row has the primary key of the request. -/
def KeyOf (s : StrictSession) (stored : IntentRecord) : Prop :=
  stored.tenant = s.tenant ∧ stored.intent = s.body.intent

/-- Both requests have the same primary key. -/
def SameKey (s s' : StrictSession) : Prop :=
  s.tenant = s'.tenant ∧ s.body.intent = s'.body.intent

/-- **The invariant of the service.** Every request knows what it should of the store, no request
holds a row that was there to begin with, and no two requests hold a row of the same key. -/
structure StrictInv (chatDigest : String → StrictChatRequest → String) (rows₀ : IntentTable)
    (w : StrictWorld) : Prop where
  session : ∀ id s, w.sessions id = some s → SessionInv chatDigest w.rows s
  rows : RowsLe rows₀ w.rows
  fresh : ∀ id s, w.sessions id = some s → Phase.holds s.phase = true →
    ∀ stored ∈ rows₀.rows, ¬ KeyOf s stored
  unique : ∀ id id' s s', w.sessions id = some s → w.sessions id' = some s' →
    Phase.holds s.phase = true → Phase.holds s'.phase = true → SameKey s s' → id = id'

/-- One request takes a step or has one of its statements take effect. It starts to hold its row
only when no row has its key. -/
structure Moves (chatDigest : String → StrictChatRequest → String) (w : StrictWorld) (id : ℕ)
    (s s' : StrictSession) (rows' : IntentTable) : Prop where
  session : w.sessions id = some s
  tenant : s'.tenant = s.tenant
  body : s'.body = s.body
  opened : Phase.opened s.phase = true → Phase.opened s'.phase = true
  rows : RowsLe w.rows rows'
  inv : SessionInv chatDigest w.rows s → SessionInv chatDigest rows' s'
  holds : Phase.holds s'.phase = Phase.holds s.phase ∨
    (SessionInv chatDigest w.rows s → ∀ stored ∈ w.rows.rows, ¬ KeyOf s stored)

/-- A request that has just come. -/
def Arrives (s : StrictSession) : Prop :=
  s.phase = .checked ∧ s.sent = [] ∧ (s.ended = none ∨ s.ended = some (.error .refused))

theorem moves_of_act {id : ℕ} {s s' : StrictSession} {action : StrictAction}
    (hsession : w.sessions id = some s) (hs : s.act chatDigest w.rows action = some s') :
    Moves chatDigest w id s s' w.rows where
  session := hsession
  tenant := (kept_of_act hs).tenant
  body := (kept_of_act hs).body
  opened := (kept_of_act hs).opened
  rows := .refl _
  inv h := h.act hs
  holds := .inl (kept_of_act hs).holds

theorem clash_iff {a b : IntentRecord} :
    a.clash b = true ↔ a.tenant = b.tenant ∧ a.intent = b.intent := by
  simp [IntentRecord.clash]

/-- The `INSERT` of a request that finds no row with its key. -/
theorem moves_of_insert {id : ℕ} {s : StrictSession} {row : IntentRecord} {rows' : IntentTable}
    (hsession : w.sessions id = some s) (hphase : s.phase = .inserting row none)
    (hinsert : w.rows.insert? row = some rows') :
    Moves chatDigest w id s { s with phase := .inserting row (some true) } rows' where
  session := hsession
  tenant := rfl
  body := rfl
  opened := by rw [hphase]; rintro ⟨⟩
  rows := rowsLe_insert hinsert
  inv h := by
    obtain ⟨-, hrows⟩ := Table.insert?_eq_some_iff.1 hinsert
    have hmem : row ∈ rows'.rows := by
      rw [hrows]
      exact List.mem_append_right _ (List.mem_singleton_self _)
    have hown : Own chatDigest s row := h.row row (by rw [hphase]; rfl)
    exact
      { row := h.row_of_eq (by rw [hphase]; rfl)
        holds := fun _ ↦ ⟨row, hmem, hown⟩
        completed := by rintro _ ⟨⟩
        receiptSent := by rintro _ _ ⟨⟩
        sent := fun hsent ↦ by
          have hopened := h.sent hsent
          rw [hphase] at hopened
          cases hopened
        ended := fun _ ↦ rfl
        replay := fun _ ↦ ⟨row, hmem, hown⟩ }
  holds := .inr fun h stored hstored hkey ↦ by
    obtain ⟨hfree, -⟩ := Table.insert?_eq_some_iff.1 hinsert
    have hown : Own chatDigest s row := h.row row (by rw [hphase]; rfl)
    have hclash : stored.clash row = true :=
      clash_iff.2 ⟨hkey.1.trans hown.1.symm, hkey.2.trans hown.2.1.symm⟩
    rw [hfree stored hstored] at hclash
    cases hclash

/-- What an event does. -/
theorem step_cases (hs : w.step chatDigest e = some w') :
    (∃ id s', w.sessions id = none ∧ Arrives s' ∧ w' = w.set id s') ∨
    (∃ id s s' rows', Moves chatDigest w id s s' rows' ∧
      w' = { w.set id s' with rows := rows' }) := by
  cases e with
  | start id tenant connector body =>
    simp only [StrictWorld.step] at hs
    split at hs
    · cases hs
    · rename_i hnone
      split at hs
      · exact .inl ⟨id, _, hnone, ⟨rfl, rfl, .inl rfl⟩, (Option.some.inj hs).symm⟩
      · exact .inl ⟨id, _, hnone, ⟨rfl, rfl, .inr rfl⟩, (Option.some.inj hs).symm⟩
  | act id action =>
    obtain ⟨s, hsession, hs⟩ := Option.bind_eq_some_iff.1 hs
    obtain ⟨s', hact, rfl⟩ := Option.map_eq_some_iff.1 hs
    exact .inr ⟨id, s, s', w.rows, moves_of_act hsession hact, rfl⟩
  | applyInsert id =>
    obtain ⟨s, hsession, hs⟩ := Option.bind_eq_some_iff.1 hs
    split at hs
    · rename_i row hphase
      split at hs
      · rename_i rows' hinsert
        exact .inr ⟨id, s, _, rows', moves_of_insert hsession hphase hinsert,
          (Option.some.inj hs).symm⟩
      · -- the key has a row already, and the `INSERT` does nothing
        refine .inr ⟨id, s, { s with phase := .inserting row (some false) }, w.rows, ?_,
          (Option.some.inj hs).symm⟩
        exact
          { session := hsession
            tenant := rfl
            body := rfl
            opened := by rw [hphase]; rintro ⟨⟩
            rows := .refl _
            inv := fun h ↦ h.move (h.row_of_eq (by rw [hphase]; rfl)) (by rw [hphase]; rfl)
              (by rw [hphase]; rintro ⟨⟩) rfl
            holds := .inl (by rw [hphase]; rfl) }
    · cases hs
  | applyFinish id =>
    obtain ⟨s, hsession, hs⟩ := Option.bind_eq_some_iff.1 hs
    split at hs
    · rename_i row receipt hphase
      refine .inr ⟨id, s, _, _, ?_, (Option.some.inj hs).symm⟩
      exact
        { session := hsession
          tenant := rfl
          body := rfl
          opened := fun _ ↦ rfl
          rows := rowsLe_updateRows row receipt
          inv := fun h ↦ (h.mono (rowsLe_updateRows row receipt)).move
            (h.row_of_eq (by rw [hphase]; rfl)) (by rw [hphase]; rfl) (fun _ ↦ rfl) rfl
          holds := .inl (by rw [hphase]; rfl) }
    · cases hs

theorem RowsLe.trans {rows₁ rows₂ rows₃ : IntentTable} (h : RowsLe rows₁ rows₂)
    (h' : RowsLe rows₂ rows₃) : RowsLe rows₁ rows₃ := by
  intro stored hstored
  obtain ⟨⟨stored₂, hmem₂, htenant₂, hintent₂, hdigest₂⟩, hkeep⟩ := h stored hstored
  obtain ⟨⟨stored₃, hmem₃, htenant₃, hintent₃, hdigest₃⟩, -⟩ := h' stored₂ hmem₂
  refine ⟨⟨stored₃, hmem₃, htenant₃.trans htenant₂, hintent₃.trans hintent₂,
    hdigest₃.trans hdigest₂⟩, fun hstate ↦ ?_⟩
  exact (h' stored (hkeep hstate)).2 hstate

theorem sessions_set_iff {id id' : ℕ} {s t : StrictSession} :
    (w.set id s).sessions id' = some t ↔
      (id' = id ∧ s = t) ∨ (id' ≠ id ∧ w.sessions id' = some t) := by
  by_cases hid : id' = id
  · subst hid
    simp [StrictWorld.set]
  · simp [StrictWorld.set, hid]

theorem Arrives.inv {rows : IntentTable} {s : StrictSession} (h : Arrives s) :
    SessionInv chatDigest rows s := by
  obtain ⟨hphase, hsent, hended⟩ := h
  exact
    { row := by rw [hphase]; rintro _ ⟨⟩
      holds := by rw [hphase]; rintro ⟨⟩
      completed := by rw [hphase]; rintro _ ⟨⟩
      receiptSent := by rw [hphase]; rintro _ _ ⟨⟩
      sent := fun hs ↦ absurd hsent hs
      ended := by rcases hended with he | he <;> rw [he] <;> rintro (⟨⟨⟩⟩ | ⟨⟨⟩⟩)
      replay := by rcases hended with he | he <;> rw [he] <;> rintro ⟨⟩ }

theorem Arrives.not_holds {s : StrictSession} (h : Arrives s) : ¬ Phase.holds s.phase = true := by
  rw [h.1]
  rintro ⟨⟩

theorem Moves.sameKey {id : ℕ} {s s' : StrictSession} {rows' : IntentTable}
    (hm : Moves chatDigest w id s s' rows') : SameKey s' s :=
  ⟨hm.tenant, by rw [hm.body]⟩

/-- A request that holds its row after its step is the only one of its key that does. -/
theorem Moves.holds_alone {id id' : ℕ} {s s' t : StrictSession} {rows' : IntentTable}
    (h : StrictInv chatDigest rows₀ w) (hm : Moves chatDigest w id s s' rows')
    (ht : w.sessions id' = some t) (hs' : Phase.holds s'.phase = true)
    (hholds : Phase.holds t.phase = true) (hkey : SameKey s' t) : id = id' := by
  have hst : SameKey s t := ⟨hm.tenant ▸ hkey.1, hm.body ▸ hkey.2⟩
  rcases hm.holds with heq | hfree
  · exact h.unique id id' s t hm.session ht (heq ▸ hs') hholds hst
  · -- the other one's row has this key
    obtain ⟨stored, hstored, hown⟩ := (h.session id' t ht).holds hholds
    exact absurd ⟨hown.1.trans hst.1.symm, hown.2.1.trans hst.2.symm⟩
      (hfree (h.session id s hm.session) stored hstored)

/-- The step lemma of the service. -/
theorem StrictInv.step (h : StrictInv chatDigest rows₀ w) (hs : w.step chatDigest e = some w') :
    StrictInv chatDigest rows₀ w' := by
  obtain ⟨id, s', hnone, harrives, rfl⟩ | ⟨id, s, s', rows', hm, rfl⟩ := step_cases hs
  · refine ⟨fun id' t ht ↦ ?_, h.rows, fun id' t ht hholds ↦ ?_,
      fun id₁ id₂ t₁ t₂ ht₁ ht₂ hh₁ hh₂ hkey ↦ ?_⟩
    · obtain ⟨-, rfl⟩ | ⟨-, ht⟩ := sessions_set_iff.1 ht
      · exact harrives.inv
      · exact h.session id' t ht
    · obtain ⟨-, rfl⟩ | ⟨-, ht⟩ := sessions_set_iff.1 ht
      · exact absurd hholds harrives.not_holds
      · exact h.fresh id' t ht hholds
    · obtain ⟨-, rfl⟩ | ⟨-, ht₁⟩ := sessions_set_iff.1 ht₁
      · exact absurd hh₁ harrives.not_holds
      · obtain ⟨-, rfl⟩ | ⟨-, ht₂⟩ := sessions_set_iff.1 ht₂
        · exact absurd hh₂ harrives.not_holds
        · exact h.unique id₁ id₂ t₁ t₂ ht₁ ht₂ hh₁ hh₂ hkey
  · refine ⟨fun id' t ht ↦ ?_, h.rows.trans hm.rows, fun id' t ht hholds ↦ ?_,
      fun id₁ id₂ t₁ t₂ ht₁ ht₂ hh₁ hh₂ hkey ↦ ?_⟩
    · obtain ⟨-, rfl⟩ | ⟨-, ht⟩ := sessions_set_iff.1 ht
      · exact hm.inv (h.session id s hm.session)
      · exact (h.session id' t ht).mono hm.rows
    · obtain ⟨-, rfl⟩ | ⟨-, ht⟩ := sessions_set_iff.1 ht
      · intro stored hstored hkey
        have hkey' : KeyOf s stored := ⟨hkey.1.trans hm.tenant, by rw [hkey.2, hm.body]⟩
        rcases hm.holds with heq | hfree
        · exact h.fresh id s hm.session (heq ▸ hholds) stored hstored hkey'
        · obtain ⟨⟨stored', hstored', htenant, hintent, -⟩, -⟩ := h.rows stored hstored
          exact hfree (h.session id s hm.session) stored' hstored'
            ⟨htenant.trans hkey'.1, hintent.trans hkey'.2⟩
      · exact h.fresh id' t ht hholds
    · obtain ⟨rfl, rfl⟩ | ⟨-, hold₁⟩ := sessions_set_iff.1 ht₁
      · obtain ⟨rfl, -⟩ | ⟨-, ht₂⟩ := sessions_set_iff.1 ht₂
        · rfl
        · exact hm.holds_alone h ht₂ hh₁ hh₂ hkey
      · obtain ⟨rfl, rfl⟩ | ⟨-, ht₂⟩ := sessions_set_iff.1 ht₂
        · exact (hm.holds_alone h hold₁ hh₂ hh₁ ⟨hkey.1.symm, hkey.2.symm⟩).symm
        · exact h.unique id₁ id₂ t₁ t₂ hold₁ ht₂ hh₁ hh₂ hkey

/-- A request that has opened its stream stays with its key. -/
theorem opened_of_step {id : ℕ} {s : StrictSession} (hs : w.step chatDigest e = some w')
    (hsession : w.sessions id = some s) (hopened : Phase.opened s.phase = true) :
    ∃ s', w'.sessions id = some s' ∧ SameKey s' s ∧ Phase.opened s'.phase = true := by
  obtain ⟨id', t', hnone, -, rfl⟩ | ⟨id', t, t', rows', hm, rfl⟩ := step_cases hs
  · have hid : id ≠ id' := by
      rintro rfl
      rw [hnone] at hsession
      cases hsession
    exact ⟨s, sessions_set_iff.2 (.inr ⟨hid, hsession⟩), ⟨rfl, rfl⟩, hopened⟩
  · by_cases hid : id = id'
    · subst hid
      obtain rfl := Option.some.inj (hsession.symm.trans hm.session)
      exact ⟨t', sessions_set_iff.2 (.inl ⟨rfl, rfl⟩), hm.sameKey, hm.opened hopened⟩
    · exact ⟨s, sessions_set_iff.2 (.inr ⟨hid, hsession⟩), ⟨rfl, rfl⟩, hopened⟩

end World

/-! ### Whole runs -/

section Runs

variable {chatDigest : String → StrictChatRequest → String} {rows₀ : IntentTable}
  {w : StrictWorld} {h : List (StrictWorld × StrictEvent)}

/-- The service before its first request. -/
def initial (rows₀ : IntentTable) : StrictWorld where
  rows := rows₀
  sessions _ := none

theorem strictInv_initial : StrictInv chatDigest rows₀ (initial rows₀) where
  session _ _ hs := nomatch hs
  rows := .refl _
  fresh _ _ hs := nomatch hs
  unique _ _ _ _ hs := nomatch hs

/-- The tenant and intent an event opens the provider's stream for. -/
def opens (p : StrictWorld × StrictEvent) : Option (String × String) :=
  match p.2 with
  | .act id .openStream => (p.1.sessions id).map fun s ↦ (s.tenant, s.body.intent)
  | _ => none

theorem strictInv_of_run (hr : Run (StrictWorld.step chatDigest) (initial rows₀) h w) :
    StrictInv chatDigest rows₀ w :=
  hr.invariant strictInv_initial fun hp hs ↦ hp.step hs

/-- An event that opens a stream does it for a request whose stream was not open and is now. -/
theorem opens_eq_some {w' : StrictWorld} {e : StrictEvent} {key : String × String}
    (hkey : opens (w, e) = some key) (hs : w.step chatDigest e = some w') :
    ∃ id s s' row, w.sessions id = some s ∧ s.phase = .claimed row ∧
      w'.sessions id = some s' ∧ SameKey s' s ∧ Phase.opened s'.phase = true ∧
      key = (s.tenant, s.body.intent) := by
  unfold opens at hkey
  split at hkey
  · rename_i id he
    obtain rfl : e = .act id .openStream := he
    obtain ⟨s, hsession, rfl⟩ := Option.map_eq_some_iff.1 hkey
    obtain ⟨t, ht, hs⟩ := Option.bind_eq_some_iff.1 hs
    obtain rfl := Option.some.inj (hsession.symm.trans ht)
    obtain ⟨s', hact, rfl⟩ := Option.map_eq_some_iff.1 hs
    obtain ⟨-, hacts⟩ := acts_of_act hact
    cases hacts with
    | @openStream row hphase =>
      exact ⟨id, s, _, row, hsession, hphase, sessions_set_iff.2 (.inl ⟨rfl, rfl⟩), ⟨rfl, rfl⟩,
        rfl, rfl⟩
  · cases hkey

/-- The run lemma: no key is opened twice, and what has been opened is open still. -/
theorem opens_of_run (hr : Run (StrictWorld.step chatDigest) (initial rows₀) h w) :
    (h.filterMap opens).Nodup ∧ ∀ key ∈ h.filterMap opens, ∃ id s, w.sessions id = some s ∧
      Phase.opened s.phase = true ∧ key = (s.tenant, s.body.intent) := by
  induction hr with
  | nil => simp
  | @snoc h w w' e hr hs ih =>
    obtain ⟨hnodup, hopened⟩ := ih
    have hstill : ∀ key ∈ h.filterMap opens, ∃ id s, w'.sessions id = some s ∧
        Phase.opened s.phase = true ∧ key = (s.tenant, s.body.intent) := by
      intro key hkey
      obtain ⟨id, s, hsession, hopen, rfl⟩ := hopened key hkey
      obtain ⟨s', hsession', ⟨htenant, hintent⟩, hopen'⟩ := opened_of_step hs hsession hopen
      exact ⟨id, s', hsession', hopen', by rw [htenant, hintent]⟩
    rw [List.filterMap_append]
    cases hkey : opens (w, e) with
    | none =>
      simp only [List.filterMap_cons, hkey, List.filterMap_nil, List.append_nil]
      exact ⟨hnodup, hstill⟩
    | some key =>
      simp only [List.filterMap_cons, hkey, List.filterMap_nil]
      obtain ⟨id, s, s', row, hsession, hphase, hsession', ⟨htenant, hintent⟩, hopen', rfl⟩ :=
        opens_eq_some hkey hs
      refine ⟨List.nodup_append.2 ⟨hnodup, List.nodup_singleton _, ?_⟩, fun key hkey ↦ ?_⟩
      · -- whoever opened this key holds the row this request holds, so it is this request
        rintro _ hmem _ hmem' rfl
        obtain rfl := List.mem_singleton.1 hmem'
        obtain ⟨id', t, ht, hopen, heq⟩ := hopened _ hmem
        obtain ⟨ht₁, ht₂⟩ := Prod.mk.inj heq
        obtain rfl := (strictInv_of_run hr).unique id id' s t hsession ht
          (by rw [hphase]; rfl) (Phase.holds_of_opened hopen) ⟨ht₁, ht₂⟩
        obtain rfl := Option.some.inj (hsession.symm.trans ht)
        rw [hphase] at hopen
        cases hopen
      · rcases List.mem_append.1 hkey with hmem | hmem
        · exact hstill key hmem
        · obtain rfl := List.mem_singleton.1 hmem
          exact ⟨id, s', hsession', hopen', by rw [htenant, hintent]⟩

/-- A request that is turned away: its stream is not opened, it is sent nothing, and unless its
process crashes it ends with one of these errors. -/
structure TurnedAway (codes : List StrictChatError) (s : StrictSession) : Prop where
  opened : Phase.opened s.phase = false
  sent : s.sent = []
  ended : ∀ e, s.ended = some e → e = .crashed ∨ ∃ code ∈ codes, e = .error code

/-- A request that does not hold its row is turned away. -/
theorem SessionInv.turnedAway {rows : IntentTable} {s : StrictSession}
    (hinv : SessionInv chatDigest rows s) (hholds : ¬ Phase.holds s.phase = true) :
    TurnedAway [.refused, .conflict, .replayUnavailable] s where
  opened := Bool.not_eq_true _ ▸ fun hopened ↦ hholds (Phase.holds_of_opened hopened)
  sent := by
    by_contra hsent
    exact hholds (Phase.holds_of_opened (hinv.sent hsent))
  ended e he := by
    cases e with
    | crashed => exact .inl rfl
    | answered => exact absurd (hinv.ended (.inr he)) hholds
    | error code =>
      cases code with
      | uncertain => exact absurd (hinv.ended (.inl he)) hholds
      | refused => exact .inr ⟨.refused, by simp, rfl⟩
      | conflict => exact .inr ⟨.conflict, by simp, rfl⟩
      | replayUnavailable => exact .inr ⟨.replayUnavailable, by simp, rfl⟩

/-- There is one row of a key. -/
theorem eq_of_key {rows : IntentTable} {s : StrictSession} {a b : IntentRecord}
    (ha : a ∈ rows.rows) (hb : b ∈ rows.rows) (hka : KeyOf s a) (hkb : KeyOf s b) : a = b := by
  refine Table.eq_of_clash (fun a b ↦ ?_) ha hb
    (clash_iff.2 ⟨hka.1.trans hkb.1.symm, hka.2.trans hkb.2.symm⟩)
  rw [Bool.eq_iff_iff, clash_iff, clash_iff]
  exact ⟨fun h ↦ ⟨h.1.symm, h.2.symm⟩, fun h ↦ ⟨h.1.symm, h.2.symm⟩⟩

/-- A request whose key has a row with another digest. -/
theorem SessionInv.otherDigest {rows : IntentTable} {s : StrictSession} {stored : IntentRecord}
    (hinv : SessionInv chatDigest rows s) (hstored : stored ∈ rows.rows) (hkey : KeyOf s stored)
    (hdigest : stored.digest ≠ s.digest chatDigest) : TurnedAway [.refused, .conflict] s := by
  have hnone : ¬ ∃ own ∈ rows.rows, Own chatDigest s own := by
    rintro ⟨own, hmem, htenant, hintent, howndigest⟩
    obtain rfl := eq_of_key hstored hmem hkey ⟨htenant, hintent⟩
    exact hdigest howndigest
  have haway := hinv.turnedAway fun hholds ↦ hnone (hinv.holds hholds)
  refine ⟨haway.opened, haway.sent, fun e he ↦ ?_⟩
  obtain hcrash | ⟨code, hcode, rfl⟩ := haway.ended e he
  · exact .inl hcrash
  · refine .inr ⟨code, ?_, rfl⟩
    rcases code with _ | _ | _ | _
    · simp
    · simp
    · exact absurd (hinv.replay he) hnone
    · simp at hcode

/-- Reading back a row with another digest is the conflict. -/
theorem conflict_of_readBack {rows : IntentTable} {s s' : StrictSession} {stored : IntentRecord}
    (hinv : SessionInv chatDigest rows s) (hstored : stored ∈ rows.rows) (hkey : KeyOf s stored)
    (hdigest : stored.digest ≠ s.digest chatDigest)
    (hs : s.act chatDigest rows .readBack = some s') : s'.ended = some (.error .conflict) := by
  obtain ⟨-, hacts⟩ := acts_of_act hs
  cases hacts with
  | @readBack row inserted hphase =>
    have hown : Own chatDigest s row := hinv.row row (by rw [hphase]; rfl)
    have hclash : stored.clash row = true :=
      clash_iff.2 ⟨hkey.1.trans hown.1.symm, hkey.2.trans hown.2.1.symm⟩
    cases hread : StrictSession.read rows row with
    | none =>
      -- the key has a row, so the read finds one
      have hnone := List.find?_eq_none.1 hread stored hstored
      exact absurd hclash hnone
    | some found =>
      have hfound : found.clash row = true :=
        List.find?_some (p := fun r : IntentRecord ↦ r.clash row) hread
      obtain ⟨htenant, hintent⟩ := clash_iff.1 hfound
      obtain rfl := eq_of_key hstored (mem_of_read hread) hkey
        ⟨htenant.trans hown.1, hintent.trans hown.2.1⟩
      simp only [StrictSession.afterReadBack, hdigest, ne_eq, not_false_eq_true, or_true, if_true]
      rfl

/-- What strict chat guarantees in a run. -/
structure Guarantee (chatDigest : String → StrictChatRequest → String) (rows₀ : IntentTable)
    (h : List (StrictWorld × StrictEvent)) (w : StrictWorld) : Prop where
  /-- The stream is opened at most once per tenant and intent. -/
  once : (h.filterMap opens).Nodup
  /-- It is never opened for an intent that had a row before the run. -/
  fresh : ∀ key ∈ h.filterMap opens, ∀ stored ∈ rows₀.rows, (stored.tenant, stored.intent) ≠ key
  /-- Every other request of an intent that has been claimed is turned away. -/
  others : ∀ id id' s t, w.sessions id = some s → w.sessions id' = some t → id ≠ id' →
    SameKey s t → Phase.holds s.phase = true →
    TurnedAway [.refused, .conflict, .replayUnavailable] t
  /-- A request with another body than the one its intent has a row of is turned away, and reading
  the row back is the conflict. -/
  conflict : ∀ id t, w.sessions id = some t → ∀ stored ∈ w.rows.rows, KeyOf t stored →
    stored.digest ≠ t.digest chatDigest → TurnedAway [.refused, .conflict] t ∧
      ∀ t', t.act chatDigest w.rows .readBack = some t' → t'.ended = some (.error .conflict)
  /-- When the end of an answer is sent, the receipt has been sent and the row is completed with
  it. -/
  done : ∀ p ∈ h, ∀ id, p.2 = .act id .sendDone → ∃ s receipt, p.1.sessions id = some s ∧
    ClientEvent.receipt receipt ∈ s.sent ∧ ∃ stored ∈ p.1.rows.rows, Own chatDigest s stored ∧
      stored.state = .completed ∧ stored.receipt = some receipt

/-- **Strict chat dispatches at most once**, whatever rows it starts with and in every
interleaving. -/
theorem strict_chat_dispatches_once
    (hr : Run (StrictWorld.step chatDigest) (initial rows₀) h w) :
    Guarantee chatDigest rows₀ h w := by
  have hinv := strictInv_of_run hr
  obtain ⟨hnodup, hopened⟩ := opens_of_run hr
  refine ⟨hnodup, fun key hkey stored hstored heq ↦ ?_,
    fun id id' s t hs ht hne hkey hholds ↦ ?_, fun id t ht stored hstored hkey hdigest ↦ ?_,
    fun p hp id he ↦ ?_⟩
  · obtain ⟨id, s, hsession, hopen, rfl⟩ := hopened key hkey
    exact hinv.fresh id s hsession (Phase.holds_of_opened hopen) stored hstored
      (Prod.mk.inj heq)
  · exact (hinv.session id' t ht).turnedAway fun ht' ↦
      hne (hinv.unique id id' s t hs ht hholds ht' hkey)
  · have hsession := hinv.session id t ht
    exact ⟨hsession.otherDigest hstored hkey hdigest,
      fun t' hact ↦ conflict_of_readBack hsession hstored hkey hdigest hact⟩
  · obtain ⟨h', hr', -⟩ := hr.exists_of_mem p hp
    obtain ⟨w', hstep⟩ := hr.step_of_mem p hp
    rw [he] at hstep
    obtain ⟨s, hs, hstep⟩ := Option.bind_eq_some_iff.1 hstep
    obtain ⟨s', hact, -⟩ := Option.map_eq_some_iff.1 hstep
    obtain ⟨-, hacts⟩ := acts_of_act hact
    cases hacts with
    | @sendDone row receipt hphase =>
      have hsession := (strictInv_of_run hr').session id s hs
      obtain ⟨stored, hstored, hown, hstate, hreceipt⟩ :=
        hsession.completed receipt (by rw [hphase]; rfl)
      exact ⟨s, receipt, hs, hsession.receiptSent row receipt hphase, stored, hstored, hown,
        hstate, hreceipt⟩

end Runs

/-! ### A run -/

/-- A digest that tells bodies apart by their content. -/
def sampleDigest (connector : String) (body : StrictChatRequest) : String :=
  connector ++ "/" ++ body.content

def sampleSha : String :=
  String.ofList (List.replicate 64 '0')

def sampleBody (content : String) : StrictChatRequest where
  intent := "i"
  attempt := "a"
  generation := "g"
  model := "deepseek-chat"
  capability_sha256 := sampleSha
  admission_sha256 := sampleSha
  rate_sha256 := sampleSha
  checkpoint_sha256 := sampleSha
  deadline_ms := 1000
  content

def samplePin : SupplierPin where
  admission := sampleSha
  rate := sampleSha
  checkpoint := sampleSha
  capability := sampleSha
  source := sampleSha
  deployment := sampleSha
  encoder := sampleSha
  hard_output := sampleSha
  units := "100"
  scale := 6

def sampleLease (content : String) : StrictAuthorityLease where
  tenant := "t"
  connector := "deepseek"
  model := "deepseek-chat"
  digest := sampleDigest "deepseek" (sampleBody content)
  deadline_ms := 1000
  intent := "i"
  attempt := "a"
  generation := "g"
  exposure := samplePin

def sampleSummary : StreamSummary where
  served_model := "deepseek-chat"
  provider_id := some "p"
  finish := "stop"
  usage := some { prompt_tokens := 1, completion_tokens := 1, total_tokens := 2 }

/-- Three requests of one intent race. The second has another body; the third has the body of the
first, whose answer is sent to its end. -/
def sampleEvents : List StrictEvent :=
  [.start 0 "t" "deepseek" (sampleBody "x"), .start 1 "t" "deepseek" (sampleBody "y"),
    .act 0 (.begin (sampleLease "x")), .act 1 (.begin (sampleLease "y")), .applyInsert 0,
    .applyInsert 1, .act 0 .ackInsert, .act 1 .ackInsert, .act 1 .readBack, .act 0 .readBack,
    .act 0 .openStream, .act 0 (.summarise sampleSummary), .applyFinish 0, .act 0 .ackFinish,
    .start 2 "t" "deepseek" (sampleBody "x"), .act 2 (.begin (sampleLease "x")), .applyInsert 2,
    .act 2 .ackInsert, .act 2 .readBack, .act 0 .readFinish, .act 0 .sendReceipt,
    .act 0 .sendDone, .act 0 .answer]

/-- The race keeps the guarantee: one stream, one conflict, no replay. -/
theorem strict_chat_dispatches_once_race :
    ∃ h w, Run (StrictWorld.step sampleDigest) (initial Table.empty) h w ∧
      h.filterMap opens = [("t", "i")] ∧
      (List.range 3).map (fun id ↦ (w.sessions id).bind StrictSession.ended) =
        [some .answered, some (.error .conflict), some (.error .replayUnavailable)] ∧
      Guarantee sampleDigest Table.empty h w := by
  obtain ⟨h, w, hr, hcheck⟩ := Run.exists_of_check (StrictWorld.step sampleDigest)
    (initial Table.empty) sampleEvents
    (fun h w ↦ decide (h.filterMap opens = [("t", "i")]) &&
      decide ((List.range 3).map (fun id ↦ (w.sessions id).bind StrictSession.ended) =
        [some .answered, some (.error .conflict), some (.error .replayUnavailable)]))
    (by decide +kernel)
  obtain ⟨hopens, hended⟩ := Bool.and_eq_true_iff.1 hcheck
  exact ⟨h, w, hr, of_decide_eq_true hopens, of_decide_eq_true hended,
    strict_chat_dispatches_once hr⟩

end ModelConnector.StrictDispatch
