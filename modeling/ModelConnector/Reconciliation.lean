import ModelConnector.Handles

/-!
# The reconciler charges exactly once

The reconciler finds the requests without a ledger row by a read, and settles each later in a
transaction of its own; meanwhile other reconcile runs and live settlements go on. That a request
is charged only once rests on two facts. A live settlement charges only in the transaction that
inserts the request, whose id is new. And all reconcile runs settle a request under one ledger key,
so the second of them is refused by the unique index.

`ChargedOnce` is the invariant: what a pending reconcile run still has in hand is a stored request
that either has no ledger row or has already been charged under the key `request:<id>`.
`chargedOnce_of_run` is the result over runs.
-/

namespace ModelConnector

open Atomic Billing Connectors

/-- How many charges the ledger has for a request. -/
def chargesFor (db : Db) (requestId : String) : ℕ :=
  db.ledger.count fun row ↦ row.entryType == .charge && row.requestId == some requestId

/-- What the customer owes for a stored request. -/
def owed (row : RequestRow) : ℤ :=
  if isChargeableToCustomer row.costSource then row.costUsd else 0

/-- The event charges for no request but the ones it stores or reconciles: a settlement called
directly names none. -/
def Event.NamesNoRequest : Event → Prop
  | .settle params => params.requestId = none
  | .settleIntent _ _ requestId _ _ => requestId = none
  | _ => True

instance : DecidablePred Event.NamesNoRequest
  | .settle params => Option.decidableEqNone params.requestId
  | .settleIntent _ _ requestId _ _ => Option.decidableEqNone requestId
  | .tick _ | .credit _ | .gift _ | .recordPayment _ | .reverse _ | .openIntent _ _
  | .resolveReplay _ | .reclaimIntent _ | .releaseIntent _ | .persistAndSettle _ _ _
  | .persistAndSettleDirect _ _ | .sweepExpiredIntents _ | .expireIntent _
  | .purgeSettledIntents _ | .findUnsettled _ | .reconcileRow _ _ => isTrue trivial

/-- The requests a call has still to reconcile. -/
def Call.orphans : Call → List RequestRow
  | .reconciling orphans _ => orphans
  | _ => []

/-- A request in the hands of a reconcile run: stored, chargeable, and without a ledger row, unless
it was charged under its key since it was found. -/
structure Pending (db : Db) (row : RequestRow) : Prop where
  mem : row ∈ db.requests.rows
  chargeable : isChargeableToCustomer row.costSource = true
  open_or_keyed : (∀ entry ∈ db.ledger.rows, entry.requestId ≠ some row.id) ∨
    ∃ entry ∈ db.ledger.rows, entry.idempotencyKey = "request:" ++ row.id

/-- **The invariant of exactly-once**, relative to the store the run started from. -/
structure ChargedOnce (db₀ : Db) (s : System) : Prop where
  requests_minted : ∀ row ∈ s.db.requests.rows, row.id ∈ s.minted
  ledger_minted : ∀ entry ∈ s.db.ledger.rows, ∀ r, entry.requestId = some r → r ∈ s.minted
  /-- At most one charge was added for a request, and none for one that had a charge. -/
  once : ∀ r, chargesFor s.db r = chargesFor db₀ r ∨ chargesFor db₀ r = 0 ∧ chargesFor s.db r = 1
  /-- A charge that was added is of what is owed. -/
  exact : ∀ entry ∈ s.db.ledger.rows, entry ∈ db₀.ledger.rows ∨
    ∀ r, entry.entryType = .charge → entry.requestId = some r →
      ∃ row ∈ s.db.requests.rows, row.id = r ∧ entry.amountUsd = -owed row
  pending : ∀ call ∈ s.calls, ∀ row ∈ call.orphans, Pending s.db row

section Ledger

variable {db db' : Db} {r : String}

theorem chargesFor_append {rows : List LedgerRow} (h : db'.ledger.rows = db.ledger.rows ++ rows) :
    chargesFor db' r = chargesFor db r +
      rows.countP fun row ↦ row.entryType == .charge && row.requestId == some r := by
  unfold chargesFor Table.count
  rw [h, List.countP_append]

theorem chargesFor_eq_zero (h : ∀ entry ∈ db.ledger.rows, entry.requestId ≠ some r) :
    chargesFor db r = 0 := by
  refine List.countP_eq_zero.2 fun entry hentry hmatch ↦ ?_
  simp only [Bool.and_eq_true, beq_iff_eq] at hmatch
  exact h entry hentry hmatch.2

/-- A charge adds one for the request it names. -/
theorem chargesFor_charge {entry : ChargeEntry} {current : ℚ}
    (h : db'.ledger.rows = db.ledger.rows ++ entry.rows current) :
    chargesFor db' r = chargesFor db r + if entry.requestId = some r then 1 else 0 := by
  rw [chargesFor_append h, ChargeEntry.rows]
  split
  all_goals
    by_cases hr : entry.requestId = some r <;>
      simp [ChargeEntry.charge, ChargeEntry.writeOff, LedgerEntry.toRow, hr]

/-- Every row a charge adds names the request of the charge. -/
theorem requestId_of_mem_rows {entry : ChargeEntry} {current : ℚ} {row : LedgerRow}
    (h : row ∈ entry.rows current) : row.requestId = entry.requestId ∧
      (row.entryType = .charge → row.amountUsd = toMicros (-entry.amountUsd) ∧
        row.idempotencyKey = entry.idempotencyKey) := by
  rcases List.mem_cons.1 h with rfl | h
  · exact ⟨rfl, fun _ ↦ ⟨rfl, rfl⟩⟩
  · split at h
    · rw [List.mem_singleton.1 h]
      exact ⟨rfl, fun htype ↦ by simp [LedgerEntry.toRow, ChargeEntry.writeOff] at htype⟩
    · cases h

/-- The rows of a reversal name no request. -/
theorem requestId_of_mem_reverse {params : ReverseParams} {original row : LedgerRow}
    {amountUsd recovered : ℚ} (h : row ∈ params.rows original amountUsd recovered) :
    row.requestId = none := by
  rcases List.mem_cons.1 h with rfl | h
  · rfl
  · split at h
    · rw [List.mem_singleton.1 h]
      rfl
    · cases h

end Ledger

section Step

variable {s s' : System} {e : Event}

/-- Where the charge of a step comes from: it names no request, or the one the step stores, or one
in the hands of a reconcile run. -/
theorem charging_source {entry : ChargeEntry} (he : e.NamesNoRequest)
    (h : charging s e = some entry) :
    entry.requestId = none ∨
      (∃ outcome requestId, persisting e = some (outcome, requestId) ∧
        entry.requestId = some requestId ∧ outcome.customerChargeUsd = .finite entry.amountUsd) ∨
      ∃ call ∈ s.calls, ∃ row ∈ call.orphans,
        entry = (reconcileParams row).entry (ofMicros row.costUsd) := by
  cases chargeOf_of_charging h with
  | settle he' _ | settleIntent he' _ _ =>
    subst he'
    exact .inl he
  | persisted he' _ _ hq | persistedDirect he' hq =>
    subst he'
    exact .inr (.inl ⟨_, _, rfl, rfl, hq⟩)
  | @reconciled _ _ row _ _ _ hcall =>
    exact .inr (.inr ⟨_, List.mem_of_getElem? hcall, row, List.mem_cons_self, rfl⟩)

/-- What a step adds to the ledger, as far as requests are concerned. -/
inductive LedgerStep (s s' : System) : Prop
  /-- Rows that name no request. -/
  | unnamed {added : List LedgerRow} : s'.db.ledger.rows = s.db.ledger.rows ++ added →
      (∀ row ∈ added, row.requestId = none) → LedgerStep s s'
  /-- The charge for a request that is stored with it. -/
  | live {entry : ChargeEntry} {current cost : ℚ} {outcome : Outcome} {requestId : String} :
      s'.db.ledger.rows = s.db.ledger.rows ++ entry.rows current →
      entry.requestId = some requestId → requestId ∉ s.minted →
      outcome.customerChargeUsd = .finite entry.amountUsd → outcome.costUsd = .finite cost →
      outcome.requestRow requestId (toMicros cost) s.now ∈ s'.db.requests.rows →
      LedgerStep s s'
  /-- The charge for a request in the hands of a reconcile run. -/
  | reconciled {call : Call} {row : RequestRow} {current : ℚ} : call ∈ s.calls →
      row ∈ call.orphans →
      (∀ entry ∈ s.db.ledger.rows, entry.idempotencyKey ≠ "request:" ++ row.id) →
      s'.db.ledger.rows = s.db.ledger.rows ++
        ((reconcileParams row).entry (ofMicros row.costUsd)).rows current →
      LedgerStep s s'

theorem step_ledgerStep (he : e.NamesNoRequest) (h : step s e = some s') : LedgerStep s s' := by
  obtain ⟨db₁, db₂, hrequest, hintent, hmoney⟩ := step_phases h
  have hledger : db₂.ledger = s.db.ledger := hintent.frame.2.1.trans hrequest.frame.2.1
  have hrequests : s'.db.requests = db₂.requests := hmoney.frame.2.2
  cases hmoney with
  | idle => exact .unnamed (by rw [hledger, List.append_nil]) (by simp)
  | posted _ _ hnone hposted =>
    refine .unnamed (by rw [hposted.movement.rows, hledger]) fun row hrow ↦ ?_
    rw [List.mem_singleton.1 hrow]
    exact hnone
  | charged hcharging _ hprepared hcharged =>
    have hrows := hcharged.movement.rows
    have hfresh := hcharged.fresh
    rw [hledger] at hrows hfresh
    rcases charging_source he hcharging with hnone | ⟨outcome, requestId, hpersist, hsome, hcharge⟩ |
      ⟨call, hcall, row, hrow, rfl⟩
    · exact .unnamed hrows fun row hrow ↦ (requestId_of_mem_rows hrow).1.trans hnone
    · obtain ⟨hminted, cost, hcost, hstored⟩ := hprepared.stored _ _ hpersist
      exact .live hrows hsome hminted hcharge hcost (hrequests ▸ hstored)
    · exact .reconciled hcall hrow hfresh hrows
  | reversed _ _ _ hreversed =>
    refine .unnamed (by rw [hreversed.movement.rows, hledger]) fun row hrow ↦ ?_
    exact requestId_of_mem_reverse hrow

/-- Requests are never changed and never removed. -/
theorem requests_mono (h : step s e = some s') {row : RequestRow}
    (hrow : row ∈ s.db.requests.rows) : row ∈ s'.db.requests.rows := by
  rcases step_requests h with hsame | ⟨_, _, _, -, -, -, hrows⟩
  · rw [hsame]
    exact hrow
  · rw [hrows]
    exact List.mem_append_left _ hrow

end Step

/-! ### The invariant -/

section Invariant

variable {db₀ : Db} {s s' : System} {e : Event}

theorem chargedOnce_init (db₀ : Db) : ChargedOnce db₀ (System.init db₀) where
  requests_minted := requests_minted_init db₀
  ledger_minted := fun entry hentry r hr ↦ List.mem_append_right _
    (List.mem_filterMap.2 ⟨entry, hentry, hr⟩)
  once := fun _ ↦ .inl rfl
  exact := fun _ hentry ↦ .inl hentry
  pending := by simp [System.init]

/-- A request that is neither new nor charged by this step stays as it is in the hands of its
run. -/
theorem pending_step (hs : ChargedOnce db₀ s) (he : e.NamesNoRequest) (h : step s e = some s')
    {row : RequestRow} (hrow : Pending s.db row) : Pending s'.db row := by
  refine ⟨requests_mono h hrow.mem, hrow.chargeable, ?_⟩
  rcases hrow.open_or_keyed with hopen | ⟨entry, hentry, hkey⟩
  · cases step_ledgerStep he h with
    | unnamed hrows hnone =>
      refine .inl fun entry hentry hname ↦ ?_
      rw [hrows] at hentry
      rcases List.mem_append.1 hentry with hentry | hentry
      · exact hopen entry hentry hname
      · rw [hnone entry hentry] at hname
        cases hname
    | live hrows hsome hminted _ _ _ =>
      refine .inl fun entry hentry hname ↦ ?_
      rw [hrows] at hentry
      rcases List.mem_append.1 hentry with hentry | hentry
      · exact hopen entry hentry hname
      · rw [(requestId_of_mem_rows hentry).1, hsome] at hname
        cases hname
        exact hminted (hs.requests_minted row hrow.mem)
    | @reconciled _ charged _ _ _ _ hrows =>
      by_cases hid : charged.id = row.id
      · -- another run, or this one, has just charged the request under its key
        refine .inr ⟨_, by rw [hrows]; exact List.mem_append_right _ List.mem_cons_self, ?_⟩
        rw [← hid]
        rfl
      · refine .inl fun entry hentry hname ↦ ?_
        rw [hrows] at hentry
        rcases List.mem_append.1 hentry with hentry | hentry
        · exact hopen entry hentry hname
        · rw [(requestId_of_mem_rows hentry).1] at hname
          exact hid (Option.some.inj hname)
  · obtain ⟨added, hrows⟩ := step_ledger h
    exact .inr ⟨entry, by rw [hrows]; exact List.mem_append_left _ hentry, hkey⟩

/-- What a reconcile run finds has no ledger row. -/
theorem pending_of_found {opts : ReconcileOptions} {now : ℤ} {db : Db} {row : RequestRow}
    (h : row ∈ findUnsettled opts now db) : Pending db row := by
  have hsorted := List.mem_of_mem_take h
  rw [List.mem_insertionSort] at hsorted
  obtain ⟨hmem, hfound⟩ := List.mem_filter.1 hsorted
  simp only [unsettled, Bool.and_eq_true, List.all_eq_true, bne_iff_ne] at hfound
  exact ⟨hmem, hfound.2, .inl hfound.1.2⟩

theorem Call.ended.orphans {call : Call} (h : call.ended) : call.orphans = [] := by
  cases call <;> first | rfl | cases h

/-- What the calls have in hand after a step they had before, or have just found. -/
theorem step_orphans (h : step s e = some s') {call : Call} (hcall : call ∈ s'.calls)
    {row : RequestRow} (hrow : row ∈ call.orphans) :
    (∃ call ∈ s.calls, row ∈ call.orphans) ∨ Pending s'.db row := by
  obtain ⟨j, hj⟩ := List.getElem?_of_mem hcall
  rcases step_calls h hj with hold | hnew
  · exact .inl ⟨call, List.mem_of_getElem? hold, hrow⟩
  cases hnew with
  | reconciling hdb =>
    rw [hdb]
    exact .inr (pending_of_found hrow)
  | reconciled hold =>
    exact .inl ⟨_, List.mem_of_getElem? hold, List.mem_cons_of_mem _ hrow⟩
  | ended hended =>
    rw [hended.orphans] at hrow
    cases hrow
  | _ => cases hrow

/-- A request that is charged by a step has no charge before it. -/
theorem once_step (hs : ChargedOnce db₀ s) {r : String} (hzero : chargesFor s.db r = 0)
    (hone : chargesFor s'.db r = chargesFor s.db r + 1) :
    chargesFor s'.db r = chargesFor db₀ r ∨ chargesFor db₀ r = 0 ∧ chargesFor s'.db r = 1 := by
  rcases hs.once r with hsame | ⟨-, hcharged⟩
  · exact .inr ⟨by omega, by omega⟩
  · omega

/-- A charge for a stored request without a ledger row keeps the invariant, when it is of what is
owed. -/
theorem chargedOnce_of_charge (hs : ChargedOnce db₀ s)
    (hrequests : ∀ row ∈ s'.db.requests.rows, row.id ∈ s'.minted)
    (hpending : ∀ call ∈ s'.calls, ∀ row ∈ call.orphans, Pending s'.db row)
    (hmint : ∀ id ∈ s.minted, id ∈ s'.minted)
    (hold : ∀ entry ∈ s.db.ledger.rows, entry ∈ db₀.ledger.rows ∨
      ∀ r, entry.entryType = .charge → entry.requestId = some r →
        ∃ row ∈ s'.db.requests.rows, row.id = r ∧ entry.amountUsd = -owed row)
    {charge : ChargeEntry} {current : ℚ} {row : RequestRow}
    (hrows : s'.db.ledger.rows = s.db.ledger.rows ++ charge.rows current)
    (hname : charge.requestId = some row.id) (hrow : row ∈ s'.db.requests.rows)
    (hnone : ∀ entry ∈ s.db.ledger.rows, entry.requestId ≠ some row.id)
    (hamount : toMicros (-charge.amountUsd) = -owed row) : ChargedOnce db₀ s' := by
  refine ⟨hrequests, fun entry hentry r hr ↦ ?_, fun r ↦ ?_, fun entry hentry ↦ ?_, hpending⟩
  · rw [hrows] at hentry
    rcases List.mem_append.1 hentry with hentry | hentry
    · exact hmint _ (hs.ledger_minted entry hentry r hr)
    · rw [(requestId_of_mem_rows hentry).1, hname] at hr
      cases hr
      exact hrequests row hrow
  · have hcount := chargesFor_charge (r := r) hrows
    rw [hname] at hcount
    by_cases hr : r = row.id
    · subst hr
      exact once_step hs (chargesFor_eq_zero hnone) (by rw [hcount, if_pos rfl])
    · rw [if_neg (by simpa using Ne.symm hr), add_zero] at hcount
      rw [hcount]
      exact hs.once r
  · rw [hrows] at hentry
    rcases List.mem_append.1 hentry with hentry | hentry
    · exact hold entry hentry
    · obtain ⟨hrequest, hcharge⟩ := requestId_of_mem_rows hentry
      refine .inr fun r htype hr ↦ ⟨row, hrow, ?_, (hcharge htype).1.trans hamount⟩
      rw [hrequest, hname] at hr
      exact Option.some.inj hr

/-- **What one step preserves.** -/
theorem chargedOnce_step (hs : ChargedOnce db₀ s) (he : e.NamesNoRequest)
    (h : step s e = some s') : ChargedOnce db₀ s' := by
  obtain ⟨hmint, -, hstored⟩ := step_minted h
  have hrequests := requests_minted_step hs.requests_minted h
  have hpending : ∀ call ∈ s'.calls, ∀ row ∈ call.orphans, Pending s'.db row := by
    intro call hcall row hrow
    rcases step_orphans h hcall hrow with ⟨old, hold, hrow⟩ | hfound
    · exact pending_step hs he h (hs.pending old hold row hrow)
    · exact hfound
  have hold_exact : ∀ entry ∈ s.db.ledger.rows, entry ∈ db₀.ledger.rows ∨
      ∀ r, entry.entryType = .charge → entry.requestId = some r →
        ∃ row ∈ s'.db.requests.rows, row.id = r ∧ entry.amountUsd = -owed row := by
    intro entry hentry
    refine (hs.exact entry hentry).imp_right fun hexact r htype hname ↦ ?_
    obtain ⟨row, hrow, hrest⟩ := hexact r htype hname
    exact ⟨row, requests_mono h hrow, hrest⟩
  cases step_ledgerStep he h with
  | @unnamed added hrows hnone =>
    have hcount : ∀ r, chargesFor s'.db r = chargesFor s.db r := by
      intro r
      rw [chargesFor_append hrows, List.countP_eq_zero.2, add_zero]
      intro row hrow
      simp [hnone row hrow]
    refine ⟨hrequests, fun entry hentry r hname ↦ ?_, fun r ↦ ?_, fun entry hentry ↦ ?_, hpending⟩
    · rw [hrows] at hentry
      rcases List.mem_append.1 hentry with hentry | hentry
      · exact hmint _ (hs.ledger_minted entry hentry r hname)
      · rw [hnone entry hentry] at hname
        cases hname
    · rw [hcount r]
      exact hs.once r
    · rw [hrows] at hentry
      rcases List.mem_append.1 hentry with hentry | hentry
      · exact hold_exact entry hentry
      · refine .inr fun r _ hname ↦ ?_
        rw [hnone entry hentry] at hname
        cases hname
  | @live entry current cost outcome requestId hrows hsome hminted hcharge hcost hstored =>
    refine chargedOnce_of_charge hs hrequests hpending hmint hold_exact hrows hsome hstored
      (fun entry hentry hname ↦ hminted (hs.ledger_minted entry hentry _ hname)) ?_
    -- the customer is charged the cost, or zero when its source may not be charged
    rw [toMicros_neg, neg_inj, owed]
    unfold Outcome.customerChargeUsd at hcharge
    by_cases hsource : outcome.chargeable
    · rw [if_pos hsource, hcost] at hcharge
      cases hcharge
      exact (if_pos hsource).symm
    · rw [if_neg hsource] at hcharge
      rw [← Decimal.finite.inj hcharge, toMicros_zero]
      exact (if_neg hsource).symm
  | @reconciled call row current hcall hrow hfresh hrows =>
    have hrow := hs.pending call hcall row hrow
    refine chargedOnce_of_charge hs hrequests hpending hmint hold_exact hrows rfl
      (requests_mono h hrow.mem) ?_ ?_
    · -- the charge went through, so the key was free and nobody had charged the request
      rcases hrow.open_or_keyed with hopen | ⟨entry, hentry, hkey⟩
      · exact hopen
      · exact absurd hkey (hfresh entry hentry)
    · rw [owed, if_pos hrow.chargeable]
      simp [SettleParams.entry, ← ofMicros_neg]

end Invariant

/-! ### Runs -/

/-- A turn of a reconcile run counts its request as settled only when it has just written the
charge for it, of exactly its cost, under a key that was free. -/
def ReportsWhatItWrote (s : System) (e : Event) : Prop :=
  ∀ i fault row orphans report s', e = .reconcileRow i fault →
    s.calls[i]? = some (.reconciling (row :: orphans) report) → step s e = some s' →
      ∃ report', s'.calls[i]? = some (.reconciling orphans report') ∧
        (report'.settled = report.settled ∨ report'.settled = report.settled + 1 ∧
          (∀ entry ∈ s.db.ledger.rows, entry.idempotencyKey ≠ "request:" ++ row.id) ∧
            ∃ charge ∈ s'.db.ledger.rows, charge.entryType = .charge ∧
              charge.idempotencyKey = "request:" ++ row.id ∧ charge.requestId = some row.id ∧
                charge.amountUsd = -row.costUsd)

theorem reportsWhatItWrote (s : System) (e : Event) : ReportsWhatItWrote s e := by
  rintro i fault row orphans report s' rfl hcall h
  simp only [step, hcall, Option.some.injEq] at h
  subst h
  have hlt : i < s.calls.length := (List.getElem?_eq_some_iff.1 hcall).1
  refine ⟨(reconcileRow row fault report s.db).1, ?_, ?_⟩
  · simp only [System.resume]
    rw [List.getElem?_set_self hlt]
  · refine (reconcileRow_cases row fault report s.db).2.imp_right fun hsettled ↦ ?_
    obtain ⟨hcount, hanswer, hdb⟩ := hsettled
    obtain ⟨amountUsd, hfin, hcharged⟩ := settle_eq_true hanswer
    cases hfin
    refine ⟨hcount, hcharged.fresh,
      ((reconcileParams row).entry (ofMicros row.costUsd)).charge.toRow (-row.costUsd), ?_, rfl, rfl,
      rfl, rfl⟩
    simp only [System.resume]
    rw [hdb, hcharged.movement.rows, ChargeEntry.rows]
    refine List.mem_append_right _ ?_
    simp [SettleParams.entry, ← ofMicros_neg]

/-- **The reconciler charges exactly what is owed, once.** From any store, in every run of live
settlements and any number of concurrent reconcile runs: a request gets at most one charge, and
none when it had one; every charge is of the stored cost of its request, or of nothing when its
source may not be charged; and a reconcile run reports as settled only what it has written. The
settlements called directly name no request: in the service only `persistAndSettle` and the
reconciler do. -/
theorem chargedOnce_of_run {db₀ : Db} {s : System} {h : List (System × Event)}
    (hr : Run step (System.init db₀) h s) (hlive : ∀ p ∈ h, p.2.NamesNoRequest) :
    (∀ r, chargesFor s.db r = chargesFor db₀ r ∨
        chargesFor db₀ r = 0 ∧ chargesFor s.db r = 1) ∧
      (∀ entry ∈ s.db.ledger.rows, entry ∈ db₀.ledger.rows ∨
        ∀ r, entry.entryType = .charge → entry.requestId = some r →
          ∃ row ∈ s.db.requests.rows, row.id = r ∧ entry.amountUsd = -owed row) ∧
        ∀ p ∈ h, ReportsWhatItWrote p.1 p.2 := by
  have hs : ChargedOnce db₀ s :=
    Run.invariant_of_forall (P := ChargedOnce db₀) (chargedOnce_init db₀)
      (fun hp hc hs ↦ chargedOnce_step hp hc hs) hr hlive
  exact ⟨hs.once, hs.exact, fun p _ ↦ reportsWhatItWrote p.1 p.2⟩

/-- Two reconcile runs that both find the same request, stored by a dispatch whose intent had been
swept: the first charges it, the second is refused. -/
theorem chargedOnce_of_run_concurrent : ∃ (s : System) (h : List (System × Event)),
    Run step (System.init .empty) h s ∧ (∀ p ∈ h, p.2.NamesNoRequest) ∧
      chargesFor .empty "r1" = 0 ∧ chargesFor s.db "r1" = 1 := by
  obtain ⟨h, s, hr, hcheck⟩ := Run.exists_of_check step (System.init .empty)
    [.credit { apiKeyId := "key", amountUsd := .finite 10, idempotencyKey := "top-up" },
      .openIntent ⟨"key", "k", true, "body", .finite 1, some 0⟩ "i1", .tick 1,
      .sweepExpiredIntents 500, .expireIntent 1,
      .persistAndSettle 0 ⟨"key", .finite 1, some .catalog, "{}", true⟩ "r1", .tick 1,
      .findUnsettled { graceMs := some 0 }, .findUnsettled { graceMs := some 0 },
      .reconcileRow 2 none, .reconcileRow 3 none]
    (fun h s ↦ decide ((∀ p ∈ h, p.2.NamesNoRequest) ∧ chargesFor .empty "r1" = 0 ∧
      chargesFor s.db "r1" ≠ 0)) (by decide +kernel)
  obtain ⟨hlive, hzero, hsome⟩ := of_decide_eq_true hcheck
  refine ⟨s, h, hr, hlive, hzero, ?_⟩
  rcases (chargedOnce_of_run hr hlive).1 "r1" with hsame | ⟨-, hone⟩
  · exact absurd (hsame.trans hzero) hsome
  · exact hone

end ModelConnector
