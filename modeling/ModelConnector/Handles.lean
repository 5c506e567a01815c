import ModelConnector.Calls

/-!
# What the calls refer to

A call carries, from one of its transactions to the next, ids of intents together with the api key
it believes they belong to. `RefsAgree` is the invariant that they are right: an id that a call
carries was minted, and a row under that id, if there is one, belongs to the key the call says.
It holds in every run, since a call only gets an id from a row it inserted or read, and a uuid is
never minted twice.
-/

namespace ModelConnector

open Atomic Billing Connectors

/-- The intents a call refers to: the id, and the api key the call works for. -/
def Call.refs : Call → List (String × String)
  | .reclaiming params _ intentId => [(intentId, params.apiKeyId)]
  | .owner intent => [(intent.id, intent.apiKeyId)]
  | .sweeping stale => stale.map fun intent ↦ (intent.id, intent.apiKeyId)
  | _ => []

/-- The references of all calls. -/
def System.refs (s : System) : List (String × String) :=
  s.calls.flatMap Call.refs

/-- The reference names a row of the store. -/
def Names (db : Db) (ref : String × String) : Prop :=
  ∃ row ∈ db.intents.rows, row.id = ref.1 ∧ row.apiKeyId = ref.2

/-- Every id is minted, and a reference says of an intent the api key it belongs to. -/
structure RefsAgree (s : System) : Prop where
  rows_minted : ∀ row ∈ s.db.intents.rows, row.id ∈ s.minted
  refs_minted : ∀ ref ∈ s.refs, ref.1 ∈ s.minted
  agree : ∀ ref ∈ s.refs, ∀ row ∈ s.db.intents.rows, row.id = ref.1 → row.apiKeyId = ref.2

theorem System.mem_refs {s : System} {ref : String × String} :
    ref ∈ s.refs ↔ ∃ call ∈ s.calls, ref ∈ call.refs :=
  List.mem_flatMap

theorem System.mem_refs_of_getElem? {s : System} {i : ℕ} {call : Call} {ref : String × String}
    (h : s.calls[i]? = some call) (href : ref ∈ call.refs) : ref ∈ s.refs :=
  System.mem_refs.2 ⟨call, List.mem_of_getElem? h, href⟩

/-! ### Where a reference comes from -/

theorem Call.ended.refs {call : Call} (h : call.ended) : call.refs = [] := by
  cases call <;> first | rfl | cases h

theorem names_opened {params : OpenIntentParams} {id : String} {now expiresAt : ℤ} {db db' : Db}
    {intent : RequestIntentHandle}
    (h : openIntentInTx params id now expiresAt db = .ok (intent, db')) :
    Names db' (intent.id, intent.apiKeyId) := by
  obtain ⟨hold, holdUsd, -, -, rfl, hopened⟩ := openIntentInTx_ok h
  exact ⟨_, by rw [hopened.rows]; exact List.mem_append_right _ (List.mem_singleton.2 rfl), rfl, rfl⟩

/-- The row a replay is resolved by. -/
theorem resolveReplay_inr {params : OpenIntentParams} {db : Db} {intentId : String}
    (h : resolveReplay params db = .inr intentId) : ∃ row ∈ db.intents.rows, row.id = intentId ∧
      row.apiKeyId = params.apiKeyId ∧ row.intentKey = params.intentKey ∧
        row.payloadFingerprint = params.payloadFingerprint ∧
          (row.state = .released ∨ row.state = .expired) := by
  unfold resolveReplay at h
  cases hfind : db.requestIntentFindUnique params.apiKeyId params.intentKey with
  | none => simp [hfind] at h
  | some existing =>
    have hkey := List.find?_some hfind
    simp only [Bool.and_eq_true, beq_iff_eq] at hkey
    simp only [hfind] at h
    split at h
    · cases h
    · rename_i hfingerprint
      have hprint : existing.payloadFingerprint = params.payloadFingerprint := by
        simpa using hfingerprint
      split at h
      · split at h <;> cases h
      · cases h
      · rename_i hstate
        cases h
        exact ⟨existing, List.mem_of_find?_eq_some hfind, rfl, hkey.1, hkey.2, hprint, .inl hstate⟩
      · rename_i hstate
        cases h
        exact ⟨existing, List.mem_of_find?_eq_some hfind, rfl, hkey.1, hkey.2, hprint, .inr hstate⟩

/-- The rows a sweep goes through. -/
theorem mem_sweepExpiredIntents {limit now : ℤ} {db : Db} {intent : RequestIntentHandle}
    (h : intent ∈ sweepExpiredIntents limit now db) :
    ∃ row ∈ db.intents.rows, row.state = .held ∧ intent = row.handle := by
  obtain ⟨row, hrow, rfl⟩ := List.mem_map.1 h
  have hsorted := List.mem_of_mem_take hrow
  rw [List.mem_insertionSort] at hsorted
  obtain ⟨hmem, hstale⟩ := List.mem_filter.1 hsorted
  simp only [Bool.and_eq_true, beq_iff_eq] at hstale
  exact ⟨row, hmem, hstale.1, rfl⟩

/-- A reference after a step is one from before, or names a row of the store. -/
theorem step_refs {s s' : System} {e : Event} (h : step s e = some s') {ref : String × String}
    (href : ref ∈ s'.refs) : ref ∈ s.refs ∨ Names s'.db ref := by
  obtain ⟨call, hmem, href⟩ := System.mem_refs.1 href
  obtain ⟨j, hj⟩ := List.getElem?_of_mem hmem
  rcases step_calls h hj with hold | hnew
  · exact .inl (System.mem_refs_of_getElem? hold href)
  cases hnew with
  | opened _ _ hopen =>
    obtain rfl := List.mem_singleton.1 href
    exact .inr (names_opened hopen)
  | resolving _ => cases href
  | reclaiming hresolve hdb =>
    obtain rfl := List.mem_singleton.1 href
    obtain ⟨row, hrow, hid, hkey, -⟩ := resolveReplay_inr hresolve
    exact .inr ⟨row, hdb ▸ hrow, hid, hkey⟩
  | reclaimed _ hcall _ => exact .inl (System.mem_refs_of_getElem? hcall href)
  | sweeping hdb =>
    obtain ⟨intent, hintent, rfl⟩ := List.mem_map.1 href
    obtain ⟨row, hrow, -, rfl⟩ := mem_sweepExpiredIntents hintent
    exact .inr ⟨row, hdb ▸ hrow, rfl, rfl⟩
  | swept hcall => exact .inl (System.mem_refs_of_getElem? hcall (List.mem_cons_of_mem _ href))
  | reconciling _ => cases href
  | reconciled _ => cases href
  | ended hended =>
    rw [hended.refs] at href
    cases href

/-! ### The invariant -/

/-- A row after a step has the id and the key of a row from before, which is still completed if it
was, or was just opened. -/
theorem step_rows {s s' : System} {e : Event} (h : step s e = some s') {row : IntentRow}
    (hrow : row ∈ s'.db.intents.rows) :
    (∃ a ∈ s.db.intents.rows, a.id = row.id ∧ a.apiKeyId = row.apiKeyId ∧
        (a.state = .completed → row.state = .completed)) ∨
      ∃ params, e = .openIntent params row.id ∧ row.id ∉ s.minted := by
  obtain ⟨db₁, db₂, hrequest, hintent, hmoney⟩ := step_phases h
  rw [hmoney.frame.2.1] at hrow
  rw [← hrequest.frame.2.2]
  -- the guarded updates pass completed rows by
  have hupdate : ∀ {id states data}, row ∈ (db₁.updateIntents id states data).intents.rows →
      IntentState.completed ∉ states → ∃ a ∈ db₁.intents.rows, a.id = row.id ∧
        a.apiKeyId = row.apiKeyId ∧ (a.state = .completed → row.state = .completed) := by
    intro id states data hmem hstates
    obtain ⟨a, ha, rfl⟩ := List.mem_map.1 hmem
    refine ⟨a, ha, ?_⟩
    split
    · rename_i hmatch
      exact ⟨rfl, rfl, fun hstate ↦
        absurd (hstate ▸ (IntentRow.matches_iff.1 hmatch).2) hstates⟩
    · exact ⟨rfl, rfl, fun hstate ↦ hstate⟩
  cases hintent with
  | idle => exact .inl ⟨row, hrow, rfl, rfl, fun hstate ↦ hstate⟩
  | opened he hid hopened =>
    rw [hopened.rows] at hrow
    rcases List.mem_append.1 hrow with hrow | hrow
    · exact .inl ⟨row, hrow, rfl, rfl, fun hstate ↦ hstate⟩
    · obtain rfl := List.mem_singleton.1 hrow
      exact .inr ⟨_, he, hid⟩
  | reclaimed _ _ h =>
    rw [h.reserved.intents] at hrow
    exact .inl (hupdate hrow (by simp))
  | closed _ _ h =>
    rw [h.released.intents] at hrow
    exact .inl (hupdate hrow (by simp))
  | purged _ => exact .inl ⟨row, (List.mem_filter.1 hrow).1, rfl, rfl, fun hstate ↦ hstate⟩

/-- The ids of the requests stay minted. -/
theorem requests_minted_step {s s' : System} {e : Event}
    (hs : ∀ row ∈ s.db.requests.rows, row.id ∈ s.minted) (h : step s e = some s') :
    ∀ row ∈ s'.db.requests.rows, row.id ∈ s'.minted := by
  obtain ⟨hmint, -, hpersist⟩ := step_minted h
  intro row hrow
  rcases step_requests h with hsame | ⟨outcome, requestId, cost, he, -, -, hrows⟩
  · exact hmint _ (hs row (hsame ▸ hrow))
  · rw [hrows] at hrow
    rcases List.mem_append.1 hrow with hrow | hrow
    · exact hmint _ (hs row hrow)
    · rw [List.mem_singleton.1 hrow]
      exact hpersist _ _ he

theorem requests_minted_init (db : Db) :
    ∀ row ∈ (System.init db).db.requests.rows, row.id ∈ (System.init db).minted :=
  fun row hrow ↦ List.mem_append_left _ (List.mem_append_right _ (List.mem_map.2 ⟨row, hrow, rfl⟩))

theorem refsAgree_init (db : Db) : RefsAgree (System.init db) := by
  refine ⟨fun row hrow ↦ ?_, by simp [System.refs, System.init], by simp [System.refs, System.init]⟩
  exact List.mem_append_left _ (List.mem_append_left _ (List.mem_map.2 ⟨row, hrow, rfl⟩))

theorem refsAgree_step {s s' : System} {e : Event} (hs : RefsAgree s) (h : step s e = some s') :
    RefsAgree s' := by
  obtain ⟨hmint, hopen, -⟩ := step_minted h
  have hrows : ∀ row ∈ s'.db.intents.rows, row.id ∈ s'.minted := by
    intro row hrow
    rcases step_rows h hrow with ⟨a, ha, hid, -⟩ | ⟨params, he, -⟩
    · rw [← hid]
      exact hmint _ (hs.rows_minted a ha)
    · exact hopen params _ he
  refine ⟨hrows, fun ref href ↦ ?_, fun ref href row hrow hid ↦ ?_⟩
  · rcases step_refs h href with href | ⟨row, hrow, hid, -⟩
    · exact hmint _ (hs.refs_minted ref href)
    · rw [← hid]
      exact hrows row hrow
  · rcases step_refs h href with href | ⟨named, hnamed, hid', hkey⟩
    · rcases step_rows h hrow with ⟨a, ha, haid, hakey, -⟩ | ⟨params, -, hfresh⟩
      · rw [← hakey]
        exact hs.agree ref href a ha (haid.trans hid)
      · rw [hid] at hfresh
        exact absurd (hs.refs_minted ref href) hfresh
    · rw [intent_eq_of_id hrow hnamed (hid.trans hid'.symm)]
      exact hkey

end ModelConnector
