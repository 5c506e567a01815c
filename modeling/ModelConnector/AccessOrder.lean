import ModelConnector.Connectors.ProviderAccess
import ModelConnector.Foundations.Run

/-!
# Provider access in time

What a forced refresh installs can be replaced by an older read: a refresh that began before it, and
whose rows the database read before it, may come to install them after it. Nothing in the service
keeps the two apart. It does not happen as long as no such rows are waiting when a forced refresh
installs its own. Nothing but an administrator changes a row of the table: a seeding only inserts.
-/

namespace ModelConnector.Access

open Ecma

variable {s t : AccessState} {e : AccessEvent} {id : ℕ} {r : Refresh}

/-! ### What is wanted of the service -/

/-- An event installs rows that were read before a forced refresh began which is completed. -/
def GoesBack (s : AccessState) : AccessEvent → Prop
  | .install id => ∃ r ∈ s.refreshes[id]?, ∃ f ∈ s.refreshes,
    f.forced = true ∧ f.isCompleted = true ∧ r.readBefore f.begunAt = true
  | _ => False

/-- When a forced refresh installs its rows, no refresh has rows waiting that were read before it
began. -/
def NothingOlder (s : AccessState) : AccessEvent → Prop
  | .install id => ∀ f ∈ s.refreshes[id]?, f.forced = true →
    ∀ r ∈ s.refreshes, r.readBefore f.begunAt = false
  | _ => True

/-- An event is not an administrator's change of the table. -/
def AccessEvent.isService : AccessEvent → Bool
  | .administer _ => false
  | _ => true

/-- An event installs rows. -/
def AccessEvent.isInstall : AccessEvent → Bool
  | .install _ => true
  | _ => false

instance : DecidablePred (GoesBack s)
  | .install id => inferInstanceAs (Decidable (∃ r ∈ s.refreshes[id]?, ∃ f ∈ s.refreshes,
    f.forced = true ∧ f.isCompleted = true ∧ r.readBefore f.begunAt = true))
  | .setClock _ | .configure _ | .administer _ | .refresh _ | .query _ | .queryFails _ | .seed _
  | .find _ | .findFails _ | .create _ | .createFails _ _ => instDecidableFalse

instance : DecidablePred (NothingOlder s)
  | .install id => inferInstanceAs (Decidable (∀ f ∈ s.refreshes[id]?, f.forced = true →
    ∀ r ∈ s.refreshes, r.readBefore f.begunAt = false))
  | .setClock _ | .configure _ | .administer _ | .refresh _ | .query _ | .queryFails _ | .seed _
  | .find _ | .findFails _ | .create _ | .createFails _ _ => instDecidableTrue

/-! ### What an event does -/

/-- What an event makes of the refreshes: nothing, one more, or one of them moves on. -/
inductive Moves (s : AccessState) (e : AccessEvent) : List Refresh → Prop
  | same : Moves s e s.refreshes
  | begins (force : Bool) : Moves s e (s.startRefresh force).refreshes
  | reads {id : ℕ} {r : Refresh} : s.refreshes[id]? = some r →
    Moves s e (s.setPhase id r (.read s.table s.moment)).refreshes
  | fails {id : ℕ} {r : Refresh} : s.refreshes[id]? = some r →
    Moves s e (s.setPhase id r .rejected).refreshes
  | installs {id : ℕ} {r : Refresh} : e = .install id → s.refreshes[id]? = some r →
    Moves s e (s.setPhase id r .installed).refreshes

/-- What an event does to the rows, the cached map and the refreshes. -/
structure Effect (s : AccessState) (e : AccessEvent) (t : AccessState) : Prop where
  rows : e.isService = true → ∀ row ∈ s.table, row ∈ t.table
  cache : e.isInstall = false → t.cache = s.cache
  moves : Moves s e t.refreshes

theorem moves_refresh (force : Bool) : Moves s e (s.refresh force).refreshes := by
  unfold AccessState.refresh
  split_ifs
  · exact .same
  · exact .begins force

theorem effect_refresh (force : Bool) : Effect s e (s.refresh force) where
  rows _ row hrow := by
    unfold AccessState.refresh
    split_ifs <;> exact hrow
  cache _ := by
    unfold AccessState.refresh
    split_ifs <;> rfl
  moves := moves_refresh force

theorem effect_nextName (names : List Text) : Effect s e (s.nextName names).1 := by
  cases names with
  | nil => exact effect_refresh true
  | cons name rest => exact ⟨fun _ _ hrow ↦ hrow, fun _ ↦ rfl, .same⟩

theorem effect_proceed {seeding : Seeding} (rest : List Text) :
    Effect s e (s.proceed id seeding rest) :=
  have h : Effect s e (s.nextName rest).1 := effect_nextName rest
  ⟨h.rows, h.cache, h.moves⟩

theorem effect_find {seeding : Seeding} (h : s.find id seeding = some t) : Effect s e t := by
  unfold AccessState.find at h
  split at h
  · split at h
    · obtain rfl := Option.some.inj h
      exact effect_proceed _
    · obtain rfl := Option.some.inj h
      exact ⟨fun _ _ hrow ↦ hrow, fun _ ↦ rfl, .same⟩
  · cases h

/-- The rows that are there stay when a row is inserted, or is not because its name is taken. -/
theorem mem_getD_insert? {row row' : AccessRow} {table : AccessTable} (hrow : row ∈ table) :
    row ∈ (table.insert? row').getD table := by
  cases h : table.insert? row' with
  | none => exact hrow
  | some table' =>
    rw [Option.getD_some, Table.mem_def, (Table.insert?_eq_some_iff.1 h).2]
    exact List.mem_append_left _ hrow

theorem effect_create {seeding : Seeding} {made : Bool} (h : s.create id seeding made = some t) :
    Effect s e t := by
  unfold AccessState.create at h
  split at h
  · rename_i name rest _
    dsimp only at h
    obtain rfl := Option.some.inj h
    generalize htable : (if made then (s.table.insert? (seeding.row name)).getD s.table
      else s.table) = table
    have hproceed : Effect { s with table } e ({ s with table }.proceed id seeding rest) :=
      effect_proceed rest
    refine ⟨fun hservice row hrow ↦ hproceed.rows hservice row ?_, hproceed.cache, ?_⟩
    · change row ∈ table
      rw [← htable]
      split
      · exact mem_getD_insert? hrow
      · exact hrow
    · unfold AccessState.proceed AccessState.nextName
      cases rest with
      | nil => exact moves_refresh true
      | cons name rest => exact .same
  · cases h

/-- **What an event does.** -/
theorem effect_act (h : s.act e = some t) : Effect s e t := by
  cases e with
  | setClock now =>
    obtain rfl := Option.some.inj h
    exact ⟨fun _ _ hrow ↦ hrow, fun _ ↦ rfl, .same⟩
  | configure csv =>
    obtain rfl := Option.some.inj h
    exact ⟨fun _ _ hrow ↦ hrow, fun _ ↦ rfl, .same⟩
  | administer table =>
    obtain rfl := Option.some.inj h
    exact ⟨nofun, fun _ ↦ rfl, .same⟩
  | refresh force =>
    obtain rfl := Option.some.inj h
    exact effect_refresh force
  | query id =>
    obtain ⟨r, hr, h⟩ := Option.bind_eq_some_iff.1 h
    split at h
    · obtain rfl := Option.some.inj h
      exact ⟨fun _ _ hrow ↦ hrow, fun _ ↦ rfl, .reads hr⟩
    · cases h
  | queryFails id =>
    obtain ⟨r, hr, h⟩ := Option.bind_eq_some_iff.1 h
    split at h
    · obtain rfl := Option.some.inj h
      exact ⟨fun _ _ hrow ↦ hrow, fun _ ↦ rfl, .fails hr⟩
    · cases h
  | install id =>
    obtain ⟨r, hr, h⟩ := Option.bind_eq_some_iff.1 h
    unfold AccessState.install at h
    split at h
    · obtain rfl := Option.some.inj h
      exact ⟨fun _ _ hrow ↦ hrow, nofun, .installs rfl hr⟩
    · cases h
  | seed providerNames =>
    obtain rfl := Option.some.inj h
    have hnext : Effect s (.seed providerNames) (s.nextName (providerNames ++
      (parseProviderAccess s.currentConfigCsv).map Prod.fst).eraseDups).1 := effect_nextName _
    exact ⟨hnext.rows, hnext.cache, hnext.moves⟩
  | find id =>
    obtain ⟨seeding, -, h⟩ := Option.bind_eq_some_iff.1 h
    exact effect_find h
  | findFails id =>
    obtain ⟨seeding, -, h⟩ := Option.bind_eq_some_iff.1 h
    split at h
    · obtain rfl := Option.some.inj h
      exact ⟨fun _ _ hrow ↦ hrow, fun _ ↦ rfl, .same⟩
    · cases h
  | create id =>
    obtain ⟨seeding, -, h⟩ := Option.bind_eq_some_iff.1 h
    exact effect_create h
  | createFails id made =>
    obtain ⟨seeding, -, h⟩ := Option.bind_eq_some_iff.1 h
    exact effect_create h

/-! ### The invariants -/

/-- No refresh begins after the present moment, and none waits with rows that are older than it. -/
def Timely (moment : ℕ) (refreshes : List Refresh) : Prop :=
  ∀ r ∈ refreshes, r.begunAt ≤ moment ∧ r.readBefore r.begunAt = false

/-- No rows are waiting that are older than a forced refresh which is completed. -/
def Fresh (refreshes : List Refresh) : Prop :=
  ∀ f ∈ refreshes, f.forced = true → f.isCompleted = true →
    ∀ r ∈ refreshes, r.readBefore f.begunAt = false

variable {moment : ℕ} {refreshes : List Refresh}

theorem Timely.set {phase : RefreshPhase} (hs : Timely moment refreshes)
    (hr : refreshes[id]? = some r)
    (hread : ∀ m ≤ moment, Refresh.readBefore { r with phase } m = false) :
    Timely moment (refreshes.set id { r with phase }) := by
  intro r' hr'
  rcases List.mem_or_eq_of_mem_set hr' with hr' | rfl
  · exact hs r' hr'
  · have hbegun := (hs r (List.mem_of_getElem? hr)).1
    exact ⟨hbegun, hread r.begunAt hbegun⟩

/-- Every event is timely. -/
theorem timely_step (hs : Timely s.moment s.refreshes) (h : s.step e = some t) :
    Timely t.moment t.refreshes := by
  obtain ⟨u, hu, rfl⟩ := Option.map_eq_some_iff.1 h
  have htimely : Timely s.moment u.refreshes := by
    have hmoves := (effect_act hu).moves
    generalize u.refreshes = refreshes at hmoves ⊢
    cases hmoves with
    | same => exact hs
    | begins force =>
      intro r hr
      rcases List.mem_append.1 hr with hr | hr
      · exact hs r hr
      · rw [List.mem_singleton.1 hr]
        exact ⟨le_rfl, rfl⟩
    | reads hr => exact hs.set hr fun m hle ↦ decide_eq_false (Nat.not_lt.2 hle)
    | fails hr => exact hs.set hr fun _ _ ↦ rfl
    | installs _ hr => exact hs.set hr fun _ _ ↦ rfl
  exact fun r hr ↦ ⟨(htimely r hr).1.trans (Nat.le_succ _), (htimely r hr).2⟩

/-- A refresh moves on: it waits with no rows that are older than what has begun, and when it is
forced and completed, then nothing older than it is waiting. -/
theorem Fresh.set {phase : RefreshPhase} (hs : Fresh refreshes) (htimely : Timely moment refreshes)
    (hr : refreshes[id]? = some r)
    (hread : ∀ m ≤ moment, Refresh.readBefore { r with phase } m = false)
    (hcompleted : Refresh.isCompleted { r with phase } = true → r.forced = true →
      ∀ r' ∈ refreshes, r'.readBefore r.begunAt = false) :
    Fresh (refreshes.set id { r with phase }) := by
  intro f hf hforced hdone r' hr'
  have hf' : f.begunAt ≤ moment ∧ ∀ r' ∈ refreshes, r'.readBefore f.begunAt = false := by
    rcases List.mem_or_eq_of_mem_set hf with hf | rfl
    · exact ⟨(htimely f hf).1, hs f hf hforced hdone⟩
    · exact ⟨(htimely r (List.mem_of_getElem? hr)).1, hcompleted hdone hforced⟩
  rcases List.mem_or_eq_of_mem_set hr' with hr' | rfl
  · exact hf'.2 r' hr'
  · exact hread f.begunAt hf'.1

/-- An event leaves nothing older waiting, as long as a forced refresh completes with nothing older
waiting. -/
theorem fresh_step (hs : Fresh s.refreshes) (htimely : Timely s.moment s.refreshes)
    (hc : NothingOlder s e) (h : s.step e = some t) : Fresh t.refreshes := by
  obtain ⟨u, hu, rfl⟩ := Option.map_eq_some_iff.1 h
  have hmoves := (effect_act hu).moves
  change Fresh u.refreshes
  generalize u.refreshes = refreshes at hmoves ⊢
  cases hmoves with
  | same => exact hs
  | begins force =>
    intro f hf hforced hdone r hr
    rcases List.mem_append.1 hf with hf | hf
    · rcases List.mem_append.1 hr with hr | hr
      · exact hs f hf hforced hdone r hr
      · rw [List.mem_singleton.1 hr]
        rfl
    · rw [List.mem_singleton.1 hf] at hdone
      cases hdone
  | reads hr =>
    exact hs.set htimely hr (fun m hle ↦ decide_eq_false (Nat.not_lt.2 hle)) nofun
  | fails hr => exact hs.set htimely hr (fun _ _ ↦ rfl) nofun
  | installs he hr =>
    subst he
    exact hs.set htimely hr (fun _ _ ↦ rfl) fun _ hforced ↦ hc _ hr hforced

/-- In such a state nothing goes back. -/
theorem not_goesBack_of_fresh (hs : Fresh s.refreshes) : ¬ GoesBack s e := by
  cases e with
  | install id =>
    rintro ⟨r, hr, f, hf, hforced, hcompleted, hbefore⟩
    rw [hs f hf hforced hcompleted r (List.mem_of_getElem? hr)] at hbefore
    cases hbefore
  | _ => exact fun h ↦ h

/-! ### Rows that are waiting -/

theorem exists_phase_of_readBefore {m : ℕ} (hread : r.readBefore m = true) :
    ∃ rows readAt, r.phase = .read rows readAt := by
  unfold Refresh.readBefore at hread
  split at hread
  · rename_i rows readAt hphase
    exact ⟨rows, readAt, hphase⟩
  · cases hread

/-- Rows that are waiting can be installed. -/
theorem exists_install (hr : s.refreshes[id]? = some r) {m : ℕ} (hread : r.readBefore m = true) :
    ∃ t, s.step (.install id) = some t := by
  obtain ⟨rows, readAt, hphase⟩ := exists_phase_of_readBefore hread
  have hact : s.act (.install id) = some { s.setPhase id r .installed with
      cache := some (mapOf rows), cachedAt := r.now } := by
    simp only [AccessState.act, hr, Option.bind_some, AccessState.install, hphase]
  exact ⟨_, by rw [AccessState.step, hact, Option.map_some]⟩

/-- What an installation makes of the refreshes. -/
theorem refreshes_of_install (h : s.step (.install id) = some t) : ∃ r,
    s.refreshes[id]? = some r ∧
      t.refreshes = s.refreshes.set id { r with phase := .installed } := by
  obtain ⟨u, hu, rfl⟩ := Option.map_eq_some_iff.1 h
  obtain ⟨r, hr, hinstall⟩ := Option.bind_eq_some_iff.1 hu
  unfold AccessState.install at hinstall
  split at hinstall
  · obtain rfl := Option.some.inj hinstall
    exact ⟨r, hr, rfl⟩
  · cases hinstall

/-- Where something older is waiting when a forced refresh completes, what comes next can be its
installation. -/
theorem exists_goesBack (htimely : Timely s.moment s.refreshes) (hc : ¬ NothingOlder s e)
    (h : s.step e = some t) :
    ∃ id, GoesBack t (.install id) ∧ ∃ u, t.step (.install id) = some u := by
  cases e with
  | install id =>
    unfold NothingOlder at hc
    push Not at hc
    obtain ⟨f, hf, hforced, r, hr, hbefore⟩ := hc
    obtain ⟨f', hf', hrefreshes⟩ := refreshes_of_install h
    obtain rfl : f = f' := Option.some.inj (hf.symm.trans hf')
    obtain ⟨i, hi⟩ := List.getElem?_of_mem hr
    have hbefore' : r.readBefore f.begunAt = true := by simpa using hbefore
    have hne : id ≠ i := by
      rintro rfl
      obtain rfl : r = f := Option.some.inj (hi.symm.trans hf')
      rw [(htimely r hr).2] at hbefore'
      cases hbefore'
    have hlt : id < s.refreshes.length := (List.getElem?_eq_some_iff.1 hf').1
    have hi' : t.refreshes[i]? = some r := by
      rw [hrefreshes, List.getElem?_set_ne hne, hi]
    refine ⟨i, ⟨r, hi', { f with phase := .installed }, ?_, hforced, rfl, hbefore'⟩,
      exists_install hi' hbefore'⟩
    rw [hrefreshes]
    exact List.mem_set hlt _
  | _ => exact absurd trivial hc

/-- **Provider access in time.** Only an administrator changes a row that is there, and only an
installation replaces the cached map. If no forced refresh completes with older rows waiting, then
no rows are ever installed that were read before a completed forced refresh began. If one does, then
the next event can be the installation of such rows. -/
theorem access_in_time {h : List (AccessState × AccessEvent)} (hr : Run AccessState.step {} h s) :
    (∀ p ∈ h, ∀ t, p.1.step p.2 = some t →
      (p.2.isService = true → ∀ row ∈ p.1.table, row ∈ t.table) ∧
      (p.2.isInstall = false → t.cache = p.1.cache)) ∧
    ((∀ p ∈ h, NothingOlder p.1 p.2) → ∀ p ∈ h, ¬ GoesBack p.1 p.2) ∧
    ∀ p ∈ h, ¬ NothingOlder p.1 p.2 → ∃ t id, p.1.step p.2 = some t ∧ GoesBack t (.install id) ∧
      ∃ u, t.step (.install id) = some u := by
  have htimely : ∀ {h' : List (AccessState × AccessEvent)} {s' : AccessState},
      Run AccessState.step {} h' s' → Timely s'.moment s'.refreshes := fun hr' ↦
    Run.invariant (P := fun s ↦ Timely s.moment s.refreshes) (fun r hr ↦ by cases hr)
      (fun hs hstep ↦ timely_step hs hstep) hr'
  refine ⟨fun p _ t hstep ↦ ?_, fun hc p hp ↦ ?_, fun p hp hc ↦ ?_⟩
  · obtain ⟨u, hu, rfl⟩ := Option.map_eq_some_iff.1 hstep
    exact ⟨(effect_act hu).rows, (effect_act hu).cache⟩
  · have hfresh := hr.forall_mem_of_forall
      (P := fun s ↦ Timely s.moment s.refreshes ∧ Fresh s.refreshes) (c := NothingOlder)
      ⟨fun r hr ↦ (by cases hr), fun f hf ↦ (by cases hf)⟩
      (fun hs hc hstep ↦ ⟨timely_step hs.1 hstep, fresh_step hs.2 hs.1 hc hstep⟩) hc p hp
    exact not_goesBack_of_fresh hfresh.2
  · obtain ⟨t, ht⟩ := hr.step_of_mem p hp
    obtain ⟨h', hr', -⟩ := hr.exists_of_mem p hp
    obtain ⟨id, hback, hnext⟩ := exists_goesBack (htimely hr') hc ht
    exact ⟨t, id, ht, hback, hnext⟩

/-! ### A provider that is switched off -/

/-- A table with one provider. -/
def openmodelTable (useEnabled : Bool) : AccessTable :=
  ⟨[{ provider := ascii "openmodel", readEnabled := true, useEnabled }],
    List.pairwise_singleton _ _⟩

/-- The provider is switched off after a refresh has its rows, and the defaults are seeded before it
installs them. -/
def switchedOff : List AccessEvent :=
  [.administer (openmodelTable true), .refresh false, .query 0, .administer (openmodelTable false),
    .seed [], .find 0, .query 1, .install 1, .install 0]

/-- After the forced refresh of the seeding has completed, the rows from before are installed. -/
theorem older_rows_installed : ∃ h s, Run AccessState.step {} h s ∧
    (∃ p ∈ h, GoesBack p.1 p.2) ∧ s.table.rows = (openmodelTable false).rows ∧
    s.getAccess (ascii "openmodel") = { read := true, use := true } := by
  obtain ⟨h, s, hr, hcheck⟩ := Run.exists_of_check AccessState.step {} switchedOff
    (fun h s ↦ h.any (fun p ↦ decide (GoesBack p.1 p.2)) &&
      decide (s.table.rows = (openmodelTable false).rows ∧
        s.getAccess (ascii "openmodel") = { read := true, use := true })) (by decide +kernel)
  obtain ⟨hback, hend⟩ := Bool.and_eq_true_iff.1 hcheck
  obtain ⟨p, hp, hp'⟩ := List.any_eq_true.1 hback
  obtain ⟨hrows, haccess⟩ := of_decide_eq_true hend
  exact ⟨h, s, hr, ⟨p, hp, of_decide_eq_true hp'⟩, hrows, haccess⟩

/-- Nothing goes back when the first refresh is through before the defaults are seeded. -/
theorem access_in_time_switchedOff : ∃ h s, Run AccessState.step {} h s ∧ h.length = 9 ∧
    (∀ p ∈ h, ¬ GoesBack p.1 p.2) ∧
    s.getAccess (ascii "openmodel") = { read := true, use := false } := by
  obtain ⟨h, s, hr, hcheck⟩ := Run.exists_of_check AccessState.step {}
    [.administer (openmodelTable true), .refresh false, .query 0, .install 0,
      .administer (openmodelTable false), .seed [], .find 0, .query 1, .install 1]
    (fun h s ↦ h.all (fun p ↦ decide (NothingOlder p.1 p.2)) && decide (h.length = 9 ∧
      s.getAccess (ascii "openmodel") = { read := true, use := false })) (by decide +kernel)
  obtain ⟨hc, hend⟩ := Bool.and_eq_true_iff.1 hcheck
  obtain ⟨hlength, haccess⟩ := of_decide_eq_true hend
  exact ⟨h, s, hr, hlength, (access_in_time hr).2.1 fun p hp ↦
    of_decide_eq_true (List.all_eq_true.1 hc p hp), haccess⟩

end ModelConnector.Access
