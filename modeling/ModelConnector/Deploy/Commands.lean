import ModelConnector.Foundations.Run
import ModelConnector.Deploy.Custody

/-!
# Commands, one after the other

What `check`, `deploy` and `recover` leave, from any host whose journal says what is so, and what
therefore holds after any number of them. A command that refuses before it writes its journal
leaves the host as it was, but for a checkout that is staged and not in use.
-/

namespace ModelConnector.Deploy

variable {revisionLabel : String → String} {state : Journal} {host host' : Host} {deal : Journal}
  {revision credential ident : String} {inode : ℕ}

/-- There is no journal, or it says what is so. -/
structure Sound (revisionLabel : String → String) (host : Host) : Prop where
  journal : host.disk = none ∧ host.unrecorded = [] ∨ ∃ deal, Left revisionLabel host deal
  written : ∀ data ∈ host.written, ∃ state : Journal, data = state.toJson ∧ state.Valid
  current_pos : 0 < host.current.inode

/-- At most checkouts have been staged, and what is in memory has changed. -/
structure Before (host host' : Host) : Prop where
  disk : host'.disk = host.disk
  docker : host'.docker = host.docker
  current : host'.current = host.current
  backups : ∀ ident checkout, host.backups ident = some checkout →
    host'.backups ident = some checkout
  unrecorded : host'.unrecorded = host.unrecorded
  written : host'.written = host.written
  effects : host'.effects = host.effects

theorem Before.refl (host : Host) : Before host host :=
  ⟨rfl, rfl, rfl, fun _ _ ↦ id, rfl, rfl, rfl⟩

theorem Before.memory (h : Before host host') (memory : Option Journal) :
    Before host { host' with memory := memory } :=
  ⟨h.disk, h.docker, h.current, h.backups, h.unrecorded, h.written, h.effects⟩

theorem before_stage {checkout : Checkout} (h : host.backups ident = none) :
    Before host (host.stage ident checkout) where
  disk := rfl
  docker := rfl
  current := rfl
  backups ident' checkout' hbackup := by
    have hne : ident' ≠ ident := by
      rintro rfl
      rw [h] at hbackup
      cases hbackup
    exact (Function.update_of_ne hne ..).trans hbackup
  unrecorded := rfl
  written := rfl
  effects := rfl

theorem Before.truthful (h : Before host host') (htruth : Truthful revisionLabel state host) :
    Truthful revisionLabel state host' := by
  have hold (hold : OldInPlace state host) : OldInPlace state host' :=
    ⟨h.current.trans hold.1, h.backups _ _ hold.2⟩
  have hnew (hnew : NewInPlace state host) : NewInPlace state host' :=
    ⟨h.current.trans hnew.1, h.backups _ _ hnew.2⟩
  refine ⟨⟨htruth.kept.valid, htruth.kept.label, htruth.kept.inode_ne,
    htruth.kept.custody.imp hold hnew⟩, ?_, fun hp hc ↦ ?_, fun hp hr ↦ ?_⟩
  · rw [h.docker]
    exact htruth.untouched
  · obtain ⟨hcheckout, hcontainer⟩ := htruth.committed hp hc
    exact ⟨hnew hcheckout, by rw [h.docker]; exact hcontainer⟩
  · obtain ⟨hcheckout, hlatest, hcontainer⟩ := htruth.rolledBack hp hr
    exact ⟨hold hcheckout, by rw [h.docker]; exact hlatest, by rw [h.docker]; exact hcontainer⟩

theorem Before.left (h : Before host host') (hleft : Left revisionLabel host deal) :
    Left revisionLabel host' deal where
  disk := by
    obtain ⟨state, hdisk, hdeal, htruth⟩ := hleft.disk
    exact ⟨state, h.disk.trans hdisk, hdeal, h.truthful htruth⟩
  recorded := by
    rw [h.unrecorded, h.disk]
    exact hleft.recorded
  written := by
    rw [h.written]
    exact hleft.written

theorem Before.sound (h : Before host host') (hsound : Sound revisionLabel host) :
    Sound revisionLabel host' where
  journal := hsound.journal.imp (fun hnone ↦ ⟨h.disk.trans hnone.1, h.unrecorded.trans hnone.2⟩)
    fun ⟨deal, hleft⟩ ↦ ⟨deal, h.left hleft⟩
  written := by
    rw [h.written]
    exact hsound.written
  current_pos := by
    rw [h.current]
    exact hsound.current_pos

theorem Left.sound (h : Left revisionLabel host deal) : Sound revisionLabel host where
  journal := .inr ⟨deal, h⟩
  written := h.written
  current_pos := by
    obtain ⟨state, -, -, htruth⟩ := h.disk
    rcases htruth.kept.custody with hold | hnew
    · rw [hold.1]
      exact htruth.kept.valid.old_inode
    · rw [hnew.1]
      exact htruth.kept.valid.new_inode

/-! ### Before the journal is written -/

/-- No transaction is under way. -/
def Clear (host : Host) : Prop :=
  ∀ data, host.disk = some data → ∃ prior, load data = .ok prior ∧ prior.pending = false ∧
    prior.phase.settled = true

/-- A healthy service of the checkout is installed. -/
structure Baseline (revisionLabel : String → String) (host : Host) : Prop where
  revision : isSha host.current.revision = true
  image : isDigest host.docker.container.image = true
  container : host.docker.container = ⟨host.docker.container.image, true, true, true⟩
  label : revisionLabel host.docker.container.image = host.current.revision

theorem loadJournal_leads :
    Leads loadJournal host (fun prior host' ↦ host' = host ∧
      ∀ data, host.disk = some data → ∃ state, load data = .ok state ∧ prior = some state)
      (fun _ host' ↦ host' = host) (· = host) := by
  refine .read ?_
  cases host.disk with
  | none => exact .pure ⟨rfl, fun data hdata ↦ by cases hdata⟩
  | some data =>
    refine .observe (fun prior hload ↦ ?_) (fun _ ↦ rfl) rfl
    cases hstate : load data with
    | error e =>
      rw [hstate] at hload
      cases hload
    | ok state =>
      rw [hstate] at hload
      cases hload
      exact ⟨rfl, fun data' hdata' ↦ by cases hdata'; exact ⟨state, hstate, rfl⟩⟩

theorem head_eq_ok {checkout : Checkout} {value : String} (h : head checkout = .ok value) :
    checkout.revision = value ∧ isSha value = true := by
  unfold head at h
  split_ifs at h with hsha
  cases h
  exact ⟨rfl, hsha⟩

theorem baseline_eq_ok {docker : Docker} {image : String}
    (h : baseline revisionLabel revision docker = .ok image) :
    docker.container = ⟨image, true, true, true⟩ ∧ isDigest image = true ∧
      revisionLabel image = revision := by
  unfold baseline at h
  split_ifs at h with howned hhealthy hlabel
  cases h
  refine ⟨?_, howned.1, not_ne_iff.1 hlabel⟩
  obtain ⟨tags, image, running, healthy, owned⟩ := docker
  obtain ⟨hrunning, hhealthy⟩ : running = true ∧ healthy = true := hhealthy
  obtain rfl : owned = true := howned.2
  rw [hrunning, hhealthy]

theorem preflight_leads :
    Leads (preflight revisionLabel revision) host
      (fun found host' ↦ host' = host ∧ Clear host ∧ Baseline revisionLabel host ∧
        found = (host.current.revision, host.docker.container.image))
      (fun _ host' ↦ host' = host) (· = host) := by
  refine .bind (.safe ?_ (fun _ ↦ rfl) rfl)
  refine .seq loadJournal_leads ?_ (fun _ _ ↦ id) fun _ ↦ id
  rintro prior host₁ ⟨heq, hprior⟩
  subst host₁
  refine .bind (.require (fun hsettled ↦ ?_) fun _ ↦ rfl)
  have hclear : Clear host := by
    intro data hdata
    obtain ⟨state, hload, rfl⟩ := hprior data hdata
    simpa [hload] using hsettled
  refine .bind (.safe ?_ (fun _ ↦ rfl) rfl)
  refine .bind (.observe (fun old_sha hhead ↦ ?_) (fun _ ↦ rfl) rfl)
  refine .bind (.require (fun _ ↦ ?_) fun _ ↦ rfl)
  refine .bind (.observe (fun image himage ↦ ?_) (fun _ ↦ rfl) rfl)
  refine .bind (.observe (fun latest _ ↦ ?_) (fun _ ↦ rfl) rfl)
  refine .bind (.require (fun _ ↦ ?_) fun _ ↦ rfl)
  obtain ⟨rfl, hsha⟩ := head_eq_ok hhead
  obtain ⟨hcontainer, hdigest, hlabel⟩ := baseline_eq_ok himage
  have hrun : host.docker.container.image = image := by rw [hcontainer]
  subst hrun
  exact .pure ⟨rfl, hclear, ⟨hsha, hdigest, hcontainer, hlabel⟩, rfl⟩

/-- `check` leaves the host as it was. -/
theorem check_leads :
    Leads (check revisionLabel revision) host (fun _ host' ↦ host' = host ∧ Clear host)
      (fun _ host' ↦ host' = host) (· = host) := by
  refine .bind (.require (fun _ ↦ ?_) fun _ ↦ rfl)
  refine .seq preflight_leads ?_ (fun _ _ ↦ id) fun _ ↦ id
  rintro _ host₁ ⟨heq, hclear, -, -⟩
  exact .pure ⟨heq, hclear⟩

theorem stageCheckout_leads (hfresh : host.backups ident = none) :
    Leads (stageCheckout revision ident inode) host
      (fun _ host' ↦ host' = host.stage ident ⟨inode, revision⟩)
      (fun _ host' ↦ Before host host') (Before host ·) := by
  have hstaged : Before host (host.stage ident ⟨inode, revision⟩) := before_stage hfresh
  refine .bind (.attempt ?_ (fun _ ↦ ⟨hstaged, .refl host⟩) ⟨hstaged, .refl host⟩)
  refine .bind (.safe ?_ (fun _ ↦ hstaged) hstaged)
  refine .bind (.observe (fun staged _ ↦ ?_) (fun _ ↦ hstaged) hstaged)
  refine .bind (.require (fun _ ↦ ?_) fun _ ↦ hstaged)
  exact .safe rfl (fun _ ↦ hstaged) hstaged

/-! ### After the journal is written -/

/-- The journal a `deploy` begins with. -/
def startedJournal (host : Host) (revision ident : String) (inode : ℕ) : Journal :=
  ⟨ident, host.current.revision, revision, host.docker.container.image, host.current.inode, inode,
    false, .buildIntent, none⟩

/-- An action that is pending is a transaction under way. -/
theorem Clear.not_pending (h : Clear host) (hvalid : state.Valid)
    (hdisk : host.disk = some state.toJson) : ¬state.pending = true := by
  obtain ⟨prior, hprior, hnot, -⟩ := h _ hdisk
  rw [load_toJson hvalid, Except.ok.injEq] at hprior
  rw [hprior, hnot]
  decide

/-- With no action pending on disk, the end of every action is recorded. -/
theorem Sound.unrecorded_eq_nil (h : Sound revisionLabel host) (hclear : Clear host) :
    host.unrecorded = [] := by
  rcases h.journal with ⟨-, hnone⟩ | ⟨deal, hleft⟩
  · exact hnone
  · refine List.eq_nil_iff_forall_not_mem.2 fun name hname ↦ ?_
    obtain ⟨state, hdisk, hpending⟩ := hleft.recorded name hname
    obtain ⟨state', hdisk', -, htruth⟩ := hleft.disk
    refine hclear.not_pending htruth.kept.valid hdisk' ?_
    rw [hdisk', Option.some.injEq] at hdisk
    rw [toJson_injective hdisk, Journal.pending, hpending]
    rfl

/-- Where a `deploy` may leave the host when it does not return. -/
def Interrupted (revisionLabel : String → String) (revision ident : String) (inode : ℕ)
    (host host' : Host) : Prop :=
  Before host host' ∨ Clear host ∧ Baseline revisionLabel host ∧
    Left revisionLabel host' (startedJournal host revision ident inode)

/-- The journal `deploy` begins with says what is so. -/
theorem Before.started (h : Before host host') (hbase : Baseline revisionLabel host)
    (hident : isIdent ident = true) (hrevision : isSha revision = true)
    (hcurrent : 0 < host.current.inode) (hpos : 0 < inode) (hne : inode ≠ host.current.inode)
    (hbackup : host'.backups ident = some ⟨inode, revision⟩) :
    Truthful revisionLabel (startedJournal host revision ident inode) host' := by
  refine truthful_of_unsettled ⟨⟨hident, hbase.revision, hrevision, hbase.image, hcurrent, hpos⟩,
    hbase.label, hne.symm, .inl ⟨h.current, hbackup⟩⟩ rfl fun _ ↦ ?_
  rw [h.docker]
  exact hbase.container

variable (revision credential) in
/-- `deploy` commits; or it leaves the host as it was, with no journal of its own, or with a journal
of its own that says what is so. -/
theorem deploy_leads (hsound : Sound revisionLabel host) (hident : isIdent ident = true)
    (hfresh : host.backups ident = none) (hpos : 0 < inode) (hne : inode ≠ host.current.inode) :
    Leads (deploy revisionLabel revision credential ident inode) host
      (fun _ host' ↦ Clear host ∧ Baseline revisionLabel host ∧
        Committed revisionLabel (startedJournal host revision ident inode) host')
      (fun _ host' ↦ Interrupted revisionLabel revision ident inode host host')
      (Interrupted revisionLabel revision ident inode host ·) := by
  refine .bind (.require (fun hargs ↦ ?_) fun _ ↦ .inl (.refl host))
  have hrevision : isSha revision = true := (Bool.and_eq_true_iff.1 hargs).1
  refine .seq preflight_leads ?_ (fun _ host' heq ↦ .inl (heq ▸ .refl host))
    fun host' heq ↦ .inl (heq ▸ .refl host)
  rintro _ host₁ ⟨heq, hclear, hbase, rfl⟩
  subst host₁
  refine .seq (stageCheckout_leads hfresh) ?_ (fun _ _ ↦ .inl) fun _ ↦ .inl
  rintro - host₁ rfl
  have hstaged : Before host (host.stage ident ⟨inode, revision⟩) := before_stage hfresh
  refine .bind (.observe (fun old_inode hinode ↦ ?_) (fun _ ↦ .inl hstaged) (.inl hstaged))
  obtain rfl : host.current.inode = old_inode := Except.ok.inj hinode
  refine .bind (.setState (.bind ?_))
  -- the first write of the journal
  have hset : Before host { host.stage ident ⟨inode, revision⟩ with
      memory := some (startedJournal host revision ident inode) } := hstaged.memory _
  have htruth := hset.started hbase hident hrevision hsound.current_pos hpos hne
    (Function.update_self ..)
  have hnone : host.unrecorded = [] := hsound.unrecorded_eq_nil hclear
  have hready : Ready revisionLabel (startedJournal host revision ident inode)
      (Host.replace { host.stage ident ⟨inode, revision⟩ with
        memory := some (startedJournal host revision ident inode) }
          (startedJournal host revision ident inode)) := by
    have hunrecorded : (Host.replace { host.stage ident ⟨inode, revision⟩ with
        memory := some (startedJournal host revision ident inode) }
          (startedJournal host revision ident inode)).unrecorded = [] := by
      show List.filter _ host.unrecorded = []
      rw [hnone]
      rfl
    refine ⟨⟨⟨_, rfl, rfl, htruth.of_host rfl rfl rfl⟩, ?_, ?_⟩, rfl, hunrecorded,
      htruth.kept.of_checkouts rfl rfl, htruth.untouched rfl⟩
    · rw [hunrecorded]
      simp
    · intro data hdata
      rcases List.mem_cons.1 hdata with rfl | hdata
      · exact ⟨_, rfl, htruth.kept.valid⟩
      · exact hsound.written data hdata
  refine .bind (.getState rfl (.bind (.setState (.attempt ?_
    (fun _ ↦ ⟨.inr ⟨hclear, hbase, hready.left⟩, .inl hset⟩)
    ⟨.inr ⟨hclear, hbase, hready.left⟩, .inl hset⟩))))
  have hold : OldInPlace (startedJournal host revision ident inode)
      (Host.replace { host.stage ident ⟨inode, revision⟩ with
        memory := some (startedJournal host revision ident inode) }
          (startedJournal host revision ident inode)) := ⟨rfl, Function.update_self ..⟩
  refine .seq (.handle ((hready.deployActions rfl rfl hold rfl rfl).mono (fun _ _ ↦ id)
    (fun e host' hheld ↦ hheld.deployFailed.mono (fun _ _ ↦ False.elim) (fun _ _ ↦ id)
      fun _ ↦ id) fun _ ↦ id)) ?_ (fun _ _ hleft ↦ .inr ⟨hclear, hbase, hleft⟩)
    fun _ hleft ↦ .inr ⟨hclear, hbase, hleft⟩
  intro _ host' hcommitted
  exact .pure ⟨hclear, hbase, hcommitted⟩

/-- `recover` up to its rollback. -/
theorem recover_of_rollback {Q : Unit → Host → Prop} {R : Exc → Host → Prop} {K : Host → Prop}
    (hvalid : state.Valid) (hdisk : host.disk = some state.toJson)
    (h : state.id = ident → state.phase ≠ .rolledBack →
      Leads (rollback revisionLabel) { host with memory := some state } Q R K)
    (hR : ∀ e host', Before host host' → R e host') (hK : ∀ host', Before host host' → K host') :
    Leads (recover revisionLabel ident) host Q R K := by
  have hsame : Before host host := .refl host
  refine .bind (.safe ?_ (fun e ↦ hR e _ hsame) (hK _ hsame))
  refine .seq loadJournal_leads ?_ (fun e _ heq ↦ hR e _ (heq ▸ hsame)) fun _ heq ↦
    hK _ (heq ▸ hsame)
  rintro prior host₁ ⟨heq, hprior⟩
  subst host₁
  obtain ⟨state', hload, rfl⟩ := hprior _ hdisk
  rw [load_toJson hvalid, Except.ok.injEq] at hload
  subst hload
  refine .bind (.setState (.bind (.require (fun hguard ↦ ?_) fun _ ↦ hR _ _ (hsame.memory _))))
  simp only [Option.any_some, Bool.and_eq_true, decide_eq_true_eq, ne_eq] at hguard
  exact h hguard.1 hguard.2

/-- `recover` rolls the transaction on disk back, or leaves what it was about. -/
theorem recover_leads (hleft : Left revisionLabel host deal) (hdisk : host.disk = some state.toJson)
    (hp : state.pending = false) :
    Leads (recover revisionLabel ident) host
      (fun _ host' ↦ state.id = ident ∧ RolledBack revisionLabel deal host')
      (fun _ host' ↦ Left revisionLabel host' deal)
      (Left revisionLabel · deal) := by
  obtain ⟨state', hdisk', rfl, htruth⟩ := hleft.disk
  rw [hdisk, Option.some.injEq] at hdisk'
  obtain rfl : state = state' := toJson_injective hdisk'
  refine recover_of_rollback htruth.kept.valid hdisk (fun hid hphase ↦ ?_)
    (fun e host' hbefore ↦ hbefore.left hleft) fun host' hbefore ↦ hbefore.left hleft
  have hnone : host.unrecorded = [] := by
    refine List.eq_nil_iff_forall_not_mem.2 fun name hname ↦ ?_
    obtain ⟨state', hdisk', hpending⟩ := hleft.recorded name hname
    rw [hdisk, Option.some.injEq] at hdisk'
    rw [toJson_injective hdisk', Journal.pending, hpending] at hp
    cases hp
  have hready : Ready revisionLabel state { host with memory := some state } :=
    ⟨hleft.of_host rfl rfl rfl rfl rfl rfl, rfl, hnone, htruth.kept.of_checkouts rfl rfl,
      htruth.untouched hp⟩
  exact hready.held.rollback.mono (fun _ _ hq ↦ ⟨hid, hq⟩) (fun _ _ hr ↦ hr.left) fun _ ↦ id

/-! ### While an action is pending -/

/-- With an action pending on disk, `recover` does nothing. -/
theorem recover_pending (hvalid : state.Valid) (hdisk : host.disk = some state.toJson)
    (hp : state.pending = true) :
    Leads (recover revisionLabel ident) host (fun _ _ ↦ False) (fun _ host' ↦ Before host host')
      (Before host ·) := by
  refine recover_of_rollback hvalid hdisk (fun _ _ ↦ ?_) (fun _ _ ↦ id) fun _ ↦ id
  refine .bind (.getState rfl (.bind (.require (fun hguard ↦ ?_) fun _ ↦
    (Before.refl host).memory _)))
  rw [hp] at hguard
  cases hguard

/-- Neither does `check`. -/
theorem check_pending (hvalid : state.Valid) (hdisk : host.disk = some state.toJson)
    (hp : state.pending = true) :
    Leads (check revisionLabel revision) host (fun _ _ ↦ False) (fun _ host' ↦ Before host host')
      (Before host ·) := by
  refine check_leads.mono (fun _ host' hq ↦ ?_) (fun _ host' heq ↦ heq ▸ .refl host)
    fun host' heq ↦ heq ▸ .refl host
  exact hq.2.not_pending hvalid hdisk hp

/-- Nor does `deploy`. -/
theorem deploy_pending (hvalid : state.Valid) (hdisk : host.disk = some state.toJson)
    (hp : state.pending = true) :
    Leads (deploy revisionLabel revision credential ident inode) host (fun _ _ ↦ False)
      (fun _ host' ↦ Before host host') (Before host ·) := by
  refine .bind (.require (fun _ ↦ ?_) fun _ ↦ .refl host)
  refine .seq preflight_leads ?_ (fun _ host' heq ↦ heq ▸ .refl host) fun host' heq ↦ heq ▸ .refl host
  rintro _ host₁ ⟨-, hclear, -, -⟩
  exact absurd hp (hclear.not_pending hvalid hdisk)

/-- Without a journal there is nothing to recover. -/
theorem recover_none (hdisk : host.disk = none) :
    Leads (recover revisionLabel ident) host (fun _ _ ↦ False) (fun _ host' ↦ Before host host')
      (Before host ·) := by
  have hsame : Before host host := .refl host
  refine .bind (.safe ?_ (fun _ ↦ hsame) hsame)
  refine .bind (.read ?_)
  rw [hdisk]
  exact .pure (.bind (.setState (.bind (.require (fun hnot ↦ by cases hnot) fun _ ↦
    hsame.memory _))))

/-! ### Runs -/

/-- What a program leaves of a host, it leaves of one with nothing in memory. -/
theorem runCommand_of_leads {α : Type} {x : Tx α} {P : Host → Prop}
    (h : Leads x { host with memory := none } (fun _ ↦ P) (fun _ ↦ P) P) (turns : Turns) :
    P (runCommand x host turns).2 :=
  (h turns).snd

/-- A command that can not return is refused or killed. -/
theorem runCommand_ne_returned {α : Type} {x : Tx α} {R : Exc → Host → Prop} {K : Host → Prop}
    (h : Leads x { host with memory := none } (fun _ _ ↦ False) R K) (turns : Turns) (a : α) :
    (runCommand x host turns).1 ≠ .returned a := by
  intro hreturned
  exact (h turns).of_returned (Prod.ext hreturned rfl)

/-- Every command leaves a journal that says what is so. -/
theorem Sound.step {e : DeployEvent} (h : Sound revisionLabel host)
    (hs : deployStep revisionLabel host e = some host') : Sound revisionLabel host' := by
  have hnone : Before host { host with memory := none } := (Before.refl host).memory none
  have hsound : Sound revisionLabel { host with memory := none } := hnone.sound h
  cases e with
  | check revision turns =>
    cases hs
    exact runCommand_of_leads (check_leads.mono (fun _ _ hq ↦ hq.1 ▸ hsound)
      (fun _ _ heq ↦ heq ▸ hsound) fun _ heq ↦ heq ▸ hsound) turns
  | deploy revision credential ident inode turns =>
    simp only [deployStep] at hs
    split_ifs at hs with hguard
    cases hs
    obtain ⟨hident, hfresh, hpos, hne⟩ := hguard
    have hinterrupted (host' : Host)
        (hi : Interrupted revisionLabel revision ident inode { host with memory := none } host') :
        Sound revisionLabel host' :=
      hi.elim (fun hbefore ↦ hbefore.sound hsound) fun hleft ↦ hleft.2.2.sound
    exact runCommand_of_leads ((deploy_leads revision credential hsound hident hfresh hpos hne).mono
      (fun _ _ hq ↦ hq.2.2.1.sound) (fun _ host' ↦ hinterrupted host') hinterrupted) turns
  | recover ident turns =>
    cases hs
    rcases hsound.journal with ⟨hdisk, -⟩ | ⟨deal, hleft⟩
    · exact runCommand_of_leads ((recover_none hdisk).mono (fun _ _ ↦ False.elim)
        (fun _ _ hb ↦ hb.sound hsound) fun _ hb ↦ hb.sound hsound) turns
    · obtain ⟨state, hdisk, -, htruth⟩ := hleft.disk
      cases hp : state.pending with
      | false =>
        exact runCommand_of_leads ((recover_leads hleft hdisk hp).mono (fun _ _ hq ↦ hq.2.1.sound)
          (fun _ _ hl ↦ hl.sound) fun _ hl ↦ hl.sound) turns
      | true =>
        exact runCommand_of_leads ((recover_pending htruth.kept.valid hdisk hp).mono
          (fun _ _ ↦ False.elim) (fun _ _ hb ↦ hb.sound hsound) fun _ hb ↦ hb.sound hsound) turns
  | late docker =>
    simp only [deployStep] at hs
    split_ifs at hs with hrecorded
    cases hs
    rcases h.journal with ⟨-, hnot⟩ | ⟨deal, hleft⟩
    · exact absurd hnot hrecorded
    · obtain ⟨name, hname⟩ := List.exists_mem_of_ne_nil _ hrecorded
      obtain ⟨state, hdisk, hpending⟩ := hleft.recorded name hname
      obtain ⟨state', hdisk', hdeal, htruth⟩ := hleft.disk
      rw [hdisk, Option.some.injEq] at hdisk'
      obtain rfl : state = state' := toJson_injective hdisk'
      have hp : state.pending = true := by rw [Journal.pending, hpending]; rfl
      exact Left.sound ⟨⟨state, hdisk, hdeal, truthful_of_pending
        (htruth.kept.of_checkouts rfl rfl) hp⟩, hleft.recorded, hleft.written⟩

/-- The host before the first deployment. -/
def Host.init (current : Checkout) (docker : Docker) : Host :=
  { current := current, docker := docker }

theorem sound_of_run {current : Checkout} {docker : Docker} {h : List (Host × DeployEvent)}
    (hcurrent : 0 < current.inode)
    (hr : Run (deployStep revisionLabel) (Host.init current docker) h host) :
    Sound revisionLabel host :=
  hr.invariant ⟨.inl ⟨rfl, rfl⟩, fun _ hdata ↦ (by cases hdata), hcurrent⟩ fun h hs ↦ h.step hs

end ModelConnector.Deploy
