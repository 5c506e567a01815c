import ModelConnector.Deploy.Commands

/-!
# The journal never forgets a running action

An action on the daemon is invoked only after the journal on disk marks it pending, and only the
record of its end takes the mark away. So at every point where a process can be killed, an action
whose end is not on disk is pending there; and a command that finds one pending does nothing, so
that it stays pending.
-/

namespace ModelConnector.Deploy

variable {revisionLabel : String → String} {host host' : Host}

/-- The command does not return. -/
def DeployEvent.Refused (revisionLabel : String → String) (host : Host) : DeployEvent → Prop
  | .check revision turns =>
    ∀ a, (runCommand (Deploy.check revisionLabel revision) host turns).1 ≠ .returned a
  | .deploy revision credential ident inode turns =>
    ∀ a, (runCommand (Deploy.deploy revisionLabel revision credential ident inode) host turns).1 ≠
      .returned a
  | .recover ident turns =>
    ∀ a, (runCommand (Deploy.recover revisionLabel ident) host turns).1 ≠ .returned a
  | .late _ => True

/-- What an unrecorded action holds fast: the journal, the checkout, and what was done so far. -/
structure Frozen (host host' : Host) : Prop where
  disk : host'.disk = host.disk
  current : host'.current = host.current
  effects : host'.effects = host.effects
  unrecorded : host'.unrecorded = host.unrecorded

theorem Frozen.trans {host'' : Host} (h : Frozen host host') (h' : Frozen host' host'') :
    Frozen host host'' :=
  ⟨h'.disk.trans h.disk, h'.current.trans h.current, h'.effects.trans h.effects,
    h'.unrecorded.trans h.unrecorded⟩

theorem Before.frozen (h : Before host host') : Frozen host host' :=
  ⟨h.disk, h.current, h.effects, h.unrecorded⟩

/-- An action whose end is not recorded is pending on disk. -/
theorem Sound.pending (h : Sound revisionLabel host) (hrecorded : host.unrecorded ≠ []) :
    ∃ state : Journal, host.disk = some state.toJson ∧ state.Valid ∧ state.pending = true := by
  rcases h.journal with ⟨-, hnone⟩ | ⟨deal, hleft⟩
  · exact absurd hnone hrecorded
  · obtain ⟨name, hname⟩ := List.exists_mem_of_ne_nil _ hrecorded
    obtain ⟨state, hdisk, hpending⟩ := hleft.recorded name hname
    obtain ⟨state', hdisk', -, htruth⟩ := hleft.disk
    rw [hdisk, Option.some.injEq] at hdisk'
    obtain rfl : state = state' := toJson_injective hdisk'
    exact ⟨state, hdisk, htruth.kept.valid, by rw [Journal.pending, hpending]; rfl⟩

/-- With an unrecorded action, a command is refused and does nothing. -/
theorem Sound.frozen {e : DeployEvent} (h : Sound revisionLabel host)
    (hrecorded : host.unrecorded ≠ []) (hs : deployStep revisionLabel host e = some host') :
    e.Refused revisionLabel host ∧ Frozen host host' := by
  obtain ⟨state, hdisk, hvalid, hp⟩ := h.pending hrecorded
  have hfrozen {α : Type} {x : Tx α} (turns : Turns)
      (hx : Leads x { host with memory := none } (fun _ _ ↦ False)
        (fun _ host' ↦ Before { host with memory := none } host')
        (Before { host with memory := none } ·)) :
      (∀ a, (runCommand x host turns).1 ≠ .returned a) ∧
        Frozen host (runCommand x host turns).2 :=
    ⟨runCommand_ne_returned hx turns, runCommand_of_leads (hx.mono (fun _ _ ↦ False.elim)
      (fun _ _ hb ↦ ((Before.refl host).memory none).frozen.trans hb.frozen)
      fun _ hb ↦ ((Before.refl host).memory none).frozen.trans hb.frozen) turns⟩
  cases e with
  | check revision turns =>
    cases hs
    exact hfrozen turns (check_pending hvalid hdisk hp)
  | deploy revision credential ident inode turns =>
    simp only [deployStep] at hs
    split_ifs at hs
    cases hs
    exact hfrozen turns (deploy_pending hvalid hdisk hp)
  | recover ident turns =>
    cases hs
    exact hfrozen turns (recover_pending hvalid hdisk hp)
  | late docker =>
    simp only [deployStep] at hs
    split_ifs at hs
    cases hs
    exact ⟨trivial, rfl, rfl, rfl, rfl⟩

/-- And so is every command after it. -/
theorem Sound.frozen_of_run {h : List (Host × DeployEvent)} (hsound : Sound revisionLabel host)
    (hrecorded : host.unrecorded ≠ []) (hr : Run (deployStep revisionLabel) host h host') :
    (∀ p ∈ h, p.2.Refused revisionLabel p.1) ∧ Frozen host host' := by
  induction hr with
  | nil => exact ⟨by simp, rfl, rfl, rfl, rfl⟩
  | @snoc h t t' e hr hs ih =>
    have ht : Sound revisionLabel t := hr.invariant hsound fun h hs ↦ h.step hs
    have hstep := ht.frozen (ih.2.unrecorded ▸ hrecorded) hs
    refine ⟨fun p hp ↦ ?_, ih.2.trans hstep.2⟩
    rcases List.mem_append.1 hp with hp | hp
    · exact ih.1 p hp
    · rw [List.mem_singleton.1 hp]
      exact hstep.1

/-- In every run of commands: an action that was invoked and whose end is not recorded is pending in
the journal on disk; every journal that was written can be read; and from a host with such an action
on, every command is refused, and none touches the journal, exchanges the checkouts or invokes an
action. -/
theorem journal_never_forgets {current : Checkout} {docker : Docker}
    {h : List (Host × DeployEvent)} (hcurrent : 0 < current.inode)
    (hr : Run (deployStep revisionLabel) (Host.init current docker) h host) :
    (∀ name ∈ host.unrecorded, ∃ state : Journal, host.disk = some state.toJson ∧
      state.native_action = some ⟨name, .pending⟩) ∧
    (∀ data ∈ host.written, ∃ state, load data = .ok state) ∧
    ∀ before p after, h = before ++ p :: after → p.1.unrecorded ≠ [] →
      (∀ q ∈ p :: after, q.2.Refused revisionLabel q.1) ∧ Frozen p.1 host := by
  have hsound := sound_of_run hcurrent hr
  refine ⟨fun name hname ↦ ?_, fun data hdata ↦ ?_, ?_⟩
  · rcases hsound.journal with ⟨-, hnone⟩ | ⟨deal, hleft⟩
    · rw [hnone] at hname
      cases hname
    · exact hleft.recorded name hname
  · obtain ⟨state, rfl, hvalid⟩ := hsound.written data hdata
    exact ⟨state, load_toJson hvalid⟩
  · rintro before p after rfl hrecorded
    obtain ⟨t, hbefore, hrest⟩ := hr.exists_of_append
    obtain ⟨rfl, -⟩ := hrest.exists_of_cons
    exact (sound_of_run hcurrent hbefore).frozen_of_run hrecorded hrest

/-! ### Instances -/

section Instances

def oldSha : String :=
  "aaaaaaaaaaaaaaaaaaaaaaaaaaaaaaaaaaaaaaaa"

def newSha : String :=
  "bbbbbbbbbbbbbbbbbbbbbbbbbbbbbbbbbbbbbbbb"

def oldImage : String :=
  "sha256:aaaaaaaaaaaaaaaaaaaaaaaaaaaaaaaaaaaaaaaaaaaaaaaaaaaaaaaaaaaaaaaa"

def newImage : String :=
  "sha256:bbbbbbbbbbbbbbbbbbbbbbbbbbbbbbbbbbbbbbbbbbbbbbbbbbbbbbbbbbbbbbbb"

def label (image : String) : String :=
  if image = oldImage then oldSha else newSha

def baselineCheckout : Checkout :=
  ⟨1, oldSha⟩

def baselineDocker : Docker :=
  ⟨fun tag ↦ if tag = "latest" then some oldImage else none, ⟨oldImage, true, true, true⟩⟩

/-- A deployment whose build times out, the build that ends after all, and two commands more. -/
def timedOut : List DeployEvent :=
  [.deploy newSha "dddddddddddddddddddd" "cccccccccccccccccccccccccccccccc" 2
      { natives := [.returned "" true, .raises (.nativeOutcomeUnknown "timeout") baselineDocker] },
    .late ⟨fun _ ↦ some newImage, ⟨oldImage, true, true, true⟩⟩,
    .recover "cccccccccccccccccccccccccccccccc" {},
    .check newSha {}]

/-- The build is unrecorded when the recovery is refused, and is so at the end. -/
theorem journal_never_forgets_timedOut :
    ∃ h host, Run (deployStep label) (Host.init baselineCheckout baselineDocker) h host ∧
      host.unrecorded = [.build] ∧
      ∃ p ∈ h, (∃ turns, p.2 = .recover "cccccccccccccccccccccccccccccccc" turns) ∧
        p.2.Refused label p.1 ∧ Frozen p.1 host := by
  obtain ⟨h, host, hr, hcheck⟩ := Run.exists_of_check (deployStep label)
    (Host.init baselineCheckout baselineDocker) timedOut
    (fun h host ↦ decide (host.unrecorded = [.build]) && match h.drop 2 with
      | p :: _ => decide (p.1.unrecorded = [.build]) && match p.2 with
        | .recover ident _ => decide (ident = "cccccccccccccccccccccccccccccccc")
        | _ => false
      | [] => false) (by decide +kernel)
  rw [Bool.and_eq_true, decide_eq_true_eq] at hcheck
  obtain ⟨hrecorded, hthird⟩ := hcheck
  split at hthird
  · rename_i p rest hdrop
    rw [Bool.and_eq_true, decide_eq_true_eq] at hthird
    obtain ⟨hpending, hrecover⟩ := hthird
    have hsplit : h = h.take 2 ++ p :: rest := by rw [← hdrop, List.take_append_drop]
    have hfrozen := (journal_never_forgets (by decide) hr).2.2 _ p rest hsplit
      (by rw [hpending]; decide)
    refine ⟨h, host, hr, hrecorded, p, ?_, ?_, hfrozen.1 p List.mem_cons_self, hfrozen.2⟩
    · rw [hsplit]
      exact List.mem_append_right _ List.mem_cons_self
    · split at hrecover
      · rename_i ident turns hp
        exact ⟨turns, by rw [hp, of_decide_eq_true hrecover]⟩
      · cases hrecover
  · cases hthird

end Instances

end ModelConnector.Deploy
