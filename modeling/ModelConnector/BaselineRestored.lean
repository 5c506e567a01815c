import ModelConnector.PendingJournal

/-!
# A deployment that fails restores the baseline

A journal that names an action and marks none pending is enough to go back: whatever point of
`deploy` or of an earlier recovery it was left at, a `recover` that returns has put the old checkout
in place, tagged the old image and left the old container running and healthy, and one whose steps
all succeed does return. A journal that is left pending is kept as it is, also when the action did
return and only the record of it failed.

`Succeeds` is `Leads` for an environment in which every step succeeds, and there no step raises.
-/

namespace ModelConnector.Deploy

variable {revisionLabel : String → String} {state : Journal} {host host' : Host} {deal : Journal}
  {revision credential ident : String} {inode : ℕ}

/-! ### When every step succeeds -/

/-- Every step the environment has a say in succeeds, and what comes up is healthy. -/
structure Turns.Succeed (turns : Turns) : Prop where
  natives : ∀ turn ∈ turns.natives, ∃ image, turn = .returned image true
  writes : ∀ turn ∈ turns.writes, turn = .done
  swaps : ∀ turn ∈ turns.swaps, turn = .done
  checks : ∀ turn ∈ turns.checks, turn = .done

/-- With such an environment, a program that begins with this host returns so. -/
def Succeeds {α : Type} (x : Tx α) (host : Host) (Q : α → Host → Prop) : Prop :=
  ∀ turns : Turns, turns.Succeed → Program.Ensures x ⟨host, turns⟩
    (fun a w ↦ w.turns.Succeed ∧ Q a w.host) (fun _ _ ↦ False) fun _ ↦ False

namespace Succeeds

variable {α β : Type} {x : Tx α} {f : α → Tx β} {Q Q₁ : α → Host → Prop}

theorem pure {a : α} (h : Q a host) : Succeeds (Pure.pure a) host Q :=
  fun _ hturns ↦ .pure ⟨hturns, h⟩

theorem seq {Q : β → Host → Prop} (h : Succeeds x host Q₁)
    (hf : ∀ a host', Q₁ a host' → Succeeds (f a) host' Q) : Succeeds (x >>= f) host Q :=
  fun turns hturns ↦ .bind ((h turns hturns).mono (fun a w hw ↦ hf a w.host hw.2 w.turns hw.1)
    (fun _ _ ↦ False.elim) fun _ ↦ False.elim)

theorem bind {Q : β → Host → Prop} (h : Succeeds x host fun a host' ↦ Succeeds (f a) host' Q) :
    Succeeds (x >>= f) host Q :=
  h.seq fun _ _ ↦ id

theorem mono (h : Succeeds x host Q₁) (hQ : ∀ a host', Q₁ a host' → Q a host') :
    Succeeds x host Q :=
  fun turns hturns ↦ (h turns hturns).mono (fun a w hw ↦ ⟨hw.1, hQ a w.host hw.2⟩)
    (fun _ _ ↦ id) fun _ ↦ id

theorem handle {g : Exc → Tx α} (h : Succeeds x host Q) :
    Succeeds (Program.handle x g) host Q :=
  fun turns hturns ↦ .handle ((h turns hturns).mono (fun _ _ ↦ id) (fun _ _ ↦ False.elim)
    fun _ ↦ id)

theorem require {b : Bool} {e : Exc} {Q : Unit → Host → Prop} (hb : b = true) (h : Q () host) :
    Succeeds (Program.require b e) host Q := by
  subst hb
  exact pure h

/-- A step of which every turn there is succeeds. -/
theorem attempt {pop : Turns → Turn × Turns} {effect : Host → Host} {Q : Unit → Host → Prop}
    (hpop : ∀ turns : Turns, turns.Succeed → (pop turns).1 = .done ∧ (pop turns).2.Succeed)
    (h : Q () (effect host)) : Succeeds (Deploy.attempt pop effect) host Q := by
  intro turns hturns
  obtain ⟨hdone, hrest⟩ := hpop turns hturns
  unfold Program.Ensures Deploy.attempt
  rw [show pop turns = (.done, (pop turns).2) from Prod.ext hdone rfl]
  exact ⟨hrest, h⟩

theorem popTurn_succeed {turns : List Turn} (h : ∀ turn ∈ turns, turn = .done) :
    (popTurn turns).1 = .done ∧ ∀ turn ∈ (popTurn turns).2, turn = .done := by
  cases turns with
  | nil => exact ⟨rfl, h⟩
  | cons turn turns =>
    exact ⟨h turn List.mem_cons_self, fun turn' hturn ↦ h turn' (List.mem_cons_of_mem _ hturn)⟩

theorem writer {Q : Unit → Host → Prop} (h : Q () (host.replace state)) :
    Succeeds (Deploy.writer state) host Q :=
  attempt (fun _ hturns ↦ ⟨(popTurn_succeed hturns.writes).1, hturns.natives,
    (popTurn_succeed hturns.writes).2, hturns.swaps, hturns.checks⟩) h

theorem swap {Q : Unit → Host → Prop} (h : Q () (host.exchange ident)) :
    Succeeds (Deploy.swap ident) host Q :=
  attempt (fun _ hturns ↦ ⟨(popTurn_succeed hturns.swaps).1, hturns.natives, hturns.writes,
    (popTurn_succeed hturns.swaps).2, hturns.checks⟩) h

theorem safe {Q : Unit → Host → Prop} (h : Q () host) : Succeeds Deploy.safe host Q :=
  attempt (fun _ hturns ↦ ⟨(popTurn_succeed hturns.checks).1, hturns.natives, hturns.writes,
    hturns.swaps, (popTurn_succeed hturns.checks).2⟩) h

theorem read {g : Host → α} {Q : β → Host → Prop} (h : Succeeds (f (g host)) host Q) :
    Succeeds (Program.read (fun w ↦ g w.host) >>= f) host Q :=
  fun turns hturns ↦ .bind (.read (h turns hturns))

theorem observe {g : Host → Except Exc α} {a : α} (hg : g host = .ok a) (h : Q a host) :
    Succeeds (Deploy.observe g) host Q := by
  have hsafe : Succeeds Deploy.safe host fun _ host' ↦ host' = host := safe rfl
  refine hsafe.seq ?_
  rintro - host₁ heq
  subst host₁
  refine read ?_
  rw [hg]
  exact pure h

theorem getState {Q : Journal → Host → Prop} (hm : host.memory = some state) (h : Q state host) :
    Succeeds Deploy.getState host Q := by
  refine read ?_
  rw [hm]
  exact pure h

theorem setState {Q : Unit → Host → Prop} {memory : Option Journal}
    (h : Q () { host with memory := memory }) : Succeeds (Deploy.setState memory) host Q :=
  fun _ hturns ↦ .modify ⟨hturns, h⟩

/-- An action that can return does. -/
theorem invoke {name : ActionName} {call : NativeCall} {Q : String → Host → Prop}
    (h : ∀ image, ∃ value docker, call.returned? revisionLabel host.docker image true =
      some (value, docker) ∧ Q value { host.invoking name call with docker := docker }) :
    Succeeds (Deploy.invoke revisionLabel name call) host Q := by
  intro turns hturns
  obtain ⟨image, rest, hnative, hrest⟩ : ∃ image rest,
      turns.native = (.returned image true, rest) ∧ rest.Succeed := by
    unfold Turns.native
    split
    · exact ⟨"", turns, rfl, hturns⟩
    · rename_i turn rest heq
      have hall := hturns.natives
      rw [heq] at hall
      obtain ⟨image, rfl⟩ := hall turn List.mem_cons_self
      exact ⟨image, _, rfl, fun turn hturn ↦ hall turn (List.mem_cons_of_mem _ hturn),
        hturns.writes, hturns.swaps, hturns.checks⟩
  obtain ⟨value, docker, hcall, hQ⟩ := h image
  have hcall' : call.returned? revisionLabel (host.invoking name call).docker image true =
    some (value, docker) := hcall
  unfold Program.Ensures Deploy.invoke
  dsimp only
  rw [hnative]
  dsimp only
  rw [hcall']
  exact ⟨hrest, hQ⟩

/-- What `persist` writes. -/
theorem persist (phase : Phase) (hm : host.memory = some state) :
    Succeeds (Deploy.persist phase) host fun _ host' ↦
      host'.memory = some { state with phase := phase } ∧
        host'.disk = some (Journal.toJson { state with phase := phase }) ∧ SameService host host' :=
  .bind (.getState hm (.bind (.setState (.writer ⟨rfl, rfl, rfl, rfl, rfl⟩))))

/-- An operation whose action can return does. -/
theorem operation {name : ActionName} {call : NativeCall} (hm : host.memory = some state)
    (hcall : ∀ image, ∃ value docker, call.returned? revisionLabel host.docker image true =
      some (value, docker)) :
    Succeeds (Deploy.operation revisionLabel name call) host fun value host' ↦
      ∃ image, call.returned? revisionLabel host.docker image true = some (value, host'.docker) ∧
        host'.memory = some { state with native_action := some ⟨name, .returned⟩ } := by
  refine .bind (.getState hm (.bind (.setState (.seq (persist state.phase rfl) ?_))))
  rintro - host₁ ⟨hmemory, -, -, -, hdocker⟩
  change host₁.docker = host.docker at hdocker
  refine .bind (.handle (.invoke fun image ↦ ?_))
  obtain ⟨value, docker, hreturned⟩ := hcall image
  refine ⟨value, docker, by rw [hdocker]; exact hreturned, .bind (.bind (.getState hmemory ?_))⟩
  exact .bind (.handle (.writer (.setState (.pure ⟨image, hreturned, rfl⟩))))

end Succeeds

/-- No backup goes away. -/
def KeepsBackups (w w' : World) : Prop :=
  ∀ ident, (w.host.backups ident).isSome → (w'.host.backups ident).isSome

namespace KeepsBackups

theorem refl (w : World) : KeepsBackups w w :=
  fun _ ↦ id

theorem trans {w w' w'' : World} (h : KeepsBackups w w') (h' : KeepsBackups w' w'') :
    KeepsBackups w w'' :=
  fun ident hsome ↦ h' ident (h ident hsome)

theorem of_update {backups : String → Option Checkout} {checkout : Checkout} {ident' : String}
    (h : (backups ident').isSome) :
    (Function.update backups ident (some checkout) ident').isSome := by
  rcases eq_or_ne ident' ident with rfl | hne
  · rw [Function.update_self]
    rfl
  · rwa [Function.update_of_ne hne]

end KeepsBackups

/-- The program lets no backup go away. -/
abbrev Preserves {α : Type} (x : Tx α) : Prop :=
  Program.Respects KeepsBackups x

namespace Preserves

variable {α β : Type} {x : Tx α} {f : α → Tx β}

theorem pure (a : α) : Preserves (Pure.pure a) :=
  Program.Respects.pure KeepsBackups.refl a

theorem raise (e : Exc) : Preserves (Program.raise e : Tx α) :=
  Program.Respects.raise KeepsBackups.refl e

theorem require (b : Bool) (e : Exc) : Preserves (Program.require b e) :=
  Program.Respects.require KeepsBackups.refl b e

theorem bind (hx : Preserves x) (hf : ∀ a, Preserves (f a)) : Preserves (x >>= f) :=
  Program.Respects.bind KeepsBackups.trans hx hf

theorem handle {g : Exc → Tx α} (hx : Preserves x) (hg : ∀ e, Preserves (g e)) :
    Preserves (Program.handle x g) :=
  Program.Respects.handle KeepsBackups.trans hx hg

theorem read {γ : Type} (g : World → γ) : Preserves (Program.read g) :=
  Program.Respects.read KeepsBackups.refl g

theorem attempt {pop : Turns → Turn × Turns} {effect : Host → Host}
    (h : ∀ host ident, (host.backups ident).isSome → ((effect host).backups ident).isSome) :
    Preserves (Deploy.attempt pop effect) := by
  intro w ident hsome
  unfold Deploy.attempt
  split
  · exact h _ _ hsome
  · split_ifs
    · exact h _ _ hsome
    · exact hsome
  · split_ifs
    · exact h _ _ hsome
    · exact hsome

theorem writer : Preserves (writer state) :=
  attempt fun _ _ ↦ id

theorem safe : Preserves safe :=
  attempt fun _ _ ↦ id

theorem swap : Preserves (swap ident) := by
  refine attempt fun host ident' hsome ↦ ?_
  unfold Host.exchange
  split
  · exact hsome
  · exact KeepsBackups.of_update hsome

theorem observe (g : Host → Except Exc α) : Preserves (observe g) := by
  refine bind safe fun _ ↦ bind (read _) fun result ↦ ?_
  cases result with
  | ok a => exact pure a
  | error e => exact raise e

theorem getState : Preserves getState := by
  refine bind (read _) fun memory ↦ ?_
  cases memory with
  | none => exact raise _
  | some state => exact pure state

theorem setState {memory : Option Journal} : Preserves (setState memory) :=
  .modify fun _ _ ↦ id

theorem invoke {name : ActionName} {call : NativeCall} :
    Preserves (invoke revisionLabel name call) := by
  intro w ident hsome
  unfold Deploy.invoke
  dsimp only
  split
  · split
    · exact hsome
    · exact hsome
  · exact hsome
  · exact hsome

theorem persist {phase : Phase} : Preserves (persist phase) :=
  bind getState fun _ ↦ bind setState fun _ ↦ writer

theorem completeOperation {completion : Completion} : Preserves (completeOperation completion) :=
  bind getState fun _ ↦ bind (handle writer fun _ ↦ raise _) fun _ ↦ setState

theorem operation {name : ActionName} {call : NativeCall} :
    Preserves (operation revisionLabel name call) := by
  refine bind getState fun _ ↦ bind setState fun _ ↦ bind persist fun _ ↦
    bind (handle invoke fun e ↦ ?_) fun _ ↦ bind completeOperation fun _ ↦ pure _
  cases e with
  | refusal message => exact bind completeOperation fun _ ↦ raise _
  | _ => exact raise _

theorem loadJournal : Preserves loadJournal := by
  refine bind (read _) fun disk ↦ ?_
  cases disk with
  | none => exact pure none
  | some data => exact observe _

theorem rollback : Preserves (rollback revisionLabel) := by
  refine bind getState fun state ↦ bind (require _ _) fun _ ↦ bind ?_ fun _ ↦ ?_
  · refine bind (observe _) fun pair ↦ bind persist fun _ ↦ ?_
    split_ifs
    · exact swap
    · exact require _ _
  · refine bind operation fun _ ↦ ?_
    split_ifs
    · exact bind operation fun _ ↦ bind operation fun _ ↦ persist
    · exact persist

theorem preflight : Preserves (preflight revisionLabel revision) :=
  bind safe fun _ ↦ bind loadJournal fun _ ↦ bind (require _ _) fun _ ↦ bind safe fun _ ↦
    bind (observe _) fun _ ↦ bind (require _ _) fun _ ↦ bind (observe _) fun _ ↦
      bind (observe _) fun _ ↦ bind (require _ _) fun _ ↦ pure _

theorem check : Preserves (check revisionLabel revision) :=
  bind (require _ _) fun _ ↦ bind preflight fun _ ↦ pure _

theorem deployActions {image : String} :
    Preserves (deployActions revisionLabel image revision ident) := by
  refine bind ?_ fun _ ↦ bind ?_ fun _ ↦ ?_
  · exact bind operation fun _ ↦ bind operation fun _ ↦ bind operation fun _ ↦
      bind operation fun _ ↦ pure _
  · refine bind persist fun _ ↦ bind swap fun _ ↦ bind getState fun _ ↦ bind setState fun _ ↦
      handle persist fun e ↦ ?_
    split_ifs
    · exact bind getState fun _ ↦ bind setState fun _ ↦ raise _
    · exact raise _
  · exact bind operation fun _ ↦ bind operation fun _ ↦ bind operation fun _ ↦ persist

theorem deployFailed {e : Exc} : Preserves (deployFailed revisionLabel e) := by
  have hrollback : ∀ block : Exc → Tx Unit, (∀ e, ∃ e', block e = Program.raise e') →
      Preserves (Program.handle (Deploy.rollback revisionLabel) block) := by
    intro block hblock
    refine handle rollback fun e ↦ ?_
    obtain ⟨e', he'⟩ := hblock e
    rw [he']
    exact raise _
  cases e with
  | refusal message => exact bind (hrollback _ fun e ↦ by cases e <;> exact ⟨_, rfl⟩) fun _ ↦ raise _
  | osError => exact bind (hrollback _ fun e ↦ by cases e <;> exact ⟨_, rfl⟩) fun _ ↦ raise _
  | valueError => exact bind (hrollback _ fun e ↦ by cases e <;> exact ⟨_, rfl⟩) fun _ ↦ raise _
  | _ => exact raise _

theorem deploy : Preserves (deploy revisionLabel revision credential ident inode) := by
  refine bind (require _ _) fun _ ↦ bind preflight fun _ ↦ bind ?_ fun _ ↦ bind (observe _) fun _ ↦
    bind setState fun _ ↦ bind persist fun _ ↦ bind (handle deployActions fun _ ↦ deployFailed)
      fun _ ↦ pure _
  exact bind (attempt fun _ _ ↦ KeepsBackups.of_update) fun _ ↦ bind safe fun _ ↦
    bind (observe _) fun _ ↦ bind (require _ _) fun _ ↦ safe

theorem recover : Preserves (recover revisionLabel ident) :=
  bind safe fun _ ↦ bind loadJournal fun _ ↦ bind setState fun _ ↦ bind (require _ _) fun _ ↦
    rollback

end Preserves

theorem backups_of_step {e : DeployEvent} (hs : deployStep revisionLabel host e = some host')
    (h : (host.backups ident).isSome) : (host'.backups ident).isSome := by
  cases e with
  | check revision turns =>
    cases hs
    exact Preserves.check _ ident h
  | deploy revision credential ident' inode turns =>
    simp only [deployStep] at hs
    split_ifs at hs
    cases hs
    exact Preserves.deploy _ ident h
  | recover ident' turns =>
    cases hs
    exact Preserves.recover _ ident h
  | late docker =>
    simp only [deployStep] at hs
    split_ifs at hs
    cases hs
    exact h

/-! ### Every run -/

/-- The journal is the one there was, one of a new deal, or one of the same deal. -/
def LeavesJournal (revisionLabel : String → String) (host host' : Host) : Prop :=
  host'.disk = host.disk ∨ ∃ deal, Left revisionLabel host' deal ∧
    (host.backups deal.id = none ∨
      ∃ state : Journal, host.disk = some state.toJson ∧ state.deal = deal)

theorem Sound.leavesJournal {e : DeployEvent} (h : Sound revisionLabel host)
    (hs : deployStep revisionLabel host e = some host') : LeavesJournal revisionLabel host host' := by
  have hsound : Sound revisionLabel { host with memory := none } :=
    ((Before.refl host).memory none).sound h
  have hbefore (host' : Host) (hb : Before { host with memory := none } host') :
      LeavesJournal revisionLabel host host' := .inl hb.disk
  cases e with
  | check revision turns =>
    cases hs
    exact runCommand_of_leads (check_leads.mono (fun _ _ hq ↦ .inl (hq.1 ▸ rfl))
      (fun _ _ heq ↦ .inl (heq ▸ rfl)) fun _ heq ↦ .inl (heq ▸ rfl)) turns
  | deploy revision credential ident inode turns =>
    simp only [deployStep] at hs
    split_ifs at hs with hguard
    cases hs
    obtain ⟨hident, hfresh, hpos, hne⟩ := hguard
    have hinterrupted (host' : Host)
        (hi : Interrupted revisionLabel revision ident inode { host with memory := none } host') :
        LeavesJournal revisionLabel host host' :=
      hi.elim (hbefore host') fun hleft ↦ .inr ⟨_, hleft.2.2, .inl hfresh⟩
    exact runCommand_of_leads (P := LeavesJournal revisionLabel host)
      ((deploy_leads revision credential hsound hident hfresh hpos hne).mono
        (fun _ host' hq ↦ .inr ⟨_, hq.2.2.1, .inl hfresh⟩) (fun _ host' ↦ hinterrupted host')
          hinterrupted) turns
  | recover ident turns =>
    cases hs
    rcases hsound.journal with ⟨hdisk, -⟩ | ⟨deal, hleft⟩
    · exact runCommand_of_leads (P := LeavesJournal revisionLabel host)
        ((recover_none hdisk).mono (fun _ _ ↦ False.elim) (fun _ ↦ hbefore) hbefore) turns
    · obtain ⟨state, hdisk, hdeal, htruth⟩ := hleft.disk
      have hsame (host' : Host) (hl : Left revisionLabel host' deal) :
          LeavesJournal revisionLabel host host' := .inr ⟨deal, hl, .inr ⟨state, hdisk, hdeal⟩⟩
      cases hp : state.pending with
      | false =>
        exact runCommand_of_leads (P := LeavesJournal revisionLabel host)
          ((recover_leads hleft hdisk hp).mono (fun _ host' hq ↦ hsame host' hq.2.1)
            (fun _ ↦ hsame) hsame) turns
      | true =>
        exact runCommand_of_leads (P := LeavesJournal revisionLabel host)
          ((recover_pending htruth.kept.valid hdisk hp).mono (fun _ _ ↦ False.elim)
            (fun _ ↦ hbefore) hbefore) turns
  | late docker =>
    simp only [deployStep] at hs
    split_ifs at hs
    cases hs
    exact .inl rfl

/-- A journal of the transaction is about the host the transaction began on. -/
structure Owned (revisionLabel : String → String) (deal : Journal) (host : Host) : Prop where
  sound : Sound revisionLabel host
  backup : (host.backups deal.id).isSome
  deal_eq : ∀ state : Journal, host.disk = some state.toJson → state.id = deal.id →
    state.deal = deal

theorem Left.owned (h : Left revisionLabel host deal) : Owned revisionLabel deal host := by
  obtain ⟨state, hdisk, rfl, htruth⟩ := h.disk
  refine ⟨h.sound, ?_, fun state' hdisk' _ ↦ ?_⟩
  · show (host.backups state.id).isSome
    rcases htruth.kept.custody with hold | hnew
    · rw [hold.2]
      rfl
    · rw [hnew.2]
      rfl
  · rw [hdisk, Option.some.injEq] at hdisk'
    rw [toJson_injective hdisk']

theorem Owned.step {e : DeployEvent} (h : Owned revisionLabel deal host)
    (hs : deployStep revisionLabel host e = some host') : Owned revisionLabel deal host' := by
  refine ⟨h.sound.step hs, backups_of_step hs h.backup, fun state hdisk hid ↦ ?_⟩
  rcases h.sound.leavesJournal hs with hsame | ⟨deal', hleft, hnew⟩
  · exact h.deal_eq state (hsame ▸ hdisk) hid
  · obtain ⟨state', hdisk', rfl, -⟩ := hleft.disk
    rw [hdisk, Option.some.injEq] at hdisk'
    obtain rfl : state = state' := toJson_injective hdisk'
    rcases hnew with hfresh | ⟨prior, hprior, hdeal⟩
    · have hbackup := h.backup
      rw [← hid, show host.backups state.id = none from hfresh] at hbackup
      cases hbackup
    · rw [← hdeal]
      have hpriorid : prior.deal.id = state.deal.id := congrArg Journal.id hdeal
      exact h.deal_eq prior hprior (hpriorid.trans hid)

section Instances

/-- The transaction that is deployed. -/
abbrev someIdent : String :=
  "cccccccccccccccccccccccccccccccc"

/-- A deployment of the new revision. -/
abbrev deployment (turns : Turns) : DeployEvent :=
  .deploy newSha "dddddddddddddddddddd" someIdent 2 turns

end Instances

end ModelConnector.Deploy
