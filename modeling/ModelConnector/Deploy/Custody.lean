import ModelConnector.Deploy.Transaction

/-!
# What the journal says is so

Whatever the environment does, the journal on disk is about the host it is found on. `Truthful`
says what that means: the two checkouts are where the inodes of the journal say, the old container
is as it was as long as the journal does not say otherwise, and a transaction that is committed or
rolled back has left the host accordingly. An action that is pending may have done anything it can
do, and then nothing is said of the daemon.

Each method has one specification, in terms of `Leads`: what holds of the host when the method
returns, when it raises and when it is killed. `Ready` is where a method begins that is about to do
something: memory and disk are about one transaction and no action is pending. `Held` is where an
exception may leave it.
-/

namespace ModelConnector.Deploy

/-- Whatever the environment does, a program that begins with this host ends so. -/
def Leads {α : Type} (x : Tx α) (host : Host) (Q : α → Host → Prop) (R : Exc → Host → Prop)
    (K : Host → Prop) : Prop :=
  ∀ turns, Program.Ensures x ⟨host, turns⟩ (fun a w ↦ Q a w.host) (fun e w ↦ R e w.host)
    fun w ↦ K w.host

section Rules

variable {α β : Type} {x : Tx α} {f : α → Tx β} {host : Host} {Q Q' : α → Host → Prop}
  {R R' : Exc → Host → Prop} {K K' : Host → Prop}

namespace Leads

theorem pure {a : α} (h : Q a host) : Leads (Pure.pure a) host Q R K :=
  fun _ ↦ .pure h

theorem raise {e : Exc} (h : R e host) : Leads (Program.raise e : Tx α) host Q R K :=
  fun _ ↦ .raise h

theorem require {b : Bool} {e : Exc} {Q : Unit → Host → Prop} (h : b = true → Q () host)
    (he : b = false → R e host) : Leads (Program.require b e) host Q R K :=
  fun _ ↦ .require h he

theorem mono (h : Leads x host Q R K) (hQ : ∀ a host', Q a host' → Q' a host')
    (hR : ∀ e host', R e host' → R' e host') (hK : ∀ host', K host' → K' host') :
    Leads x host Q' R' K' :=
  fun turns ↦ (h turns).mono (fun a w ↦ hQ a w.host) (fun e w ↦ hR e w.host) fun w ↦ hK w.host

theorem bind {Q : β → Host → Prop}
    (h : Leads x host (fun a host' ↦ Leads (f a) host' Q R K) R K) : Leads (x >>= f) host Q R K :=
  fun turns ↦ .bind ((h turns).mono (fun _ w hw ↦ hw w.turns) (fun _ _ ↦ id) fun _ ↦ id)

/-- Two programs in sequence, the first one with a specification of its own. -/
theorem seq {Q₁ : α → Host → Prop} {Q : β → Host → Prop} (h : Leads x host Q₁ R' K')
    (hf : ∀ a host', Q₁ a host' → Leads (f a) host' Q R K) (hR : ∀ e host', R' e host' → R e host')
    (hK : ∀ host', K' host' → K host') : Leads (x >>= f) host Q R K :=
  bind (h.mono hf hR hK)

theorem handle {g : Exc → Tx α}
    (h : Leads x host Q (fun e host' ↦ Leads (g e) host' Q R K) K) :
    Leads (Program.handle x g) host Q R K :=
  fun turns ↦ .handle ((h turns).mono (fun _ _ ↦ id) (fun _ w hw ↦ hw w.turns) fun _ ↦ id)

theorem attempt {pop : Turns → Turn × Turns} {effect : Host → Host} {Q : Unit → Host → Prop}
    (hQ : Q () (effect host)) (hR : ∀ e, R e (effect host) ∧ R e host)
    (hK : K (effect host) ∧ K host) : Leads (Deploy.attempt pop effect) host Q R K := by
  intro turns
  unfold Program.Ensures Deploy.attempt
  rcases pop turns with ⟨turn, rest⟩
  cases turn with
  | done => exact hQ
  | raises e took =>
    cases took with
    | false => exact (hR e).2
    | true => exact (hR e).1
  | killed took =>
    cases took with
    | false => exact hK.2
    | true => exact hK.1

theorem safe {Q : Unit → Host → Prop} (hQ : Q () host) (hR : ∀ e, R e host) (hK : K host) :
    Leads Deploy.safe host Q R K :=
  attempt hQ (fun e ↦ ⟨hR e, hR e⟩) ⟨hK, hK⟩

/-- To go on with what is read of the host. -/
theorem read {g : Host → α} {Q : β → Host → Prop} (h : Leads (f (g host)) host Q R K) :
    Leads (Program.read (fun w ↦ g w.host) >>= f) host Q R K :=
  fun turns ↦ .bind (.read (h turns))

theorem observe {g : Host → Except Exc α} (hQ : ∀ a, g host = .ok a → Q a host)
    (hR : ∀ e, R e host) (hK : K host) : Leads (Deploy.observe g) host Q R K := by
  refine bind (safe (read ?_) hR hK)
  cases hg : g host with
  | ok a => exact pure (hQ a hg)
  | error e => exact raise (hR e)

theorem getState {Q : Journal → Host → Prop} {state : Journal} (hm : host.memory = some state)
    (hQ : Q state host) : Leads Deploy.getState host Q R K := by
  refine read ?_
  rw [hm]
  exact pure hQ

theorem setState {Q : Unit → Host → Prop} {state : Option Journal}
    (hQ : Q () { host with memory := state }) : Leads (Deploy.setState state) host Q R K :=
  fun _ ↦ .modify hQ

end Leads

end Rules

/-! ### What a journal says of the host -/

/-- What is deployed over what: a journal without how far it has got. -/
def Journal.deal (state : Journal) : Journal :=
  { state with
    up_intent := false
    phase := .buildIntent
    native_action := none }

section Truth

variable (revisionLabel : String → String) (state : Journal) (host : Host)

/-- The old container, as it was found. -/
def Journal.oldContainer : Container :=
  ⟨state.image, true, true, true⟩

/-- The old checkout is in place. -/
def OldInPlace : Prop :=
  host.current = ⟨state.old_inode, state.old_sha⟩ ∧
    host.backups state.id = some ⟨state.new_inode, state.new_sha⟩

/-- The new checkout is in place. -/
def NewInPlace : Prop :=
  host.current = ⟨state.new_inode, state.new_sha⟩ ∧
    host.backups state.id = some ⟨state.old_inode, state.old_sha⟩

/-- The journal can be read, and the host has both checkouts. -/
structure Kept : Prop where
  valid : state.Valid
  label : revisionLabel state.image = state.old_sha
  inode_ne : state.old_inode ≠ state.new_inode
  custody : OldInPlace state host ∨ NewInPlace state host

/-- The host is as it was before the transaction. -/
structure Restored : Prop where
  checkout : OldInPlace state host
  latest : host.docker.tags "latest" = some state.image
  container : host.docker.container = state.oldContainer

/-- The new revision is installed. -/
structure Installed : Prop where
  checkout : NewInPlace state host
  container : ∃ candidate, host.docker.tags "latest" = some candidate ∧
    host.docker.container = ⟨candidate, true, true, true⟩ ∧ revisionLabel candidate = state.new_sha

/-- What the journal says is so, unless an action is pending. -/
structure Truthful : Prop where
  kept : Kept revisionLabel state host
  untouched : state.pending = false → state.up_intent = false →
    host.docker.container = state.oldContainer
  committed : state.pending = false → state.phase = .committed → Installed revisionLabel state host
  rolledBack : state.pending = false → state.phase = .rolledBack → Restored state host

/-- The journal on disk is one of this deal and says what is so, and it marks every action pending
whose end is not recorded. -/
structure Left (deal : Journal) : Prop where
  disk : ∃ state : Journal, host.disk = some state.toJson ∧ state.deal = deal ∧
    Truthful revisionLabel state host
  recorded : ∀ name ∈ host.unrecorded, ∃ state : Journal, host.disk = some state.toJson ∧
    state.native_action = some ⟨name, .pending⟩
  written : ∀ data ∈ host.written, ∃ state : Journal, data = state.toJson ∧ state.Valid

/-- Memory and disk are of one deal, and no action is pending. -/
structure Ready : Prop where
  left : Left revisionLabel host state.deal
  memory : host.memory = some state
  unrecorded : host.unrecorded = []
  kept : Kept revisionLabel state host
  untouched : state.up_intent = false → host.docker.container = state.oldContainer

/-- Where an exception leaves the process: an action is pending in memory, or it is ready. -/
structure Held (deal : Journal) : Prop where
  left : Left revisionLabel host deal
  memory : ∃ state : Journal, host.memory = some state ∧ state.deal = deal ∧
    (state.pending = true ∨ Ready revisionLabel state host)

end Truth

section Lemmas

variable {revisionLabel : String → String} {state state' : Journal} {host host' : Host}
  {deal : Journal}

/-- What is kept is so of every journal of the deal. -/
theorem Kept.congr (h : Kept revisionLabel state host) (hdeal : state'.deal = state.deal) :
    Kept revisionLabel state' host := by
  obtain ⟨id, old_sha, new_sha, image, old_inode, new_inode, _, _, _⟩ := state
  obtain ⟨id', old_sha', new_sha', image', old_inode', new_inode', _, _, _⟩ := state'
  simp only [Journal.deal, Journal.mk.injEq, and_true] at hdeal
  obtain ⟨rfl, rfl, rfl, rfl, rfl, rfl⟩ := hdeal
  exact ⟨⟨h.valid.id, h.valid.old_sha, h.valid.new_sha, h.valid.image, h.valid.old_inode,
    h.valid.new_inode⟩, h.label, h.inode_ne, h.custody⟩

/-- And of every host with these checkouts. -/
theorem Kept.of_checkouts (h : Kept revisionLabel state host)
    (hcurrent : host'.current = host.current) (hbackups : host'.backups = host.backups) :
    Kept revisionLabel state host' where
  valid := h.valid
  label := h.label
  inode_ne := h.inode_ne
  custody := by
    unfold OldInPlace NewInPlace
    rw [hcurrent, hbackups]
    exact h.custody

/-- A journal says the same of a host with these checkouts and this daemon. -/
theorem Truthful.of_host (h : Truthful revisionLabel state host)
    (hcurrent : host'.current = host.current) (hbackups : host'.backups = host.backups)
    (hdocker : host'.docker = host.docker) : Truthful revisionLabel state host' where
  kept := h.kept.of_checkouts hcurrent hbackups
  untouched hp hu := by
    rw [hdocker]
    exact h.untouched hp hu
  committed hp hc := by
    obtain ⟨hcheckout, hcontainer⟩ := h.committed hp hc
    refine ⟨?_, by rw [hdocker]; exact hcontainer⟩
    unfold NewInPlace
    rw [hcurrent, hbackups]
    exact hcheckout
  rolledBack hp hr := by
    obtain ⟨hcheckout, hlatest, hcontainer⟩ := h.rolledBack hp hr
    refine ⟨?_, by rw [hdocker]; exact hlatest, by rw [hdocker]; exact hcontainer⟩
    unfold OldInPlace
    rw [hcurrent, hbackups]
    exact hcheckout

/-- A journal with an action pending says only where the checkouts are. -/
theorem truthful_of_pending (h : Kept revisionLabel state host) (hp : state.pending = true) :
    Truthful revisionLabel state host where
  kept := h
  untouched hnot := by rw [hp] at hnot; cases hnot
  committed hnot := by rw [hp] at hnot; cases hnot
  rolledBack hnot := by rw [hp] at hnot; cases hnot

/-- So does one of a transaction under way, and that the container is as it was. -/
theorem truthful_of_unsettled (h : Kept revisionLabel state host)
    (hphase : state.phase.settled = false)
    (hu : state.up_intent = false → host.docker.container = state.oldContainer) :
    Truthful revisionLabel state host where
  kept := h
  untouched _ := hu
  committed _ hc := by rw [hc] at hphase; cases hphase
  rolledBack _ hr := by rw [hr] at hphase; cases hphase

/-- What is left does not depend on memory and on what was done. -/
theorem Left.of_host (h : Left revisionLabel host deal) (hdisk : host'.disk = host.disk)
    (hunrecorded : host'.unrecorded = host.unrecorded) (hwritten : host'.written = host.written)
    (hcurrent : host'.current = host.current) (hbackups : host'.backups = host.backups)
    (hdocker : host'.docker = host.docker) : Left revisionLabel host' deal where
  disk := by
    obtain ⟨state, hstate, hdeal, htruth⟩ := h.disk
    exact ⟨state, hdisk.trans hstate, hdeal, htruth.of_host hcurrent hbackups hdocker⟩
  recorded := by
    rw [hunrecorded, hdisk]
    exact h.recorded
  written := by
    rw [hwritten]
    exact h.written

/-- A journal that is written is left. -/
theorem Left.replace (h : Left revisionLabel host deal) (hdeal : state.deal = deal)
    (htruth : Truthful revisionLabel state host)
    (hnone : ∀ name ∈ host.unrecorded, ∃ action, state.native_action = some action ∧
      action.name = name) : Left revisionLabel (host.replace state) deal where
  disk := ⟨state, rfl, hdeal, htruth.of_host rfl rfl rfl⟩
  recorded name hname := by
    obtain ⟨hmem, hkept⟩ := List.mem_filter.1 hname
    obtain ⟨action, haction, rfl⟩ := hnone name hmem
    refine ⟨state, rfl, ?_⟩
    have hpending : action.completion = .pending := by simpa [haction] using hkept
    rw [haction, ← hpending]
  written data hdata := by
    rcases List.mem_cons.1 hdata with rfl | hdata
    · exact ⟨state, rfl, htruth.kept.valid⟩
    · exact h.written data hdata

theorem Ready.held (h : Ready revisionLabel state host) : Held revisionLabel host state.deal :=
  ⟨h.left, state, h.memory, rfl, .inr h⟩

/-- Another journal of the deal in memory. -/
theorem Ready.setState (h : Ready revisionLabel state host) (hdeal : state'.deal = state.deal)
    (hu : state'.up_intent = false → host.docker.container = state'.oldContainer) :
    Ready revisionLabel state' { host with memory := some state' } where
  left := hdeal ▸ h.left.of_host rfl rfl rfl rfl rfl rfl
  memory := rfl
  unrecorded := h.unrecorded
  kept := (h.kept.congr hdeal).of_checkouts rfl rfl
  untouched := hu

/-- And on disk. -/
theorem Ready.replace (h : Ready revisionLabel state host)
    (htruth : Truthful revisionLabel state host) :
    Ready revisionLabel state (host.replace state) where
  left := h.left.replace rfl htruth (by rw [h.unrecorded]; simp)
  memory := h.memory
  unrecorded := by
    show List.filter _ host.unrecorded = []
    rw [h.unrecorded]
    rfl
  kept := h.kept.of_checkouts rfl rfl
  untouched := h.untouched

end Lemmas

/-! ### The methods -/

section Methods

variable {revisionLabel : String → String} {state : Journal} {host host' : Host} {deal : Journal}

/-- The checkouts and the daemon are as they were. -/
structure SameService (host host' : Host) : Prop where
  current : host'.current = host.current
  backups : host'.backups = host.backups
  docker : host'.docker = host.docker

theorem Ready.persist (phase : Phase) (h : Ready revisionLabel state host)
    (htruth : Truthful revisionLabel { state with phase := phase } host) :
    Leads (persist phase) host
      (fun _ host' ↦ Ready revisionLabel { state with phase := phase } host' ∧
        host'.disk = some (Journal.toJson { state with phase := phase }) ∧ SameService host host')
      (fun _ host' ↦ Ready revisionLabel { state with phase := phase } host' ∧
        SameService host host')
      (Left revisionLabel · state.deal) := by
  have hset : Ready revisionLabel { state with phase := phase }
      { host with memory := some { state with phase := phase } } := h.setState rfl h.untouched
  have hwritten := hset.replace (htruth.of_host rfl rfl rfl)
  refine .bind (.getState h.memory (.bind (.setState ?_)))
  exact .attempt ⟨hwritten, rfl, rfl, rfl, rfl⟩
    (fun e ↦ ⟨⟨hwritten, rfl, rfl, rfl⟩, hset, rfl, rfl, rfl⟩) ⟨hwritten.left, hset.left⟩

/-- The host in which an action is under way for an operation. -/
structure Underway (revisionLabel : String → String) (state : Journal) (name : ActionName)
    (host : Host) : Prop where
  left : Left revisionLabel host state.deal
  memory : host.memory = some { state with native_action := some ⟨name, .pending⟩ }
  unrecorded : host.unrecorded ⊆ [name]
  kept : Kept revisionLabel state host

theorem Underway.held {name : ActionName} (h : Underway revisionLabel state name host) :
    Held revisionLabel host state.deal :=
  ⟨h.left, _, h.memory, rfl, .inl rfl⟩

/-- `complete_operation` records the end, or leaves the action pending in memory. -/
theorem Underway.completeOperation {name : ActionName} {completion : Completion}
    (h : Underway revisionLabel state name host) (hphase : state.phase.settled = false)
    (hcompletion : completion ≠ .pending)
    (hu : state.up_intent = false → host.docker.container = state.oldContainer) :
    Leads (completeOperation completion) host
      (fun _ host' ↦ Ready revisionLabel { state with native_action := some ⟨name, completion⟩ }
        host' ∧ host'.disk =
          some (Journal.toJson { state with native_action := some ⟨name, completion⟩ }) ∧
        SameService host host')
      (fun _ host' ↦ Held revisionLabel host' state.deal)
      (Left revisionLabel · state.deal) := by
  have htruth : Truthful revisionLabel { state with native_action := some ⟨name, completion⟩ }
      host := truthful_of_unsettled (h.kept.congr rfl) hphase hu
  have hleft : Left revisionLabel
      (host.replace { state with native_action := some ⟨name, completion⟩ }) state.deal :=
    h.left.replace rfl htruth fun name' hname ↦
      ⟨_, rfl, (List.mem_singleton.1 (h.unrecorded hname)).symm⟩
  have hnone : (host.replace { state with native_action := some ⟨name, completion⟩ }).unrecorded
      = [] := by
    refine List.filter_eq_nil_iff.2 fun name' hname ↦ ?_
    rw [List.mem_singleton.1 (h.unrecorded hname)]
    simp [hcompletion]
  refine .bind (.getState h.memory (.bind (.handle (.attempt (.setState ?_) (fun e ↦ ?_)
    ⟨hleft, h.left⟩))))
  · refine ⟨⟨hleft.of_host rfl rfl rfl rfl rfl rfl, rfl, hnone, htruth.kept.of_checkouts rfl rfl,
      hu⟩, rfl, rfl, rfl, rfl⟩
  · exact ⟨.raise ⟨hleft, _, h.memory, rfl, .inl rfl⟩, .raise h.held⟩

/-- An action that does not return has not touched the container, unless it is to bring it up. -/
theorem NativeCall.container_restrict {call : NativeCall} {docker docker' : Docker}
    (h : ∀ revision, call ≠ .up revision) :
    (call.restrict docker docker').container = docker.container := by
  cases call with
  | up revision => exact absurd rfl (h revision)
  | _ => rfl

/-- Nor has one that returns. -/
theorem NativeCall.container_returned {call : NativeCall} {docker docker' : Docker}
    {image value : String} {healthy : Bool} (h : ∀ revision, call ≠ .up revision)
    (hcall : call.returned? revisionLabel docker image healthy = some (value, docker')) :
    docker'.container = docker.container := by
  cases call with
  | up revision => exact absurd rfl (h revision)
  | tag image tag => cases hcall; rfl
  | build revision => cases hcall; rfl
  | image tag =>
    obtain ⟨_, -, heq⟩ := Option.map_eq_some_iff.1 hcall
    cases heq
    rfl
  | verifyImage image revision =>
    simp only [NativeCall.returned?] at hcall
    split_ifs at hcall
    cases hcall
    rfl
  | health image revision =>
    simp only [NativeCall.returned?] at hcall
    split_ifs at hcall
    cases hcall
    rfl

/-- An action that is invoked returns, or has changed no more than it can. -/
theorem Leads.invoke {name : ActionName} {call : NativeCall} {Q : String → Host → Prop}
    {R : Exc → Host → Prop} {K : Host → Prop}
    (hQ : ∀ image healthy value docker,
      call.returned? revisionLabel host.docker image healthy = some (value, docker) →
        Q value { host.invoking name call with docker := docker })
    (hR : ∀ e docker, ((∀ revision, call ≠ .up revision) →
      docker.container = host.docker.container) →
        R e { host.invoking name call with docker := docker })
    (hK : ∀ docker, K { host.invoking name call with docker := docker }) :
    Leads (Deploy.invoke revisionLabel name call) host Q R K := by
  intro turns
  unfold Program.Ensures Deploy.invoke
  dsimp only
  rcases turns.native with ⟨turn, rest⟩
  cases turn with
  | returned image healthy =>
    dsimp only
    cases hcall : call.returned? revisionLabel host.docker image healthy with
    | none =>
      have hcall' : call.returned? revisionLabel (host.invoking name call).docker image healthy =
        none := hcall
      rw [hcall']
      exact hR _ host.docker fun _ ↦ rfl
    | some result =>
      have hcall' : call.returned? revisionLabel (host.invoking name call).docker image healthy =
        some result := hcall
      rw [hcall']
      exact hQ image healthy result.1 result.2 hcall
  | raises e docker => exact hR e _ NativeCall.container_restrict
  | killed docker => exact hK _

variable (state) in
/-- An action is invoked after it is pending on disk. -/
theorem Ready.underway {name : ActionName} {call : NativeCall}
    (h : Ready revisionLabel { state with native_action := some ⟨name, .pending⟩ } host)
    (hdisk : host.disk = some (Journal.toJson { state with native_action := some ⟨name, .pending⟩ }))
    (docker : Docker) :
    Underway revisionLabel state name { host.invoking name call with docker := docker } := by
  have hkept : Kept revisionLabel { state with native_action := some ⟨name, .pending⟩ }
      { host.invoking name call with docker := docker } := h.kept.of_checkouts rfl rfl
  refine ⟨⟨⟨_, hdisk, rfl, truthful_of_pending hkept rfl⟩, fun name' hname ↦ ⟨_, hdisk, ?_⟩,
    h.left.written⟩, h.memory, ?_, hkept.congr rfl⟩
  · have hmem : name' ∈ name :: host.unrecorded := hname
    rw [h.unrecorded] at hmem
    rw [List.mem_singleton.1 hmem]
  · show name :: host.unrecorded ⊆ [name]
    rw [h.unrecorded]
    exact List.Subset.refl _

/-- An operation that returns has recorded its end; one that raises or is killed has left the
action pending, or recorded that it was refused. -/
theorem Ready.operation {name : ActionName} {call : NativeCall}
    (h : Ready revisionLabel state host) (hphase : state.phase.settled = false)
    (hup : state.up_intent = false → ∀ revision, call ≠ .up revision) :
    Leads (operation revisionLabel name call) host
      (fun value host' ↦ ∃ image healthy,
        call.returned? revisionLabel host.docker image healthy = some (value, host'.docker) ∧
        Ready revisionLabel { state with native_action := some ⟨name, .returned⟩ } host' ∧
        host'.disk = some (Journal.toJson { state with native_action := some ⟨name, .returned⟩ }) ∧
        host'.current = host.current ∧ host'.backups = host.backups)
      (fun _ host' ↦ Held revisionLabel host' state.deal)
      (Left revisionLabel · state.deal) := by
  have hset : Ready revisionLabel { state with native_action := some ⟨name, .pending⟩ }
      { host with memory := some { state with native_action := some ⟨name, .pending⟩ } } :=
    h.setState rfl h.untouched
  have hpersist := hset.persist state.phase (truthful_of_pending hset.kept rfl)
  refine .bind (.getState h.memory (.bind (.setState (.seq hpersist ?_ (fun e host' hr ↦ hr.1.held)
    fun _ ↦ id))))
  rintro - host₂ ⟨hready, hdisk, hcurrent, hbackups, hdocker⟩
  change host₂.docker = host.docker at hdocker
  -- the action is pending on disk, so whatever it does to the daemon is left truthfully
  have hunderway (docker : Docker) :
      Underway revisionLabel state name { host₂.invoking name call with docker := docker } :=
    hready.underway state hdisk docker
  have htouched (docker : Docker) (hd : (∀ revision, call ≠ .up revision) →
      docker.container = host₂.docker.container) (hu : state.up_intent = false) :
      docker.container = state.oldContainer := by
    rw [hd (hup hu), hdocker]
    exact h.untouched hu
  refine .bind (.handle (.invoke (fun image healthy value docker hcall ↦ ?_)
    (fun e docker hd ↦ ?_) fun docker ↦ (hunderway docker).left))
  · refine .seq ((hunderway docker).completeOperation hphase (by decide)
      (htouched docker fun hnot ↦ NativeCall.container_returned hnot hcall)) ?_ (fun _ _ ↦ id)
      fun _ ↦ id
    rintro - host₄ ⟨hready', hdisk', hcurrent', hbackups', hdocker'⟩
    refine .pure ⟨image, healthy, ?_, hready', hdisk', hcurrent'.trans hcurrent,
      hbackups'.trans hbackups⟩
    rw [hdocker', ← hdocker]
    exact hcall
  · cases e with
    | refusal message =>
      refine .seq ((hunderway docker).completeOperation hphase (by decide) (htouched docker hd)) ?_
        (fun _ _ ↦ id) fun _ ↦ id
      rintro - host₄ ⟨hready', -, -⟩
      exact .raise hready'.held
    | _ => exact .raise (hunderway docker).held

/-- The checkouts change places. -/
theorem exchange_of_newInPlace (h : NewInPlace state host) :
    OldInPlace state (host.exchange state.id) := by
  obtain ⟨hcurrent, hbackup⟩ := h
  simp only [OldInPlace, Host.exchange, hbackup, hcurrent, Function.update_self, and_self]

theorem exchange_of_oldInPlace (h : OldInPlace state host) :
    NewInPlace state (host.exchange state.id) := by
  obtain ⟨hcurrent, hbackup⟩ := h
  simp only [NewInPlace, Host.exchange, hbackup, hcurrent, Function.update_self, and_self]

/-- An exchange touches nothing but the checkouts. -/
theorem Host.exchange_eq (ident : String) : ∃ current backups effects, host.exchange ident =
    { host with current := current, backups := backups, effects := effects } := by
  unfold Host.exchange
  split
  · exact ⟨_, _, _, rfl⟩
  · exact ⟨_, _, _, rfl⟩

/-- An exchange in a transaction that is under way. -/
theorem Ready.exchange (h : Ready revisionLabel state host)
    (hdisk : host.disk = some state.toJson) (hphase : state.phase.settled = false) :
    Ready revisionLabel state (host.exchange state.id) ∧
      (host.exchange state.id).disk = some state.toJson ∧
        (host.exchange state.id).docker = host.docker := by
  have hkept : Kept revisionLabel state (host.exchange state.id) :=
    ⟨h.kept.valid, h.kept.label, h.kept.inode_ne,
      h.kept.custody.symm.imp exchange_of_newInPlace exchange_of_oldInPlace⟩
  obtain ⟨current, backups, effects, heq⟩ := host.exchange_eq state.id
  rw [heq] at hkept ⊢
  exact ⟨⟨⟨⟨state, hdisk, rfl, truthful_of_unsettled hkept hphase h.untouched⟩, h.left.recorded,
    h.left.written⟩, h.memory, h.unrecorded, hkept, h.untouched⟩, hdisk, rfl⟩

/-- The inodes tell which checkout is in place. -/
theorem Kept.oldInPlace_of_inodes {pair : ℕ × ℕ} (h : Kept revisionLabel state host)
    (hpair : inodes state.id host = .ok pair) :
    (pair = (state.new_inode, state.old_inode) → NewInPlace state host) ∧
      (pair ≠ (state.new_inode, state.old_inode) → OldInPlace state host) := by
  rcases h.custody with hold | hnew
  · simp only [inodes, hold.2, hold.1, Except.ok.injEq] at hpair
    subst hpair
    exact ⟨fun heq ↦ absurd (Prod.mk.inj heq).1 h.inode_ne, fun _ ↦ hold⟩
  · simp only [inodes, hnew.2, hnew.1, Except.ok.injEq] at hpair
    subst hpair
    exact ⟨fun _ ↦ hnew, fun hne ↦ absurd rfl hne⟩

theorem Ready.restoreCheckout (h : Ready revisionLabel state host) :
    Leads (restoreCheckout state) host
      (fun _ host' ↦ Ready revisionLabel { state with phase := .recoveryIntent } host' ∧
        OldInPlace state host')
      (fun _ host' ↦ Held revisionLabel host' state.deal)
      (Left revisionLabel · state.deal) := by
  refine .bind (.observe (fun pair hpair ↦ ?_) (fun _ ↦ h.held) h.left)
  obtain ⟨hnew, hold⟩ := h.kept.oldInPlace_of_inodes hpair
  refine .seq (h.persist .recoveryIntent (truthful_of_unsettled (h.kept.congr rfl) rfl h.untouched))
    ?_ (fun _ _ hr ↦ hr.1.held) fun _ ↦ id
  rintro - host₁ ⟨hready, hdisk, hcurrent, hbackups, -⟩
  split_ifs with heq
  · have hnew' : NewInPlace state host₁ := by
      unfold NewInPlace
      rw [hcurrent, hbackups]
      exact hnew heq
    obtain ⟨hexchanged, -⟩ := hready.exchange hdisk rfl
    exact .attempt ⟨hexchanged, exchange_of_newInPlace hnew'⟩
      (fun _ ↦ ⟨hexchanged.held, hready.held⟩) ⟨hexchanged.left, hready.left⟩
  · refine .require (fun _ ↦ ⟨hready, ?_⟩) fun _ ↦ hready.held
    unfold OldInPlace
    rw [hcurrent, hbackups]
    exact hold heq

/-- The transaction is rolled back and the host is as it was. -/
def RolledBack (revisionLabel : String → String) (deal : Journal) (host : Host) : Prop :=
  Left revisionLabel host deal ∧ ∃ state : Journal, host.disk = some state.toJson ∧
    state.deal = deal ∧ state.pending = false ∧ state.phase = .rolledBack ∧ Restored state host

/-- The last write of a rollback. -/
theorem Ready.persist_rolledBack (h : Ready revisionLabel state host) (hp : state.pending = false)
    (hrestored : Restored state host) :
    Leads (Deploy.persist .rolledBack) host
      (fun _ host' ↦ RolledBack revisionLabel state.deal host')
      (fun _ host' ↦ Held revisionLabel host' state.deal)
      (Left revisionLabel · state.deal) := by
  have htruth : Truthful revisionLabel { state with phase := .rolledBack } host :=
    ⟨h.kept.congr rfl, fun _ ↦ h.untouched, fun _ hnot ↦ (by cases hnot), fun _ _ ↦
      ⟨hrestored.checkout, hrestored.latest, hrestored.container⟩⟩
  refine (h.persist .rolledBack htruth).mono ?_ (fun _ _ hr ↦ hr.1.held) fun _ ↦ id
  rintro - host₁ ⟨hready, hdisk, hcurrent, hbackups, hdocker⟩
  refine ⟨hready.left, _, hdisk, rfl, hp, rfl, ?_, ?_, ?_⟩
  · show OldInPlace state host₁
    unfold OldInPlace
    rw [hcurrent, hbackups]
    exact hrestored.checkout
  · rw [hdocker]
    exact hrestored.latest
  · rw [hdocker]
    exact hrestored.container

/-- A place depends on the checkouts only. -/
theorem OldInPlace.of_checkouts (h : OldInPlace state host) (hcurrent : host'.current = host.current)
    (hbackups : host'.backups = host.backups) : OldInPlace state host' := by
  unfold OldInPlace
  rw [hcurrent, hbackups]
  exact h

theorem NewInPlace.of_checkouts (h : NewInPlace state host) (hcurrent : host'.current = host.current)
    (hbackups : host'.backups = host.backups) : NewInPlace state host' := by
  unfold NewInPlace
  rw [hcurrent, hbackups]
  exact h

/-- The old image is tagged, and the container is the old one again when it was touched. -/
theorem Ready.restoreImage {origin : Journal} (h : Ready revisionLabel state host)
    (hphase : state.phase = .recoveryIntent) (hold : OldInPlace state host)
    (hdeal : origin.deal = state.deal) (hup : origin.up_intent = state.up_intent) :
    Leads (restoreImage revisionLabel origin) host
      (fun _ host' ↦ RolledBack revisionLabel state.deal host')
      (fun _ host' ↦ Held revisionLabel host' state.deal)
      (Left revisionLabel · state.deal) := by
  have himage : origin.deal.image = state.deal.image := congrArg Journal.image hdeal
  change origin.image = state.image at himage
  have hunsettled : state.phase.settled = false := by rw [hphase]; rfl
  refine .seq (h.operation hunsettled fun _ _ ↦ by nofun) ?_ (fun _ _ ↦ id) fun _ ↦ id
  rintro _ host₁ ⟨_, _, hcall, hready, -, hcurrent, hbackups⟩
  have hdocker : host₁.docker =
      { host.docker with tags := Function.update host.docker.tags "latest" (some state.image) } := by
    rw [← himage]
    exact ((Prod.mk.inj (Option.some.inj hcall)).2).symm
  have hlatest : host₁.docker.tags "latest" = some state.image := by
    rw [hdocker]
    show Function.update host.docker.tags "latest" (some state.image) "latest" = some state.image
    exact Function.update_self ..
  have hold₁ : OldInPlace state host₁ := hold.of_checkouts hcurrent hbackups
  split_ifs with htouched
  · rw [hup] at htouched
    refine .seq (hready.operation hunsettled fun hnot ↦ ?_) ?_ (fun _ _ ↦ id) fun _ ↦ id
    · rw [show state.up_intent = false from hnot] at htouched
      cases htouched
    rintro _ host₂ ⟨_, healthy, hcall₂, hready₂, -, hcurrent₂, hbackups₂⟩
    simp only [NativeCall.returned?, hlatest, Option.map_some, Option.some.injEq,
      Prod.mk.injEq] at hcall₂
    refine .seq (hready₂.operation hunsettled fun _ _ ↦ by nofun) ?_ (fun _ _ ↦ id) fun _ ↦ id
    rintro _ host₃ ⟨_, _, hcall₃, hready₃, -, hcurrent₃, hbackups₃⟩
    simp only [NativeCall.returned?, himage] at hcall₃
    split_ifs at hcall₃ with hhealth
    have hdocker₃ : host₃.docker = host₂.docker := ((Prod.mk.inj (Option.some.inj hcall₃)).2).symm
    refine hready₃.persist_rolledBack rfl ⟨?_, ?_, ?_⟩
    · exact (hold₁.of_checkouts hcurrent₂ hbackups₂).of_checkouts hcurrent₃ hbackups₃
    · rw [hdocker₃, ← hcall₂.2]
      exact hlatest
    · rw [hdocker₃]
      exact hhealth.2
  · rw [hup, Bool.not_eq_true] at htouched
    exact hready.persist_rolledBack rfl ⟨hold₁, hlatest, hready.untouched htouched⟩

/-- `rollback` ends with the host as it was, or leaves what it was about. -/
theorem Held.rollback (h : Held revisionLabel host deal) :
    Leads (rollback revisionLabel) host
      (fun _ host' ↦ RolledBack revisionLabel deal host')
      (fun _ host' ↦ Held revisionLabel host' deal)
      (Left revisionLabel · deal) := by
  obtain ⟨hleft, state, hmemory, rfl, hpending⟩ := h
  refine .bind (.getState hmemory (.bind (.require (fun hguard ↦ ?_) fun _ ↦
    ⟨hleft, state, hmemory, rfl, hpending⟩)))
  have hready : Ready revisionLabel state host := by
    refine hpending.resolve_left fun hp ↦ ?_
    rw [hp] at hguard
    cases hguard
  refine .seq hready.restoreCheckout (fun _ host' hrestored ↦ ?_) (fun _ _ ↦ id) fun _ ↦ id
  exact hrestored.1.restoreImage rfl hrestored.2 rfl rfl

/-- The new image is built and tagged, and nothing else has changed. -/
theorem Ready.buildCandidate {revision : String} (h : Ready revisionLabel state host)
    (hphase : state.phase = .buildIntent) (hup : state.up_intent = false)
    (hold : OldInPlace state host) :
    Leads (buildCandidate revisionLabel state.image revision) host
      (fun candidate host' ↦ host'.docker.tags "latest" = some candidate ∧
        revisionLabel candidate = revision ∧
        ∃ state' : Journal, Ready revisionLabel state' host' ∧ state'.deal = state.deal ∧
          state'.phase = .buildIntent ∧ state'.up_intent = false ∧ OldInPlace state' host')
      (fun _ host' ↦ Held revisionLabel host' state.deal)
      (Left revisionLabel · state.deal) := by
  have hunsettled : state.phase.settled = false := by rw [hphase]; rfl
  refine .seq (h.operation hunsettled fun _ _ ↦ by nofun) ?_ (fun _ _ ↦ id) fun _ ↦ id
  rintro _ host₁ ⟨_, _, -, hready₁, -, hcurrent₁, hbackups₁⟩
  refine .seq (hready₁.operation hunsettled fun _ _ ↦ by nofun) ?_ (fun _ _ ↦ id) fun _ ↦ id
  rintro _ host₂ ⟨_, _, -, hready₂, -, hcurrent₂, hbackups₂⟩
  refine .seq (hready₂.operation hunsettled fun _ _ ↦ by nofun) ?_ (fun _ _ ↦ id) fun _ ↦ id
  rintro candidate host₃ ⟨_, _, hcall₃, hready₃, -, hcurrent₃, hbackups₃⟩
  refine .seq (hready₃.operation hunsettled fun _ _ ↦ by nofun) ?_ (fun _ _ ↦ id) fun _ ↦ id
  rintro _ host₄ ⟨_, _, hcall₄, hready₄, -, hcurrent₄, hbackups₄⟩
  obtain ⟨latest, hlatest, heq⟩ := Option.map_eq_some_iff.1 hcall₃
  obtain ⟨rfl, hdocker₃⟩ := Prod.mk.inj heq
  simp only [NativeCall.returned?] at hcall₄
  split_ifs at hcall₄ with hlabel
  have hdocker₄ : host₄.docker = host₃.docker := ((Prod.mk.inj (Option.some.inj hcall₄)).2).symm
  refine .pure ⟨?_, hlabel, _, hready₄, rfl, hphase, hup, ?_⟩
  · rw [hdocker₄, ← hdocker₃]
    exact (Option.filter_eq_some_iff.1 hlatest).1
  · exact (((hold.of_checkouts hcurrent₁ hbackups₁).of_checkouts hcurrent₂ hbackups₂).of_checkouts
      hcurrent₃ hbackups₃).of_checkouts hcurrent₄ hbackups₄

/-- The new checkout is in place, and the journal says that the container may be touched. -/
theorem Ready.exchangeCheckout {ident : String} (h : Ready revisionLabel state host)
    (hident : state.id = ident) (hup : state.up_intent = false) (hold : OldInPlace state host) :
    Leads (exchangeCheckout ident) host
      (fun _ host' ↦ host'.docker = host.docker ∧
        ∃ state' : Journal, Ready revisionLabel state' host' ∧ state'.deal = state.deal ∧
          state'.phase = .upIntent ∧ state'.up_intent = true ∧ NewInPlace state' host')
      (fun _ host' ↦ Held revisionLabel host' state.deal)
      (Left revisionLabel · state.deal) := by
  subst hident
  refine .seq (h.persist .exchangeIntent (truthful_of_unsettled (h.kept.congr rfl) rfl h.untouched))
    ?_ (fun _ _ hr ↦ hr.1.held) fun _ ↦ id
  rintro - host₁ ⟨hready₁, hdisk₁, hcurrent₁, hbackups₁, hdocker₁⟩
  obtain ⟨hready₂, hdisk₂, hdocker₂⟩ := hready₁.exchange hdisk₁ rfl
  have hnew : NewInPlace state (host₁.exchange state.id) :=
    exchange_of_oldInPlace (hold.of_checkouts hcurrent₁ hbackups₁)
  refine .bind (.attempt ?_ (fun _ ↦ ⟨hready₂.held, hready₁.held⟩) ⟨hready₂.left, hready₁.left⟩)
  refine .bind (.getState hready₂.memory (.bind (.setState (.handle ?_))))
  have htouched : (host₁.exchange state.id).docker.container = state.oldContainer := by
    rw [hdocker₂, hdocker₁]
    exact h.untouched hup
  have hset : Ready revisionLabel { state with phase := .exchangeIntent, up_intent := true }
      { host₁.exchange state.id with
        memory := some { state with phase := .exchangeIntent, up_intent := true } } :=
    hready₂.setState rfl fun hnot ↦ by cases hnot
  refine (hset.persist .upIntent (truthful_of_unsettled (hset.kept.congr rfl) rfl
    hset.untouched)).mono ?_ ?_ fun _ ↦ id
  · rintro - host₃ ⟨hready₃, -, hcurrent₃, hbackups₃, hdocker₃⟩
    refine ⟨by rw [hdocker₃, ← hdocker₁, ← hdocker₂], _, hready₃, rfl, rfl, rfl, ?_⟩
    exact hnew.of_checkouts hcurrent₃ hbackups₃
  · rintro e host₃ ⟨hready₃, -, -, hdocker₃⟩
    split_ifs
    · have hback : Ready revisionLabel { state with phase := .upIntent, up_intent := false }
          { host₃ with memory := some { state with phase := .upIntent, up_intent := false } } :=
        hready₃.setState rfl fun _ ↦ by
          rw [hdocker₃]
          exact htouched
      exact .bind (.getState hready₃.memory (.bind (.setState (.raise hback.held))))
    · exact .raise hready₃.held

/-- The transaction is committed and the new revision installed. -/
def Committed (revisionLabel : String → String) (deal : Journal) (host : Host) : Prop :=
  Left revisionLabel host deal ∧ ∃ state : Journal, host.disk = some state.toJson ∧
    state.deal = deal ∧ state.pending = false ∧ state.phase = .committed ∧
      Installed revisionLabel state host

/-- The candidate runs and is healthy, its revision is tagged, and the transaction committed. -/
theorem Ready.bringUp {candidate revision : String} (h : Ready revisionLabel state host)
    (hphase : state.phase = .upIntent) (hup : state.up_intent = true) (hnew : NewInPlace state host)
    (hrevision : state.new_sha = revision) (hlatest : host.docker.tags "latest" = some candidate)
    (hlabel : revisionLabel candidate = revision) :
    Leads (bringUp revisionLabel candidate revision) host
      (fun _ host' ↦ Committed revisionLabel state.deal host')
      (fun _ host' ↦ Held revisionLabel host' state.deal)
      (Left revisionLabel · state.deal) := by
  have hunsettled : state.phase.settled = false := by rw [hphase]; rfl
  have htouch (hnot : state.up_intent = false) (call : NativeCall) (revision : String) :
      call ≠ .up revision := by rw [hup] at hnot; cases hnot
  refine .seq (h.operation hunsettled (htouch · _)) ?_ (fun _ _ ↦ id) fun _ ↦ id
  rintro _ host₁ ⟨_, _, hcall₁, hready₁, -, hcurrent₁, hbackups₁⟩
  simp only [NativeCall.returned?, hlatest, Option.map_some, Option.some.injEq,
    Prod.mk.injEq] at hcall₁
  refine .seq (hready₁.operation hunsettled (htouch · _)) ?_ (fun _ _ ↦ id) fun _ ↦ id
  rintro _ host₂ ⟨_, _, hcall₂, hready₂, -, hcurrent₂, hbackups₂⟩
  simp only [NativeCall.returned?] at hcall₂
  split_ifs at hcall₂ with hhealth
  have hdocker₂ : host₂.docker = host₁.docker := ((Prod.mk.inj (Option.some.inj hcall₂)).2).symm
  refine .seq (hready₂.operation hunsettled (htouch · _)) ?_ (fun _ _ ↦ id) fun _ ↦ id
  rintro _ host₃ ⟨_, _, hcall₃, hready₃, -, hcurrent₃, hbackups₃⟩
  have hdocker₃ := (Prod.mk.inj (Option.some.inj hcall₃)).2
  have hnew₃ : NewInPlace state host₃ := ((hnew.of_checkouts hcurrent₁ hbackups₁).of_checkouts
    hcurrent₂ hbackups₂).of_checkouts hcurrent₃ hbackups₃
  -- a revision is no tag of the service
  have hne : "latest" ≠ revision := by
    rintro rfl
    have hsha : isSha state.new_sha = true := h.kept.valid.new_sha
    rw [hrevision] at hsha
    exact absurd hsha (by decide)
  have hinstalled : Installed revisionLabel state host₃ := by
    refine ⟨hnew₃, candidate, ?_, ?_, by rw [hlabel, hrevision]⟩
    · rw [← hdocker₃]
      show Function.update host₂.docker.tags revision (some candidate) "latest" = some candidate
      rw [Function.update_of_ne hne, hdocker₂, ← hcall₁.2]
      exact hlatest
    · rw [← hdocker₃]
      show host₂.docker.container = _
      rw [hdocker₂]
      exact hhealth.2
  have htruth : Truthful revisionLabel
      { state with phase := .committed, native_action := some ⟨.tagRelease, .returned⟩ } host₃ :=
    ⟨hready₃.kept.congr rfl, fun _ ↦ hready₃.untouched, fun _ _ ↦
      ⟨hinstalled.checkout, hinstalled.container⟩, fun _ hnot ↦ by cases hnot⟩
  refine (hready₃.persist .committed htruth).mono ?_ (fun _ _ hr ↦ hr.1.held) fun _ ↦ id
  rintro - host₄ ⟨hready₄, hdisk₄, hcurrent₄, hbackups₄, hdocker₄⟩
  refine ⟨hready₄.left, _, hdisk₄, rfl, rfl, rfl, ?_, ?_⟩
  · exact hinstalled.checkout.of_checkouts hcurrent₄ hbackups₄
  · rw [hdocker₄]
    exact hinstalled.container

/-- `deploy` from its first action to its commit. -/
theorem Ready.deployActions {revision ident : String} (h : Ready revisionLabel state host)
    (hphase : state.phase = .buildIntent) (hup : state.up_intent = false)
    (hold : OldInPlace state host) (hident : state.id = ident)
    (hrevision : state.new_sha = revision) :
    Leads (deployActions revisionLabel state.image revision ident) host
      (fun _ host' ↦ Committed revisionLabel state.deal host')
      (fun _ host' ↦ Held revisionLabel host' state.deal)
      (Left revisionLabel · state.deal) := by
  refine .seq (h.buildCandidate hphase hup hold) ?_ (fun _ _ ↦ id) fun _ ↦ id
  rintro candidate host₁ ⟨hlatest, hlabel, state₁, hready₁, hdeal₁, hphase₁, hup₁, hold₁⟩
  rw [← hdeal₁]
  have hid₁ : state₁.deal.id = state.deal.id := congrArg Journal.id hdeal₁
  have hsha₁ : state₁.deal.new_sha = state.deal.new_sha := congrArg Journal.new_sha hdeal₁
  refine .seq (hready₁.exchangeCheckout (hid₁.trans hident) hup₁ hold₁) ?_ (fun _ _ ↦ id)
    fun _ ↦ id
  rintro - host₂ ⟨hdocker₂, state₂, hready₂, hdeal₂, hphase₂, hup₂, hnew₂⟩
  rw [← hdeal₂]
  have hsha₂ : state₂.deal.new_sha = state₁.deal.new_sha := congrArg Journal.new_sha hdeal₂
  exact hready₂.bringUp hphase₂ hup₂ hnew₂ (hsha₂.trans (hsha₁.trans hrevision))
    (by rw [hdocker₂]; exact hlatest) hlabel

/-- What fails after the journal is written is rolled back, or left to a recovery. -/
theorem Held.deployFailed {e : Exc} (h : Held revisionLabel host deal) :
    Leads (deployFailed revisionLabel e) host (fun _ _ ↦ False)
      (fun _ host' ↦ Left revisionLabel host' deal) (Left revisionLabel · deal) := by
  have hrollback : ∀ block : Exc → Tx Unit, (∀ e, ∃ e', block e = Program.raise e') →
      Leads (Program.handle (Deploy.rollback revisionLabel) block) host
        (fun _ host' ↦ Left revisionLabel host' deal)
        (fun _ host' ↦ Left revisionLabel host' deal) (Left revisionLabel · deal) := by
    intro block hblock
    refine .handle (h.rollback.mono (fun _ _ hq ↦ hq.1) (fun e host' hr ↦ ?_) fun _ ↦ id)
    obtain ⟨e', he'⟩ := hblock e
    rw [he']
    exact .raise hr.left
  cases e with
  | nativeOutcomeUnknown message => exact .raise h.left
  | keyboardInterrupt => exact .raise h.left
  | other => exact .raise h.left
  | refusal message =>
    exact .seq (hrollback _ fun e ↦ by cases e <;> exact ⟨_, rfl⟩) (fun _ _ hq ↦ .raise hq)
      (fun _ _ ↦ id) fun _ ↦ id
  | osError =>
    exact .seq (hrollback _ fun e ↦ by cases e <;> exact ⟨_, rfl⟩) (fun _ _ hq ↦ .raise hq)
      (fun _ _ ↦ id) fun _ ↦ id
  | valueError =>
    exact .seq (hrollback _ fun e ↦ by cases e <;> exact ⟨_, rfl⟩) (fun _ _ hq ↦ .raise hq)
      (fun _ _ ↦ id) fun _ ↦ id

end Methods

end ModelConnector.Deploy
