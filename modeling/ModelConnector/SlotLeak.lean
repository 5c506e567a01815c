import ModelConnector.Connectors.CliExecute
import ModelConnector.SlotGrants

/-!
# Slots are given back

An execution gives its slot back in the `finally` block of a `try` statement, which it enters only
after its budget is resolved and its working directory is made. `slots_returned_iff` says what this
comes to over every interleaving of executions: each gives its slot back exactly once if nothing
fails between the semaphore and the `try` block, and the semaphore is back at zero when all
executions have ended if and only if nothing failed there.
-/

namespace ModelConnector.Connectors.Executions

variable {s s' : Executions} {h : List (Executions × ExecuteEvent)} {e : ExecuteEvent} {i : ℕ}

/-! ### The history -/

/-- The execution gives its slot back. -/
def gives (i : ℕ) : ExecuteEvent → Bool
  | .finished j _ => i == j
  | _ => false

/-- How often the execution was given a slot. -/
def acquisitions (i : ℕ) (h : List (Executions × ExecuteEvent)) : ℕ :=
  h.countP fun p ↦ p.2 == .acquired i

/-- How often it gave one back. -/
def releases (i : ℕ) (h : List (Executions × ExecuteEvent)) : ℕ :=
  h.countP fun p ↦ gives i p.2

/-- How often it failed between the two. -/
def failures (i : ℕ) (h : List (Executions × ExecuteEvent)) : ℕ :=
  h.countP fun p ↦ p.2 == .prepared i false

/-- What the phase of an execution says. -/
def ask (s : Executions) (f : ExecutePhase → Option ℕ) (i : ℕ) : Option ℕ :=
  (s.phases[i]?).bind f

/-- The call whose slot a step leaves behind. -/
def leaking : Executions × ExecuteEvent → Option ℕ
  | (s, .prepared i false) => s.ask ExecutePhase.call? i
  | _ => none

/-- The calls whose slots were left behind. -/
def leaked (h : List (Executions × ExecuteEvent)) : List ℕ :=
  h.filterMap leaking

/-! ### What a step does -/

/-- What a step does to the slots, and to the execution it is about. -/
inductive Stepped (s : Executions) : ExecuteEvent → Executions → Prop
  | refused {admission : CliAdmission} {result : ExecuteResult} :
      Stepped s (.start admission) (s.enter (.ended result))
  | queued {queueTimeoutMs : ℕ} {slots : Slots} :
      s.slots.step (.acquire (some queueTimeoutMs)) = some slots →
      Stepped s (.start (.admitted queueTimeoutMs)) (enter { s with slots } (.queued s.slots.calls))
  | timedOut {i call : ℕ} {slots : Slots} {result : ExecuteResult} :
      s.phases[i]? = some (.queued call) → s.slots.step (.timeout call) = some slots →
      Stepped s (.queueTimeout i) (move { s with slots } i (.ended result))
  | acquired {i call : ℕ} : s.phases[i]? = some (.queued call) → call ∈ s.slots.holding →
      Stepped s (.acquired i) (s.move i (.preparing call))
  | prepared {i call : ℕ} : s.phases[i]? = some (.preparing call) →
      Stepped s (.prepared i true)
        (move { s with activeJobs := s.activeJobs + 1 } i (.attempting call))
  | failed {i call : ℕ} : s.phases[i]? = some (.preparing call) →
      Stepped s (.prepared i false) (s.move i (.ended .threw))
  | finished {i call : ℕ} {slots : Slots} {tryEnd : TryEnd} :
      s.phases[i]? = some (.attempting call) → s.slots.step (.release call) = some slots →
      Stepped s (.finished i tryEnd)
        (move { s with slots, activeJobs := s.activeJobs - 1 } i (.ended tryEnd.result))

theorem stepped_of_step (hs : s.step e = some s') : Stepped s e s' := by
  cases e with
  | start admission =>
    cases admission with
    | admitted queueTimeoutMs =>
      obtain ⟨slots, hslots, rfl⟩ := Option.map_eq_some_iff.1 hs
      exact .queued hslots
    | unsupportedModality | circuitOpen | threw =>
      obtain rfl := Option.some.inj hs
      exact .refused
  | queueTimeout i =>
    simp only [step] at hs
    split at hs
    · rename_i call hphase
      obtain ⟨slots, hslots, rfl⟩ := Option.map_eq_some_iff.1 hs
      exact .timedOut hphase hslots
    · cases hs
  | acquired i =>
    simp only [step] at hs
    split at hs
    · rename_i call hphase
      split_ifs at hs with hholds
      obtain rfl := Option.some.inj hs
      exact .acquired hphase hholds
    · cases hs
  | prepared i made =>
    simp only [step] at hs
    split at hs
    · rename_i call hphase
      cases made with
      | true =>
        obtain rfl := Option.some.inj hs
        exact .prepared hphase
      | false =>
        obtain rfl := Option.some.inj hs
        exact .failed hphase
    · cases hs
  | finished i tryEnd =>
    simp only [step] at hs
    split at hs
    · rename_i call hphase
      obtain ⟨slots, hslots, rfl⟩ := Option.map_eq_some_iff.1 hs
      exact .finished hphase hslots
    · cases hs

/-- The slots go through a run of their own. -/
theorem slots_of_run {max : ℕ} (hr : Run step (init max) h s) :
    ∃ hs, Run Slots.step (Slots.init max) hs s.slots := by
  induction hr with
  | nil => exact ⟨[], .nil⟩
  | snoc _ hstep ih =>
    obtain ⟨hs, hslots⟩ := ih
    cases stepped_of_step hstep with
    | queued hslot => exact ⟨_, hslots.snoc hslot⟩
    | timedOut _ hslot => exact ⟨_, hslots.snoc hslot⟩
    | finished _ hslot => exact ⟨_, hslots.snoc hslot⟩
    | refused | acquired _ _ | prepared _ | failed _ => exact ⟨hs, hslots⟩

theorem sound_of_run {max : ℕ} (hr : Run step (init max) h s) :
    ∃ waits handed expired, Slots.Sound waits handed expired s.slots :=
  let ⟨_, hslots⟩ := slots_of_run hr
  ⟨_, _, _, (Slots.sound_of_run hslots).1⟩

/-! ### One execution -/

/-- The execution an event is about, when it has begun before. -/
def subject : ExecuteEvent → Option ℕ
  | .start _ => none
  | .queueTimeout i => some i
  | .acquired i => some i
  | .prepared i _ => some i
  | .finished i _ => some i

/-- What the history says of an execution in a phase. -/
def Counted (h : List (Executions × ExecuteEvent)) (i : ℕ) : Option ExecutePhase → Prop
  | none => acquisitions i h = 0 ∧ releases i h = 0 ∧ failures i h = 0
  | some (.queued _) => acquisitions i h = 0 ∧ releases i h = 0 ∧ failures i h = 0
  | some (.preparing _) => acquisitions i h = 1 ∧ releases i h = 0 ∧ failures i h = 0
  | some (.attempting _) => acquisitions i h = 1 ∧ releases i h = 0 ∧ failures i h = 0
  | some (.ended _) => acquisitions i h ≤ 1 ∧
      acquisitions i h = releases i h + failures i h

/-- What an event counts for. -/
theorem counts_snoc (i : ℕ) (h : List (Executions × ExecuteEvent)) (s : Executions)
    (e : ExecuteEvent) :
    acquisitions i (h ++ [(s, e)]) = acquisitions i h + (if e = .acquired i then 1 else 0) ∧
      releases i (h ++ [(s, e)]) = releases i h + (if gives i e = true then 1 else 0) ∧
      failures i (h ++ [(s, e)]) = failures i h + (if e = .prepared i false then 1 else 0) := by
  simp only [acquisitions, releases, failures, List.countP_append, List.countP_singleton,
    beq_iff_eq, and_self]

/-- An event about another execution does not count. -/
theorem counts_of_subject_ne (hne : subject e ≠ some i) :
    acquisitions i (h ++ [(s, e)]) = acquisitions i h ∧
      releases i (h ++ [(s, e)]) = releases i h ∧ failures i (h ++ [(s, e)]) = failures i h := by
  obtain ⟨hacq, hrel, hfail⟩ := counts_snoc i h s e
  have hgives : gives i e ≠ true := by
    cases e <;> intro hgives
    case finished j tryEnd => exact hne (congrArg some (beq_iff_eq.1 hgives).symm)
    all_goals cases hgives
  rw [if_neg (by rintro rfl; exact hne rfl)] at hacq hfail
  rw [if_neg hgives] at hrel
  exact ⟨hacq, hrel, hfail⟩

theorem counted_of_subject_ne {phase : Option ExecutePhase} (hne : subject e ≠ some i)
    (hc : Counted h i phase) : Counted (h ++ [(s, e)]) i phase := by
  obtain ⟨hacq, hrel, hfail⟩ := counts_of_subject_ne (s := s) (h := h) hne
  unfold Counted
  rw [hacq, hrel, hfail]
  exact hc

/-- The phases after one of them changed. -/
theorem getElem?_move {phase old : ExecutePhase} {slots : Slots} {activeJobs : ℤ}
    (hphase : s.phases[i]? = some old) (j : ℕ) :
    (move { s with slots, activeJobs } i phase).phases[j]? =
      if i = j then some phase else s.phases[j]? := by
  have hlt := (List.getElem?_eq_some_iff.1 hphase).1
  simp only [move, List.getElem?_set, hlt, if_true]

/-- The phases after an execution began. -/
theorem getElem?_enter {phase : ExecutePhase} {slots : Slots} (j : ℕ) :
    (enter { s with slots } phase).phases[j]? =
      if j = s.phases.length then some phase else s.phases[j]? := by
  simp only [enter]
  split_ifs with hj
  · rw [hj, List.getElem?_concat_length]
  · rcases Nat.lt_or_gt_of_ne hj with hlt | hgt
    · rw [List.getElem?_append_left hlt]
    · rw [List.getElem?_eq_none (by simp; omega), List.getElem?_eq_none hgt.le]

/-- The counts after one execution moved. -/
theorem counted_move {phase old : ExecutePhase} {slots : Slots} {activeJobs : ℤ}
    (hc : ∀ j, Counted h j s.phases[j]?) (hsubject : subject e = some i)
    (hphase : s.phases[i]? = some old) (hmoved : Counted (h ++ [(s, e)]) i (some phase)) (j : ℕ) :
    Counted (h ++ [(s, e)]) j (move { s with slots, activeJobs } i phase).phases[j]? := by
  rw [getElem?_move hphase]
  split_ifs with hij
  · exact hij ▸ hmoved
  · refine counted_of_subject_ne (fun heq ↦ hij ?_) (hc j)
    exact Option.some.inj (hsubject.symm.trans heq)

/-- The counts after an execution began. -/
theorem counted_enter {phase : ExecutePhase} {slots : Slots} {admission : CliAdmission}
    (hc : ∀ j, Counted h j s.phases[j]?)
    (hnew : ∀ j, Counted h j none → Counted h j (some phase)) (j : ℕ) :
    Counted (h ++ [(s, .start admission)]) j (enter { s with slots } phase).phases[j]? := by
  refine counted_of_subject_ne (fun heq ↦ by cases heq) ?_
  rw [getElem?_enter]
  split_ifs with hj
  · refine hnew j ?_
    have hcj := hc j
    rwa [hj, List.getElem?_eq_none le_rfl, ← hj] at hcj
  · exact hc j

theorem counted_step (hc : ∀ j, Counted h j s.phases[j]?) (hs : Stepped s e s') :
    ∀ j, Counted (h ++ [(s, e)]) j s'.phases[j]? := by
  cases hs with
  | refused =>
    refine counted_enter hc fun j hnone ↦ ?_
    obtain ⟨hacq, hrel, hfail⟩ := hnone
    exact ⟨by omega, by omega⟩
  | queued hslot => exact counted_enter hc fun j hnone ↦ hnone
  | @timedOut i _ _ _ hphase hslot =>
    have hi := hc i
    rw [hphase] at hi
    obtain ⟨hacq, hrel, hfail⟩ := hi
    obtain ⟨hacq', hrel', hfail'⟩ := counts_snoc i h s (.queueTimeout i)
    simp only [reduceCtorEq, if_false, gives, Bool.false_eq_true] at hacq' hrel' hfail'
    exact counted_move hc rfl hphase ⟨by omega, by omega⟩
  | @acquired i _ hphase hholds =>
    have hi := hc i
    rw [hphase] at hi
    obtain ⟨hacq, hrel, hfail⟩ := hi
    obtain ⟨hacq', hrel', hfail'⟩ := counts_snoc i h s (.acquired i)
    simp only [reduceCtorEq, if_false, if_true, gives, Bool.false_eq_true] at hacq' hrel' hfail'
    exact counted_move hc rfl hphase ⟨by omega, by omega, by omega⟩
  | @prepared i _ hphase =>
    have hi := hc i
    rw [hphase] at hi
    obtain ⟨hacq, hrel, hfail⟩ := hi
    obtain ⟨hacq', hrel', hfail'⟩ := counts_snoc i h s (.prepared i true)
    simp only [reduceCtorEq, ExecuteEvent.prepared.injEq, and_false, if_false, gives,
      Bool.false_eq_true] at hacq' hrel' hfail'
    exact counted_move hc rfl hphase ⟨by omega, by omega, by omega⟩
  | @failed i _ hphase =>
    have hi := hc i
    rw [hphase] at hi
    obtain ⟨hacq, hrel, hfail⟩ := hi
    obtain ⟨hacq', hrel', hfail'⟩ := counts_snoc i h s (.prepared i false)
    simp only [reduceCtorEq, if_false, if_true, gives, Bool.false_eq_true] at hacq' hrel' hfail'
    exact counted_move hc rfl hphase ⟨by omega, by omega⟩
  | @finished i _ _ tryEnd hphase hslot =>
    have hi := hc i
    rw [hphase] at hi
    obtain ⟨hacq, hrel, hfail⟩ := hi
    obtain ⟨hacq', hrel', hfail'⟩ := counts_snoc i h s (.finished i tryEnd)
    simp only [reduceCtorEq, if_false, if_true, gives, beq_self_eq_true] at hacq' hrel' hfail'
    exact counted_move hc rfl hphase ⟨by omega, by omega⟩

/-! ### Who has a slot -/

theorem ask_of_phase {f : ExecutePhase → Option ℕ} {phase : ExecutePhase}
    (hphase : s.phases[i]? = some phase) : s.ask f i = f phase := by
  rw [ask, hphase]
  rfl

theorem ask_move {f : ExecutePhase → Option ℕ} {phase old : ExecutePhase} (slots : Slots)
    {activeJobs : ℤ} (hphase : s.phases[i]? = some old) (j : ℕ) :
    (move { s with slots, activeJobs } i phase).ask f j = if i = j then f phase else s.ask f j := by
  unfold ask
  rw [getElem?_move hphase]
  split_ifs <;> rfl

theorem ask_enter {f : ExecutePhase → Option ℕ} {phase : ExecutePhase} (slots : Slots) (j : ℕ) :
    (enter { s with slots } phase).ask f j =
      if j = s.phases.length then f phase else s.ask f j := by
  unfold ask
  rw [getElem?_enter]
  split_ifs <;> rfl

theorem ask_length (f : ExecutePhase → Option ℕ) : s.ask f s.phases.length = none := by
  rw [ask, List.getElem?_eq_none le_rfl]
  rfl

theorem call_of_holder {call : ℕ} (hi : s.ask ExecutePhase.holder? i = some call) :
    s.ask ExecutePhase.call? i = some call := by
  obtain ⟨phase, hphase, hholder⟩ := Option.bind_eq_some_iff.1 hi
  rw [ask_of_phase hphase]
  cases phase with
  | queued _ | ended _ => cases hholder
  | preparing _ | attempting _ => exact hholder

/-- The slots belong to executions that have not ended, but for those that were left behind. -/
structure Owned (leaked : List ℕ) (s : Executions) : Prop where
  distinct : ∀ i j call, s.ask ExecutePhase.call? i = some call →
    s.ask ExecutePhase.call? j = some call → i = j
  made : ∀ i call, s.ask ExecutePhase.call? i = some call → call < s.slots.calls
  waiting : ∀ call ∈ s.slots.semaphore.queue, ∃ i, s.ask ExecutePhase.call? i = some call
  holds : ∀ i call, s.ask ExecutePhase.holder? i = some call → call ∈ s.slots.holding
  owned : ∀ call ∈ s.slots.holding,
    (∃ i, s.ask ExecutePhase.call? i = some call) ∨ call ∈ leaked
  leaked_holding : ∀ call ∈ leaked, call ∈ s.slots.holding
  leaked_dead : ∀ call ∈ leaked, ∀ i, s.ask ExecutePhase.call? i ≠ some call

namespace Owned

variable {lost lost' : List ℕ} {call : ℕ}

theorem init (max : ℕ) : Owned [] (init max) := by
  constructor <;> simp [Executions.init, Slots.init, ask]

/-- A step that leaves the slots and the calls alone. -/
theorem goes (ho : Owned lost s) (hslots : s'.slots = s.slots)
    (hcall : ∀ j, s'.ask ExecutePhase.call? j = s.ask ExecutePhase.call? j)
    (hholder : ∀ j call, s'.ask ExecutePhase.holder? j = some call → call ∈ s.slots.holding) :
    Owned lost s' where
  distinct := fun i j call hi hj ↦ ho.distinct i j call (hcall i ▸ hi) (hcall j ▸ hj)
  made := fun i call hi ↦ hslots ▸ ho.made i call (hcall i ▸ hi)
  waiting := fun call hmem ↦ by
    obtain ⟨i, hi⟩ := ho.waiting call (hslots ▸ hmem)
    exact ⟨i, (hcall i).trans hi⟩
  holds := fun j call hj ↦ hslots ▸ hholder j call hj
  owned := fun call hmem ↦ (ho.owned call (hslots ▸ hmem)).imp_left fun ⟨i, hi⟩ ↦
    ⟨i, (hcall i).trans hi⟩
  leaked_holding := fun call hmem ↦ hslots ▸ ho.leaked_holding call hmem
  leaked_dead := fun call hmem i hi ↦ ho.leaked_dead call hmem i ((hcall i).symm.trans hi)

/-- An execution asks the semaphore. -/
theorem queued {waits handed expired : List ℕ} {timeoutMs : Option ℕ} {slots : Slots}
    (ho : Owned lost s) (hsound : Slots.Sound waits handed expired s.slots)
    (hslot : s.slots.step (.acquire timeoutMs) = some slots) :
    Owned lost (enter { s with slots } (.queued s.slots.calls)) := by
  have hcalls : slots.calls = s.slots.calls + 1 := by
    rcases Slots.step_acquire hslot with ⟨-, rfl⟩ | ⟨-, rfl⟩ <;> rfl
  have hqueue : ∀ c ∈ slots.semaphore.queue, c ∈ s.slots.semaphore.queue ∨ c = s.slots.calls := by
    rcases Slots.step_acquire hslot with ⟨-, rfl⟩ | ⟨-, rfl⟩
    · exact fun c hc ↦ .inl hc
    · exact fun c hc ↦ (List.mem_append.1 hc).imp_right List.mem_singleton.1
  have hholding : ∀ c ∈ slots.holding, c ∈ s.slots.holding ∨ c = s.slots.calls := by
    rcases Slots.step_acquire hslot with ⟨-, rfl⟩ | ⟨-, rfl⟩
    · exact fun c hc ↦ (List.mem_cons.1 hc).symm
    · exact fun c hc ↦ .inl hc
  have hkept : ∀ c ∈ s.slots.holding, c ∈ slots.holding := by
    rcases Slots.step_acquire hslot with ⟨-, rfl⟩ | ⟨-, rfl⟩
    · exact fun c hc ↦ List.mem_cons_of_mem _ hc
    · exact fun c hc ↦ hc
  have hask : ∀ j, (enter { s with slots } (.queued s.slots.calls)).ask ExecutePhase.call? j =
      if j = s.phases.length then some s.slots.calls else s.ask ExecutePhase.call? j :=
    fun j ↦ ask_enter _ j
  -- the new execution has the last number, so that whoever asked before still does
  have hold : ∀ c, (∃ i, s.ask ExecutePhase.call? i = some c) →
      ∃ i, (enter { s with slots } (.queued s.slots.calls)).ask ExecutePhase.call? i = some c := by
    rintro c ⟨i, hi⟩
    refine ⟨i, ?_⟩
    rw [hask, if_neg]
    · exact hi
    · rintro rfl
      rw [ask_length] at hi
      cases hi
  have hnew : ∃ i, (enter { s with slots } (.queued s.slots.calls)).ask ExecutePhase.call? i =
      some s.slots.calls := ⟨s.phases.length, by rw [hask, if_pos rfl]⟩
  constructor
  · intro i j c hi hj
    rw [hask] at hi hj
    split_ifs at hi hj with hi' hj' hj'
    · rw [hi', hj']
    · obtain rfl := Option.some.inj hi
      exact absurd (ho.made j _ hj) (lt_irrefl _)
    · obtain rfl := Option.some.inj hj
      exact absurd (ho.made i _ hi) (lt_irrefl _)
    · exact ho.distinct i j c hi hj
  · intro i c hi
    rw [hask] at hi
    change c < slots.calls
    rw [hcalls]
    split_ifs at hi
    · obtain rfl := Option.some.inj hi
      exact Nat.lt_succ_self _
    · exact (ho.made i c hi).trans (Nat.lt_succ_self _)
  · intro c hc
    rcases hqueue c hc with hc | rfl
    · exact hold c (ho.waiting c hc)
    · exact hnew
  · intro i c hi
    rw [ask_enter] at hi
    split_ifs at hi
    · cases hi
    · exact hkept c (ho.holds i c hi)
  · intro c hc
    rcases hholding c hc with hc | rfl
    · exact (ho.owned c hc).imp_left (hold c)
    · exact .inl hnew
  · exact fun c hc ↦ hkept c (ho.leaked_holding c hc)
  · intro c hc i hi
    rw [hask] at hi
    split_ifs at hi
    · obtain rfl := Option.some.inj hi
      exact absurd (hsound.holding_lt (ho.leaked_holding _ hc)) (lt_irrefl _)
    · exact ho.leaked_dead c hc i hi

/-- An execution ends: its call is not in the queue, and a slot it had is given back or left
behind. -/
theorem ends {old : ExecutePhase} {result : ExecuteResult} {slots : Slots} {activeJobs : ℤ}
    (ho : Owned lost s) (hphase : s.phases[i]? = some old) (hcall : old.call? = some call)
    (hcalls : slots.calls = s.slots.calls)
    (hqueue : ∀ c ∈ slots.semaphore.queue, c ∈ s.slots.semaphore.queue ∧ c ≠ call)
    (hholding : ∀ c ∈ slots.holding,
      (c ∈ s.slots.holding ∨ c ∈ s.slots.semaphore.queue) ∧ c ≠ call ∨ c ∈ lost')
    (hkept : ∀ c ∈ s.slots.holding, c ≠ call → c ∈ slots.holding)
    (hlost : ∀ c ∈ lost', c ∈ lost ∨ c = call ∧ call ∈ slots.holding)
    (hmono : ∀ c ∈ lost, c ∈ lost') :
    Owned lost' (move { s with slots, activeJobs } i (.ended result)) := by
  have hi : s.ask ExecutePhase.call? i = some call := (ask_of_phase hphase).trans hcall
  have hask : ∀ (f : ExecutePhase → Option ℕ) j, f (.ended result) = none →
      (move { s with slots, activeJobs } i (.ended result)).ask f j =
        if i = j then none else s.ask f j := fun f j hf ↦ by rw [ask_move _ hphase, hf]
  -- an execution that has another call goes on
  have hother : ∀ c, c ≠ call → (∃ j, s.ask ExecutePhase.call? j = some c) →
      ∃ j, (move { s with slots, activeJobs } i (.ended result)).ask ExecutePhase.call? j =
        some c := by
    rintro c hne ⟨j, hj⟩
    refine ⟨j, ?_⟩
    rw [hask _ j rfl, if_neg]
    · exact hj
    · rintro rfl
      exact hne (Option.some.inj (hj.symm.trans hi))
  constructor
  · intro j k c hj hk
    rw [hask _ _ rfl] at hj hk
    split_ifs at hj hk
    exact ho.distinct j k c hj hk
  · intro j c hj
    rw [hask _ _ rfl] at hj
    split_ifs at hj
    exact hcalls ▸ ho.made j c hj
  · intro c hc
    obtain ⟨hc, hne⟩ := hqueue c hc
    exact hother c hne (ho.waiting c hc)
  · intro j c hj
    rw [hask _ _ rfl] at hj
    split_ifs at hj with hij
    refine hkept c (ho.holds j c hj) ?_
    rintro rfl
    exact hij (ho.distinct i j c hi (call_of_holder hj))
  · intro c hc
    rcases hholding c hc with ⟨hc, hne⟩ | hc
    · rcases hc with hc | hc
      · exact (ho.owned c hc).imp (hother c hne) (hmono c)
      · exact .inl (hother c hne (ho.waiting c hc))
    · exact .inr hc
  · intro c hc
    rcases hlost c hc with hc | ⟨rfl, hholds⟩
    · refine hkept c (ho.leaked_holding c hc) ?_
      rintro rfl
      exact ho.leaked_dead c hc i hi
    · exact hholds
  · intro c hc j hj
    rw [hask _ _ rfl] at hj
    split_ifs at hj with hij
    rcases hlost c hc with hc | ⟨rfl, -⟩
    · exact ho.leaked_dead c hc j hj
    · exact hij (ho.distinct i j c hi hj)

/-- One event. -/
theorem step {waits handed expired : List ℕ} (ho : Owned lost s)
    (hsound : Slots.Sound waits handed expired s.slots) (hs : Stepped s e s') :
    Owned (lost ++ (leaking (s, e)).toList) s' := by
  cases hs with
  | refused =>
    refine (List.append_nil lost).symm ▸ ho.goes rfl (fun j ↦ ?_) fun j call hj ↦ ?_
    · rw [ask_enter s.slots]
      split_ifs with hj
      · rw [hj, ask_length]
        rfl
      · rfl
    · rw [ask_enter s.slots] at hj
      split_ifs at hj
      · cases hj
      · exact ho.holds j call hj
  | queued hslot => exact (List.append_nil lost).symm ▸ ho.queued hsound hslot
  | @timedOut i call slots result hphase hslot =>
    refine (List.append_nil lost).symm ▸ ?_
    obtain ⟨⟨timer, htimer, rfl⟩, rfl⟩ := Slots.step_timeout hslot
    have hqueued := hsound.armed_waits timer htimer
    have hnodup := (List.nodup_append.1 hsound.nodup).2.1
    refine ho.ends hphase rfl rfl (fun c hc ↦ ?_) (fun c hc ↦ ?_) (fun c hc _ ↦ hc)
      (fun c hc ↦ .inl hc) fun c hc ↦ hc
    · exact ⟨List.mem_of_mem_erase hc, ((hnodup.mem_erase_iff).1 hc).1⟩
    · refine .inl ⟨.inl hc, ?_⟩
      rintro rfl
      exact hsound.queue_not_holding hqueued hc
  | @acquired i call hphase hholds =>
    refine (List.append_nil lost).symm ▸ ho.goes rfl (fun j ↦ ?_) fun j c hj ↦ ?_
    · refine (ask_move s.slots hphase j).trans ?_
      split_ifs with hij
      · rw [← hij, ask_of_phase hphase]
        rfl
      · rfl
    · replace hj := (ask_move s.slots hphase j).symm.trans hj
      split_ifs at hj with hij
      · obtain rfl := Option.some.inj hj
        exact hholds
      · exact ho.holds j c hj
  | @prepared i call hphase =>
    refine (List.append_nil lost).symm ▸ ho.goes rfl (fun j ↦ ?_) fun j c hj ↦ ?_
    · refine (ask_move s.slots hphase j).trans ?_
      split_ifs with hij
      · rw [← hij, ask_of_phase hphase]
        rfl
      · rfl
    · replace hj := (ask_move s.slots hphase j).symm.trans hj
      split_ifs at hj with hij
      · refine ho.holds i c ?_
        rw [ask_of_phase hphase]
        exact hj
      · exact ho.holds j c hj
  | @failed i call hphase =>
    have hleaking : leaking (s, .prepared i false) = some call := ask_of_phase hphase
    have hholds : call ∈ s.slots.holding := ho.holds i call (ask_of_phase hphase)
    rw [hleaking, Option.toList_some]
    refine ho.ends hphase rfl rfl (fun c hc ↦ ⟨hc, ?_⟩) (fun c hc ↦ ?_) (fun c hc _ ↦ hc)
      (fun c hc ↦ ?_) fun c hc ↦ List.mem_append_left _ hc
    · rintro rfl
      exact hsound.queue_not_holding hc hholds
    · by_cases hne : c = call
      · exact .inr (List.mem_append_right _ (List.mem_singleton.2 hne))
      · exact .inl ⟨.inl hc, hne⟩
    · exact (List.mem_append.1 hc).imp_right fun hc ↦ ⟨List.mem_singleton.1 hc, hholds⟩
  | @finished i call slots tryEnd hphase hslot =>
    refine (List.append_nil lost).symm ▸ ?_
    have hqueued : call ∉ s.slots.semaphore.queue := fun hmem ↦
      hsound.queue_not_holding hmem (ho.holds i call (ask_of_phase hphase))
    obtain ⟨hholds, ⟨hqueue, rfl⟩ | ⟨next, queue, hqueue, rfl⟩⟩ := Slots.step_release hslot
    · refine ho.ends hphase rfl rfl (fun c hc ↦ ⟨hc, ?_⟩) (fun c hc ↦ ?_) (fun c hc hne ↦ ?_)
        (fun c hc ↦ .inl hc) fun c hc ↦ hc
      · rintro rfl
        exact hqueued hc
      · exact .inl ⟨.inl (List.mem_of_mem_erase hc), ((hsound.distinct.mem_erase_iff).1 hc).1⟩
      · exact (List.mem_erase_of_ne hne).2 hc
    · rw [hqueue] at hqueued
      refine ho.ends hphase rfl rfl (fun c hc ↦ ⟨?_, ?_⟩) (fun c hc ↦ ?_) (fun c hc hne ↦ ?_)
        (fun c hc ↦ .inl hc) fun c hc ↦ hc
      · rw [hqueue]
        exact List.mem_cons_of_mem _ hc
      · rintro rfl
        exact hqueued (List.mem_cons_of_mem _ hc)
      · refine .inl ?_
        rcases List.mem_cons.1 hc with rfl | hc
        · refine ⟨.inr (by rw [hqueue]; exact List.mem_cons_self), ?_⟩
          rintro rfl
          exact hqueued List.mem_cons_self
        · exact ⟨.inl (List.mem_of_mem_erase hc), ((hsound.distinct.mem_erase_iff).1 hc).1⟩
      · exact List.mem_cons_of_mem _ ((List.mem_erase_of_ne hne).2 hc)

end Owned

theorem owned_of_run {max : ℕ} (hr : Run step (init max) h s) : Owned (leaked h) s := by
  induction hr with
  | nil => exact .init max
  | snoc hr hstep ih =>
    obtain ⟨_, _, _, hsound⟩ := sound_of_run hr
    unfold leaked
    rw [Slots.filterMap_snoc]
    exact ih.step hsound (stepped_of_step hstep)

theorem counted_of_run {max : ℕ} (hr : Run step (init max) h s) :
    ∀ j, Counted h j s.phases[j]? := by
  induction hr with
  | nil => exact fun j ↦ ⟨rfl, rfl, rfl⟩
  | snoc _ hstep ih => exact counted_step ih (stepped_of_step hstep)

/-! ### The result -/

/-- Every execution that has ended gave back the slot it was given, if any, exactly once, and when
all have ended no slot is taken. -/
def SlotsReturned (h : List (Executions × ExecuteEvent)) (s : Executions) : Prop :=
  (∀ i result, s.phases[i]? = some (.ended result) →
    acquisitions i h ≤ 1 ∧ releases i h = acquisitions i h) ∧
  ((∀ phase ∈ s.phases, phase.call? = none) → s.slots.semaphore.current = 0)

/-- The step between the semaphore and the `try` block fails. -/
def failsUnguarded : ExecuteEvent → Bool
  | .prepared _ made => !made
  | _ => false

theorem eq_prepared_of_failsUnguarded (hfails : failsUnguarded e = true) :
    ∃ i, e = .prepared i false := by
  cases e with
  | prepared i made =>
    cases made with
    | true => cases hfails
    | false => exact ⟨i, rfl⟩
  | _ => cases hfails

theorem leaked_eq_nil (hnone : ∀ p ∈ h, failsUnguarded p.2 = false) : leaked h = [] := by
  refine List.filterMap_eq_nil_iff.2 fun p hp ↦ ?_
  obtain ⟨s, e⟩ := p
  cases e with
  | prepared i made =>
    cases made with
    | true => rfl
    | false => cases hnone _ hp
  | _ => rfl

/-- **Slots are given back.** In every interleaving of executions, those that have ended gave their
slots back exactly once, and the semaphore is back at zero when all have ended, if and only if no
execution failed between the semaphore and its `try` block. -/
theorem slots_returned_iff {max : ℕ} (hr : Run step (init max) h s) :
    SlotsReturned h s ↔ ∀ p ∈ h, failsUnguarded p.2 = false := by
  have hcounted := counted_of_run hr
  constructor
  · rintro ⟨hended, -⟩ p hp
    refine Bool.eq_false_iff.2 fun hfails ↦ ?_
    obtain ⟨i, heq⟩ := eq_prepared_of_failsUnguarded hfails
    have hfailed : 0 < failures i h := List.countP_pos_iff.2 ⟨p, hp, beq_iff_eq.2 heq⟩
    have hi := hcounted i
    cases hphase : s.phases[i]? with
    | none =>
      rw [hphase] at hi
      exact absurd hi.2.2 hfailed.ne'
    | some phase =>
      rw [hphase] at hi
      cases phase with
      | queued _ | preparing _ | attempting _ => exact absurd hi.2.2 hfailed.ne'
      | ended result =>
        obtain ⟨-, hsame⟩ := hended i result hphase
        have hsplit := hi.2
        omega
  · intro hnone
    refine ⟨fun i result hphase ↦ ?_, fun hall ↦ ?_⟩
    · have hi := hcounted i
      rw [hphase] at hi
      obtain ⟨hone, hsplit⟩ := hi
      have hzero : failures i h = 0 := List.countP_eq_zero.2 fun p hp heq ↦ by
        have hfails := hnone p hp
        rw [beq_iff_eq.1 heq] at hfails
        cases hfails
      exact ⟨hone, by omega⟩
    · obtain ⟨_, _, _, hsound⟩ := sound_of_run hr
      have howned := owned_of_run hr
      have hempty : s.slots.holding = [] := by
        refine List.eq_nil_iff_forall_not_mem.2 fun call hmem ↦ ?_
        rcases howned.owned call hmem with ⟨i, hi⟩ | hlost
        · obtain ⟨phase, hphase, hcall⟩ := Option.bind_eq_some_iff.1 hi
          rw [hall phase (List.mem_of_getElem? hphase)] at hcall
          cases hcall
        · rw [leaked_eq_nil hnone] at hlost
          cases hlost
      rw [hsound.current, hempty]
      rfl

/-- One slot and three executions: one that succeeds, one that is handed its slot and times out, and
one that waits too long. -/
theorem slots_returned_iff_three : ∃ h s, Run step (init 1) h s ∧ s.phases.length = 3 ∧
    s.slots.semaphore.current = 0 := by
  obtain ⟨h, s, hr, hcheck⟩ := Run.exists_of_check step (init 1)
    [.start (.admitted 60000), .acquired 0, .start (.admitted 60000), .start (.admitted 60000),
      .prepared 0 true, .queueTimeout 2, .finished 0 (.parsed none), .acquired 1, .prepared 1 true,
      .finished 1 (.caught true)]
    (fun h s ↦ decide ((∀ p ∈ h, failsUnguarded p.2 = false) ∧ s.phases.length = 3 ∧
      ∀ phase ∈ s.phases, phase.call? = none)) (by decide +kernel)
  obtain ⟨hnone, hlength, hended⟩ := of_decide_eq_true hcheck
  exact ⟨h, s, hr, hlength, ((slots_returned_iff hr).2 hnone).2 hended⟩

/-- The working directory of an execution cannot be made, and its slot stays taken. -/
theorem slot_lost : ∃ h s, Run step (init 1) h s ∧ s.phases = [.ended .threw] ∧
    s.slots.semaphore.current = 1 ∧ acquisitions 0 h = 1 ∧ releases 0 h = 0 := by
  obtain ⟨h, s, hr, hcheck⟩ := Run.exists_of_check step (init 1)
    [.start (.admitted 60000), .acquired 0, .prepared 0 false]
    (fun h s ↦ decide (s.phases = [.ended .threw] ∧ s.slots.semaphore.current = 1 ∧
      acquisitions 0 h = 1 ∧ releases 0 h = 0)) (by decide +kernel)
  exact ⟨h, s, hr, of_decide_eq_true hcheck⟩

end ModelConnector.Connectors.Executions
