import Mathlib.Data.List.Basic

/-!
# Runs of a step function

A system is a type of states `σ`, a type of events `ε` and a step function
`σ → ε → Option σ`, where `none` says that the event is not enabled. A run is a finite
sequence of enabled events; it keeps its own **history**, the list of pairs of an event and
the state the event was taken in, so a condition on what every step of a run did is a
condition on the members of a list.

Two rules carry every argument about runs:

* `Run.invariant` — what the first state has and every step keeps, every state has;
* `Run.invariant_of_forall` — the same, where a step only has to keep it when it meets a
  condition `c`, for the runs all of whose steps meet `c`.

A third one compares two systems: `Run.unwind` makes a run of one out of what it sees of a run of
the other.
-/

universe u v

/-- `Run step s₀ h s`: from `s₀` the events of `h`, each taken in the state it is paired with,
lead to `s`. -/
inductive Run {σ : Type u} {ε : Type v} (step : σ → ε → Option σ) (s₀ : σ) :
    List (σ × ε) → σ → Prop
  /-- The empty run. -/
  | nil : Run step s₀ [] s₀
  /-- One more enabled event. -/
  | snoc {h : List (σ × ε)} {s s' : σ} {e : ε} :
      Run step s₀ h s → step s e = some s' → Run step s₀ (h ++ [(s, e)]) s'

namespace Run

variable {σ : Type u} {ε : Type v} {step : σ → ε → Option σ} {s₀ s : σ}
  {h : List (σ × ε)} {P : σ → Prop} {c : σ → ε → Prop}

/-- Every member of a history is an enabled event. -/
theorem step_of_mem (hr : Run step s₀ h s) : ∀ p ∈ h, ∃ s', step p.1 p.2 = some s' := by
  induction hr with
  | nil => simp
  | @snoc h s s' e _ hs ih =>
    intro p hp
    rcases List.mem_append.1 hp with hp | hp
    · exact ih p hp
    · rw [List.mem_singleton.1 hp]
      exact ⟨s', hs⟩

/-- The invariant rule for the runs all of whose steps meet a condition. -/
theorem invariant_of_forall (h0 : P s₀)
    (hstep : ∀ {s e s'}, P s → c s e → step s e = some s' → P s')
    (hr : Run step s₀ h s) (hc : ∀ p ∈ h, c p.1 p.2) : P s := by
  induction hr with
  | nil => exact h0
  | @snoc h s s' e _ hs ih =>
    have hpre : P s := ih fun p hp ↦ hc p (List.mem_append_left _ hp)
    exact hstep hpre (hc (s, e) (List.mem_append_right _ (by simp))) hs

/-- The invariant rule. -/
theorem invariant (h0 : P s₀) (hstep : ∀ {s e s'}, P s → step s e = some s' → P s')
    (hr : Run step s₀ h s) : P s :=
  invariant_of_forall (c := fun _ _ ↦ True) h0 (fun hp _ hs ↦ hstep hp hs) hr
    fun _ _ ↦ trivial

/-- The state an event of a history was taken in is itself reached by a run, whose history is
part of the whole one. -/
theorem exists_of_mem (hr : Run step s₀ h s) :
    ∀ p ∈ h, ∃ h', Run step s₀ h' p.1 ∧ ∀ q ∈ h', q ∈ h := by
  induction hr with
  | nil => simp
  | @snoc h s s' e hr hs ih =>
    intro p hp
    rcases List.mem_append.1 hp with hp | hp
    · obtain ⟨h', hr', hsub⟩ := ih p hp
      exact ⟨h', hr', fun q hq ↦ List.mem_append_left _ (hsub q hq)⟩
    · rw [List.mem_singleton.1 hp]
      exact ⟨h, hr, fun q hq ↦ List.mem_append_left _ hq⟩

/-- An invariant of the runs meeting `c` holds in every state such a run passed through. -/
theorem forall_mem_of_forall (h0 : P s₀)
    (hstep : ∀ {s e s'}, P s → c s e → step s e = some s' → P s')
    (hr : Run step s₀ h s) (hc : ∀ p ∈ h, c p.1 p.2) : ∀ p ∈ h, P p.1 := by
  intro p hp
  obtain ⟨h', hr', hsub⟩ := hr.exists_of_mem p hp
  exact invariant_of_forall h0 hstep hr' fun q hq ↦ hc q (hsub q hq)

/-- What came before an event of a history is the history of a run to the state it was taken in. -/
theorem of_append_cons {p : σ × ε} {h' : List (σ × ε)} (hr : Run step s₀ (h ++ p :: h') s) :
    Run step s₀ h p.1 := by
  generalize hl : h ++ p :: h' = l at hr
  induction hr generalizing h' with
  | nil => simp at hl
  | @snoc l s s' e hr _ ih =>
    rcases List.eq_nil_or_concat h' with rfl | ⟨rest, last, rfl⟩
    · obtain ⟨rfl, hp⟩ := List.append_inj' hl rfl
      rw [(List.cons.inj hp).1]
      exact hr
    · rw [List.concat_eq_append, ← List.cons_append, ← List.append_assoc] at hl
      exact ih (List.append_inj' hl rfl).1

/-- A run to the end of a history passes through a state between any two parts of it. -/
theorem exists_of_append {h' : List (σ × ε)} (hr : Run step s₀ (h ++ h') s) :
    ∃ t, Run step s₀ h t ∧ Run step t h' s := by
  generalize hl : h ++ h' = l at hr
  induction hr generalizing h' with
  | nil =>
    obtain ⟨rfl, rfl⟩ := List.append_eq_nil_iff.1 hl
    exact ⟨s₀, .nil, .nil⟩
  | @snoc l t t' e hr hs ih =>
    rcases List.eq_nil_or_concat h' with rfl | ⟨rest, last, rfl⟩
    · rw [List.append_nil] at hl
      exact ⟨t', hl ▸ hr.snoc hs, .nil⟩
    · rw [List.concat_eq_append, ← List.append_assoc] at hl
      obtain ⟨hrest, hlast⟩ := List.append_inj' hl rfl
      obtain ⟨u, hru, hru'⟩ := ih hrest
      rw [List.concat_eq_append, List.singleton_inj.1 hlast]
      exact ⟨u, hru, hru'.snoc hs⟩

/-- A run without an event stays where it is. -/
theorem eq_of_nil (hr : Run step s₀ [] s) : s = s₀ := by
  generalize hl : ([] : List (σ × ε)) = l at hr
  cases hr with
  | nil => rfl
  | snoc _ _ => simp at hl

/-- A run that begins with an event goes on from where that event leads. -/
theorem exists_of_cons {p : σ × ε} (hr : Run step s₀ (p :: h) s) :
    p.1 = s₀ ∧ ∃ t, step s₀ p.2 = some t ∧ Run step t h s := by
  rw [← List.singleton_append] at hr
  obtain ⟨t, hp, hrest⟩ := hr.exists_of_append
  generalize hl : [p] = l at hp
  cases hp with
  | nil => simp at hl
  | @snoc l u _ e hu hs =>
    obtain ⟨hnil, hlast⟩ := List.append_inj' (show [] ++ [p] = l ++ [(u, e)] from hl) rfl
    subst hnil
    obtain rfl := hu.eq_of_nil
    rw [List.singleton_inj.1 hlast]
    exact ⟨rfl, t, hs, hrest⟩

/-- Runs compose. -/
theorem append {h' : List (σ × ε)} {t : σ} (hr : Run step s₀ h s) (hr' : Run step s h' t) :
    Run step s₀ (h ++ h') t := by
  induction hr' with
  | nil => simpa using hr
  | snoc _ hs ih =>
    rw [← List.append_assoc]
    exact ih.snoc hs

/-! ### Unwinding -/

/-- **The unwinding rule.** What another system sees of a run: it takes the steps it is concerned
with, the others leave what it sees as it was, and each step it takes is observed alike. -/
theorem unwind {τ : Type u} {α : Type v} {step' : τ → ε → Option τ} {t₀ : τ} {R : σ → τ → Prop}
    {concerns : ε → Bool} {obs : σ × ε → Option α} {obs' : τ × ε → Option α}
    (hr : Run step s₀ h s) (h0 : R s₀ t₀)
    (hskip : ∀ {s t e s'}, R s t → concerns e = false → step s e = some s' →
      R s' t ∧ obs (s, e) = none)
    (hown : ∀ {s t e s'}, R s t → concerns e = true → step s e = some s' →
      (∃ t', step' t e = some t' ∧ R s' t') ∧ obs' (t, e) = obs (s, e)) :
    ∃ h' t, Run step' t₀ h' t ∧ R s t ∧
      h'.map Prod.snd = (h.map Prod.snd).filter concerns ∧ h'.filterMap obs' = h.filterMap obs := by
  induction hr with
  | nil => exact ⟨[], t₀, .nil, h0, rfl, rfl⟩
  | @snoc h s s' e hr hs ih =>
    obtain ⟨h', t, hr', hR, hevents, hobs⟩ := ih
    rw [List.map_append, List.filter_append, List.filterMap_append, ← hevents, ← hobs]
    cases he : concerns e with
    | true =>
      obtain ⟨⟨t', ht', hR'⟩, heq⟩ := hown hR he hs
      refine ⟨h' ++ [(t, e)], t', hr'.snoc ht', hR', ?_, ?_⟩
      · simp [he]
      · simp only [List.filterMap_append, List.filterMap_cons, List.filterMap_nil, heq]
    | false =>
      obtain ⟨hR', hnone⟩ := hskip hR he hs
      exact ⟨h', t, hr', hR', by simp [he], by simp [hnone]⟩

/-! ### Executing a list of events -/

/-- Execute a list of events, one after the other, and keep the history; `none` as soon as one is
not enabled. -/
def exec (step : σ → ε → Option σ) (s₀ : σ) : List ε → Option (List (σ × ε) × σ)
  | [] => some ([], s₀)
  | e :: es => (step s₀ e).bind fun s ↦ (exec step s es).map fun p ↦ ((s₀, e) :: p.1, p.2)

/-- What an execution reaches, a run reaches, with the same history. -/
theorem of_exec {es : List ε} : ∀ {s₀ : σ}, exec step s₀ es = some (h, s) → Run step s₀ h s := by
  induction es generalizing h with
  | nil =>
    intro s₀ he
    cases he
    exact .nil
  | cons e es ih =>
    intro s₀ he
    obtain ⟨s₁, hs, he⟩ := Option.bind_eq_some_iff.1 he
    obtain ⟨⟨h', t⟩, htail, heq⟩ := Option.map_eq_some_iff.1 he
    cases heq
    exact Run.append (Run.snoc .nil hs) (ih htail)

/-- There is a run that passes a check, when an execution passes it. -/
theorem exists_of_check (step : σ → ε → Option σ) (s₀ : σ) (es : List ε)
    (check : List (σ × ε) → σ → Bool)
    (hcheck : (exec step s₀ es).any (fun p ↦ check p.1 p.2) = true) :
    ∃ h s, Run step s₀ h s ∧ check h s = true := by
  cases hexec : exec step s₀ es with
  | none =>
    rw [hexec] at hcheck
    cases hcheck
  | some p =>
    rw [hexec] at hcheck
    exact ⟨p.1, p.2, of_exec hexec, hcheck⟩

end Run
