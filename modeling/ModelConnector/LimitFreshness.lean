import Mathlib.Data.Set.Basic
import ModelConnector.Foundations.Run
import ModelConnector.Auth.LimitCache

/-!
# When a changed limit is in force

`setKeyRateLimit` writes the row and then drops the cache entry of the key. A `resolveLimit` that
has read the row before and has not stored its limit yet stores it afterwards, and for the next ten
seconds calls are held to it. Whether that can happen is seen at the invalidation: it cannot exactly
when every such read holds the limit of the row as it is then.

`OnlyKnows` says that the cache, the reads under way and the calls from some number on know no limit
of a key outside a set. A step keeps it as long as the row is in the set.
-/

namespace ModelConnector.Auth

variable {s s' : LimitState} {e : LimitEvent} {keyId : String} {V : Set ℕ} {n₀ n : ℕ}
  {phase : LimitPhase}

/-- Every call of `consume` that begins from here on is held to a limit its row has stood for
since. -/
def FreshAfter (keyId : String) (s : LimitState) : Prop :=
  ∀ h t, Run LimitState.step s h t →
    ∀ n limit, s.calls.length ≤ n → t.calls[n]?.bind LimitPhase.limit? = some (keyId, limit) →
      ∃ p ∈ h, limit = limitOf (p.1.rows keyId)

/-- What a call in a phase knows of the key is in the set: what it has read, and, from a number of
call on, the limit it is held to. -/
structure PhaseKnows (keyId : String) (V : Set ℕ) (n₀ n : ℕ) (phase : LimitPhase) : Prop where
  read : ∀ row, phase = .read keyId row → limitOf row ∈ V
  limit : ∀ limit, n₀ ≤ n → phase.limit? = some (keyId, limit) → limit ∈ V

/-- No other limit of the key is known than those of the set: neither to the cache, nor to a read
that is under way, nor to a call from a number on. -/
structure OnlyKnows (keyId : String) (V : Set ℕ) (n₀ : ℕ) (s : LimitState) : Prop where
  entry : ∀ entry, s.limitCache keyId = some entry → entry.limit ∈ V
  phase : ∀ (n : ℕ) phase, s.calls[n]? = some phase → PhaseKnows keyId V n₀ n phase

/-- A call that has neither read nor resolved a limit knows none. -/
theorem phaseKnows_of_none (hread : ∀ keyId row, phase ≠ .read keyId row)
    (hlimit : phase.limit? = none) : PhaseKnows keyId V n₀ n phase where
  read row hphase := absurd hphase (hread keyId row)
  limit limit _ hsome := by
    rw [hlimit] at hsome
    cases hsome

namespace OnlyKnows

/-! ### What a step does to a state keeps it -/

theorem setPhase (h : OnlyKnows keyId V n₀ s) (hphase : PhaseKnows keyId V n₀ n phase) :
    OnlyKnows keyId V n₀ (s.setPhase n phase) where
  entry := h.entry
  phase m found hm := by
    change (s.calls.set n phase)[m]? = _ at hm
    rw [List.getElem?_set] at hm
    split_ifs at hm with heq hlt
    · rw [← heq, ← Option.some.inj hm]
      exact hphase
    · exact h.phase m found hm

theorem enter (h : OnlyKnows keyId V n₀ s)
    (hphase : PhaseKnows keyId V n₀ s.calls.length phase) :
    OnlyKnows keyId V n₀ (s.enter phase) where
  entry := h.entry
  phase m found hm := by
    change (s.calls ++ [phase])[m]? = _ at hm
    rcases Nat.lt_or_ge m s.calls.length with hlt | hge
    · rw [List.getElem?_append_left hlt] at hm
      exact h.phase m found hm
    · -- the only call behind the others is the one that entered
      rw [List.getElem?_append_right hge, List.getElem?_singleton] at hm
      split_ifs at hm with hzero
      rw [Nat.le_antisymm (Nat.sub_eq_zero_iff_le.1 hzero) hge, ← Option.some.inj hm]
      exact hphase

theorem setEntry {id : String} {cached : Option CachedLimit} (h : OnlyKnows keyId V n₀ s)
    (hcached : id = keyId → ∀ entry, cached = some entry → entry.limit ∈ V) :
    OnlyKnows keyId V n₀ (s.setEntry id cached) where
  entry entry hentry := by
    change Function.update s.limitCache id cached keyId = _ at hentry
    rw [Function.update_apply] at hentry
    split_ifs at hentry with hid
    · exact hcached hid.symm entry hentry
    · exact h.entry entry hentry
  phase := h.phase

theorem setRow {id : String} {row : Option ℕ} (h : OnlyKnows keyId V n₀ s) :
    OnlyKnows keyId V n₀ (s.setRow id row) :=
  ⟨h.entry, h.phase⟩

/-! ### The step -/

/-- A read that takes effect knows what the row stands for. -/
theorem runQuery (h : OnlyKnows keyId V n₀ s) (hrow : limitOf (s.rows keyId) ∈ V)
    (hs : s.runQuery n phase = some s') : OnlyKnows keyId V n₀ s' := by
  cases phase with
  | reading id =>
    cases hs
    refine h.setPhase ⟨fun row hphase ↦ ?_, fun _ _ hlimit ↦ (by cases hlimit)⟩
    cases hphase
    exact hrow
  | finding id rateLimit =>
    cases hs
    exact h.setPhase (phaseKnows_of_none (fun _ _ hphase ↦ by cases hphase) rfl)
  | updating id rateLimit =>
    unfold LimitState.runQuery at hs
    dsimp only at hs
    split at hs
    · cases hs
      exact h.setPhase (phaseKnows_of_none (fun _ _ hphase ↦ by cases hphase) rfl)
    · cases hs
      exact h.setRow.setPhase (phaseKnows_of_none (fun _ _ hphase ↦ by cases hphase) rfl)
  | _ => cases hs

/-- A read that is stored was known before; every other call that goes on knows no limit. -/
theorem resumeCall (h : OnlyKnows keyId V n₀ s) (hn : s.calls[n]? = some phase)
    (hs : s.resumeCall n phase = some s') : OnlyKnows keyId V n₀ s' := by
  cases phase with
  | read id row =>
    cases hs
    have hknown : id = keyId → limitOf row ∈ V := by
      rintro rfl
      exact (h.phase n _ hn).read row rfl
    refine OnlyKnows.setPhase (h.setEntry fun hid entry hentry ↦ ?_)
      ⟨fun _ hphase ↦ (by cases hphase), fun limit _ hlimit ↦ ?_⟩
    · cases hentry
      exact hknown hid
    · cases hlimit
      exact hknown rfl
  | found id rateLimit row =>
    cases row with
    | none =>
      cases hs
      exact h.setPhase (phaseKnows_of_none (fun _ _ hphase ↦ by cases hphase) rfl)
    | some row =>
      cases hs
      exact h.setPhase (phaseKnows_of_none (fun _ _ hphase ↦ by cases hphase) rfl)
  | updated id =>
    cases hs
    exact (h.setEntry fun _ _ hentry ↦ by cases hentry).setPhase
      (phaseKnows_of_none (fun _ _ hphase ↦ by cases hphase) rfl)
  | _ => cases hs

theorem failCall (h : OnlyKnows keyId V n₀ s) (hs : s.failCall n phase = some s') :
    OnlyKnows keyId V n₀ s' := by
  have hthrew : s' = s.setPhase n .threw := by
    cases phase <;> cases hs <;> rfl
  rw [hthrew]
  exact h.setPhase (phaseKnows_of_none (fun _ _ hphase ↦ by cases hphase) rfl)

/-- A step in a state whose row is in the set brings no other limit into it. -/
theorem step (h : OnlyKnows keyId V n₀ s) (hrow : limitOf (s.rows keyId) ∈ V)
    (hs : s.step e = some s') : OnlyKnows keyId V n₀ s' := by
  cases e with
  | tick ms =>
    cases hs
    exact ⟨h.entry, h.phase⟩
  | consume id =>
    unfold LimitState.step at hs
    dsimp only at hs
    split at hs
    · rename_i entry hcached
      cases hs
      refine h.enter ⟨fun _ hphase ↦ (by cases hphase), fun limit _ hlimit ↦ ?_⟩
      cases hlimit
      exact h.entry entry (Option.filter_eq_some_iff.1 hcached).1
    · cases hs
      exact h.enter (phaseKnows_of_none (fun _ _ hphase ↦ by cases hphase) rfl)
  | setKeyRateLimit id rateLimit =>
    cases hs
    exact h.enter (phaseKnows_of_none (fun _ _ hphase ↦ by cases hphase) rfl)
  | query n =>
    obtain ⟨phase, -, hs⟩ := Option.bind_eq_some_iff.1 hs
    exact h.runQuery hrow hs
  | resume n =>
    obtain ⟨phase, hn, hs⟩ := Option.bind_eq_some_iff.1 hs
    exact h.resumeCall hn hs
  | count n delivery =>
    unfold LimitState.step at hs
    dsimp only at hs
    split at hs
    · rename_i id limit hn
      cases hs
      refine setPhase (s := { s with redis := _ }) ⟨h.entry, h.phase⟩
        ⟨fun _ hphase ↦ (by cases hphase), fun limit' hle hlimit ↦ ?_⟩
      -- the decision holds the limit that was resolved
      rw [LimitPhase.limit?, limit_consume] at hlimit
      exact (h.phase n _ hn).limit limit' hle hlimit
    · cases hs
  | fail n =>
    obtain ⟨phase, -, hs⟩ := Option.bind_eq_some_iff.1 hs
    exact h.failCall hs
  | edit id row =>
    cases hs
    exact h.setRow
  | flushLimitCache =>
    cases hs
    exact ⟨fun _ hentry ↦ (by cases hentry), h.phase⟩

end OnlyKnows

/-! ### After an invalidation -/

section Invalidation

variable {i : ℕ} (hi : s.calls[i]? = some (.updated keyId))
  (hs : s.step (.resume i) = some s')

include hi hs

/-- `invalidateLimit`, and `setKeyRateLimit` returns. -/
theorem eq_of_invalidated : s' = (s.setEntry keyId none).setPhase i (.set keyId) := by
  change s.calls[i]?.bind (s.resumeCall i) = some s' at hs
  rw [hi] at hs
  exact (Option.some.inj hs).symm

/-- The reads under way are those from before. -/
theorem read_of_invalidated {n : ℕ} {row : Option ℕ} :
    s'.calls[n]? = some (.read keyId row) ↔ s.calls[n]? = some (.read keyId row) := by
  rw [eq_of_invalidated hi hs]
  change (s.calls.set i _)[n]? = _ ↔ _
  rw [List.getElem?_set]
  split_ifs with heq hlt
  · subst heq
    rw [hi]
    constructor <;> intro h <;> cases h
  · subst heq
    rw [hi]
    constructor <;> intro h <;> cases h
  · rfl

theorem rows_of_invalidated : s'.rows = s.rows := by
  rw [eq_of_invalidated hi hs]
  rfl

/-- When the reads under way hold the limit of the row, no later call is held to another one. -/
theorem freshAfter_of_reads
    (hreads : ∀ (n : ℕ) row, s.calls[n]? = some (.read keyId row) →
      limitOf row = limitOf (s.rows keyId)) : FreshAfter keyId s' := by
  intro h t hrun n limit hle hlimit
  let V : Set ℕ := {limit | ∃ p ∈ h, limit = limitOf (p.1.rows keyId)}
  have hknows : h ≠ [] → OnlyKnows keyId V s'.calls.length s' := by
    intro hne
    obtain ⟨p, rest, rfl⟩ := List.exists_cons_of_ne_nil hne
    have hp : p.1 = s' := hrun.exists_of_cons.1
    refine ⟨fun entry hentry ↦ ?_, fun m phase hm ↦ ⟨?_, fun limit hle _ ↦ ?_⟩⟩
    · -- the entry is gone
      rw [eq_of_invalidated hi hs] at hentry
      change Function.update s.limitCache keyId none keyId = _ at hentry
      rw [Function.update_self] at hentry
      cases hentry
    · rintro row rfl
      refine ⟨p, List.mem_cons_self, ?_⟩
      rw [hp, rows_of_invalidated hi hs]
      exact hreads m row ((read_of_invalidated hi hs).1 hm)
    · rw [List.getElem?_eq_none hle] at hm
      cases hm
  have hne : h ≠ [] := by
    -- without a step there is no later call
    rintro rfl
    rw [hrun.eq_of_nil, List.getElem?_eq_none hle] at hlimit
    cases hlimit
  have hkept : OnlyKnows keyId V s'.calls.length t :=
    Run.invariant_of_forall (c := fun u _ ↦ limitOf (u.rows keyId) ∈ V) (hknows hne)
      (fun hu hrow hstep ↦ hu.step hrow hstep) hrun fun p hp ↦ ⟨p, hp, rfl⟩
  obtain ⟨phase, hphase, hsome⟩ := Option.bind_eq_some_iff.1 hlimit
  exact (hkept.phase n phase hphase).limit limit hle hsome

/-- A read under way that holds another limit stores it, and the next call is held to it. -/
theorem not_freshAfter_of_read {n : ℕ} {row : Option ℕ}
    (hn : s.calls[n]? = some (.read keyId row)) (hne : limitOf row ≠ limitOf (s.rows keyId)) :
    ¬FreshAfter keyId s' := by
  intro hfresh
  have hread : s'.calls[n]? = some (.read keyId row) := (read_of_invalidated hi hs).2 hn
  let entry : CachedLimit := ⟨limitOf row, s'.now + LIMIT_CACHE_TTL_MS⟩
  let u : LimitState := (s'.setEntry keyId (some entry)).setPhase n (.resolved keyId (limitOf row))
  have hu : s'.step (.resume n) = some u := by
    change s'.calls[n]?.bind (s'.resumeCall n) = some u
    rw [hread]
    rfl
  have hcached : u.cached keyId = some entry := by
    change (Function.update s'.limitCache keyId (some entry) keyId).filter _ = some entry
    have hlater : u.now < entry.expiresAt := Nat.lt_add_of_pos_right (by decide)
    rw [Function.update_self, Option.filter_some, if_pos (decide_eq_true hlater)]
  have hconsume : u.step (.consume keyId) = some (u.enter (.resolved keyId entry.limit)) := by
    unfold LimitState.step
    dsimp only
    rw [hcached]
  have hlength : u.calls.length = s'.calls.length := List.length_set ..
  obtain ⟨p, hp, hlimit⟩ := hfresh _ _ ((Run.nil.snoc hu).snoc hconsume) s'.calls.length entry.limit
    le_rfl (by
      change (u.calls ++ [_])[_]?.bind _ = _
      rw [← hlength, List.getElem?_concat_length]
      rfl)
  -- the row is not written on the way
  have hrows : p.1.rows = s.rows := by
    rw [← rows_of_invalidated hi hs]
    simp only [List.nil_append, List.mem_append, List.mem_singleton] at hp
    rcases hp with rfl | rfl <;> rfl
  rw [hrows] at hlimit
  exact hne hlimit

end Invalidation

/-- After an invalidation later calls are held to the limits of the row exactly when the reads under
way hold its limit already. -/
theorem freshAfter_iff {i : ℕ} (hi : s.calls[i]? = some (.updated keyId))
    (hs : s.step (.resume i) = some s') :
    FreshAfter keyId s' ↔ ∀ (n : ℕ) row, s.calls[n]? = some (.read keyId row) →
      limitOf row = limitOf (s.rows keyId) := by
  constructor
  · intro hfresh n row hn
    by_contra hne
    exact not_freshAfter_of_read hi hs hn hne hfresh
  · exact freshAfter_of_reads hi hs

/-- A limit is lowered from 60 to 10. Two reads are under way when the entry is dropped: one of the
new limit, and one of another key. -/
theorem freshAfter_lowered : ∃ h s s', Run LimitState.step { rows := fun _ ↦ some 60 } h s ∧
    s.calls = [.updated "k", .read "k" (some 10), .read "j" (some 60)] ∧
    s.step (.resume 0) = some s' ∧ FreshAfter "k" s' := by
  obtain ⟨h, s, hrun, hcheck⟩ := Run.exists_of_check LimitState.step { rows := fun _ ↦ some 60 }
    [.setKeyRateLimit "k" 10, .query 0, .resume 0, .query 0, .consume "k", .query 1, .consume "j",
      .query 2]
    (fun _ s ↦ s.calls == [.updated "k", .read "k" (some 10), .read "j" (some 60)] &&
      s.rows "k" == some 10)
    (by decide +kernel)
  rw [Bool.and_eq_true, beq_iff_eq, beq_iff_eq] at hcheck
  obtain ⟨hcalls, hrow⟩ := hcheck
  have hupdated : s.calls[0]? = some (.updated "k") := by
    rw [hcalls]
    rfl
  have hs : s.step (.resume 0) = some ((s.setEntry "k" none).setPhase 0 (.set "k")) := by
    change s.calls[0]?.bind (s.resumeCall 0) = _
    rw [hupdated]
    rfl
  refine ⟨h, s, _, hrun, hcalls, hs, (freshAfter_iff hupdated hs).2 fun n row hn ↦ ?_⟩
  have hcall : LimitPhase.read "k" row ∈ s.calls := List.mem_of_getElem? hn
  simp only [hcalls, List.mem_cons, List.not_mem_nil, or_false, LimitPhase.read.injEq, reduceCtorEq,
    false_or, true_and] at hcall
  rcases hcall with rfl | ⟨hkey, -⟩
  · rw [hrow]
  · exact absurd hkey (by decide)

/-- A call reads 60, the limit is lowered to 10 and the entry dropped, and then the call stores 60:
the next one is held to it. -/
theorem stale_limit : ∃ h s s', Run LimitState.step { rows := fun _ ↦ some 60 } h s ∧
    s.calls[1]? = some (.updated "k") ∧ s.step (.resume 1) = some s' ∧ ¬FreshAfter "k" s' := by
  obtain ⟨h, s, hrun, hcheck⟩ := Run.exists_of_check LimitState.step { rows := fun _ ↦ some 60 }
    [.consume "k", .query 0, .setKeyRateLimit "k" 10, .query 1, .resume 1, .query 1]
    (fun _ s ↦ s.calls == [.read "k" (some 60), .updated "k"] && s.rows "k" == some 10)
    (by decide +kernel)
  rw [Bool.and_eq_true, beq_iff_eq, beq_iff_eq] at hcheck
  obtain ⟨hcalls, hrow⟩ := hcheck
  have hupdated : s.calls[1]? = some (.updated "k") := by
    rw [hcalls]
    rfl
  have hs : s.step (.resume 1) = some ((s.setEntry "k" none).setPhase 1 (.set "k")) := by
    change s.calls[1]?.bind (s.resumeCall 1) = _
    rw [hupdated]
    rfl
  have hread : s.calls[0]? = some (.read "k" (some 60)) := by
    rw [hcalls]
    rfl
  refine ⟨h, s, _, hrun, hupdated, hs, not_freshAfter_of_read hupdated hs hread ?_⟩
  rw [hrow]
  decide

end ModelConnector.Auth
