import Mathlib.Tactic.Linarith
import ModelConnector.Connectors.Failover

/-!
# What a failover chain guarantees

Over any behaviour of the candidates: which of them are executed, how long each may take, when the
chain ends and what it answers (`failover_chain_keeps`), and when a candidate is executed after the
client has already received output (`no_failover_after_chunk_iff`).
-/

namespace ModelConnector

open Connectors

namespace Connectors

/-- The hop has noted that a chunk was sent, or its response says so. -/
def HopRecord.delivered (hop : HopRecord) : Bool :=
  hop.run.noted ||
    match hop.run.result with
    | .returned response => responseDeliveredChunk response
    | .threw => false

/-- The error the hop leaves behind. -/
def HopRecord.failure (hop : HopRecord) : ChainHopFailure :=
  hopFailure hop.candidate hop.run.result

end Connectors

section Loop

variable {args : ChainArgs} {startedAt now : ℚ} {index : ℕ} {tried : List FailoverAttempt}
  {lastHop : Option ChainHopFailure} {candidate : CascadeCandidate}
  {candidates rest : List CascadeCandidate}

/-- One turn of the loop: the deadline is spent, the chain ends with the hop, or it goes on. -/
theorem runHops_cases (args : ChainArgs) (startedAt : ℚ) (index : ℕ) (now : ℚ)
    (tried : List FailoverAttempt) (lastHop : Option ChainHopFailure)
    (candidate : CascadeCandidate) (rest : List CascadeCandidate) :
    (args.deadlineMs - (now - startedAt) < 1 ∧
      runHops args startedAt index now tried lastHop (candidate :: rest) =
        { outcome := .deadline tried lastHop, hops := [], endedAt := now }) ∨
    ∃ hop, hop = runHop args index now (args.deadlineMs - (now - startedAt)) candidate ∧
      1 ≤ args.deadlineMs - (now - startedAt) ∧
      ((∃ response, settleHop args candidate hop.run = .success response ∧
          runHops args startedAt index now tried lastHop (candidate :: rest) =
            { outcome := .success response, hops := [hop], endedAt := hop.run.endsAt }) ∨
        (∃ failure retryAfter, settleHop args candidate hop.run = .abort failure retryAfter ∧
          runHops args startedAt index now tried lastHop (candidate :: rest) =
            { outcome := .abort failure retryAfter, hops := [hop], endedAt := hop.run.endsAt }) ∨
        (settleHop args candidate hop.run = .advance hop.failure ∧
          runHops args startedAt index now tried lastHop (candidate :: rest) =
            (runHops args startedAt (index + 1) hop.run.endsAt (tried ++ [hop.failure.attempt])
              (some hop.failure) rest).after hop)) := by
  by_cases hspent : args.deadlineMs - (now - startedAt) < 1
  · exact .inl ⟨hspent, if_pos hspent⟩
  · refine .inr ⟨_, rfl, not_lt.1 hspent, ?_⟩
    cases hsettle : settleHop args candidate
        (runHop args index now (args.deadlineMs - (now - startedAt)) candidate).run with
    | success response =>
      refine .inl ⟨response, rfl, ?_⟩
      rw [runHops]
      simp only [if_neg hspent, hsettle]
    | abort failure retryAfter =>
      refine .inr (.inl ⟨failure, retryAfter, rfl, ?_⟩)
      rw [runHops]
      simp only [if_neg hspent, hsettle]
    | advance failure =>
      obtain ⟨rfl, -⟩ := settleHop_advance hsettle
      refine .inr (.inr ⟨rfl, ?_⟩)
      rw [runHops]
      simp only [if_neg hspent, hsettle]
      rfl

/-- No hop is executed when there is no candidate or no time. -/
theorem hops_eq_nil_iff : (runHops args startedAt index now tried lastHop candidates).hops = [] ↔
    candidates = [] ∨ args.deadlineMs - (now - startedAt) < 1 := by
  cases candidates with
  | nil => exact iff_of_true rfl (.inl rfl)
  | cons candidate rest =>
    obtain ⟨hspent, hrun⟩ | ⟨hop, -, hleft, hcases⟩ :=
      runHops_cases args startedAt index now tried lastHop candidate rest
    · exact iff_of_true (by rw [hrun]) (.inr hspent)
    · refine iff_of_false ?_ (by simpa using hleft)
      obtain ⟨_, -, hrun⟩ | ⟨_, _, -, hrun⟩ | ⟨-, hrun⟩ := hcases
      all_goals
        rw [hrun]
        exact List.cons_ne_nil _ _

/-- The hops are the first candidates, in their order. -/
theorem hops_candidates :
    (runHops args startedAt index now tried lastHop candidates).hops.map HopRecord.candidate =
      candidates.take (runHops args startedAt index now tried lastHop candidates).hops.length := by
  induction candidates generalizing index now tried lastHop with
  | nil => rfl
  | cons candidate rest ih =>
    obtain ⟨-, hrun⟩ | ⟨hop, rfl, -, ⟨_, -, hrun⟩ | ⟨_, _, -, hrun⟩ | ⟨-, hrun⟩⟩ :=
      runHops_cases args startedAt index now tried lastHop candidate rest
    · rw [hrun]
      rfl
    · rw [hrun]
      rfl
    · rw [hrun]
      rfl
    · rw [hrun]
      show candidate :: _ = candidate :: _
      rw [← ih]

/-- Every hop is given at least a millisecond, and at most the time that is left. -/
theorem hops_timeout {hop : HopRecord}
    (hhop : hop ∈ (runHops args startedAt index now tried lastHop candidates).hops) :
    1 ≤ hop.timeoutMs ∧
      (hop.timeoutMs : ℚ) ≤ args.deadlineMs - (hop.startedAt - startedAt) := by
  induction candidates generalizing index now tried lastHop with
  | nil => cases hhop
  | cons candidate rest ih =>
    obtain ⟨-, hrun⟩ | ⟨first, rfl, hleft, ⟨_, -, hrun⟩ | ⟨_, _, -, hrun⟩ | ⟨-, hrun⟩⟩ :=
      runHops_cases args startedAt index now tried lastHop candidate rest
    all_goals rw [hrun] at hhop
    · cases hhop
    · rw [List.mem_singleton.1 hhop]
      exact capHopTimeout_bounds _ hleft
    · rw [List.mem_singleton.1 hhop]
      exact capHopTimeout_bounds _ hleft
    · rcases List.mem_cons.1 hhop with rfl | hhop
      · exact capHopTimeout_bounds _ hleft
      · exact ih hhop

/-- When every hop ends within its timeout, the chain ends within its deadline. -/
theorem endedAt_le (hnow : now ≤ startedAt + args.deadlineMs)
    (hends : ∀ hop ∈ (runHops args startedAt index now tried lastHop candidates).hops,
      hop.run.endsAt ≤ hop.startedAt + hop.timeoutMs) :
    (runHops args startedAt index now tried lastHop candidates).endedAt ≤
      startedAt + args.deadlineMs := by
  induction candidates generalizing index now tried lastHop with
  | nil => exact hnow
  | cons candidate rest ih =>
    obtain ⟨-, hrun⟩ | ⟨first, hfirst, hleft, hcases⟩ :=
      runHops_cases args startedAt index now tried lastHop candidate rest
    · rw [hrun]
      exact hnow
    · -- the first hop ends within what was left when it started
      have hend : first.run.endsAt ≤ first.startedAt + first.timeoutMs →
          first.run.endsAt ≤ startedAt + args.deadlineMs := by
        intro hend
        have htimeout : (first.timeoutMs : ℚ) ≤ args.deadlineMs - (now - startedAt) := by
          rw [hfirst]
          exact (capHopTimeout_bounds _ hleft).2
        have hstart : first.startedAt = now := by rw [hfirst]; rfl
        rw [hstart] at hend
        linarith
      obtain ⟨_, -, hrun⟩ | ⟨_, _, -, hrun⟩ | ⟨-, hrun⟩ := hcases
      · rw [hrun] at hends ⊢
        exact hend (hends first (List.mem_singleton_self _))
      · rw [hrun] at hends ⊢
        exact hend (hends first (List.mem_singleton_self _))
      · rw [hrun] at hends ⊢
        exact ih (hend (hends first List.mem_cons_self)) fun hop hhop ↦
          hends hop (List.mem_cons_of_mem _ hhop)

/-- The chain succeeds when its last hop did. -/
theorem outcome_success_iff {response : HopResponse} :
    (runHops args startedAt index now tried lastHop candidates).outcome = .success response ↔
      ∃ hop, (runHops args startedAt index now tried lastHop candidates).hops.getLast? = some hop ∧
        hop.run.result = .returned response ∧ response.response.status = .success := by
  induction candidates generalizing index now tried lastHop with
  | nil => simp [runHops]
  | cons candidate rest ih =>
    obtain ⟨-, hrun⟩ | ⟨hop, -, -, ⟨found, hsettle, hrun⟩ | ⟨_, _, hsettle, hrun⟩ |
        ⟨hsettle, hrun⟩⟩ := runHops_cases args startedAt index now tried lastHop candidate rest
    · simp [hrun]
    · obtain ⟨hresult, hstatus⟩ := settleHop_success_iff.1 hsettle
      simp only [hrun, ChainOutcome.success.injEq, List.getLast?_singleton, Option.some.injEq,
        exists_eq_left', hresult, HopResult.returned.injEq]
      constructor
      · rintro rfl
        exact ⟨rfl, hstatus⟩
      · exact And.left
    · obtain ⟨returned, hresult, hstatus, -, -⟩ := settleHop_abort hsettle
      simp only [hrun, reduceCtorEq, List.getLast?_singleton, Option.some.injEq, exists_eq_left',
        hresult, HopResult.returned.injEq, false_iff, not_and]
      rintro rfl
      exact hstatus
    · rw [hrun]
      show (runHops _ _ _ _ _ _ rest).outcome = _ ↔ ∃ last, (hop :: _).getLast? = some last ∧ _
      rw [ih, List.getLast?_cons]
      cases hlast : (runHops args startedAt (index + 1) hop.run.endsAt
          (tried ++ [hop.failure.attempt]) (some hop.failure) rest).hops.getLast? with
      | some last => simp
      | none =>
        -- the hop that was passed over is the last one, and it failed
        simp only [reduceCtorEq, false_and, exists_false, Option.getD_none, Option.some.injEq,
          exists_eq_left', false_iff, not_and]
        obtain ⟨-, hthrew | ⟨returned, hresult, hstatus, -⟩⟩ := settleHop_advance hsettle
        · rw [hthrew]
          rintro ⟨⟩
        · rw [hresult]
          rintro ⟨⟩
          exact hstatus

/-- A chain that ends in an abort ends with the error its last hop returned. -/
theorem outcome_abort {failure : ChainHopFailure} {retryAfter : Option ℚ}
    (h : (runHops args startedAt index now tried lastHop candidates).outcome =
      .abort failure retryAfter) :
    ∃ hop, (runHops args startedAt index now tried lastHop candidates).hops.getLast? = some hop ∧
      failure = hop.failure ∧ ∃ response, hop.run.result = .returned response ∧
        response.response.status ≠ .success ∧ retryAfter = response.retryAfter := by
  induction candidates generalizing index now tried lastHop with
  | nil => cases h
  | cons candidate rest ih =>
    obtain ⟨-, hrun⟩ | ⟨hop, hhop, -, ⟨_, -, hrun⟩ | ⟨_, _, hsettle, hrun⟩ | ⟨-, hrun⟩⟩ :=
      runHops_cases args startedAt index now tried lastHop candidate rest
    all_goals rw [hrun] at h ⊢
    · cases h
    · cases h
    · cases h
      obtain ⟨response, hresult, hstatus, hfailure, hretry⟩ := settleHop_abort hsettle
      have hcandidate : hop.candidate = candidate := by rw [hhop]; rfl
      refine ⟨hop, rfl, ?_, response, hresult, hstatus, hretry⟩
      rw [hfailure, HopRecord.failure, hcandidate]
    · obtain ⟨last, hlast, hrest⟩ := ih h
      refine ⟨last, ?_, hrest⟩
      show (hop :: _).getLast? = some last
      rw [List.getLast?_cons, hlast]
      rfl

/-- A chain that reports its time as spent has less than a millisecond left. -/
theorem left_of_deadline {tried' : List FailoverAttempt} {lastHop' : Option ChainHopFailure}
    (h : (runHops args startedAt index now tried lastHop candidates).outcome =
      .deadline tried' lastHop') :
    args.deadlineMs -
      ((runHops args startedAt index now tried lastHop candidates).endedAt - startedAt) < 1 := by
  induction candidates generalizing index now tried lastHop with
  | nil => cases h
  | cons candidate rest ih =>
    obtain ⟨hspent, hrun⟩ | ⟨hop, -, -, ⟨_, -, hrun⟩ | ⟨_, _, -, hrun⟩ | ⟨-, hrun⟩⟩ :=
      runHops_cases args startedAt index now tried lastHop candidate rest
    all_goals rw [hrun] at h ⊢
    · exact hspent
    · cases h
    · cases h
    · exact ih h

/-- A chain whose time is spent reports all its hops, and the error of the last one. -/
theorem outcome_deadline {tried' : List FailoverAttempt} {lastHop' : Option ChainHopFailure}
    (h : (runHops args startedAt index now tried lastHop candidates).outcome =
      .deadline tried' lastHop') :
    tried' = tried ++ (runHops args startedAt index now tried lastHop candidates).hops.map
        (fun hop ↦ hop.failure.attempt) ∧
      lastHop' = ((runHops args startedAt index now tried lastHop candidates).hops.getLast?.map
        HopRecord.failure).or lastHop := by
  induction candidates generalizing index now tried lastHop with
  | nil => cases h
  | cons candidate rest ih =>
    obtain ⟨-, hrun⟩ | ⟨hop, -, -, ⟨_, -, hrun⟩ | ⟨_, _, -, hrun⟩ | ⟨-, hrun⟩⟩ :=
      runHops_cases args startedAt index now tried lastHop candidate rest
    all_goals rw [hrun] at h ⊢
    · cases h
      simp
    · cases h
    · cases h
    · obtain ⟨htried, hlast⟩ := ih h
      show tried' = tried ++ (hop :: _).map _ ∧ lastHop' = ((hop :: _).getLast?.map _).or lastHop
      refine ⟨by rw [htried, List.map_cons, List.append_assoc]; rfl, ?_⟩
      rw [hlast, List.getLast?_cons]
      cases (runHops args startedAt (index + 1) hop.run.endsAt (tried ++ [hop.failure.attempt])
        (some hop.failure) rest).hops.getLast? with
      | none => rfl
      | some last => rfl

/-- A chain that is exhausted has executed every candidate. -/
theorem outcome_exhausted {tried' : List FailoverAttempt}
    (h : (runHops args startedAt index now tried lastHop candidates).outcome =
      .exhausted tried') :
    tried' = tried ++ (runHops args startedAt index now tried lastHop candidates).hops.map
        (fun hop ↦ hop.failure.attempt) ∧
      (runHops args startedAt index now tried lastHop candidates).hops.length =
        candidates.length := by
  induction candidates generalizing index now tried lastHop with
  | nil =>
    cases h
    simp [runHops]
  | cons candidate rest ih =>
    obtain ⟨-, hrun⟩ | ⟨hop, -, -, ⟨_, -, hrun⟩ | ⟨_, _, -, hrun⟩ | ⟨-, hrun⟩⟩ :=
      runHops_cases args startedAt index now tried lastHop candidate rest
    all_goals rw [hrun] at h ⊢
    · cases h
    · cases h
    · cases h
    · obtain ⟨htried, hlength⟩ := ih h
      show tried' = tried ++ (hop :: _).map _ ∧ (hop :: _).length = (candidate :: rest).length
      refine ⟨by rw [htried, List.map_cons, List.append_assoc]; rfl, ?_⟩
      rw [List.length_cons, List.length_cons, hlength]

end Loop

/-! ### Order, time and outcome -/

/-- What a run of the chain keeps. -/
structure ChainKeeps (args : ChainArgs) (startedAt : ℚ) (candidates : List CascadeCandidate)
    (run : ChainRun) : Prop where
  /-- The candidates executed are the first ones of the list, in its order. -/
  inOrder : run.hops.map HopRecord.candidate = candidates.take run.hops.length
  /-- No candidate is executed twice. -/
  once : candidates.Nodup → (run.hops.map HopRecord.candidate).Nodup
  /-- Every timeout is between a millisecond and the time that is left. -/
  timeout : ∀ hop ∈ run.hops, 1 ≤ hop.timeoutMs ∧
    (hop.timeoutMs : ℚ) ≤ args.deadlineMs - (hop.startedAt - startedAt)
  /-- Hops that end in time make a chain that ends in time. -/
  inTime : (∀ hop ∈ run.hops, hop.run.endsAt ≤ hop.startedAt + hop.timeoutMs) →
    run.endedAt ≤ startedAt + args.deadlineMs
  /-- The chain succeeds exactly when the last hop does, with its response. -/
  success : ∀ response, run.outcome = .success response ↔
    ∃ hop, run.hops.getLast? = some hop ∧ hop.run.result = .returned response ∧
      response.response.status = .success
  /-- It aborts with the error of the last hop. -/
  abort : ∀ failure retryAfter, run.outcome = .abort failure retryAfter →
    ∃ hop, run.hops.getLast? = some hop ∧ failure = hop.failure ∧
      ∃ response, hop.run.result = .returned response ∧ response.response.status ≠ .success ∧
        retryAfter = response.retryAfter
  /-- It runs out of time when less than a millisecond is left, with the trace of all hops and the
  error of the last one. -/
  deadline : ∀ tried lastHop, run.outcome = .deadline tried lastHop →
    args.deadlineMs - (run.endedAt - startedAt) < 1 ∧
      tried = run.hops.map (fun hop ↦ hop.failure.attempt) ∧
        lastHop = run.hops.getLast?.map HopRecord.failure
  /-- It is exhausted when every candidate was executed. -/
  exhausted : ∀ tried, run.outcome = .exhausted tried →
    tried = run.hops.map (fun hop ↦ hop.failure.attempt) ∧ run.hops.length = candidates.length

/-- **The failover chain keeps its order and its deadline**, whatever the candidates do. -/
theorem failover_chain_keeps (args : ChainArgs) (startedAt : ℚ)
    (candidates : List CascadeCandidate) :
    ChainKeeps args startedAt candidates (runFailoverChain args startedAt candidates) where
  inOrder := hops_candidates
  once hnodup := by
    have hinOrder : (runFailoverChain args startedAt candidates).hops.map HopRecord.candidate =
        candidates.take (runFailoverChain args startedAt candidates).hops.length := hops_candidates
    rw [hinOrder]
    exact (List.take_sublist _ _).nodup hnodup
  timeout _ hhop := hops_timeout hhop
  inTime hends := by
    have hdeadline : (0 : ℚ) ≤ args.deadlineMs := args.deadlineMs.2
    exact endedAt_le (by linarith) hends
  success _ := outcome_success_iff
  abort _ _ h := outcome_abort h
  deadline _ _ h := by
    obtain ⟨htried, hlast⟩ := outcome_deadline h
    exact ⟨left_of_deadline h, htried.trans (List.nil_append _), hlast.trans Option.or_none⟩
  exhausted _ h := by
    obtain ⟨htried, hlength⟩ := outcome_exhausted h
    exact ⟨htried.trans (List.nil_append _), hlength⟩

/-! ### Output that reached the client -/

/-- After a hop that delivered output no other hop is executed. -/
def NoHopAfterChunk (hops : List HopRecord) : Prop :=
  ∀ k hop, hops[k]? = some hop → hop.delivered = true → k + 1 = hops.length

/-- A hop throws after a chunk only on the last candidate, or when the deadline is spent. -/
def ThrowsAfterChunkLast (args : ChainArgs) (startedAt : ℚ) (candidates : List CascadeCandidate)
    (hops : List HopRecord) : Prop :=
  ∀ k hop, hops[k]? = some hop → hop.run.noted = true → hop.run.result = .threw →
    k + 1 = candidates.length ∨ args.deadlineMs - (hop.run.endsAt - startedAt) < 1

section Chunk

variable {args : ChainArgs} {startedAt : ℚ}

theorem noHopAfterChunk_cons {hop : HopRecord} {hops : List HopRecord} :
    NoHopAfterChunk (hop :: hops) ↔
      (hop.delivered = true → hops = []) ∧ NoHopAfterChunk hops := by
  constructor
  · intro h
    refine ⟨fun hdelivered ↦ ?_, fun k later hk hdelivered ↦ ?_⟩
    · have hlength := h 0 hop rfl hdelivered
      rw [List.length_cons] at hlength
      exact List.length_eq_zero_iff.1 (by omega)
    · have hlength := h (k + 1) later hk hdelivered
      rw [List.length_cons] at hlength
      omega
  · rintro ⟨hfirst, hrest⟩ k later hk hdelivered
    cases k with
    | zero =>
      obtain rfl := Option.some.inj hk
      rw [hfirst hdelivered]
      rfl
    | succ k =>
      rw [List.length_cons, hrest k later hk hdelivered]

theorem throwsAfterChunkLast_cons {candidate : CascadeCandidate} {rest : List CascadeCandidate}
    {hop : HopRecord} {hops : List HopRecord} :
    ThrowsAfterChunkLast args startedAt (candidate :: rest) (hop :: hops) ↔
      (hop.run.noted = true → hop.run.result = .threw →
        rest = [] ∨ args.deadlineMs - (hop.run.endsAt - startedAt) < 1) ∧
      ThrowsAfterChunkLast args startedAt rest hops := by
  constructor
  · intro h
    refine ⟨fun hnoted hthrew ↦ ?_, fun k later hk hnoted hthrew ↦ ?_⟩
    · refine (h 0 hop rfl hnoted hthrew).imp_left fun hlength ↦ ?_
      rw [List.length_cons] at hlength
      exact List.length_eq_zero_iff.1 (by omega)
    · refine (h (k + 1) later hk hnoted hthrew).imp_left fun hlength ↦ ?_
      rw [List.length_cons] at hlength
      omega
  · rintro ⟨hfirst, hrest⟩ k later hk hnoted hthrew
    cases k with
    | zero =>
      obtain rfl := Option.some.inj hk
      refine (hfirst hnoted hthrew).imp_left fun hnil ↦ ?_
      rw [hnil]
      rfl
    | succ k =>
      refine (hrest k later hk hnoted hthrew).imp_left fun hlength ↦ ?_
      rw [List.length_cons, hlength]

theorem noHopAfterChunk_singleton (hop : HopRecord) : NoHopAfterChunk [hop] :=
  noHopAfterChunk_cons.2 ⟨fun _ ↦ rfl, fun k later hk ↦ by cases hk⟩

/-- A hop that returned ends the chain rightly. -/
theorem throwsAfterChunkLast_singleton {candidates : List CascadeCandidate} {hop : HopRecord}
    {response : HopResponse} (h : hop.run.result = .returned response) :
    ThrowsAfterChunkLast args startedAt candidates [hop] := by
  intro k later hk _ hthrew
  have hmem := List.mem_of_getElem? hk
  rw [List.mem_singleton.1 hmem, h] at hthrew
  cases hthrew

/-- A hop that is passed over has delivered output exactly when it threw after a chunk. -/
theorem delivered_of_advance {candidate : CascadeCandidate} {hop : HopRecord}
    {failure : ChainHopFailure} (h : settleHop args candidate hop.run = .advance failure) :
    hop.delivered = true ↔ hop.run.noted = true ∧ hop.run.result = .threw := by
  obtain ⟨-, hthrew | ⟨response, hresult, -, hnoted, hchunk⟩⟩ := settleHop_advance h
  · simp [HopRecord.delivered, hthrew]
  · simp [HopRecord.delivered, hresult, hnoted, hchunk]

theorem noHopAfterChunk_runHops_iff {index : ℕ} {now : ℚ} {tried : List FailoverAttempt}
    {lastHop : Option ChainHopFailure} {candidates : List CascadeCandidate} :
    NoHopAfterChunk (runHops args startedAt index now tried lastHop candidates).hops ↔
      ThrowsAfterChunkLast args startedAt candidates
        (runHops args startedAt index now tried lastHop candidates).hops := by
  induction candidates generalizing index now tried lastHop with
  | nil => exact iff_of_true (fun _ _ hk ↦ by cases hk) fun _ _ hk ↦ by cases hk
  | cons candidate rest ih =>
    obtain ⟨-, hrun⟩ | ⟨hop, -, -, ⟨_, hsettle, hrun⟩ | ⟨_, _, hsettle, hrun⟩ |
        ⟨hsettle, hrun⟩⟩ := runHops_cases args startedAt index now tried lastHop candidate rest
    all_goals rw [hrun]
    · exact iff_of_true (fun _ _ hk ↦ by cases hk) fun _ _ hk ↦ by cases hk
    · exact iff_of_true (noHopAfterChunk_singleton hop)
        (throwsAfterChunkLast_singleton (settleHop_success_iff.1 hsettle).1)
    · obtain ⟨_, hresult, -⟩ := settleHop_abort hsettle
      exact iff_of_true (noHopAfterChunk_singleton hop) (throwsAfterChunkLast_singleton hresult)
    · show NoHopAfterChunk (hop :: _) ↔ ThrowsAfterChunkLast args startedAt _ (hop :: _)
      rw [noHopAfterChunk_cons, throwsAfterChunkLast_cons, ih, delivered_of_advance hsettle,
        hops_eq_nil_iff, and_imp]

end Chunk

/-- **When output ends the failover.** After a hop that delivered output no candidate is executed
exactly when no hop throws after it noted a chunk while another candidate and time are left. -/
theorem no_failover_after_chunk_iff (args : ChainArgs) (startedAt : ℚ)
    (candidates : List CascadeCandidate) :
    NoHopAfterChunk (runFailoverChain args startedAt candidates).hops ↔
      ThrowsAfterChunkLast args startedAt candidates
        (runFailoverChain args startedAt candidates).hops :=
  noHopAfterChunk_runHops_iff

/-- Two candidates, the first of which breaks off while it streams. -/
def brokenStream : ChainArgs where
  execute index now _ :=
    if index = 0 then { result := .threw, noted := true, endsAt := now + 100 }
    else
      { result := .returned
          { response := { model := "model", result := "answer", usage := .zero, status := .success } }
        endsAt := now + 100 }

/-- The client has half an answer of the first candidate, and the second one is executed. -/
theorem failover_after_chunk :
    ¬ NoHopAfterChunk (runFailoverChain brokenStream 0
      [⟨"openmodel", "deepseek-v4-flash", .free⟩,
        ⟨"groq", "llama-3.3-70b-versatile", .free⟩]).hops := by
  intro h
  have hlength := h 0 { candidate := ⟨"openmodel", "deepseek-v4-flash", .free⟩, startedAt := 0
                        timeoutMs := 180000
                        run := { result := .threw, noted := true, endsAt := 100 } }
    (by decide +kernel) (by decide)
  revert hlength
  decide +kernel

end ModelConnector
