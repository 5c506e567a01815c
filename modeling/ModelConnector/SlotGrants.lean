import ModelConnector.Connectors.Semaphore

/-!
# Who gets a slot

`semaphore_correct` is what the callers of a semaphore rely on, over every interleaving of calls of
`acquire`, timers and releases. The queue is tied to the history: of the calls that had to wait, in
the order in which they were made, those that did not time out are those that were handed a slot,
followed by those that are still waiting (`Sound.fifo`).
-/

namespace ModelConnector.Connectors.Slots

variable {s s' : Slots} {h : List (Slots × SlotEvent)} {waits handed expired : List ℕ} {call : ℕ}

/-! ### The history -/

/-- The call that begins to wait. -/
def waiting : Slots × SlotEvent → Option ℕ
  | (s, .acquire _) => if s.semaphore.current < s.semaphore.max then none else some s.calls
  | _ => none

/-- The waiting call that is handed a slot. -/
def handing : Slots × SlotEvent → Option ℕ
  | (s, .release _) => s.semaphore.queue.head?
  | _ => none

/-- The waiting call that times out. -/
def expiring : Slots × SlotEvent → Option ℕ
  | (_, .timeout call) => some call
  | _ => none

/-- The calls that had to wait, in the order they were made. -/
def waitsOf (h : List (Slots × SlotEvent)) : List ℕ :=
  h.filterMap waiting

/-- The waiting calls that were handed a slot, in the order they were. -/
def handedOf (h : List (Slots × SlotEvent)) : List ℕ :=
  h.filterMap handing

/-- The waiting calls that timed out. -/
def expiredOf (h : List (Slots × SlotEvent)) : List ℕ :=
  h.filterMap expiring

theorem filterMap_snoc {α β : Type} (f : α → Option β) (l : List α) (a : α) :
    (l ++ [a]).filterMap f = l.filterMap f ++ (f a).toList := by
  rw [List.filterMap_append]
  cases hfa : f a with
  | none => simp [hfa]
  | some b => simp [hfa]

/-! ### The invariant -/

/-- The semaphore agrees with its callers, and with the calls that had to wait, were handed a slot
and timed out. -/
structure Sound (waits handed expired : List ℕ) (s : Slots) : Prop where
  current : s.semaphore.current = s.holding.length
  bounded : s.semaphore.current ≤ s.semaphore.max
  full : s.semaphore.queue ≠ [] → s.semaphore.current = s.semaphore.max
  fifo : waits.filter (fun call ↦ call ∉ expired) = handed ++ s.semaphore.queue
  ordered : waits.Pairwise (· < ·)
  made : ∀ call ∈ waits, call < s.calls
  expired_waits : ∀ call ∈ expired, call ∈ waits
  armed_waits : ∀ timer ∈ s.armed, timer.1 ∈ s.semaphore.queue
  holding_made : ∀ call ∈ s.holding, call ∈ handed ∨ call < s.calls ∧ call ∉ waits
  distinct : s.holding.Nodup

namespace Sound

/-- No call is twice among those that were handed a slot and those in the queue. -/
theorem nodup (hs : Sound waits handed expired s) : (handed ++ s.semaphore.queue).Nodup := by
  rw [← hs.fifo]
  exact (hs.ordered.imp fun hlt ↦ hlt.ne).filter _

/-- A call in the queue had to wait. -/
theorem queue_waits (hs : Sound waits handed expired s) (hcall : call ∈ s.semaphore.queue) :
    call ∈ waits := by
  have hmem : call ∈ waits.filter fun call ↦ call ∉ expired := by
    rw [hs.fifo]
    exact List.mem_append_right _ hcall
  exact (List.mem_filter.1 hmem).1

/-- A call that was handed a slot had to wait, and did not time out. -/
theorem handed_waits (hs : Sound waits handed expired s) (hcall : call ∈ handed) :
    call ∈ waits ∧ call ∉ expired := by
  have hmem : call ∈ waits.filter fun call ↦ call ∉ expired := by
    rw [hs.fifo]
    exact List.mem_append_left _ hcall
  exact ⟨(List.mem_filter.1 hmem).1, of_decide_eq_true (List.mem_filter.1 hmem).2⟩

/-- A call that timed out has no slot. -/
theorem not_holding (hs : Sound waits handed expired s) (hcall : call ∈ expired) :
    call ∉ s.holding := by
  intro hholds
  rcases hs.holding_made call hholds with hhanded | ⟨-, hnot⟩
  · exact (hs.handed_waits hhanded).2 hcall
  · exact hnot (hs.expired_waits call hcall)

/-- A call in the queue has no slot. -/
theorem queue_not_holding (hs : Sound waits handed expired s) (hcall : call ∈ s.semaphore.queue) :
    call ∉ s.holding := by
  intro hholds
  rcases hs.holding_made call hholds with hhanded | ⟨-, hnot⟩
  · exact (List.nodup_append.1 hs.nodup).2.2 call hhanded call hcall rfl
  · exact hnot (hs.queue_waits hcall)

/-- A call that has a slot was made. -/
theorem holding_lt (hs : Sound waits handed expired s) (hcall : call ∈ s.holding) :
    call < s.calls := by
  rcases hs.holding_made call hcall with hhanded | ⟨hmade, -⟩
  · exact hs.made call (hs.handed_waits hhanded).1
  · exact hmade

theorem init (max : ℕ) : Sound [] [] [] (init max) where
  current := rfl
  bounded := Int.natCast_nonneg max
  full := fun hne ↦ absurd rfl hne
  fifo := rfl
  ordered := .nil
  made := by simp
  expired_waits := by simp
  armed_waits := by simp [Slots.init]
  holding_made := by simp [Slots.init]
  distinct := .nil

/-- A call that finds a free slot leaves the queue alone. -/
theorem acquire_free (hs : Sound waits handed expired s)
    (hfree : s.semaphore.current < s.semaphore.max) :
    Sound waits handed expired (grant { s with
      semaphore := { s.semaphore with current := s.semaphore.current + 1 }
      calls := s.calls + 1 } s.calls) where
  current := by simp [grant, hs.current]
  bounded := Int.add_one_le_iff.2 hfree
  full := fun hne ↦ absurd (hs.full hne) hfree.ne
  fifo := hs.fifo
  ordered := hs.ordered
  made := fun call hcall ↦ (hs.made call hcall).trans (Nat.lt_succ_self _)
  expired_waits := hs.expired_waits
  armed_waits := fun timer htimer ↦ hs.armed_waits timer (List.mem_filter.1 htimer).1
  holding_made := fun call hcall ↦ by
    rcases List.mem_cons.1 hcall with rfl | hcall
    · exact .inr ⟨Nat.lt_succ_self _, fun hmem ↦ (hs.made _ hmem).ne rfl⟩
    · exact (hs.holding_made call hcall).imp_right fun hmade ↦
        ⟨hmade.1.trans (Nat.lt_succ_self _), hmade.2⟩
  distinct := List.nodup_cons.2 ⟨fun hmem ↦ (hs.holding_lt hmem).ne rfl, hs.distinct⟩

/-- A call that finds none joins the queue. -/
theorem acquire_full (hs : Sound waits handed expired s) (timeoutMs : Option ℕ)
    (hfull : s.semaphore.max ≤ s.semaphore.current) :
    Sound (waits ++ [s.calls]) handed expired { s with
      semaphore := { s.semaphore with queue := s.semaphore.queue ++ [s.calls] }
      calls := s.calls + 1
      armed := (timeoutMs.toList.map fun ms ↦ (s.calls, ms)) ++ s.armed } where
  current := hs.current
  bounded := hs.bounded
  full := fun _ ↦ le_antisymm hs.bounded hfull
  fifo := by
    have hfresh : s.calls ∉ expired := fun hmem ↦ (hs.made _ (hs.expired_waits _ hmem)).ne rfl
    rw [List.filter_append, hs.fifo, List.append_assoc]
    simp [hfresh]
  ordered := by
    rw [List.pairwise_append]
    refine ⟨hs.ordered, List.pairwise_singleton _ _, fun call hcall last hlast ↦ ?_⟩
    rw [List.mem_singleton.1 hlast]
    exact hs.made call hcall
  made := fun call hcall ↦ by
    rcases List.mem_append.1 hcall with hcall | hcall
    · exact (hs.made call hcall).trans (Nat.lt_succ_self _)
    · rw [List.mem_singleton.1 hcall]
      exact Nat.lt_succ_self _
  expired_waits := fun call hcall ↦ List.mem_append_left _ (hs.expired_waits call hcall)
  armed_waits := fun timer htimer ↦ by
    rcases List.mem_append.1 htimer with htimer | htimer
    · obtain ⟨ms, -, rfl⟩ := List.mem_map.1 htimer
      exact List.mem_append_right _ List.mem_cons_self
    · exact List.mem_append_left _ (hs.armed_waits timer htimer)
  holding_made := fun call hcall ↦ by
    refine (hs.holding_made call hcall).imp_right fun hmade ↦
      ⟨hmade.1.trans (Nat.lt_succ_self _), fun hmem ↦ ?_⟩
    rcases List.mem_append.1 hmem with hmem | hmem
    · exact hmade.2 hmem
    · exact hmade.1.ne (List.mem_singleton.1 hmem)
  distinct := hs.distinct

/-- What times out is one call, which leaves the queue. -/
theorem timeout (hs : Sound waits handed expired s) (hstep : s.step (.timeout call) = some s') :
    Sound waits handed (expired ++ [call]) s' := by
  obtain ⟨⟨timer, htimer, rfl⟩, rfl⟩ := step_timeout hstep
  have hqueued := hs.armed_waits timer htimer
  obtain ⟨-, hqueue, hdisjoint⟩ := List.nodup_append.1 hs.nodup
  exact {
    current := hs.current
    bounded := hs.bounded
    full := fun hne ↦ hs.full fun hnil ↦ hne (by simp [hnil])
    fifo := by
      have hkeep : handed.filter (fun call ↦ call != timer.1) = handed :=
        List.filter_eq_self.2 fun call hcall ↦ bne_iff_ne.2 fun heq ↦
          hdisjoint call hcall timer.1 hqueued heq
      have hsplit : waits.filter (fun call ↦ call ∉ expired ++ [timer.1]) =
          (waits.filter fun call ↦ call ∉ expired).filter fun call ↦ call != timer.1 := by
        rw [List.filter_filter]
        refine List.filter_congr fun call _ ↦ ?_
        rw [Bool.eq_iff_iff]
        simp [and_comm]
      rw [hsplit, hs.fifo, List.filter_append, hkeep, hqueue.erase_eq_filter]
    ordered := hs.ordered
    made := hs.made
    expired_waits := fun call hcall ↦ by
      rcases List.mem_append.1 hcall with hcall | hcall
      · exact hs.expired_waits call hcall
      · rw [List.mem_singleton.1 hcall]
        exact hs.queue_waits hqueued
    armed_waits := fun other hother ↦ by
      obtain ⟨hmem, hne⟩ := List.mem_filter.1 hother
      exact (List.mem_erase_of_ne (bne_iff_ne.1 hne)).2 (hs.armed_waits other hmem)
    holding_made := hs.holding_made
    distinct := hs.distinct }

/-- A slot that is given back is free, when nobody waits, or goes to the first of the queue. -/
theorem release (hs : Sound waits handed expired s) (hstep : s.step (.release call) = some s') :
    Sound waits (handed ++ s.semaphore.queue.head?.toList) expired s' := by
  obtain ⟨hholds, hcases⟩ := step_release hstep
  have hpos := List.length_pos_of_mem hholds
  have hlength := List.length_erase_of_mem hholds
  have hcurrent := hs.current
  have hbounded := hs.bounded
  rcases hcases with ⟨hqueue, rfl⟩ | ⟨next, queue, hqueue, rfl⟩
  · rw [hqueue, List.head?_nil, Option.toList_none, List.append_nil]
    exact { hs with
      current := by
        dsimp only
        omega
      bounded := by
        dsimp only
        omega
      full := fun hne ↦ absurd hqueue hne
      holding_made := fun other hother ↦ hs.holding_made other (List.mem_of_mem_erase hother)
      distinct := hs.distinct.erase _ }
  -- the slot changes hands, so that the count stays
  · rw [hqueue, List.head?_cons, Option.toList_some]
    exact {
      current := by
        simp only [grant, List.length_cons]
        omega
      bounded := hs.bounded
      full := fun _ ↦ hs.full (by rw [hqueue]; exact List.cons_ne_nil _ _)
      fifo := by
        rw [hs.fifo, hqueue]
        exact List.append_cons _ _ _
      ordered := hs.ordered
      made := hs.made
      expired_waits := hs.expired_waits
      armed_waits := fun timer htimer ↦ by
        obtain ⟨hmem, hne⟩ := List.mem_filter.1 htimer
        have hqueued := hs.armed_waits timer hmem
        rw [hqueue] at hqueued
        exact (List.mem_cons.1 hqueued).resolve_left (bne_iff_ne.1 hne)
      holding_made := fun other hother ↦ by
        rcases List.mem_cons.1 hother with rfl | hother
        · exact .inl (List.mem_append_right _ List.mem_cons_self)
        · exact (hs.holding_made other (List.mem_of_mem_erase hother)).imp_left
            (List.mem_append_left _)
      distinct := by
        have hfirst : next ∈ s.semaphore.queue := by
          rw [hqueue]
          exact List.mem_cons_self
        exact List.nodup_cons.2
          ⟨fun hmem ↦ hs.queue_not_holding hfirst (List.mem_of_mem_erase hmem), hs.distinct.erase _⟩ }

end Sound

/-! ### Runs -/

theorem sound_of_run {max : ℕ} (hr : Run step (init max) h s) :
    Sound (waitsOf h) (handedOf h) (expiredOf h) s ∧ s.semaphore.max = max := by
  induction hr with
  | nil => exact ⟨.init max, rfl⟩
  | @snoc h s s' e _ hstep ih =>
    obtain ⟨hs, hmax⟩ := ih
    unfold waitsOf handedOf expiredOf
    rw [filterMap_snoc, filterMap_snoc, filterMap_snoc]
    cases e with
    | acquire timeoutMs =>
      simp only [handing, expiring, Option.toList_none, List.append_nil]
      rcases step_acquire hstep with ⟨hfree, rfl⟩ | ⟨hfull, rfl⟩
      · rw [waiting, if_pos hfree, Option.toList_none, List.append_nil]
        exact ⟨hs.acquire_free hfree, hmax⟩
      · rw [waiting, if_neg (not_lt.2 hfull), Option.toList_some]
        exact ⟨hs.acquire_full timeoutMs hfull, hmax⟩
    | timeout call =>
      simp only [waiting, handing, expiring, Option.toList_none, List.append_nil,
        Option.toList_some]
      refine ⟨hs.timeout hstep, ?_⟩
      obtain ⟨-, rfl⟩ := step_timeout hstep
      exact hmax
    | release call =>
      simp only [waiting, handing, expiring, Option.toList_none, List.append_nil]
      refine ⟨hs.release hstep, ?_⟩
      obtain ⟨-, ⟨-, rfl⟩ | ⟨_, _, -, rfl⟩⟩ := step_release hstep <;> exact hmax

/-- **The semaphore is correct.** In every interleaving, the count of active slots is that of the
grants that are outstanding and never passes the maximum; of the calls that had to wait, those that
did not time out are handed slots in the order they were made; a call that timed out is never
granted; and nobody waits while a slot is free. -/
theorem semaphore_correct {max : ℕ} (hr : Run step (init max) h s) :
    (s.semaphore.current = s.holding.length ∧ s.semaphore.current ≤ max) ∧
      (waitsOf h).filter (fun call ↦ call ∉ expiredOf h) = handedOf h ++ s.semaphore.queue ∧
      (∀ call ∈ expiredOf h, call ∉ handedOf h ∧ call ∉ s.holding) ∧
      (s.semaphore.queue ≠ [] → s.semaphore.current = max) := by
  obtain ⟨hs, rfl⟩ := sound_of_run hr
  exact ⟨⟨hs.current, hs.bounded⟩, hs.fifo,
    fun call hcall ↦ ⟨fun hhanded ↦ (hs.handed_waits hhanded).2 hcall, hs.not_holding hcall⟩,
    hs.full⟩

/-- One slot: the second call times out, and the third is handed the slot of the first. -/
theorem semaphore_correct_timeout : ∃ h s, Run step (init 1) h s ∧
    waitsOf h = [1, 2, 3] ∧ expiredOf h = [1] ∧ handedOf h = [2] ∧ s.semaphore.queue = [3] ∧
      s.semaphore.current = 1 := by
  obtain ⟨h, s, hr, hcheck⟩ := Run.exists_of_check step (init 1)
    [.acquire none, .acquire (some 5), .acquire none, .acquire (some 9), .timeout 1, .release 0]
    (fun h s ↦ decide (waitsOf h = [1, 2, 3] ∧ expiredOf h = [1] ∧ handedOf h = [2] ∧
      s.semaphore.queue = [3])) (by decide +kernel)
  obtain ⟨hwaits, hexpired, hhanded, hqueue⟩ := of_decide_eq_true hcheck
  have hfull := (semaphore_correct hr).2.2.2 (by rw [hqueue]; decide)
  exact ⟨h, s, hr, hwaits, hexpired, hhanded, hqueue, hfull⟩

end ModelConnector.Connectors.Slots
