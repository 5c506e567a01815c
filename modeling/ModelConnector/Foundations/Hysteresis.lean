import Mathlib.Data.List.DropRight

/-!
# Hysteresis

A thing is healthy until a number of observations in a row were bad, and degraded from then on until
a number of observations in a row were good. The rule is about the observations since the last
change: `next` keeps these and looks at the last of them. `count` keeps two counters instead. A
counter that is set to zero when its phase begins gives the same phases (`count_phase_eq`). A
counter of the good ones that is not lets a later degraded phase end with its first good
observation, and gives the same phases exactly as long as no such phase begins with one
(`counts_iff`).
-/

variable {ω β : Type*} {p : ω → Bool} {l : List ω} {n : ℕ} {x : ω}

/-! ### The end of a list -/

/-- The last so many members of a list are there, and all of them satisfy a predicate. -/
def Lasts (n : ℕ) (p : ω → Bool) (l : List ω) : Prop :=
  n ≤ l.length ∧ ∀ x ∈ l.drop (l.length - n), p x = true

instance : Decidable (Lasts n p l) :=
  inferInstanceAs (Decidable (_ ∧ _))

/-- How many members at the end of a list satisfy a predicate. -/
def streak (p : ω → Bool) (l : List ω) : ℕ :=
  (l.rtakeWhile p).length

@[simp]
theorem streak_nil : streak p [] = 0 :=
  rfl

theorem streak_concat : streak p (l ++ [x]) = if p x then streak p l + 1 else 0 := by
  unfold streak
  rw [List.rtakeWhile_concat]
  split
  · rw [List.length_append, List.length_singleton]
  · rfl

theorem lasts_iff : Lasts n p l ↔ n ≤ streak p l := by
  induction l using List.reverseRecOn generalizing n with
  | nil => simp [Lasts]
  | append_singleton l x ih =>
    cases n with
    | zero => simp [Lasts]
    | succ n =>
      have hdrop : (l ++ [x]).drop ((l ++ [x]).length - (n + 1)) =
          l.drop (l.length - n) ++ [x] := by
        rw [List.length_append, List.length_singleton, Nat.add_sub_add_right,
          List.drop_append_of_le_length (Nat.sub_le _ _)]
      have hiff : Lasts (n + 1) p (l ++ [x]) ↔ Lasts n p l ∧ p x = true := by
        unfold Lasts
        rw [hdrop]
        simp [or_imp, forall_and, and_assoc]
      rw [hiff, ih, streak_concat]
      split
      · rename_i hx
        simp [hx]
      · rename_i hx
        simp [hx]

/-! ### The rule -/

/-- How observations are judged. One that does not count is not judged. What is kept of the
observation that degrades may have its part in judging what is good. -/
structure Hysteresis (ω β : Type*) where
  degradeWindows : ℕ
  recoverWindows : ℕ
  bad? : ω → Option Bool
  good? : β → ω → Option Bool
  keep : ω → β

/-- Healthy, or degraded with what was kept. -/
inductive Phase (β : Type*)
  | healthy
  | degraded (kept : β)
  deriving DecidableEq

namespace Hysteresis

/-- A phase, the observations since it began that count, and how many recoveries there were. -/
structure Course (ω β : Type*) where
  phase : Phase β := .healthy
  since : List ω := []
  recoveries : ℕ := 0

variable (H : Hysteresis ω β)

/-- **The rule**: the phase changes when the last observations since it began are all bad, or all
good. -/
def next (c : Course ω β) (x : ω) : Course ω β :=
  match c.phase with
  | .healthy =>
    match H.bad? x with
    | none => c
    | some _ =>
      if Lasts H.degradeWindows (fun y ↦ H.bad? y == some true) (c.since ++ [x]) then
        { c with phase := .degraded (H.keep x), since := [] }
      else { c with since := c.since ++ [x] }
  | .degraded kept =>
    match H.good? kept x with
    | none => c
    | some _ =>
      if Lasts H.recoverWindows (fun y ↦ H.good? kept y == some true) (c.since ++ [x]) then
        { phase := .healthy, since := [], recoveries := c.recoveries + 1 }
      else { c with since := c.since ++ [x] }

/-- A phase and two counters. -/
structure Counts (β : Type*) where
  phase : Phase β := .healthy
  degradedCount : ℕ := 0
  recoveredCount : ℕ := 0

/-- Counting in place of the rule. The counter of the good ones is cleared where a phase begins that
is degraded, or it is not. -/
def count (clears : Bool) (c : Counts β) (x : ω) : Counts β :=
  match c.phase with
  | .healthy =>
    match H.bad? x with
    | none => c
    | some bad =>
      let degradedCount := if bad then c.degradedCount + 1 else 0
      if H.degradeWindows ≤ degradedCount then
        { phase := .degraded (H.keep x), degradedCount
          recoveredCount := if clears then 0 else c.recoveredCount }
      else { c with degradedCount }
  | .degraded kept =>
    match H.good? kept x with
    | none => c
    | some good =>
      let recoveredCount := if good then c.recoveredCount + 1 else 0
      if H.recoverWindows ≤ recoveredCount then
        { phase := .healthy, degradedCount := 0, recoveredCount }
      else { c with recoveredCount }

/-- A degraded phase after the first one begins with a good observation that is not enough to
end it. -/
def Hasty (c : Course ω β) (x : ω) : Prop :=
  1 < H.recoverWindows ∧ 0 < c.recoveries ∧ c.since = [] ∧
    ∃ kept, c.phase = .degraded kept ∧ H.good? kept x = some true

/-! ### Counting follows the rule -/

variable {H} {c : Course ω β} {k : Counts β} {clears : Bool}

/-- The counters stand for the ends of the list, but what the counter of the good ones has at the
start of a later phase that is degraded is what the last recovery left. -/
structure Tracks (H : Hysteresis ω β) (clears : Bool) (c : Course ω β) (k : Counts β) : Prop where
  phase : k.phase = c.phase
  degraded : c.phase = .healthy →
    k.degradedCount = streak (fun y ↦ H.bad? y == some true) c.since
  recovered : ∀ kept, c.phase = .degraded kept →
    clears = true ∨ c.since ≠ [] ∨ c.recoveries = 0 →
    k.recoveredCount = streak (fun y ↦ H.good? kept y == some true) c.since
  left : clears = false → c.phase = .healthy ∨ c.since = [] →
    (c.recoveries = 0 → k.recoveredCount = 0) ∧
      (0 < c.recoveries → H.recoverWindows ≤ k.recoveredCount)

theorem tracks_init : Tracks H clears {} {} where
  phase := rfl
  degraded _ := rfl
  recovered _ h := nomatch h
  left _ _ := ⟨fun _ ↦ rfl, fun h ↦ absurd h (lt_irrefl 0)⟩

/-- An observation of the healthy phase. -/
theorem tracks_next_of_healthy (h : Tracks H clears c k) (hphase : c.phase = .healthy) :
    Tracks H clears (H.next c x) (H.count clears k x) := by
  have hcount : k.phase = .healthy := h.phase.trans hphase
  unfold next count
  simp only [hphase, hcount]
  cases hbad : H.bad? x with
  | none => exact h
  | some bad =>
    have hstreak : (if bad then k.degradedCount + 1 else 0) =
        streak (fun y ↦ H.bad? y == some true) (c.since ++ [x]) := by
      rw [streak_concat, h.degraded hphase, hbad]
      cases bad <;> rfl
    have hleft := h.left
    dsimp only
    simp only [lasts_iff, hstreak]
    split
    · -- the counter of the good ones is cleared, or it is what the last recovery left
      refine ⟨rfl, nofun, fun kept _ hor ↦ ?_, fun hclears _ ↦ ?_⟩
      · cases clears with
        | true => rfl
        | false =>
          have hnone : c.recoveries = 0 := by simpa using hor
          exact (hleft rfl (.inl hphase)).1 hnone
      · subst hclears
        exact hleft rfl (.inl hphase)
    · exact ⟨rfl, fun _ ↦ rfl, nofun, fun hclears _ ↦ hleft hclears (.inl hphase)⟩

/-- A good observation more, or one that is not good: the counter of the good ones says whether they
are enough, unless the observation is hasty. -/
theorem recoverWindows_le_iff {kept : β} {good : Bool} (h : Tracks H clears c k)
    (hphase : c.phase = .degraded kept) (hgood : H.good? kept x = some good)
    (hx : clears = true ∨ ¬ H.Hasty c x) :
    (H.recoverWindows ≤ (if good then k.recoveredCount + 1 else 0) ↔
      H.recoverWindows ≤ streak (fun y ↦ H.good? kept y == some true) (c.since ++ [x])) ∧
    ((if good then k.recoveredCount + 1 else 0) ≠
        streak (fun y ↦ H.good? kept y == some true) (c.since ++ [x]) →
      H.recoverWindows ≤ (if good then k.recoveredCount + 1 else 0)) := by
  rw [streak_concat, hgood]
  by_cases hor : clears = true ∨ c.since ≠ [] ∨ c.recoveries = 0
  · rw [h.recovered kept hphase hor]
    cases good <;> simp
  · push Not at hor
    obtain ⟨hclears, hsince, hrecoveries⟩ := hor
    have hle := (h.left (by simpa using hclears) (.inr hsince)).2 (Nat.pos_of_ne_zero hrecoveries)
    cases good with
    | false => simp
    | true =>
      have hone : H.recoverWindows ≤ 1 := by
        by_contra hlt
        exact hx.resolve_left hclears ⟨not_le.1 hlt, Nat.pos_of_ne_zero hrecoveries, hsince, kept,
          hphase, hgood⟩
      simp only [if_true, hsince, streak_nil, beq_self_eq_true]
      omega

/-- An observation of a degraded phase. -/
theorem tracks_next_of_degraded {kept : β} (h : Tracks H clears c k)
    (hphase : c.phase = .degraded kept) (hx : clears = true ∨ ¬ H.Hasty c x) :
    Tracks H clears (H.next c x) (H.count clears k x) := by
  have hcount : k.phase = .degraded kept := h.phase.trans hphase
  unfold next count
  simp only [hphase, hcount]
  cases hgood : H.good? kept x with
  | none => exact h
  | some good =>
    obtain ⟨hiff, heq⟩ := recoverWindows_le_iff h hphase hgood hx
    dsimp only
    by_cases hle : H.recoverWindows ≤ (if good then k.recoveredCount + 1 else 0)
    · rw [if_pos hle, if_pos (lasts_iff.2 (hiff.1 hle))]
      exact ⟨rfl, fun _ ↦ rfl, nofun, fun _ _ ↦ ⟨nofun, fun _ ↦ hle⟩⟩
    · rw [if_neg hle, if_neg fun hlasts ↦ hle (hiff.2 (lasts_iff.1 hlasts))]
      refine ⟨rfl, nofun, fun kept' hkept' _ ↦ ?_, fun _ hor ↦ ?_⟩
      · obtain rfl : kept = kept' := Phase.degraded.inj hkept'
        by_contra hne
        exact hle (heq hne)
      · rcases hor with hhealthy | hnil
        · cases hhealthy
        · simp at hnil

/-- An observation that is not hasty. -/
theorem tracks_next (h : Tracks H clears c k) (hx : clears = true ∨ ¬ H.Hasty c x) :
    Tracks H clears (H.next c x) (H.count clears k x) := by
  cases hphase : c.phase with
  | healthy => exact tracks_next_of_healthy h hphase
  | degraded kept => exact tracks_next_of_degraded h hphase hx

/-- After a hasty observation the counter says healthy, and the rule says degraded. -/
theorem phases_of_hasty (h : Tracks H false c k) (hx : H.Hasty c x) :
    (H.count false k x).phase = .healthy ∧ ∃ kept, (H.next c x).phase = .degraded kept := by
  obtain ⟨hone, hrecoveries, hsince, kept, hphase, hgood⟩ := hx
  have hle := (h.left rfl (.inr hsince)).2 hrecoveries
  have hcount : k.phase = .degraded kept := h.phase.trans hphase
  have hlasts :
      ¬ Lasts H.recoverWindows (fun y ↦ H.good? kept y == some true) (c.since ++ [x]) := by
    rw [lasts_iff, streak_concat, hsince, hgood]
    simpa using hone
  unfold next count
  simp only [hphase, hcount, hgood, if_true]
  rw [if_pos (hle.trans (Nat.le_succ _)), if_neg hlasts]
  exact ⟨rfl, kept, rfl⟩

/-- **A counter that is cleared** gives the phases of the rule. -/
theorem count_phase_eq (xs : List ω) :
    (xs.foldl (H.count true) {}).phase = (xs.foldl H.next {}).phase := by
  have hall : ∀ (c : Course ω β) (k : Counts β), Tracks H true c k →
      (xs.foldl (H.count true) k).phase = (xs.foldl H.next c).phase := by
    induction xs with
    | nil => exact fun c k h ↦ h.phase
    | cons x xs ih => exact fun c k h ↦ ih _ _ (tracks_next h (.inl rfl))
  exact hall {} {} tracks_init

/-- **A counter that is not cleared** gives the phases of the rule at every observation exactly when
none is hasty, whatever is seen of a phase besides whether it is healthy. -/
theorem counts_iff {γ : Type*} (view : Phase β → γ)
    (hview : ∀ kept, view .healthy ≠ view (.degraded kept)) (xs : List ω) :
    (∀ ys, ys <+: xs →
        view (ys.foldl (H.count false) {}).phase = view (ys.foldl H.next {}).phase) ↔
      ∀ ys y, ys ++ [y] <+: xs → ¬ H.Hasty (ys.foldl H.next {}) y := by
  have hall : ∀ (c : Course ω β) (k : Counts β), Tracks H false c k →
      ((∀ ys, ys <+: xs →
          view (ys.foldl (H.count false) k).phase = view (ys.foldl H.next c).phase) ↔
        ∀ ys y, ys ++ [y] <+: xs → ¬ H.Hasty (ys.foldl H.next c) y) := by
    induction xs with
    | nil =>
      intro c k h
      simp [h.phase]
    | cons x xs ih =>
      intro c k h
      by_cases hx : H.Hasty c x
      · refine iff_of_false (fun hphase ↦ ?_) fun hhasty ↦ hhasty [] x ⟨xs, rfl⟩ hx
        obtain ⟨hcount, kept, hnext⟩ := phases_of_hasty h hx
        have hsame : view (H.count false k x).phase = view (H.next c x).phase :=
          hphase [x] ⟨xs, rfl⟩
        rw [hcount, hnext] at hsame
        exact hview kept hsame
      · have htracks := tracks_next h (.inr hx)
        have hrest := ih _ _ htracks
        constructor
        · intro hphase ys y hys
          cases ys with
          | nil =>
            obtain rfl : y = x := (List.cons_prefix_cons.1 hys).1
            exact hx
          | cons z ys =>
            obtain ⟨rfl, hrest'⟩ := List.cons_prefix_cons.1 hys
            exact hrest.1 (fun zs hzs ↦ hphase (z :: zs) (List.cons_prefix_cons.2 ⟨rfl, hzs⟩)) ys y
              hrest'
        · intro hhasty ys hys
          cases ys with
          | nil => exact congrArg view h.phase
          | cons z ys =>
            obtain ⟨rfl, hrest'⟩ := List.cons_prefix_cons.1 hys
            exact hrest.2 (fun zs y hzs ↦ hhasty (z :: zs) y (List.cons_prefix_cons.2 ⟨rfl, hzs⟩))
              ys hrest'
  exact hall {} {} tracks_init

end Hysteresis
