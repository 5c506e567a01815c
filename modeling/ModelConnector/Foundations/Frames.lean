import Mathlib.Data.List.Basic

/-!
# Frames of a growing buffer

A reader appends what it receives to a buffer and takes complete frames off the front of it while
there are any, each changing a state, ending the work or failing. A frame that is complete stays
complete when the buffer grows, so that taking frames off one part and then off the rest with what
was received since is taking them off all of it (`drain_append`).
-/

/-- How a frame is found at the front of a buffer. -/
structure Framing (χ : Type) where
  /-- The first frame, and what follows it. -/
  next : List χ → Option (List χ × List χ)
  shorter : ∀ {buffer frame rest}, next buffer = some (frame, rest) → rest.length < buffer.length
  suffix : ∀ {buffer frame rest}, next buffer = some (frame, rest) → rest <:+ buffer
  grows : ∀ {buffer frame rest}, next buffer = some (frame, rest) → ∀ more,
    next (buffer ++ more) = some (frame, rest ++ more)
  /-- The element that completes a frame is its last one. -/
  prompt : ∀ {buffer c frame rest}, next buffer = none →
    next (buffer ++ [c]) = some (frame, rest) → rest = []

/-- What a frame does. -/
inductive Answer (σ ε : Type)
  | next (s : σ)
  | done
  | failed (e : ε)

/-- How a pass over the frames of a buffer stops. -/
inductive Drained (ε : Type)
  | waiting
  | done
  | failed (e : ε)

namespace Framing

variable {χ σ ε : Type} {F : Framing χ} {handle : σ → List χ → Answer σ ε} {s s' : σ}
  {buffer more rest : List χ}

/-- Take off frames, at most as many as the buffer is long. -/
def drainFrom (F : Framing χ) (handle : σ → List χ → Answer σ ε) :
    ℕ → σ → List χ → σ × Drained ε × List χ
  | 0, s, buffer => (s, .waiting, buffer)
  | fuel + 1, s, buffer =>
    match F.next buffer with
    | none => (s, .waiting, buffer)
    | some (frame, rest) =>
      match handle s frame with
      | .next s' => drainFrom F handle fuel s' rest
      | .done => (s, .done, rest)
      | .failed e => (s, .failed e, rest)

/-- Take off all frames that are complete. -/
def drain (F : Framing χ) (handle : σ → List χ → Answer σ ε) (s : σ) (buffer : List χ) :
    σ × Drained ε × List χ :=
  F.drainFrom handle buffer.length s buffer

theorem next_nil : F.next [] = none := by
  cases hnext : F.next [] with
  | none => rfl
  | some p => exact absurd (F.shorter hnext) (Nat.not_lt_zero _)

/-- The buffer is its own bound: a frame is not empty. -/
theorem drainFrom_eq {fuel fuel' : ℕ} (h : buffer.length ≤ fuel) (h' : buffer.length ≤ fuel') :
    F.drainFrom handle fuel s buffer = F.drainFrom handle fuel' s buffer := by
  induction fuel generalizing fuel' s buffer with
  | zero =>
    obtain rfl := List.length_eq_zero_iff.1 (Nat.le_zero.1 h)
    cases fuel' <;> simp [drainFrom, next_nil]
  | succ fuel ih =>
    cases fuel' with
    | zero =>
      obtain rfl := List.length_eq_zero_iff.1 (Nat.le_zero.1 h')
      simp [drainFrom, next_nil]
    | succ fuel' =>
      simp only [drainFrom]
      cases hnext : F.next buffer with
      | none => rfl
      | some p =>
        have hlt := F.shorter hnext
        simp only
        cases handle s p.1 with
        | next s' => exact ih (by omega) (by omega)
        | done => rfl
        | failed e => rfl

/-- One frame at a time. -/
theorem drain_eq : F.drain handle s buffer =
    match F.next buffer with
    | none => (s, .waiting, buffer)
    | some (frame, rest) =>
      match handle s frame with
      | .next s' => F.drain handle s' rest
      | .done => (s, .done, rest)
      | .failed e => (s, .failed e, rest) := by
  rw [drain, drainFrom_eq (Nat.le_refl _) (Nat.le_succ _), drainFrom]
  cases hnext : F.next buffer with
  | none => rfl
  | some p =>
    have hlt := F.shorter hnext
    simp only
    cases handle s p.1 with
    | next s' => exact drainFrom_eq (by omega) (Nat.le_refl _)
    | done => rfl
    | failed e => rfl

theorem drain_of_none (h : F.next buffer = none) :
    F.drain handle s buffer = (s, .waiting, buffer) := by
  rw [drain_eq, h]

theorem drain_of_next {frame : List χ} (h : F.next buffer = some (frame, rest))
    (hh : handle s frame = .next s') : F.drain handle s buffer = F.drain handle s' rest := by
  rw [drain_eq, h]
  simp only [hh]

theorem drain_of_done {frame : List χ} (h : F.next buffer = some (frame, rest))
    (hh : handle s frame = .done) : F.drain handle s buffer = (s, .done, rest) := by
  rw [drain_eq, h]
  simp only [hh]

theorem drain_of_failed {frame : List χ} {e : ε} (h : F.next buffer = some (frame, rest))
    (hh : handle s frame = .failed e) : F.drain handle s buffer = (s, .failed e, rest) := by
  rw [drain_eq, h]
  simp only [hh]

/-- Induction on the frames of a buffer, by what the first of them does. -/
theorem drain_induction (F : Framing χ) (handle : σ → List χ → Answer σ ε)
    {P : σ → List χ → Prop} (none : ∀ s buffer, F.next buffer = none → P s buffer)
    (next : ∀ s buffer frame rest s', F.next buffer = some (frame, rest) →
      handle s frame = .next s' → P s' rest → P s buffer)
    (done : ∀ s buffer frame rest, F.next buffer = some (frame, rest) →
      handle s frame = .done → P s buffer)
    (failed : ∀ s buffer frame rest e, F.next buffer = some (frame, rest) →
      handle s frame = .failed e → P s buffer) (s : σ) (buffer : List χ) : P s buffer := by
  induction hn : buffer.length using Nat.strongRecOn generalizing s buffer with
  | _ n ih =>
    cases hnext : F.next buffer with
    | none => exact none s buffer hnext
    | some p =>
      cases hhandle : handle s p.1 with
      | next s' =>
        exact next s buffer p.1 p.2 s' hnext hhandle (ih _ (hn ▸ F.shorter hnext) s' p.2 rfl)
      | done => exact done s buffer p.1 p.2 hnext hhandle
      | failed e => exact failed s buffer p.1 p.2 e hnext hhandle

/-- Nothing more is taken off a buffer that waits. -/
theorem next_of_waiting (h : F.drain handle s buffer = (s', .waiting, rest)) :
    F.next rest = none := by
  induction s, buffer using drain_induction F handle with
  | none s buffer hnext =>
    rw [drain_of_none hnext] at h
    cases h
    exact hnext
  | next s buffer frame rest' s₁ hnext hhandle ih =>
    rw [drain_of_next hnext hhandle] at h
    exact ih h
  | done s buffer frame rest' hnext hhandle =>
    rw [drain_of_done hnext hhandle] at h
    cases h
  | failed s buffer frame rest' e hnext hhandle =>
    rw [drain_of_failed hnext hhandle] at h
    cases h

/-- **Taking frames off a part, and then off the rest with what was received since.** -/
theorem drain_append : F.drain handle s (buffer ++ more) =
    match F.drain handle s buffer with
    | (s', .waiting, rest) => F.drain handle s' (rest ++ more)
    | (s', .done, rest) => (s', .done, rest ++ more)
    | (s', .failed e, rest) => (s', .failed e, rest ++ more) := by
  induction s, buffer using drain_induction F handle with
  | none s buffer hnext => rw [drain_of_none hnext]
  | next s buffer frame rest s' hnext hhandle ih =>
    rw [drain_of_next (F.grows hnext more) hhandle, drain_of_next hnext hhandle, ih]
  | done s buffer frame rest hnext hhandle =>
    rw [drain_of_done (F.grows hnext more) hhandle, drain_of_done hnext hhandle]
  | failed s buffer frame rest e hnext hhandle =>
    rw [drain_of_failed (F.grows hnext more) hhandle, drain_of_failed hnext hhandle]

/-- What is left is at the end of the buffer. -/
theorem suffix_of_drain {drained : Drained ε} (h : F.drain handle s buffer = (s', drained, rest)) :
    rest <:+ buffer := by
  induction s, buffer using drain_induction F handle with
  | none s buffer hnext =>
    rw [drain_of_none hnext] at h
    cases h
    exact List.suffix_rfl
  | next s buffer frame rest' s₁ hnext hhandle ih =>
    rw [drain_of_next hnext hhandle] at h
    exact (ih h).trans (F.suffix hnext)
  | done s buffer frame rest' hnext hhandle =>
    rw [drain_of_done hnext hhandle] at h
    cases h
    exact F.suffix hnext
  | failed s buffer frame rest' e hnext hhandle =>
    rw [drain_of_failed hnext hhandle] at h
    cases h
    exact F.suffix hnext

/-- The element that stops a pass is the last one there is. -/
theorem rest_eq_nil_of_stopped {c : χ} {drained : Drained ε} (hnone : F.next buffer = none)
    (h : F.drain handle s (buffer ++ [c]) = (s', drained, rest)) (hstop : drained ≠ .waiting) :
    rest = [] := by
  cases hnext : F.next (buffer ++ [c]) with
  | none =>
    rw [drain_of_none hnext] at h
    cases h
    exact absurd rfl hstop
  | some p =>
    obtain ⟨frame, left⟩ := p
    obtain rfl := F.prompt hnone hnext
    cases hhandle : handle s frame with
    | next s₁ =>
      rw [drain_of_next hnext hhandle, drain_of_none next_nil] at h
      cases h
      exact absurd rfl hstop
    | done =>
      rw [drain_of_done hnext hhandle] at h
      cases h
      rfl
    | failed e =>
      rw [drain_of_failed hnext hhandle] at h
      cases h
      rfl

/-- A pass is done in a state in which a frame says so. -/
theorem exists_frame_of_done (h : F.drain handle s buffer = (s', .done, rest)) :
    ∃ frame, handle s' frame = .done := by
  induction s, buffer using drain_induction F handle with
  | none s buffer hnext =>
    rw [drain_of_none hnext] at h
    cases h
  | next s buffer frame rest' s₁ hnext hhandle ih =>
    rw [drain_of_next hnext hhandle] at h
    exact ih h
  | done s buffer frame rest' hnext hhandle =>
    rw [drain_of_done hnext hhandle] at h
    cases h
    exact ⟨frame, hhandle⟩
  | failed s buffer frame rest' e hnext hhandle =>
    rw [drain_of_failed hnext hhandle] at h
    cases h

/-! ### All frames of a buffer -/

/-- The complete frames of a buffer, and what is left behind them. -/
def frames (F : Framing χ) (buffer : List χ) : List (List χ) × List χ :=
  let d := F.drain (fun seen frame ↦ (.next (seen ++ [frame]) : Answer _ Unit)) [] buffer
  (d.1, d.2.2)

theorem drain_collect (seen : List (List χ)) :
    F.drain (fun seen frame ↦ (.next (seen ++ [frame]) : Answer _ Unit)) seen buffer =
      (seen ++ (F.frames buffer).1, .waiting, (F.frames buffer).2) := by
  induction h : buffer.length using Nat.strongRecOn generalizing buffer seen with
  | _ n ih =>
    unfold frames
    cases hnext : F.next buffer with
    | none => simp [drain_of_none hnext]
    | some p =>
      obtain ⟨frame, rest⟩ := p
      have hlt : rest.length < n := h ▸ F.shorter hnext
      rw [drain_of_next hnext rfl, drain_of_next hnext rfl, ih _ hlt _ rfl, ih _ hlt _ rfl]
      simp

theorem frames_of_none (h : F.next buffer = none) : F.frames buffer = ([], buffer) := by
  rw [frames, drain_of_none h]

theorem frames_of_next {frame : List χ} (h : F.next buffer = some (frame, rest)) :
    F.frames buffer = (frame :: (F.frames rest).1, (F.frames rest).2) := by
  rw [frames, drain_of_next h rfl, drain_collect]
  rfl

end Framing
