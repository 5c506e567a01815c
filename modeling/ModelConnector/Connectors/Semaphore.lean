import Mathlib.Data.List.Nodup
import Mathlib.Tactic.Linarith
import ModelConnector.Foundations.Run

/-!
# The semaphore of a connector

`acquire` takes a free slot or joins a queue; `release` hands its slot to the first of the queue; a
timer of a waiting call takes the call out of the queue, wherever it stands. Each of the three runs
to its end before anything else does, so an interleaving is a list of them.

Calls of `acquire` are numbered in the order they are made. What the callers hold and which timers
are running is kept beside the semaphore, which knows neither.
-/

namespace ModelConnector.Connectors

/-- The rejection of a call that waited too long. -/
structure QueueTimeoutError where
  timeoutMs : ℕ
  deriving DecidableEq

def QueueTimeoutError.message (e : QueueTimeoutError) : String :=
  "Queue wait timeout after " ++ toString e.timeoutMs ++ "ms"

/-- A semaphore, with the calls in its queue. -/
structure Semaphore where
  max : ℕ
  current : ℤ := 0
  queue : List ℕ := []
  deriving DecidableEq

namespace Semaphore

/-- `acquire`: whether the call has a slot at once, or waits. -/
def acquire (s : Semaphore) (call : ℕ) : Semaphore × Bool :=
  if s.current < s.max then ({ s with current := s.current + 1 }, true)
  else ({ s with queue := s.queue ++ [call] }, false)

/-- The timer of a waiting call: its entry is spliced out of the queue. -/
def expire (s : Semaphore) (call : ℕ) : Semaphore :=
  { s with queue := s.queue.erase call }

/-- `release`, and the call that gets the slot. -/
def release (s : Semaphore) : Semaphore × Option ℕ :=
  match s.queue with
  | [] => ({ s with current := s.current - 1 }, none)
  | next :: queue => ({ s with current := s.current - 1 + 1, queue }, some next)

end Semaphore

/-- A semaphore and its callers. -/
structure Slots where
  semaphore : Semaphore
  /-- How many calls of `acquire` there were. -/
  calls : ℕ := 0
  /-- The calls that have a slot. -/
  holding : List ℕ := []
  /-- The waiting calls whose timer is running, with its time. -/
  armed : List (ℕ × ℕ) := []
  deriving DecidableEq

/-- What happens to the semaphore. -/
inductive SlotEvent
  | acquire (timeoutMs : Option ℕ)
  /-- The timer of a call fires. -/
  | timeout (call : ℕ)
  /-- A call that has a slot gives it back. -/
  | release (call : ℕ)
  deriving DecidableEq

namespace Slots

/-- The call gets a slot: its timer is cleared. -/
def grant (s : Slots) (call : ℕ) : Slots :=
  { s with
    holding := call :: s.holding
    armed := s.armed.filter fun timer ↦ timer.1 != call }

/-- One event. -/
def step (s : Slots) : SlotEvent → Option Slots
  | .acquire timeoutMs =>
    match s.semaphore.acquire s.calls with
    | (semaphore, true) =>
      some (grant { s with semaphore, calls := s.calls + 1 } s.calls)
    | (semaphore, false) =>
      some { s with
        semaphore
        calls := s.calls + 1
        armed := (timeoutMs.toList.map fun ms ↦ (s.calls, ms)) ++ s.armed }
  | .timeout call =>
    if s.armed.any fun timer ↦ timer.1 == call then
      some { s with
        semaphore := s.semaphore.expire call
        armed := s.armed.filter fun timer ↦ timer.1 != call }
    else none
  | .release call =>
    if call ∈ s.holding then
      match s.semaphore.release with
      | (semaphore, none) => some { s with semaphore, holding := s.holding.erase call }
      | (semaphore, some next) =>
        some (grant { s with semaphore, holding := s.holding.erase call } next)
    else none

/-- No call has been made. -/
def init (max : ℕ) : Slots where
  semaphore := { max }

/-! ### What a step does -/

variable {s s' : Slots} {call : ℕ}

theorem step_acquire {timeoutMs : Option ℕ} (h : s.step (.acquire timeoutMs) = some s') :
    (s.semaphore.current < s.semaphore.max ∧
      s' = grant { s with
        semaphore := { s.semaphore with current := s.semaphore.current + 1 }
        calls := s.calls + 1 } s.calls) ∨
    (s.semaphore.max ≤ s.semaphore.current ∧
      s' = { s with
        semaphore := { s.semaphore with queue := s.semaphore.queue ++ [s.calls] }
        calls := s.calls + 1
        armed := (timeoutMs.toList.map fun ms ↦ (s.calls, ms)) ++ s.armed }) := by
  unfold step Semaphore.acquire at h
  by_cases hfree : s.semaphore.current < s.semaphore.max
  · rw [if_pos hfree] at h
    exact .inl ⟨hfree, (Option.some.inj h).symm⟩
  · rw [if_neg hfree] at h
    exact .inr ⟨not_lt.1 hfree, (Option.some.inj h).symm⟩

theorem step_timeout (h : s.step (.timeout call) = some s') :
    (∃ timer ∈ s.armed, timer.1 = call) ∧
      s' = { s with
        semaphore := { s.semaphore with queue := s.semaphore.queue.erase call }
        armed := s.armed.filter fun timer ↦ timer.1 != call } := by
  simp only [step, Semaphore.expire] at h
  split_ifs at h with harmed
  obtain ⟨timer, htimer, heq⟩ := List.any_eq_true.1 harmed
  exact ⟨⟨timer, htimer, beq_iff_eq.1 heq⟩, (Option.some.inj h).symm⟩

theorem step_release (h : s.step (.release call) = some s') : call ∈ s.holding ∧
    ((s.semaphore.queue = [] ∧
      s' = { s with
        semaphore := { s.semaphore with current := s.semaphore.current - 1 }
        holding := s.holding.erase call }) ∨
    ∃ next queue, s.semaphore.queue = next :: queue ∧
      s' = grant { s with
        semaphore := { s.semaphore with queue }
        holding := s.holding.erase call } next) := by
  simp only [step, Semaphore.release] at h
  split_ifs at h with hholds
  refine ⟨hholds, ?_⟩
  cases hqueue : s.semaphore.queue with
  | nil =>
    rw [hqueue] at h
    refine .inl ⟨rfl, (Option.some.inj h).symm.trans ?_⟩
    rw [← hqueue]
  | cons next queue =>
    rw [hqueue] at h
    refine .inr ⟨next, queue, rfl, (Option.some.inj h).symm.trans ?_⟩
    rw [sub_add_cancel]

end Slots

end ModelConnector.Connectors
