import ModelConnector.Connectors.Response
import ModelConnector.Connectors.Semaphore

/-!
# An execution of a CLI connector

An execution is cut at what it awaits: the semaphore, the working directory, the process. What runs
between two awaits runs at once. Each await may fail, and the environment says how it ends; the
`try` block, with its `catch` block, begins only once the working directory is there, and its
`finally` block is what gives the slot back.
-/

namespace ModelConnector.Connectors

/-- What an execution comes to: a response, or an error that it throws. -/
inductive ExecuteResult
  | responded (status : ResponseStatus) (errorType : Option String)
  | threw
  deriving DecidableEq

/-- What comes before the semaphore is asked. -/
inductive CliAdmission
  | unsupportedModality
  | circuitOpen
  /-- Any other error of `getCircuitBreaker` or `check`. -/
  | threw
  | admitted (queueTimeoutMs : ℕ)
  deriving DecidableEq

/-- How the `try` statement ends, before its `finally` block. -/
inductive TryEnd
  /-- The process ended and its output was parsed. -/
  | parsed (errorType : Option String)
  /-- The process, the parser or anything else in the block failed. -/
  | caught (isTimeout : Bool)
  /-- So did the `catch` block. -/
  | rethrown
  deriving DecidableEq

/-- What the execution comes to. -/
def TryEnd.result : TryEnd → ExecuteResult
  | .parsed none => .responded .success none
  | .parsed (some errorType) =>
    .responded (if errorType = "rate_limited" then .rateLimited else .error) (some errorType)
  | .caught true => .responded .timeout (some "timeout")
  | .caught false => .responded .error (some "spawn_error")
  | .rethrown => .threw

/-- How far an execution has come; `call` is its call of `acquire`. -/
inductive ExecutePhase
  /-- It awaits the semaphore. -/
  | queued (call : ℕ)
  /-- It has a slot, and awaits its working directory. -/
  | preparing (call : ℕ)
  /-- It is in the `try` block, and awaits the process. -/
  | attempting (call : ℕ)
  | ended (result : ExecuteResult)
  deriving DecidableEq

/-- The call of an execution that has not ended. -/
def ExecutePhase.call? : ExecutePhase → Option ℕ
  | queued call | preparing call | attempting call => some call
  | ended _ => none

/-- The call of an execution that has gone on with its slot. -/
def ExecutePhase.holder? : ExecutePhase → Option ℕ
  | preparing call | attempting call => some call
  | queued _ | ended _ => none

/-- The executions of a connector, in the order they began. -/
structure Executions where
  slots : Slots
  activeJobs : ℤ := 0
  phases : List ExecutePhase := []
  deriving DecidableEq

/-- What happens to the execution with a number. -/
inductive ExecuteEvent
  | start (admission : CliAdmission)
  /-- Its `acquire` rejects. -/
  | queueTimeout (i : ℕ)
  /-- Its `acquire` resolves. -/
  | acquired (i : ℕ)
  /-- The budget is resolved and the working directory is made, or one of them failed. -/
  | prepared (i : ℕ) (made : Bool)
  | finished (i : ℕ) (tryEnd : TryEnd)
  deriving DecidableEq

namespace Executions

/-- The execution goes on. -/
def move (s : Executions) (i : ℕ) (phase : ExecutePhase) : Executions :=
  { s with phases := s.phases.set i phase }

/-- A new execution. -/
def enter (s : Executions) (phase : ExecutePhase) : Executions :=
  { s with phases := s.phases ++ [phase] }

/-- `execute`, from one await to the next. -/
def step (s : Executions) : ExecuteEvent → Option Executions
  | .start .unsupportedModality =>
    some (s.enter (.ended (.responded .error (some "unsupported_modality"))))
  | .start .circuitOpen => some (s.enter (.ended (.responded .error (some "circuit_open"))))
  | .start .threw => some (s.enter (.ended .threw))
  | .start (.admitted queueTimeoutMs) =>
    (s.slots.step (.acquire (some queueTimeoutMs))).map fun slots ↦
      enter { s with slots } (.queued s.slots.calls)
  | .queueTimeout i =>
    match s.phases[i]? with
    | some (.queued call) => (s.slots.step (.timeout call)).map fun slots ↦
        move { s with slots } i (.ended (.responded .error (some "queue_timeout")))
    | _ => none
  | .acquired i =>
    match s.phases[i]? with
    | some (.queued call) =>
      if call ∈ s.slots.holding then some (s.move i (.preparing call)) else none
    | _ => none
  | .prepared i made =>
    match s.phases[i]? with
    | some (.preparing call) =>
      if made then some (move { s with activeJobs := s.activeJobs + 1 } i (.attempting call))
      -- The `try` block is not reached, and neither is its `finally` block.
      else some (s.move i (.ended .threw))
    | _ => none
  | .finished i tryEnd =>
    match s.phases[i]? with
    | some (.attempting call) => (s.slots.step (.release call)).map fun slots ↦
        move { s with slots, activeJobs := s.activeJobs - 1 } i (.ended tryEnd.result)
    | _ => none

/-- Nothing has been executed. -/
def init (max : ℕ) : Executions where
  slots := .init max

end Executions

end ModelConnector.Connectors
