import Mathlib.Logic.Function.Basic
import ModelConnector.Foundations.Program
import ModelConnector.Deploy.Journal

/-!
# The deployment transaction

`Transaction` of `billing-transaction.py`, as programs over the host it runs on: the journal on
disk, the state in memory, the checkout directories and the Docker daemon. Every command starts a
process of its own, with nothing in memory, and the lock lets one run at a time.

What the environment does is drawn from `Turns`: whether a native action returns, what it raises
and what the daemon then looks like, whether a write of the journal or an exchange of checkouts
fails before or after it took effect, which check refuses, and where the process is killed. An
action that is refused, or whose end is not known, may have changed anything such an action changes.

`unrecorded`, `written` and `effects` are kept for the statements: the actions that were invoked and
whose end is not in the journal on disk, the journals that were written, and what was done to the
daemon and to the checkouts. The time budget, the environment files and the credential are checked
by the source before the journal is written; a check that refuses stands for each of them.
-/

namespace ModelConnector.Deploy

/-! ### The host -/

/-- A checkout directory. -/
structure Checkout where
  inode : ℕ
  revision : String
  deriving DecidableEq

/-- What `docker inspect` says of the container. `owned` says that its compose labels are those of
the service. -/
structure Container where
  image : String
  running : Bool
  healthy : Bool
  owned : Bool
  deriving DecidableEq

/-- The daemon: the image of every tag of the repository, and the container. -/
structure Docker where
  tags : String → Option String
  container : Container

/-- The actions on the daemon. -/
inductive NativeCall
  | tag (image tag : String)
  | build (revision : String)
  | up (revision : String)
  | image (tag : String)
  | verifyImage (image revision : String)
  | health (image revision : String)
  deriving DecidableEq

inductive Effect
  | native (call : NativeCall)
  | exchange
  deriving DecidableEq

/-- How a write, an exchange or a check goes. `took` says that it took effect nevertheless. -/
inductive Turn
  | done
  | raises (e : Exc) (took : Bool)
  | killed (took : Bool)

/-- How a native action goes. A build makes an image, and what comes up is healthy or not. -/
inductive NativeTurn
  | returned (image : String) (healthy : Bool)
  | raises (e : Exc) (docker : Docker)
  | killed (docker : Docker)

/-- What the environment does, for each kind of step. When a list has run out, steps succeed. -/
structure Turns where
  natives : List NativeTurn := []
  writes : List Turn := []
  swaps : List Turn := []
  checks : List Turn := []

structure Host where
  disk : Option Json := none
  memory : Option Journal := none
  current : Checkout
  backups : String → Option Checkout := fun _ ↦ none
  docker : Docker
  unrecorded : List ActionName := []
  written : List Json := []
  effects : List Effect := []

structure World where
  host : Host
  turns : Turns

abbrev Tx (α : Type) : Type :=
  Program World Exc α

namespace Host

variable (host : Host)

/-- `active.json` is replaced. A record of the end of an action is a record of its end. -/
def replace (state : Journal) : Host :=
  { host with
    disk := some state.toJson
    written := state.toJson :: host.written
    unrecorded := host.unrecorded.filter fun name ↦
      !state.native_action.any fun action ↦ action.name = name && action.completion ≠ .pending }

/-- `renameat2` with `RENAME_EXCHANGE`. -/
def exchange (ident : String) : Host :=
  match host.backups ident with
  | none => host
  | some backup =>
    { host with
      current := backup
      backups := Function.update host.backups ident (some host.current)
      effects := .exchange :: host.effects }

/-- The checkout of a transaction is staged. -/
def stage (ident : String) (checkout : Checkout) : Host :=
  { host with backups := Function.update host.backups ident (some checkout) }

/-- An action is invoked. -/
def invoking (name : ActionName) (call : NativeCall) : Host :=
  { host with
    unrecorded := name :: host.unrecorded
    effects := .native call :: host.effects }

end Host

/-! ### Steps the environment has a say in -/

/-- A step that takes effect, fails before or after it does, or is cut short. -/
def attempt (pop : Turns → Turn × Turns) (effect : Host → Host) : Tx Unit := fun w ↦
  match pop w.turns with
  | (.done, turns) => (.returned (), ⟨effect w.host, turns⟩)
  | (.raises e took, turns) => (.raised e, ⟨if took then effect w.host else w.host, turns⟩)
  | (.killed took, turns) => (.killed, ⟨if took then effect w.host else w.host, turns⟩)

def popTurn : List Turn → Turn × List Turn
  | [] => (.done, [])
  | turn :: turns => (turn, turns)

def Turns.write (turns : Turns) : Turn × Turns :=
  ((popTurn turns.writes).1, { turns with writes := (popTurn turns.writes).2 })

def Turns.swap (turns : Turns) : Turn × Turns :=
  ((popTurn turns.swaps).1, { turns with swaps := (popTurn turns.swaps).2 })

def Turns.check (turns : Turns) : Turn × Turns :=
  ((popTurn turns.checks).1, { turns with checks := (popTurn turns.checks).2 })

def Turns.native (turns : Turns) : NativeTurn × Turns :=
  match turns.natives with
  | [] => (.returned "" true, turns)
  | turn :: rest => (turn, { turns with natives := rest })

/-- `self.writer`, of `active.json`. -/
def writer (state : Journal) : Tx Unit :=
  attempt Turns.write fun host ↦ host.replace state

/-- `self.swap`, of the checkout and the one of the transaction. -/
def swap (ident : String) : Tx Unit :=
  attempt Turns.swap fun host ↦ host.exchange ident

/-- A check of paths, owners and modes, or of the lock. -/
def safe : Tx Unit :=
  attempt Turns.check id

/-- Look at the host, when nothing refuses it. -/
def observe {α : Type} (f : Host → Except Exc α) : Tx α := do
  safe
  let result ← Program.read fun w ↦ f w.host
  match result with
  | .ok a => pure a
  | .error e => Program.raise e

def modifyHost (f : Host → Host) : Tx Unit :=
  Program.modify fun w ↦ { w with host := f w.host }

/-- `self.state`; to index `None` is an error. -/
def getState : Tx Journal := do
  let memory ← Program.read fun w ↦ w.host.memory
  match memory with
  | some state => pure state
  | none => Program.raise .other

def setState (state : Option Journal) : Tx Unit :=
  modifyHost fun host ↦ { host with memory := state }

section Native

variable (revisionLabel : String → String)

/-- What an action answers and does when it returns; it cannot return when what it asks for is not
there. -/
def NativeCall.returned? (docker : Docker) (image : String) (healthy : Bool) :
    NativeCall → Option (String × Docker)
  | .tag img ref => some ("", { docker with tags := Function.update docker.tags ref (some img) })
  | .build _ => some ("", { docker with tags := Function.update docker.tags "latest" (some image) })
  | .up _ => (docker.tags "latest").map fun img ↦
      ("", { docker with container := ⟨img, true, healthy, true⟩ })
  | .image ref => ((docker.tags ref).filter isDigest).map fun img ↦ (img, docker)
  | .verifyImage img revision => if revisionLabel img = revision then some ("", docker) else none
  | .health img revision =>
    if revisionLabel img = revision ∧ docker.container = ⟨img, true, true, true⟩ then
      some ("", docker)
    else none

/-- What an action can have changed when it does not return. -/
def NativeCall.restrict (docker docker' : Docker) : NativeCall → Docker
  | .tag _ _ | .build _ => { docker with tags := docker'.tags }
  | .up _ => { docker with container := docker'.container }
  | .image _ | .verifyImage _ _ | .health _ _ => docker

/-- An action is invoked for an operation. -/
def invoke (name : ActionName) (call : NativeCall) : Tx String := fun w ↦
  let host := w.host.invoking name call
  match w.turns.native with
  | (.returned image healthy, turns) =>
    match call.returned? revisionLabel host.docker image healthy with
    | some (value, docker) => (.returned value, ⟨{ host with docker := docker }, turns⟩)
    | none => (.raised (.refusal "native action refused"), ⟨host, turns⟩)
  | (.raises e docker, turns) =>
    (.raised e, ⟨{ host with docker := call.restrict host.docker docker }, turns⟩)
  | (.killed docker, turns) =>
    (.killed, ⟨{ host with docker := call.restrict host.docker docker }, turns⟩)

/-! ### The methods -/

/-- `Transaction.persist`. -/
def persist (phase : Phase) : Tx Unit := do
  let state ← getState
  let state : Journal := { state with phase := phase }
  setState (some state)
  writer state

/-- `Transaction.complete_operation`. The state in memory stays pending until the completion is
written. -/
def completeOperation (completion : Completion) : Tx Unit := do
  let state ← getState
  let completed : Journal :=
    { state with native_action := state.native_action.map fun action ↦ ⟨action.name, completion⟩ }
  Program.handle (writer completed) fun e ↦ Program.raise
    (if e = .osError then .nativeOutcomeUnknown "native completion persistence is unknown" else e)
  setState (some completed)

/-- What `operation` does with what its action raises. -/
def refused (e : Exc) : Tx String :=
  match e with
  | .refusal _ => do
    completeOperation .returnedRefusal
    Program.raise e
  | _ => Program.raise e

/-- `Transaction.operation`. -/
def operation (name : ActionName) (call : NativeCall) : Tx String := do
  let state ← getState
  setState (some { state with native_action := some ⟨name, .pending⟩ })
  persist state.phase
  let result ← Program.handle (invoke revisionLabel name call) refused
  completeOperation .returned
  return result

/-- `Transaction.load`. -/
def loadJournal : Tx (Option Journal) := do
  let disk ← Program.read fun w ↦ w.host.disk
  match disk with
  | none => pure none
  | some data => observe fun _ ↦ (load data).map some

/-- The inode of the checkout and of the one of the transaction. -/
def inodes (ident : String) (host : Host) : Except Exc (ℕ × ℕ) :=
  match host.backups ident with
  | some backup => .ok (host.current.inode, backup.inode)
  | none => .error .osError

/-- The first part of `Transaction.rollback`: the checkout is the old one. -/
def restoreCheckout (state : Journal) : Tx Unit := do
  let pair ← observe (inodes state.id)
  persist .recoveryIntent
  if pair = (state.new_inode, state.old_inode) then
    swap state.id
  else
    Program.require (decide (pair = (state.old_inode, state.new_inode)))
      (.refusal "checkout custody changed; retain journal")

/-- The second part: so is the image, and the container when it was touched. -/
def restoreImage (state : Journal) : Tx Unit := do
  let _ ← operation revisionLabel .restoreImage (.tag state.image "latest")
  if state.up_intent then do
    let _ ← operation revisionLabel .restoreUp (.up state.old_sha)
    let _ ← operation revisionLabel .restoreHealth (.health state.image state.old_sha)
  persist .rolledBack

/-- `Transaction.rollback`. -/
def rollback : Tx Unit := do
  let state ← getState
  Program.require (!(state.pending || !state.phase.settled && state.native_action.isNone))
    (.refusal "native completion unproved; retain journal without recovery")
  restoreCheckout state
  restoreImage revisionLabel state

/-- `Native.head`. -/
def head (checkout : Checkout) : Except Exc String :=
  if isSha checkout.revision then .ok checkout.revision
  else .error (.refusal "invalid checkout revision")

/-- `Native.baseline`. -/
def baseline (revision : String) (docker : Docker) : Except Exc String :=
  if ¬(isDigest docker.container.image ∧ docker.container.owned) then
    .error (.refusal "installed container ownership or compose boundary mismatch")
  else if ¬(docker.container.running ∧ docker.container.healthy) then
    .error (.refusal "healthy installed baseline required")
  else if revisionLabel docker.container.image ≠ revision then
    .error (.refusal "image revision mismatch")
  else .ok docker.container.image

/-- `Native.image`, of a tag that may be missing. -/
def optionalImage (tag : String) (docker : Docker) : Except Exc (Option String) :=
  match docker.tags tag with
  | none => .ok none
  | some image =>
    if isDigest image then .ok (some image) else .error (.refusal "ambiguous image observation")

/-- What `check` and `deploy` do first: nothing is under way, and a healthy service of the checkout
is installed. The answer is its revision and its image. -/
def preflight (revision : String) : Tx (String × String) := do
  safe
  let prior ← loadJournal
  Program.require (prior.all fun prior ↦ !prior.pending && prior.phase.settled)
    (.refusal "unsettled transaction; explicit recovery required")
  safe
  let old_sha ← observe fun host ↦ head host.current
  Program.require (old_sha ≠ revision) (.refusal "revision already installed; do not redeploy")
  let image ← observe fun host ↦ baseline revisionLabel old_sha host.docker
  let latest ← observe fun host ↦ optionalImage "latest" host.docker
  Program.require (latest.all fun latest ↦ latest = image)
    (.refusal "latest is not installed baseline")
  return (old_sha, image)

/-- `Transaction.check`. -/
def check (revision : String) : Tx Unit := do
  Program.require (isSha revision) (.refusal "invalid revision")
  let _ ← preflight revisionLabel revision

/-- The credentials that are accepted. -/
def isCredential (credential : String) : Bool :=
  20 ≤ credential.length && credential.length ≤ 512 && credential.toList.all fun c ↦
    c.isAlphanum || c == '_' || c == '.' || c == '-'

/-- `deploy` up to its journal. -/
def stageCheckout (revision ident : String) (inode : ℕ) : Tx Unit := do
  attempt Turns.check fun host ↦ host.stage ident ⟨inode, revision⟩
  safe
  let staged ← observe fun host ↦ match host.backups ident with
    | some checkout => head checkout
    | none => .error .osError
  Program.require (staged = revision) (.refusal "staged revision mismatch")
  safe

/-- The actions of `deploy` up to the exchange. -/
def buildCandidate (image revision : String) : Tx String := do
  let _ ← operation revisionLabel .tagPrevious (.tag image "previous")
  let _ ← operation revisionLabel .build (.build revision)
  let candidate ← operation revisionLabel .image (.image "latest")
  let _ ← operation revisionLabel .verifyImage (.verifyImage candidate revision)
  return candidate

/-- The exchange, and the record that the container is about to be touched. -/
def exchangeCheckout (ident : String) : Tx Unit := do
  persist .exchangeIntent
  swap ident
  let state ← getState
  setState (some { state with up_intent := true })
  Program.handle (persist .upIntent) fun e ↦
    if e = .osError then do
      let state ← getState
      setState (some { state with up_intent := false })
      Program.raise e
    else Program.raise e

/-- The actions of `deploy` after it. -/
def bringUp (candidate revision : String) : Tx Unit := do
  let _ ← operation revisionLabel .up (.up revision)
  let _ ← operation revisionLabel .health (.health candidate revision)
  let _ ← operation revisionLabel .tagRelease (.tag candidate revision)
  persist .committed

/-- What `deploy` does with what its actions raise. -/
def deployFailed (e : Exc) : Tx Unit :=
  match e with
  | .nativeOutcomeUnknown _ | .keyboardInterrupt =>
    Program.raise (.refusal "native completion unknown; protected journal retained")
  | .refusal _ | .osError | .valueError => do
    Program.handle (rollback revisionLabel) fun e ↦ match e with
      | .refusal _ | .nativeOutcomeUnknown _ | .osError | .valueError =>
        Program.raise (.refusal "transaction failed; protected recovery journal retained")
      | e => Program.raise e
    Program.raise (.refusal "transaction failed; baseline restored")
  | .other => Program.raise .other

/-- The part of `deploy` that is rolled back when it fails. -/
def deployActions (image revision ident : String) : Tx Unit := do
  let candidate ← buildCandidate revisionLabel image revision
  exchangeCheckout ident
  bringUp revisionLabel candidate revision

/-- `Transaction.deploy`. `ident` is what `uuid4` draws and `inode` that of the staged directory. -/
def deploy (revision credential ident : String) (inode : ℕ) : Tx String := do
  Program.require (isSha revision && isCredential credential)
    (.refusal "invalid revision or stdin credential")
  let (old_sha, image) ← preflight revisionLabel revision
  stageCheckout revision ident inode
  let old_inode ← observe fun host ↦ .ok host.current.inode
  setState (some ⟨ident, old_sha, revision, image, old_inode, inode, false, .buildIntent, none⟩)
  persist .buildIntent
  Program.handle (deployActions revisionLabel image revision ident) (deployFailed revisionLabel)
  return ident

/-- `Transaction.recover`. -/
def recover (ident : String) : Tx Unit := do
  safe
  let prior ← loadJournal
  setState prior
  Program.require (prior.any fun state ↦ state.id = ident && state.phase ≠ .rolledBack)
    (.refusal "recovery receipt does not match active transaction")
  rollback revisionLabel

/-! ### Commands, one after the other -/

/-- A command, with what the environment does in it; or a change of the daemon by an action whose
end is not known. -/
inductive DeployEvent
  | check (revision : String) (turns : Turns)
  | deploy (revision credential ident : String) (inode : ℕ) (turns : Turns)
  | recover (ident : String) (turns : Turns)
  | late (docker : Docker)

/-- Run a command in a process of its own. -/
def runCommand {α : Type} (x : Tx α) (host : Host) (turns : Turns) : Exit Exc α × Host :=
  let result := x ⟨{ host with memory := none }, turns⟩
  (result.1, result.2.host)

/-- One step of the system. `uuid4` draws an identifier that is not in use, and a new directory has
an inode that is not. -/
def deployStep (host : Host) : DeployEvent → Option Host
  | .check revision turns => some (runCommand (check revisionLabel revision) host turns).2
  | .deploy revision credential ident inode turns =>
    if isIdent ident ∧ host.backups ident = none ∧ 0 < inode ∧ inode ≠ host.current.inode then
      some (runCommand (deploy revisionLabel revision credential ident inode) host turns).2
    else none
  | .recover ident turns => some (runCommand (recover revisionLabel ident) host turns).2
  | .late docker =>
    if host.unrecorded = [] then none else some { host with docker := docker }

end Native

end ModelConnector.Deploy
