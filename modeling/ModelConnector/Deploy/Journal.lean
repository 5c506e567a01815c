import ModelConnector.Foundations.Json
import ModelConnector.Foundations.Result

/-!
# The journal of a deployment

`billing-transaction.py` keeps one journal, `active.json`: what is deployed over what, how far it
has got, and the last action on the daemon with whether it is known to have come to its end.
`load` checks every field of what it reads. The text of a JSON value is left out: `json.dump` and
`json.loads` are inverse to each other.
-/

namespace ModelConnector.Deploy

/-- The exceptions the transaction tells apart. `nativeOutcomeUnknown` is a kind of refusal, so a
handler of refusals that comes first catches it too. -/
inductive Exc
  | refusal (message : String)
  | nativeOutcomeUnknown (message : String)
  | osError
  | valueError
  | keyboardInterrupt
  | other
  deriving DecidableEq

/-! ### The fields -/

/-- `re.fullmatch` of a number of hexadecimal digits. -/
def isHex (n : ℕ) (text : List Char) : Bool :=
  text.length == n && text.all fun c ↦ c.isDigit || decide ('a' ≤ c) && decide (c ≤ 'f')

/-- `SHA`. -/
def isSha (value : String) : Bool :=
  isHex 40 value.toList

/-- `DIGEST`. -/
def isDigest (value : String) : Bool :=
  value.toList.take 7 == "sha256:".toList && isHex 64 (value.toList.drop 7)

/-- The identifiers `uuid4().hex` makes. -/
def isIdent (value : String) : Bool :=
  isHex 32 value.toList

inductive Phase
  | buildIntent
  | exchangeIntent
  | upIntent
  | recoveryIntent
  | committed
  | rolledBack
  deriving DecidableEq

namespace Phase

def text : Phase → String
  | buildIntent => "build-intent"
  | exchangeIntent => "exchange-intent"
  | upIntent => "up-intent"
  | recoveryIntent => "recovery-intent"
  | committed => "committed"
  | rolledBack => "rolled-back"

def all : List Phase :=
  [buildIntent, exchangeIntent, upIntent, recoveryIntent, committed, rolledBack]

def ofText? (text : String) : Option Phase :=
  all.find? fun phase ↦ phase.text = text

@[simp]
theorem ofText?_text (phase : Phase) : ofText? phase.text = some phase := by
  cases phase <;> rfl

/-- No transaction is under way. -/
def settled (phase : Phase) : Bool :=
  phase = committed || phase = rolledBack

end Phase

/-- The actions on the daemon, under the names the journal gives them. -/
inductive ActionName
  | tagPrevious
  | build
  | image
  | verifyImage
  | up
  | health
  | tagRelease
  | restoreImage
  | restoreUp
  | restoreHealth
  deriving DecidableEq

namespace ActionName

def text : ActionName → String
  | tagPrevious => "tag-previous"
  | build => "build"
  | image => "image"
  | verifyImage => "verify-image"
  | up => "up"
  | health => "health"
  | tagRelease => "tag-release"
  | restoreImage => "restore-image"
  | restoreUp => "restore-up"
  | restoreHealth => "restore-health"

def all : List ActionName :=
  [tagPrevious, build, image, verifyImage, up, health, tagRelease, restoreImage, restoreUp,
    restoreHealth]

def ofText? (text : String) : Option ActionName :=
  all.find? fun name ↦ name.text = text

@[simp]
theorem ofText?_text (name : ActionName) : ofText? name.text = some name := by
  cases name <;> rfl

end ActionName

inductive Completion
  | pending
  | returned
  | returnedRefusal
  deriving DecidableEq

namespace Completion

def text : Completion → String
  | pending => "pending"
  | returned => "returned"
  | returnedRefusal => "returned-refusal"

def all : List Completion :=
  [pending, returned, returnedRefusal]

def ofText? (text : String) : Option Completion :=
  all.find? fun completion ↦ completion.text = text

@[simp]
theorem ofText?_text (completion : Completion) : ofText? completion.text = some completion := by
  cases completion <;> rfl

end Completion

/-- `native_action`. -/
structure NativeAction where
  name : ActionName
  completion : Completion
  deriving DecidableEq

/-- `self.state`, and what is written of it. -/
structure Journal where
  id : String
  old_sha : String
  new_sha : String
  image : String
  old_inode : ℕ
  new_inode : ℕ
  up_intent : Bool
  phase : Phase
  native_action : Option NativeAction
  deriving DecidableEq

/-- `Transaction.pending`. -/
def Journal.pending (state : Journal) : Bool :=
  state.native_action.any fun action ↦ action.completion = .pending

/-! ### Writing and reading -/

def NativeAction.toJson (action : NativeAction) : Json :=
  .obj [("name", .str action.name.text), ("completion", .str action.completion.text)]

def Journal.toJson (state : Journal) : Json :=
  .obj ([("schema", .str "BillingTransaction/v1"), ("id", .str state.id),
    ("old_sha", .str state.old_sha), ("new_sha", .str state.new_sha), ("image", .str state.image),
    ("old_inode", .nat state.old_inode), ("new_inode", .nat state.new_inode),
    ("up_intent", .bool state.up_intent), ("phase", .str state.phase.text)] ++
      state.native_action.toList.map fun action ↦ ("native_action", action.toJson))

/-- A field that is a string and passes a check. -/
def textField? (data : Json) (key : String) (check : String → Bool) : Option String :=
  ((data.get? key).bind Json.str?).filter check

/-- `type(value) is int and value > 0`. -/
def positiveInt? : Json → Option ℕ
  | .num n =>
    let value := Nat.ofDigitChars 10 n.text 0
    if n.text.all Char.isDigit ∧ 0 < value then some value else none
  | _ => none

def bool? : Json → Option Bool
  | .bool b => some b
  | _ => none

/-- The fields of `native_action`, when they are the two there must be. -/
def nativeAction? (action : Json) : Option NativeAction := do
  let members ← action.members?
  if members.all fun member ↦ member.1 = "name" ∨ member.1 = "completion" then
    let name ← (action.get? "name").bind Json.str? |>.bind ActionName.ofText?
    let completion ← (action.get? "completion").bind Json.str? |>.bind Completion.ofText?
    some ⟨name, completion⟩
  else none

/-- The fields `load` checks together. -/
def journalFields? (data : Json) (id : String) (action : Option NativeAction) : Option Journal := do
  let phase ← (data.get? "phase").bind Json.str? |>.bind Phase.ofText?
  let old_sha ← textField? data "old_sha" isSha
  let new_sha ← textField? data "new_sha" isSha
  let image ← textField? data "image" isDigest
  let old_inode ← (data.get? "old_inode").bind positiveInt?
  let new_inode ← (data.get? "new_inode").bind positiveInt?
  let up_intent ← (data.get? "up_intent").bind bool?
  some ⟨id, old_sha, new_sha, image, old_inode, new_inode, up_intent, phase, action⟩

/-- `load`, of the value that is read. An action that is `null` is not written by anything and is
read as no action. -/
def load (data : Json) : Except Exc Journal :=
  if data.members?.isNone then .error .other
  else if (data.get? "schema").bind Json.str? ≠ some "BillingTransaction/v1" then
    .error (.refusal "invalid protected journal")
  else match data.get? "id" with
    | some (.str id) =>
      if isIdent id then
        match journalFields? data id none with
        | none => .error (.refusal "invalid protected journal fields")
        | some state =>
          match data.get? "native_action" with
          | none | some .null => .ok state
          | some action =>
            match nativeAction? action with
            | none => .error (.refusal "invalid native completion journal")
            | some action => .ok { state with native_action := some action }
      else .error (.refusal "invalid protected journal")
    | none => .error (.refusal "invalid protected journal")
    | some _ => .error .other

/-- What `load` asks of a journal. -/
structure Journal.Valid (state : Journal) : Prop where
  id : isIdent state.id = true
  old_sha : isSha state.old_sha = true
  new_sha : isSha state.new_sha = true
  image : isDigest state.image = true
  old_inode : 0 < state.old_inode
  new_inode : 0 < state.new_inode

theorem positiveInt?_nat {n : ℕ} (h : 0 < n) : positiveInt? (.nat n) = some n := by
  have hdigits : (Nat.toDigits 10 n).all Char.isDigit = true :=
    List.all_eq_true.2 fun c hc ↦ Nat.isDigit_of_mem_toDigits (by decide) (by decide) hc
  simp only [positiveInt?, Json.nat, JsonNumber.ofNat, Nat.ofDigitChars_ten_toDigits]
  rw [if_pos ⟨hdigits, h⟩]

theorem nativeAction?_toJson (action : NativeAction) :
    nativeAction? action.toJson = some action := by
  have hname : action.toJson.get? "name" = some (.str action.name.text) := rfl
  have hcompletion : action.toJson.get? "completion" = some (.str action.completion.text) := rfl
  have hmembers : action.toJson.members? =
    some [("name", .str action.name.text), ("completion", .str action.completion.text)] := rfl
  simp [nativeAction?, hname, hcompletion, hmembers, Json.str?]

/-- The value of a member does not depend on the members after it. -/
theorem toJson_get? (state : Journal) (key : String) (value : Json)
    (h : ([("schema", .str "BillingTransaction/v1"), ("id", .str state.id),
      ("old_sha", .str state.old_sha), ("new_sha", .str state.new_sha),
      ("image", .str state.image), ("old_inode", .nat state.old_inode),
      ("new_inode", .nat state.new_inode), ("up_intent", .bool state.up_intent),
      ("phase", .str state.phase.text)] : List (String × Json)).lookup key = some value) :
    state.toJson.get? key = some value := by
  show List.lookup key (_ ++ _) = some value
  rw [List.lookup_append, h]
  rfl

theorem toJson_native_action (state : Journal) :
    state.toJson.get? "native_action" = state.native_action.map NativeAction.toJson := by
  cases haction : state.native_action with
  | none =>
    simp only [Journal.toJson, haction, Option.toList_none, List.map_nil, List.append_nil]
    rfl
  | some action =>
    simp only [Journal.toJson, haction, Option.toList_some, List.map_cons, List.map_nil]
    rfl

/-- What is written of a journal tells it apart from every other one. -/
theorem toJson_injective : Function.Injective Journal.toJson := by
  intro state state' h
  have htext {key text text' : String} (hget : state.toJson.get? key = some (.str text))
      (hget' : state'.toJson.get? key = some (.str text')) : text = text' := by
    rw [h, hget', Option.some.injEq, Json.str.injEq] at hget
    exact hget.symm
  have hnat {key : String} {n n' : ℕ} (hget : state.toJson.get? key = some (.nat n))
      (hget' : state'.toJson.get? key = some (.nat n')) : n = n' := by
    rw [h, hget', Option.some.injEq, Json.nat, Json.nat, Json.num.injEq] at hget
    exact JsonNumber.ofNat_injective hget.symm
  have hup : state.up_intent = state'.up_intent := by
    have hget := toJson_get? state "up_intent" _ rfl
    rw [h, toJson_get? state' "up_intent" _ rfl, Option.some.injEq, Json.bool.injEq] at hget
    exact hget.symm
  have hphase : state.phase = state'.phase := by
    have heq := htext (toJson_get? state "phase" _ rfl) (toJson_get? state' "phase" _ rfl)
    exact Option.some.inj (by rw [← Phase.ofText?_text, heq, Phase.ofText?_text])
  have haction : state.native_action = state'.native_action := by
    have hget := toJson_native_action state
    rw [h, toJson_native_action] at hget
    refine Option.map_injective (fun action action' heq ↦ ?_) hget.symm
    exact Option.some.inj (by rw [← nativeAction?_toJson, heq, nativeAction?_toJson])
  have hid := htext (toJson_get? state "id" _ rfl) (toJson_get? state' "id" _ rfl)
  have hold := htext (toJson_get? state "old_sha" _ rfl) (toJson_get? state' "old_sha" _ rfl)
  have hnew := htext (toJson_get? state "new_sha" _ rfl) (toJson_get? state' "new_sha" _ rfl)
  have himage := htext (toJson_get? state "image" _ rfl) (toJson_get? state' "image" _ rfl)
  have hinode := hnat (toJson_get? state "old_inode" _ rfl) (toJson_get? state' "old_inode" _ rfl)
  have hinode' := hnat (toJson_get? state "new_inode" _ rfl) (toJson_get? state' "new_inode" _ rfl)
  obtain ⟨_, _, _, _, _, _, _, _, _⟩ := state
  exact Journal.mk.injEq .. ▸ ⟨hid, hold, hnew, himage, hinode, hinode', hup, hphase, haction⟩

theorem textField?_eq {data : Json} {key text : String} {check : String → Bool}
    (hdata : data.get? key = some (.str text)) (hcheck : check text = true) :
    textField? data key check = some text := by
  simp [textField?, hdata, Json.str?, Option.filter, hcheck]

theorem journalFields?_toJson {state : Journal} (h : state.Valid) (action : Option NativeAction) :
    journalFields? state.toJson state.id action = some { state with native_action := action } := by
  simp [journalFields?, textField?_eq (toJson_get? state "old_sha" _ rfl) h.old_sha,
    textField?_eq (toJson_get? state "new_sha" _ rfl) h.new_sha,
    textField?_eq (toJson_get? state "image" _ rfl) h.image, toJson_get? state "phase" _ rfl,
    toJson_get? state "old_inode" _ rfl, toJson_get? state "new_inode" _ rfl,
    toJson_get? state "up_intent" _ rfl, Json.str?, bool?, positiveInt?_nat h.old_inode,
    positiveInt?_nat h.new_inode]

/-- What is written of a valid journal is read as it was. -/
theorem load_toJson {state : Journal} (h : state.Valid) : load state.toJson = .ok state := by
  have hmembers : state.toJson.members?.isNone = false := rfl
  unfold load
  rw [hmembers, toJson_get? state "schema" _ rfl, toJson_get? state "id" _ rfl]
  simp only [Bool.false_eq_true, if_false, Option.bind_some, Json.str?, ne_eq, not_true_eq_false,
    h.id, if_true, journalFields?_toJson h, toJson_native_action]
  obtain ⟨id, old_sha, new_sha, image, old_inode, new_inode, up_intent, phase, action⟩ := state
  cases action with
  | none => rfl
  | some action =>
    show (match nativeAction? action.toJson with
      | none => Except.error (Exc.refusal "invalid native completion journal")
      | some action => Except.ok _) = _
    rw [nativeAction?_toJson]

end ModelConnector.Deploy
