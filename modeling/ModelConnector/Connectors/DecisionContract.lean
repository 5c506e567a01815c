import ModelConnector.Connectors.SchemaNormalizer

/-!
# The decision contract of Jev

`DecisionRequestSchema`, and `normalizeDecision`, which takes the answer of a provider as the answer
to a request or refuses it as a whole. Numbers are compared as rationals. A record that a schema
reads has no member named `__proto__`: the schema passes over it.
-/

namespace ModelConnector.Connectors.Jev

open Ecma

/-! ### Requests -/

/-- A question, with the criteria by which it is answered. -/
inductive Question
  | choice (instructions : Text) (criteria : List (Text × Text))
  | score (instructions : Text) (criteria : List Text)
  /-- The criteria are the labels of true and false. -/
  | noul (instructions : Text) (criteria : Option (Text × Text))

/-- `DecisionRequest`, without its fixed members. -/
structure DecisionRequest where
  decisionType : Text
  policyId : Text
  state : Text
  questions : List (Text × Question)

/-- `label`. -/
def isLabel (t : Text) : Bool :=
  decide (1 ≤ t.length) && decide (t.length ≤ 2048)

/-- `[a-zA-Z0-9]`. -/
def isAlphanumeric (u : CodeUnit) : Bool :=
  (0x30 ≤ u.val && u.val ≤ 0x39) || (0x41 ≤ u.val && u.val ≤ 0x5A) ||
    (0x61 ≤ u.val && u.val ≤ 0x7A)

/-- `[a-zA-Z0-9_.:-]`. -/
def isIdentifierUnit (u : CodeUnit) : Bool :=
  isAlphanumeric u || (ascii "_.:-").contains u

/-- `identifier`. -/
def isIdentifier (t : Text) : Bool :=
  (match t with
    | [] => false
    | u :: rest => isAlphanumeric u && rest.all isIdentifierUnit && decide (rest.length ≤ 127)) &&
    !(["__proto__", "constructor", "prototype"].any fun name ↦ decide (t = ascii name))

/-- `question`. -/
def isQuestion : Question → Bool
  | .choice instructions criteria =>
    isLabel instructions && (criteria.all fun p ↦ isIdentifier p.1 && isLabel p.2) &&
      decide (2 ≤ criteria.length) && decide (criteria.length ≤ 32)
  | .score instructions criteria =>
    isLabel instructions && criteria.all isLabel && decide (2 ≤ criteria.length) &&
      decide (criteria.length ≤ 32)
  | .noul instructions criteria =>
    isLabel instructions && criteria.all fun p ↦ isLabel p.1 && isLabel p.2

/-- `DecisionRequestSchema`. -/
def isDecisionRequest (request : DecisionRequest) : Bool :=
  isIdentifier request.decisionType && isIdentifier request.policyId &&
    decide (1 ≤ request.state.length) && decide (request.state.length ≤ 18000) &&
    (request.questions.all fun p ↦ isIdentifier p.1 && isQuestion p.2) &&
    decide (1 ≤ request.questions.length) && decide (request.questions.length ≤ 32)

/-- The names of the options of a choice. -/
def Question.options : Question → List Text
  | .choice _ criteria => criteria.map Prod.fst
  | .score _ _ | .noul _ _ => []

/-- A request that the schema accepts; no object has a key twice. -/
structure DecisionRequest.Valid (request : DecisionRequest) : Prop where
  accepted : isDecisionRequest request = true
  names : (request.questions.map Prod.fst).Nodup
  options : ∀ p ∈ request.questions, p.2.options.Nodup

/-- A question as it is sent. -/
def Question.toValue : Question → Value
  | .choice instructions criteria => .obj [(ascii "type", .str (ascii "choice")),
      (ascii "instructions", .str instructions),
      (ascii "criteria", .obj (criteria.map fun p ↦ (p.1, .str p.2)))]
  | .score instructions criteria => .obj [(ascii "type", .str (ascii "score")),
      (ascii "instructions", .str instructions),
      (ascii "criteria", .arr (criteria.map .str))]
  | .noul instructions criteria => .obj ([(ascii "type", .str (ascii "noul")),
      (ascii "instructions", .str instructions)] ++
      (criteria.map fun p ↦ (ascii "criteria",
        Value.obj [(ascii "true", .str p.1), (ascii "false", .str p.2)])).toList)

/-- A request as it is digested. -/
def DecisionRequest.toValue (request : DecisionRequest) : Value :=
  .obj [(ascii "version", .str (ascii "DecisionRequest/v1")), (ascii "mode", .str (ascii "shadow")),
    (ascii "decisionType", .str request.decisionType), (ascii "policyId", .str request.policyId),
    (ascii "model", .str (ascii "jev-latest")), (ascii "state", .str request.state),
    (ascii "questions", .obj (request.questions.map fun p ↦ (p.1, p.2.toValue)))]

/-! ### Results -/

/-- `DecisionAnswer`. -/
inductive DecisionAnswer
  | choice (choice : Text) (confidence : Option Number)
    (probabilities : Option (List (Text × Number)))
  | score (score : Number)
  | noul (noul : Number)

/-- Whether the answers of a provider were taken. -/
inductive DecisionStatus
  | observed
  | unknown
  deriving DecidableEq

/-- `DecisionResult`. -/
structure DecisionResult where
  version : String := "DecisionResult/v1"
  mode : String := "shadow"
  action : String := "none"
  decisionType : Text
  policyId : Text
  requestSha256 : Text
  requestedModel : Text
  observedModel : Option Text
  status : DecisionStatus
  reason : Option String
  answers : List (Text × DecisionAnswer)

/-! ### Schemas of the response -/

/-- A member that may be missing. -/
def optional? {α : Type} (parse : Value → Option α) : Option Value → Option (Option α)
  | none => some none
  | some v => (parse v).map some

/-- `z.record`. -/
def record? {α : Type} (parse : Value → Option α) : Value → Option (List (Text × α))
  | .obj members => (members.filter fun p ↦ decide (p.1 ≠ ascii "__proto__")).mapM
      fun p ↦ (parse p.2).map fun a ↦ (p.1, a)
  | _ => none

/-- `z.string()`. -/
def string? : Value → Option Text
  | .str s => some s
  | _ => none

/-- `z.number()`. -/
def number? : Value → Option Number
  | .num n => some n
  | _ => none

/-- `probability`. -/
def probability? (v : Value) : Option Number :=
  (number? v).filter fun n ↦ decide (0 ≤ n.value) && decide (n.value ≤ 1)

/-- What `choiceAnswer` reads. -/
structure ChoiceAnswer where
  choice : Text
  confidence : Option Number
  probabilities : Option (List (Text × Number))

/-- `choiceAnswer`. -/
def choiceAnswer : Value → Option ChoiceAnswer
  | .obj members => do
    let choice ← (members.lookup (ascii "choice")).bind string?
    let confidence ← optional? probability? (members.lookup (ascii "confidence"))
    let probabilities ← optional? (record? probability?) (members.lookup (ascii "probabilities"))
    return { choice, confidence, probabilities }
  | _ => none

/-- `scoreAnswer`. -/
def scoreAnswer : Value → Option Number
  | .obj members => ((members.lookup (ascii "score")).bind number?).filter fun n ↦
      decide (0 ≤ n.value)
  | _ => none

/-- `noulAnswer`. -/
def noulAnswer : Value → Option Number
  | .obj members => (members.lookup (ascii "noul")).bind probability?
  | _ => none

/-- The model of a response: `z.string().min(1).max(256)`. -/
def model? (v : Value) : Option Text :=
  (string? v).filter fun s ↦ decide (1 ≤ s.length) && decide (s.length ≤ 256)

/-- What `responseSchema` reads. -/
structure Response where
  model : Option Text
  answers : List (Text × Value)

/-- `responseSchema`. -/
def responseSchema : Value → Option Response
  | .obj members => do
    let model ← optional? model? (members.lookup (ascii "model"))
    let answers ← (members.lookup (ascii "answers")).bind (record? some)
    return { model, answers }
  | _ => none

/-! ### Normalization -/

/-- `1e-5`. -/
def tolerance : ℚ :=
  1 / 100000

/-- The checks on the probabilities of a choice. Where the choice has no probability, nothing is
greater than it and nothing differs from it. -/
def probabilitiesFit (criteria : List (Text × Text)) (a : ChoiceAnswer)
    (probabilities : List (Text × Number)) : Bool :=
  decide (probabilities.length = criteria.length) &&
    (probabilities.all fun p ↦ (criteria.lookup p.1).isSome) &&
    decide (|(probabilities.map fun p ↦ p.2.value).sum - 1| ≤ tolerance) &&
    match probabilities.lookup a.choice with
    | none => true
    | some selected =>
      let uniform : ℚ := 1 / probabilities.length
      let expectedConfidence := (selected.value - uniform) / (1 - uniform)
      (probabilities.all fun p ↦ decide (p.2.value ≤ selected.value + tolerance)) &&
        a.confidence.all fun c ↦ decide (|c.value - expectedConfidence| ≤ tolerance)

/-- The answer to one question. -/
def answer? : Question → Value → Option DecisionAnswer
  | .choice _ criteria, raw => do
    let a ← choiceAnswer raw
    guard (criteria.lookup a.choice).isSome
    guard (a.probabilities.all fun probabilities ↦ probabilitiesFit criteria a probabilities)
    return .choice a.choice a.confidence a.probabilities
  | .score _ criteria, raw => do
    let score ← scoreAnswer raw
    guard (score.value ≤ (criteria.length : ℚ) - 1)
    return .score score
  | .noul _ _, raw => (noulAnswer raw).map .noul

variable (sha256 : Text → Text)

/-- `unknownDecision`. -/
def unknownDecision (request : DecisionRequest) (reason : String) : DecisionResult where
  decisionType := request.decisionType
  policyId := request.policyId
  requestSha256 := sha256 (Codex.stringify.text request.toValue)
  requestedModel := ascii "jev-latest"
  observedModel := none
  status := .unknown
  reason := some reason
  answers := []

/-- The answers to all questions, if they are answered and nothing else is. -/
def answers? (request : DecisionRequest) (response : Response) :
    Option (List (Text × DecisionAnswer)) := do
  guard (response.answers.length = request.questions.length)
  request.questions.mapM fun p ↦ do
    let raw ← response.answers.lookup p.1
    let a ← answer? p.2 raw
    return (p.1, a)

/-- `normalizeDecision`. -/
def normalizeDecision (request : DecisionRequest) (input : Value) : DecisionResult :=
  let result := unknownDecision sha256 request "invalid_response"
  match responseSchema input with
  | none => result
  | some response =>
    match answers? request response with
    | none => result
    | some answers =>
      { result with status := .observed, reason := none, observedModel := response.model, answers }

end ModelConnector.Connectors.Jev
