import ModelConnector.Connectors.SchemaNormalizer
import ModelConnector.Foundations.Json
import ModelConnector.Watcher.Cycles

/-!
# Alerts

What `emitAlert` is called with for an observation, the event it makes of it, and `OpsBotClient`,
which delivers an event unless it has delivered the same one a short time ago. Events are compared
as the texts of what `redact` leaves of them.

How evidence and dates are written is a parameter. The reference of the audit log, the clock and the
outcome of a delivery are the environment's.
-/

namespace ModelConnector.Watcher

open Ecma Connectors.Codex

/-! ### The alert of an observation -/

/-- The arguments of `emitAlert`. -/
structure Alert where
  evidence : EvidenceSnapshot
  failureClass : FailureClass
  attemptedAction : String
  blockedAction : Option String
  outcome : String
  fixApplied : Bool

/-- The alert of `handleCircuitReset`, unless `executeRecovery` throws. -/
def circuitResetAlert? (config : WatcherConfig) (evidence : EvidenceSnapshot)
    (failureClass : FailureClass) (reading : Reading) : Option Alert :=
  if !config.recovery.circuitResetEnabled then
    some { evidence, failureClass, attemptedAction := "reset_circuit"
           blockedAction := some "reset_circuit", outcome := "blocked_by_config"
           fixApplied := false }
  else (executeRecovery reading.reply).map fun (recovered, outcome) ↦
    { evidence, failureClass, attemptedAction := "reset_circuit", blockedAction := none, outcome,
      fixApplied := recovered }

/-- The alert of `handleEvidence`, if there is one. -/
def handledAlert? (config : WatcherConfig) (evidence : EvidenceSnapshot) (reading : Reading)
    (s : WatcherState) : Option Alert :=
  (classifyFailure evidence).bind fun failureClass ↦
    let decision := config.recovery.decideRecovery s.resets
      (recoveryInput evidence failureClass (s.tracker.update evidence).1 reading)
    match decision.action with
    | .reset_circuit => circuitResetAlert? config evidence failureClass reading
    | .alert =>
      if failureClass = .circuit_open ∧ decision.reason ≠ "mutation_not_eligible" then
        some { evidence, failureClass, attemptedAction := "reset_circuit"
               blockedAction := some "reset_circuit", outcome := decision.reason
               fixApplied := false }
      else
        some { evidence, failureClass, attemptedAction := "alert", blockedAction := none
               outcome := decision.reason, fixApplied := false }

/-- The line of the audit log. -/
def Alert.record (alert : Alert) : AuditRecord where
  outcome := alert.outcome
  provider := alert.evidence.provider
  model := alert.evidence.model
  failureClass := alert.failureClass
  attemptedAction := alert.attemptedAction
  blockedAction := alert.blockedAction
  fixApplied := alert.fixApplied

/-- The alert of an observation, once it is in the audit log. -/
def Observation.alert? (config : WatcherConfig) (o : Observation) : Option Alert :=
  if o.reading.audited then
    handledAlert? config (o.evidence config) o.reading (o.state.enrich config o.raw).2
  else none

/-- The alerts of a run. -/
def alertsOf (config : WatcherConfig) (h : List (WatcherState × Cycle)) : List Alert :=
  h.flatMap fun p ↦ (p.2.observed config p.1).filterMap (Observation.alert? config)

/-! ### Events -/

/-- The code units of a string. -/
def textOf (s : String) : Text :=
  (utf16Units s).map (Fin.ofNat 0x10000)

def FailureClass.name : FailureClass → String
  | .provider_outage => "provider_outage"
  | .rate_or_quota => "rate_or_quota"
  | .authentication => "authentication"
  | .billing => "billing"
  | .circuit_open => "circuit_open"
  | .unknown => "unknown"

/-- How evidence and dates are written. -/
structure Rendering where
  evidence : EvidenceSnapshot → Value
  date : ℤ → Text

/-- A member that is a string. -/
def stringMember (key value : String) : Text × Value :=
  (ascii key, .str (textOf value))

namespace Alert

variable (R : Rendering) (alert : Alert)

/-- `recommended_operator_step`. -/
def recommendedStep : String :=
  if alert.blockedAction.isSome then "enable circuit reset only after activation gates pass"
  else "inspect audit record and dependency health"

/-- `bodyDetail`, with this evidence. -/
def bodyDetail (evidence : Value) (auditRef : Text) : Value :=
  .obj ([stringMember "provider" alert.evidence.provider, stringMember "model" alert.evidence.model,
      stringMember "failure_class" alert.failureClass.name, (ascii "evidence", evidence),
      stringMember "attempted_action" alert.attemptedAction] ++
    (alert.blockedAction.map (stringMember "blocked_action")).toList ++
    [stringMember "outcome" alert.outcome,
      stringMember "recommended_operator_step" alert.recommendedStep,
      (ascii "audit_ref", .str auditRef)])

/-- `bodyFull`. -/
def bodyFull (auditRef : Text) : Text :=
  stringify.text (alert.bodyDetail (R.evidence alert.evidence) auditRef)

/-- `bodySummary`. -/
def bodySummary (auditRef : Text) : Text :=
  if (alert.bodyFull R auditRef).length ≤ 4000 then alert.bodyFull R auditRef
  else stringify.text (alert.bodyDetail (.obj [stringMember "provider" alert.evidence.provider,
    stringMember "model" alert.evidence.model,
    (ascii "observedAt", .str (R.date alert.evidence.observedAt))]) auditRef)

/-- `title`. -/
def title : Text :=
  (textOf ("MC " ++ alert.evidence.provider ++ "/" ++ alert.evidence.model ++ ": " ++
    alert.failureClass.name)).take 256

/-- `dedup_key`. -/
def dedupKey : Text :=
  (textOf ("mc-watcher:" ++ alert.evidence.provider ++ ":" ++ alert.evidence.model ++ ":" ++
    alert.failureClass.name)).take 128

/-- The event that is emitted. -/
def event (auditRef : Text) : Value :=
  .obj [stringMember "category" (if alert.blockedAction.isSome then "warning" else "info"),
    stringMember "agent" "model-connector-watcher", (ascii "title", .str alert.title),
    (ascii "body", .str ((alert.bodySummary R auditRef).take 4000)),
    (ascii "dedup_key", .str alert.dedupKey)]

end Alert

/-! ### Redaction -/

/-- The words of `SECRET_KEY`, in lower case. -/
def SECRET_WORDS : List String :=
  ["token", "secret", "password", "authorization", "apikey", "api_key", "api-key"]

/-- A letter of ASCII in lower case; the expression has no other letters, and matches nothing else
as one of them. -/
def lowerUnit (u : CodeUnit) : CodeUnit :=
  if 0x41 ≤ u.val && u.val ≤ 0x5A then u + 0x20 else u

/-- `SECRET_KEY.test`. -/
def isSecretKey (key : Text) : Bool :=
  SECRET_WORDS.any fun word ↦ includes (key.map lowerUnit) (ascii word)

/-- `LONG_STRING_KEYS.has(key) ? 4000 : 200`. -/
def maxLength (key : Text) : ℕ :=
  if key = ascii "body" then 4000 else 200

mutual

/-- `redact`, of a value that stands under a key. -/
def redact (key : Text) (value : Value) : Value :=
  if isSecretKey key then .str (ascii "[REDACTED]")
  else
    match value with
    | .str s => .str (s.take (maxLength key))
    | .arr elems => .arr (redactAll elems)
    | .obj members => .obj (redactMembers members)
    | .null => .null
    | .bool b => .bool b
    | .num n => .num n

/-- The elements of an array, which stand under no key. -/
def redactAll : List Value → List Value
  | [] => []
  | v :: rest => redact [] v :: redactAll rest

/-- The members of an object. -/
def redactMembers : List (Text × Value) → List (Text × Value)
  | [] => []
  | p :: rest => redactPair p :: redactMembers rest

/-- A member of an object. -/
def redactPair : Text × Value → Text × Value
  | (key, v) => (key, redact key v)

end

/-! ### The client -/

/-- An alert, its reference, the clock when it is emitted, and whether it could be sent then. -/
structure Emission where
  alert : Alert
  auditRef : Text
  now : ℤ
  sent : Bool

/-- `JSON.stringify(redact(event))`. -/
def Emission.key (R : Rendering) (e : Emission) : Text :=
  stringify.text (redact [] (e.alert.event R e.auditRef))

/-- The client, and what it has delivered so far. -/
structure OpsBotClient where
  sent : Text → Option ℤ := fun _ ↦ none
  delivered : List Emission := []

/-- Whether the same event was sent a short time ago. -/
def OpsBotClient.isRecent (dedupWindowMs : ℕ) (R : Rendering) (client : OpsBotClient)
    (e : Emission) : Bool :=
  (client.sent (e.key R)).any fun previous ↦ decide (e.now - previous < dedupWindowMs)

/-- `emit`. -/
def OpsBotClient.emit (dedupWindowMs : ℕ) (R : Rendering) (client : OpsBotClient) (e : Emission) :
    OpsBotClient :=
  if client.isRecent dedupWindowMs R e then client
  else if !e.sent then client
  else
    { sent := Function.update client.sent (e.key R) (some e.now)
      delivered := client.delivered ++ [e] }

/-- What becomes of an alert: the reference that is made for it, the clock, and whether it can be
sent. -/
structure Sending where
  auditRef : Text
  now : ℤ
  sent : Bool

/-- The emissions of a run. -/
def emissionsOf (config : WatcherConfig) (h : List (WatcherState × Cycle))
    (sendings : List Sending) : List Emission :=
  List.zipWith (fun alert sending ↦ ⟨alert, sending.auditRef, sending.now, sending.sent⟩)
    (alertsOf config h) sendings

/-! ### The alerts of a run are the lines of the audit log -/

variable {config : WatcherConfig} {s s₀ : WatcherState} {evidence : EvidenceSnapshot}
  {reading : Reading}

theorem emitAlert_eq (alert : Alert) : emitAlert alert.evidence alert.failureClass
    alert.attemptedAction alert.blockedAction alert.outcome reading alert.fixApplied s =
      if reading.audited then ({ s with audit := s.audit ++ [alert.record] }, reading.delivered)
      else (s, false) := by
  unfold emitAlert
  cases reading.audited <;> rfl

/-- What the handling of evidence comes to: a line in the audit log for its alert, and the cycle
goes on if there is no failure, or else if the alert is made, written and delivered. -/
structure Alerted (reading : Reading) (failureClass : Option FailureClass) (alert : Option Alert)
    (s : WatcherState) (outcome : Outcome) : Prop where
  audit : outcome.1.audit =
    s.audit ++ ((if reading.audited then alert else none).map Alert.record).toList
  goesOn : outcome.2 = true ↔ failureClass = none ∨
    alert.isSome = true ∧ reading.audited = true ∧ reading.delivered = true

theorem alerted_emitAlert {t : WatcherState} {failureClass : FailureClass} (alert : Alert)
    (ht : t.audit = s.audit) :
    Alerted reading (some failureClass) (some alert) s (emitAlert alert.evidence alert.failureClass
      alert.attemptedAction alert.blockedAction alert.outcome reading alert.fixApplied t) := by
  rw [emitAlert_eq]
  cases haudited : reading.audited with
  | false => exact ⟨by simp [haudited, ht], by simp [haudited]⟩
  | true => exact ⟨by simp [haudited, ht], by simp [haudited]⟩

theorem alerted_handleCircuitReset {t : WatcherState} {failureClass : FailureClass}
    (ht : t.audit = s.audit) :
    Alerted reading (some failureClass) (circuitResetAlert? config evidence failureClass reading) s
      (handleCircuitReset config evidence failureClass reading t) := by
  have hsend : (t.send evidence reading).audit = s.audit := by
    rw [← ht]
    unfold WatcherState.send
    split
    · rfl
    · rfl
  unfold handleCircuitReset circuitResetAlert?
  split
  · exact alerted_emitAlert ⟨evidence, failureClass, "reset_circuit", some "reset_circuit",
      "blocked_by_config", false⟩ ht
  · dsimp only
    cases executeRecovery reading.reply with
    | none => exact ⟨by simp [hsend], by simp⟩
    | some result =>
      obtain ⟨recovered, outcome⟩ := result
      refine alerted_emitAlert
        ⟨evidence, failureClass, "reset_circuit", none, outcome, recovered⟩ ?_
      split
      · exact hsend
      · exact hsend

/-- **The handling of evidence and its alert.** -/
theorem alerted_handleEvidence : Alerted reading (classifyFailure evidence)
    (handledAlert? config evidence reading s) s (handleEvidence config evidence reading s) := by
  unfold handleEvidence handledAlert?
  dsimp only
  cases classifyFailure evidence with
  | none => exact ⟨by simp, by simp⟩
  | some failureClass =>
    rw [Option.bind_some]
    dsimp only
    generalize config.recovery.decideRecovery s.resets
      (recoveryInput evidence failureClass (s.tracker.update evidence).1 reading) = decision
    obtain ⟨action, reason⟩ := decision
    cases action with
    | reset_circuit => exact alerted_handleCircuitReset rfl
    | alert =>
      dsimp only
      by_cases hblocked : failureClass = .circuit_open ∧ reason ≠ "mutation_not_eligible"
      · rw [if_pos hblocked, if_pos hblocked]
        exact alerted_emitAlert ⟨evidence, failureClass, "reset_circuit", some "reset_circuit",
          reason, false⟩ rfl
      · rw [if_neg hblocked, if_neg hblocked]
        exact alerted_emitAlert ⟨evidence, failureClass, "alert", none, reason, false⟩ rfl

/-- **An observation and its alert.** -/
theorem alerted_outcome (o : Observation) : Alerted o.reading (classifyFailure (o.evidence config))
    (handledAlert? config (o.evidence config) o.reading (o.state.enrich config o.raw).2) o.state
    (o.outcome config) := by
  have h := @alerted_handleEvidence config (o.state.enrich config o.raw).2 (o.evidence config)
    o.reading
  unfold Observation.outcome
  rw [observePair_eq]
  refine ⟨?_, h.goesOn⟩
  rw [← (@enrich_snd config o.state o.raw).1]
  exact h.audit

end ModelConnector.Watcher
