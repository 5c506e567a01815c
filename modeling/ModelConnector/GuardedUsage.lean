import ModelConnector.Connectors.Metering
import ModelConnector.Connectors.OutputGuard

/-!
# The usage of a guarded request

Every answer that the output guard sends back for correction is a call the provider bills. The
response of `wrapExecute` is built from its last answer alone, usage included, and the answers
before it are dropped, so the usage of the response is that of all calls exactly when the answers
sent back report nothing: `usage_eq_total_iff`. In `not_usage_eq_total` the first of two answers
does report its tokens, and neither the response nor the meter sees them.
-/

namespace ModelConnector

open Connectors

section Guard

variable {SchemaValidator : Type} {library : GuardLibrary SchemaValidator} {connector : Connector}

/-- The answers that are sent back for correction, with `more` retries left: the successful ones
that do not validate, up to the first answer that is not of this kind. -/
def sentBackFrom (library : GuardLibrary SchemaValidator) (connector : Connector) (format : Format)
    (schema : Option String) (validator : Option SchemaValidator) :
    ℕ → List ConnectorResponse → ConnectorRequest → List ConnectorResponse
  | 0, _, _ => []
  | more + 1, answers, request =>
    match connector.execute answers request with
    | .error _ => []
    | .ok response =>
      let outcome := attemptValidate library response.result format validator
      if response.status = .success ∧ outcome.valid = false then
        response :: sentBackFrom library connector format schema validator more
          (answers ++ [response]) (correctionOf library schema response outcome request)
      else []

/-- The answers a guarded request sends back for correction. -/
def sentBack (library : GuardLibrary SchemaValidator) (config : Option OutputGuardRuntimeConfig)
    (connector : Connector) (request : GuardRequest) : List ConnectorResponse :=
  let cfg := config.getD {}
  match cfg.enabled, request.outputFormat with
  | true, some format =>
    match request.schema.mapM (buildAjvAdapter library) with
    | .error _ => []
    | .ok validator =>
      sentBackFrom library connector format request.schema validator cfg.retries []
        ((pickInjector connector.capabilities).inject (stripGuardFields request) request.schema)
  | _, _ => []

/-- **The loop of the guard** calls the connector once for every answer it sends back and once
more, and the usage it returns is that of the last call. -/
theorem guardLoop_spec {format : Format} {schema : Option String}
    {validator : Option SchemaValidator} {more : ℕ} {calls : List ConnectorResponse}
    {request : ConnectorRequest} {execution : GuardedExecution}
    (h : guardLoop library connector format schema validator more calls request = .ok execution) :
    ∃ last, execution.calls = calls ++
        sentBackFrom library connector format schema validator more calls request ++ [last] ∧
      execution.outcome.response.usage = last.usage := by
  induction more generalizing calls request with
  | zero =>
    unfold guardLoop at h
    split at h
    · cases h
    · rename_i response hresponse
      refine ⟨response, ?_⟩
      rw [sentBackFrom, List.append_nil]
      simp only at h
      split_ifs at h <;> cases h <;> exact ⟨rfl, rfl⟩
  | succ more ih =>
    unfold guardLoop at h
    split at h
    · cases h
    · rename_i response hresponse
      simp only [sentBackFrom, hresponse]
      simp only at h
      split_ifs at h with hstatus hvalid
      · -- the transport failed
        cases h
        refine ⟨response, ?_, rfl⟩
        rw [if_neg fun hsent ↦ hstatus hsent.1, List.append_nil]
      · -- the answer is valid
        cases h
        refine ⟨response, ?_, rfl⟩
        have hkept : ¬ (response.status = .success ∧
            (attemptValidate library response.result format validator).valid = false) :=
          fun hsent ↦ Bool.false_ne_true (hsent.2.symm.trans hvalid)
        rw [if_neg hkept, List.append_nil]
      · -- the answer is sent back
        obtain ⟨last, hcalls, husage⟩ := ih h
        refine ⟨last, ?_, husage⟩
        rw [hcalls, if_pos ⟨not_not.1 hstatus, Bool.not_eq_true _ ▸ hvalid⟩]
        simp only [List.append_assoc, List.cons_append, List.nil_append]

theorem bypassGuard_spec {request : GuardRequest} {execution : GuardedExecution}
    (h : bypassGuard connector request = .ok execution) :
    ∃ last : Option ConnectorResponse, execution.calls = last.toList ∧
      execution.outcome.response.usage.amount = totalUsage last.toList := by
  unfold bypassGuard at h
  split at h
  · cases h
  · rename_i response _
    cases h
    exact ⟨some response, rfl, (totalUsage_singleton response).symm⟩

/-- A guarded request calls the connector once for every answer it sends back, and at most once
more; it returns the usage of the last call, or none. -/
theorem wrapExecute_spec {config : Option OutputGuardRuntimeConfig} {request : GuardRequest}
    {execution : GuardedExecution}
    (h : wrapExecute library config connector request = .ok execution) :
    ∃ last : Option ConnectorResponse,
      execution.calls = sentBack library config connector request ++ last.toList ∧
      execution.outcome.response.usage.amount = totalUsage last.toList := by
  cases henabled : (config.getD {}).enabled with
  | false =>
    simp only [wrapExecute, henabled] at h
    simpa only [sentBack, henabled, List.nil_append] using bypassGuard_spec h
  | true =>
    cases hformat : request.outputFormat with
    | none =>
      simp only [wrapExecute, henabled, hformat] at h
      simpa only [sentBack, henabled, hformat, List.nil_append] using bypassGuard_spec h
    | some format =>
      cases hschema : request.schema.mapM (buildAjvAdapter library) with
      | error message =>
        -- the schema is rejected, and the connector is not called at all
        simp only [wrapExecute, henabled, hformat, hschema] at h
        cases h
        exact ⟨none, by simp only [sentBack, henabled, hformat, hschema]; rfl, Usage.amount_zero⟩
      | ok validator =>
        simp only [wrapExecute, henabled, hformat, hschema] at h
        obtain ⟨last, hcalls, husage⟩ := guardLoop_spec h
        refine ⟨some last, ?_, ?_⟩
        · simpa only [sentBack, henabled, hformat, hschema, List.nil_append, Option.toList_some]
            using hcalls
        · rw [husage]
          exact (totalUsage_singleton last).symm

/-- **The usage of a guarded request** is the sum of the usages of all calls exactly when the
answers that were sent back report usages that add up to nothing. -/
theorem usage_eq_total_iff {config : Option OutputGuardRuntimeConfig} {request : GuardRequest}
    {execution : GuardedExecution}
    (h : wrapExecute library config connector request = .ok execution) :
    execution.outcome.response.usage.amount = totalUsage execution.calls ↔
      totalUsage (sentBack library config connector request) = 0 := by
  obtain ⟨last, hcalls, husage⟩ := wrapExecute_spec h
  rw [hcalls, husage, totalUsage_append]
  exact right_eq_add

/-- The guard, as the connector of the retry loop. -/
def guardedDispatch (library : GuardLibrary SchemaValidator)
    (config : Option OutputGuardRuntimeConfig) (connector : List ConnectorResponse → Connector)
    (request : GuardRequest) : Dispatch := fun answers ↦
  (wrapExecute library config (connector answers) request).map fun execution ↦
    execution.outcome.response

end Guard

/-- A text with both fields the schema of `nameValueRequest` requires. -/
def nameValue : String :=
  "\x7b\"name\":\"x\",\"value\":1\x7d"

/-- A guard for `nameValueRequest`: nothing has to be repaired, and a text without the second field
is rejected. -/
def nameValueLibrary : GuardLibrary Unit where
  compile _ := .ok ()
  repair text _ _ :=
    if text = nameValue then .ok ⟨false, text, some text, []⟩
    else .error (.schemaValidation ["/ must have required property 'value'"] "schema rejected")
  retryPrompt previousResponse _ _ := "Correct your answer: " ++ previousResponse

/-- A request for JSON with a name and a value. -/
def nameValueRequest : GuardRequest where
  prompt := .text "p"
  outputFormat := some .json
  schema := some "\x7b\"type\":\"object\",\"required\":[\"name\",\"value\"]\x7d"

/-- A connector that forgets the value in its first answer, for which it reports `usage`. -/
def forgetful (usage : Usage) : Connector where
  capabilities := ⟨"openrouter", true⟩
  execute answers _ :=
    if answers = [] then
      .ok { model := "m", result := "\x7b\"name\":\"x\"\x7d", usage := usage, status := .success }
    else
      .ok { model := "m", result := nameValue, status := .success
            usage := ⟨1200, 40, 1240, 0, none, none, none, false⟩ }

/-- A connector that reports no usage for the answer that is sent back. -/
theorem usage_eq_total_iff_unreported : ∃ execution,
    wrapExecute nameValueLibrary none (forgetful .zero) nameValueRequest = .ok execution ∧
      execution.calls.length = 2 ∧
        execution.outcome.response.usage.amount = totalUsage execution.calls := by
  obtain ⟨execution, h, hcheck⟩ : ∃ execution,
      wrapExecute nameValueLibrary none (forgetful .zero) nameValueRequest = .ok execution ∧
        execution.calls.length = 2 := ⟨_, rfl, by decide +kernel⟩
  refine ⟨execution, h, hcheck, (usage_eq_total_iff h).2 ?_⟩
  have hsent : sentBack nameValueLibrary none (forgetful .zero) nameValueRequest =
      [⟨"m", "\x7b\"name\":\"x\"\x7d", none, .zero, .success, none, none, none⟩] := by decide +kernel
  rw [hsent, totalUsage_singleton, Usage.amount_zero]

/-- The usage of a guarded request is not that of all its calls: the tokens of the answer that was
sent back are neither in the response nor in what the meter is given. -/
theorem not_usage_eq_total : ∃ execution made,
    wrapExecute nameValueLibrary none (forgetful ⟨1000, 500, 1500, 0, none, none, none, false⟩)
        nameValueRequest = .ok execution ∧
      execution.outcome.response.usage.amount ≠ totalUsage execution.calls ∧
      runAttempts (guardedDispatch nameValueLibrary none
        (fun _ ↦ forgetful ⟨1000, 500, 1500, 0, none, none, none, false⟩) nameValueRequest) 3 =
          .ok made ∧
      made.usage.amount ≠ totalUsage execution.calls := by
  refine ⟨_, _, rfl, fun h ↦ ?_, rfl, fun h ↦ ?_⟩
  · exact absurd (congrFun h .outputTokens) (by decide +kernel)
  · exact absurd (congrFun h .outputTokens) (by decide +kernel)

end ModelConnector
