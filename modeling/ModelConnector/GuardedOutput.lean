import ModelConnector.GuardedUsage

/-!
# What a guarded request is answered

How a request for structured output ends, whatever its connector and the repair library do. The
answers that are sent back are those the library rejects; each is asked with the request as it was
injected, with the prompt the library makes of the answer before it. The last answer ends the
request: it is a failure of the transport, or the library accepts it, or it is rejected with no
retry left. So a guarded response that is a success holds what the library has accepted.
-/

namespace ModelConnector

open Connectors

section Guard

variable {SchemaValidator : Type} (library : GuardLibrary SchemaValidator) (connector : Connector)
  (format : Format) (schema : Option String) (validator : Option SchemaValidator)

/-- A successful answer that the library rejects. -/
def Rejected (response : ConnectorResponse) : Prop :=
  response.status = .success ∧
    (attemptValidate library response.result format validator).valid = false

/-- The request the connector is asked after some answers were sent back. -/
def askedAfter (request : ConnectorRequest) (answers : List ConnectorResponse) :
    ConnectorRequest :=
  answers.foldl (fun request response ↦ correctionOf library schema response
    (attemptValidate library response.result format validator) request) request

/-- Every answer of a list is what the connector answers after those before it. -/
def Answered (request : ConnectorRequest) (answers : List ConnectorResponse) : Prop :=
  ∀ before response after, answers = before ++ response :: after →
    connector.execute before (askedAfter library format schema validator request before) =
      .ok response

/-- How the answers of a connector end a guarded request, of which `retries` are left. -/
inductive Ends (retries : ℕ) : List ConnectorResponse → GuardedExecuteOutcome → Prop
  | transport {sent : List ConnectorResponse} {last : ConnectorResponse}
    (hsent : ∀ r ∈ sent, Rejected library format validator r) (hlength : sent.length ≤ retries)
    (hlast : last.status ≠ .success) : Ends retries (sent ++ [last]) ⟨last, none, false⟩
  | accepted {sent : List ConnectorResponse} {last : ConnectorResponse}
    (hsent : ∀ r ∈ sent, Rejected library format validator r) (hlength : sent.length ≤ retries)
    (hlast : last.status = .success)
    (hvalid : (attemptValidate library last.result format validator).valid = true) :
    Ends retries (sent ++ [last]) (guardSucceeded connector sent.length last
      (attemptValidate library last.result format validator))
  | exhausted {sent : List ConnectorResponse} {last : ConnectorResponse}
    (hsent : ∀ r ∈ sent, Rejected library format validator r) (hlength : sent.length = retries)
    (hlast : Rejected library format validator last) :
    Ends retries (sent ++ [last]) (guardExhausted sent.length last
      (attemptValidate library last.result format validator))

variable {library connector format schema validator}

theorem askedAfter_concat {request : ConnectorRequest} {answers : List ConnectorResponse}
    {response : ConnectorResponse} :
    askedAfter library format schema validator request (answers ++ [response]) =
      correctionOf library schema response
        (attemptValidate library response.result format validator)
        (askedAfter library format schema validator request answers) := by
  simp [askedAfter]

theorem Answered.concat {request : ConnectorRequest} {answers : List ConnectorResponse}
    {response : ConnectorResponse}
    (h : Answered library connector format schema validator request answers)
    (hresponse : connector.execute answers
      (askedAfter library format schema validator request answers) = .ok response) :
    Answered library connector format schema validator request (answers ++ [response]) := by
  intro before r after heq
  rcases List.eq_nil_or_concat after with rfl | ⟨after', last, rfl⟩
  · obtain ⟨rfl, hr⟩ := List.append_inj' heq rfl
    cases hr
    exact hresponse
  · refine h before r after' ?_
    rw [List.concat_eq_append, ← List.cons_append, ← List.append_assoc] at heq
    exact (List.append_inj' heq rfl).1

/-- The loop of the guard, after some answers were sent back. -/
theorem ends_of_guardLoop {more retries : ℕ} {request asked : ConnectorRequest}
    {calls : List ConnectorResponse} {execution : GuardedExecution}
    (hasked : asked = askedAfter library format schema validator request calls)
    (hcalls : ∀ r ∈ calls, Rejected library format validator r)
    (hanswered : Answered library connector format schema validator request calls)
    (hretries : calls.length + more = retries)
    (h : guardLoop library connector format schema validator more calls asked = .ok execution) :
    Answered library connector format schema validator request execution.calls ∧
      Ends library connector format validator retries execution.calls execution.outcome := by
  induction more generalizing calls asked with
  | zero =>
    unfold guardLoop at h
    split at h
    · cases h
    · rename_i response hresponse
      rw [hasked] at hresponse
      have hconcat := hanswered.concat hresponse
      simp only at h
      split_ifs at h with hstatus hvalid
      · cases h
        exact ⟨hconcat, .transport hcalls (by omega) hstatus⟩
      · cases h
        exact ⟨hconcat, .accepted hcalls (by omega) (not_not.1 hstatus) hvalid⟩
      · cases h
        exact ⟨hconcat, .exhausted hcalls (by omega)
          ⟨not_not.1 hstatus, Bool.eq_false_iff.2 hvalid⟩⟩
  | succ more ih =>
    unfold guardLoop at h
    split at h
    · cases h
    · rename_i response hresponse
      have hconcat := hanswered.concat (hasked ▸ hresponse)
      simp only at h
      split_ifs at h with hstatus hvalid
      · cases h
        exact ⟨hconcat, .transport hcalls (by omega) hstatus⟩
      · cases h
        exact ⟨hconcat, .accepted hcalls (by omega) (not_not.1 hstatus) hvalid⟩
      · refine ih ?_ ?_ hconcat ?_ h
        · rw [hasked, askedAfter_concat]
        · intro r hr
          rcases List.mem_append.1 hr with hr | hr
          · exact hcalls r hr
          · rw [List.mem_singleton.1 hr]
            exact ⟨not_not.1 hstatus, Bool.eq_false_iff.2 hvalid⟩
        · rw [List.length_append, List.length_singleton]
          omega

/-- What a library accepts is what `repair` returns. -/
theorem exists_of_valid {text : String}
    (h : (attemptValidate library text format validator).valid = true) :
    ∃ result, library.repair text format validator = .ok result ∧
      (attemptValidate library text format validator).text =
        (if result.repaired then result.raw else text) ∧
      (attemptValidate library text format validator).data = result.data := by
  unfold attemptValidate at h ⊢
  cases hrepair : library.repair text format validator with
  | ok result => exact ⟨result, rfl, rfl, rfl⟩
  | error e =>
    rw [hrepair] at h
    cases e <;> cases h

/-- A success holds what the library has accepted of the last answer. -/
theorem Ends.of_success {retries : ℕ} {calls : List ConnectorResponse}
    {outcome : GuardedExecuteOutcome}
    (h : Ends library connector format validator retries calls outcome)
    (hsuccess : outcome.response.status = .success) :
    ∃ last result, calls.getLast? = some last ∧
      library.repair last.result format validator = .ok result ∧
      outcome.response.result = (if result.repaired then result.raw else last.result) ∧
      outcome.response.structured = result.data ∧
      outcome.report.any OutputGuardReport.finalValid = true := by
  cases h with
  | transport hsent hlength hlast => exact absurd hsuccess hlast
  | accepted hsent hlength hlast hvalid =>
    obtain ⟨result, hresult, htext, hdata⟩ := exists_of_valid hvalid
    exact ⟨_, result, List.getLast?_concat, hresult, htext, hdata, rfl⟩
  | exhausted hsent hlength hlast => cases hsuccess

/-- **A guarded request** is answered by its connector at most once more than there are retries. It
ends by the last answer, and is a success only with what the library has accepted of it. -/
theorem guarded_ends {config : Option OutputGuardRuntimeConfig} {request : GuardRequest}
    {execution : GuardedExecution} (henabled : (config.getD {}).enabled = true)
    (hformat : request.outputFormat = some format)
    (hvalidator : request.schema.mapM (buildAjvAdapter library) = .ok validator)
    (h : wrapExecute library config connector request = .ok execution) :
    Answered library connector format request.schema validator
        ((pickInjector connector.capabilities).inject (stripGuardFields request) request.schema)
        execution.calls ∧
      Ends library connector format validator (config.getD {}).retries execution.calls
        execution.outcome ∧
      (execution.outcome.response.status = .success →
        ∃ last result, execution.calls.getLast? = some last ∧
          library.repair last.result format validator = .ok result ∧
          execution.outcome.response.result =
            (if result.repaired then result.raw else last.result) ∧
          execution.outcome.response.structured = result.data ∧
          execution.outcome.report.any OutputGuardReport.finalValid = true) := by
  simp only [wrapExecute, henabled, hformat, hvalidator] at h
  have hempty : Answered library connector format request.schema validator
      ((pickInjector connector.capabilities).inject (stripGuardFields request) request.schema)
      [] := by
    intro before response after heq
    cases before <;> cases heq
  obtain ⟨hanswered, hends⟩ := ends_of_guardLoop rfl (by simp) hempty (Nat.zero_add _) h
  exact ⟨hanswered, hends, hends.of_success⟩

end Guard

/-- The second answer of a connector that forgets the value in its first one is accepted. -/
theorem guarded_ends_forgetful : ∃ execution,
    wrapExecute nameValueLibrary none (forgetful .zero) nameValueRequest = .ok execution ∧
      execution.outcome.response.structured = some nameValue := by
  obtain ⟨execution, h, hstatus⟩ : ∃ execution,
      wrapExecute nameValueLibrary none (forgetful .zero) nameValueRequest = .ok execution ∧
        execution.outcome.response.status = .success := ⟨_, rfl, by decide +kernel⟩
  refine ⟨execution, h, ?_⟩
  obtain ⟨last, result, -, hresult, -, hdata, -⟩ :=
    (@guarded_ends _ _ _ _ (some ()) _ _ _ rfl rfl rfl h).2.2 hstatus
  rw [hdata]
  have hrepair : ∀ text : String, nameValueLibrary.repair text .json (some ()) = .ok result →
      result.data = some nameValue := by
    intro text htext
    simp only [nameValueLibrary] at htext
    split at htext
    · rename_i heq
      cases htext
      rw [heq]
    · cases htext
  exact hrepair _ hresult

end ModelConnector
