import ModelConnector.PromptCache.Service
import ModelConnector.SecretScan

/-!
# What the log of the policy tells

Every event the service emits goes to its sink, in order. The receipts among them hand the mode
over from the one the service was booted in to the one it is in, so that the log tells at each of
its places what mode was in force. Every decision in it carries that mode, and its action is the one
that follows from its codes in that mode; and what the log holds of decisions is what the calls were
answered, each once. The service keeps the last events and receipts of it.
-/

namespace ModelConnector.PromptCache

open Logs PromptCachePolicyService

/-! ### Decisions -/

/-- The action of a decision follows from its verdict, and the verdict from its findings where a
prefix is claimed. -/
theorem verdict_of_evaluate {sha256Text : String → String} {options : EvaluateOptions}
    {call : EvaluateCall} {store : PolicyStore} {decision : PromptCachePolicyDecision}
    (h : (evaluatePromptCachePolicy sha256Text options call store).1 = .ok decision) :
    decision.action = actionOf options.mode decision.verdict ∧
      (decision.caching_claimed = true ∨ decision.verdict = .UNDETERMINED →
        decision.verdict = verdictOf decision.findings) := by
  unfold evaluatePromptCachePolicy at h
  cases hrecord : call.body.isRecord with
  | false =>
    simp only [hrecord, Bool.not_false, if_true, Except.ok.injEq] at h
    subst h
    exact ⟨rfl, fun _ ↦ by simp [unevaluated, verdictOf, gatewayFinding, FindingCode.severity]⟩
  | true =>
    cases hclaimed : cachingClaimed call.body call.ctx with
    | false =>
      simp only [hrecord, hclaimed, Bool.not_false, Bool.not_true, Bool.false_eq_true, if_true,
        if_false, Except.ok.injEq] at h
      subst h
      exact ⟨rfl, fun hor ↦ by simp [unevaluated] at hor⟩
    | true =>
      simp only [hrecord, hclaimed, Bool.not_true, Bool.false_eq_true, if_false] at h
      cases hderive : derive sha256Text call.body with
      | error message =>
        simp only [hderive, Except.ok.injEq] at h
        subst h
        exact ⟨rfl, fun _ ↦ by simp [unevaluated, verdictOf, gatewayFinding, FindingCode.severity]⟩
      | ok d =>
        simp only [hderive, evaluateDerived] at h
        cases hsession : evaluateSessionOf call (stringMember call.body "model") d store with
        | error e => simp [hsession] at h
        | ok session =>
          simp only [hsession, Except.ok.injEq] at h
          rw [← h]
          exact ⟨by simp only [derivedDecision], fun _ ↦ by simp only [derivedDecision]⟩

/-! ### What a call does -/

/-- The decision an evaluation reports. -/
def claimedOf : Option (Except String PromptCachePolicyDecision) → Option PromptCachePolicyDecision
  | some (.ok decision) =>
    if decision.caching_claimed || decision.verdict = .UNDETERMINED then some decision else none
  | _ => none

/-- The decision a call reports. -/
def reported (sha256Text : String → String) (p : PromptCachePolicyService × ServiceCall) :
    Option PromptCachePolicyDecision :=
  match p.2 with
  | .setMode _ => none
  | .execute call =>
    match readRequest call.request with
    | .error _ => none
    | .ok (fields, body) =>
      claimedOf (p.1.evaluate sha256Text (call.evaluateCall fields body) call.ts).1

/-- The effect of a call, with the decision it reports. -/
inductive Does (s : PromptCachePolicyService) :
    Option PromptCachePolicyDecision → PromptCachePolicyService → Prop
  | quiet (store : PolicyStore) : Does s none { s with store }
  | decided {mode : ActiveMode} {decision : PromptCachePolicyDecision} (store : PolicyStore)
      (ts : ℤ) (hmode : s.mode.active? = some mode)
      (haction : decision.action = actionOf mode decision.verdict)
      (hverdict : decision.verdict = verdictOf decision.findings) :
      Does s (some decision) (emit { s with store } (.decision decision.toEvent) ts)
  | switched (switch : Switch) (next : PolicyMode) :
      Does s none (emit { s with
        mode := next
        receipts := pushRing RECEIPT_RING s.receipts (receiptOf switch next s) }
          (.mode_switched (receiptOf switch next s)) switch.ts)

theorem does_evaluate (sha256Text : String → String) (call : EvaluateCall) (ts : ℤ)
    (s : PromptCachePolicyService) :
    Does s (claimedOf (s.evaluate sha256Text call ts).1) (s.evaluate sha256Text call ts).2 := by
  cases hmode : s.mode.active? with
  | none =>
    simp only [PromptCachePolicyService.evaluate, hmode]
    exact .quiet s.store
  | some mode =>
    simp only [PromptCachePolicyService.evaluate, hmode]
    cases hresult : evaluatePromptCachePolicy sha256Text
        { contract := s.contract, mode, limits := s.limits } call s.store with
    | mk result store =>
      cases result with
      | error e => exact .quiet store
      | ok decision =>
        obtain ⟨haction, hverdict⟩ := verdict_of_evaluate (congrArg Prod.fst hresult)
        simp only [claimedOf]
        split_ifs with hreport
        · exact .decided store ts hmode haction (hverdict (by simpa using hreport))
        · exact .quiet store

section Gate

variable {sha256Text : String → String} {call : GateCall} {s s' : PromptCachePolicyService}

/-- A request that cannot be read leaves the service as it was. -/
theorem gate_of_error {e : BuildError} (h : readRequest call.request = .error e) :
    (gate sha256Text call s).2 = s := by
  unfold gate
  rw [h]
  cases e <;> rfl

/-- A request that is read is evaluated. -/
theorem gate_of_ok {fields : PromptCacheRequestFields} {body : Json}
    (h : readRequest call.request = .ok (fields, body)) :
    (gate sha256Text call s).2 =
      (s.evaluate sha256Text (call.evaluateCall fields body) call.ts).2 := by
  unfold gate
  rw [h]
  simp only
  cases s.evaluate sha256Text (call.evaluateCall fields body) call.ts with
  | mk result s' =>
    cases result with
    | none => rfl
    | some result =>
      cases result with
      | error e => rfl
      | ok decision =>
        simp only
        split_ifs <;> rfl

theorem does_of_step {step : ServiceCall} (h : serviceStep sha256Text s step = some s') :
    Does s (reported sha256Text (s, step)) s' := by
  cases step with
  | setMode switch =>
    cases h
    unfold setMode
    cases POLICY_MODES.lookup switch.next with
    | none => exact .quiet s.store
    | some next => exact .switched switch next
  | execute call =>
    cases h
    cases hread : readRequest call.request with
    | error e =>
      rw [gate_of_error hread]
      simp only [reported, hread]
      exact .quiet s.store
    | ok p =>
      rw [gate_of_ok hread]
      simp only [reported, hread]
      exact does_evaluate sha256Text _ _ s

end Gate

/-! ### The log -/

/-- The decision an event carries. -/
def PolicyEventKind.decision? : PolicyEventKind → Option DecisionEvent
  | .decision d => some d
  | _ => none

/-- The receipt an event carries. -/
def PolicyEventKind.receipt? : PolicyEventKind → Option PolicyModeSwitchReceipt
  | .mode_switched r => some r
  | _ => none

/-- The decisions of a log. -/
def decisionsOf (log : List PromptCachePolicyEvent) : List DecisionEvent :=
  log.filterMap fun e ↦ e.event.decision?

/-- The receipts of a log. -/
def receiptsOf (log : List PromptCachePolicyEvent) : List PolicyModeSwitchReceipt :=
  log.filterMap fun e ↦ e.event.receipt?

/-- The mode a log leaves in force. -/
def modeAfter (bootMode : PolicyMode) (log : List PromptCachePolicyEvent) : PolicyMode :=
  inForce PolicyModeSwitchReceipt.toMode bootMode (receiptsOf log)

/-- The verdict that follows from the codes of an event, each with its severity. -/
def verdictOfCodes (codes : List (FindingCode × Severity × FindingLayer)) : PolicyVerdict :=
  if codes.any fun c ↦ c.2.1 = .refusal || c.2.1 = .error then .VIOLATION
  else if codes.any (·.2.1 = .undetermined) then .UNDETERMINED
  else .CONFORMANT

/-- An event says what those before it say: the mode in force; of a decision, the verdict that
follows from its codes and the action that follows from it in that mode; and of a switch, how to
take it back. -/
structure Stamped (bootMode : PolicyMode) (digest : String) (before : List PromptCachePolicyEvent)
    (e : PromptCachePolicyEvent) : Prop where
  digest_eq : e.contract_digest = digest
  mode_eq : e.mode = modeAfter bootMode (before ++ [e])
  decision : ∀ d, e.event.decision? = some d → ∃ mode, e.mode.active? = some mode ∧
    d.action = actionOf mode d.verdict ∧ d.verdict = verdictOfCodes d.codes
  receipt : ∀ r, e.event.receipt? = some r → r.fromMode = modeAfter bootMode before ∧
    r.revert = r.fromMode ∧ (r.changed = true ↔ r.fromMode ≠ r.toMode)

/-- The service as its log tells it. -/
structure Logged (contract : PromptLayoutContract) (bootMode : PolicyMode)
    (s : PromptCachePolicyService) : Prop where
  contract_eq : s.contract = contract
  events_eq : s.events = s.sunk.rtake EVENT_RING
  receipts_eq : s.receipts = (receiptsOf s.sunk).rtake RECEIPT_RING
  handed : Handed PolicyModeSwitchReceipt.fromMode PolicyModeSwitchReceipt.toMode bootMode
    (receiptsOf s.sunk) s.mode
  traced : Traced (Stamped bootMode contract.digest) s.sunk

section Log

variable {contract : PromptLayoutContract} {limits : StoreOptions} {store : PolicyStore}
  {bootMode : PolicyMode} {ts : ℤ} {s s' : PromptCachePolicyService}
  {report : Option PromptCachePolicyDecision}

theorem Logged.mode_eq (h : Logged contract bootMode s) : s.mode = modeAfter bootMode s.sunk :=
  h.handed.inForce_eq.symm

theorem receiptsOf_concat (log : List PromptCachePolicyEvent) (e : PromptCachePolicyEvent) :
    receiptsOf (log ++ [e]) = receiptsOf log ++ e.event.receipt?.toList := by
  unfold receiptsOf
  rw [List.filterMap_append]
  cases h : e.event.receipt? <;> simp [h]

theorem logged_boot : Logged contract bootMode (boot contract limits store bootMode ts) where
  contract_eq := rfl
  events_eq := by
    have hring := pushRing_rtake EVENT_RING ([] : List PromptCachePolicyEvent)
      ⟨.contract_loaded, ts, bootMode, contract.digest⟩
    rw [List.rtake_nil] at hring
    exact hring
  receipts_eq := (List.rtake_nil RECEIPT_RING).symm
  handed := rfl
  traced := Traced.nil.snoc ⟨rfl, rfl, fun _ h ↦ (by cases h), fun _ h ↦ (by cases h)⟩

/-- The ring of events after one more. -/
theorem Logged.events_emit (h : Logged contract bootMode s) (e : PromptCachePolicyEvent) :
    pushRing EVENT_RING s.events e = (s.sunk ++ [e]).rtake EVENT_RING := by
  rw [h.events_eq, pushRing_rtake]

/-- The verdict of a decision is told by the codes of its event. -/
theorem verdict_eq_verdictOfCodes {decision : PromptCachePolicyDecision}
    (h : decision.verdict = verdictOf decision.findings) :
    decision.toEvent.verdict = verdictOfCodes decision.toEvent.codes := by
  refine h.trans ?_
  unfold verdictOf verdictOfCodes PromptCachePolicyDecision.toEvent
  simp only [List.any_map, Function.comp_def]

theorem Logged.decided {mode : ActiveMode} {decision : PromptCachePolicyDecision}
    (h : Logged contract bootMode s) (hmode : s.mode.active? = some mode)
    (haction : decision.action = actionOf mode decision.verdict)
    (hverdict : decision.verdict = verdictOf decision.findings) :
    Logged contract bootMode (emit { s with store } (.decision decision.toEvent) ts) := by
  obtain ⟨e, he⟩ : ∃ e : PromptCachePolicyEvent,
      e = ⟨.decision decision.toEvent, ts, s.mode, s.contract.digest⟩ := ⟨_, rfl⟩
  have hreceipts : receiptsOf (s.sunk ++ [e]) = receiptsOf s.sunk := by
    rw [receiptsOf_concat, he]
    exact List.append_nil _
  have hstamped : Stamped bootMode contract.digest s.sunk e := by
    refine ⟨?_, ?_, fun d hd ↦ ?_, fun r hr ↦ ?_⟩
    · rw [he, h.contract_eq]
    · rw [modeAfter, hreceipts, he]
      exact h.mode_eq
    · rw [he] at hd ⊢
      cases hd
      exact ⟨mode, hmode, haction, verdict_eq_verdictOfCodes hverdict⟩
    · rw [he] at hr
      cases hr
  unfold emit
  simp only
  rw [← he]
  exact ⟨h.contract_eq, h.events_emit e, h.receipts_eq.trans (by rw [hreceipts]),
    hreceipts ▸ h.handed, h.traced.snoc hstamped⟩

theorem Logged.switched (h : Logged contract bootMode s) (switch : Switch) (next : PolicyMode) :
    Logged contract bootMode (emit { s with
      mode := next
      receipts := pushRing RECEIPT_RING s.receipts (receiptOf switch next s) }
        (.mode_switched (receiptOf switch next s)) switch.ts) := by
  obtain ⟨e, he⟩ : ∃ e : PromptCachePolicyEvent,
      e = ⟨.mode_switched (receiptOf switch next s), switch.ts, next, s.contract.digest⟩ := ⟨_, rfl⟩
  have hreceipts : receiptsOf (s.sunk ++ [e]) = receiptsOf s.sunk ++ [receiptOf switch next s] := by
    rw [receiptsOf_concat, he]
    rfl
  have hstamped : Stamped bootMode contract.digest s.sunk e := by
    refine ⟨?_, ?_, fun d hd ↦ ?_, fun r hr ↦ ?_⟩
    · rw [he, h.contract_eq]
    · rw [modeAfter, hreceipts, inForce, List.getLast?_concat, he]
      rfl
    · rw [he] at hd
      cases hd
    · rw [he] at hr
      cases hr
      exact ⟨h.mode_eq, rfl, by simp [receiptOf]⟩
  unfold emit
  simp only
  rw [← he]
  refine ⟨h.contract_eq, h.events_emit e, ?_, ?_, h.traced.snoc hstamped⟩
  · rw [hreceipts, h.receipts_eq, pushRing_rtake]
  · rw [hreceipts]
    exact h.handed.snoc rfl

theorem Logged.does (h : Logged contract bootMode s) (hs : Does s report s') :
    Logged contract bootMode s' := by
  cases hs with
  | quiet store => exact ⟨h.contract_eq, h.events_eq, h.receipts_eq, h.handed, h.traced⟩
  | decided store ts hmode haction hverdict => exact h.decided hmode haction hverdict
  | switched switch next => exact h.switched switch next

theorem decisionsOf_concat (log : List PromptCachePolicyEvent) (e : PromptCachePolicyEvent) :
    decisionsOf (log ++ [e]) = decisionsOf log ++ e.event.decision?.toList := by
  unfold decisionsOf
  rw [List.filterMap_append]
  cases h : e.event.decision? <;> simp [h]

/-- A call adds the decision it reports to the log. -/
theorem decisionsOf_does (hs : Does s report s') :
    decisionsOf s'.sunk =
      decisionsOf s.sunk ++ (report.map PromptCachePolicyDecision.toEvent).toList := by
  cases hs with
  | quiet store => exact (List.append_nil _).symm
  | decided store ts hmode haction hverdict => exact decisionsOf_concat _ _
  | switched switch next => exact decisionsOf_concat _ _

/-- **The log of the policy**, after any run of requests and switches: it hands the mode over from
the one at boot to the one in force, its events say what those before them say, its decisions are
those the calls were answered, and the service shows the end of it. -/
theorem log_tells {sha256Text : String → String}
    {h : List (PromptCachePolicyService × ServiceCall)}
    (hr : Run (serviceStep sha256Text) (boot contract limits store bootMode ts) h s) :
    Logged contract bootMode s ∧
      decisionsOf s.sunk = (h.filterMap (reported sha256Text)).map
        PromptCachePolicyDecision.toEvent ∧
      ∀ limit : ℤ, 1 ≤ limit → limit ≤ EVENT_RING →
        s.recentEvents limit = s.sunk.rtake limit.toNat := by
  have hlogged : Logged contract bootMode s :=
    hr.invariant logged_boot fun hs hstep ↦ hs.does (does_of_step hstep)
  refine ⟨hlogged, ?_, fun limit hpos hle ↦ ?_⟩
  · clear hlogged
    induction hr with
    | nil => rfl
    | @snoc h s s' e _ hs ih =>
      rw [decisionsOf_does (does_of_step hs), ih, List.filterMap_append, List.map_append]
      cases hreport : reported sha256Text (s, e) <;> simp [hreport]
  · have hn : max 0 (min limit EVENT_RING) = limit := by omega
    simp only [recentEvents, hn]
    rw [if_neg (by omega), hlogged.events_eq]
    exact rtake_rtake (by omega) _

end Log

/-- A request with a key in the first block of its system. -/
def keyCall : GateCall where
  request :=
    { prompt := .inl ""
      extra := some [("messages_api", .obj [
        ("system", .arr [cachedBlock "sk-aaaaaaaaaaaaaaaa"]),
        ("messages", .arr [.obj [("role", .str "user"), ("content", .str "d")]])])] }
  tenantId := some "t"

/-- The same request before and after a switch. -/
theorem log_tells_switch : ∃ h s,
    Run (serviceStep id) (boot vendoredContract {} {} .observe 0) h s ∧
      (decisionsOf s.sunk).map DecisionEvent.action = [.mark, .refuse] := by
  obtain ⟨h, s, hr, hcheck⟩ := Run.exists_of_check (serviceStep id)
    (boot vendoredContract {} {} .observe 0)
    [.execute keyCall, .setMode ⟨"enforce", "runbook", "canary passed", "r1", 60⟩, .execute keyCall]
    (fun h _ ↦ decide ((h.filterMap (reported id)).map
      PromptCachePolicyDecision.action = [.mark, .refuse])) (by decide +kernel)
  refine ⟨h, s, hr, ?_⟩
  rw [(log_tells hr).2.1, List.map_map]
  exact of_decide_eq_true hcheck

end ModelConnector.PromptCache
