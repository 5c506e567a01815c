import ModelConnector.Speech.SttConnectors

/-!
# Failures of speech providers

What the code says of a failing provider: the attempt throws an error of the connector, so that the
router can go on; its slot is given back; and the circuit breaker is told once, or not at all of a
request that the client got wrong. `contained_iff` says exactly which answers of a provider are
handled so, for the single call of `BaseSttConnector` and for the three steps of
`AssemblyAiSttConnector`.
-/

namespace ModelConnector.Speech

open Ecma Policy

/-! ### What containment means -/

/-- A 4xx other than 408 and 429. -/
def Thrown.IsClientFailure : Thrown → Prop
  | .provider error => ∃ status, error.upstreamStatus = some status ∧
      400 ≤ status ∧ status < 500 ∧ status ≠ 408 ∧ status ≠ 429
  | .raised .. => False

/-- An error of the connector, of which the circuit breaker was told. -/
def Classified (thrown : Thrown) (recorded : List BreakerOutcome) : Prop :=
  (∃ error, thrown = .provider error) ∧
    (recorded.length = 1 ∨ thrown.IsClientFailure ∧ recorded = [])

/-- What the router sees of an attempt; how it reads a result and a message does not matter. -/
def answerOf (typed : SpeechResult → SttConnectorResult) (spelled : Text → String) :
    Except Thrown SpeechResult → SttAnswer
  | .ok result => .returned (typed result)
  | .error (.provider error) => .providerError error.type.name (spelled error.message)
  | .error (.raised _ message) => .threw (spelled message)

/-- With more than one provider, the router goes on to the other candidates after a failure. -/
def RouterGoesOn (a : SpeechAttempt) : Prop :=
  ∀ (typed : SpeechResult → SttConnectorResult) (spelled : Text → String)
    (request : SttConnectorRequest) (apiKeyId : String) (policy : Option ApiKeyPolicy)
    (attempts : ℕ → SttAttemptWorld) (index : ℕ) (provider : String)
    (rest tried denied : List String) (lastError : Option SttProviderError) (s : SttState),
    isCandidatePolicyAllowed policy provider request.model (attempts index).tier = .ok true →
    (attempts index).answer = answerOf typed spelled a.result → (∀ result, a.result ≠ .ok result) →
    ∃ error s', tryCandidates request apiKeyId policy true attempts index (provider :: rest) tried
        denied lastError s =
      tryCandidates request apiKeyId policy true attempts (index + 1) rest (tried ++ [provider])
        denied (some error) s'

/-- The failures of the provider are contained. -/
structure Contained (a : SpeechAttempt) : Prop where
  /-- It returns, or throws an error of the connector. -/
  ends : ∀ thrown, a.result = .error thrown → ∃ error, thrown = .provider error
  /-- A slot is taken for a provider that is called, and is given back once. -/
  slot : a.acquired = (if a.dispatched then 1 else 0) ∧ a.released = a.acquired
  recorded : a.recorded.length = (if a.dispatched then 1 else 0) ∨
    ∃ thrown, a.result = .error thrown ∧ thrown.IsClientFailure ∧ a.recorded = []
  goesOn : RouterGoesOn a

/-! ### What is handled -/

/-- The value of a body that can be read. -/
def BodyRead.json? : BodyRead → Option Value
  | .text body => parse body
  | .brokeOff .. => none

/-- The value of an answer that is ok. -/
def Fetched.json? : Fetched → Option Value
  | .answered status body => if isOk status then body.json? else none
  | .rejected .. => none

/-- Whether `?? ''` and `trim` make a text of it. -/
def Trims : Option Value → Prop
  | none | some .null | some (.str _) => True
  | some _ => False

/-- What can be converted if it is there. -/
def Priced (duration : Option Value) : Prop :=
  ∀ v, duration = some v → v.Converts

/-- A subclass of `BaseSttConnector` handles the answer: it is no failure below 400, and a duration
that has a price can be converted. -/
def BaseSttConnector.Handles (engine : Engine) (c : BaseSttConnector) (defaultModel : Text)
    (request : SpeechRequest) (answer : Fetched) : Prop :=
  (∀ status body, answer = .answered status (.text body) → isOk status = false → 400 ≤ status) ∧
    ∀ json parsed, answer.json? = some json →
      (c.parseSttResponse engine defaultModel request json).result = .ok parsed →
      c ≠ .localWhisper → Priced parsed.audioDurationSeconds

/-- An answer to a step is handled: one that is ok can be read, and is not `null`; another can be
read, and is no failure below 400. -/
def Fetched.Handled : Fetched → Prop
  | .rejected .. => True
  | .answered status body =>
    if isOk status then ∃ json, body.json? = some json ∧ json ≠ .null
    else (∃ text, body = .text text) ∧ 400 ≤ status

/-- The property that a step goes on with. -/
def Fetched.Delivers (name : String) (answer : Fetched) (v : Value) : Prop :=
  ∃ json, answer.json? = some json ∧ optional name (some json) = some v ∧ truthy (some v) = true

/-- The answer has a status. -/
def Fetched.HasStatus (status : String) (answer : Fetched) (json : Value) : Prop :=
  answer.json? = some json ∧ hasStatus status (optional "status" (some json)) = true

/-- The transcript is neither completed nor in error. -/
def Fetched.IsPending (answer : Fetched) : Prop :=
  ∃ json, answer.json? = some json ∧ json ≠ .null ∧
    hasStatus "completed" (optional "status" (some json)) = false ∧
    hasStatus "error" (optional "status" (some json)) = false

/-- A round is polled when polling stands at a round and a time. -/
inductive Polled (config : AssemblyAiConfig) (polls : ℕ → PollWorld) (deadline : ℕ) :
    ℕ → ℕ → ℕ → Prop
  | here {round now : ℕ} : now < deadline → Polled config polls deadline round now round
  | later {round now r : ℕ} : now < deadline → (polls round).answer.IsPending →
      Polled config polls deadline (round + 1) (afterPoll config deadline now (polls round)) r →
      Polled config polls deadline round now r

/-- The answer to a poll for a transcript is handled: what has to be put into a text or trimmed can
be, and so can a duration. -/
structure PollHandled (id : Value) (answer : Fetched) : Prop where
  id_converts : id.Converts
  handled : answer.Handled
  error_converts : ∀ json, answer.HasStatus "error" json →
    ∀ v, optional "error" (some json) = some v → v.Converts
  text_trims : ∀ json, answer.HasStatus "completed" json → Trims (optional "text" (some json))
  priced : ∀ json, answer.HasStatus "completed" json →
    Priced (optional "audio_duration" (some json))

/-- `AssemblyAiSttConnector` handles the answers that it gets. -/
def AssemblyAiWorld.Handled (config : AssemblyAiConfig) (request : SpeechRequest)
    (w : AssemblyAiWorld) : Prop :=
  w.upload.Handled ∧ ∀ url, w.upload.Delivers "upload_url" url →
    w.submit.Handled ∧ ∀ id, w.submit.Delivers "id" id →
      ∀ r, Polled config w.polls (w.deadline config request) 0 w.pollFrom r →
        PollHandled id (w.polls r).answer

/-! ### The router -/

/-- The router goes on after an error of the connector. -/
theorem routerGoesOn_of_ends {a : SpeechAttempt}
    (h : ∀ thrown, a.result = .error thrown → ∃ error, thrown = .provider error) :
    RouterGoesOn a := by
  intro typed spelled request apiKeyId policy attempts index provider rest tried denied lastError s
    hallowed hanswer hfailed
  cases hresult : a.result with
  | ok result => exact absurd hresult (hfailed result)
  | error thrown =>
    obtain ⟨error, rfl⟩ := h thrown hresult
    rw [hresult] at hanswer
    refine ⟨⟨provider, error.type.name, spelled error.message⟩, ?_⟩
    rw [tryCandidates, hallowed]
    simp only [attemptProvider, hanswer, answerOf]
    exact ⟨_, rfl⟩

/-- The slot is given back by the `finally` block, whatever the attempt comes to. -/
theorem contained_withSlot_iff {message : Text} {admission : SttAdmission}
    {body : Attempt SpeechResult} :
    Contained (withSlot message admission body) ↔
      (admission = .admitted → body.Ends Classified fun _ recorded ↦ recorded.length = 1) := by
  cases admission with
  | circuitOpen | queueTimeout =>
    refine ⟨fun _ h ↦ (by cases h), fun _ ↦ ⟨?_, ⟨rfl, rfl⟩, .inl rfl, routerGoesOn_of_ends ?_⟩⟩ <;>
    exact fun thrown h ↦ ⟨_, (Except.error.inj h).symm⟩
  | admitted =>
    constructor
    · rintro h -
      refine ⟨fun thrown hthrown ↦ ⟨h.ends thrown hthrown, ?_⟩, fun v hv ↦ ?_⟩
      · refine h.recorded.imp_right ?_
        rintro ⟨thrown', hthrown', hclient, hrecorded⟩
        obtain rfl := Except.error.inj (hthrown.symm.trans hthrown')
        exact ⟨hclient, hrecorded⟩
      · refine h.recorded.resolve_right ?_
        rintro ⟨thrown, hthrown, -, -⟩
        exact absurd (hv.symm.trans hthrown) (by simp)
    · intro h
      obtain ⟨hfails, hreturns⟩ := h rfl
      have hends : ∀ thrown, (withSlot message .admitted body).result = .error thrown →
          ∃ error, thrown = .provider error := fun thrown hthrown ↦ (hfails thrown hthrown).1
      refine ⟨hends, ⟨rfl, rfl⟩, ?_, routerGoesOn_of_ends hends⟩
      cases hresult : body.result with
      | ok v => exact .inl (hreturns v hresult)
      | error thrown =>
        exact (hfails thrown hresult).2.imp_right fun ⟨hclient, hrecorded⟩ ↦
          ⟨thrown, hresult, hclient, hrecorded⟩

/-! ### Steps -/

variable {engine : Engine} {config : AssemblyAiConfig} {request : SpeechRequest} {v id : Value}
  {body : BodyRead} {answer : Fetched} {name : String} {polls : ℕ → PollWorld}
  {deadline round now : ℕ} {json : Value}

theorem classified_of_length {error : ConnectorError} {recorded : List BreakerOutcome}
    (h : recorded.length = 1) : Classified (.provider error) recorded :=
  ⟨⟨error, rfl⟩, .inl h⟩

theorem not_classified_raised {isTimeout : Bool} {message : Text} {recorded : List BreakerOutcome} :
    ¬Classified (.raised isTimeout message) recorded := by
  rintro ⟨⟨error, h⟩, -⟩
  cases h

theorem fails_pure {α : Type} (v : α) : (pure v : Attempt α).Fails Classified :=
  fun _ h ↦ (by cases h)

theorem not_fails_raised {α : Type} {isTimeout : Bool} {message : Text} :
    ¬(Recorded.raise (.raised isTimeout message) : Attempt α).Fails Classified :=
  fun h ↦ not_classified_raised (h _ rfl)

theorem fails_failWith {α : Type} (type : SttErrorType) (message : Text) :
    (failWith type message : Attempt α).Fails Classified := by
  intro thrown h
  obtain rfl := Except.error.inj h
  exact classified_of_length rfl

theorem silent_pure {α : Type} (v : α) : (pure v : Attempt α).Silent :=
  fun _ _ ↦ rfl

theorem silent_raise {α : Type} (thrown : Thrown) : (Recorded.raise thrown : Attempt α).Silent :=
  fun _ h ↦ (by cases h)

theorem silent_failWith {α : Type} (type : SttErrorType) (message : Text) :
    (failWith type message : Attempt α).Silent :=
  fun _ h ↦ (by cases h)

theorem property?_of_ne_null (h : v ≠ .null) :
    v.property? name = some (optional name (some v)) := by
  cases v with
  | null => exact absurd rfl h
  | bool | num | str | arr => rfl
  | obj members =>
    simp [Value.property?, Ecma.optional]

theorem readProperty_of_ne_null (h : v ≠ .null) :
    readProperty engine name v = pure (optional name (some v)) := by
  rw [readProperty, property?_of_ne_null h]

theorem silent_readProperty : (readProperty engine name v).Silent := by
  unfold readProperty
  split
  · exact silent_pure _
  · exact silent_raise _

theorem fails_readProperty_iff : (readProperty engine name v).Fails Classified ↔ v ≠ .null := by
  refine ⟨?_, fun h ↦ readProperty_of_ne_null h ▸ fails_pure _⟩
  rintro h rfl
  exact not_fails_raised h

theorem silent_interpolate : (interpolate engine v).Silent := by
  unfold interpolate
  split
  · exact silent_pure _
  · exact silent_raise _

theorem fails_interpolate_iff : (interpolate engine v).Fails Classified ↔ v.Converts := by
  unfold interpolate Value.Converts
  cases v.string? with
  | some t => simp [fails_pure]
  | none => simpa [raise] using not_fails_raised

theorem fails_interpolate_bind_iff {α : Type} {c : Attempt α} :
    (interpolate engine v >>= fun _ ↦ c).Fails Classified ↔ v.Converts ∧ c.Fails Classified := by
  rw [Recorded.fails_bind_iff silent_interpolate, fails_interpolate_iff]
  refine and_congr_right fun hv ↦ ⟨fun h ↦ ?_, fun h _ _ ↦ h⟩
  obtain ⟨t, ht⟩ := Option.isSome_iff_exists.1 hv
  exact h t (by rw [interpolate, ht]; rfl)

theorem interpolate_bind_eq_ok_iff {α : Type} {c : Attempt α} {w : α} :
    (interpolate engine v >>= fun _ ↦ c).result = .ok w ↔ v.Converts ∧ c.result = .ok w := by
  rw [silent_interpolate.bind_eq_ok_iff, exists_and_right]
  refine and_congr_left fun _ ↦ ?_
  unfold interpolate Value.Converts
  cases v.string? with
  | some t => exact iff_of_true ⟨t, rfl⟩ rfl
  | none => exact iff_of_false (fun ⟨_, h⟩ ↦ (by cases h)) (by simp)

theorem silent_readText : (readText body).Silent := by
  cases body with
  | text body => exact silent_pure _
  | brokeOff isTimeout message => exact silent_raise _

theorem silent_readJson : (readJson engine body).Silent := by
  refine silent_readText.bind fun text _ ↦ ?_
  cases parse text with
  | some json => exact silent_pure _
  | none => exact silent_raise _

theorem readJson_eq_ok_iff : (readJson engine body).result = .ok json ↔ body.json? = some json := by
  cases body with
  | brokeOff isTimeout message =>
    exact ⟨fun h ↦ (by cases h), fun h ↦ (by cases h)⟩
  | text body =>
    rw [readJson, silent_readText.bind_of_ok rfl, BodyRead.json?]
    cases parse body with
    | some json' => simp [Recorded.pure_def]
    | none => simp [raise, Recorded.raise]

theorem fails_readJson_iff :
    (readJson engine body).Fails Classified ↔ ∃ json, body.json? = some json := by
  cases body with
  | brokeOff isTimeout message =>
    refine ⟨fun h ↦ absurd (h _ rfl) not_classified_raised, fun h ↦ ?_⟩
    obtain ⟨json, hjson⟩ := h
    cases hjson
  | text body =>
    rw [readJson, silent_readText.bind_of_ok rfl, BodyRead.json?]
    cases parse body with
    | some json' => simp [fails_pure]
    | none => simpa [raise] using not_fails_raised

/-! ### Answers -/

theorem refuse_text {α : Type} (provider : String) (code : Text → Option Value) (status : ℕ)
    (text : Text) : (refuse provider code status (.text text) : Attempt α) =
      { result := .error (.provider (refusal provider code status text))
        log := if shouldCountTowardCircuitBreaker status then [.failure (classifyHttpError status)]
          else [] } := by
  rw [refuse, silent_readText.bind_of_ok rfl]
  cases shouldCountTowardCircuitBreaker status with
  | true => rfl
  | false => rfl

theorem refuse_ne_ok {α : Type} {provider : String} {code : Text → Option Value} {status : ℕ}
    (v : α) : (refuse provider code status body : Attempt α).result ≠ .ok v := by
  cases body with
  | text text => simp [refuse_text]
  | brokeOff isTimeout message => exact fun h ↦ (by cases h)

/-- A refusal is classified when its body can be read and its status is one of an error. -/
theorem fails_refuse_iff {α : Type} {provider : String} {code : Text → Option Value} {status : ℕ} :
    (refuse provider code status body : Attempt α).Fails Classified ↔
      (∃ text, body = .text text) ∧ 400 ≤ status := by
  cases body with
  | brokeOff isTimeout message =>
    exact ⟨fun h ↦ absurd (h _ rfl) not_classified_raised, fun ⟨⟨_, h⟩, _⟩ ↦ (by cases h)⟩
  | text text =>
    rw [refuse_text]
    have hcounts : shouldCountTowardCircuitBreaker status = true ↔
        500 ≤ status ∨ status = 429 ∨ status = 408 := by
      simp [shouldCountTowardCircuitBreaker, or_assoc]
    cases hcount : shouldCountTowardCircuitBreaker status with
    | true =>
      have := hcounts.1 hcount
      refine ⟨fun _ ↦ ⟨⟨text, rfl⟩, by omega⟩, fun _ thrown h ↦ ?_⟩
      obtain rfl := Except.error.inj h
      exact classified_of_length rfl
    | false =>
      have := hcounts.not.1 (by simp [hcount])
      constructor
      · intro h
        obtain ⟨-, hrecorded | ⟨⟨status', hstatus', hclient⟩, -⟩⟩ := h _ rfl
        · cases hrecorded
        · obtain rfl := Option.some.inj hstatus'
          exact ⟨⟨text, rfl⟩, hclient.1⟩
      · rintro ⟨-, hclient⟩ thrown h
        obtain rfl := Except.error.inj h
        exact ⟨⟨_, rfl⟩, .inr ⟨⟨status, rfl, hclient, by omega, by omega, by omega⟩, rfl⟩⟩

theorem silent_fetchWithDeadline : (fetchWithDeadline answer).Silent := by
  cases answer with
  | rejected isTimeout message => exact silent_failWith _ _
  | answered status body =>
    rw [fetchWithDeadline]
    split
    · exact fun v h ↦ absurd h (refuse_ne_ok v)
    · exact silent_pure _

theorem silent_fetchJson : (fetchJson engine answer).Silent :=
  silent_fetchWithDeadline.bind fun _ _ ↦ silent_readJson

theorem fetchJson_eq_ok_iff :
    (fetchJson engine answer).result = .ok json ↔ answer.json? = some json := by
  rw [fetchJson, silent_fetchWithDeadline.bind_eq_ok_iff]
  cases answer with
  | rejected isTimeout message =>
    exact ⟨fun ⟨_, h, _⟩ ↦ (by cases h), fun h ↦ (by cases h)⟩
  | answered status body =>
    rw [Fetched.json?, fetchWithDeadline]
    cases isOk status with
    | true => simp [Recorded.pure_def, readJson_eq_ok_iff]
    | false => simp [refuse_ne_ok]

variable (engine) in
/-- An answer is handled when it is read, and a property of its value can be. -/
theorem handled_iff : answer.Handled ↔
    (fetchJson engine answer).Fails Classified ∧ answer.json? ≠ some .null := by
  rw [fetchJson, Recorded.fails_bind_iff silent_fetchWithDeadline]
  cases answer with
  | rejected isTimeout message =>
    simp only [Fetched.Handled, Fetched.json?, ne_eq, reduceCtorEq, not_false_eq_true, and_true,
      true_iff]
    exact ⟨fails_failWith _ _, fun _ h ↦ (by cases h)⟩
  | answered status body =>
    rw [Fetched.Handled, Fetched.json?, fetchWithDeadline]
    cases isOk status with
    | true =>
      have hfetch : ∀ res, (pure body : Attempt BodyRead).result = .ok res ↔ res = body :=
        fun res ↦ ⟨fun h ↦ (Except.ok.inj h).symm, fun h ↦ h ▸ rfl⟩
      simp only [Bool.not_true, Bool.false_eq_true, if_true, if_false, hfetch, forall_eq,
        fails_pure, true_and, fails_readJson_iff]
      constructor
      · rintro ⟨json, hjson, hnull⟩
        exact ⟨⟨json, hjson⟩, fun h ↦ hnull (Option.some.inj (hjson.symm.trans h))⟩
      · rintro ⟨⟨json, hjson⟩, hnull⟩
        exact ⟨json, hjson, fun h ↦ hnull (h ▸ hjson)⟩
    | false => simp [fails_refuse_iff, refuse_ne_ok]

section Property

variable {α : Type} {f : Value → Option Value → Attempt α}

theorem silent_fetch_bind (hf : ∀ json v, (f json v).Silent) :
    (do let json ← fetchJson engine answer
        let v ← readProperty engine name json
        f json v).Silent :=
  silent_fetchJson.bind fun json _ ↦ silent_readProperty.bind fun v _ ↦ hf json v

/-- An answer is read and one of its properties, and then something is made of both. -/
theorem fails_fetch_bind_iff :
    (do let json ← fetchJson engine answer
        let v ← readProperty engine name json
        f json v).Fails Classified ↔ answer.Handled ∧ ∀ json, answer.json? = some json →
          json ≠ .null → (f json (optional name (some json))).Fails Classified := by
  simp only [Recorded.fails_bind_iff silent_fetchJson, Recorded.fails_bind_iff silent_readProperty,
    fetchJson_eq_ok_iff, fails_readProperty_iff, handled_iff engine, and_assoc]
  refine and_congr_right fun _ ↦ ⟨fun h ↦ ⟨fun hnull ↦ (h _ hnull).1 rfl, fun json hjson hne ↦ ?_⟩,
    fun h json hjson ↦ ?_⟩
  · exact (h json hjson).2 _ (by rw [readProperty_of_ne_null hne]; rfl)
  · have hne : json ≠ .null := fun hnull ↦ h.1 (hnull ▸ hjson)
    refine ⟨hne, fun v hv ↦ ?_⟩
    rw [readProperty_of_ne_null hne] at hv
    obtain rfl := Except.ok.inj hv
    exact h.2 json hjson hne

theorem fetch_bind_eq_ok_iff {w : α} :
    (do let json ← fetchJson engine answer
        let v ← readProperty engine name json
        f json v).result = .ok w ↔ ∃ json, answer.json? = some json ∧ json ≠ .null ∧
          (f json (optional name (some json))).result = .ok w := by
  rw [silent_fetchJson.bind_eq_ok_iff]
  refine exists_congr fun json ↦ and_congr fetchJson_eq_ok_iff ?_
  rw [silent_readProperty.bind_eq_ok_iff]
  constructor
  · rintro ⟨v, hv, hw⟩
    have hne : json ≠ .null := by
      rintro rfl
      cases hv
    rw [readProperty_of_ne_null hne] at hv
    obtain rfl := Except.ok.inj hv
    exact ⟨hne, hw⟩
  · rintro ⟨hne, hw⟩
    exact ⟨_, by rw [readProperty_of_ne_null hne]; rfl, hw⟩

end Property

variable {missing : Text}

theorem silent_fetchProperty : (fetchProperty engine name missing answer).Silent := by
  refine silent_fetch_bind fun json v ↦ ?_
  split
  · exact silent_pure _
  · exact silent_failWith _ _

theorem fails_fetchProperty_iff :
    (fetchProperty engine name missing answer).Fails Classified ↔ answer.Handled := by
  refine fails_fetch_bind_iff.trans (and_iff_left fun json _ _ ↦ ?_)
  split
  · exact fails_pure _
  · exact fails_failWith _ _

theorem fetchProperty_eq_ok_iff :
    (fetchProperty engine name missing answer).result = .ok v ↔ answer.Delivers name v := by
  refine fetch_bind_eq_ok_iff.trans (exists_congr fun json ↦ and_congr_right fun hjson ↦ ?_)
  constructor
  · rintro ⟨-, hv⟩
    split at hv
    · rename_i w hw
      obtain rfl := Except.ok.inj hv
      obtain ⟨hsome, htruthy⟩ := Option.filter_eq_some_iff.1 hw
      exact ⟨hsome, htruthy⟩
    · cases hv
  · rintro ⟨hsome, htruthy⟩
    refine ⟨?_, ?_⟩
    · rintro rfl
      cases hsome
    · have hfilter : (optional name (some json)).filter (fun v ↦ truthy (some v)) = some v := by
        rw [hsome, Option.filter_some, if_pos htruthy]
      rw [hfilter]
      rfl

/-! ### Polling -/

theorem transcriptError_ne_ok : (transcriptError engine json).result ≠ .ok v := by
  intro h
  rw [transcriptError, Recorded.bind_of_ok rfl] at h
  obtain ⟨_, _, h⟩ := silent_interpolate.bind_eq_ok_iff.1 h
  cases h

theorem shownError_converts_iff : (shownError json).Converts ↔
    ∀ v, optional "error" (some json) = some v → v.Converts := by
  unfold shownError
  cases optional "error" (some json) with
  | none => exact ⟨fun _ _ h ↦ (by cases h), fun _ ↦ rfl⟩
  | some v =>
    cases v with
    | null => exact ⟨fun _ v h ↦ Option.some.inj h ▸ rfl, fun _ ↦ rfl⟩
    | bool | num | str | arr | obj => simp

/-- The failure is recorded before its text is made. -/
theorem fails_transcriptError_iff : (transcriptError engine json).Fails Classified ↔
    ∀ v, optional "error" (some json) = some v → v.Converts := by
  rw [← shownError_converts_iff, transcriptError, Recorded.bind_of_ok rfl]
  unfold interpolate Value.Converts
  cases (shownError json).string? with
  | some text =>
    refine iff_of_true (fun thrown h ↦ ?_) rfl
    obtain rfl := Except.error.inj h
    exact classified_of_length rfl
  | none => exact iff_of_false (fun h ↦ not_classified_raised (h _ rfl)) (by simp)

theorem pollTranscript_of_lt (h : now < deadline) :
    pollTranscript engine config polls id deadline round now = (do
      let _ ← interpolate engine id
      let json ← fetchJson engine (polls round).answer
      let status ← readProperty engine "status" json
      if hasStatus "completed" status then pure json
      else if hasStatus "error" status then transcriptError engine json
      else
        pollTranscript engine config polls id deadline (round + 1)
          (afterPoll config deadline now (polls round))) := by
  rw [pollTranscript, if_pos h]

theorem pollTranscript_of_not_lt (h : ¬now < deadline) :
    pollTranscript engine config polls id deadline round now = failWith .timeout
      (ascii "AssemblyAI polling timeout after " ++ (digitsOf config.timeoutMs).map digitUnit ++
        ascii " ms") := by
  rw [pollTranscript, if_neg h]

/-- A step of polling, for the induction on the time that is left. -/
theorem polled_iff {r : ℕ} : Polled config polls deadline round now r ↔
    now < deadline ∧ (r = round ∨ (polls round).answer.IsPending ∧
      Polled config polls deadline (round + 1) (afterPoll config deadline now (polls round))
        r) := by
  constructor
  · rintro (h | ⟨h, hpending, hlater⟩)
    · exact ⟨h, .inl rfl⟩
    · exact ⟨h, .inr ⟨hpending, hlater⟩⟩
  · rintro ⟨h, rfl | ⟨hpending, hlater⟩⟩
    · exact .here h
    · exact .later h hpending hlater

theorem silent_pollTranscript :
    (pollTranscript engine config polls id deadline round now).Silent := by
  induction hleft : deadline - now using Nat.strongRecOn generalizing round now with
  | ind left ih =>
    by_cases h : now < deadline
    · have hlater := lt_afterPoll config deadline now (polls round)
      rw [pollTranscript_of_lt h]
      refine silent_interpolate.bind fun _ _ ↦ silent_fetch_bind fun json v ↦ ?_
      split
      · exact silent_pure _
      · split
        · exact fun v h ↦ absurd h transcriptError_ne_ok
        · exact ih (deadline - afterPoll config deadline now (polls round)) (by omega) rfl
    · rw [pollTranscript_of_not_lt h]
      exact silent_failWith _ _

theorem hasStatus_completed_of_error {v : Option Value} (h : hasStatus "error" v = true) :
    hasStatus "completed" v = false := by
  unfold hasStatus at h ⊢
  split
  · rename_i s
    have hs : s = ascii "error" := by simpa using h
    rw [hs]
    decide
  · rfl

/-- What polling asks of the answer it gets in a round. -/
def RoundHandled (id : Value) (answer : Fetched) : Prop :=
  id.Converts ∧ answer.Handled ∧ ∀ json, answer.HasStatus "error" json →
    ∀ v, optional "error" (some json) = some v → v.Converts

/-- Polling fails as it should when every answer that it gets is handled. -/
theorem fails_pollTranscript_iff :
    (pollTranscript engine config polls id deadline round now).Fails Classified ↔
      ∀ r, Polled config polls deadline round now r → RoundHandled id (polls r).answer := by
  induction hleft : deadline - now using Nat.strongRecOn generalizing round now with
  | ind left ih =>
    by_cases h : now < deadline
    · have hlater := lt_afterPoll config deadline now (polls round)
      have ih' := @ih (deadline - afterPoll config deadline now (polls round)) (by omega)
        (round + 1) _ rfl
      rw [pollTranscript_of_lt h, fails_interpolate_bind_iff, fails_fetch_bind_iff]
      constructor
      · rintro ⟨hid, hhandled, hrest⟩ r hr
        obtain ⟨-, rfl | ⟨⟨json, hjson, hnull, hcompleted, herror⟩, hr⟩⟩ := polled_iff.1 hr
        · refine ⟨hid, hhandled, fun json hstatus ↦ ?_⟩
          have hnull : json ≠ .null := fun hnull ↦ (handled_iff engine).1 hhandled |>.2
            (hnull ▸ hstatus.1)
          have hfails := hrest json hstatus.1 hnull
          rw [if_neg (by simp [hasStatus_completed_of_error hstatus.2]), if_pos hstatus.2] at hfails
          exact fails_transcriptError_iff.1 hfails
        · have hfails := hrest json hjson hnull
          rw [if_neg (by simp [hcompleted]), if_neg (by simp [herror])] at hfails
          exact ih'.1 hfails r hr
      · intro hall
        obtain ⟨hid, hhandled, herrors⟩ := hall round (.here h)
        refine ⟨hid, hhandled, fun json hjson hnull ↦ ?_⟩
        split_ifs with hcompleted herror
        · exact fails_pure _
        · exact fails_transcriptError_iff.2 (herrors json ⟨hjson, herror⟩)
        · refine ih'.2 fun r hr ↦ hall r (.later h ⟨json, hjson, hnull, ?_, ?_⟩ hr)
          · simpa using hcompleted
          · simpa using herror
    · rw [pollTranscript_of_not_lt h]
      refine iff_of_true (fails_failWith _ _) fun r hr ↦ ?_
      exact absurd (polled_iff.1 hr).1 h

/-- Polling returns the transcript of a round that is polled. -/
theorem pollTranscript_eq_ok_iff (hid : id.Converts) :
    (pollTranscript engine config polls id deadline round now).result = .ok json ↔
      ∃ r, Polled config polls deadline round now r ∧
        (polls r).answer.HasStatus "completed" json := by
  induction hleft : deadline - now using Nat.strongRecOn generalizing round now with
  | ind left ih =>
    by_cases h : now < deadline
    · have hlater := lt_afterPoll config deadline now (polls round)
      have ih' := @ih (deadline - afterPoll config deadline now (polls round)) (by omega)
        (round + 1) _ rfl
      rw [pollTranscript_of_lt h, interpolate_bind_eq_ok_iff, fetch_bind_eq_ok_iff]
      constructor
      · rintro ⟨-, json', hjson, hnull, hreturned⟩
        split_ifs at hreturned with hcompleted herror
        · obtain rfl := Except.ok.inj hreturned
          exact ⟨round, .here h, hjson, hcompleted⟩
        · exact absurd hreturned transcriptError_ne_ok
        · obtain ⟨r, hr, hstatus⟩ := ih'.1 hreturned
          refine ⟨r, .later h ⟨json', hjson, hnull, ?_, ?_⟩ hr, hstatus⟩
          · simpa using hcompleted
          · simpa using herror
      · rintro ⟨r, hr, hstatus⟩
        refine ⟨hid, ?_⟩
        obtain ⟨-, rfl | ⟨⟨json', hjson, hnull, hcompleted, herror⟩, hr⟩⟩ := polled_iff.1 hr
        · refine ⟨json, hstatus.1, ?_, ?_⟩
          · rintro rfl
            cases hstatus.2
          · rw [if_pos hstatus.2]
            rfl
        · refine ⟨json', hjson, hnull, ?_⟩
          rw [if_neg (by simp [hcompleted]), if_neg (by simp [herror])]
          exact ih'.2 ⟨r, hr, hstatus⟩
    · rw [pollTranscript_of_not_lt h]
      refine ⟨fun hreturned ↦ (by cases hreturned), fun ⟨r, hr, _⟩ ↦ ?_⟩
      exact absurd (polled_iff.1 hr).1 h

/-! ### Results -/

theorem silent_trimmed {v : Option Value} : (trimmed engine v).Silent := by
  unfold trimmed
  split
  · exact silent_pure _
  · exact silent_pure _
  · exact silent_pure _
  · exact silent_raise _

theorem fails_trimmed_iff {v : Option Value} : (trimmed engine v).Fails Classified ↔ Trims v := by
  cases v with
  | none => exact iff_of_true (fails_pure _) trivial
  | some v =>
    cases v with
    | null | str => exact iff_of_true (fails_pure _) trivial
    | bool | num | arr | obj => exact iff_of_false not_fails_raised id

theorem computeCost_of_priced {duration : Option Value} (h : Priced duration) :
    computeCost engine duration = pure duration := by
  cases duration with
  | none => rfl
  | some v => rw [computeCost, if_pos (h v rfl)]

theorem computeCost_of_not_priced {duration : Option Value} (h : ¬Priced duration) :
    computeCost engine duration = raise engine .noPrimitive := by
  cases duration with
  | none => exact absurd (fun _ h ↦ (by cases h)) h
  | some v =>
    rw [computeCost, if_neg]
    exact fun hv ↦ h fun w hw ↦ Option.some.inj hw ▸ hv

/-- A success is recorded before the price is computed. -/
theorem ends_success_iff {P : Thrown → List BreakerOutcome → Prop} {duration : Option Value}
    {g : Option Value → SpeechResult}
    (hP : ∀ isTimeout message, ¬P (.raised isTimeout message) [.success]) :
    (do .record .success
        let charged ← computeCost engine duration
        pure (g charged) : Attempt SpeechResult).Ends P
      (fun _ recorded ↦ recorded.length = 1) ↔ Priced duration := by
  by_cases h : Priced duration
  · rw [computeCost_of_priced h]
    exact iff_of_true ⟨fun _ h ↦ (by cases h), fun _ _ ↦ rfl⟩ h
  · rw [computeCost_of_not_priced h]
    exact iff_of_false (fun hends ↦ hP _ _ (hends.fails _ rfl)) h

theorem ends_complete_iff {latencyMs : ℕ} (hnull : json ≠ .null) :
    (complete engine config request latencyMs json).Ends Classified
      (fun _ recorded ↦ recorded.length = 1) ↔
      Trims (optional "text" (some json)) ∧ Priced (optional "audio_duration" (some json)) := by
  rw [complete, Recorded.ends_bind_iff silent_readProperty, readProperty_of_ne_null hnull,
    and_iff_right (fails_pure _)]
  have hread : ∀ v, (pure (optional "text" (some json)) : Attempt (Option Value)).result = .ok v ↔
      v = optional "text" (some json) :=
    fun v ↦ ⟨fun h ↦ (Except.ok.inj h).symm, fun h ↦ h ▸ rfl⟩
  simp only [hread, forall_eq, Recorded.ends_bind_iff silent_trimmed, fails_trimmed_iff,
    ends_success_iff fun _ _ ↦ not_classified_raised]
  refine and_congr_right fun htrims ↦ ⟨fun h ↦ ?_, fun h _ _ ↦ h⟩
  cases htext : (trimmed engine (optional "text" (some json))).result with
  | ok text => exact h text htext
  | error thrown =>
    obtain ⟨⟨error, rfl⟩, -⟩ := fails_trimmed_iff.2 htrims thrown htext
    revert htext
    unfold trimmed
    split <;> simp [Recorded.pure_def, raise, Recorded.raise]

theorem ends_makeTranscript_iff {w : AssemblyAiWorld} {latencyMs : ℕ} :
    (makeTranscript engine config request w latencyMs).Ends Classified
      (fun _ recorded ↦ recorded.length = 1) ↔ w.Handled config request := by
  unfold makeTranscript AssemblyAiWorld.Handled uploadAudio submitTranscript
  simp only [Recorded.ends_bind_iff silent_fetchProperty, fails_fetchProperty_iff,
    fetchProperty_eq_ok_iff, Recorded.ends_bind_iff silent_pollTranscript, fails_pollTranscript_iff]
  refine and_congr_right fun _ ↦ forall₂_congr fun _ _ ↦ and_congr_right fun _ ↦
    forall₂_congr fun id _ ↦ ?_
  constructor
  · rintro ⟨hrounds, hcomplete⟩ r hr
    obtain ⟨hid, hhandled, herrors⟩ := hrounds r hr
    have hends : ∀ json, (w.polls r).answer.HasStatus "completed" json →
        Trims (optional "text" (some json)) ∧ Priced (optional "audio_duration" (some json)) := by
      intro json hstatus
      refine (ends_complete_iff ?_).1
        (hcomplete json ((pollTranscript_eq_ok_iff hid).2 ⟨r, hr, hstatus⟩))
      rintro rfl
      cases hstatus.2
    exact ⟨hid, hhandled, herrors, fun json h ↦ (hends json h).1, fun json h ↦ (hends json h).2⟩
  · intro hall
    refine ⟨fun r hr ↦ ⟨(hall r hr).id_converts, (hall r hr).handled, (hall r hr).error_converts⟩,
      fun json hjson ↦ ?_⟩
    have hlt : w.pollFrom < w.deadline config request := by
      by_contra h
      rw [pollTranscript_of_not_lt h] at hjson
      cases hjson
    obtain ⟨r, hr, hstatus⟩ :=
      (pollTranscript_eq_ok_iff (hall 0 (.here hlt)).id_converts).1 hjson
    refine (ends_complete_iff ?_).2
      ⟨(hall r hr).text_trims json hstatus, (hall r hr).priced json hstatus⟩
    rintro rfl
    cases hstatus.2

/-! ### A single call -/

/-- What the `catch` block turns into an error that is classified. -/
def Catchable (thrown : Thrown) (recorded : List BreakerOutcome) : Prop :=
  match thrown with
  | .provider error => Classified (.provider error) recorded
  | .raised .. => recorded = []

theorem ends_handle_caught_iff {α : Type} {c : Attempt α} {Q : α → List BreakerOutcome → Prop} :
    (c.handle caught).Ends Classified Q ↔ c.Ends Catchable Q := by
  unfold Recorded.handle
  cases h : c.result with
  | ok v =>
    have hfails : ∀ P : Thrown → List BreakerOutcome → Prop, c.Fails P :=
      fun P e he ↦ (by rw [h] at he; cases he)
    exact ⟨fun hends ↦ ⟨hfails _, hends.returns⟩, fun hends ↦ ⟨hfails _, hends.returns⟩⟩
  | error thrown =>
    have hreturns : ∀ v, c.result = .ok v → Q v c.log := fun v hv ↦ (by rw [h] at hv; cases hv)
    cases thrown with
    | provider error =>
      have hcaught : c.log ++ (caught (α := α) (.provider error)).log = c.log := List.append_nil _
      simp only [hcaught]
      constructor
      · intro hends
        refine ⟨fun e he ↦ ?_, hreturns⟩
        obtain rfl := Except.error.inj (h.symm.trans he)
        exact hends.fails _ rfl
      · intro hends
        refine ⟨fun e he ↦ ?_, fun v hv ↦ (by cases hv)⟩
        obtain rfl := Except.error.inj he
        exact hends.fails _ h
    | raised isTimeout message =>
      constructor
      · intro hends
        refine ⟨fun e he ↦ ?_, hreturns⟩
        obtain rfl := Except.error.inj (h.symm.trans he)
        obtain ⟨-, hrecorded | ⟨⟨status, hstatus, -⟩, -⟩⟩ := hends.fails _ rfl
        · have hlength : c.log.length + 1 = 1 := by
            rw [List.length_append] at hrecorded
            exact hrecorded
          exact List.length_eq_zero_iff.1 (by omega)
        · cases hstatus
      · intro hends
        refine ⟨fun e he ↦ ?_, fun v hv ↦ (by cases hv)⟩
        obtain rfl := Except.error.inj he
        have hlog : c.log = [] := hends.fails _ h
        exact classified_of_length (by rw [hlog]; rfl)

/-- A step that records nothing, and throws only what the language raises. -/
structure Plain {α : Type} (c : Attempt α) : Prop where
  log : c.log = []
  raised : ∀ thrown, c.result = .error thrown →
    ∃ isTimeout message, thrown = .raised isTimeout message

namespace Plain

variable {α β : Type} {c : Attempt α} {f : α → Attempt β}

theorem silent (h : Plain c) : c.Silent :=
  fun _ _ ↦ h.log

theorem fails (h : Plain c) : c.Fails Catchable := by
  intro thrown hthrown
  obtain ⟨isTimeout, message, rfl⟩ := h.raised thrown hthrown
  exact h.log

theorem pure (v : α) : Plain (Pure.pure v : Attempt α) :=
  ⟨rfl, fun _ h ↦ (by cases h)⟩

theorem raise (isTimeout : Bool) (message : Text) :
    Plain (Recorded.raise (.raised isTimeout message) : Attempt α) :=
  ⟨rfl, fun _ h ↦ ⟨isTimeout, message, (Except.error.inj h).symm⟩⟩

theorem bind (hc : Plain c) (hf : ∀ v, c.result = .ok v → Plain (f v)) : Plain (c >>= f) := by
  cases h : c.result with
  | ok v =>
    rw [hc.silent.bind_of_ok h]
    exact hf v h
  | error thrown =>
    obtain ⟨isTimeout, message, rfl⟩ := hc.raised thrown h
    rw [Recorded.bind_of_error h]
    exact ⟨hc.log, fun _ h ↦ ⟨isTimeout, message, (Except.error.inj h).symm⟩⟩

theorem readProperty : Plain (readProperty engine name v) := by
  unfold Speech.readProperty
  split
  · exact .pure _
  · exact .raise _ _

theorem trimmed {v : Option Value} : Plain (trimmed engine v) := by
  unfold Speech.trimmed
  split
  · exact .pure _
  · exact .pure _
  · exact .pure _
  · exact .raise _ _

theorem readJson : Plain (readJson engine body) := by
  cases body with
  | brokeOff isTimeout message => exact .raise _ _
  | text body =>
    rw [Speech.readJson, silent_readText.bind_of_ok rfl]
    split
    · exact .pure _
    · exact .raise _ _

theorem normaliseLanguage {label : Option Value} {language : Option Text} :
    Plain (BaseSttConnector.normaliseLanguage engine label language) := by
  unfold BaseSttConnector.normaliseLanguage
  split
  · exact .pure _
  · split_ifs
    · exact .pure _
    · split
      · exact .pure _
      · exact .raise _ _

theorem parseSttResponse {c : BaseSttConnector} {defaultModel : Text} :
    Plain (c.parseSttResponse engine defaultModel request json) := by
  cases c with
  | groq =>
    exact readProperty.bind fun _ _ ↦ trimmed.bind fun _ _ ↦
      normaliseLanguage.bind fun _ _ ↦ .pure _
  | deepgram | openai | localWhisper =>
    exact readProperty.bind fun _ _ ↦ trimmed.bind fun _ _ ↦ .pure _

end Plain

/-- The price is computed where a minute has one. -/
theorem ends_charged_iff {c : BaseSttConnector} {duration : Option Value}
    {g : Option Value → SpeechResult} :
    (do .record .success
        let charged ← c.getCostUsd engine duration
        pure (g charged) : Attempt SpeechResult).Ends Catchable
      (fun _ recorded ↦ recorded.length = 1) ↔ (c ≠ .localWhisper → Priced duration) := by
  cases c with
  | groq | deepgram | openai =>
    refine (ends_success_iff fun isTimeout message h ↦ ?_).trans (by simp)
    cases h
  | localWhisper =>
    exact iff_of_true ⟨fun _ h ↦ (by cases h), fun _ _ ↦ rfl⟩ fun h ↦ absurd rfl h

theorem ends_refuse_iff {provider : String} {code : Text → Option Value} {status : ℕ}
    {Q : SpeechResult → List BreakerOutcome → Prop} :
    (refuse provider code status body : Attempt SpeechResult).Ends Catchable Q ↔
      ((∃ text, body = .text text) → 400 ≤ status) := by
  cases body with
  | brokeOff isTimeout message =>
    refine iff_of_true ⟨fun thrown h ↦ ?_, fun v h ↦ absurd h (refuse_ne_ok v)⟩ fun ⟨_, h⟩ ↦ (by
      cases h)
    obtain rfl := Except.error.inj h
    rfl
  | text text =>
    have hfails :
        (refuse provider code status (.text text) : Attempt SpeechResult).Fails Catchable ↔
          (refuse provider code status (.text text) : Attempt SpeechResult).Fails Classified := by
      rw [refuse_text]
      refine forall₂_congr fun thrown h ↦ ?_
      obtain rfl := Except.error.inj h
      rfl
    rw [forall_prop_of_true ⟨text, rfl⟩]
    refine ⟨fun hends ↦ (fails_refuse_iff.1 (hfails.1 hends.fails)).2, fun h ↦ ?_⟩
    exact ⟨hfails.2 (fails_refuse_iff.2 ⟨⟨text, rfl⟩, h⟩), fun v h ↦ absurd h (refuse_ne_ok v)⟩

/-- Everything but a status below 400 and the price of a duration is caught. -/
theorem ends_callOnce_iff {c : BaseSttConnector} {defaultModel : Text} {w : SttCallWorld} :
    (callOnce engine c defaultModel request w).Ends Catchable
      (fun _ recorded ↦ recorded.length = 1) ↔ c.Handles engine defaultModel request w.answer := by
  unfold callOnce BaseSttConnector.Handles
  cases w.answer with
  | rejected isTimeout message =>
    refine iff_of_true ⟨fun thrown h ↦ ?_, fun _ h ↦ (by cases h)⟩
      ⟨fun _ _ h ↦ (by cases h), fun _ _ h ↦ (by cases h)⟩
    obtain rfl := Except.error.inj h
    rfl
  | answered status body =>
    cases hok : isOk status with
    | false =>
      simp only [Bool.not_false, if_true, ends_refuse_iff, Fetched.json?, hok]
      constructor
      · refine fun h ↦ ⟨fun status' text heq _ ↦ ?_, fun _ _ h ↦ (by cases h)⟩
        obtain ⟨rfl, rfl⟩ := Fetched.answered.inj heq
        exact h ⟨text, rfl⟩
      · rintro ⟨h, -⟩ ⟨text, rfl⟩
        exact h status text rfl hok
    | true =>
      have hstatus : ∀ status' text, Fetched.answered status body = .answered status' (.text text) →
          isOk status' = false → 400 ≤ status' := by
        intro status' text heq hfalse
        obtain ⟨rfl, -⟩ := Fetched.answered.inj heq
        exact absurd (hok.symm.trans hfalse) (by decide)
      simp only [Bool.not_true, Bool.false_eq_true, if_false, Fetched.json?, hok, if_true,
        Recorded.ends_bind_iff Plain.readJson.silent, Plain.readJson.fails,
        Recorded.ends_bind_iff Plain.parseSttResponse.silent, Plain.parseSttResponse.fails,
        readJson_eq_ok_iff, true_and, ends_charged_iff, and_iff_right hstatus]
      exact ⟨fun h json parsed hjson ↦ h json hjson parsed,
        fun h json hjson parsed ↦ h json parsed hjson⟩

/-- The failures of a provider are contained exactly when its answers are handled. -/
theorem contained_iff (engine : Engine) (request : SpeechRequest) :
    (∀ (c : BaseSttConnector) (defaultModel : Text) (w : SttCallWorld),
      Contained (c.transcribe engine defaultModel request w) ↔
        (w.admission = .admitted → c.Handles engine defaultModel request w.answer)) ∧
    ∀ (config : AssemblyAiConfig) (w : AssemblyAiWorld) (latencyMs : ℕ),
      Contained (assemblyAiTranscribe engine config request w latencyMs) ↔
        (w.admission = .admitted → w.Handled config request) := by
  refine ⟨fun c defaultModel w ↦ ?_, fun config w latencyMs ↦ ?_⟩
  · rw [BaseSttConnector.transcribe, contained_withSlot_iff, ends_handle_caught_iff,
      ends_callOnce_iff]
  · rw [assemblyAiTranscribe, contained_withSlot_iff, ends_makeTranscript_iff]

/-- An upload that is answered with a page instead of JSON: the error leaves the connector, and
nothing is recorded. -/
theorem page_not_contained : ¬Contained (assemblyAiTranscribe
    { message := fun _ ↦ ascii "Unexpected token '<'", toLowerCase := fun t ↦ t } {} {}
    { upload := .answered 200 (.text (ascii "<html>")), submit := .rejected false []
      polls := fun _ ↦ { answer := .rejected false [] } } 0) := by
  intro h
  obtain ⟨error, herror⟩ := h.ends _ rfl
  cases herror

end ModelConnector.Speech
