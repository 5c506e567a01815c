import ModelConnector.Connectors.StrictContract
import ModelConnector.Foundations.Frames
import ModelConnector.Foundations.Number
import ModelConnector.Foundations.Splits
import ModelConnector.Foundations.TextDecoder

/-!
# The stream of strict chat

`DeepSeekStrictStream.stream` reads the chunks of an answer. It counts their bytes, decodes them,
bounds the text it has not taken apart yet, and takes complete events off it; an event adds to the
answer, ends it or is refused. When the events are over the answer as a whole is checked.

The provider has answered with an event stream, and the caller neither aborts nor loses its lease.
What `JSON.parse` makes of a text is a parameter.
-/

namespace ModelConnector.Connectors.StrictStream

open StrictContract

/-! ### Answers -/

/-- How an answer is finished. -/
inductive Finish
  | stop
  | tool_calls
  deriving DecidableEq

/-- The text of a finish. -/
def Finish.text : Finish → String
  | stop => "stop"
  | tool_calls => "tool_calls"

/-- `usageSchema`. -/
structure Usage where
  prompt_tokens : ℕ
  completion_tokens : ℕ
  total_tokens : ℕ
  deriving DecidableEq

/-- A tool call as far as it has arrived. -/
structure PartialCall where
  id : String := ""
  name : String := ""
  arguments : String := ""
  deriving DecidableEq

/-- What is thrown about an event or an answer. -/
inductive EventError
  | error (message : String)
  /-- By `JSON.parse`. -/
  | malformed
  /-- By reading a member of a value that has none, or going through one that is no list. -/
  | typeError
  /-- By `usageSchema.parse`. -/
  | schema
  deriving DecidableEq

/-- What the events have said so far, and what was yielded for them. -/
structure Progress where
  finish : Option Finish := none
  usage : Option Usage := none
  providerId : Option String := none
  visible : Bool := false
  /-- The entries of `tools`, in the order they were first set. -/
  tools : List (ℕ × PartialCall) := []
  yielded : List String := []
  deriving DecidableEq

/-- `StreamSummary`. -/
structure StreamSummary where
  served_model : String
  provider_id : Option String
  finish : Finish
  usage : Option Usage
  bytes : ℕ
  deriving DecidableEq

/-! ### Events of a text -/

/-- What follows a match of `/\r?\n\r?\n/u` in front. -/
def separator? : List Char → Option (List Char)
  | '\r' :: '\n' :: '\r' :: '\n' :: rest => some rest
  | '\r' :: '\n' :: '\n' :: rest => some rest
  | '\n' :: '\r' :: '\n' :: rest => some rest
  | '\n' :: '\n' :: rest => some rest
  | _ => none

/-- The text before the first separator, and the text after it. -/
def nextEvent : List Char → Option (List Char × List Char)
  | [] => none
  | c :: cs =>
    match separator? (c :: cs) with
    | some rest => some ([], rest)
    | none => (nextEvent cs).map fun p ↦ (c :: p.1, p.2)

/-- `event.split(/\r?\n/u)`. -/
def splitLines : List Char → List (List Char) :=
  Splits.splitLines '\r' '\n'

/-- The lines of an event that are no comments. -/
def eventLines (event : List Char) : List (List Char) :=
  (splitLines event).filter fun line ↦ decide (line.head? ≠ some ':')

/-- The data of the lines of an event. -/
def eventData (lines : List (List Char)) : String :=
  String.ofList <| ['\n'].intercalate <|
    lines.map fun line ↦ (line.drop 5).dropWhile Number.isWhiteSpace

/-! ### One event -/

/-- A member that is neither missing nor `null`. -/
def present? (v : Json) (key : String) : Option Json :=
  match v.get? key with
  | some .null => none
  | member => member

/-- `value === s`. -/
def isText (s : String) (value : Option Json) : Bool :=
  match value with
  | some (.str s') => decide (s' = s)
  | _ => false

/-- A whole number that is not negative, and its bound. -/
def natural? (limit : ℕ) : Json → Option ℕ
  | .num n =>
    let value := Nat.ofDigitChars 10 n.text 0
    if n.text.all Char.isDigit ∧ value ≤ limit then some value else none
  | _ => none

/-- Throw unless a check passes. -/
def require (check : Bool) (message : String) : Except EventError Unit :=
  if check then .ok () else .error (.error message)

/-- `typeof delta === 'object'` and its keys. -/
def objectKeys? : Json → Option (List String)
  | .obj members => some (members.map Prod.fst)
  | .arr elems => some ((List.range elems.length).map toString)
  | _ => none

/-- The entries of `delta.tool_calls ?? []`. -/
def toolCalls (delta : Json) : Except EventError (List Json) :=
  match present? delta "tool_calls" with
  | none => .ok []
  | some (.arr elems) => .ok elems
  | some (.str s) => .ok (s.toList.map fun c ↦ .str (String.ofList [c]))
  | some _ => .error .typeError

/-- A text of a tool call that may be given once. -/
def setOnce (prior : String) (value : Option Json) (message : String) : Except EventError String :=
  match value with
  | none => .ok prior
  | some (.str s) => if prior = "" then .ok s else .error (.error message)
  | some _ => .error (.error message)

/-- The arguments of a tool call, which may come in parts. -/
def appendText (prior : String) (value : Option Json) (message : String) :
    Except EventError String :=
  match value with
  | none => .ok prior
  | some (.str s) => .ok (prior ++ s)
  | some _ => .error (.error message)

/-- `tools.set(index, entry)`. -/
def setTool (tools : List (ℕ × PartialCall)) (index : ℕ) (entry : PartialCall) :
    List (ℕ × PartialCall) :=
  if tools.any fun p ↦ decide (p.1 = index) then
    tools.map fun p ↦ if p.1 = index then (index, entry) else p
  else tools ++ [(index, entry)]

/-- One entry of `delta.tool_calls`. -/
def onToolCall (tools : List (ℕ × PartialCall)) (t : Json) :
    Except EventError (List (ℕ × PartialCall)) := do
  if t matches .null then .error .typeError
  let some index := (t.get? "index").bind (natural? 31) | .error (.error "strict-tool-refused")
  require ((t.get? "type").isNone || isText "function" (t.get? "type")) "strict-tool-refused"
  let prior := (tools.lookup index).getD {}
  let function := (present? t "function").getD (.obj [])
  let id ← setOnce prior.id (t.get? "id") "strict-tool-id-refused"
  let name ← setOnce prior.name (function.get? "name") "strict-tool-name-refused"
  let arguments ← appendText prior.arguments (function.get? "arguments")
    "strict-tool-arguments-refused"
  require (decide (arguments.utf8ByteSize ≤ 262144)) "strict-tool-overflow"
  return setTool tools index { id, name, arguments }

/-- `choice.finish_reason`, when it is not `null`. -/
def onFinish (finish : Option Finish) (choice : Json) : Except EventError (Option Finish) :=
  match present? choice "finish_reason" with
  | none => .ok finish
  | reason =>
    if finish.isSome then .error (.error "strict-finish-refused")
    else if isText Finish.stop.text reason then .ok (some .stop)
    else if isText Finish.tool_calls.text reason then .ok (some .tool_calls)
    else .error (.error "strict-finish-refused")

/-- A text of a delta is missing, `null` or a string. -/
def isTextOrNull (delta : Json) (key : String) : Bool :=
  match present? delta key with
  | none => true
  | some (.str _) => true
  | some _ => false

/-- A text of a delta is missing, `null` or empty. -/
def isEmptyText (delta : Json) (key : String) : Bool :=
  (present? delta key).isNone || isText "" (present? delta key)

/-- The one choice of an event. -/
def onChoice (p : Progress) (choice : Json) : Except EventError Progress := do
  if choice matches .null then .error .typeError
  require ((choice.get? "index").bind (natural? 0) == some 0) "strict-delta-refused"
  let some delta := choice.get? "delta" | .error (.error "strict-delta-refused")
  let some keys := objectKeys? delta | .error (.error "strict-delta-refused")
  require (keys.all ["role", "content", "reasoning_content", "tool_calls"].contains)
    "strict-delta-field-refused"
  require ((present? delta "role").isNone || isText "assistant" (present? delta "role"))
    "strict-role-refused"
  require (isTextOrNull delta "content" && isTextOrNull delta "reasoning_content")
    "strict-text-refused"
  let visible := p.visible || !isEmptyText delta "content"
  require (p.finish.isNone || keys.isEmpty) "strict-content-after-finish"
  let tools ← (← toolCalls delta).foldlM onToolCall p.tools
  let finish ← onFinish p.finish choice
  return { p with visible, tools, finish }

/-- `usageSchema.parse`. -/
def parseUsage (usage : Json) : Except EventError Usage :=
  match (usage.get? "prompt_tokens").bind (natural? StrictContract.MAX_SAFE_INTEGER),
    (usage.get? "completion_tokens").bind (natural? StrictContract.MAX_SAFE_INTEGER),
    (usage.get? "total_tokens").bind (natural? StrictContract.MAX_SAFE_INTEGER) with
  | some prompt_tokens, some completion_tokens, some total_tokens =>
    .ok { prompt_tokens, completion_tokens, total_tokens }
  | _, _, _ => .error .schema

/-- `delta.tool_calls` is missing, `null` or empty. -/
def noToolCalls (delta : Json) : Bool :=
  match toolCalls delta with
  | .ok calls => calls.isEmpty
  | .error _ => false

/-- `c.usage`, when it is not `null`. -/
def onUsage (body : StrictChatBody) (p : Progress) (c choice : Json) :
    Except EventError Progress := do
  match present? c "usage" with
  | none => return p
  | some reported =>
    let delta := (choice.get? "delta").getD .null
    require (p.finish.any (fun finish ↦ isText finish.text (choice.get? "finish_reason")) &&
      isEmptyText delta "content" && isEmptyText delta "reasoning_content" && noToolCalls delta)
      "strict-usage-order"
    require p.usage.isNone "strict-duplicate-usage"
    let usage ← parseUsage reported
    require (decide (usage.total_tokens = usage.prompt_tokens + usage.completion_tokens ∧
      usage.completion_tokens ≤ body.max_tokens ∧ usage.prompt_tokens ≤ body.input_token_bound))
      "strict-usage-refused"
    return { p with usage := some usage }

/-- The identifier of an answer. It does not change, unless it was empty. -/
def onId (p : Progress) (c : Json) : Except EventError Progress := do
  match c.get? "id" with
  | some (.str providerId) =>
    require (p.providerId.all fun prior ↦ prior == "" || prior == providerId) "strict-id-drift"
    return { p with providerId := some providerId }
  | _ => return p

/-- A value that an event holds. -/
def onValue (body : StrictChatBody) (p : Progress) (c : Json) : Except EventError Progress := do
  require (isText body.model (c.get? "model")) "strict-model-or-choice-refused"
  let some (.arr [choice]) := c.get? "choices"
    | .error (.error "strict-model-or-choice-refused")
  let p ← onId p c
  let p ← onChoice p choice
  onUsage body p c choice

variable (parse : String → Option Json)

/-- One event. -/
def onEvent (body : StrictChatBody) (p : Progress) (event : List Char) :
    Answer Progress EventError :=
  let lines := eventLines event
  if lines = [] then .next p
  else if lines.any fun line ↦ !"data:".toList.isPrefixOf line then
    .failed (.error "strict-frame-refused")
  else
    let data := eventData lines
    if data = "[DONE]" then
      if p.finish = none then .failed (.error "strict-finish-missing") else .done
    else if p.finish ≠ none ∧ p.usage ≠ none then .failed (.error "strict-after-final-refused")
    else
      match parse data with
      | none => .failed .malformed
      | some c =>
        match onValue body p c with
        | .error e => .failed e
        | .ok p' => .next { p' with yielded := p.yielded ++ ["data: " ++ data ++ "\n\n"] }

/-! ### The end of the answer -/

/-- One of the tool calls an answer is finished with. -/
def checkCall (body : StrictChatBody) (ids : List String) (t : PartialCall) :
    Except EventError (List String) := do
  require (isId t.id && !ids.contains t.id && body.declared.any (fun f ↦ decide (f.name = t.name)))
    "strict-tool-binding-refused"
  if (parse t.arguments).isNone then .error .malformed
  return t.id :: ids

/-- What is checked of an answer that is over. -/
def complete (body : StrictChatBody) (p : Progress) (finish : Finish) (bytes : ℕ) :
    Except EventError StreamSummary := do
  match finish with
  | .tool_calls =>
    require (!p.tools.isEmpty) "strict-tool-finish-empty"
    discard <| (p.tools.map Prod.snd).foldlM (checkCall parse body) []
  | .stop => require (p.tools.isEmpty && p.visible) "strict-empty-completion"
  return ⟨body.model, p.providerId, finish, p.usage, bytes⟩

/-! ### Chunks -/

/-- What `stream` throws. -/
inductive StreamError
  /-- `strict-output-overflow`. -/
  | outputOverflow
  /-- By the decoder. -/
  | undecodable
  /-- `strict-event-overflow`. -/
  | eventOverflow
  /-- `strict-truncated`. -/
  | truncated
  | event (e : EventError)
  deriving DecidableEq

/-- What a stream yields, and what it returns or throws. -/
structure StreamResult where
  events : List String
  outcome : Except StreamError StreamSummary
  deriving DecidableEq

/-- The variables of `stream` between two chunks. -/
structure StreamState where
  bytes : ℕ := 0
  decoder : TextDecoder := {}
  buffer : List Char := []
  progress : Progress := {}

/-- `Buffer.byteLength`. -/
def byteLength (text : List Char) : ℕ :=
  (text.map Char.utf8Size).sum

/-! ### Separators -/

/-- The texts `/\r?\n\r?\n/u` matches. -/
def separators : List (List Char) :=
  ["\r\n\r\n".toList, "\r\n\n".toList, "\n\r\n".toList, "\n\n".toList]

theorem separator?_eq_some_iff {buffer rest : List Char} :
    separator? buffer = some rest ↔ ∃ sep ∈ separators, buffer = sep ++ rest := by
  constructor
  · intro h
    unfold separator? at h
    split at h <;> cases h
    · exact ⟨"\r\n\r\n".toList, by decide, rfl⟩
    · exact ⟨"\r\n\n".toList, by decide, rfl⟩
    · exact ⟨"\n\r\n".toList, by decide, rfl⟩
    · exact ⟨"\n\n".toList, by decide, rfl⟩
  · rintro ⟨sep, hsep, rfl⟩
    simp only [separators, List.mem_cons, List.not_mem_nil, or_false] at hsep
    rcases hsep with rfl | rfl | rfl | rfl <;> rfl

theorem ne_nil_of_mem_separators : ∀ sep ∈ separators, sep ≠ [] := by
  decide

/-- No event ends before a separator that has not arrived completely. -/
theorem nextEvent_of_separator?_append {buffer more rest : List Char}
    (h : separator? buffer = none) (hmore : separator? (buffer ++ more) = some rest) :
    nextEvent buffer = none := by
  obtain ⟨sep, hsep, heq⟩ := separator?_eq_some_iff.1 hmore
  rcases List.append_eq_append_iff.1 heq with ⟨missing, hbuffer, -⟩ | ⟨rest', hbuffer, -⟩
  · have hstarts : ∀ sep ∈ separators, ∀ start ∈ sep.inits, separator? start = none →
        nextEvent start = none := by decide
    refine hstarts sep hsep buffer ?_ h
    exact (List.mem_inits _ _).2 ⟨missing, hbuffer.symm⟩
  · rw [separator?_eq_some_iff.2 ⟨sep, hsep, hbuffer⟩] at h
    cases h

theorem nextEvent_cons {c : Char} {cs : List Char} : nextEvent (c :: cs) =
    match separator? (c :: cs) with
    | some rest => some ([], rest)
    | none => (nextEvent cs).map fun p ↦ (c :: p.1, p.2) :=
  rfl

theorem nextEvent_shorter {buffer event rest : List Char}
    (h : nextEvent buffer = some (event, rest)) : rest.length < buffer.length := by
  induction buffer generalizing event with
  | nil => cases h
  | cons c cs ih =>
    rw [nextEvent_cons] at h
    cases hsep : separator? (c :: cs) with
    | some rest' =>
      rw [hsep] at h
      cases h
      obtain ⟨sep, hmem, heq⟩ := separator?_eq_some_iff.1 hsep
      rw [heq, List.length_append]
      have hpos := List.length_pos_of_ne_nil (ne_nil_of_mem_separators sep hmem)
      omega
    | none =>
      rw [hsep] at h
      obtain ⟨p, hp, heq⟩ := Option.map_eq_some_iff.1 h
      cases heq
      exact (ih hp).trans (Nat.lt_succ_self _)

theorem nextEvent_suffix {buffer event rest : List Char}
    (h : nextEvent buffer = some (event, rest)) : rest <:+ buffer := by
  induction buffer generalizing event with
  | nil => cases h
  | cons c cs ih =>
    rw [nextEvent_cons] at h
    cases hsep : separator? (c :: cs) with
    | some rest' =>
      rw [hsep] at h
      cases h
      obtain ⟨sep, -, heq⟩ := separator?_eq_some_iff.1 hsep
      exact ⟨sep, heq.symm⟩
    | none =>
      rw [hsep] at h
      obtain ⟨p, hp, heq⟩ := Option.map_eq_some_iff.1 h
      cases heq
      exact (ih hp).trans (List.suffix_cons c cs)

theorem nextEvent_grows {buffer event rest : List Char}
    (h : nextEvent buffer = some (event, rest)) (more : List Char) :
    nextEvent (buffer ++ more) = some (event, rest ++ more) := by
  induction buffer generalizing event with
  | nil => cases h
  | cons c cs ih =>
    have hwhole := h
    rw [nextEvent_cons] at h
    rw [List.cons_append, nextEvent_cons]
    cases hsep : separator? (c :: cs) with
    | some rest' =>
      rw [hsep] at h
      cases h
      obtain ⟨sep, hmem, heq⟩ := separator?_eq_some_iff.1 hsep
      rw [← List.cons_append, separator?_eq_some_iff.2 ⟨sep, hmem, by rw [heq, List.append_assoc]⟩]
    | none =>
      rw [hsep] at h
      obtain ⟨p, hp, heq⟩ := Option.map_eq_some_iff.1 h
      cases heq
      cases hmore : separator? (c :: (cs ++ more)) with
      | some rest' =>
        rw [nextEvent_of_separator?_append hsep hmore] at hwhole
        cases hwhole
      | none => rw [ih hp, Option.map_some]

theorem nextEvent_prompt {buffer event rest : List Char} {c : Char} (h : nextEvent buffer = none)
    (hmore : nextEvent (buffer ++ [c]) = some (event, rest)) : rest = [] := by
  induction buffer generalizing event with
  | nil =>
    have hnone : separator? [c] = none := by
      cases hsep : separator? [c] with
      | none => rfl
      | some rest' =>
        have hlong : ∀ sep ∈ separators, 2 ≤ sep.length := by decide
        obtain ⟨sep, hmem, heq⟩ := separator?_eq_some_iff.1 hsep
        have hlength := congrArg List.length heq
        rw [List.length_append, List.length_singleton] at hlength
        have htwo := hlong sep hmem
        omega
    rw [List.nil_append, nextEvent_cons, hnone] at hmore
    cases hmore
  | cons a cs ih =>
    rw [nextEvent_cons] at h
    rw [List.cons_append, nextEvent_cons] at hmore
    cases hsep : separator? (a :: cs) with
    | some rest' => rw [hsep] at h; cases h
    | none =>
      rw [hsep] at h
      cases hsep' : separator? (a :: (cs ++ [c])) with
      | none =>
        rw [hsep'] at hmore
        obtain ⟨p, hp, heq⟩ := Option.map_eq_some_iff.1 hmore
        cases heq
        exact ih (Option.map_eq_none_iff.1 h) hp
      | some rest' =>
        rw [hsep'] at hmore
        cases hmore
        obtain ⟨sep, hmem, heq⟩ := separator?_eq_some_iff.1 hsep'
        rw [← List.cons_append] at heq
        rcases List.append_eq_append_iff.1 heq with ⟨missing, hsep', hrest⟩ | ⟨rest', hbuffer, -⟩
        · cases missing with
          | nil =>
            rw [List.append_nil] at hsep'
            rw [separator?_eq_some_iff.2 ⟨sep, hmem, by rw [hsep', List.append_nil]⟩] at hsep
            cases hsep
          | cons b missing =>
            have hlength := congrArg List.length hrest
            simp only [List.length_append, List.length_cons, List.length_nil] at hlength
            exact List.length_eq_zero_iff.1 (by omega)
        · rw [separator?_eq_some_iff.2 ⟨sep, hmem, hbuffer⟩] at hsep
          cases hsep

/-- The events of a text, as frames. -/
def events : Framing Char where
  next := nextEvent
  shorter := nextEvent_shorter
  suffix := nextEvent_suffix
  grows := nextEvent_grows
  prompt := nextEvent_prompt

/-! ### The stream -/

/-- What stops the pass over the events stops the stream. -/
def stopped : Drained EventError → Drained StreamError
  | .waiting => .waiting
  | .done => .done
  | .failed e => .failed (.event e)

/-- One chunk. -/
def readChunk (body : StrictChatBody) (s : StreamState) (chunk : List UInt8) :
    StreamState × Drained StreamError :=
  let bytes := s.bytes + chunk.length
  if body.output_byte_bound < bytes then (s, .failed .outputOverflow)
  else
    match s.decoder.decode chunk with
    | none => (s, .failed .undecodable)
    | some (decoder, text) =>
      if 65536 < byteLength (s.buffer ++ text) then (s, .failed .eventOverflow)
      else
        let (progress, drained, buffer) :=
          events.drain (onEvent parse body) s.progress (s.buffer ++ text)
        ({ bytes, decoder, buffer, progress }, stopped drained)

/-- After the loop. -/
def finishStream (body : StrictChatBody) (s : StreamState) : Except StreamError StreamSummary :=
  match s.progress.finish with
  | none => .error .truncated
  | some finish =>
    if s.buffer.all Number.isWhiteSpace then
      (complete parse body s.progress finish s.bytes).mapError .event
    else .error .truncated

/-- The loop over the chunks. A stream that ends before `[DONE]` is truncated. -/
def run (body : StrictChatBody) : StreamState → List (List UInt8) → StreamResult
  | s, [] =>
    ⟨s.progress.yielded, .error (if s.decoder.complete then .truncated else .undecodable)⟩
  | s, chunk :: chunks =>
    match readChunk parse body s chunk with
    | (s', .waiting) => run body s' chunks
    | (s', .done) => ⟨s'.progress.yielded, finishStream parse body s'⟩
    | (s', .failed e) => ⟨s'.progress.yielded, .error e⟩

/-- `DeepSeekStrictStream.stream`. -/
def stream (body : StrictChatBody) (chunks : List (List UInt8)) : StreamResult :=
  run parse body {} chunks

end ModelConnector.Connectors.StrictStream
