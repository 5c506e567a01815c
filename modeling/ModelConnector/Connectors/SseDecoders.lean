import ModelConnector.Connectors.StrictStream
import ModelConnector.Foundations.EcmaString
import ModelConnector.Foundations.Json

/-!
# Decoders of event streams

`decodeSse` of the Groq extension, of the Z.AI connector and of the SambaNova Cloud connector. All
of them decode the chunks of a body, take complete events off what they have of the text, and read
what is left when the body is over as an event of its own. They differ in what they read out of an
event and in what they refuse after the terminal one.

The body is a sequence of chunks of bytes. A decoder yields the deltas and then completes, or
throws.
-/

namespace ModelConnector.Connectors.Sse

open Ecma StrictStream

/-! ### Events -/

/-- What is thrown. -/
inductive SseError
  | error (message : String)
  /-- By `JSON.parse`, about a text. -/
  | syntaxError (data : Text)
  deriving DecidableEq

/-- What `parseSseEvent` returns; `event` is what only one of the decoders reads. -/
structure SseParsed where
  event : Bool := false
  done : Bool := false
  delta : Option Text := none
  deriving DecidableEq

/-- The code units of a text. -/
def textOf (chars : List Char) : Text :=
  chars.flatMap fun c ↦ (utf16 c).map (Fin.ofNat 0x10000)

/-- The lines of an event that are neither empty nor comments. -/
def eventLines (event : List Char) : List (List Char) :=
  (splitLines event).filter fun line ↦ !line.isEmpty && decide (line.head? ≠ some ':')

/-- The data of a line: `line.slice(5).replace(/^ /, '')`. -/
def dataLine (message : String) (line : List Char) : Except SseError (List Char) :=
  if ['d', 'a', 't', 'a', ':'] <+: line then
    match line.drop 5 with
    | ' ' :: rest => .ok rest
    | rest => .ok rest
  else .error (.error message)

/-- The data of an event, if it has any lines. -/
def eventData (message : String) (event : List Char) : Except SseError (Option Text) :=
  match eventLines event with
  | [] => .ok none
  | lines => do
    let data ← lines.mapM (dataLine message)
    return some (textOf (['\n'].intercalate data))

/-- `record`, with the message of its error. -/
def record (message : String) : Option Value → Except SseError (List (Text × Value))
  | some (.obj members) => .ok members
  | _ => .error (.error message)

/-- The first of `choices`. -/
def firstChoice (message : String) (body : List (Text × Value)) : Except SseError Value :=
  match body.lookup (ascii "choices") with
  | some (.arr (choice :: _)) => .ok choice
  | _ => .error (.error message)

/-- A text that may be missing. -/
def optionalText (message : String) (v : Option Value) : Except SseError (Option Text) :=
  match v with
  | none | some .null => .ok none
  | some (.str text) => .ok (some text)
  | some _ => .error (.error message)

/-- The content of the first choice, with the messages of a connector. -/
def chatContent (notRecord noChoices notChoice notDelta notText : String) (value : Value) :
    Except SseError (Option Text) := do
  let body ← record notRecord (some value)
  let choice ← record notChoice (some (← firstChoice noChoices body))
  let delta ← record notDelta (choice.lookup (ascii "delta"))
  optionalText notText (delta.lookup (ascii "content"))

/-- What is parsed of a delta; an empty one is none. -/
def SseParsed.ofDelta (event : Bool) (delta : Option Text) : SseParsed where
  event := event
  delta := delta.filter fun text ↦ decide (text ≠ [])

/-- `[DONE]`. -/
def DONE : Text :=
  ascii "[DONE]"

/-! ### Groq -/

/-- The terminal events. -/
inductive Terminal
  | done
  | responseCompleted
  deriving DecidableEq

/-- A terminal event, as it is spelled. -/
def Terminal.text : Terminal → String
  | done => "[DONE]"
  | responseCompleted => "response.completed"

/-- `terminalLabel`. -/
def Terminal.label : Terminal → String
  | done => "DONE"
  | responseCompleted => "response.completed"

/-- `chatDelta` of the Groq extension. -/
def groqChatDelta : Value → Except SseError (Option Text) :=
  chatContent "GroqCloud chat SSE event was malformed" "GroqCloud chat SSE event is missing choices"
    "GroqCloud chat SSE choice was malformed" "GroqCloud chat SSE delta was malformed"
    "GroqCloud chat SSE delta must be text"

/-- `responseDelta` of the Groq extension. -/
def groqResponseDelta (value : Value) : Except SseError (Option Text) := do
  let body ← record "GroqCloud Responses SSE event was malformed" (some value)
  if isString "response.output_text.delta" (body.lookup (ascii "type")) then
    match body.lookup (ascii "delta") with
    | some (.str text) => return some text
    | _ => throw (.error "GroqCloud Responses SSE delta must be text")
  else throw (.error "GroqCloud Responses SSE event type is unsupported")

/-- `parseSseEvent` of the Groq extension. -/
def groqEvent (terminal : Terminal) (extractDelta : Value → Except SseError (Option Text))
    (event : List Char) : Except SseError SseParsed := do
  match ← eventData "GroqCloud SSE must contain data-only events" event with
  | none => return {}
  | some data =>
    if data = DONE then
      if terminal = .done then return { event := true, done := true }
      else throw (.error "GroqCloud Responses SSE event type is unsupported")
    else
      match parse data with
      | none => throw (.error "GroqCloud SSE data is not valid JSON")
      | some value =>
        if terminal = .responseCompleted then
          let body ← record "GroqCloud Responses SSE event was malformed" (some value)
          if isString terminal.text (body.lookup (ascii "type")) then
            return { event := true, done := true }
        return .ofDelta true (← extractDelta value)

/-! ### Z.AI -/

/-- `chatDelta` of the Z.AI connector. -/
def zaiChatDelta : Value → Except SseError (Option Text) :=
  chatContent "not an object" "Z.AI chat SSE event is missing choices" "not an object"
    "not an object" "Z.AI chat SSE delta must be text"

/-- `audioDelta` of the Z.AI connector. -/
def zaiAudioDelta (value : Value) : Except SseError (Option Text) := do
  let body ← record "not an object" (some value)
  let type := body.lookup (ascii "type")
  if isString "transcript.text.delta" type || isString "transcript.text.done" type then
    optionalText "Z.AI audio SSE delta must be text" (body.lookup (ascii "delta"))
  else throw (.error "Z.AI audio SSE event type is invalid")

/-- `parseSseEvent` of the Z.AI connector. -/
def zaiEvent (extractDelta : Value → Except SseError (Option Text)) (event : List Char) :
    Except SseError SseParsed := do
  match ← eventData "Z.AI SSE must contain data-only events" event with
  | none => return {}
  | some data =>
    if data = DONE then return { done := true }
    else
      match parse data with
      | none => throw (.error "Z.AI SSE data is not valid JSON")
      | some value => return .ofDelta false (← extractDelta value)

/-! ### SambaNova Cloud -/

/-- What `parseSseEvent` of the SambaNova Cloud connector reads out of a value. -/
def sambanovaDelta : Value → Except SseError (Option Text) :=
  chatContent "not an object" "SambaNova Cloud SSE event is missing choices" "not an object"
    "not an object" "SambaNova Cloud SSE delta content must be text"

/-- `parseSseEvent` of the SambaNova Cloud connector. -/
def sambanovaEvent (event : List Char) : Except SseError SseParsed := do
  match ← eventData "SambaNova Cloud SSE must contain data-only events" event with
  | none => return {}
  | some data =>
    if data = DONE then return { done := true }
    else
      match parse data with
      | none => throw (.syntaxError data)
      | some value => return .ofDelta false (← sambanovaDelta value)

/-! ### The decoders -/

/-- What a decoder makes of an event, and when it refuses one: it has seen a terminal event before,
or it has not. -/
structure SseDecoder where
  parseSseEvent : List Char → Except SseError SseParsed
  refuses : Bool → SseParsed → Bool
  afterTerminal : SseError
  endedWithout : SseError

/-- `decodeSse` of the Groq extension. -/
def groq (terminal : Terminal) (extractDelta : Value → Except SseError (Option Text)) :
    SseDecoder where
  parseSseEvent := groqEvent terminal extractDelta
  refuses done parsed := done && parsed.event
  afterTerminal := .error s!"GroqCloud SSE contains data after {terminal.label}"
  endedWithout := .error s!"GroqCloud SSE ended without {terminal.text}"

/-- `decodeSse` of the Z.AI connector. -/
def zai (extractDelta : Value → Except SseError (Option Text)) : SseDecoder where
  parseSseEvent := zaiEvent extractDelta
  refuses done parsed := done && (parsed.done || parsed.delta.isSome)
  afterTerminal := .error "Z.AI SSE contains data after DONE"
  endedWithout := .error "Z.AI SSE ended without data: [DONE]"

/-- The loop of `stream` of the SambaNova Cloud connector; it sets `done` before it checks. -/
def sambanova : SseDecoder where
  parseSseEvent := sambanovaEvent
  refuses done parsed := (done || parsed.done) && parsed.delta.isSome
  afterTerminal := .error "SambaNova Cloud SSE contains data after DONE"
  endedWithout := .error "SambaNova Cloud SSE ended without data: [DONE]"

/-- What a decoder has seen and yielded. -/
structure SseState where
  done : Bool := false
  deltas : List Text := []

/-- How a decoder ends. -/
inductive SseEnd
  | completed
  | failed (e : SseError)
  deriving DecidableEq

/-- What a decoder yields, and how it ends. -/
structure SseResult where
  deltas : List Text
  outcome : SseEnd
  deriving DecidableEq

namespace SseDecoder

variable (D : SseDecoder)

/-- One event. -/
def onEvent (s : SseState) (event : List Char) : Answer SseState SseError :=
  match D.parseSseEvent event with
  | .error e => .failed e
  | .ok parsed =>
    if D.refuses s.done parsed then .failed D.afterTerminal
    else .next { done := s.done || parsed.done, deltas := s.deltas ++ parsed.delta.toList }

/-- `if (!done) throw`. -/
def close (s : SseState) : SseResult where
  deltas := s.deltas
  outcome := if s.done then .completed else .failed D.endedWithout

/-- What is left when the body is over. -/
def finish (s : SseState) (buffer : List Char) : SseResult :=
  if buffer.all Number.isWhiteSpace then D.close s
  else
    match D.onEvent s buffer with
    | .next s' => D.close s'
    | .failed e => { deltas := s.deltas, outcome := .failed e }
    -- no event ends the loop
    | .done => D.close s

/-- The loop over the texts of the chunks. -/
def readTexts (s : SseState) (buffer : List Char) : List (List Char) → SseResult
  | [] => D.finish s buffer
  | chunk :: chunks =>
    match events.drain D.onEvent s (buffer ++ chunk) with
    | (s', .waiting, rest) => readTexts s' rest chunks
    | (s', .failed e, _) => { deltas := s'.deltas, outcome := .failed e }
    | (s', .done, _) => D.close s'

/-- `streamChunks`: the texts of the chunks, and what the decoder has left. -/
def streamChunks (decoder : TextDecoder) : List (List UInt8) → List (List Char)
  | [] => if decoder.flush = [] then [] else [decoder.flush]
  | chunk :: chunks =>
    (decoder.lenient chunk).2 :: streamChunks (decoder.lenient chunk).1 chunks

/-- `decodeSse`. -/
def decodeSse (chunks : List (List UInt8)) : SseResult :=
  D.readTexts {} [] (streamChunks {} chunks)

end SseDecoder

end ModelConnector.Connectors.Sse
