import ModelConnector.Connectors.SseDecoders
import ModelConnector.Foundations.Result

/-!
# Chunks of an event stream

What the decoders of event streams make of a body depends on its bytes only, and is what they make
of its events one after the other (`decodeSse_eq_run`). Nothing is yielded from a terminal event on,
and a decoder completes exactly when all events are well formed, one of them is terminal, and none
after it is refused (`completed_iff`).
-/

namespace ModelConnector.Connectors.Sse

open Ecma StrictStream

/-! ### Bytes, texts and events -/

/-- The text of a body. -/
def textOfBytes (bytes : List UInt8) : List Char :=
  (({} : TextDecoder).lenient bytes).2 ++ (({} : TextDecoder).lenient bytes).1.flush

/-- The events of a text; what is left at the end is one unless it is blank. -/
def sseEvents (text : List Char) : List (List Char) :=
  let p := events.frames text
  if p.2.all Number.isWhiteSpace then p.1 else p.1 ++ [p.2]

namespace SseDecoder

variable {D : SseDecoder} {s s' : SseState} {event : List Char} {before after : List (List Char)}
  {chunks chunks' : List (List UInt8)}

/-- What a decoder makes of events. -/
def run (D : SseDecoder) (s : SseState) : List (List Char) → SseResult
  | [] => D.close s
  | event :: rest =>
    match D.onEvent s event with
    | .next s' => run D s' rest
    | .failed e => { deltas := s.deltas, outcome := .failed e }
    | .done => D.close s

theorem flatten_streamChunks {d : TextDecoder} :
    (streamChunks d chunks).flatten =
      (d.lenient chunks.flatten).2 ++ (d.lenient chunks.flatten).1.flush := by
  induction chunks generalizing d with
  | nil =>
    simp only [streamChunks]
    split_ifs with h <;> simp [TextDecoder.lenient, h]
  | cons chunk chunks ih =>
    rw [streamChunks, List.flatten_cons, ih, List.flatten_cons, TextDecoder.lenient_append,
      List.append_assoc]

/-- **Texts that arrive one after the other are read as one**, while no event is waiting. -/
theorem readTexts_flatten {buffer : List Char} {texts : List (List Char)}
    (h : events.next buffer = none) :
    D.readTexts s buffer texts = D.readTexts s buffer [texts.flatten] := by
  induction texts generalizing s buffer with
  | nil =>
    rw [List.flatten_nil, readTexts, readTexts, List.append_nil, Framing.drain_of_none h]
    rfl
  | cons text texts ih =>
    have happend : events.drain D.onEvent s (buffer ++ text ++ texts.flatten) = _ :=
      Framing.drain_append
    rw [List.flatten_cons, readTexts, readTexts, ← List.append_assoc, happend]
    rcases hd : events.drain D.onEvent s (buffer ++ text) with ⟨s', drained, rest⟩
    cases drained with
    | waiting =>
      have hrest := Framing.next_of_waiting hd
      show D.readTexts s' rest texts = _
      rw [ih hrest, readTexts]
    | done => rfl
    | failed e => rfl

theorem sseEvents_of_none {text : List Char} (h : events.next text = none) :
    sseEvents text = if text.all Number.isWhiteSpace then [] else [text] := by
  simp only [sseEvents, Framing.frames_of_none h, List.nil_append]

theorem sseEvents_of_next {text rest : List Char} (h : events.next text = some (event, rest)) :
    sseEvents text = event :: sseEvents rest := by
  simp only [sseEvents, Framing.frames_of_next h]
  split_ifs <;> rfl

/-- A text is read event by event. -/
theorem readTexts_singleton {text : List Char} : D.readTexts s [] [text] =
    D.run s (sseEvents text) := by
  rw [readTexts, List.nil_append]
  induction s, text using Framing.drain_induction events D.onEvent with
  | none s text hnext =>
    rw [Framing.drain_of_none hnext, sseEvents_of_none hnext]
    show D.finish s text = _
    unfold finish
    split_ifs
    · rfl
    · rw [run]
      cases D.onEvent s text <;> rfl
  | next s text event rest s' hnext hevent ih =>
    rw [Framing.drain_of_next hnext hevent, sseEvents_of_next hnext, run, hevent]
    exact ih
  | done s text event rest hnext hevent =>
    rw [Framing.drain_of_done hnext hevent, sseEvents_of_next hnext, run, hevent]
  | failed s text event rest e hnext hevent =>
    rw [Framing.drain_of_failed hnext hevent, sseEvents_of_next hnext, run, hevent]

/-- **A body is read event by event**, however it arrives. -/
theorem decodeSse_eq_run :
    D.decodeSse chunks = D.run {} (sseEvents (textOfBytes chunks.flatten)) := by
  rw [decodeSse, readTexts_flatten Framing.next_nil, flatten_streamChunks, ← readTexts_singleton]
  rfl

/-! ### What an event says -/

/-- The event is well formed. -/
def WellFormed (D : SseDecoder) (event : List Char) : Prop :=
  ∃ p, D.parseSseEvent event = .ok p

/-- The event is a terminal one. -/
def IsTerminal (D : SseDecoder) (event : List Char) : Prop :=
  ∃ p, D.parseSseEvent event = .ok p ∧ p.done = true

/-- The event is not refused after a terminal one. -/
def MayFollow (D : SseDecoder) (event : List Char) : Prop :=
  ∀ p, D.parseSseEvent event = .ok p → D.refuses true p = false

/-- All events are well formed, one is terminal, and what follows a terminal one may follow it. -/
structure Complete (D : SseDecoder) (events : List (List Char)) : Prop where
  wellFormed : ∀ event ∈ events, D.WellFormed event
  terminal : ∃ event ∈ events, D.IsTerminal event
  quiet : events.Pairwise fun event later ↦ D.IsTerminal event → D.MayFollow later

/-- What the decoders have in common. -/
structure Lawful (D : SseDecoder) : Prop where
  accepts : ∀ {event p}, D.parseSseEvent event = .ok p → D.refuses false p = false
  silent : ∀ {event p}, D.parseSseEvent event = .ok p → p.done = true → p.delta = none
  refuses : ∀ {event p}, D.parseSseEvent event = .ok p → p.delta.isSome → D.refuses true p = true

/-- An event that lets a decoder go on. -/
theorem onEvent_next (h : D.onEvent s event = .next s') : ∃ p, D.parseSseEvent event = .ok p ∧
    D.refuses s.done p = false ∧ s' = ⟨s.done || p.done, s.deltas ++ p.delta.toList⟩ := by
  unfold onEvent at h
  split at h
  · cases h
  · rename_i p hp
    split_ifs at h with hrefuses
    cases h
    exact ⟨p, hp, Bool.eq_false_iff.2 hrefuses, rfl⟩

theorem onEvent_of_error {e : SseError} (h : D.parseSseEvent event = .error e) :
    D.onEvent s event = .failed e := by
  unfold onEvent
  rw [h]

theorem onEvent_of_refused {p : SseParsed} (h : D.parseSseEvent event = .ok p)
    (hrefuses : D.refuses s.done p = true) : D.onEvent s event = .failed D.afterTerminal := by
  unfold onEvent
  rw [h]
  exact if_pos hrefuses

theorem onEvent_of_accepted {p : SseParsed} (h : D.parseSseEvent event = .ok p)
    (hrefuses : D.refuses s.done p = false) :
    D.onEvent s event = .next ⟨s.done || p.done, s.deltas ++ p.delta.toList⟩ := by
  unfold onEvent
  rw [h]
  exact if_neg (Bool.eq_false_iff.1 hrefuses)

theorem onEvent_ne_done : D.onEvent s event ≠ .done := by
  unfold onEvent
  split
  · exact fun h ↦ (by cases h)
  · split_ifs <;> exact fun h ↦ (by cases h)

/-! ### After a terminal event -/

/-- Nothing is yielded after a terminal event. -/
theorem run_deltas_of_done (hD : D.Lawful) (hs : s.done = true) {events : List (List Char)} :
    (D.run s events).deltas = s.deltas := by
  induction events generalizing s with
  | nil => rfl
  | cons event events ih =>
    rw [run]
    cases hevent : D.onEvent s event with
    | next s' =>
      obtain ⟨p, hp, hrefuses, rfl⟩ := onEvent_next hevent
      have hdelta : p.delta = none := by
        by_contra hsome
        rw [hs, hD.refuses hp (Option.isSome_iff_ne_none.2 hsome)] at hrefuses
        cases hrefuses
      rw [ih (by rw [hs, Bool.true_or]), hdelta]
      exact List.append_nil _
    | failed e => rfl
    | done => exact absurd hevent onEvent_ne_done

/-- What is yielded is yielded before the first terminal event. -/
theorem run_deltas_of_terminal (hD : D.Lawful) (hterminal : D.IsTerminal event) :
    (D.run s (before ++ event :: after)).deltas = (D.run s before).deltas := by
  induction before generalizing s with
  | nil =>
    obtain ⟨p, hp, hdone⟩ := hterminal
    rw [List.nil_append, run, run]
    cases hevent : D.onEvent s event with
    | next s' =>
      obtain ⟨p', hp', -, rfl⟩ := onEvent_next hevent
      obtain rfl := Except.ok.inj (hp.symm.trans hp')
      rw [run_deltas_of_done hD (by rw [hdone, Bool.or_true]), hD.silent hp hdone]
      exact List.append_nil _
    | failed e => rfl
    | done => exact absurd hevent onEvent_ne_done
  | cons first before ih =>
    rw [List.cons_append, run, run]
    cases hevent : D.onEvent s first with
    | next s' => exact ih
    | failed e => rfl
    | done => exact absurd hevent onEvent_ne_done

/-! ### Completion -/

theorem completed_of_done {events : List (List Char)} (hs : s.done = true) :
    (D.run s events).outcome = .completed ↔
      ∀ event ∈ events, D.WellFormed event ∧ D.MayFollow event := by
  induction events generalizing s with
  | nil => simp [run, close, hs]
  | cons event events ih =>
    rw [run, List.forall_mem_cons]
    cases hp : D.parseSseEvent event with
    | error e =>
      rw [onEvent_of_error hp]
      refine ⟨fun h ↦ (by cases h), fun h ↦ ?_⟩
      obtain ⟨p, hp'⟩ := h.1.1
      cases hp.symm.trans hp'
    | ok p =>
      cases hrefuses : D.refuses true p with
      | true =>
        rw [onEvent_of_refused hp (by rw [hs, hrefuses])]
        refine ⟨fun h ↦ (by cases h), fun h ↦ ?_⟩
        cases hrefuses.symm.trans (h.1.2 p hp)
      | false =>
        rw [onEvent_of_accepted hp (by rw [hs, hrefuses])]
        have hmay : D.WellFormed event ∧ D.MayFollow event :=
          ⟨⟨p, hp⟩, fun p' hp' ↦ by rwa [← Except.ok.inj (hp.symm.trans hp')]⟩
        refine (ih (by rw [hs, Bool.true_or])).trans ⟨fun h ↦ ⟨hmay, h⟩, fun h ↦ h.2⟩

/-- **When a decoder completes.** -/
theorem completed_iff (hD : D.Lawful) {events : List (List Char)} (hs : s.done = false) :
    (D.run s events).outcome = .completed ↔ D.Complete events := by
  induction events generalizing s with
  | nil =>
    refine ⟨fun h ↦ ?_, fun h ↦ ?_⟩
    · simp [run, close, hs] at h
    · obtain ⟨event, hmem, -⟩ := h.terminal
      cases hmem
  | cons event events ih =>
    rw [run]
    cases hp : D.parseSseEvent event with
    | error e =>
      rw [onEvent_of_error hp]
      refine ⟨fun h ↦ (by cases h), fun h ↦ ?_⟩
      obtain ⟨p, hp'⟩ := h.wellFormed event List.mem_cons_self
      cases hp.symm.trans hp'
    | ok p =>
      rw [onEvent_of_accepted hp (by rw [hs, hD.accepts hp])]
      cases hdone : p.done with
      -- from the terminal event on, every event has to be well formed and to say nothing
      | true =>
        have hterminal : D.IsTerminal event := ⟨p, hp, hdone⟩
        refine (completed_of_done (by rw [hs]; rfl)).trans ⟨fun h ↦ ?_, fun h ↦ ?_⟩
        · exact {
            wellFormed := List.forall_mem_cons.2 ⟨⟨p, hp⟩, fun e he ↦ (h e he).1⟩
            terminal := ⟨event, List.mem_cons_self, hterminal⟩
            quiet := List.pairwise_cons.2 ⟨fun e he _ ↦ (h e he).2,
              List.pairwise_of_forall_mem_list fun _ _ e he _ ↦ (h e he).2⟩ }
        · exact fun e he ↦ ⟨h.wellFormed e (List.mem_cons_of_mem _ he),
            (List.pairwise_cons.1 h.quiet).1 e he hterminal⟩
      | false =>
        have hnot : ¬D.IsTerminal event := by
          rintro ⟨p', hp', hdone'⟩
          obtain rfl := Except.ok.inj (hp.symm.trans hp')
          cases hdone.symm.trans hdone'
        refine (ih (by rw [hs]; rfl)).trans ⟨fun h ↦ ?_, fun h ↦ ?_⟩
        · obtain ⟨e, he, hterminal⟩ := h.terminal
          exact {
            wellFormed := List.forall_mem_cons.2 ⟨⟨p, hp⟩, h.wellFormed⟩
            terminal := ⟨e, List.mem_cons_of_mem _ he, hterminal⟩
            quiet := List.pairwise_cons.2 ⟨fun _ _ hevent ↦ absurd hevent hnot, h.quiet⟩ }
        · obtain ⟨e, he, hterminal⟩ := h.terminal
          refine ⟨(List.forall_mem_cons.1 h.wellFormed).2, ?_, (List.pairwise_cons.1 h.quiet).2⟩
          rcases List.mem_cons.1 he with rfl | he
          · exact absurd hterminal hnot
          · exact ⟨e, he, hterminal⟩

end SseDecoder

/-! ### The decoders -/

/-- The decoders of the connectors, whatever they read out of an event. -/
inductive IsDecoder : SseDecoder → Prop
  | groq (terminal : Terminal) (extractDelta : Value → Except SseError (Option Text)) :
    IsDecoder (groq terminal extractDelta)
  | zai (extractDelta : Value → Except SseError (Option Text)) : IsDecoder (zai extractDelta)
  | sambanova : IsDecoder sambanova

/-- What an event is parsed as: nothing, a terminal event, or a delta that may be missing. -/
inductive SseParsed.Made (event : Bool) : SseParsed → Prop
  | nothing : Made event {}
  | terminal : Made event ⟨event, true, none⟩
  | ofDelta (delta : Option Text) : Made event (.ofDelta event delta)

theorem SseParsed.Made.of_value {extractDelta : Value → Except SseError (Option Text)}
    {value : Value} {event : Bool} {p : SseParsed}
    (h : (do return .ofDelta event (← extractDelta value)) = Except.ok p) : p.Made event := by
  obtain ⟨delta, -, h⟩ := Except.bind_ok h
  cases h
  exact .ofDelta delta

theorem SseParsed.Made.of_data {extractDelta : Value → Except SseError (Option Text)}
    {e : SseError} {data : Text} {event : Bool} {p : SseParsed}
    (h : (match parse data with
      | none => throw e
      | some value => do return .ofDelta event (← extractDelta value)) = Except.ok p) :
    p.Made event := by
  cases hvalue : parse data with
  | none =>
    rw [hvalue] at h
    cases h
  | some value =>
    rw [hvalue] at h
    exact .of_value h

theorem made_of_groqEvent {terminal : Terminal}
    {extractDelta : Value → Except SseError (Option Text)} {event : List Char} {p : SseParsed}
    (h : groqEvent terminal extractDelta event = .ok p) : p.Made true := by
  obtain ⟨data, -, h⟩ := Except.bind_ok h
  cases data with
  | none =>
    cases h
    exact .nothing
  | some data =>
    dsimp only at h
    split_ifs at h with hdone hterminal hresponses
    · cases h
      exact .terminal
    · cases hvalue : parse data with
      | none =>
        rw [hvalue] at h
        cases h
      | some value =>
        rw [hvalue] at h
        obtain ⟨body, -, h⟩ := Except.bind_ok h
        split_ifs at h with htype
        · cases h
          exact .terminal
        · exact .of_value h
    · exact .of_data h

theorem made_of_zaiEvent {extractDelta : Value → Except SseError (Option Text)}
    {event : List Char} {p : SseParsed} (h : zaiEvent extractDelta event = .ok p) :
    p.Made false := by
  obtain ⟨data, -, h⟩ := Except.bind_ok h
  cases data with
  | none =>
    cases h
    exact .nothing
  | some data =>
    dsimp only at h
    split_ifs at h with hdone
    · cases h
      exact .terminal
    · exact .of_data h

theorem made_of_sambanovaEvent {event : List Char} {p : SseParsed}
    (h : sambanovaEvent event = .ok p) : p.Made false := by
  obtain ⟨data, -, h⟩ := Except.bind_ok h
  cases data with
  | none =>
    cases h
    exact .nothing
  | some data =>
    dsimp only at h
    split_ifs at h with hdone
    · cases h
      exact .terminal
    · exact .of_data h

theorem SseParsed.Made.delta_of_done {event : Bool} {p : SseParsed} (h : p.Made event)
    (hdone : p.done = true) : p.delta = none := by
  cases h with
  | nothing => rfl
  | terminal => rfl
  | ofDelta delta => cases hdone

theorem SseParsed.Made.event_of_delta {event : Bool} {p : SseParsed} (h : p.Made event)
    (hdelta : p.delta.isSome) : p.event = event := by
  cases h with
  | nothing => cases hdelta
  | terminal => rfl
  | ofDelta delta => rfl

theorem IsDecoder.lawful {D : SseDecoder} (h : IsDecoder D) : D.Lawful := by
  cases h with
  | groq terminal extractDelta =>
    exact {
      accepts := fun _ ↦ rfl
      silent := fun h hdone ↦ (made_of_groqEvent h).delta_of_done hdone
      refuses := fun h hdelta ↦ (made_of_groqEvent h).event_of_delta hdelta }
  | zai extractDelta =>
    exact {
      accepts := fun _ ↦ rfl
      silent := fun h hdone ↦ (made_of_zaiEvent h).delta_of_done hdone
      refuses := fun {_ p} _ hdelta ↦ by simp [Sse.zai, hdelta] }
  | sambanova =>
    refine {
      accepts := fun {_ p} h ↦ ?_
      silent := fun h hdone ↦ (made_of_sambanovaEvent h).delta_of_done hdone
      refuses := fun _ hdelta ↦ hdelta }
    cases hdone : p.done with
    | true => simp [Sse.sambanova, (made_of_sambanovaEvent h).delta_of_done hdone]
    | false => simp [Sse.sambanova, hdone]

/-- **A body decides what is yielded and how it ends, not its chunks.** Nothing is yielded from a
terminal event on, and a decoder completes exactly when the events are complete. -/
theorem decodeSse_of_events {D : SseDecoder} (h : IsDecoder D) :
    (∀ chunks chunks' : List (List UInt8), chunks.flatten = chunks'.flatten →
      D.decodeSse chunks = D.decodeSse chunks') ∧
    (∀ (chunks : List (List UInt8)) (before after : List (List Char)) (event : List Char),
      sseEvents (textOfBytes chunks.flatten) = before ++ event :: after → D.IsTerminal event →
        (D.decodeSse chunks).deltas = (D.run {} before).deltas) ∧
    ∀ chunks : List (List UInt8), (D.decodeSse chunks).outcome = .completed ↔
      D.Complete (sseEvents (textOfBytes chunks.flatten)) := by
  refine ⟨fun chunks chunks' hflatten ↦ ?_, fun chunks before after event hevents hterminal ↦ ?_,
    fun chunks ↦ ?_⟩
  · rw [SseDecoder.decodeSse_eq_run, SseDecoder.decodeSse_eq_run, hflatten]
  · rw [SseDecoder.decodeSse_eq_run, hevents]
    exact SseDecoder.run_deltas_of_terminal h.lawful hterminal
  · rw [SseDecoder.decodeSse_eq_run]
    exact SseDecoder.completed_iff h.lawful rfl

theorem SseDecoder.complete_pair {D : SseDecoder} {delta event : List Char} {p q : SseParsed}
    (hdelta : D.parseSseEvent delta = .ok p) (hnot : p.done = false)
    (hevent : D.parseSseEvent event = .ok q) (hdone : q.done = true) :
    D.Complete [delta, event] where
  wellFormed := List.forall_mem_cons.2 ⟨⟨p, hdelta⟩, List.forall_mem_singleton.2 ⟨q, hevent⟩⟩
  terminal := ⟨event, List.mem_cons_of_mem _ (List.mem_singleton_self _), q, hevent, hdone⟩
  quiet := by
    refine List.pairwise_pair.2 ?_
    rintro ⟨p', hp', hdone'⟩
    cases hdelta.symm.trans hp'
    rw [hnot] at hdone'
    cases hdone'

/-- The bytes of an event and the empty line after it. -/
def sseBytes (event : String) : List UInt8 :=
  (event ++ "\n\n").toList.map fun c ↦ UInt8.ofNat c.toNat

/-- `data: [DONE]` and an empty line, as bytes. -/
def doneEvent : List UInt8 :=
  sseBytes "data: [DONE]"

/-- An event with a piece of a transcript. -/
def audioEvent : String :=
  "data: \x7b\"type\":\"transcript.text.delta\",\"delta\":\"hi\"\x7d"

/-- An event with a piece of an answer in a chat. -/
def chatEvent : String :=
  "data: \x7b\"choices\":[\x7b\"delta\":\x7b\"content\":\"hi\"\x7d\x7d]\x7d"

/-- An event with a piece of a response of Groq. -/
def responseEvent : String :=
  "data: \x7b\"type\":\"response.output_text.delta\",\"delta\":\"hi\"\x7d"

/-- The terminal event of a response of Groq. -/
def completedEvent : String :=
  "data: \x7b\"type\":\"response.completed\"\x7d"

/-- A body of two events is cut inside the first one: the delta is yielded, and the stream
completes. -/
def CutInDelta (D : SseDecoder) (delta terminal : String) : Prop :=
  let body := sseBytes delta ++ sseBytes terminal
  D.decodeSse [body.take 9, body.drop 9] = D.decodeSse [body] ∧
    (D.decodeSse [body]).deltas = [ascii "hi"] ∧ (D.decodeSse [body]).outcome = .completed

/-- A transcript and an answer of Z.AI, and a response of Groq. -/
theorem decodeSse_of_events_delta : CutInDelta (zai zaiAudioDelta) audioEvent "data: [DONE]" ∧
    CutInDelta (zai zaiChatDelta) chatEvent "data: [DONE]" ∧
      CutInDelta (groq .responseCompleted groqResponseDelta) responseEvent completedEvent := by
  have hcut : ∀ {D : SseDecoder} {delta terminal : String} {p q : SseParsed}, IsDecoder D →
      sseEvents (textOfBytes [sseBytes delta ++ sseBytes terminal].flatten) =
        [delta.toList, terminal.toList] →
      D.parseSseEvent delta.toList = .ok p → p.done = false →
      D.parseSseEvent terminal.toList = .ok q → q.done = true →
      (D.run {} [delta.toList]).deltas = [ascii "hi"] → CutInDelta D delta terminal := by
    intro D delta terminal p q hD hevents hdelta hnot hterminal hdone hrun
    have h := decodeSse_of_events hD
    have hbody : ∀ body : List UInt8, [body.take 9, body.drop 9].flatten = [body].flatten := by
      simp
    have hdeltas := h.2.1 _ [delta.toList] [] _ hevents ⟨q, hterminal, hdone⟩
    exact ⟨h.1 _ _ (hbody _), hdeltas.trans hrun,
      (h.2.2 _).2 (hevents ▸ SseDecoder.complete_pair hdelta hnot hterminal hdone)⟩
  refine ⟨?_, ?_, ?_⟩
  · exact hcut (.zai _) (by decide +kernel) (p := ⟨false, false, some (ascii "hi")⟩)
      (by decide +kernel) rfl (q := ⟨false, true, none⟩) (by decide +kernel) rfl (by decide +kernel)
  · exact hcut (.zai _) (by decide +kernel) (p := ⟨false, false, some (ascii "hi")⟩)
      (by decide +kernel) rfl (q := ⟨false, true, none⟩) (by decide +kernel) rfl (by decide +kernel)
  · exact hcut (.groq _ _) (by decide +kernel) (p := ⟨true, false, some (ascii "hi")⟩)
      (by decide +kernel) rfl (q := ⟨true, true, none⟩) (by decide +kernel) rfl (by decide +kernel)

/-- An event after `[DONE]` fails the stream, though a terminal event was seen. -/
theorem event_after_done : ¬∀ (D : SseDecoder), IsDecoder D → ∀ chunks : List (List UInt8),
    ((D.decodeSse chunks).outcome = .completed ↔
      ∃ event ∈ sseEvents (textOfBytes chunks.flatten), D.IsTerminal event) := by
  intro h
  have hcompleted := (h (groq .done groqChatDelta) (.groq _ _) [doneEvent ++ doneEvent]).2
    ⟨"data: [DONE]".toList, by decide +kernel, { event := true, done := true },
      by decide +kernel, rfl⟩
  exact absurd hcompleted (by decide +kernel)

end ModelConnector.Connectors.Sse
