import ModelConnector.Connectors.StrictStream

/-!
# Chunks of a strict stream

What `DeepSeekStrictStream.stream` makes of an answer depends on how the network cuts it. The
limits on the bytes and on the text that is not taken apart are checked for a whole chunk before
its events are, the decoder refuses a chunk before its events are read, and the text behind
`[DONE]` is looked at only when it came with it. `chunking_iff` says for which bytes none of this
shows: those that fit both limits, decode, and have nothing behind the event that ends them, and
those of which no cut lets an event through before the same limit or byte stops them.
-/

namespace ModelConnector.Connectors.StrictStream

open StrictContract

variable {parse : String → Option Json} {body : StrictChatBody} {s s' : StreamState}
  {p p' : Progress} {a c : List UInt8} {text text' rest : List Char}

/-! ### Comments -/

/-- The pass over the events of a text, up to the first that is no comment. -/
def skipComments (text : List Char) : Unit × Drained Unit × List Char :=
  events.drain (fun _ event ↦ if eventLines event = [] then .next () else .done) () text

/-- All complete events of a text are comments, and this is what follows them. -/
def OnlyComments (text rest : List Char) : Prop :=
  skipComments text = ((), .waiting, rest)

/-- An event that is no comment is told from a comment by what is yielded. -/
theorem onEvent_next {event : List Char} (h : onEvent parse body p event = .next p') :
    eventLines event = [] ∧ p' = p ∨
      eventLines event ≠ [] ∧ p.yielded.length < p'.yielded.length := by
  unfold onEvent at h
  dsimp only at h
  split_ifs at h with hcomment hframe hdone hfinish hfinal
  · cases h
    exact .inl ⟨hcomment, rfl⟩
  · refine .inr ⟨hcomment, ?_⟩
    split at h
    · cases h
    · split at h
      · cases h
      · cases h
        simp

theorem onEvent_comment {event : List Char} (h : eventLines event = []) :
    onEvent parse body p event = .next p := by
  unfold onEvent
  dsimp only
  rw [if_pos h]

theorem drain_of_onlyComments (h : OnlyComments text rest) :
    events.drain (onEvent parse body) p text = (p, .waiting, rest) := by
  unfold OnlyComments skipComments at h
  generalize hu : () = u at h
  induction u, text using Framing.drain_induction events
    (fun _ event ↦ (if eventLines event = [] then .next () else .done : Answer Unit Unit)) with
  | none u buffer hnext =>
    rw [Framing.drain_of_none hnext] at h
    cases h
    exact Framing.drain_of_none hnext
  | next u buffer frame rest' u' hnext hhandle ih =>
    rw [Framing.drain_of_next hnext hhandle] at h
    split_ifs at hhandle with hcomment
    rw [Framing.drain_of_next hnext (onEvent_comment hcomment)]
    exact ih rfl h
  | done u buffer frame rest' hnext hhandle =>
    rw [Framing.drain_of_done hnext hhandle] at h
    cases h
  | failed u buffer frame rest' e hnext hhandle =>
    rw [Framing.drain_of_failed hnext hhandle] at h
    cases h

/-- Yielding is not taken back, and a pass that yields nothing sees comments only. -/
theorem drain_yielded {drained : Drained EventError}
    (h : events.drain (onEvent parse body) p text = (p', drained, rest)) :
    p.yielded.length ≤ p'.yielded.length ∧
      (p'.yielded.length = p.yielded.length → drained = .waiting →
        p' = p ∧ OnlyComments text rest) := by
  induction p, text using Framing.drain_induction events (onEvent parse body) with
  | none p buffer hnext =>
    rw [Framing.drain_of_none hnext] at h
    cases h
    exact ⟨Nat.le_refl _, fun _ _ ↦ ⟨rfl, Framing.drain_of_none hnext⟩⟩
  | next p buffer frame rest' p₁ hnext hhandle ih =>
    rw [Framing.drain_of_next hnext hhandle] at h
    obtain ⟨hle, hquiet⟩ := ih h
    rcases onEvent_next hhandle with ⟨hcomment, rfl⟩ | ⟨-, hlt⟩
    · refine ⟨hle, fun hlength hwaiting ↦ ?_⟩
      obtain ⟨rfl, hrest⟩ := hquiet hlength hwaiting
      exact ⟨rfl, (Framing.drain_of_next hnext (if_pos hcomment)).trans hrest⟩
    · exact ⟨by omega, fun hlength ↦ absurd hlength (by omega)⟩
  | done p buffer frame rest' hnext hhandle =>
    rw [Framing.drain_of_done hnext hhandle] at h
    cases h
    exact ⟨Nat.le_refl _, fun _ hwaiting ↦ (by cases hwaiting)⟩
  | failed p buffer frame rest' e hnext hhandle =>
    rw [Framing.drain_of_failed hnext hhandle] at h
    cases h
    exact ⟨Nat.le_refl _, fun _ hwaiting ↦ (by cases hwaiting)⟩

/-- An answer is over only when it has a finish. -/
theorem finish_of_done (h : events.drain (onEvent parse body) p text = (p', .done, rest)) :
    p'.finish ≠ none := by
  obtain ⟨frame, hframe⟩ := Framing.exists_frame_of_done h
  unfold onEvent at hframe
  dsimp only at hframe
  split_ifs at hframe with hcomment hdata hdone hfinish hfinal
  · exact hfinish
  · split at hframe
    · cases hframe
    · split at hframe <;> cases hframe

theorem onlyComments_prefix (h : OnlyComments (text ++ text') rest) :
    ∃ rest', OnlyComments text rest' := by
  unfold OnlyComments skipComments at h ⊢
  rw [Framing.drain_append] at h
  split at h
  · rename_i u rest' heq
    exact ⟨rest', heq⟩
  · cases h
  · cases h

/-! ### Lengths -/

theorem byteLength_append : byteLength (text ++ text') = byteLength text + byteLength text' := by
  simp [byteLength]

theorem byteLength_le_of_suffix (h : text <:+ text') : byteLength text ≤ byteLength text' := by
  obtain ⟨start, rfl⟩ := h
  rw [byteLength_append]
  exact Nat.le_add_left _ _

/-! ### One chunk -/

/-- The state after the bytes `a`, of which no event has ended the stream. -/
structure At (parse : String → Option Json) (body : StrictChatBody) (a : List UInt8)
    (text : List Char) (s : StreamState) : Prop where
  bytes : s.bytes = a.length
  decoded : ({} : TextDecoder).decode a = some (s.decoder, text)
  drained : events.drain (onEvent parse body) {} text = (s.progress, .waiting, s.buffer)

theorem at_start : At parse body [] [] {} where
  bytes := rfl
  decoded := rfl
  drained := Framing.drain_of_none rfl

theorem At.buffer_suffix (h : At parse body a text s) : s.buffer <:+ text :=
  Framing.suffix_of_drain h.drained

/-- A chunk that fits the limit on bytes and can be decoded, after the bytes before it. -/
theorem At.decode_chunk {decoder : TextDecoder} (h : At parse body a text s)
    (hdecode : ({} : TextDecoder).decode (a ++ c) = some (decoder, text')) :
    ∃ added, s.decoder.decode c = some (decoder, added) ∧ text' = text ++ added := by
  obtain ⟨d, t₁, added, hfirst, hsecond, rfl⟩ := TextDecoder.decode_append_eq_some hdecode
  obtain ⟨rfl, rfl⟩ := Prod.mk.inj (Option.some.inj (h.decoded.symm.trans hfirst))
  exact ⟨added, hsecond, rfl⟩

theorem At.readChunk_tooLong (h : At parse body a text s)
    (hlong : body.output_byte_bound < (a ++ c).length) :
    readChunk parse body s c = (s, .failed .outputOverflow) := by
  rw [List.length_append, ← h.bytes] at hlong
  simp only [readChunk, if_pos hlong]

theorem At.readChunk_undecodable (h : At parse body a text s)
    (hfits : (a ++ c).length ≤ body.output_byte_bound)
    (hdecode : ({} : TextDecoder).decode (a ++ c) = none) :
    readChunk parse body s c = (s, .failed .undecodable) := by
  rw [List.length_append, ← h.bytes] at hfits
  rw [TextDecoder.decode_append, h.decoded, Option.bind_some, Option.map_eq_none_iff] at hdecode
  simp only [readChunk, if_neg (Nat.not_lt.2 hfits), hdecode]

theorem At.readChunk_overlong {decoder : TextDecoder} {added : List Char}
    (h : At parse body a text s) (hfits : (a ++ c).length ≤ body.output_byte_bound)
    (hdecode : s.decoder.decode c = some (decoder, added))
    (hlong : 65536 < byteLength (s.buffer ++ added)) :
    readChunk parse body s c = (s, .failed .eventOverflow) := by
  rw [List.length_append, ← h.bytes] at hfits
  simp only [readChunk, if_neg (Nat.not_lt.2 hfits), hdecode, if_pos hlong]

/-- A chunk that passes all limits. -/
theorem At.readChunk_eq {decoder : TextDecoder} {added : List Char}
    {drained : Drained EventError} (h : At parse body a text s)
    (hfits : (a ++ c).length ≤ body.output_byte_bound)
    (hdecode : s.decoder.decode c = some (decoder, added))
    (hshort : byteLength (s.buffer ++ added) ≤ 65536)
    (hdrain : events.drain (onEvent parse body) s.progress (s.buffer ++ added) =
      (p, drained, rest)) :
    readChunk parse body s c = (⟨(a ++ c).length, decoder, rest, p⟩, stopped drained) := by
  rw [List.length_append, ← h.bytes] at *
  simp only [readChunk, if_neg (Nat.not_lt.2 hfits), hdecode, if_neg (Nat.not_lt.2 hshort), hdrain]

/-- The events of a text, from the state after a part of it. -/
theorem At.drain_append {added : List Char} (h : At parse body a text s) :
    events.drain (onEvent parse body) {} (text ++ added) =
      events.drain (onEvent parse body) s.progress (s.buffer ++ added) := by
  rw [Framing.drain_append, h.drained]

/-- A chunk that lets the stream go on. -/
theorem At.next {decoder : TextDecoder} {added : List Char} (h : At parse body a text s)
    (hdecode : s.decoder.decode c = some (decoder, added))
    (hdrain : events.drain (onEvent parse body) s.progress (s.buffer ++ added) =
      (p, .waiting, rest)) :
    At parse body (a ++ c) (text ++ added) ⟨(a ++ c).length, decoder, rest, p⟩ where
  bytes := rfl
  decoded := TextDecoder.decode_append_of h.decoded hdecode
  drained := h.drain_append.trans hdrain

/-! ### Answers that fit -/

/-- The bytes pass every limit at once. -/
structure Fits (body : StrictChatBody) (bytes : List UInt8) (decoder : TextDecoder)
    (text : List Char) : Prop where
  length : bytes.length ≤ body.output_byte_bound
  decoded : ({} : TextDecoder).decode bytes = some (decoder, text)
  short : byteLength text ≤ 65536

/-- What a chunk does to an answer that fits. -/
theorem Fits.read {decoder : TextDecoder} {remaining : List UInt8}
    (hf : Fits body (a ++ c ++ remaining) decoder text') (h : At parse body a text s) :
    ∃ added later d drained rest p, text' = text ++ added ++ later ∧
      s.decoder.decode c = some (d, added) ∧
      events.drain (onEvent parse body) s.progress (s.buffer ++ added) = (p, drained, rest) ∧
      readChunk parse body s c = (⟨(a ++ c).length, d, rest, p⟩, stopped drained) := by
  obtain ⟨d, t₁, later, hfirst, -, rfl⟩ := TextDecoder.decode_append_eq_some hf.decoded
  obtain ⟨added, hadded, rfl⟩ := h.decode_chunk hfirst
  have hlength := hf.length
  have hshort := hf.short
  have hbuffer := byteLength_le_of_suffix h.buffer_suffix
  rw [List.length_append] at hlength
  simp only [byteLength_append] at hshort
  rcases hd : events.drain (onEvent parse body) s.progress (s.buffer ++ added) with
    ⟨p, drained, rest⟩
  refine ⟨added, later, d, drained, rest, p, rfl, hadded, hd, h.readChunk_eq (by omega) hadded ?_ hd⟩
  rw [byteLength_append]
  omega

/-- **An answer that fits is read as a whole**, but for the text behind the event that ends it. -/
theorem Fits.run_eq {decoder : TextDecoder} {bytes : List UInt8}
    (hf : Fits body bytes decoder text') : ∀ (chunks : List (List UInt8)) {a : List UInt8}
    {text : List Char} {s : StreamState}, a ++ chunks.flatten = bytes → At parse body a text s →
    match events.drain (onEvent parse body) {} text' with
    | (p, .waiting, _) => run parse body s chunks =
      ⟨p.yielded, .error (if decoder.complete then .truncated else .undecodable)⟩
    | (p, .done, trailing) => ∃ bytes d buffer, buffer <+: trailing ∧
      run parse body s chunks =
        ⟨p.yielded, finishStream parse body ⟨bytes, d, buffer, p⟩⟩
    | (p, .failed e, _) => run parse body s chunks = ⟨p.yielded, .error (.event e)⟩ := by
  intro chunks
  induction chunks with
  | nil =>
    intro a text s heq h
    rw [List.flatten_nil, List.append_nil] at heq
    subst heq
    obtain ⟨rfl, rfl⟩ := Prod.mk.inj (Option.some.inj (h.decoded.symm.trans hf.decoded))
    rw [h.drained]
    rfl
  | cons c chunks ih =>
    intro a text s heq h
    rw [List.flatten_cons, ← List.append_assoc] at heq
    obtain ⟨added, later, d, drained, rest, p, rfl, hadded, hd, hread⟩ :=
      Fits.read (heq ▸ hf) h
    rw [run, hread]
    cases drained with
    | waiting => exact ih heq (h.next hadded hd)
    | done =>
      rw [Framing.drain_append, h.drain_append, hd]
      exact ⟨_, d, rest, List.prefix_append rest later, rfl⟩
    | failed e =>
      rw [Framing.drain_append, h.drain_append, hd]
      rfl

/-- Byte by byte, nothing is behind the event that ends an answer. -/
theorem Fits.run_singletons {decoder : TextDecoder} {bytes : List UInt8} {trailing : List Char}
    (hf : Fits body bytes decoder text')
    (hdone : events.drain (onEvent parse body) {} text' = (p, .done, trailing)) :
    ∀ (remaining : List UInt8) {a : List UInt8} {text : List Char} {s : StreamState},
      a ++ remaining = bytes → At parse body a text s →
      ∃ bytes d, run parse body s (remaining.map fun b ↦ [b]) =
        ⟨p.yielded, finishStream parse body ⟨bytes, d, [], p⟩⟩ := by
  intro remaining
  induction remaining with
  | nil =>
    intro a text s heq h
    rw [List.append_nil] at heq
    subst heq
    obtain ⟨-, rfl⟩ := Prod.mk.inj (Option.some.inj (h.decoded.symm.trans hf.decoded))
    rw [h.drained] at hdone
    cases hdone
  | cons b remaining ih =>
    intro a text s heq h
    have heq' : a ++ [b] ++ remaining = bytes := by
      rw [List.append_assoc, List.singleton_append, heq]
    obtain ⟨added, later, d, drained, rest, p', rfl, hadded, hd, hread⟩ :=
      Fits.read (heq'.symm ▸ hf) h
    rw [List.map_cons, run, hread]
    cases drained with
    | waiting => exact ih heq' (h.next hadded hd)
    | done =>
      rw [Framing.drain_append, h.drain_append, hd] at hdone
      cases hdone
      have hone := TextDecoder.length_decode_singleton_le hadded
      have hrest : rest = [] := by
        have hnext := Framing.next_of_waiting h.drained
        match added, hone with
        | [], _ =>
          rw [List.append_nil, Framing.drain_of_none hnext] at hd
          cases hd
        | [x], _ => exact Framing.rest_eq_nil_of_stopped hnext hd (by rintro ⟨⟩)
      exact ⟨_, d, by rw [hrest]; rfl⟩
    | failed e =>
      rw [Framing.drain_append, h.drain_append, hd] at hdone
      cases hdone

/-! ### Answers that let nothing through -/

/-- The bytes decode to a text that fits and holds comments only. -/
structure Silent (body : StrictChatBody) (bytes : List UInt8) (decoder : TextDecoder)
    (text rest : List Char) : Prop extends Fits body bytes decoder text where
  silent : OnlyComments text rest

/-- A state in which nothing was yielded. -/
theorem At.silent (h : At parse body a text s) (hyielded : s.progress.yielded = []) :
    s.progress = {} ∧ OnlyComments text s.buffer :=
  (drain_yielded h.drained).2 (by rw [hyielded]) rfl

/-- What was yielded stays yielded. -/
theorem yielded_le_run : ∀ (chunks : List (List UInt8)) (s : StreamState),
    s.progress.yielded.length ≤ (run parse body s chunks).events.length := by
  intro chunks
  induction chunks with
  | nil => exact fun _ ↦ Nat.le_refl _
  | cons c chunks ih =>
    intro s
    have hread : ∀ s' drained, readChunk parse body s c = (s', drained) →
        s.progress.yielded.length ≤ s'.progress.yielded.length := by
      intro s' drained hread
      simp only [readChunk] at hread
      split_ifs at hread
      · cases hread
        exact Nat.le_refl _
      · split at hread
        · cases hread
          exact Nat.le_refl _
        · split_ifs at hread
          · cases hread
            exact Nat.le_refl _
          · cases hread
            exact (drain_yielded rfl).1
    rw [run]
    rcases hstep : readChunk parse body s c with ⟨s', drained⟩
    have hle := hread s' drained hstep
    cases drained with
    | waiting => exact hle.trans (ih s')
    | done | failed => exact hle

/-- Behind bytes that let nothing through every chunk fails: so does the stream, cut anyhow. -/
theorem Silent.run_eq {bytes silent : List UInt8} {decoder : TextDecoder} {e : StreamError}
    (hsilent : Silent body silent decoder text' rest) (hbytes : silent <+: bytes)
    (hlonger : silent.length < bytes.length)
    (hfail : ∀ {a c : List UInt8} {text : List Char} {s : StreamState}, At parse body a text s →
      a ++ c <+: bytes → silent.length < (a ++ c).length →
        readChunk parse body s c = (s, .failed e)) :
    ∀ (chunks : List (List UInt8)) {a : List UInt8} {text : List Char} {s : StreamState},
      a ++ chunks.flatten = bytes → a <+: silent → At parse body a text s →
      run parse body s chunks = ⟨[], .error e⟩ := by
  intro chunks
  induction chunks with
  | nil =>
    intro a text s heq ha h
    rw [List.flatten_nil, List.append_nil] at heq
    have hle := ha.length_le
    rw [heq] at hle
    omega
  | cons c chunks ih =>
    intro a text s heq ha h
    obtain ⟨beyond, hbeyond⟩ := ha
    have hcomments : ∃ rest', OnlyComments text rest' := by
      obtain ⟨d, t₁, t₂, hfirst, -, heq⟩ := TextDecoder.decode_append_eq_some
        (hbeyond ▸ hsilent.decoded)
      obtain ⟨-, rfl⟩ := Prod.mk.inj (Option.some.inj (h.decoded.symm.trans hfirst))
      exact onlyComments_prefix (heq ▸ hsilent.silent)
    obtain ⟨rest', hcomments⟩ := hcomments
    have hprogress : s.progress = {} := by
      have hdrained := (drain_of_onlyComments hcomments).symm.trans h.drained
      exact (congrArg Prod.fst hdrained).symm
    rw [List.flatten_cons, ← List.append_assoc] at heq
    have hprefix : a ++ c <+: bytes := ⟨_, heq⟩
    by_cases hlt : silent.length < (a ++ c).length
    · rw [run, hfail h hprefix hlt]
      simp only [hprogress]
    · obtain ⟨remaining, hremaining⟩ := List.prefix_of_prefix_length_le hprefix hbytes (by omega)
      obtain ⟨added, later, d, drained, rest₁, p, htext, hadded, hd, hread⟩ :=
        Fits.read (hremaining.symm ▸ hsilent.toFits) h
      obtain ⟨rest₂, hquiet⟩ := onlyComments_prefix (htext ▸ hsilent.silent)
      have hdrained := (drain_of_onlyComments hquiet).symm.trans (h.drain_append.trans hd)
      cases hdrained
      rw [run, hread]
      exact ih heq ⟨remaining, hremaining⟩ (h.next hadded hd)

/-- What is thrown after the loop. -/
theorem finishStream_error {e : StreamError} (h : finishStream parse body s = .error e) :
    e = .truncated ∨ ∃ e', e = .event e' := by
  unfold finishStream at h
  split at h
  · cases h
    exact .inl rfl
  · split_ifs at h
    · rename_i finish _ _
      cases hcomplete : complete parse body s.progress finish s.bytes with
      | ok summary => rw [hcomplete] at h; cases h
      | error e' =>
        rw [hcomplete] at h
        cases h
        exact .inr ⟨e', rfl⟩
    · cases h
      exact .inl rfl

/-- A text in which, behind comments, something grows longer than an event may be. -/
def Overlong (text : List Char) : Prop :=
  ∃ start c more rest, text = start ++ c :: more ∧ OnlyComments start rest ∧
    65536 < byteLength (rest ++ [c])

/-- An event that is too long stops the stream, cut anyhow. -/
theorem Overlong.run_eq {bytes : List UInt8} {decoder : TextDecoder} {start more : List Char}
    {x : Char} (hlength : bytes.length ≤ body.output_byte_bound)
    (hdecode : ({} : TextDecoder).decode bytes = some (decoder, start ++ x :: more))
    (hcomments : OnlyComments start rest) (hlong : 65536 < byteLength (rest ++ [x])) :
    ∀ (chunks : List (List UInt8)) {a : List UInt8} {text : List Char} {s : StreamState},
      a ++ chunks.flatten = bytes → text <+: start → At parse body a text s →
      run parse body s chunks = ⟨[], .error .eventOverflow⟩ := by
  intro chunks
  induction chunks with
  | nil =>
    intro a text s heq ht h
    rw [List.flatten_nil, List.append_nil] at heq
    obtain ⟨-, rfl⟩ := Prod.mk.inj (Option.some.inj (h.decoded.symm.trans (heq ▸ hdecode)))
    have hle := ht.length_le
    simp at hle
  | cons c chunks ih =>
    intro a text s heq ht h
    rw [List.flatten_cons, ← List.append_assoc] at heq
    obtain ⟨beyond, rfl⟩ := ht
    obtain ⟨rest', hquiet⟩ := onlyComments_prefix hcomments
    have hdrained := (drain_of_onlyComments hquiet).symm.trans h.drained
    have hprogress : s.progress = {} := (congrArg Prod.fst hdrained).symm
    have hfits : (a ++ c).length ≤ body.output_byte_bound := by
      rw [← heq, List.length_append] at hlength
      omega
    obtain ⟨d, t₁, later, hfirst, -, htext⟩ := TextDecoder.decode_append_eq_some (heq ▸ hdecode)
    obtain ⟨added, hadded, rfl⟩ := h.decode_chunk hfirst
    by_cases hover : 65536 < byteLength (s.buffer ++ added)
    · rw [run, h.readChunk_overlong hfits hadded hover]
      simp only [hprogress]
    · -- the chunk ends before the character that makes the event too long
      have hadded' : added <+: beyond := by
        rw [List.append_assoc, List.append_assoc] at htext
        have hwhole := List.append_cancel_left htext
        rcases List.append_eq_append_iff.1 hwhole with ⟨beyond', hadd, hrest⟩ | ⟨rest₁, hadd, -⟩
        · cases beyond' with
          | nil => exact ⟨[], by rw [hadd, List.append_nil, List.append_nil]⟩
          | cons y beyond' =>
            obtain ⟨rfl, -⟩ := List.cons.inj hrest
            -- what is left of `start` is at the end of what the buffer has of it
            have hstart := (h.drain_append.symm.trans
              (drain_of_onlyComments hcomments) : events.drain _ _ (s.buffer ++ beyond) = _)
            have hsuffix := byteLength_le_of_suffix (Framing.suffix_of_drain hstart)
            rw [hadd, byteLength_append, byteLength_append] at hover
            rw [byteLength_append] at hsuffix hlong
            have hone : byteLength [x] ≤ byteLength (x :: beyond') := by
              rw [← List.singleton_append, byteLength_append]
              exact Nat.le_add_right _ _
            omega
        · exact ⟨rest₁, hadd.symm⟩
      obtain ⟨beyond', rfl⟩ := hadded'
      rw [← List.append_assoc] at hcomments
      obtain ⟨rest₂, hquiet'⟩ := onlyComments_prefix hcomments
      have hd := h.drain_append.symm.trans (drain_of_onlyComments hquiet')
      rw [hprogress] at hd
      rw [run, h.readChunk_eq hfits hadded (Nat.not_lt.1 hover) (hprogress ▸ hd)]
      exact ih heq ⟨beyond', by rw [List.append_assoc]⟩ (h.next hadded (hprogress ▸ hd))

/-- Byte by byte, an event that is too long has only comments in front when nothing is yielded. -/
theorem overlong_of_run_singletons {bytes : List UInt8} {decoder : TextDecoder}
    (hlength : bytes.length ≤ body.output_byte_bound)
    (hdecode : ({} : TextDecoder).decode bytes = some (decoder, text')) :
    ∀ (remaining : List UInt8) {a : List UInt8} {text : List Char} {s : StreamState},
      a ++ remaining = bytes → byteLength s.buffer ≤ 65536 → At parse body a text s →
      run parse body s (remaining.map fun b ↦ [b]) = ⟨[], .error .eventOverflow⟩ →
      Overlong text' := by
  intro remaining
  induction remaining with
  | nil =>
    intro a text s heq hshort h hrun
    rw [List.map_nil, run] at hrun
    have herror := Except.error.inj (congrArg StreamResult.outcome hrun)
    split_ifs at herror
  | cons b remaining ih =>
    intro a text s heq hshort h hrun
    have heq' : a ++ [b] ++ remaining = bytes := by
      rw [List.append_assoc, List.singleton_append, heq]
    have hfits : (a ++ [b]).length ≤ body.output_byte_bound := by
      rw [← heq', List.length_append] at hlength
      omega
    obtain ⟨d, t₁, later, hfirst, -, rfl⟩ := TextDecoder.decode_append_eq_some (heq' ▸ hdecode)
    obtain ⟨added, hadded, rfl⟩ := h.decode_chunk hfirst
    have hyielded : s.progress.yielded = [] := by
      have hle : s.progress.yielded.length ≤
          (run parse body s ((b :: remaining).map fun b ↦ [b])).events.length :=
        yielded_le_run _ s
      rw [hrun] at hle
      exact List.length_eq_zero_iff.1 (Nat.le_zero.1 hle)
    obtain ⟨hprogress, hcomments⟩ := h.silent hyielded
    -- a byte completes at most one character, so that the buffer overflows at a single one
    by_cases hover : 65536 < byteLength (s.buffer ++ added)
    · have hone := TextDecoder.length_decode_singleton_le hadded
      match added, hone with
      | [], _ =>
        rw [List.append_nil] at hover
        omega
      | [x], _ =>
        refine ⟨text, x, later, s.buffer, ?_, hcomments, hover⟩
        rw [List.append_assoc, List.singleton_append]
    · rcases hd : events.drain (onEvent parse body) s.progress (s.buffer ++ added) with
        ⟨p, drained, rest⟩
      have hread := h.readChunk_eq hfits hadded (Nat.not_lt.1 hover) hd
      rw [List.map_cons, run, hread] at hrun
      cases drained with
      | waiting =>
        refine ih heq' ?_ (h.next hadded hd) hrun
        exact (byteLength_le_of_suffix (Framing.suffix_of_drain hd)).trans (Nat.not_lt.1 hover)
      | done =>
        rcases finishStream_error (congrArg StreamResult.outcome hrun) with herror | ⟨e, herror⟩
        · cases herror
        · cases herror
      | failed e => cases congrArg StreamResult.outcome hrun

/-! ### The result -/

/-- A result but for the count of bytes, which stops with the chunk of `[DONE]`. -/
def StreamResult.uncounted (r : StreamResult) : StreamResult where
  events := r.events
  outcome := r.outcome.map fun summary ↦ { summary with bytes := 0 }

/-- The stream does not depend on how its bytes are cut. -/
def ChunkIndependent (parse : String → Option Json) (body : StrictChatBody)
    (bytes : List UInt8) : Prop :=
  ∀ chunks chunks' : List (List UInt8), chunks.flatten = bytes → chunks'.flatten = bytes →
    (stream parse body chunks).uncounted = (stream parse body chunks').uncounted

/-- The bytes for which the limits, the decoder and the text behind `[DONE]` do not tell the cuts
apart. -/
inductive Indifferent (parse : String → Option Json) (body : StrictChatBody) (bytes : List UInt8) :
    Prop
  /-- The bytes fit, and when the events before a `[DONE]` are accepted only blank text follows. -/
  | fits {decoder : TextDecoder} {text : List Char} : Fits body bytes decoder text →
      (∀ p trailing, events.drain (onEvent parse body) {} text = (p, .done, trailing) →
        trailing.all Number.isWhiteSpace = true) → Indifferent parse body bytes
  /-- There are too many bytes, the first of them hold comments only. -/
  | tooLong {decoder : TextDecoder} {text rest : List Char} :
      body.output_byte_bound < bytes.length →
      Silent body (bytes.take body.output_byte_bound) decoder text rest →
      Indifferent parse body bytes
  /-- A byte cannot be decoded, those before it hold comments only. -/
  | undecodable {silent : List UInt8} {byte : UInt8} {more : List UInt8} {decoder : TextDecoder}
      {text rest : List Char} : bytes.length ≤ body.output_byte_bound →
      bytes = silent ++ byte :: more → Silent body silent decoder text rest →
      ({} : TextDecoder).decode (silent ++ [byte]) = none → Indifferent parse body bytes
  /-- An event is too long, and only comments are before it. -/
  | overlong {decoder : TextDecoder} {text : List Char} :
      bytes.length ≤ body.output_byte_bound →
      ({} : TextDecoder).decode bytes = some (decoder, text) → Overlong text →
      Indifferent parse body bytes

/-- After the loop the buffer matters by its blankness only. -/
theorem finishStream_blank {bytes bytes' : ℕ} {d d' : TextDecoder} {buffer buffer' : List Char}
    (hb : buffer.all Number.isWhiteSpace = true) (hb' : buffer'.all Number.isWhiteSpace = true) :
    (finishStream parse body ⟨bytes, d, buffer, p⟩).map (fun s ↦ { s with bytes := 0 }) =
      (finishStream parse body ⟨bytes', d', buffer', p⟩).map fun s ↦ { s with bytes := 0 } := by
  unfold finishStream
  cases p.finish with
  | none => rfl
  | some finish =>
    simp only [hb, hb', if_true]
    cases finish with
    | stop =>
      simp only [complete]
      cases require (p.tools.isEmpty && p.visible) "strict-empty-completion" <;> rfl
    | tool_calls =>
      simp only [complete]
      cases require (!p.tools.isEmpty) "strict-tool-finish-empty" with
      | error e => rfl
      | ok u =>
        cases (p.tools.map Prod.snd).foldlM (checkCall parse body) [] <;> rfl

theorem finishStream_not_blank {bytes : ℕ} {d : TextDecoder} {buffer : List Char}
    (hb : buffer.all Number.isWhiteSpace = false) :
    finishStream parse body ⟨bytes, d, buffer, p⟩ = .error .truncated := by
  unfold finishStream
  cases p.finish with
  | none => rfl
  | some finish => simp [hb]

/-- An answer that is over, with nothing behind it, is not truncated. -/
theorem finishStream_ne_truncated {bytes : ℕ} {d : TextDecoder} (hfinish : p.finish ≠ none) :
    finishStream parse body ⟨bytes, d, [], p⟩ ≠ .error .truncated := by
  unfold finishStream
  cases hp : p.finish with
  | none => exact absurd hp hfinish
  | some finish =>
    simp only [List.all_nil, if_true]
    cases complete parse body p finish bytes <;> rintro ⟨⟩

theorem flatten_singletons (bytes : List UInt8) : (bytes.map fun b ↦ [b]).flatten = bytes := by
  induction bytes with
  | nil => rfl
  | cons b bytes ih => rw [List.map_cons, List.flatten_cons, ih, List.singleton_append]

/-- Whatever is cut, the stream fails in one way. -/
theorem chunkIndependent_of_run_eq {bytes : List UInt8} {r : StreamResult}
    (h : ∀ chunks : List (List UInt8), chunks.flatten = bytes → stream parse body chunks = r) :
    ChunkIndependent parse body bytes :=
  fun chunks chunks' heq heq' ↦ by rw [h chunks heq, h chunks' heq']

theorem chunkIndependent_of_indifferent {bytes : List UInt8}
    (h : Indifferent parse body bytes) : ChunkIndependent parse body bytes := by
  cases h with
  | @fits decoder text hf hblank =>
    rcases hd : events.drain (onEvent parse body) {} text with ⟨p, drained, trailing⟩
    have hrun := @Fits.run_eq parse body text decoder bytes hf
    rw [hd] at hrun
    cases drained with
    | waiting => exact chunkIndependent_of_run_eq fun chunks heq ↦ hrun chunks heq at_start
    | failed e => exact chunkIndependent_of_run_eq fun chunks heq ↦ hrun chunks heq at_start
    | done =>
      have hall := hblank p trailing hd
      intro chunks chunks' heq heq'
      obtain ⟨n, d, buffer, hprefix, hres⟩ := hrun chunks heq at_start
      obtain ⟨n', d', buffer', hprefix', hres'⟩ := hrun chunks' heq' at_start
      -- what is left in the buffer depends on the chunks, but it is blank
      have hsub : ∀ {buffer : List Char}, buffer <+: trailing →
          buffer.all Number.isWhiteSpace = true := fun hpre ↦
        List.all_eq_true.2 fun c hc ↦ List.all_eq_true.1 hall c (hpre.subset hc)
      rw [stream, stream, hres, hres']
      exact congrArg (StreamResult.mk p.yielded)
        (finishStream_blank (hsub hprefix) (hsub hprefix'))
  | tooLong hlong hsilent =>
    refine chunkIndependent_of_run_eq (r := ⟨[], .error .outputOverflow⟩) fun chunks heq ↦ ?_
    refine hsilent.run_eq (List.take_prefix _ _) ?_ (fun hat hprefix hlt ↦ ?_) chunks heq
      (List.nil_prefix) at_start
    · rw [List.length_take]
      omega
    · rw [List.length_take, Nat.min_eq_left hlong.le] at hlt
      exact hat.readChunk_tooLong hlt
  | @undecodable silent byte more decoder text rest hlength heq hsilent hnone =>
    refine chunkIndependent_of_run_eq (r := ⟨[], .error .undecodable⟩) fun chunks hchunks ↦ ?_
    refine hsilent.run_eq ⟨byte :: more, heq.symm⟩ ?_ (fun hat hprefix hlt ↦ ?_) chunks hchunks
      (List.nil_prefix) at_start
    · rw [heq, List.length_append, List.length_cons]
      omega
    · refine hat.readChunk_undecodable (le_trans (List.IsPrefix.length_le hprefix) hlength) ?_
      have hstart : silent ++ [byte] <+: bytes := by
        exact ⟨more, by rw [heq, List.append_assoc, List.singleton_append]⟩
      obtain ⟨behind, hbehind⟩ := List.prefix_of_prefix_length_le hstart hprefix
        (by rw [List.length_append, List.length_singleton]; omega)
      rw [← hbehind, TextDecoder.decode_append, hnone]
      rfl
  | overlong hlength hdecode hover =>
    obtain ⟨start, c, more, rest, rfl, hcomments, hlong⟩ := hover
    exact chunkIndependent_of_run_eq fun chunks heq ↦
      Overlong.run_eq hlength hdecode hcomments hlong chunks heq List.nil_prefix at_start

/-- A stream that fails in one way, uncounted, fails in that way. -/
theorem eq_error_of_uncounted {r : StreamResult} {e : StreamError}
    (h : r.uncounted = ⟨[], .error e⟩) : r = ⟨[], .error e⟩ := by
  obtain ⟨yielded, outcome⟩ := r
  cases outcome with
  | ok summary => cases congrArg StreamResult.outcome h
  | error e' =>
    cases congrArg StreamResult.outcome h
    cases congrArg StreamResult.events h
    rfl

/-- What follows a chunk. -/
def proceed (parse : String → Option Json) (body : StrictChatBody) (s : StreamState)
    (chunks : List (List UInt8)) : Drained StreamError → StreamResult
  | .waiting => run parse body s chunks
  | .done => ⟨s.progress.yielded, finishStream parse body s⟩
  | .failed e => ⟨s.progress.yielded, .error e⟩

/-- The first chunk of a stream. -/
theorem stream_cons {chunks : List (List UInt8)} {drained : Drained StreamError}
    (h : readChunk parse body {} c = (s, drained)) :
    stream parse body (c :: chunks) = proceed parse body s chunks drained := by
  rw [stream, run, h]
  cases drained <;> rfl

/-- A first chunk that passes the limit on bytes and the decoder holds comments only when the limit
or the decoder stops the stream without an event. -/
theorem silent_of_run_cons {decoder : TextDecoder} {remaining : List UInt8} {e : StreamError}
    (hlength : a.length ≤ body.output_byte_bound)
    (hdecode : ({} : TextDecoder).decode a = some (decoder, text))
    (he : e = .outputOverflow ∨ e = .undecodable)
    (hrun : stream parse body [a, remaining] = ⟨[], .error e⟩) :
    ∃ rest, Silent body a decoder text rest := by
  have hstart : At parse body [] [] {} := at_start
  by_cases hover : 65536 < byteLength text
  · rw [stream_cons (hstart.readChunk_overlong hlength hdecode hover)] at hrun
    cases congrArg StreamResult.outcome hrun
    rcases he with he | he <;> cases he
  · rcases hd : events.drain (onEvent parse body) {} text with ⟨p, drained, rest⟩
    rw [stream_cons (hstart.readChunk_eq hlength hdecode (Nat.not_lt.1 hover) hd)] at hrun
    cases drained with
    | waiting =>
      have hat := hstart.next hdecode hd
      have hle : p.yielded.length ≤
          (run parse body ⟨a.length, decoder, rest, p⟩ [remaining]).events.length :=
        yielded_le_run [remaining] ⟨a.length, decoder, rest, p⟩
      have hevents := congrArg StreamResult.events hrun
      simp only [stopped, proceed, List.nil_append] at hevents
      rw [hevents] at hle
      have hyielded := List.length_eq_zero_iff.1 (Nat.le_zero.1 hle)
      exact ⟨rest, ⟨⟨hlength, hdecode, Nat.not_lt.1 hover⟩, (hat.silent hyielded).2⟩⟩
    | done =>
      rcases finishStream_error (congrArg StreamResult.outcome hrun) with rfl | ⟨e', rfl⟩ <;>
        rcases he with he | he <;> cases he
    | failed e' =>
      cases congrArg StreamResult.outcome hrun
      rcases he with he | he <;> cases he

theorem indifferent_of_chunkIndependent {bytes : List UInt8}
    (h : ChunkIndependent parse body bytes) : Indifferent parse body bytes := by
  have hstart : At parse body [] [] {} := at_start
  -- every cut does what the whole does, where that is an error without events
  have hall : ∀ {e : StreamError}, stream parse body [bytes] = ⟨[], .error e⟩ →
      ∀ chunks : List (List UInt8), chunks.flatten = bytes →
        stream parse body chunks = ⟨[], .error e⟩ := by
    intro e hwhole chunks heq
    refine eq_error_of_uncounted ?_
    rw [h chunks [bytes] heq (by simp), hwhole]
    rfl
  by_cases hlong : body.output_byte_bound < bytes.length
  · have hwhole := hall (stream_cons (hstart.readChunk_tooLong hlong))
    have hcut := hwhole [bytes.take body.output_byte_bound, bytes.drop body.output_byte_bound]
      (by simp)
    have hlength : (bytes.take body.output_byte_bound).length ≤ body.output_byte_bound := by
      rw [List.length_take]
      omega
    cases hdecode : ({} : TextDecoder).decode (bytes.take body.output_byte_bound) with
    | none =>
      rw [stream_cons (hstart.readChunk_undecodable hlength hdecode)] at hcut
      cases congrArg StreamResult.outcome hcut
    | some one =>
      obtain ⟨rest, hsilent⟩ := silent_of_run_cons hlength hdecode (.inl rfl) hcut
      exact .tooLong hlong hsilent
  · have hlength := Nat.not_lt.1 hlong
    cases hdecode : ({} : TextDecoder).decode bytes with
    | none =>
      have hwhole := hall (stream_cons (hstart.readChunk_undecodable hlength hdecode))
      obtain ⟨silent, byte, more, decoder, text, rfl, hsilent, hnone⟩ :=
        TextDecoder.exists_split_of_decode_eq_none hdecode
      rw [List.length_append] at hlength
      obtain ⟨rest, hsilent⟩ := silent_of_run_cons (by omega) hsilent (.inr rfl)
        (hwhole [silent, byte :: more] (by simp))
      exact .undecodable (by rw [List.length_append]; exact hlength) rfl hsilent hnone
    | some one =>
      obtain ⟨decoder, text⟩ := one
      by_cases hover : 65536 < byteLength text
      · have hwhole := hall (stream_cons (hstart.readChunk_overlong hlength hdecode hover))
        exact .overlong hlength hdecode (overlong_of_run_singletons hlength hdecode bytes rfl
          (Nat.zero_le _) hstart (hwhole _ (flatten_singletons bytes)))
      · have hf : Fits body bytes decoder text := ⟨hlength, hdecode, Nat.not_lt.1 hover⟩
        refine .fits hf fun p trailing hdone ↦ ?_
        by_contra hblank
        have hsame := h [bytes] (bytes.map fun b ↦ [b]) (by simp) (flatten_singletons bytes)
        obtain ⟨n, d, hbytes⟩ := hf.run_singletons hdone bytes rfl hstart
        rw [stream_cons (hstart.readChunk_eq hlength hdecode hf.short hdone), stream, hbytes]
          at hsame
        have houtcome := congrArg StreamResult.outcome hsame
        simp only [stopped, proceed, StreamResult.uncounted,
          finishStream_not_blank (Bool.eq_false_iff.2 hblank)] at houtcome
        have hne : finishStream parse body ⟨n, d, [], p⟩ ≠ .error .truncated :=
          finishStream_ne_truncated (finish_of_done hdone)
        cases hfinish : finishStream parse body ⟨n, d, [], p⟩ with
        | ok summary => rw [hfinish] at houtcome; cases houtcome
        | error e =>
          rw [hfinish] at houtcome
          cases houtcome
          exact hne hfinish

/-- **When chunks do not matter.** -/
theorem chunking_iff {bytes : List UInt8} :
    ChunkIndependent parse body bytes ↔ Indifferent parse body bytes :=
  ⟨indifferent_of_chunkIndependent, chunkIndependent_of_indifferent⟩

/-- A request for a short answer. -/
def greeting : StrictChatBody where
  intent := "i"
  attempt := "a"
  generation := "1"
  model := "m"
  capability_sha256 := ""
  admission_sha256 := ""
  rate_sha256 := ""
  checkpoint_sha256 := ""
  deadline_ms := 1
  messages := [.user "hello"]
  tools := none
  tool_choice := none
  thinking := .disabled
  reasoning_effort := none
  max_tokens := 8
  input_token_bound := 8
  output_byte_bound := 4096

/-- The data of its only event. -/
def greetingData : String :=
  "\x7b\"model\":\"m\",\"choices\":[\x7b\"index\":0,\"delta\":" ++
    "\x7b\"content\":\"hi\"\x7d,\"finish_reason\":\"stop\"\x7d]\x7d"

/-- `JSON.parse` on that data. -/
def parseGreeting (text : String) : Option Json :=
  if text = greetingData then
    some (.obj [("model", .str "m"), ("choices", .arr [.obj [("index", .nat 0),
      ("delta", .obj [("content", .str "hi")]), ("finish_reason", .str "stop")]])])
  else none

/-- The bytes of a text of ASCII characters. -/
def ascii (text : String) : List UInt8 :=
  text.toList.map fun c ↦ UInt8.ofNat c.toNat

/-- The answer. -/
def greetingBytes : List UInt8 :=
  ascii ("data: " ++ greetingData ++ "\n\ndata: [DONE]\n\n")

/-- A character behind `[DONE]` fails the stream when it comes with it, and is not read when it
comes after it. -/
theorem trailing_cut : (stream parseGreeting greeting [greetingBytes ++ ascii "x"]).outcome =
      .error .truncated ∧
    (stream parseGreeting greeting [greetingBytes, ascii "x"]).outcome =
      .ok ⟨"m", none, .stop, none, 107⟩ ∧
    ¬ ChunkIndependent parseGreeting greeting (greetingBytes ++ ascii "x") := by
  have hone : (stream parseGreeting greeting [greetingBytes ++ ascii "x"]).outcome =
    .error .truncated := by decide +kernel
  have htwo : (stream parseGreeting greeting [greetingBytes, ascii "x"]).outcome =
    .ok ⟨"m", none, .stop, none, 107⟩ := by decide +kernel
  refine ⟨hone, htwo, fun h ↦ ?_⟩
  have hsame := congrArg StreamResult.outcome
    (h [greetingBytes ++ ascii "x"] [greetingBytes, ascii "x"] (by simp) (by simp))
  simp only [StreamResult.uncounted, hone, htwo] at hsame
  cases hsame

end ModelConnector.Connectors.StrictStream
