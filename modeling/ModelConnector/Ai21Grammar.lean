import Mathlib.Algebra.Order.BigOperators.Group.List
import ModelConnector.Connectors.Ai21Contract
import ModelConnector.Foundations.Result

/-!
# The grammar of the AI21 stream

`parseAi21NativeChatSse` accepts a transcript exactly when its lines are those of a role chunk, of
content chunks, of a final chunk and `[DONE]`, and what it returns has the texts of all the chunks.
The limit on the bytes of these texts never refuses anything: a text has no more bytes than its
line.
-/

namespace ModelConnector.Connectors.Ai21Native

open Ecma AI21_NATIVE_LIMITS

variable {double : Ecma.Number → Option ℚ} {c : ParsedSseChunk} {r : Ai21NativeSseResult}
  {id content text data : Text} {lines : List Text} {n : ℕ}

/-! ### The grammar -/

/-- A chunk that names the role. -/
structure ParsedSseChunk.IsRole (c : ParsedSseChunk) : Prop where
  role : c.role = some .assistant
  content : c.content = none
  finishReason : c.finishReason = none
  usage : c.usage = none

/-- A chunk with a text and nothing else. -/
structure ParsedSseChunk.IsContent (c : ParsedSseChunk) (text : Text) : Prop where
  role : c.role = none
  content : c.content = some text
  finishReason : c.finishReason = none
  usage : c.usage = none

/-- A chunk with a text, a finish reason and usage. -/
structure ParsedSseChunk.IsFinal (c : ParsedSseChunk) (text : Text) (finishReason : FinishReason)
    (usage : Ai21NativeUsage) : Prop where
  role : c.role = none
  content : c.content = some text
  finishReason : c.finishReason = some finishReason
  usage : c.usage = some usage

/-- **The sentences of the grammar**, and what they say: a role chunk, chunks with texts, a final
chunk, each well formed and all of one request, and `[DONE]`. -/
structure Sentence (double : Ecma.Number → Option ℚ) (lines : List Text) (r : Ai21NativeSseResult) :
    Prop where
  chunks : ∃ data role contents last texts text,
    lines = data ++ [ascii "[DONE]"] ∧
    List.Forall₂ (fun line c ↦ chunkOf double line = some c) data (role :: contents ++ [last]) ∧
    role.IsRole ∧ List.Forall₂ ParsedSseChunk.IsContent contents texts ∧
    last.IsFinal text r.finish_reason r.usage ∧
    (∀ c ∈ role :: contents ++ [last], c.id = r.id) ∧
    r.content = (texts ++ [text]).flatten ∧
    r.event_count = (role :: contents ++ [last]).length
  limit : r.event_count ≤ maxSseEvents

/-! ### A text has no more bytes than its line -/

theorem content_of_parseDelta {delta : List (Text × Value)} {role : Option Role}
    (h : parseDelta delta = some (role, some text)) :
    delta.lookup (ascii "content") = some (.str text) := by
  unfold parseDelta at h
  simp only [Option.bind_eq_bind, Option.bind_eq_some_iff] at h
  obtain ⟨-, -, h⟩ := h
  cases hrole : delta.lookup (ascii "role") with
  | some v =>
    rw [hrole] at h
    cases v with
    | str s =>
      dsimp only at h
      split_ifs at h
      cases h
    | _ => cases h
  | none =>
    simp only [hrole, Option.bind_eq_some_iff] at h
    obtain ⟨s, ⟨v, hlookup, hstring⟩, heq⟩ := h
    cases heq
    cases v with
    | str s =>
      simp only [asBoundedString, Option.bind_eq_bind, Option.bind_eq_some_iff] at hstring
      obtain ⟨-, -, -, -, heq⟩ := hstring
      cases heq
      exact hlookup
    | _ => cases hstring

theorem members_of_asRecord {v : Value} {members : List (Text × Value)}
    (h : asRecord v = some members) : v = .obj members := by
  cases v with
  | obj members' =>
    cases h
    rfl
  | _ => cases h

/-- The text of a chunk is a string of the value. -/
theorem has_of_parseSseChunk {v : Value} (h : parseSseChunk double v = some c)
    (hcontent : c.content = some text) : v.Has text := by
  unfold parseSseChunk at h
  simp only [Option.bind_eq_bind, Option.bind_eq_some_iff] at h
  obtain ⟨-, -, chunk, hchunk, -, -, id, -, choices, hchoices, h⟩ := h
  obtain rfl := members_of_asRecord hchunk
  split at h
  · rename_i first
    simp only [Option.bind_eq_some_iff] at h
    obtain ⟨choice, hchoice, -, -, index, -, -, -, delta, ⟨w, hw, hdelta⟩, p, hp, finish, -, usage,
      -, heq⟩ := h
    obtain rfl := members_of_asRecord hchoice
    obtain rfl := members_of_asRecord hdelta
    obtain ⟨role, content⟩ := p
    cases heq
    obtain rfl : content = some text := hcontent
    have htext := Members.mem_of_lookup (content_of_parseDelta hp)
    exact .member (Members.mem_of_lookup hchoices) (.elem List.mem_cons_self
      (.member (Members.mem_of_lookup hw) (.member htext .str)))
  · cases h

theorem byteLength_le_of_chunkOf (h : chunkOf double data = some c)
    (hcontent : c.content = some text) : byteLength text ≤ byteLength data := by
  unfold chunkOf at h
  obtain ⟨v, hparse, hchunk⟩ := Option.bind_eq_some_iff.1 h
  exact byteLength_le_of_parse hparse (has_of_parseSseChunk hchunk hcontent)

/-! ### Where the scan is -/

/-- After the role chunk, and the texts so far. -/
def SseScan.opened (id content : Text) (n : ℕ) : SseScan where
  requestId := some id
  roleSeen := true
  content := content
  eventCount := n

/-- After the final chunk. -/
def SseScan.closed (r : Ai21NativeSseResult) : SseScan where
  terminal := true
  requestId := some r.id
  roleSeen := true
  finishReason := some r.finish_reason
  usage := some r.usage
  content := r.content
  eventCount := r.event_count

/-- The scan of the lines that are left comes to a result. -/
def SseScan.Accepts (double : Ecma.Number → Option ℚ) (s : SseScan) (lines : List Text)
    (r : Ai21NativeSseResult) : Prop :=
  ∃ s', lines.foldlM (SseScan.step double) s = some s' ∧ s'.result = some r

theorem chunkOf_done : chunkOf double (ascii "[DONE]") = none := by
  have hparse : parse (ascii "[DONE]") = none := by decide +kernel
  unfold chunkOf
  rw [hparse]
  rfl

theorem accepts_nil_iff {s : SseScan} : s.Accepts double [] r ↔ s.result = some r := by
  unfold SseScan.Accepts
  simp

theorem accepts_cons_iff {s : SseScan} : s.Accepts double (data :: lines) r ↔
    ∃ s', s.step double data = some s' ∧ s'.Accepts double lines r := by
  unfold SseScan.Accepts
  rw [List.foldlM_cons]
  simp only [Option.bind_eq_bind, Option.bind_eq_some_iff]
  constructor
  · rintro ⟨s'', ⟨s', hstep, hrest⟩, hresult⟩
    exact ⟨s', hstep, s'', hrest, hresult⟩
  · rintro ⟨s', hstep, s'', hrest, hresult⟩
    exact ⟨s'', ⟨s', hstep, hrest⟩, hresult⟩

/-- After `[DONE]` there is no line. -/
theorem accepts_of_done {s : SseScan} (hs : s.done = true) :
    s.Accepts double lines r ↔ lines = [] ∧ s.result = some r := by
  cases lines with
  | nil => simp [accepts_nil_iff]
  | cons data lines => simp [accepts_cons_iff, SseScan.step, hs]

/-- `[DONE]` before the final chunk is refused. -/
theorem not_accepts_done_cons {s : SseScan} (hdone : s.done = false) (hs : s.terminal = false) :
    ¬ s.Accepts double (ascii "[DONE]" :: lines) r := by
  rw [accepts_cons_iff]
  rintro ⟨s', hstep, haccepts⟩
  simp only [SseScan.step, hdone, guard_true] at hstep
  obtain rfl : { s with done := true } = s' := by simpa using hstep
  obtain ⟨-, hresult⟩ := (accepts_of_done rfl).1 haccepts
  simp [SseScan.result, hs] at hresult

/-- After the final chunk there is `[DONE]`. -/
theorem accepts_closed_iff {r' : Ai21NativeSseResult} :
    (SseScan.closed r').Accepts double lines r ↔ lines = [ascii "[DONE]"] ∧ r' = r := by
  cases lines with
  | nil => simp [accepts_nil_iff, SseScan.result, SseScan.closed]
  | cons data lines =>
    rw [accepts_cons_iff]
    by_cases hdata : data = ascii "[DONE]"
    · have hstep : (SseScan.closed r').step double data =
          some { SseScan.closed r' with done := true } := by
        simp [SseScan.step, SseScan.closed, hdata]
      have hresult : ({ SseScan.closed r' with done := true } : SseScan).result = some r' := rfl
      simp only [hstep, Option.some.injEq, exists_eq_left']
      rw [accepts_of_done rfl, hresult, hdata]
      simp
    · have hstep : (SseScan.closed r').step double data = none := by
        simp [SseScan.step, SseScan.closed, hdata]
      simp [hstep, hdata]

/-- A chunk after the role chunk. -/
theorem step_opened_iff {s' : SseScan} (hdata : data ≠ ascii "[DONE]") :
    (SseScan.opened id content n).step double data = some s' ↔ ∃ c text,
      chunkOf double data = some c ∧ c.id = id ∧ n + 1 ≤ maxSseEvents ∧
        byteLength (content ++ text) ≤ maxResponseBytes ∧
        (c.IsContent text ∧ s' = SseScan.opened id (content ++ text) (n + 1) ∨
          ∃ finish_reason usage, c.IsFinal text finish_reason usage ∧
            s' = SseScan.closed ⟨id, content ++ text, finish_reason, usage, n + 1⟩) := by
  constructor
  · intro h
    simp only [SseScan.step, SseScan.opened, hdata, if_false, Option.bind_eq_bind,
      Option.bind_eq_some_iff, Option.getD_some, Bool.true_eq_false] at h
    obtain ⟨_, -, _, -, _, hlimit, c, hc, _, hid, _, hrole, text, htext, _, hbytes, h⟩ := h
    have hrole := (Option.guard_eq_some' _).1 hrole
    refine ⟨c, text, hc, (Option.guard_eq_some' _).1 hid, (Option.guard_eq_some' _).1 hlimit,
      (Option.guard_eq_some' _).1 hbytes, ?_⟩
    cases hfinish : c.finishReason with
    | none =>
      simp only [hfinish, Option.bind_eq_some_iff, Option.guard_eq_some'] at h
      obtain ⟨_, husage, h⟩ := h
      cases h
      exact .inl ⟨⟨hrole, htext, hfinish, husage⟩, rfl⟩
    | some finish_reason =>
      simp only [hfinish, Option.bind_eq_some_iff] at h
      obtain ⟨usage, husage, h⟩ := h
      cases h
      exact .inr ⟨finish_reason, usage, ⟨hrole, htext, hfinish, husage⟩, rfl⟩
  · rintro ⟨c, text, hc, rfl, hlimit, hbytes, ⟨hcontent, rfl⟩ | ⟨finish_reason, usage, hfinal, rfl⟩⟩
    · simp [SseScan.step, SseScan.opened, hdata, hc, hlimit, hbytes, hcontent.role,
        hcontent.content, hcontent.finishReason, hcontent.usage]
    · simp [SseScan.step, SseScan.opened, SseScan.closed, hdata, hc, hlimit, hbytes, hfinal.role,
        hfinal.content, hfinal.finishReason, hfinal.usage]

/-- The role chunk. -/
theorem step_start_iff {s' : SseScan} (hdata : data ≠ ascii "[DONE]") :
    SseScan.step double {} data = some s' ↔ ∃ c, chunkOf double data = some c ∧ c.IsRole ∧
      s' = SseScan.opened c.id [] 1 := by
  constructor
  · intro h
    simp only [SseScan.step, hdata, if_false, Option.bind_eq_bind, Option.bind_eq_some_iff,
      Option.guard_eq_some', Option.getD_none, if_true] at h
    obtain ⟨_, -, _, -, _, -, c, hc, _, -, _, hrole, _, hnone, h⟩ := h
    cases h
    exact ⟨c, hc, ⟨hrole.1, hrole.2, hnone.1, hnone.2⟩, rfl⟩
  · rintro ⟨c, hc, hrole, rfl⟩
    have hlimit : 1 ≤ maxSseEvents := by decide
    simp [SseScan.step, SseScan.opened, hdata, hc, hlimit, hrole.role, hrole.content,
      hrole.finishReason, hrole.usage]

/-! ### The law of the scan -/

/-- The lines after the role chunk, when so many texts and lines have been read. -/
inductive Rest (double : Ecma.Number → Option ℚ) (id : Text) :
    Text → ℕ → List Text → Ai21NativeSseResult → Prop
  | last {content text data : Text} {n : ℕ} {c : ParsedSseChunk} {finish_reason : FinishReason}
    {usage : Ai21NativeUsage} (hc : chunkOf double data = some c) (hid : c.id = id)
    (hlimit : n + 1 ≤ maxSseEvents) (hfinal : c.IsFinal text finish_reason usage) :
    Rest double id content n [data, ascii "[DONE]"]
      ⟨id, content ++ text, finish_reason, usage, n + 1⟩
  | more {content text data : Text} {n : ℕ} {c : ParsedSseChunk} {lines : List Text}
    {r : Ai21NativeSseResult} (hc : chunkOf double data = some c) (hid : c.id = id)
    (hlimit : n + 1 ≤ maxSseEvents) (hcontent : c.IsContent text)
    (hrest : Rest double id (content ++ text) (n + 1) lines r) :
    Rest double id content n (data :: lines) r

/-- The scan after the role chunk; what is still to come has few enough bytes. -/
theorem accepts_opened_iff
    (hfit : byteLength content + (lines.map byteLength).sum ≤ maxResponseBytes) :
    (SseScan.opened id content n).Accepts double lines r ↔ Rest double id content n lines r := by
  induction lines generalizing content n with
  | nil =>
    refine iff_of_false (fun h ↦ ?_) fun h ↦ by cases h
    rw [accepts_nil_iff] at h
    simp [SseScan.result, SseScan.opened] at h
  | cons data lines ih =>
    rw [List.map_cons, List.sum_cons] at hfit
    by_cases hdata : data = ascii "[DONE]"
    · subst hdata
      refine iff_of_false (not_accepts_done_cons rfl rfl) fun h ↦ ?_
      cases h with
      | last hc => simp [chunkOf_done] at hc
      | more hc => simp [chunkOf_done] at hc
    · -- the texts with this one still fit
      have hbytes : ∀ {c : ParsedSseChunk} {text : Text}, chunkOf double data = some c →
          c.content = some text →
            byteLength (content ++ text) + (lines.map byteLength).sum ≤ maxResponseBytes := by
        intro c text hc htext
        have hle := byteLength_le_of_chunkOf hc htext
        have happend := byteLength_append_le content text
        omega
      rw [accepts_cons_iff]
      constructor
      · rintro ⟨s', hstep, haccepts⟩
        obtain ⟨c, text, hc, rfl, hlimit, -, ⟨hcontent, rfl⟩ | ⟨finish_reason, usage, hfinal, rfl⟩⟩ :=
          (step_opened_iff hdata).1 hstep
        · exact .more hc rfl hlimit hcontent ((ih (hbytes hc hcontent.content)).1 haccepts)
        · obtain ⟨rfl, rfl⟩ := accepts_closed_iff.1 haccepts
          exact .last hc rfl hlimit hfinal
      · intro h
        cases h with
        | last hc hid hlimit hfinal =>
          have hfits := hbytes hc hfinal.content
          exact ⟨_, (step_opened_iff hdata).2 ⟨_, _, hc, hid, hlimit, by omega,
            .inr ⟨_, _, hfinal, rfl⟩⟩, accepts_closed_iff.2 ⟨rfl, rfl⟩⟩
        | more hc hid hlimit hcontent hrest =>
          have hfits := hbytes hc hcontent.content
          exact ⟨_, (step_opened_iff hdata).2 ⟨_, _, hc, hid, hlimit, by omega,
            .inl ⟨hcontent, rfl⟩⟩, (ih hfits).2 hrest⟩

/-- The lines after the role chunk as lists of chunks and texts. -/
theorem rest_iff : Rest double id content n lines r ↔ ∃ data contents last texts text,
    lines = data ++ [ascii "[DONE]"] ∧
    List.Forall₂ (fun line c ↦ chunkOf double line = some c) data (contents ++ [last]) ∧
    List.Forall₂ ParsedSseChunk.IsContent contents texts ∧
    last.IsFinal text r.finish_reason r.usage ∧
    (∀ c ∈ contents ++ [last], c.id = r.id) ∧ r.id = id ∧
    r.content = content ++ (texts ++ [text]).flatten ∧
    r.event_count = n + (contents ++ [last]).length ∧ r.event_count ≤ maxSseEvents := by
  constructor
  · intro h
    induction h with
    | @last content text data n c finish_reason usage hc hid hlimit hfinal =>
      refine ⟨[data], [], c, [], text, rfl, .cons hc .nil, .nil, hfinal, ?_, rfl, ?_, rfl, hlimit⟩
      · simpa using hid
      · simp
    | @more content text data n c lines r hc hid hlimit hcontent hrest ih =>
      obtain ⟨data', contents, last, texts, text', rfl, hdata, htexts, hfinal, hids, hr, hflat,
        hcount, hmax⟩ := ih
      refine ⟨data :: data', c :: contents, last, text :: texts, text', rfl, .cons hc hdata,
        .cons hcontent htexts, hfinal, ?_, hr, ?_, ?_, hmax⟩
      · exact List.forall_mem_cons.2 ⟨hid.trans hr.symm, hids⟩
      · rw [hflat]
        simp
      · rw [hcount]
        simp only [List.cons_append, List.length_cons]
        omega
  -- the content chunks are taken off one by one, down to the last chunk
  · rintro ⟨data, contents, last, texts, text, rfl, hdata, htexts, hfinal, hids, hr, hflat, hcount,
      hmax⟩
    obtain ⟨id', content', finish_reason, usage, event_count⟩ := r
    dsimp only at *
    subst hr hflat
    induction htexts generalizing data content n with
    | nil =>
      rcases hdata with _ | ⟨hc, hnil⟩
      cases hnil
      have hid : last.id = id' := hids last List.mem_cons_self
      have hn : event_count = n + 1 := hcount
      subst hn
      have hrest : Rest double id' content n [_, ascii "[DONE]"]
          ⟨id', content ++ text, finish_reason, usage, n + 1⟩ := .last hc hid hmax hfinal
      simpa using hrest
    | @cons c text' contents texts hcontent htexts ih =>
      rcases hdata with _ | ⟨hc, hdata⟩
      have hn : event_count = n + 1 + (contents ++ [last]).length := by
        rw [hcount]
        simp only [List.cons_append, List.length_cons]
        omega
      have hrest := @ih (content ++ text') (n + 1) _ hdata
        (fun c hc ↦ hids c (List.mem_cons_of_mem _ hc)) hn
      rw [show content ++ (text' :: texts ++ [text]).flatten =
        content ++ text' ++ (texts ++ [text]).flatten by simp]
      refine .more hc (hids c List.mem_cons_self) ?_ hcontent hrest
      rw [hn] at hmax
      simp only [List.length_append, List.length_singleton] at hmax
      omega

/-- The scan of all lines. -/
theorem accepts_iff (hfit : (lines.map byteLength).sum ≤ maxResponseBytes) :
    SseScan.Accepts double {} lines r ↔ Sentence double lines r := by
  cases lines with
  | nil =>
    refine iff_of_false (fun h ↦ ?_) fun h ↦ ?_
    · rw [accepts_nil_iff] at h
      simp [SseScan.result] at h
    · obtain ⟨data, role, contents, last, texts, text, heq, -⟩ := h.chunks
      simp at heq
  | cons data lines =>
    rw [List.map_cons, List.sum_cons] at hfit
    by_cases hdata : data = ascii "[DONE]"
    · subst hdata
      refine iff_of_false (not_accepts_done_cons rfl rfl) fun h ↦ ?_
      obtain ⟨data, role, contents, last, texts, text, heq, hdata, -⟩ := h.chunks
      cases hdata with
      | cons hc hrest =>
        obtain ⟨rfl, -⟩ := List.cons.inj heq
        simp [chunkOf_done] at hc
    · have hopened : ∀ id, (SseScan.opened id [] 1).Accepts double lines r ↔
          Rest double id [] 1 lines r := fun id ↦ accepts_opened_iff (by rw [byteLength_nil]; omega)
      rw [accepts_cons_iff]
      constructor
      · rintro ⟨s', hstep, haccepts⟩
        obtain ⟨role, hc, hrole, rfl⟩ := (step_start_iff hdata).1 hstep
        obtain ⟨data', contents, last, texts, text, rfl, hchunks, htexts, hfinal, hids, hr, hflat,
          hcount, hmax⟩ := rest_iff.1 ((hopened _).1 haccepts)
        refine ⟨⟨data :: data', role, contents, last, texts, text, rfl, .cons hc hchunks, hrole,
          htexts, hfinal, List.forall_mem_cons.2 ⟨hr.symm, hids⟩, hflat, ?_⟩, hmax⟩
        rw [hcount, List.cons_append, List.length_cons, Nat.add_comm]
      · rintro ⟨⟨data', role, contents, last, texts, text, heq, hchunks, hrole, htexts, hfinal, hids,
          hflat, hcount⟩, hmax⟩
        cases hchunks with
        | @cons line _ lines' _ hc hchunks =>
          obtain ⟨rfl, rfl⟩ := List.cons.inj heq
          have hid := hids role List.mem_cons_self
          refine ⟨_, (step_start_iff hdata).2 ⟨role, hc, hrole, rfl⟩, (hopened _).2 (rest_iff.2
            ⟨lines', contents, last, texts, text, rfl, hchunks, htexts, hfinal,
              fun c hc ↦ hids c (List.mem_cons_of_mem _ hc), hid.symm, hflat, ?_, hmax⟩)⟩
          rw [hcount, List.cons_append, List.length_cons, Nat.add_comm]

/-! ### Lines -/

theorem dataOf_eq_some_iff {line : Text} :
    dataOf line = some data ↔ line = ascii "data: " ++ data := by
  unfold dataOf
  constructor
  · intro h
    split_ifs at h with hbegins
    obtain ⟨rest, rfl⟩ := hbegins
    obtain rfl := Option.some.inj h
    rfl
  · rintro rfl
    rw [if_pos (List.prefix_append _ _)]
    rfl

/-- The lines that are not empty, and their data. -/
theorem dataLines_eq_some_iff {transcript : Text} : dataLines transcript = some lines ↔
    (splitLines transcript).filter (fun line ↦ decide (line ≠ [])) =
      lines.map (ascii "data: " ++ ·) := by
  unfold dataLines
  rw [Option.mapM_eq_some]
  simp only [dataOf_eq_some_iff]
  generalize (splitLines transcript).filter (fun line ↦ decide (line ≠ [])) = kept
  constructor
  · intro h
    induction h with
    | nil => rfl
    | cons hline hrest ih => rw [hline, ih, List.map_cons]
  · rintro rfl
    induction lines with
    | nil => exact .nil
    | cons data lines ih => exact .cons rfl ih

/-- The data have no more bytes than the transcript. -/
theorem sum_byteLength_le {transcript : Text} (h : dataLines transcript = some lines) :
    (lines.map byteLength).sum ≤ byteLength transcript := by
  have hdata : ∀ data : Text, byteLength data ≤ byteLength (ascii "data: " ++ data) := fun data ↦
    byteLength_le_of_suffix (List.suffix_append _ _)
  calc (lines.map byteLength).sum
      ≤ ((lines.map (ascii "data: " ++ ·)).map byteLength).sum := by
        rw [List.map_map]
        exact List.sum_le_sum fun data _ ↦ hdata data
    _ = (((splitLines transcript).filter fun line ↦ decide (line ≠ [])).map byteLength).sum := by
        rw [dataLines_eq_some_iff.1 h]
    _ ≤ ((splitLines transcript).map byteLength).sum :=
        (List.filter_sublist.map byteLength).sum_le_sum fun _ _ ↦ Nat.zero_le _
    _ ≤ byteLength transcript := sum_byteLength_splitLines_le transcript

/-! ### The law of the parser -/

/-- **The parser accepts exactly its grammar**, and returns what the sentence says. -/
theorem parseAi21NativeChatSse_eq_some_iff (double : Ecma.Number → Option ℚ) (transcript : Text)
    (r : Ai21NativeSseResult) : parseAi21NativeChatSse double transcript = some r ↔
      byteLength transcript ≤ maxResponseBytes ∧ ∃ lines,
        (splitLines transcript).filter (fun line ↦ decide (line ≠ [])) =
          lines.map (ascii "data: " ++ ·) ∧ Sentence double lines r := by
  have hrun : ∀ lines, lines ≠ [] ∧ SseScan.Accepts double {} lines r ↔
      SseScan.Accepts double {} lines r := by
    intro lines
    refine and_iff_right_of_imp fun h ↦ ?_
    rintro rfl
    rw [accepts_nil_iff] at h
    simp [SseScan.result] at h
  unfold parseAi21NativeChatSse
  simp only [Option.bind_eq_bind, Option.bind_eq_some_iff, Option.guard_eq_some', exists_const]
  refine and_congr_right fun hsize ↦ exists_congr fun lines ↦ ?_
  rw [dataLines_eq_some_iff]
  refine and_congr_right fun hlines ↦ ?_
  have hfit := (sum_byteLength_le (dataLines_eq_some_iff.2 hlines)).trans hsize
  rw [← accepts_iff hfit]
  exact hrun lines

end ModelConnector.Connectors.Ai21Native
