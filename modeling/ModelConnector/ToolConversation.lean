import ModelConnector.Connectors.StrictContract
import ModelConnector.Foundations.Result

/-!
# Strict chat accepts the well-formed tool conversations

`WellFormed` says what a conversation with tool calls is, without reference to a pass over it. The
pass of `parseStrictChat` is described first by what it asks of the messages from any state on: of
the run of tool messages in front that it answers the pending calls, each once and no other, and of
the run behind every other message that it answers the calls of that message. `blocks_iff` says that
over a whole conversation this is being answered once and in time.
-/

namespace ModelConnector.Connectors.StrictContract

variable {parses : String → Bool} {body : StrictChatBody} {scan : Scan} {m : Message}
  {ms : List Message}

/-! ### Conversations -/

/-- The tool calls of a message. -/
def Message.calls : Message → List ToolCall
  | .assistant _ _ tool_calls => tool_calls.getD []
  | _ => []

/-- The ids of the tool calls of a message. -/
def Message.callIds (m : Message) : List String :=
  m.calls.map ToolCall.id

/-- The id of the call a tool message answers. -/
def Message.answer? : Message → Option String
  | .tool _ tool_call_id => some tool_call_id
  | _ => none

/-- The message is a tool's. -/
def Message.isTool (m : Message) : Bool :=
  m.answer?.isSome

/-- How often a call is answered before the next message that is not a tool's. -/
def answers (id : String) (ms : List Message) : ℕ :=
  (ms.takeWhile Message.isTool).countP fun m ↦ decide (m.answer? = some id)

/-- A well-formed tool conversation. -/
structure WellFormed (parses : String → Bool) (body : StrictChatBody) : Prop where
  unique : (body.messages.flatMap Message.callIds).Nodup
  declared : ∀ m ∈ body.messages, ∀ c ∈ m.calls, ∃ t ∈ body.declared, t.name = c.name
  arguments : ∀ m ∈ body.messages, ∀ c ∈ m.calls, parses c.arguments = true
  answered : ∀ before m after, body.messages = before ++ m :: after → ∀ id ∈ m.callIds,
    answers id after = 1
  known : ∀ before m after id, body.messages = before ++ m :: after → m.answer? = some id →
    id ∈ before.flatMap Message.callIds ∧ ∀ m' ∈ before, m'.answer? ≠ some id
  content : ∀ reasoning_content tool_calls,
    .assistant none reasoning_content tool_calls ∈ body.messages → tool_calls ≠ none
  continued : body.thinking = .enabled → body.declared ≠ [] → ∀ content reasoning_content tool_calls,
    .assistant content reasoning_content tool_calls ∈ body.messages → reasoning_content ≠ none
  user : ∃ content, .user content ∈ body.messages

/-! ### One message -/

/-- What is asked of a message apart from the ids of its calls. -/
def Sound (parses : String → Bool) (body : StrictChatBody) : Message → Prop
  | .assistant content reasoning_content tool_calls =>
    (content = none → tool_calls ≠ none) ∧
      (body.thinking = .enabled → body.declared ≠ [] → reasoning_content ≠ none) ∧
      ∀ c ∈ tool_calls.getD [], c.name ∈ body.names ∧ parses c.arguments = true
  | _ => True

/-- The ids are distinct and new. -/
def Fresh (seen : Finset String) (ids : List String) : Prop :=
  ids.Nodup ∧ ∀ id ∈ ids, id ∉ seen

theorem fresh_append {seen : Finset String} {ids ids' : List String} :
    Fresh seen (ids ++ ids') ↔ Fresh seen ids ∧ Fresh (ids.toFinset ∪ seen) ids' := by
  simp only [Fresh, List.nodup_append', List.mem_append, Finset.mem_union, List.mem_toFinset]
  constructor
  · rintro ⟨⟨hnodup, hnodup', hdisjoint⟩, hseen⟩
    refine ⟨⟨hnodup, fun id hid ↦ hseen id (.inl hid)⟩, hnodup', fun id hid hmem ↦ ?_⟩
    exact hmem.elim (fun h ↦ hdisjoint h hid) (hseen id (.inr hid))
  · rintro ⟨⟨hnodup, hseen⟩, hnodup', hseen'⟩
    refine ⟨⟨hnodup, hnodup', fun id hid hid' ↦ hseen' id hid' (.inl hid)⟩, fun id hid ↦ ?_⟩
    exact hid.elim (hseen id) fun h hmem ↦ hseen' id h (.inr hmem)

theorem scanCall_ok_iff {names : Finset String} {c : ToolCall} {scan' : Scan} :
    scanCall parses names scan c = .ok scan' ↔
      c.id ∉ scan.seen ∧ (c.name ∈ names ∧ parses c.arguments = true) ∧
        scan' = ⟨insert c.id scan.seen, insert c.id scan.pending⟩ := by
  unfold scanCall
  split_ifs with hbinding hparses
  · simp only [false_iff]
    rintro ⟨hseen, ⟨hname, -⟩, -⟩
    exact hbinding.elim hseen fun h ↦ h hname
  · simp only [reduceCtorEq, hparses, false_iff]
    rintro ⟨-, ⟨-, ⟨⟩⟩, -⟩
  · obtain ⟨hseen, hname⟩ := not_or.1 hbinding
    constructor
    · intro h
      exact ⟨hseen, ⟨not_not.1 hname, Bool.not_eq_false _ ▸ hparses⟩, (Except.ok.inj h).symm⟩
    · rintro ⟨-, -, rfl⟩
      rfl

/-- The calls of one message. -/
theorem scanCalls_ok_iff {names : Finset String} {calls : List ToolCall} {scan scan' : Scan} :
    calls.foldlM (scanCall parses names) scan = .ok scan' ↔
      Fresh scan.seen (calls.map ToolCall.id) ∧
        (∀ c ∈ calls, c.name ∈ names ∧ parses c.arguments = true) ∧
        scan' = ⟨(calls.map ToolCall.id).toFinset ∪ scan.seen,
          (calls.map ToolCall.id).toFinset ∪ scan.pending⟩ := by
  induction calls generalizing scan with
  | nil =>
    simp only [List.foldlM_nil, List.map_nil, List.toFinset_nil, Finset.empty_union]
    constructor
    · rintro ⟨⟩
      exact ⟨⟨List.nodup_nil, by rintro _ ⟨⟩⟩, by rintro _ ⟨⟩, rfl⟩
    · rintro ⟨-, -, rfl⟩
      rfl
  | cons c calls ih =>
    have hseen : ((calls.map ToolCall.id).toFinset ∪ insert c.id scan.seen) =
        ((c :: calls).map ToolCall.id).toFinset ∪ scan.seen := by
      rw [List.map_cons, List.toFinset_cons, Finset.union_insert, Finset.insert_union]
    have hpending : ((calls.map ToolCall.id).toFinset ∪ insert c.id scan.pending) =
        ((c :: calls).map ToolCall.id).toFinset ∪ scan.pending := by
      rw [List.map_cons, List.toFinset_cons, Finset.union_insert, Finset.insert_union]
    have hfresh : Fresh scan.seen ((c :: calls).map ToolCall.id) ↔
        c.id ∉ scan.seen ∧ Fresh (insert c.id scan.seen) (calls.map ToolCall.id) := by
      rw [List.map_cons, ← List.singleton_append, fresh_append]
      simp [Fresh]
    rw [List.foldlM_cons, Except.bind_eq_ok, hfresh, List.forall_mem_cons, ← hseen, ← hpending]
    constructor
    · rintro ⟨next, hnext, hrest⟩
      obtain ⟨hnew, hbound, rfl⟩ := scanCall_ok_iff.1 hnext
      obtain ⟨hfresh, hbounds, rfl⟩ := ih.1 hrest
      exact ⟨⟨hnew, hfresh⟩, ⟨hbound, hbounds⟩, rfl⟩
    · rintro ⟨⟨hnew, hfresh⟩, ⟨hbound, hbounds⟩, rfl⟩
      exact ⟨_, scanCall_ok_iff.2 ⟨hnew, hbound, rfl⟩, ih.2 ⟨hfresh, hbounds, rfl⟩⟩

/-- A message that is not a tool's is accepted when nothing is pending; then its calls are. -/
theorem scanMessage_ok_iff (hm : m.isTool = false) {scan' : Scan} :
    scanMessage parses body scan m = .ok scan' ↔
      scan.pending = ∅ ∧ Sound parses body m ∧ Fresh scan.seen m.callIds ∧
        scan' = ⟨m.callIds.toFinset ∪ scan.seen, m.callIds.toFinset⟩ := by
  have hplain : ∀ {m : Message}, m.calls = [] → Sound parses body m →
      ((if scan.pending ≠ ∅ then .error (.error "chat-tool-results-missing") else .ok scan :
        Except Refusal Scan) = .ok scan' ↔
      scan.pending = ∅ ∧ Sound parses body m ∧ Fresh scan.seen m.callIds ∧
        scan' = ⟨m.callIds.toFinset ∪ scan.seen, m.callIds.toFinset⟩) := by
    intro m hcalls hsound
    obtain ⟨seen, pending⟩ := scan
    have hids : m.callIds = [] := by rw [Message.callIds, hcalls, List.map_nil]
    rw [hids, List.toFinset_nil, Finset.empty_union]
    split_ifs with hpending
    · exact ⟨fun h ↦ (by cases h), fun h ↦ absurd h.1 hpending⟩
    · obtain rfl := not_not.1 hpending
      constructor
      · rintro ⟨⟩
        exact ⟨rfl, hsound, ⟨List.nodup_nil, by rintro _ ⟨⟩⟩, rfl⟩
      · rintro ⟨-, -, -, rfl⟩
        rfl
  cases m with
  | tool content id => cases hm
  | system content => exact hplain rfl trivial
  | user content => exact hplain rfl trivial
  | assistant content reasoning_content tool_calls =>
    simp only [scanMessage, Sound, Message.callIds, Message.calls]
    split_ifs with hpending hcontent hcontinued
    · exact ⟨fun h ↦ (by cases h), fun h ↦ absurd h.1 hpending⟩
    · exact ⟨fun h ↦ (by cases h), fun h ↦ absurd hcontent.2 (h.2.1.1 hcontent.1)⟩
    · obtain ⟨hthinking, htools, hreasoning⟩ := hcontinued
      exact ⟨fun h ↦ (by cases h), fun h ↦ absurd hreasoning (h.2.1.2.1 hthinking htools)⟩
    · obtain ⟨seen, pending⟩ := scan
      obtain rfl := not_not.1 hpending
      rw [scanCalls_ok_iff, Finset.union_empty]
      constructor
      · rintro ⟨hfresh, hbound, rfl⟩
        exact ⟨rfl, ⟨fun h h' ↦ hcontent ⟨h, h'⟩, fun h h' h'' ↦ hcontinued ⟨h, h', h''⟩, hbound⟩,
          hfresh, rfl⟩
      · rintro ⟨-, ⟨-, -, hbound⟩, hfresh, rfl⟩
        exact ⟨hfresh, hbound, rfl⟩

/-! ### The pass -/

/-- The tool messages in front answer each of the ids once, and nothing else. -/
def Answered (pending : Finset String) (ms : List Message) : Prop :=
  ∀ id, answers id ms = if id ∈ pending then 1 else 0

/-- Behind every message that is not a tool's, its calls are answered. -/
def Blocks (ms : List Message) : Prop :=
  ∀ before m after, ms = before ++ m :: after → m.isTool = false →
    Answered m.callIds.toFinset after

/-- The pass goes through the messages and leaves nothing pending. -/
def Passes (parses : String → Bool) (body : StrictChatBody) (scan : Scan) (ms : List Message) :
    Prop :=
  ∃ scan', ms.foldlM (scanMessage parses body) scan = .ok scan' ∧ scan'.pending = ∅

theorem passes_cons : Passes parses body scan (m :: ms) ↔
    ∃ scan', scanMessage parses body scan m = .ok scan' ∧ Passes parses body scan' ms := by
  simp only [Passes, List.foldlM_cons, Except.bind_eq_ok]
  constructor
  · rintro ⟨last, ⟨next, hnext, hrest⟩, hpending⟩
    exact ⟨next, hnext, last, hrest, hpending⟩
  · rintro ⟨next, hnext, last, hrest, hpending⟩
    exact ⟨last, ⟨next, hnext, hrest⟩, hpending⟩

theorem answers_tool {id call content : String} :
    answers id (.tool content call :: ms) = (if call = id then 1 else 0) + answers id ms := by
  have htool : Message.isTool (.tool content call) = true := rfl
  simp only [answers, List.takeWhile_cons, htool, if_true, List.countP_cons, Message.answer?,
    Option.some.injEq, decide_eq_true_eq]
  rw [Nat.add_comm]

theorem answers_of_not_tool (hm : m.isTool = false) (id : String) : answers id (m :: ms) = 0 := by
  simp [answers, hm]

theorem answered_tool_iff {pending : Finset String} {call content : String} :
    Answered pending (.tool content call :: ms) ↔
      call ∈ pending ∧ Answered (pending.erase call) ms := by
  simp only [Answered, answers_tool, Finset.mem_erase]
  constructor
  · intro h
    have hcall := h call
    rw [if_pos rfl] at hcall
    have hmem : call ∈ pending := by
      by_contra hmem
      rw [if_neg hmem] at hcall
      omega
    refine ⟨hmem, fun id ↦ ?_⟩
    have hid := h id
    by_cases heq : call = id
    · subst heq
      rw [if_pos hmem] at hcall
      simp only [ne_eq, not_true_eq_false, false_and, if_false]
      omega
    · rw [if_neg heq, Nat.zero_add] at hid
      rw [hid]
      simp [Ne.symm heq]
  · rintro ⟨hmem, h⟩ id
    rw [h id]
    by_cases heq : call = id
    · subst heq
      simp [hmem]
    · simp [heq, Ne.symm heq]

theorem answered_of_not_tool (hm : m.isTool = false) {pending : Finset String} :
    Answered pending (m :: ms) ↔ pending = ∅ := by
  simp only [Answered, answers_of_not_tool hm, Finset.eq_empty_iff_forall_notMem]
  refine forall_congr' fun id ↦ ?_
  split_ifs with hmem <;> simp [hmem]

theorem blocks_cons : Blocks (m :: ms) ↔
    (m.isTool = false → Answered m.callIds.toFinset ms) ∧ Blocks ms := by
  constructor
  · intro h
    refine ⟨h [] m ms rfl, fun before m' after heq ↦ h (m :: before) m' after ?_⟩
    rw [heq, List.cons_append]
  · rintro ⟨hhead, htail⟩ before m' after heq
    cases before with
    | nil =>
      obtain ⟨rfl, rfl⟩ := List.cons.inj heq
      exact hhead
    | cons m'' before =>
      exact htail before m' after (List.cons.inj heq).2

/-- **What the pass asks of the messages.** -/
theorem passes_iff : Passes parses body scan ms ↔ (∀ m ∈ ms, Sound parses body m) ∧
    Fresh scan.seen (ms.flatMap Message.callIds) ∧ Answered scan.pending ms ∧ Blocks ms := by
  induction ms generalizing scan with
  | nil =>
    constructor
    · rintro ⟨_, ⟨⟩, hpending⟩
      refine ⟨by rintro _ ⟨⟩, ⟨List.nodup_nil, by rintro _ ⟨⟩⟩, fun id ↦ ?_, ?_⟩
      · rw [hpending, if_neg (Finset.notMem_empty id)]
        rfl
      · intro before m after heq
        simp at heq
    · rintro ⟨-, -, hanswered, -⟩
      refine ⟨scan, rfl, Finset.eq_empty_iff_forall_notMem.2 fun id hid ↦ ?_⟩
      have hzero := hanswered id
      rw [if_pos hid] at hzero
      cases hzero
  | cons m ms ih =>
    rw [passes_cons, List.forall_mem_cons, List.flatMap_cons, fresh_append, blocks_cons]
    cases hm : m.isTool with
    -- a message of a tool takes its call off those that are pending
    | true =>
      obtain ⟨content, call, rfl⟩ : ∃ content call, m = .tool content call := by
        cases m with
        | tool content call => exact ⟨content, call, rfl⟩
        | system | user | assistant => cases hm
      have hcalls : Message.callIds (.tool content call) = [] := rfl
      rw [answered_tool_iff, hcalls, List.toFinset_nil, Finset.empty_union]
      simp only [scanMessage]
      constructor
      · rintro ⟨scan', hscan, hrest⟩
        split_ifs at hscan with hmem
        obtain rfl := Except.ok.inj hscan
        obtain ⟨hsound, hfresh, hanswered, hblocks⟩ := ih.1 hrest
        exact ⟨⟨trivial, hsound⟩, ⟨⟨List.nodup_nil, by rintro _ ⟨⟩⟩, hfresh⟩, ⟨hmem, hanswered⟩,
          fun h ↦ (by cases h), hblocks⟩
      · rintro ⟨⟨-, hsound⟩, ⟨-, hfresh⟩, ⟨hmem, hanswered⟩, -, hblocks⟩
        rw [if_pos hmem]
        exact ⟨_, rfl, ih.2 ⟨hsound, hfresh, hanswered, hblocks⟩⟩
    -- any other message needs that none is pending, and begins a block
    | false =>
      rw [answered_of_not_tool hm]
      constructor
      · rintro ⟨scan', hscan, hrest⟩
        obtain ⟨hpending, hsound, hfresh, rfl⟩ := (scanMessage_ok_iff hm).1 hscan
        obtain ⟨hsounds, hfresh', hanswered, hblocks⟩ := ih.1 hrest
        exact ⟨⟨hsound, hsounds⟩, ⟨hfresh, hfresh'⟩, hpending, fun _ ↦ hanswered, hblocks⟩
      · rintro ⟨⟨hsound, hsounds⟩, ⟨hfresh, hfresh'⟩, hpending, hanswered, hblocks⟩
        exact ⟨_, (scanMessage_ok_iff hm).2 ⟨hpending, hsound, hfresh, rfl⟩,
          ih.2 ⟨hsounds, hfresh', hanswered rfl, hblocks⟩⟩

/-! ### Conversations block by block -/

theorem mem_takeWhile_split {p : Message → Bool} {x : Message} {l : List Message}
    (hx : x ∈ l.takeWhile p) : ∃ run rest, l = run ++ x :: rest ∧ ∀ y ∈ run, p y = true := by
  obtain ⟨run, rest, heq⟩ := List.append_of_mem hx
  refine ⟨run, rest ++ l.dropWhile p, ?_, fun y hy ↦ ?_⟩
  · conv_lhs => rw [← List.takeWhile_append_dropWhile (p := p) (l := l), heq]
    rw [List.append_assoc, List.cons_append]
  · exact List.all_eq_true.1 List.all_takeWhile y (heq ▸ List.mem_append_left _ hy)

/-- A run of tool messages comes right at the start or behind another message. -/
theorem last_not_tool : ∀ before : List Message, (∀ m ∈ before, m.isTool = true) ∨
    ∃ start m run, before = start ++ m :: run ∧ m.isTool = false ∧ ∀ y ∈ run, y.isTool = true := by
  intro before
  induction before with
  | nil => exact .inl (by rintro _ ⟨⟩)
  | cons m before ih =>
    rcases ih with hall | ⟨start, m', run, rfl, hm', hrun⟩
    · cases hm : m.isTool with
      | true => exact .inl (List.forall_mem_cons.2 ⟨hm, hall⟩)
      | false => exact .inr ⟨[], m, before, rfl, hm, hall⟩
    · exact .inr ⟨m :: start, m', run, rfl, hm', hrun⟩

theorem callIds_of_isTool (hm : m.isTool = true) : m.callIds = [] := by
  cases m with
  | tool content call => rfl
  | system | user | assistant => cases hm

/-- The answers of a run of tool messages, and of what is behind it. -/
theorem answers_run {id : String} {run after : List Message} (hrun : ∀ y ∈ run, y.isTool = true) :
    answers id (run ++ after) =
      run.countP (fun m ↦ decide (m.answer? = some id)) + answers id after := by
  rw [answers, List.takeWhile_append_of_pos hrun, List.countP_append]
  rfl

/-- A message that is not a tool's ends the run. -/
theorem answers_append_of_not_tool {id : String} {between after : List Message}
    (hm : m.isTool = false) : answers id (between ++ m :: after) = answers id between := by
  induction between with
  | nil => exact answers_of_not_tool hm id
  | cons m' between ih =>
    cases m' with
    | tool content call => rw [List.cons_append, answers_tool, answers_tool, ih]
    | system | user | assistant =>
      rw [List.cons_append, answers_of_not_tool rfl, answers_of_not_tool rfl]

theorem answers_pos {id : String} (hpos : 0 < answers id ms) :
    ∃ run m rest, ms = run ++ m :: rest ∧ m.answer? = some id ∧ ∀ y ∈ run, y.isTool = true := by
  obtain ⟨m, hm, hanswer⟩ := List.countP_pos_iff.1 hpos
  obtain ⟨run, rest, heq, hrun⟩ := mem_takeWhile_split hm
  exact ⟨run, m, rest, heq, of_decide_eq_true hanswer, hrun⟩

/-- **Blocks are answers in time.** When ids are unique, the calls of every message are answered in
the run of tool messages behind it, and no other, if and only if every call is answered there once
and every tool message answers a call that was made before and not answered before. -/
theorem blocks_iff (hunique : (ms.flatMap Message.callIds).Nodup) :
    Answered ∅ ms ∧ Blocks ms ↔
      (∀ before m after, ms = before ++ m :: after → ∀ id ∈ m.callIds, answers id after = 1) ∧
      ∀ before m after id, ms = before ++ m :: after → m.answer? = some id →
        id ∈ before.flatMap Message.callIds ∧ ∀ m' ∈ before, m'.answer? ≠ some id := by
  constructor
  · rintro ⟨hstart, hblocks⟩
    -- the call that a tool message answers was made right before the run it stands in
    have hcall : ∀ before m after id, ms = before ++ m :: after → m.answer? = some id →
        ∃ start caller run, before = start ++ caller :: run ∧ id ∈ caller.callIds ∧
          (∀ y ∈ run, y.isTool = true) ∧ ∀ y ∈ run, y.answer? ≠ some id := by
      intro before m after id heq hm
      have hm' : m.isTool = true := by rw [Message.isTool, hm]; rfl
      have hfirst : 0 < answers id (m :: after) := by
        refine List.countP_pos_iff.2 ⟨m, ?_, decide_eq_true hm⟩
        rw [List.takeWhile_cons, if_pos hm']
        exact List.mem_cons_self
      rcases last_not_tool before with hall | ⟨start, caller, run, rfl, hcaller, hrun⟩
      · have hzero := hstart id
        rw [if_neg (Finset.notMem_empty id), heq, answers_run hall] at hzero
        omega
      · have hone := hblocks start caller (run ++ m :: after) (by simp [heq]) hcaller id
        rw [answers_run hrun] at hone
        have hmem : id ∈ caller.callIds.toFinset := by
          by_contra hmem
          rw [if_neg hmem] at hone
          omega
        rw [if_pos hmem] at hone
        refine ⟨start, caller, run, rfl, List.mem_toFinset.1 hmem, hrun, fun y hy hanswer ↦ ?_⟩
        have hpos : 0 < run.countP fun m ↦ decide (m.answer? = some id) :=
          List.countP_pos_iff.2 ⟨y, hy, decide_eq_true hanswer⟩
        omega
    refine ⟨fun before m after heq id hid ↦ ?_, fun before m after id heq hm ↦ ?_⟩
    · have hm : m.isTool = false := by
        refine Bool.eq_false_iff.2 fun hm ↦ ?_
        rw [callIds_of_isTool hm] at hid
        cases hid
      rw [hblocks before m after heq hm id, if_pos (List.mem_toFinset.2 hid)]
    · obtain ⟨start, caller, run, rfl, hid, hrun, hother⟩ := hcall before m after id heq hm
      refine ⟨?_, fun m' hm' hanswer ↦ ?_⟩
      · rw [List.flatMap_append, List.flatMap_cons]
        exact List.mem_append_right _ (List.mem_append_left _ hid)
      · -- a tool message further up would answer another call with the same id
        rcases List.mem_append.1 hm' with hm' | hm'
        · obtain ⟨before', after', rfl⟩ := List.append_of_mem hm'
          obtain ⟨start', caller', run', rfl, hid', -, -⟩ := hcall before' m'
            (after' ++ caller :: run ++ m :: after) id (by simp [heq]) hanswer
          rw [heq] at hunique
          simp only [List.append_assoc, List.cons_append, List.flatMap_append,
            List.flatMap_cons] at hunique
          have hunique := (List.nodup_append'.1 hunique).2.1
          exact (List.nodup_append'.1 hunique).2.2 hid' (by simp [hid])
        · rcases List.mem_cons.1 hm' with rfl | hm'
          · have htool : m'.isTool = true := by rw [Message.isTool, hanswer]; rfl
            rw [callIds_of_isTool htool] at hid
            cases hid
          · exact hother m' hm' hanswer
  · rintro ⟨hanswered, hknown⟩
    refine ⟨fun id ↦ ?_, fun before m after heq hm id ↦ ?_⟩
    · rw [if_neg (Finset.notMem_empty id)]
      by_contra hne
      obtain ⟨run, m, rest, heq, hm, hrun⟩ := answers_pos (Nat.pos_of_ne_zero hne)
      obtain ⟨hmem, -⟩ := hknown run m rest id heq hm
      obtain ⟨m', hm', hid⟩ := List.mem_flatMap.1 hmem
      rw [callIds_of_isTool (hrun m' hm')] at hid
      cases hid
    · split_ifs with hid
      · exact hanswered before m after heq id (List.mem_toFinset.1 hid)
      · by_contra hne
        obtain ⟨run, m', rest, rfl, hm', hrun⟩ := answers_pos (Nat.pos_of_ne_zero hne)
        obtain ⟨hmem, hfirst⟩ := hknown (before ++ m :: run) m' rest id (by simp [heq]) hm'
        -- the call was made before `m`, and answered before `m`
        obtain ⟨caller, hcaller, hcall⟩ := List.mem_flatMap.1 hmem
        rcases List.mem_append.1 hcaller with hcaller | hcaller
        · obtain ⟨start, between, rfl⟩ := List.append_of_mem hcaller
          have hone := hanswered start caller (between ++ m :: (run ++ m' :: rest))
            (by simp [heq]) id hcall
          rw [answers_append_of_not_tool hm] at hone
          obtain ⟨run', m'', rest', rfl, hm'', -⟩ := answers_pos (hone ▸ Nat.one_pos)
          exact hfirst m'' (by simp) hm''
        · rcases List.mem_cons.1 hcaller with rfl | hcaller
          · exact hid (List.mem_toFinset.2 hcall)
          · rw [callIds_of_isTool (hrun caller hcaller)] at hcall
            cases hcall

/-! ### The result -/

theorem sound_iff : (∀ m ∈ ms, Sound parses body m) ↔
    (∀ m ∈ ms, ∀ c ∈ m.calls, c.name ∈ body.names ∧ parses c.arguments = true) ∧
      (∀ reasoning_content tool_calls,
        .assistant none reasoning_content tool_calls ∈ ms → tool_calls ≠ none) ∧
      (body.thinking = .enabled → body.declared ≠ [] →
        ∀ content reasoning_content tool_calls,
          .assistant content reasoning_content tool_calls ∈ ms → reasoning_content ≠ none) := by
  constructor
  · intro h
    refine ⟨fun m hm c hc ↦ ?_, fun _ _ hm ↦ (h _ hm).1 rfl,
      fun hthinking htools _ _ _ hm ↦ (h _ hm).2.1 hthinking htools⟩
    cases m with
    | assistant content reasoning_content tool_calls => exact (h _ hm).2.2 c hc
    | system | user | tool => cases hc
  · rintro ⟨hcalls, hcontent, hcontinued⟩ m hm
    cases m with
    | assistant content reasoning_content tool_calls =>
      refine ⟨?_, fun hthinking htools ↦ hcontinued hthinking htools _ _ _ hm, hcalls _ hm⟩
      rintro rfl
      exact hcontent _ _ hm
    | system | user | tool => trivial

theorem mem_names_iff {name : String} : name ∈ body.names ↔ ∃ t ∈ body.declared, t.name = name := by
  simp [StrictChatBody.names]

/-- The declared tools have names of their own. -/
def DistinctTools (body : StrictChatBody) : Prop :=
  (body.declared.map Tool.name).Nodup

theorem card_names_eq_iff : body.names.card = body.declared.length ↔ DistinctTools body := by
  rw [DistinctTools, StrictChatBody.names, ← List.length_map Tool.name]
  exact Multiset.toFinset_card_eq_card_iff_nodup

theorem any_isUser_iff : ms.any Message.isUser = true ↔ ∃ content, .user content ∈ ms := by
  rw [List.any_eq_true]
  constructor
  · rintro ⟨m, hm, huser⟩
    cases m with
    | user content => exact ⟨content, hm⟩
    | system | assistant | tool => cases huser
  · rintro ⟨content, hm⟩
    exact ⟨_, hm, rfl⟩

theorem wellFormed_iff : WellFormed parses body ↔
    Passes parses body ⟨∅, ∅⟩ body.messages ∧ body.messages.any Message.isUser = true := by
  rw [passes_iff, sound_iff, any_isUser_iff]
  have hfresh : Fresh ∅ (body.messages.flatMap Message.callIds) ↔
      (body.messages.flatMap Message.callIds).Nodup :=
    and_iff_left fun _ _ ↦ Finset.notMem_empty _
  constructor
  · intro h
    obtain ⟨hstart, hblocks⟩ := (blocks_iff h.unique).2 ⟨h.answered, h.known⟩
    refine ⟨⟨⟨fun m hm c hc ↦ ⟨?_, h.arguments m hm c hc⟩, h.content, h.continued⟩,
      hfresh.2 h.unique, hstart, hblocks⟩, h.user⟩
    exact mem_names_iff.2 (h.declared m hm c hc)
  · rintro ⟨⟨⟨hcalls, hcontent, hcontinued⟩, hunique, hstart, hblocks⟩, huser⟩
    obtain ⟨hanswered, hknown⟩ := (blocks_iff (hfresh.1 hunique)).1 ⟨hstart, hblocks⟩
    exact
      { unique := hfresh.1 hunique
        declared := fun m hm c hc ↦ mem_names_iff.1 (hcalls m hm c hc).1
        arguments := fun m hm c hc ↦ (hcalls m hm c hc).2
        answered := hanswered
        known := hknown
        content := hcontent
        continued := hcontinued
        user := huser }

theorem checkConversation_ok_iff {accepted : StrictChatBody} :
    checkConversation parses body = .ok accepted ↔
      body.generationValue ≤ 9223372036854775807 ∧ DistinctTools body ∧
        WellFormed parses body ∧ accepted = body := by
  rw [wellFormed_iff, ← card_names_eq_iff]
  unfold checkConversation
  split_ifs with hgeneration htools
  · exact ⟨fun h ↦ (by cases h), fun h ↦ absurd h.1 (by omega)⟩
  · exact ⟨fun h ↦ (by cases h), fun h ↦ absurd h.2.1 htools⟩
  · rw [Except.bind_eq_ok]
    constructor
    · rintro ⟨scan, hscan, hend⟩
      split_ifs at hend with hopen
      obtain rfl := Except.ok.inj hend
      obtain ⟨hpending, huser⟩ := not_or.1 hopen
      exact ⟨by omega, not_not.1 htools, ⟨⟨scan, hscan, not_not.1 hpending⟩,
        Bool.not_eq_false _ ▸ huser⟩, rfl⟩
    · rintro ⟨-, -, ⟨⟨scan, hscan, hpending⟩, huser⟩, rfl⟩
      refine ⟨scan, hscan, ?_⟩
      rw [if_neg]
      rintro (hne | hnone)
      · exact hne hpending
      · rw [huser] at hnone
        cases hnone

/-- **Strict chat accepts exactly the well-formed tool conversations**, among the values of at most
`8388608` bytes that have the schema, a generation below `2 ^ 63`, and tools with names of their
own. -/
theorem parseStrictChat_accepts_iff {value : Json} {accepted : StrictChatBody} :
    parseStrictChat parses value = .ok accepted ↔
      (String.ofList value.text).utf8ByteSize ≤ 8388608 ∧
        strictChatSchema value = some accepted ∧
        accepted.generationValue ≤ 9223372036854775807 ∧ DistinctTools accepted ∧
        WellFormed parses accepted := by
  unfold parseStrictChat
  split_ifs with hsize
  · exact ⟨fun h ↦ (by cases h), fun h ↦ absurd h.1 (by omega)⟩
  · split
    · rename_i hschema
      rw [hschema]
      exact ⟨fun h ↦ (by cases h), fun h ↦ (by cases h.2.1)⟩
    · rename_i body hschema
      rw [checkConversation_ok_iff, hschema]
      constructor
      · rintro ⟨hgeneration, htools, hwellFormed, rfl⟩
        exact ⟨by omega, rfl, hgeneration, htools, hwellFormed⟩
      · rintro ⟨-, heq, hgeneration, htools, hwellFormed⟩
        obtain rfl := Option.some.inj heq
        exact ⟨hgeneration, htools, hwellFormed, rfl⟩

end ModelConnector.Connectors.StrictContract
