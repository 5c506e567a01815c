import Mathlib.Data.List.TakeDrop
import ModelConnector.PolicyLog

/-!
# What a claimed prefix holds

The layers of a request are its blocks, cut behind the breakpoints. But for the system blocks that
are reported as misplaced, every block of the system and of the messages stands in one layer, once
and in order, and a stable layer ends with its only breakpoint or is reported as missing. Nothing
misplaced is let through in enforce mode, so that every block of the system is scanned of what the
connector sends.
-/

namespace ModelConnector.PromptCache

open PromptCachePolicyService

/-! ### Partitions -/

/-- The blocks end with their only breakpoint. -/
def Closed (blocks : List Json) : Prop :=
  ∃ init last, blocks = init ++ [last] ∧ hasCacheControl last = true ∧
    ∀ block ∈ init, hasCacheControl block = false

/-- The blocks have no breakpoint. -/
def Open (blocks : List Json) : Prop :=
  ∀ block ∈ blocks, hasCacheControl block = false

/-- Blocks are cut into closed parts and an open tail. -/
structure Cut (blocks : List Json) (parts : List (List Json)) (tail : List Json) : Prop where
  flatten_eq : parts.flatten ++ tail = blocks
  closed : ∀ part ∈ parts, Closed part
  tail_open : Open tail

theorem Closed.ne_nil {blocks : List Json} (h : Closed blocks) : blocks ≠ [] := by
  obtain ⟨init, last, rfl, -⟩ := h
  exact List.concat_ne_nil _ _

theorem Cut.concat {blocks tail : List Json} {parts : List (List Json)} (h : Cut blocks parts tail)
    (block : Json) :
    if hasCacheControl block then Cut (blocks ++ [block]) (parts ++ [tail ++ [block]]) []
    else Cut (blocks ++ [block]) parts (tail ++ [block]) := by
  split_ifs with hblock
  · refine ⟨by simp [← h.flatten_eq], fun part hpart ↦ ?_, fun _ h ↦ (by cases h)⟩
    rcases List.mem_append.1 hpart with hpart | hpart
    · exact h.closed part hpart
    · rw [List.mem_singleton.1 hpart]
      exact ⟨tail, block, rfl, hblock, h.tail_open⟩
  · refine ⟨by simp [← h.flatten_eq], h.closed, fun b hb ↦ ?_⟩
    rcases List.mem_append.1 hb with hb | hb
    · exact h.tail_open b hb
    · rw [List.mem_singleton.1 hb]
      exact Bool.eq_false_iff.2 hblock

theorem cut_partitions (blocks : List Json) :
    Cut blocks (partitions blocks).1 (partitions blocks).2 := by
  induction blocks using List.reverseRecOn with
  | nil => exact ⟨rfl, fun _ h ↦ (by cases h), fun _ h ↦ (by cases h)⟩
  | append_singleton blocks block ih =>
    have hnext := ih.concat block
    unfold partitions at hnext ⊢
    rw [List.foldl_append, List.foldl_cons, List.foldl_nil]
    split_ifs at hnext ⊢ <;> exact hnext

/-! ### The head of the messages -/

/-- The blocks of the messages. -/
def contents (messages : List Json) : List Json :=
  messages.flatMap fun message ↦ arrayMember message "content"

theorem arrayMember_replace {members : List (String × Json)} {rest : List Json} {key : String}
    (h : arrayMember (.obj members) key ≠ []) :
    arrayMember (.obj (members.map fun p ↦ if p.1 = key then (p.1, .arr rest) else p)) key =
      rest := by
  have hlookup : ∀ members : List (String × Json), (members.lookup key).isSome →
      (members.map fun p ↦ if p.1 = key then (p.1, .arr rest) else p).lookup key =
        some (.arr rest) := by
    intro members hsome
    induction members with
    | nil => cases hsome
    | cons p members ih =>
      by_cases hkey : p.1 = key
      · simp [hkey]
      · have hne : (key == p.1) = false := by simpa using Ne.symm hkey
        rw [List.lookup_cons, hne] at hsome
        rw [List.map_cons, if_neg hkey, List.lookup_cons, hne]
        exact ih hsome
  have hsome : (members.lookup key).isSome := by
    cases hmember : members.lookup key with
    | some v => rfl
    | none => exact absurd (by simp [arrayMember, Json.get?, Json.members?, hmember]) h
  simp [arrayMember, Json.get?, Json.members?, hlookup members hsome, Json.elems?]

/-- The head of the messages is closed, and the messages go on with what is left. -/
theorem splitHead_spec {messages head rest : List Json}
    (h : splitHead messages = some (head, rest)) :
    Closed head ∧ head ++ contents (tailMessages messages (some rest)) = contents messages := by
  cases messages with
  | nil => cases h
  | cons first others =>
    simp only [splitHead, List.head?_cons, Option.bind_some] at h
    split_ifs at h with hrole
    cases hspan : (arrayMember first "content").span fun block ↦ !hasCacheControl block with
    | mk before after =>
      rw [hspan] at h
      cases after with
      | nil => cases h
      | cons marked rest' =>
        cases h
        rw [List.span_eq_takeWhile_dropWhile, Prod.mk.injEq] at hspan
        obtain ⟨hbefore, hafter⟩ := hspan
        have hcontent : arrayMember first "content" = before ++ marked :: rest := by
          rw [← hbefore, ← hafter, List.takeWhile_append_dropWhile]
        have hmarked : hasCacheControl marked = true := by
          have hhead := List.head?_dropWhile_not (fun block ↦ !hasCacheControl block)
            (arrayMember first "content")
          rw [hafter] at hhead
          simpa using hhead
        refine ⟨⟨before, marked, rfl, hmarked, fun block hblock ↦ ?_⟩, ?_⟩
        · rw [← hbefore] at hblock
          simpa using List.mem_takeWhile_imp hblock
        · cases first with
          | obj members =>
            cases rest with
            | nil => simp [tailMessages, contents, hcontent]
            | cons b rest =>
              have hne : arrayMember (.obj members) "content" ≠ [] := by simp [hcontent]
              have hreplaced := @arrayMember_replace members (b :: rest) "content" hne
              simp [tailMessages, contents, hcontent, hreplaced]
          | _ => exact absurd hcontent (by simp [arrayMember, Json.get?, Json.members?])

/-! ### The layers -/

/-- The stable layers, by name. -/
def PrefixLayers.named (layers : PrefixLayers) : List (FindingLayer × List Json) :=
  [(.L1, layers.L1), (.L2, layers.L2), (.L3, layers.L3)]

/-- The blocks of the stable layers, in order. -/
def PrefixLayers.blocks (layers : PrefixLayers) : List Json :=
  layers.L1 ++ layers.L2 ++ layers.L3

/-- System blocks and messages are laid out: nothing is lost unless it is reported as misplaced, and
a layer is closed unless it is reported as missing. -/
structure Laid (blocks messages : List Json) (p : Placement) : Prop where
  lossless : p.layers.blocks ++ contents (tailMessages messages p.m0Rest) =
    blocks ++ contents messages ↔ p.misplaced = []
  covers : p.misplaced = [] → blocks ⊆ p.layers.blocks
  closed : ∀ layer ∈ p.layers.named, if layer.1 ∈ p.missing then Open layer.2 else Closed layer.2

theorem laid_placeBlocks (blocks messages : List Json) :
    Laid blocks messages (placeBlocks blocks messages) := by
  have hcut := cut_partitions blocks
  unfold placeBlocks
  cases hparts : partitions blocks with
  | mk parts tail =>
    rw [hparts] at hcut
    obtain ⟨hflatten, hclosed, hopen⟩ := hcut
    simp only at hflatten hclosed hopen ⊢
    rw [← hflatten]
    have hnil : Open [] := fun _ h ↦ (by cases h)
    match parts, hclosed with
    | [], _ =>
      exact ⟨by simp [PrefixLayers.blocks, tailMessages], by simp [PrefixLayers.blocks],
        by simp [PrefixLayers.named, hopen, hnil]⟩
    | [part], hclosed =>
      have hpart := hclosed part (by simp)
      exact ⟨by simp [PrefixLayers.blocks, tailMessages], by simp [PrefixLayers.blocks],
        by simp [PrefixLayers.named, hopen, hnil, hpart]⟩
    | [part, part'], hclosed =>
      have hpart := hclosed part (by simp)
      have hpart' := hclosed part' (by simp)
      cases tail with
      | nil =>
        cases hhead : splitHead messages with
        | none =>
          exact ⟨by simp [PrefixLayers.blocks, tailMessages], by simp [PrefixLayers.blocks],
            by simp [PrefixLayers.named, hnil, hpart, hpart']⟩
        | some split =>
          obtain ⟨head, rest⟩ := split
          obtain ⟨hhead', hcontents⟩ := splitHead_spec hhead
          refine ⟨?_, by simp [PrefixLayers.blocks],
            by simp [PrefixLayers.named, hpart, hpart', hhead']⟩
          simp [PrefixLayers.blocks, ← hcontents]
      | cons block tail =>
        exact ⟨by simp [PrefixLayers.blocks, tailMessages], by simp [PrefixLayers.blocks],
          by simp [PrefixLayers.named, hopen, hpart, hpart']⟩
    | part :: part' :: part'' :: rest, hclosed =>
      have hpart := hclosed part (by simp)
      have hpart' := hclosed part' (by simp)
      have hpart'' := hclosed part'' (by simp)
      have hrest : rest.flatten = [] ↔ rest = [] := by
        refine ⟨fun h ↦ ?_, fun h ↦ by rw [h]; rfl⟩
        cases rest with
        | nil => rfl
        | cons next rest =>
          exact absurd (List.flatten_eq_nil_iff.1 h next List.mem_cons_self)
            (hclosed next (by simp)).ne_nil
      -- the third partition is the last layer: what follows it is sent as well, and reported
      have hmisplaced : ((if 3 < (part :: part' :: part'' :: rest).length then
          [toString ((part :: part' :: part'' :: rest).length - 3) ++
            " extra system partition(s) after L3"] else []) ++
          if tail.isEmpty then [] else
            [toString tail.length ++ " system block(s) after the L3 breakpoint"]) = [] ↔
          rest = [] ∧ tail = [] := by
        cases rest <;> cases tail <;> simp
      have hplaced : 3 ≤ (part :: part' :: part'' :: rest).length := by simp
      simp only [hplaced, if_true]
      refine ⟨?_, fun h ↦ ?_, by simp [PrefixLayers.named, hpart, hpart', hpart'']⟩
      · rw [hmisplaced, ← hrest, ← List.append_eq_nil_iff]
        simp only [PrefixLayers.blocks, tailMessages, List.getD_cons_zero, List.getD_cons_succ,
          List.flatten_cons, List.append_assoc, List.append_cancel_left_eq]
        rw [← List.append_assoc rest.flatten]
        exact List.self_eq_append_left
      · obtain ⟨rfl, rfl⟩ := hmisplaced.1 h
        simp [PrefixLayers.blocks]

/-- The blocks of a system; a text is a block of its own. -/
def systemBlocks (req : Json) : List Json :=
  match stringMember req "system" with
  | some system => [.obj [("type", .str "text"), ("text", .str system)]]
  | none => arrayMember req "system"

theorem laid_place (req : Json) :
    Laid (systemBlocks req) (arrayMember req "messages") (place req) := by
  unfold place systemBlocks
  cases stringMember req "system" with
  | none => exact laid_placeBlocks _ _
  | some system =>
    have hopen : Open [.obj [("type", .str "text"), ("text", .str system)]] := by
      intro block hblock
      rw [List.mem_singleton.1 hblock]
      rfl
    exact ⟨by simp [PrefixLayers.blocks, tailMessages], by simp [PrefixLayers.blocks],
      by simpa [PrefixLayers.named, Open] using hopen⟩

/-- **The layout of a request**: its stable layers and what remains of its messages are its blocks,
in order, if and only if no block is reported as misplaced, and each stable layer ends with its only
breakpoint, or has none and is reported as missing. -/
theorem layout_lossless {sha256Text : String → String} {req : Json} {d : Derivation}
    (h : derive sha256Text req = .ok d) :
    (d.layers.blocks ++ contents d.L4 = systemBlocks req ++ contents (arrayMember req "messages") ↔
      d.misplaced = []) ∧
    ∀ layer ∈ d.layers.named, if layer.1 ∈ d.missing then Open layer.2 else Closed layer.2 := by
  have hderived := derived_of_derive h
  have hlaid := laid_place req
  rw [hderived.layers_eq, hderived.L4_eq, hderived.missing_eq, hderived.misplaced_eq]
  exact ⟨hlaid.lossless, hlaid.closed⟩

/-- A system of two blocks, and the third layer at the head of the messages. -/
def headedBody : Json :=
  .obj [("system", .arr [cachedBlock "a", cachedBlock "b"]),
    ("messages", .arr [.obj [("role", .str "user"),
      ("content", .arr [cachedBlock "c", .str "d"])]])]

/-- Nothing of it is misplaced, and the layers are its blocks. -/
theorem layout_lossless_headed : ∃ d, derive id headedBody = .ok d ∧
    d.layers.blocks ++ contents d.L4 =
      [cachedBlock "a", cachedBlock "b", cachedBlock "c", .str "d"] := by
  have hmisplaced : ((derive id headedBody).toOption.any fun d ↦ d.misplaced.isEmpty) = true := by
    decide +kernel
  cases hd : derive id headedBody with
  | error e =>
    rw [hd] at hmisplaced
    cases hmisplaced
  | ok d =>
    rw [hd] at hmisplaced
    exact ⟨d, rfl, ((layout_lossless hd).1.2 (List.isEmpty_iff.1 hmisplaced)).trans rfl⟩

/-! ### What is sent -/

section Sent

variable {sha256Text : String → String} {call : GateCall} {s : PromptCachePolicyService}
  {body : Json} {fields : PromptCacheRequestFields} {d : Derivation}

theorem isRecord_of_build (h : buildRequestBody call.request = .ok body) :
    body.isRecord = true := by
  unfold buildRequestBody at h
  obtain ⟨read, -, h⟩ := Except.bind_ok h
  cases read with
  | some messagesApi =>
    cases h
    rfl
  | none =>
    obtain ⟨content, -, h⟩ := Except.bind_ok h
    cases h
    rfl

/-- What is sent in enforce mode is evaluated as it is, and let through. -/
theorem passed_of_sent (hmode : s.mode = .enforce) (hsent : sentBody sha256Text call s = some body)
    (hfields : readPromptCacheFields call.request = .ok fields) :
    buildRequestBody call.request = .ok body ∧ ∃ decision,
      (evaluatePromptCachePolicy sha256Text
        { contract := s.contract, mode := .enforce, limits := s.limits }
        (call.evaluateCall fields body) s.store).1 = .ok decision ∧ decision.action ≠ .refuse := by
  unfold sentBody at hsent
  cases hgate : (gate sha256Text call s).1 with
  | refused type message details => simp [hgate] at hsent
  | thrown message => simp [hgate] at hsent
  | base decision =>
    simp only [hgate] at hsent
    cases hbuild : buildRequestBody call.request with
    | error e =>
      rw [hbuild] at hsent
      cases hsent
    | ok body' =>
      rw [hbuild] at hsent
      obtain rfl : body' = body := Option.some.inj hsent
      have hread : readRequest call.request = .ok (fields, body') := by
        unfold readRequest
        rw [hfields]
        exact Except.ok_bind rfl (Except.ok_bind hbuild rfl)
      simp only [gate, hread, PromptCachePolicyService.evaluate, hmode, PolicyMode.active?] at hgate
      refine ⟨rfl, ?_⟩
      cases hresult : evaluatePromptCachePolicy sha256Text
          { contract := s.contract, mode := .enforce, limits := s.limits }
          (call.evaluateCall fields body') s.store with
      | mk result store =>
        rw [hresult] at hgate
        cases result with
        | error e => simp at hgate
        | ok decision' =>
          refine ⟨decision', rfl, fun hrefused ↦ ?_⟩
          simp [hrefused] at hgate

/-- A request that claims a prefix, and whose layers are derived, is decided as such. -/
theorem claimed_of_evaluate {options : EvaluateOptions} {call : EvaluateCall} {store : PolicyStore}
    {decision : PromptCachePolicyDecision} (hrecord : call.body.isRecord = true)
    (hclaimed : cachingClaimed call.body call.ctx = true) (hd : derive sha256Text call.body = .ok d)
    (h : (evaluatePromptCachePolicy sha256Text options call store).1 = .ok decision) :
    decision.caching_claimed = true := by
  simp only [evaluatePromptCachePolicy, hrecord, hclaimed, hd, Bool.not_true, Bool.false_eq_true,
    if_false, evaluateDerived] at h
  cases hsession : evaluateSessionOf call (stringMember call.body "model") d store with
  | error e => simp [hsession] at h
  | ok session =>
    simp only [hsession, Except.ok.injEq] at h
    rw [← h, derivedDecision]

/-- In enforce mode the layers of what is let through are complete. -/
theorem complete_of_passed {options : EvaluateOptions} {call : EvaluateCall} {store : PolicyStore}
    {session : SessionEvaluation} {decision : PromptCachePolicyDecision}
    (hrec : Recorded sha256Text options call store d session decision)
    (hmode : options.mode = .enforce) : d.missing = [] ∧ d.misplaced = [] := by
  have hnone : ∀ finding, finding ∈ requestFindings options.contract d
      (resolveContractModel options.contract (stringMember call.body "model")) →
        finding.severity ≠ .error := by
    intro finding hfinding
    refine (hrec.severity_ne hmode ?_).2
    rw [hrec.findings_eq, prefixFindings]
    simp only [List.mem_append, hfinding, true_or]
  constructor
  · refine List.eq_nil_iff_forall_not_mem.2 fun layer hlayer ↦ ?_
    refine hnone _ ?_ (rfl : (contractFinding .MISSING_BREAKPOINT layer
      ("end of " ++ layer.text ++ " carries no cache_control")).severity = .error)
    unfold requestFindings
    simp only [List.mem_append, List.mem_map_of_mem hlayer, true_or, or_true]
  · refine List.eq_nil_iff_forall_not_mem.2 fun detail hdetail ↦ ?_
    refine hnone _ ?_ (rfl : (contractFinding .BREAKPOINT_MISPLACED .L3 detail).severity = .error)
    unfold requestFindings
    simp only [List.mem_append, List.mem_map_of_mem hdetail, true_or, or_true]

/-- **What is sent in enforce mode**, at any time of any run of requests and switches: when it
claims a prefix, and its layers are derived, every stable layer is closed, every block of the system
is in one of them, and no text of them holds a match of a pattern of the contract, but for
identifiers in the third. -/
theorem sent_prefix_scanned {limits : StoreOptions} {store : PolicyStore} {bootMode : PolicyMode}
    {ts : ℤ} {h : List (PromptCachePolicyService × ServiceCall)} {last : PromptCachePolicyService}
    (hr : Run (serviceStep sha256Text) (boot vendoredContract limits store bootMode ts) h last)
    (hmem : (s, ServiceCall.execute call) ∈ h) (hmode : s.mode = .enforce)
    (hsent : sentBody sha256Text call s = some body)
    (hfields : readPromptCacheFields call.request = .ok fields)
    (hclaimed : cachingClaimed body (call.evaluateCall fields body).ctx = true)
    (hd : derive sha256Text body = .ok d) :
    (∀ layer ∈ d.layers.named, Closed layer.2) ∧
      d.layers.blocks ++ contents d.L4 =
        systemBlocks body ++ contents (arrayMember body "messages") ∧
      systemBlocks body ⊆ d.layers.blocks ∧
      ∀ rule ∈ scanPatterns, ∀ r ∈ rule.2, ∀ layer ∈ d.layers.named,
        rule.1 ≠ .DYN_UUID ∨ layer.1 ≠ .L3 → ∀ block ∈ layer.2, ∀ t,
          blockText block = .ok (some t) → ¬ r.Found t.toList := by
  obtain ⟨h', hr', -⟩ := hr.exists_of_mem _ hmem
  have hlogged : Logged vendoredContract bootMode s :=
    hr'.invariant logged_boot fun hs hstep ↦ hs.does (does_of_step hstep)
  obtain ⟨hbuild, decision, hdecision, hpassed⟩ := passed_of_sent hmode hsent hfields
  obtain ⟨session, hrec⟩ := recorded_of_passed hdecision hpassed
    (claimed_of_evaluate (isRecord_of_build hbuild) hclaimed hd hdecision) hd
  obtain ⟨hmissing, hmisplaced⟩ := complete_of_passed hrec rfl
  have hderived := derived_of_derive hd
  have hlaid := laid_place body
  refine ⟨fun layer hlayer ↦ ?_, ?_, ?_,
    fun rule hrule r hr layer hlayer huuid block hblock t ht ↦ ?_⟩
  · have hclosed := hlaid.closed layer (hderived.layers_eq ▸ hlayer)
    rwa [← hderived.missing_eq, hmissing, if_neg List.not_mem_nil] at hclosed
  · rw [hderived.layers_eq, hderived.L4_eq]
    exact hlaid.lossless.2 (hderived.misplaced_eq ▸ hmisplaced)
  · rw [hderived.layers_eq]
    exact hlaid.covers (hderived.misplaced_eq ▸ hmisplaced)
  · intro hfound
    have hscan : ∀ text, (layer.1, text) ∈ d.prefixText.layers → ¬ r.Found text.toList :=
      fun text htext ↦ not_found_of_passed hrec rfl hlogged.contract_eq hrule htext huuid hr
    have hinsensitive := insensitive_scanPatterns rule hrule r hr
    simp only [PrefixLayers.named, List.mem_cons, List.not_mem_nil, or_false] at hlayer
    rcases hlayer with rfl | rfl | rfl
    · exact hscan _ (by simp [PrefixText.layers])
        (found_textOfBlocks hinsensitive hderived.L1_text hblock ht hfound)
    · exact hscan _ (by simp [PrefixText.layers])
        (found_textOfBlocks hinsensitive hderived.L2_text hblock ht hfound)
    · exact hscan _ (by simp [PrefixText.layers])
        (found_textOfBlocks hinsensitive hderived.L3_text hblock ht hfound)

end Sent

/-- A request with three closed layers, for a model whose minimum prefix is not known. -/
def sentCall : GateCall where
  request :=
    { model := some "other"
      prompt := .inl ""
      extra := some [("messages_api", .obj [
        ("system", .arr [cachedBlock "a", cachedBlock "b", cachedBlock "c"]),
        ("messages", .arr [.obj [("role", .str "user"), ("content", .str "d")]])])] }
  tenantId := some "t"

/-- It claims the cache, and its system is scanned. -/
theorem sent_prefix_scanned_other : ∃ body,
    sentBody id sentCall (boot vendoredContract {} {} .enforce 0) = some body ∧
      ∃ d, derive id body = .ok d ∧ systemBlocks body ⊆ d.layers.blocks := by
  have hcheck : ((sentBody id sentCall (boot vendoredContract {} {} .enforce 0)).any fun body ↦
      cachingClaimed body (sentCall.evaluateCall {} body).ctx &&
        (derive id body).toOption.isSome) = true := by decide +kernel
  cases hsent : sentBody id sentCall (boot vendoredContract {} {} .enforce 0) with
  | none =>
    rw [hsent] at hcheck
    cases hcheck
  | some body =>
    rw [hsent, Option.any_some, Bool.and_eq_true] at hcheck
    cases hd : derive id body with
    | error e =>
      rw [hd] at hcheck
      cases hcheck.2
    | ok d =>
      have hr := Run.nil.snoc (e := ServiceCall.execute sentCall)
        (show serviceStep id (boot vendoredContract {} {} .enforce 0) _ = some _ from rfl)
      exact ⟨body, rfl, d, hd,
        (sent_prefix_scanned hr (by simp) rfl hsent rfl hcheck.1 hd).2.2.1⟩

end ModelConnector.PromptCache
