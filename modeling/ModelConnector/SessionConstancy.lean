import ModelConnector.Foundations.Result
import ModelConnector.Foundations.Run
import ModelConnector.PromptCache.Policy

/-!
# The constancy of a session

All requests of a session that are let through in one epoch have the same model, the same prefix
and messages that continue each other, as long as nothing in them is lost on the way to the texts
that a session is compared by.
-/

namespace ModelConnector.PromptCache

/-! ### What stripping loses -/

mutual

/-- No member of the value, at any depth, is lost when it is stripped. -/
def plain : Json → Bool
  | .arr elems => plainAll elems
  | .obj members => plainMembers members
  | _ => true

/-- The elements are plain. -/
def plainAll : List Json → Bool
  | [] => true
  | v :: rest => plain v && plainAll rest

/-- The members are kept, and plain. -/
def plainMembers : List (String × Json) → Bool
  | [] => true
  | p :: rest => p.1 ≠ "cache_control" && p.1 ≠ "__proto__" && plainPair p && plainMembers rest

/-- The value of a member is plain. -/
def plainPair : String × Json → Bool
  | (_, v) => plain v

end

theorem stripAll_eq_map (elems : List Json) : stripAll elems = elems.map stripCacheControl := by
  induction elems with
  | nil => rfl
  | cons v rest ih => rw [stripAll, ih, List.map_cons]

theorem plainAll_iff {elems : List Json} : plainAll elems = true ↔ ∀ v ∈ elems, plain v = true := by
  induction elems with
  | nil => simp [plainAll]
  | cons v rest ih => rw [plainAll, Bool.and_eq_true, ih, List.forall_mem_cons]

theorem stripMembers_of_plain {members : List (String × Json)}
    (hplain : plainMembers members = true)
    (hstrip : ∀ p ∈ members, plain p.2 = true → stripCacheControl p.2 = p.2) :
    stripMembers members = members := by
  induction members with
  | nil => rfl
  | cons p rest ih =>
    obtain ⟨key, v⟩ := p
    simp only [plainMembers, plainPair, Bool.and_eq_true, decide_eq_true_eq] at hplain
    obtain ⟨⟨⟨hmarker, hproto⟩, hvalue⟩, hrest⟩ := hplain
    have hv : stripCacheControl v = v := hstrip (key, v) (by simp) hvalue
    rw [stripMembers, if_neg (by simp [hmarker, hproto]), stripPair, hv,
      ih hrest fun q hq ↦ hstrip q (by simp [hq])]

/-- Nothing is lost of a plain value. -/
theorem strip_of_plain (v : Json) : plain v = true → stripCacheControl v = v := by
  induction v using Json.induction with
  | arr elems ih =>
    intro hplain
    rw [stripCacheControl, stripAll_eq_map,
      List.map_congr_left fun v hv ↦ ih v hv (plainAll_iff.1 hplain v hv), List.map_id']
  | obj members ih =>
    intro hplain
    rw [stripCacheControl, stripMembers_of_plain hplain ih]
  | null => exact fun _ ↦ rfl
  | bool b => exact fun _ ↦ rfl
  | num n => exact fun _ ↦ rfl
  | nonFinite => exact fun _ ↦ rfl
  | str s => exact fun _ ↦ rfl

/-- A content block without its marker. -/
def unmarkBlock : Json → Json
  | .obj members => .obj (members.filter fun p ↦ p.1 ≠ "cache_control")
  | v => v

/-- Content without the markers of its blocks. -/
def unmarkContent : Json → Json
  | .arr blocks => .arr (blocks.map unmarkBlock)
  | v => v

/-- A message without the markers of its content blocks. -/
def unmark : Json → Json
  | .obj members =>
    .obj (members.map fun p ↦ if p.1 = "content" then (p.1, unmarkContent p.2) else p)
  | v => v

theorem strip_unmarkBlock (v : Json) : stripCacheControl (unmarkBlock v) = stripCacheControl v := by
  cases v with
  | obj members =>
    simp only [unmarkBlock, stripCacheControl]
    congr 1
    induction members with
    | nil => rfl
    | cons p rest ih =>
      by_cases hmarker : p.1 = "cache_control"
      · rw [List.filter_cons_of_neg (by simp [hmarker]), stripMembers, if_pos (.inl hmarker), ih]
      · rw [List.filter_cons_of_pos (by simp [hmarker]), stripMembers, stripMembers, ih]
  | _ => rfl

theorem strip_unmarkContent (v : Json) :
    stripCacheControl (unmarkContent v) = stripCacheControl v := by
  cases v with
  | arr blocks =>
    simp only [unmarkContent, stripCacheControl, stripAll_eq_map, List.map_map]
    exact congrArg Json.arr (List.map_congr_left fun block _ ↦ strip_unmarkBlock block)
  | _ => rfl

/-- The markers of content blocks are stripped anyway. -/
theorem strip_unmark (v : Json) : stripCacheControl (unmark v) = stripCacheControl v := by
  cases v with
  | obj members =>
    simp only [unmark, stripCacheControl]
    congr 1
    induction members with
    | nil => rfl
    | cons p rest ih =>
      obtain ⟨key, v⟩ := p
      rw [List.map_cons, stripMembers, stripMembers, ih]
      by_cases hcontent : key = "content"
      · simp only [hcontent, if_true, stripPair, strip_unmarkContent]
      · simp only [hcontent, if_false]
  | _ => rfl

theorem unmarkBlock_of_not_hasCacheControl {v : Json} (h : hasCacheControl v = false) :
    unmarkBlock v = v := by
  cases v with
  | obj members =>
    refine congrArg Json.obj (List.filter_eq_self.2 fun p hp ↦ ?_)
    have hnone : members.lookup "cache_control" = none := by
      simpa [hasCacheControl, Json.get?, Json.members?] using h
    have hkey : ("cache_control" != p.1) = true := List.lookup_eq_none_iff.1 hnone p hp
    exact decide_eq_true (bne_iff_ne.1 hkey).symm
  | _ => rfl

/-! ### What the tools of a session are compared by -/

/-- Names without blanks can be told from their text joined with blanks. -/
theorem eq_of_intercalate_eq {names names' : List String} (hlength : names.length = names'.length)
    (hblank : ∀ name ∈ names, ' ' ∉ name.toList) (hblank' : ∀ name ∈ names', ' ' ∉ name.toList)
    (h : " ".intercalate names = " ".intercalate names') : names = names' := by
  have hsep : " " = String.singleton ' ' := by decide
  have hsplit := String.toList_split_intercalate hblank
  rw [← hsep, h, hsep, String.toList_split_intercalate hblank'] at hsplit
  rcases eq_or_ne names [] with rfl | hne
  · exact (List.length_eq_zero_iff.1 hlength.symm).symm
  · have hne' : names' ≠ [] := by
      rintro rfl
      exact hne (List.length_eq_zero_iff.1 hlength)
    rw [if_neg hne, if_neg hne'] at hsplit
    exact hsplit.symm

/-- The entries of a table that is filled under distinct names. -/
theorem entries_foldl_insert (entries : List (String × String))
    (defs : AList fun _ : String ↦ String) (hnodup : (entries.map Prod.fst).Nodup)
    (hfresh : ∀ entry ∈ entries, entry.1 ∉ defs) :
    (entries.foldl (fun defs (name, text) ↦ defs.insert name text) defs).entries =
      (entries.map fun entry ↦ (⟨entry.1, entry.2⟩ : Sigma fun _ : String ↦ String)).reverse ++
        defs.entries := by
  induction entries generalizing defs with
  | nil => rfl
  | cons entry rest ih =>
    obtain ⟨name, text⟩ := entry
    obtain ⟨hname, hrest⟩ := List.nodup_cons.1 hnodup
    have hnew : name ∉ defs := hfresh (name, text) (by simp)
    rw [List.foldl_cons, ih _ hrest fun entry hentry hmem ↦ ?_,
      AList.entries_insert_of_notMem hnew, List.map_cons, List.reverse_cons, List.append_assoc]
    · rfl
    · rcases AList.mem_insert _ |>.1 hmem with heq | hmem
      · exact hname (List.mem_map.2 ⟨entry, hentry, heq⟩)
      · exact hfresh entry (by simp [hentry]) hmem

theorem length_toolOrder (tools : List Json) : (toolOrder tools).length = tools.length := by
  simp [toolOrder]

theorem canonicalText_ok {v : Json} {text : String} (h : canonicalText v = .ok text) :
    v.canonicalJson = some text := by
  unfold canonicalText at h
  cases hv : v.canonicalJson with
  | none => simp [hv] at h
  | some text' =>
    rw [hv] at h
    cases h
    rfl

theorem text_of_canonicalText {v : Json} {text : String} (h : canonicalText v = .ok text) :
    v.text = text.toList := by
  obtain ⟨-, htext⟩ := Option.ite_none_right_eq_some.1 (canonicalText_ok h)
  rw [← Option.some.inj htext, String.toList_ofList]

/-- Tools are recorded as they are, under distinct names without blanks. -/
structure RecordedAs (tools : List Json) (recorded : ToolDefs) : Prop where
  nodup : (toolOrder tools).Nodup
  blank : ∀ name ∈ toolOrder tools, ' ' ∉ name.toList
  order_eq : recorded.order = toolOrder tools
  entries_eq : recorded.defs.entries =
    (((toolOrder tools).zip (tools.map fun tool ↦ String.ofList tool.text)).map fun entry ↦
      (⟨entry.1, entry.2⟩ : Sigma fun _ : String ↦ String)).reverse

theorem toolDefs_recordedAs {tools : List Json} {recorded : ToolDefs}
    (h : toolDefs tools = .ok recorded) (hnodup : (toolOrder tools).Nodup)
    (hblank : ∀ name ∈ toolOrder tools, ' ' ∉ name.toList)
    (hstrip : ∀ tool ∈ tools, stripCacheControl tool = tool) : RecordedAs tools recorded := by
  obtain ⟨texts, htexts, h⟩ := Except.bind_ok h
  cases h
  rw [Except.eq_map_of_mapM htexts fun tool htool text htext ↦ by
    rw [hstrip tool htool] at htext
    exact (String.ofList_toList.symm.trans
      (congrArg String.ofList (text_of_canonicalText htext).symm) :
        text = String.ofList tool.text)]
  refine ⟨hnodup, hblank, rfl, ?_⟩
  have hkeys : (((toolOrder tools).zip (tools.map fun tool ↦ String.ofList tool.text)).map
      Prod.fst).Nodup := by
    rwa [List.map_fst_zip (by rw [length_toolOrder, List.length_map])]
  exact (entries_foldl_insert _ _ hkeys fun _ _ ↦ AList.notMem_empty _).trans (List.append_nil _)

/-- Tools that are recorded alike have the same texts, in the same order. -/
theorem RecordedAs.texts_eq {tools tools' : List Json} {recorded recorded' : ToolDefs}
    (h : RecordedAs tools recorded) (h' : RecordedAs tools' recorded')
    (hsame : sameDefs recorded.defs recorded'.defs = true)
    (hjoined : " ".intercalate recorded.order = " ".intercalate recorded'.order) :
    tools.map Json.text = tools'.map Json.text := by
  obtain ⟨hsize, hall⟩ := Bool.and_eq_true_iff.1 hsame
  have hsize := of_decide_eq_true hsize
  have hlength : tools.length = tools'.length := by
    simpa [h.entries_eq, h'.entries_eq, length_toolOrder] using hsize
  have hnames : toolOrder tools = toolOrder tools' := by
    rw [h.order_eq, h'.order_eq] at hjoined
    exact eq_of_intercalate_eq (by simpa [length_toolOrder] using hlength) h.blank h'.blank hjoined
  refine List.ext_getElem (by simpa using hlength) fun i hi hi' ↦ ?_
  rw [List.getElem_map, List.getElem_map]
  rw [List.length_map] at hi hi'
  have hiname : i < (toolOrder tools).length := by rwa [length_toolOrder]
  -- the definition recorded under a name is found in the other table, under the same name
  have hmem : (⟨(toolOrder tools)[i], String.ofList tools[i].text⟩ : Sigma fun _ : String ↦ String) ∈
      recorded.defs.entries := by
    rw [h.entries_eq, List.mem_reverse]
    exact List.mem_map.2 ⟨_, List.mem_iff_getElem.2 ⟨i, by simp [hi, hiname], List.getElem_zip⟩,
      by rw [List.getElem_map]⟩
  have hfound := of_decide_eq_true (List.all_eq_true.1 hall _ hmem)
  have hmem' := AList.mem_lookup_iff.1 (Option.mem_def.2 hfound)
  rw [h'.entries_eq, List.mem_reverse] at hmem'
  obtain ⟨entry, hzip, heq⟩ := List.mem_map.1 hmem'
  obtain ⟨j, hj, rfl⟩ := List.mem_iff_getElem.1 hzip
  simp only [List.getElem_zip, List.getElem_map, Sigma.mk.injEq, heq_eq_eq] at heq
  have hij : j = i := by
    simp only [← hnames] at heq
    exact (List.Nodup.getElem_inj_iff h.nodup).1 heq.1
  subst hij
  exact (String.ofList_injective heq.2).symm

/-! ### What the prefix hash is determined by -/

section Derived

variable {sha256Text : String → String}

/-- What the hashes of a derivation are taken of. -/
theorem derive_ok {req : Json} {d : Derivation} (h : derive sha256Text req = .ok d) :
    d.L0 = arrayMember req "tools" ∧ d.toolCc = (d.L0.filter hasCacheControl).length ∧
    ∃ L1 L2 L3 all, canonicalText (.arr d.layers.L1) = .ok L1 ∧
      canonicalText (.arr d.layers.L2) = .ok L2 ∧ canonicalText (.arr d.layers.L3) = .ok L3 ∧
      canonicalText (prefixValue d.L0 d.layers) = .ok all ∧
      d.layerHashes.L1 = sha256Text L1 ∧ d.layerHashes.L2 = sha256Text L2 ∧
      d.layerHashes.L3 = sha256Text L3 ∧ d.prefixHash = sha256Text all := by
  unfold derive at h
  obtain ⟨_, -, h⟩ := Except.bind_ok h
  obtain ⟨_, -, h⟩ := Except.bind_ok h
  obtain ⟨_, -, h⟩ := Except.bind_ok h
  obtain ⟨_, -, h⟩ := Except.bind_ok h
  obtain ⟨L1, h1, h⟩ := Except.bind_ok h
  obtain ⟨L2, h2, h⟩ := Except.bind_ok h
  obtain ⟨L3, h3, h⟩ := Except.bind_ok h
  obtain ⟨all, hall, h⟩ := Except.bind_ok h
  obtain ⟨_, -, h⟩ := Except.bind_ok h
  obtain ⟨_, -, h⟩ := Except.bind_ok h
  obtain ⟨_, -, h⟩ := Except.bind_ok h
  cases h
  exact ⟨rfl, rfl, L1, L2, L3, all, h1, h2, h3, hall, rfl, rfl, rfl, rfl⟩

/-- The text of the prefix is determined by those of its parts. -/
theorem text_prefixValue {tools tools' : List Json} {layers layers' : PrefixLayers}
    (h0 : (Json.arr tools).text = (Json.arr tools').text)
    (h1 : (Json.arr layers.L1).text = (Json.arr layers'.L1).text)
    (h2 : (Json.arr layers.L2).text = (Json.arr layers'.L2).text)
    (h3 : (Json.arr layers.L3).text = (Json.arr layers'.L3).text) :
    (prefixValue tools layers).text = (prefixValue tools' layers').text := by
  simp only [prefixValue, Json.text, Json.memberTexts, Json.pairText] at h0 h1 h2 h3 ⊢
  rw [h0, h1, h2, h3]

/-- Derivations whose tools have the same texts, and whose layers the same hashes, have the same
prefix hash. -/
theorem prefixHash_eq (hsha : Function.Injective sha256Text) {req req' : Json} {d d' : Derivation}
    (hd : derive sha256Text req = .ok d) (hd' : derive sha256Text req' = .ok d')
    (htools : d.L0.map Json.text = d'.L0.map Json.text)
    (h1 : d.layerHashes.L1 = d'.layerHashes.L1) (h2 : d.layerHashes.L2 = d'.layerHashes.L2)
    (h3 : d.layerHashes.L3 = d'.layerHashes.L3) : d.prefixHash = d'.prefixHash := by
  obtain ⟨-, -, L1, L2, L3, all, hL1, hL2, hL3, hall, he1, he2, he3, hp⟩ := derive_ok hd
  obtain ⟨-, -, L1', L2', L3', all', hL1', hL2', hL3', hall', he1', he2', he3', hp'⟩ := derive_ok hd'
  obtain rfl : L1 = L1' := hsha (by rw [← he1, ← he1', h1])
  obtain rfl : L2 = L2' := hsha (by rw [← he2, ← he2', h2])
  obtain rfl : L3 = L3' := hsha (by rw [← he3, ← he3', h3])
  have h0 : (Json.arr d.L0).text = (Json.arr d'.L0).text := by
    rw [Json.text, Json.text, Json.texts_eq_map, Json.texts_eq_map, htools]
  have htext := text_prefixValue h0
    ((text_of_canonicalText hL1).trans (text_of_canonicalText hL1').symm)
    ((text_of_canonicalText hL2).trans (text_of_canonicalText hL2').symm)
    ((text_of_canonicalText hL3).trans (text_of_canonicalText hL3').symm)
  rw [text_of_canonicalText hall, text_of_canonicalText hall'] at htext
  rw [hp, hp', String.toList_injective htext]

/-- With the same prefix hash, what is hashed is the same up to the order of members. -/
theorem prefixValue_eq_of_hash (hsha : Function.Injective sha256Text) {req req' : Json}
    {d d' : Derivation} (hd : derive sha256Text req = .ok d) (hd' : derive sha256Text req' = .ok d')
    (h : d.prefixHash = d'.prefixHash) :
    (prefixValue d.L0 d.layers).normalize = (prefixValue d'.L0 d'.layers).normalize := by
  obtain ⟨-, -, L1, L2, L3, all, -, -, -, hall, -, -, -, hp⟩ := derive_ok hd
  obtain ⟨-, -, L1', L2', L3', all', -, -, -, hall', -, -, -, hp'⟩ := derive_ok hd'
  obtain rfl : all = all' := hsha (by rw [← hp, ← hp', h])
  exact Json.normalize_eq_of_canonicalJson (canonicalText_ok hall) (canonicalText_ok hall')

end Derived

/-! ### What the session rules let through -/

section Session

variable {sha256Text : String → String} {options : EvaluateOptions} {call : EvaluateCall}
  {store : PolicyStore} {d : Derivation} {session : SessionEvaluation}
  {decision : PromptCachePolicyDecision}

/-- A request of which nothing is lost on the way to the texts its session is compared by. -/
structure Ordinary (call : EvaluateCall) : Prop where
  tenant : ' ' ∉ call.ctx.tenant.toList
  tools : ∀ tool ∈ arrayMember call.body "tools", plain (unmarkBlock tool) = true
  named : (toolNames (arrayMember call.body "tools")).Nodup →
    (toolOrder (arrayMember call.body "tools")).Nodup
  blank : ∀ name ∈ toolOrder (arrayMember call.body "tools"), ' ' ∉ name.toList
  messages : ∀ message ∈ arrayMember call.body "messages", plain (unmark message) = true

/-- A finding of the request alone does not let an error through. -/
theorem Recorded.not_mem_requestFindings
    (h : Recorded sha256Text options call store d session decision)
    (hmode : options.mode = .enforce) {finding : PolicyFinding} (herror : finding.severity = .error) :
    finding ∉ requestFindings options.contract d
      (resolveContractModel options.contract (stringMember call.body "model")) := by
  intro hmem
  have hfound : finding ∈ decision.findings := by
    rw [h.findings_eq, prefixFindings]
    simp [hmem]
  exact (h.severity_ne hmode hfound).2 herror

/-- No tool of a request that is let through is marked. -/
theorem Recorded.tools_unmarked (h : Recorded sha256Text options call store d session decision)
    (hmode : options.mode = .enforce) : ∀ tool ∈ d.L0, hasCacheControl tool = false := by
  obtain ⟨-, hcc, -⟩ := derive_ok h.derived
  by_contra hmarked
  push Not at hmarked
  obtain ⟨tool, htool, hmarker⟩ := hmarked
  have hpos : 0 < d.toolCc := by
    rw [hcc]
    exact List.length_pos_of_mem (List.mem_filter.2 ⟨htool, by simpa using hmarker⟩)
  have hfound : contractFinding .BREAKPOINT_MISPLACED .L0
      (toString d.toolCc ++ " tool definition(s) carry cache_control") ∈
        requestFindings options.contract d
          (resolveContractModel options.contract (stringMember call.body "model")) := by
    simp [requestFindings, hpos]
  exact h.not_mem_requestFindings hmode rfl hfound

/-- No two tools of a request that is let through have one name. -/
theorem Recorded.toolNames_nodup (h : Recorded sha256Text options call store d session decision)
    (hmode : options.mode = .enforce) : (toolNames d.L0).Nodup := by
  rw [List.nodup_iff_count_le_one]
  intro name
  by_contra hcount
  have hmem : name ∈ toolNames d.L0 := List.count_pos_iff.1 (by omega)
  have hdup : contractFinding .TOOL_DUPLICATE .L0 ("tool " ++ stringify name ++ " defined " ++
      toString ((toolNames d.L0).count name) ++ " times") ∈
        (toolNames d.L0).eraseDups.filterMap fun name ↦
          let count := (toolNames d.L0).count name
          if 1 < count then
            some (contractFinding .TOOL_DUPLICATE .L0
              ("tool " ++ stringify name ++ " defined " ++ toString count ++ " times"))
          else none :=
    List.mem_filterMap.2 ⟨name, List.mem_eraseDups.2 hmem, if_pos (by omega)⟩
  have hfound : contractFinding .TOOL_DUPLICATE .L0 ("tool " ++ stringify name ++ " defined " ++
      toString ((toolNames d.L0).count name) ++ " times") ∈ requestFindings options.contract d
        (resolveContractModel options.contract (stringMember call.body "model")) := by
    unfold requestFindings
    simp only [List.mem_append]
    exact .inl (.inl (.inr hdup))
  exact h.not_mem_requestFindings hmode rfl hfound

/-- How the tools of an ordinary request are recorded. -/
theorem Recorded.recordedAs (h : Recorded sha256Text options call store d session decision)
    (hmode : options.mode = .enforce) (hordinary : Ordinary call) {recorded : ToolDefs}
    (hrecorded : toolDefs d.L0 = .ok recorded) : RecordedAs d.L0 recorded := by
  obtain ⟨htools, -, -⟩ := derive_ok h.derived
  refine toolDefs_recordedAs hrecorded ?_ ?_ fun tool htool ↦ ?_
  · rw [htools]
    exact hordinary.named (htools ▸ h.toolNames_nodup hmode)
  · rw [htools]
    exact hordinary.blank
  · have hplain := hordinary.tools tool (htools ▸ htool)
    rw [unmarkBlock_of_not_hasCacheControl (h.tools_unmarked hmode tool htool)] at hplain
    exact strip_of_plain tool hplain

/-- The list is not continued by another one when a position differs, or it is longer. -/
theorem prefix_of_firstRewritten {previous current : List String} {i : ℕ}
    (hlength : previous.length ≤ current.length) (h : firstRewritten previous current i = none) :
    previous <+: current := by
  induction previous generalizing current i with
  | nil => exact List.nil_prefix
  | cons p previous ih =>
    cases current with
    | nil => exact absurd hlength (Nat.not_succ_le_zero _)
    | cons c current =>
      rw [firstRewritten] at h
      split at h
      · cases h
      · rename_i heq
        obtain rfl := Classical.not_not.1 heq
        exact List.prefix_cons_inj p |>.2 (ih (Nat.le_of_succ_le_succ hlength) h)

theorem prefix_of_appendOnly {previous current : List String} {index : ℕ}
    (h : appendOnlyFinding previous current index = none) : previous <+: current := by
  unfold appendOnlyFinding at h
  dsimp only at h
  split at h
  · cases h
  · rename_i hlength
    exact prefix_of_firstRewritten (Nat.le_of_not_lt hlength) (Option.map_eq_none_iff.1 h)

/-- What a request is compared by with its session: nothing, when it starts an epoch. -/
structure Follows (model : Option String) (d : Derivation) (messages : List String)
    (tools : ToolDefs) (previous : SessionSnapshot) : Prop where
  model_eq : model = previous.baseline.model
  tools_same : sameDefs tools.defs previous.baseline.tools.defs = true
  order_eq : " ".intercalate tools.order = " ".intercalate previous.baseline.tools.order
  L1_eq : d.layerHashes.L1 = previous.baseline.layerHashes.L1
  L2_eq : d.layerHashes.L2 = previous.baseline.layerHashes.L2
  L3_eq : d.layerHashes.L3 = previous.baseline.layerHashes.L3
  messages_prefix : previous.lastMessages <+: messages

/-- Without an error among the session findings, the request follows the session. -/
theorem follows_of_findings {model : Option String} {messages : List String} {tools : ToolDefs}
    {params : String} {previous : SessionSnapshot} {index : ℕ}
    (h : ∀ finding ∈ sessionFindings model tools d.layerHashes params previous.baseline index ++
      (appendOnlyFinding previous.lastMessages messages index).toList, finding.severity ≠ .error) :
    Follows model d messages tools previous := by
  have hsession : ∀ finding ∈ sessionFindings model tools d.layerHashes params previous.baseline
      index, finding.severity ≠ .error := fun finding hmem ↦ h finding (by simp [hmem])
  have happend : appendOnlyFinding previous.lastMessages messages index = none := by
    cases happend : appendOnlyFinding previous.lastMessages messages index with
    | none => rfl
    | some finding =>
      refine absurd ?_ (h finding (by simp [happend]))
      unfold appendOnlyFinding at happend
      dsimp only at happend
      split at happend
      · cases happend
        rfl
      · obtain ⟨i, -, rfl⟩ := Option.map_eq_some_iff.1 happend
        rfl
  unfold sessionFindings at hsession
  simp only [List.mem_append, or_imp, forall_and] at hsession
  obtain ⟨⟨⟨⟨⟨hmodel, htools⟩, hL1⟩, hL2⟩, hL3⟩, -⟩ := hsession
  have hsame : sameDefs tools.defs previous.baseline.tools.defs = true := by
    by_contra hne
    rw [if_pos (by simpa using hne)] at htools
    exact htools _ (List.mem_singleton_self _) rfl
  refine ⟨?_, hsame, ?_, ?_, ?_, ?_, prefix_of_appendOnly happend⟩
  · by_contra hne
    rw [if_pos hne] at hmodel
    exact hmodel _ (List.mem_singleton_self _) rfl
  · by_contra hne
    rw [if_neg (by simp [hsame]), if_pos hne] at htools
    exact htools _ (List.mem_singleton_self _) rfl
  · by_contra hne
    rw [if_pos hne] at hL1
    exact hL1 _ (List.mem_singleton_self _) rfl
  · by_contra hne
    rw [if_pos hne] at hL2
    exact hL2 _ (List.mem_singleton_self _) rfl
  · by_contra hne
    rw [if_pos hne] at hL3
    exact hL3 _ (List.mem_singleton_self _) rfl

/-- What the evaluation of a session records: a new baseline, or that of the request it follows. -/
theorem evaluateSession_ok {model : Option String} {sessionId : String}
    {previous : Option SessionSnapshot}
    (h : evaluateSession call model d sessionId previous = .ok session) :
    ∃ messages tools snapshot, messageDigests call.body = .ok messages ∧
      toolDefs d.L0 = .ok tools ∧ session.next = some snapshot ∧
      snapshot.lastPrefixHash = d.prefixHash ∧ snapshot.lastMessages = messages ∧
      session.decision.id = some sessionId ∧
      ((snapshot.baseline.model = model ∧ snapshot.baseline.tools = tools ∧
          snapshot.baseline.layerHashes = d.layerHashes ∧
          ((previous = none ∧ session.decision.baseline = .new) ∨
            session.decision.baseline = .epoch_advanced)) ∨
        ∃ last, previous = some last ∧ snapshot.baseline = last.baseline ∧
          session.decision.baseline = .kept ∧
          ((∀ finding ∈ session.findings, finding.severity ≠ .error) →
            Follows model d messages tools last)) := by
  unfold evaluateSession at h
  obtain ⟨messages, hmessages, h⟩ := Except.bind_ok h
  obtain ⟨tools, htools, h⟩ := Except.bind_ok h
  obtain ⟨params, -, h⟩ := Except.bind_ok h
  refine ⟨messages, tools, ?_⟩
  cases previous with
  | none =>
    cases h
    exact ⟨_, hmessages, htools, rfl, rfl, rfl, rfl, .inl ⟨rfl, rfl, rfl, .inl ⟨rfl, rfl⟩⟩⟩
  | some last =>
    cases hadvanced : (some last).any fun previous ↦
        call.ctx.sessionEpoch.isSome && call.ctx.sessionEpoch ≠ previous.baseline.epoch with
    | true =>
      simp only [hadvanced, if_true] at h
      cases h
      exact ⟨_, hmessages, htools, rfl, rfl, rfl, rfl, .inl ⟨rfl, rfl, rfl, .inr rfl⟩⟩
    | false =>
      simp only [hadvanced, Bool.false_eq_true, if_false] at h
      cases h
      exact ⟨_, hmessages, htools, rfl, rfl, rfl, rfl, .inr ⟨last, rfl, rfl, rfl,
        follows_of_findings⟩⟩

/-- A recorded request that names a session is in it. -/
theorem Recorded.evaluateSession_eq (h : Recorded sha256Text options call store d session decision)
    (hmode : options.mode = .enforce) {sessionId : String}
    (hid : call.ctx.sessionId = some sessionId) :
    evaluateSession call (stringMember call.body "model") d sessionId
      (store.getSession (sessionKey call.ctx.tenant sessionId)) = .ok session := by
  have heval := h.evaluated
  unfold evaluateSessionOf at heval
  simp only [hid] at heval
  split at heval
  · cases heval
    have hmem : gatewayFinding .SESSION_TENANT_MISMATCH .session
        "session_id is owned by another tenant" ∈ decision.findings := by
      rw [h.findings_eq]
      simp
    exact absurd rfl (h.severity_ne hmode hmem).1
  · exact heval

/-- A recorded request that is in a session names it. -/
theorem Recorded.sessionId_eq (h : Recorded sha256Text options call store d session decision)
    {sessionId : String} (hid : decision.session.id = some sessionId) :
    call.ctx.sessionId = some sessionId := by
  have heval := h.evaluated
  rw [h.session_eq] at hid
  unfold evaluateSessionOf at heval
  split at heval
  · cases heval
    cases hid
  · rename_i hcall
    split at heval
    · cases heval
      rw [hcall]
      exact hid
    · obtain ⟨-, -, -, -, -, -, -, -, hsession, -⟩ := evaluateSession_ok heval
      rw [hcall, ← hsession, hid]

end Session

/-! ### The sessions of the store -/

section Sessions

variable {options : EvaluateOptions} {store : PolicyStore}

theorem sessionKey_inj {tenant tenant' sessionId sessionId' : String}
    (htenant : ' ' ∉ tenant.toList) (htenant' : ' ' ∉ tenant'.toList)
    (h : sessionKey tenant sessionId = sessionKey tenant' sessionId') :
    tenant = tenant' ∧ sessionId = sessionId' := by
  have hchars := congrArg String.toList h
  simp only [sessionKey, String.toList_append, List.append_assoc] at hchars
  have hblank : " ".toList = [' '] := by decide
  rw [hblank, List.singleton_append, List.singleton_append] at hchars
  -- the key is cut at its first blank
  have hcut : ∀ {t r : List Char}, ' ' ∉ t →
      (t ++ ' ' :: r).takeWhile (· ≠ ' ') = t ∧ (t ++ ' ' :: r).dropWhile (· ≠ ' ') = ' ' :: r := by
    intro t r ht
    have hall : ∀ c ∈ t, (decide (c ≠ ' ')) = true := fun c hc ↦
      decide_eq_true fun heq ↦ ht (heq ▸ hc)
    rw [List.takeWhile_append_of_pos hall, List.dropWhile_append_of_pos hall]
    simp
  have htake := congrArg (List.takeWhile (· ≠ ' ')) hchars
  have hdrop := congrArg (List.dropWhile (· ≠ ' ')) hchars
  rw [(hcut htenant).1, (hcut htenant').1] at htake
  rw [(hcut htenant).2, (hcut htenant').2] at hdrop
  exact ⟨String.toList_injective htake, String.toList_injective (List.cons.inj hdrop).2⟩

/-- A request of a new session comes when the table of sessions is full. -/
def Evicts (limits : StoreOptions) (p : PolicyStore × EvaluateCall) : Prop :=
  ∃ sessionId, p.2.ctx.sessionId = some sessionId ∧
    p.1.getSession (sessionKey p.2.ctx.tenant sessionId) = none ∧
      limits.maxSessions ≤ p.1.sessions.entries.length

theorem length_insert_of_mem {α : Type} {m : AList fun _ : String ↦ α} {key : String}
    (h : key ∈ m) (v : α) : (m.insert key v).entries.length = m.entries.length := by
  have hkeys := congrArg List.length (AList.keys_insert (a := key) (b := v) m)
  rw [List.length_cons, List.length_erase_of_mem (AList.mem_keys.1 h)] at hkeys
  have hpos : 0 < m.keys.length := List.length_pos_of_mem (AList.mem_keys.1 h)
  simp only [AList.keys, List.keys, List.length_map] at hkeys hpos
  omega

/-- The sessions after a session is set, when there is room for it. -/
theorem PolicyStore.setSession_eq {limits : StoreOptions} {key : String}
    {snapshot : SessionSnapshot} (hfull : store.sessions.entries.length ≤ limits.maxSessions)
    (hroom : store.getSession key = none → store.sessions.entries.length < limits.maxSessions) :
    store.setSession limits key snapshot =
      { store with sessions := store.sessions.insert key snapshot } ∧
    (store.sessions.insert key snapshot).entries.length ≤ limits.maxSessions := by
  have hlength : (store.sessions.insert key snapshot).entries.length ≤ limits.maxSessions := by
    by_cases hmem : key ∈ store.sessions
    · rwa [length_insert_of_mem hmem]
    · rw [AList.entries_insert_of_notMem hmem, List.length_cons]
      exact hroom (AList.lookup_eq_none.2 hmem)
  exact ⟨if_neg (not_lt.2 hlength), hlength⟩

end Sessions

/-! ### Runs -/

section Runs

variable {sha256Text : String → String} {options : EvaluateOptions}

/-- A request is let through into a session of a tenant. -/
structure Admitted (sha256Text : String → String) (options : EvaluateOptions)
    (p : PolicyStore × EvaluateCall) (tenant sessionId : String)
    (decision : PromptCachePolicyDecision) : Prop where
  decided : (evaluatePromptCachePolicy sha256Text options p.2 p.1).1 = .ok decision
  passed : decision.action ≠ .refuse
  tenant_eq : decision.tenant = tenant
  session_eq : decision.session.id = some sessionId

/-- What is let through into a session is recorded. -/
theorem Admitted.recorded {p : PolicyStore × EvaluateCall} {tenant sessionId : String}
    {decision : PromptCachePolicyDecision}
    (h : Admitted sha256Text options p tenant sessionId decision) :
    ∃ d session, Recorded sha256Text options p.2 p.1 d session decision := by
  rcases evaluate_cases sha256Text options p.2 p.1 with ⟨-, hother⟩ | ⟨d, session, decision', hrec⟩
  · rcases hother decision h.decided with hrefused | ⟨hsession, -⟩
    · exact absurd hrefused h.passed
    · have hid := h.session_eq
      rw [hsession] at hid
      cases hid
  · have hdecided := h.decided
    rw [hrec.result] at hdecided
    exact ⟨d, session, Except.ok.inj hdecided ▸ hrec⟩

/-- A request is let through and begins another epoch of its session. -/
def Advances (sha256Text : String → String) (options : EvaluateOptions) (tenant sessionId : String)
    (p : PolicyStore × EvaluateCall) : Prop :=
  ∃ decision, Admitted sha256Text options p tenant sessionId decision ∧
    decision.session.baseline = .epoch_advanced

/-- The messages of a body, the markers of their content blocks and the order of members aside. -/
def messageValues (body : Json) : List Json :=
  (arrayMember body "messages").map fun message ↦ (unmark message).normalize

/-- Two requests have the same model, the same prefix, and messages that continue each other. -/
structure Constant (sha256Text : String → String) (p q : PolicyStore × EvaluateCall)
    (dp dq : PromptCachePolicyDecision) : Prop where
  model_eq : dq.model = dp.model
  prefix_hash_eq : dq.prefix_hash = dp.prefix_hash
  /-- The tools and layers the hash stands for are those of both. -/
  layers_eq : ∃ d d', derive sha256Text p.2.body = .ok d ∧ derive sha256Text q.2.body = .ok d' ∧
    (prefixValue d'.L0 d'.layers).normalize = (prefixValue d.L0 d.layers).normalize
  messages_prefix : messageValues p.2.body <+: messageValues q.2.body

/-- A snapshot has the baseline of a request with the prefix it was last seen with. -/
def SessionSnapshot.Sound (sha256Text : String → String) (snapshot : SessionSnapshot) : Prop :=
  ∃ req d, derive sha256Text req = .ok d ∧ RecordedAs d.L0 snapshot.baseline.tools ∧
    snapshot.baseline.layerHashes = d.layerHashes ∧ snapshot.lastPrefixHash = d.prefixHash

/-- A snapshot has the model, the prefix and the messages of a request. -/
structure SessionSnapshot.Covers (sha256Text : String → String) (snapshot : SessionSnapshot)
    (p : PolicyStore × EvaluateCall) (decision : PromptCachePolicyDecision) : Prop where
  model_eq : snapshot.baseline.model = decision.model
  prefix_hash_eq : decision.prefix_hash = some snapshot.lastPrefixHash
  derived : ∃ d, derive sha256Text p.2.body = .ok d ∧ d.prefixHash = snapshot.lastPrefixHash
  messages_prefix : ∃ messages, messageDigests p.2.body = .ok messages ∧
    messages <+: snapshot.lastMessages

/-- What the store knows of the sessions of a run. -/
structure Tracked (sha256Text : String → String) (options : EvaluateOptions)
    (h : List (PolicyStore × EvaluateCall)) (s : PolicyStore) : Prop where
  full : s.sessions.entries.length ≤ options.limits.maxSessions
  sound : ∀ key snapshot, s.getSession key = some snapshot → snapshot.Sound sha256Text
  covers : ∀ before p after, h = before ++ p :: after → ∀ tenant sessionId decision,
    Admitted sha256Text options p tenant sessionId decision →
    (∀ r ∈ after, ¬Advances sha256Text options tenant sessionId r) →
    ∃ snapshot, s.getSession (sessionKey tenant sessionId) = some snapshot ∧
      snapshot.Covers sha256Text p decision

/-- What a request does to the sessions: nothing, and then it is let through into none, or it is
recorded in the one it names. -/
theorem sessions_step {call : EvaluateCall} {store : PolicyStore} (hmode : options.mode = .enforce)
    (hfull : store.sessions.entries.length ≤ options.limits.maxSessions)
    (hroom : ¬Evicts options.limits (store, call)) :
    ((evaluatePromptCachePolicy sha256Text options call store).2.sessions = store.sessions ∧
      ∀ tenant sessionId decision,
        ¬Admitted sha256Text options (store, call) tenant sessionId decision) ∨
    ∃ sessionId d session decision snapshot,
      Recorded sha256Text options call store d session decision ∧
      call.ctx.sessionId = some sessionId ∧
      evaluateSession call (stringMember call.body "model") d sessionId
        (store.getSession (sessionKey call.ctx.tenant sessionId)) = .ok session ∧
      session.next = some snapshot ∧
      (evaluatePromptCachePolicy sha256Text options call store).2.sessions =
        store.sessions.insert (sessionKey call.ctx.tenant sessionId) snapshot ∧
      (store.sessions.insert (sessionKey call.ctx.tenant sessionId) snapshot).entries.length ≤
        options.limits.maxSessions := by
  rcases evaluate_cases sha256Text options call store with ⟨hstore, hnone⟩ | ⟨d, session, decision, h⟩
  · refine .inl ⟨by rw [hstore], fun tenant sessionId decision hadmitted ↦ ?_⟩
    rcases hnone decision hadmitted.decided with hrefused | ⟨hsession, -⟩
    · exact hadmitted.passed hrefused
    · have hid := hadmitted.session_eq
      rw [hsession] at hid
      cases hid
  · cases hcall : call.ctx.sessionId with
    | none =>
      refine .inl ⟨by rw [h.result]; simp [record, hcall, PolicyStore.claimPrefix], ?_⟩
      intro tenant sessionId other hadmitted
      have hother : decision = other := by
        have hdecided := hadmitted.decided
        rw [h.result] at hdecided
        exact Except.ok.inj hdecided
      rw [h.sessionId_eq (hother ▸ hadmitted.session_eq)] at hcall
      cases hcall
    | some sessionId =>
      have heval := h.evaluateSession_eq hmode hcall
      obtain ⟨messages, tools, snapshot, -, -, hnext, -⟩ := evaluateSession_ok heval
      have hroom' : store.getSession (sessionKey call.ctx.tenant sessionId) = none →
          store.sessions.entries.length < options.limits.maxSessions := fun hnone ↦
        Nat.lt_of_not_le fun hle ↦ hroom ⟨sessionId, hcall, hnone, hle⟩
      have hset := @PolicyStore.setSession_eq store _ _ snapshot hfull hroom'
      refine .inr ⟨sessionId, d, session, decision, snapshot, h, rfl, heval, hnext, ?_, hset.2⟩
      rw [h.result]
      simp only [record, hcall, hnext]
      have hclaimed := @PolicyStore.setSession_eq
        ((store.claimPrefix options.limits d.prefixHash call.ctx.tenant
          call.nowMs).claimSession options.limits sessionId call.ctx.tenant call.nowMs) _ _ snapshot
        hfull hroom'
      rw [hclaimed.1]
      rfl

/-- The snapshot a recorded request leaves is sound and covers it; when the request keeps the epoch
of its session, it covers what the snapshot before covered. -/
theorem Recorded.snapshot {call : EvaluateCall} {store : PolicyStore} {d : Derivation}
    {session : SessionEvaluation} {decision : PromptCachePolicyDecision} {sessionId : String}
    {snapshot : SessionSnapshot} (hsha : Function.Injective sha256Text)
    (hmode : options.mode = .enforce) (hordinary : Ordinary call)
    (h : Recorded sha256Text options call store d session decision)
    (heval : evaluateSession call (stringMember call.body "model") d sessionId
      (store.getSession (sessionKey call.ctx.tenant sessionId)) = .ok session)
    (hnext : session.next = some snapshot)
    (hsound : ∀ key last, store.getSession key = some last → last.Sound sha256Text) :
    snapshot.Sound sha256Text ∧ snapshot.Covers sha256Text (store, call) decision ∧
      ∀ last p dp, store.getSession (sessionKey call.ctx.tenant sessionId) = some last →
        decision.session.baseline ≠ .epoch_advanced → last.Covers sha256Text p dp →
          snapshot.Covers sha256Text p dp := by
  obtain ⟨messages, tools, snapshot', hmessages, htools, hnext', hhash, hlast, -, hcases⟩ :=
    evaluateSession_ok heval
  obtain rfl : snapshot = snapshot' := Option.some.inj (hnext.symm.trans hnext')
  have hrecorded := h.recordedAs hmode hordinary htools
  have hself : ∀ model, snapshot.baseline.model = model → model = stringMember call.body "model" →
      snapshot.Covers sha256Text (store, call) decision := fun model hmodel heq ↦
    ⟨by rw [hmodel, heq, h.model_eq], by rw [h.prefix_hash_eq, hhash], ⟨d, h.derived, hhash.symm⟩,
      messages, hmessages, hlast ▸ List.prefix_rfl⟩
  rcases hcases with ⟨hmodel, hbaseline, hlayers, hkind⟩ |
    ⟨last, hprevious, hbaseline, hkept, hfollows⟩
  · refine ⟨⟨call.body, d, h.derived, by rwa [hbaseline], hlayers, hhash⟩, hself _ hmodel rfl, ?_⟩
    intro last p dp hlast' hadvanced
    rcases hkind with ⟨hnone, -⟩ | hkind
    · rw [hnone] at hlast'
      cases hlast'
    · exact absurd (h.session_eq ▸ hkind) hadvanced
  · have hfound : ∀ finding ∈ session.findings, finding ∈ decision.findings := fun _ hfinding ↦ by
      rw [h.findings_eq]
      simp [hfinding]
    have hf := hfollows fun finding hfinding ↦ (h.severity_ne hmode (hfound finding hfinding)).2
    obtain ⟨req, d₀, hd₀, hrecorded₀, hlayers₀, hhash₀⟩ := hsound _ last hprevious
    -- the request has the prefix of the baseline, and so that of the last request
    have hprefix : d.prefixHash = last.lastPrefixHash := by
      rw [hhash₀]
      exact prefixHash_eq hsha h.derived hd₀
        (hrecorded.texts_eq hrecorded₀ hf.tools_same hf.order_eq)
        (by rw [hf.L1_eq, hlayers₀]) (by rw [hf.L2_eq, hlayers₀]) (by rw [hf.L3_eq, hlayers₀])
    refine ⟨⟨req, d₀, hd₀, by rwa [hbaseline], by rw [hbaseline, hlayers₀],
      by rw [hhash, hprefix, hhash₀]⟩, hself _ (by rw [hbaseline]) hf.model_eq.symm, ?_⟩
    intro last' p dp hlast' _ hcovers
    obtain rfl : last = last' := Option.some.inj (hprevious.symm.trans hlast')
    obtain ⟨d', hd', hhash'⟩ := hcovers.derived
    obtain ⟨digests, hdigests, hcontinued⟩ := hcovers.messages_prefix
    exact ⟨by rw [hbaseline, hcovers.model_eq], by rw [hcovers.prefix_hash_eq, hhash, hprefix],
      ⟨d', hd', by rw [hhash', hhash, hprefix]⟩, digests, hdigests,
      hlast ▸ hcontinued.trans hf.messages_prefix⟩

/-- The store tracks the sessions of every run of ordinary requests without eviction. -/
theorem tracked_of_run (hsha : Function.Injective sha256Text) (hmode : options.mode = .enforce)
    {h : List (PolicyStore × EvaluateCall)} {s : PolicyStore}
    (hr : Run (evaluateStep sha256Text options) {} h s)
    (hroom : ∀ p ∈ h, ¬Evicts options.limits p)
    (hordinary : ∀ p ∈ h, p.2.ctx.sessionId.isSome → Ordinary p.2) :
    Tracked sha256Text options h s := by
  induction hr with
  | nil =>
    refine ⟨Nat.zero_le _, fun key snapshot hget ↦ ?_, fun before p after hsplit ↦ ?_⟩
    · cases hget
    · simp at hsplit
  | @snoc h s s' call _ hstep ih =>
    have htracked := ih (fun p hp ↦ hroom p (by simp [hp])) fun p hp ↦ hordinary p (by simp [hp])
    cases hstep
    have hlast : (s, call) ∈ h ++ [(s, call)] := by simp
    have hsplit : ∀ before p after, h ++ [(s, call)] = before ++ p :: after →
        (after = [] ∧ p = (s, call)) ∨ ∃ rest, after = rest ++ [(s, call)] ∧
          h = before ++ p :: rest := by
      intro before p after heq
      rcases List.eq_nil_or_concat after with rfl | ⟨rest, last, rfl⟩
      · obtain ⟨-, hp⟩ := List.append_inj' heq rfl
        exact .inl ⟨rfl, (List.cons.inj hp).1.symm⟩
      · rw [List.concat_eq_append, ← List.cons_append, ← List.append_assoc] at heq
        obtain ⟨hh, hp⟩ := List.append_inj' heq rfl
        exact .inr ⟨rest, by rw [List.concat_eq_append, (List.cons.inj hp).1], hh⟩
    rcases @sessions_step sha256Text _ _ _ hmode htracked.full (hroom _ hlast) with
      ⟨hsame, hnone⟩ | ⟨sessionId, d, session, decision, snapshot, hrec, hcall, heval, hnext, hset,
        hlength⟩
    · have hget : ∀ key, (evaluatePromptCachePolicy sha256Text options call s).2.getSession key =
          s.getSession key := fun key ↦ by rw [PolicyStore.getSession, hsame]; rfl
      refine ⟨by rw [hsame]; exact htracked.full, fun key snapshot hkey ↦ ?_, ?_⟩
      · exact htracked.sound key snapshot (by rwa [hget] at hkey)
      · intro before p after heq tenant sessionId dp hp hkept
        rcases hsplit before p after heq with ⟨-, rfl⟩ | ⟨rest, rfl, hh⟩
        · exact absurd hp (hnone _ _ _)
        · rw [hget]
          exact htracked.covers before p rest hh tenant sessionId dp hp
            fun r hr ↦ hkept r (by simp [hr])
    · have hcallOrdinary : Ordinary call := hordinary _ hlast (by rw [hcall]; rfl)
      obtain ⟨hsound, hself, hkeeps⟩ :=
        hrec.snapshot hsha hmode hcallOrdinary heval hnext htracked.sound
      have hgetSelf : (evaluatePromptCachePolicy sha256Text options call s).2.getSession
          (sessionKey call.ctx.tenant sessionId) = some snapshot := by
        rw [PolicyStore.getSession, hset, AList.lookup_insert]
      have hgetOther : ∀ key, key ≠ sessionKey call.ctx.tenant sessionId →
          (evaluatePromptCachePolicy sha256Text options call s).2.getSession key =
            s.getSession key := fun key hne ↦ by
        rw [PolicyStore.getSession, hset, AList.lookup_insert_ne hne]
        rfl
      have hnow : ∀ tenant id dp, Admitted sha256Text options (s, call) tenant id dp →
          dp = decision ∧ tenant = call.ctx.tenant ∧ id = sessionId := by
        intro tenant id dp hp
        have hdp : dp = decision := by
          have hdecided := hp.decided
          rw [hrec.result] at hdecided
          exact (Except.ok.inj hdecided).symm
        subst hdp
        refine ⟨rfl, hp.tenant_eq.symm.trans hrec.tenant_eq, ?_⟩
        exact Option.some.inj ((hrec.sessionId_eq hp.session_eq).symm.trans hcall)
      refine ⟨by rw [hset]; exact hlength, fun key last hkey ↦ ?_, ?_⟩
      · by_cases hkeyEq : key = sessionKey call.ctx.tenant sessionId
        · rw [hkeyEq, hgetSelf] at hkey
          cases hkey
          exact hsound
        · exact htracked.sound key last (by rwa [hgetOther key hkeyEq] at hkey)
      · intro before p after heq tenant id dp hp hkept
        rcases hsplit before p after heq with ⟨-, rfl⟩ | ⟨rest, rfl, hh⟩
        · obtain ⟨rfl, rfl, rfl⟩ := hnow tenant id dp hp
          exact ⟨snapshot, hgetSelf, hself⟩
        · obtain ⟨last, hlastGet, hcovers⟩ := htracked.covers before p rest hh tenant id dp hp
            fun r hr ↦ hkept r (by simp [hr])
          by_cases hkeyEq : sessionKey tenant id = sessionKey call.ctx.tenant sessionId
          · -- the session of the earlier request, whose tenant has no blank either
            obtain ⟨_, _, hrec'⟩ := hp.recorded
            have hpOrdinary : Ordinary p.2 :=
              hordinary p (by simp [hh]) (by rw [hrec'.sessionId_eq hp.session_eq]; rfl)
            have htenant : p.2.ctx.tenant = tenant := hrec'.tenant_eq.symm.trans hp.tenant_eq
            obtain ⟨rfl, rfl⟩ := sessionKey_inj (htenant ▸ hpOrdinary.tenant) hcallOrdinary.tenant
              hkeyEq
            refine ⟨snapshot, hgetSelf, hkeeps last p dp hlastGet ?_ hcovers⟩
            intro hadvanced
            refine hkept (s, call) (by simp) ⟨decision, ⟨by rw [hrec.result], hrec.passed,
              hrec.tenant_eq, ?_⟩, hadvanced⟩
            obtain ⟨-, -, -, -, -, -, -, -, hid, -⟩ := evaluateSession_ok heval
            rw [hrec.session_eq, hid]
          · exact ⟨last, by rw [hgetOther _ hkeyEq]; exact hlastGet, hcovers⟩

/-- The digests of ordinary messages tell them apart, their markers aside. -/
theorem values_prefix {messages messages' : List Json} {digests digests' : List String}
    (hplain : ∀ message ∈ messages, plain (unmark message) = true)
    (hplain' : ∀ message ∈ messages', plain (unmark message) = true)
    (h : List.Forall₂ (fun message digest ↦ canonicalText (stripCacheControl message) = .ok digest)
      messages digests)
    (h' : List.Forall₂ (fun message digest ↦ canonicalText (stripCacheControl message) = .ok digest)
      messages' digests') (hleads : digests <+: digests') :
    (messages.map fun message ↦ (unmark message).normalize) <+:
      messages'.map fun message ↦ (unmark message).normalize := by
  have hstrip : ∀ message, plain (unmark message) = true →
      stripCacheControl message = unmark message := fun message hmessage ↦ by
    rw [← strip_unmark, strip_of_plain _ hmessage]
  induction h generalizing messages' digests' with
  | nil => exact List.nil_prefix
  | @cons message digest messages digests hdigest _ ih =>
    obtain ⟨more, rfl⟩ := hleads
    cases h' with
    | @cons message' _ messages' _ hdigest' hrest' =>
      rw [hstrip message (hplain message (by simp))] at hdigest
      rw [hstrip message' (hplain' message' (by simp))] at hdigest'
      have hvalue := Json.normalize_eq_of_canonicalJson (canonicalText_ok hdigest)
        (canonicalText_ok hdigest')
      rw [List.map_cons, List.map_cons, hvalue]
      exact (List.prefix_cons_inj _).2 (ih (fun m hm ↦ hplain m (by simp [hm]))
        (fun m hm ↦ hplain' m (by simp [hm])) hrest' (List.prefix_append _ _))

/-- All requests of a session that are let through in one epoch have the same model and prefix, and
continue each other, in every run of ordinary requests without eviction. -/
theorem session_constant (hsha : Function.Injective sha256Text) (hmode : options.mode = .enforce)
    {h : List (PolicyStore × EvaluateCall)} {s : PolicyStore}
    (hr : Run (evaluateStep sha256Text options) {} h s)
    (hroom : ∀ p ∈ h, ¬Evicts options.limits p)
    (hordinary : ∀ p ∈ h, p.2.ctx.sessionId.isSome → Ordinary p.2)
    {before mid after : List (PolicyStore × EvaluateCall)} {p q : PolicyStore × EvaluateCall}
    {tenant sessionId : String} {dp dq : PromptCachePolicyDecision}
    (hsplit : h = before ++ p :: (mid ++ q :: after))
    (hp : Admitted sha256Text options p tenant sessionId dp)
    (hq : Admitted sha256Text options q tenant sessionId dq)
    (hepoch : ∀ r ∈ mid ++ [q], ¬Advances sha256Text options tenant sessionId r) :
    Constant sha256Text p q dp dq := by
  have hbefore : h = (before ++ p :: mid) ++ q :: after := by simp [hsplit]
  have hmem : ∀ r ∈ before ++ p :: mid, r ∈ h := fun r hmem ↦ by
    rw [hbefore]
    exact List.mem_append_left _ hmem
  have hpmem : p ∈ h := hmem p (by simp)
  have hqmem : q ∈ h := by simp [hsplit]
  have htracked := tracked_of_run hsha hmode (hbefore ▸ hr).of_append_cons
    (fun r hmem' ↦ hroom r (hmem r hmem')) fun r hmem' ↦ hordinary r (hmem r hmem')
  obtain ⟨last, hget, hcovers⟩ := htracked.covers before p mid rfl tenant sessionId dp hp
    fun r hr ↦ hepoch r (by simp [hr])
  obtain ⟨d, session, hrec⟩ := hq.recorded
  have hcall := hrec.sessionId_eq hq.session_eq
  have heval := hrec.evaluateSession_eq hmode hcall
  obtain ⟨messages, tools, snapshot, hmessages, -, hnext, -, hlast, -⟩ := evaluateSession_ok heval
  have htenant : q.2.ctx.tenant = tenant := hrec.tenant_eq.symm.trans hq.tenant_eq
  have hqOrdinary := hordinary q hqmem (by rw [hcall]; rfl)
  obtain ⟨-, hself, hkeeps⟩ := hrec.snapshot hsha hmode hqOrdinary heval hnext htracked.sound
  have hp' := hkeeps last p dp (by rwa [htenant])
    (fun hadvanced ↦ hepoch q (by simp) ⟨dq, hq, hadvanced⟩) hcovers
  obtain ⟨d₁, hd₁, hhash₁⟩ := hp'.derived
  obtain ⟨d₂, hd₂, hhash₂⟩ := hself.derived
  obtain ⟨digests, hdigests, hcontinued⟩ := hp'.messages_prefix
  obtain ⟨_, _, hrec'⟩ := hp.recorded
  have hpOrdinary := hordinary p hpmem (by rw [hrec'.sessionId_eq hp.session_eq]; rfl)
  refine ⟨hself.model_eq.symm.trans hp'.model_eq, hself.prefix_hash_eq.trans hp'.prefix_hash_eq.symm,
    ⟨d₁, d₂, hd₁, hd₂, prefixValue_eq_of_hash hsha hd₂ hd₁ (hhash₂.trans hhash₁.symm)⟩, ?_⟩
  exact values_prefix hpOrdinary.messages hqOrdinary.messages (Except.mapM_eq_ok.1 hdigests)
    (Except.mapM_eq_ok.1 hmessages) (hlast ▸ hcontinued)

end Runs

/-! ### Instances -/

section Instances

/-- A contract with one model. -/
def oneModel : PromptLayoutContract where
  id := "prompt-layout.v1"
  digest := "sha256:678dfa2e"
  models := [("claude-opus-5", 512)]
  maxExplicitBreakpoints := 4
  ttlValues := ["5m", "1h"]
  scanRules := []

/-- The evaluator in enforce mode. -/
def enforcing : EvaluateOptions where
  contract := oneModel
  mode := .enforce

/-- A text block with a marker. -/
def markedBlock : Json :=
  .obj [("type", .str "text"), ("cache_control", .obj [])]

/-- A tool whose schema lets a property stand, or not. -/
def schemaTool (property : String) (allowed : Bool) : Json :=
  .obj [("name", .str "set"),
    ("input_schema", .obj [("properties", .obj [(property, .bool allowed)])])]

/-- A request in a session, of a model that is not in the contract. -/
def sessionRequest (tool : Json) (texts : List String) : EvaluateCall where
  body := .obj [("model", .str "other"), ("tools", .arr [tool]),
    ("system", .arr [markedBlock, markedBlock, markedBlock]),
    ("messages", .arr (texts.map fun text ↦
      .obj [("role", .str "user"), ("content", .str text)]))]
  ctx := { tenantId := some "key", sessionId := some "s" }

/-- A request that is let through with a mark into the session, and how it stands to its epoch. -/
def markedAs (baseline : BaselineKind) (p : PolicyStore × EvaluateCall) : Bool :=
  match (evaluatePromptCachePolicy id enforcing p.2 p.1).1 with
  | .error _ => false
  | .ok d => d.action = .mark && d.tenant = "key" && d.session.id = some "s" &&
      d.session.baseline = baseline

/-- The prefix hash of a decision. -/
def hashOf (p : PolicyStore × EvaluateCall) : Option String :=
  match (evaluatePromptCachePolicy id enforcing p.2 p.1).1 with
  | .error _ => none
  | .ok d => d.prefix_hash

theorem admitted_of_markedAs (baseline : BaselineKind) {p : PolicyStore × EvaluateCall}
    (h : markedAs baseline p = true) :
    ∃ decision, Admitted id enforcing p "key" "s" decision ∧
      decision.session.baseline = baseline ∧ decision.prefix_hash = hashOf p := by
  unfold markedAs at h
  split at h
  · cases h
  · rename_i decision hdecided
    simp only [Bool.and_eq_true, decide_eq_true_eq] at h
    obtain ⟨⟨⟨haction, htenant⟩, hid⟩, hbaseline⟩ := h
    exact ⟨decision, ⟨hdecided, by rw [haction]; decide, htenant, hid⟩, hbaseline,
      by rw [hashOf, hdecided]⟩

/-- Two requests of which one is admitted after the other do not evict, and the second one does not
advance the epoch. -/
theorem not_advances_of_markedAs {p : PolicyStore × EvaluateCall} (h : markedAs .kept p = true) :
    ¬Advances id enforcing "key" "s" p := by
  rintro ⟨decision, hadmitted, hadvanced⟩
  obtain ⟨decision', hadmitted', hkept, -⟩ := admitted_of_markedAs .kept h
  have heq : decision = decision' :=
    Except.ok.inj (hadmitted.decided.symm.trans hadmitted'.decided)
  rw [heq, hkept] at hadvanced
  cases hadvanced

/-- The store after the first request. -/
def afterFirst (call : EvaluateCall) : PolicyStore :=
  (evaluatePromptCachePolicy id enforcing call {}).2

theorem run_two (first second : EvaluateCall) :
    Run (evaluateStep id enforcing) {} [({}, first), (afterFirst first, second)]
      (evaluatePromptCachePolicy id enforcing second (afterFirst first)).2 := by
  have hnil : Run (evaluateStep id enforcing) {} [] {} := .nil
  exact (hnil.snoc (e := first) rfl).snoc (e := second) rfl

/-- Two requests of a session, the second with one message more. -/
theorem session_constant_two :
    ∃ p q dp dq, Admitted id enforcing p "key" "s" dp ∧ Admitted id enforcing q "key" "s" dq ∧
      (messageValues q.2.body).length = 2 ∧ Constant id p q dp dq := by
  let first := sessionRequest (schemaTool "size" true) ["hi"]
  let second := sessionRequest (schemaTool "size" true) ["hi", "there"]
  obtain ⟨dp, hp, -⟩ := admitted_of_markedAs .new (p := ({}, first)) (by decide +kernel)
  have hkept : markedAs .kept (afterFirst first, second) = true := by decide +kernel
  obtain ⟨dq, hq, -⟩ := admitted_of_markedAs .kept hkept
  have hordinary : Ordinary first ∧ Ordinary second :=
    ⟨⟨by decide, by decide, by decide, by decide, by decide⟩,
      ⟨by decide, by decide, by decide, by decide, by decide⟩⟩
  have hsplit : ∀ p q : PolicyStore × EvaluateCall, [p, q] = [] ++ p :: ([] ++ q :: []) :=
    fun _ _ ↦ rfl
  refine ⟨_, _, dp, dq, hp, hq, by decide, session_constant Function.injective_id rfl
    (run_two first second) (fun p hmem ↦ ?_) (fun p hmem _ ↦ ?_) (hsplit _ _) hp hq fun r hr ↦ ?_⟩
  · rintro ⟨sessionId, -, -, hfull⟩
    refine absurd hfull (not_le.2 ?_)
    rcases List.mem_cons.1 hmem with rfl | hmem
    · decide
    · rw [List.mem_singleton.1 hmem]
      decide +kernel
  · rcases List.mem_cons.1 hmem with rfl | hmem
    · exact hordinary.1
    · rw [List.mem_singleton.1 hmem]
      exact hordinary.2
  · rw [List.mem_singleton.1 hr]
    exact not_advances_of_markedAs hkept

/-- A schema with a property named like the marker is changed within an epoch. -/
theorem session_not_constant :
    ¬∀ (sha256Text : String → String) (options : EvaluateOptions)
      (h : List (PolicyStore × EvaluateCall)) (s : PolicyStore),
      Function.Injective sha256Text → options.mode = .enforce →
      Run (evaluateStep sha256Text options) {} h s → (∀ p ∈ h, ¬Evicts options.limits p) →
      ∀ before mid after p q tenant sessionId dp dq, h = before ++ p :: (mid ++ q :: after) →
        Admitted sha256Text options p tenant sessionId dp →
        Admitted sha256Text options q tenant sessionId dq →
        (∀ r ∈ mid ++ [q], ¬Advances sha256Text options tenant sessionId r) →
        Constant sha256Text p q dp dq := by
  intro hall
  let first := sessionRequest (schemaTool "cache_control" true) ["hi"]
  let second := sessionRequest (schemaTool "cache_control" false) ["hi"]
  obtain ⟨dp, hp, -, hhash⟩ := admitted_of_markedAs .new (p := ({}, first)) (by decide +kernel)
  have hkept : markedAs .kept (afterFirst first, second) = true := by decide +kernel
  obtain ⟨dq, hq, -, hhash'⟩ := admitted_of_markedAs .kept hkept
  have hconstant := hall id enforcing _ _ Function.injective_id rfl (run_two first second)
    (fun p hmem ↦ by
      rintro ⟨sessionId, -, -, hfull⟩
      refine absurd hfull (not_le.2 ?_)
      rcases List.mem_cons.1 hmem with rfl | hmem
      · decide
      · rw [List.mem_singleton.1 hmem]
        decide +kernel) [] [] [] _ _ _ _ dp dq rfl hp hq fun r hr ↦ by
      rw [List.mem_singleton.1 hr]
      exact not_advances_of_markedAs hkept
  have hne : hashOf (afterFirst first, second) ≠ hashOf ({}, first) := by decide +kernel
  exact hne (by rw [← hhash', ← hhash, hconstant.prefix_hash_eq])

end Instances

end ModelConnector.PromptCache
