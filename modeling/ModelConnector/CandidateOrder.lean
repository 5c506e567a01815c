import ModelConnector.Connectors.FailoverCandidates

/-!
# The order of the failover candidates

Outside the strict case, where a paid model is asked for and may not be replaced by a free one, the
candidates of a failover chain are distinct and declared, hold the free models and, after the one
that was asked for, come free before paid, DeepSeek before other free models, then by the rank of
their provider, then as declared. `paid_off_iff` says when the list is free of paid candidates while
paid failover is switched off: exactly if the model that was asked for is not a paid one.
-/

namespace ModelConnector.Connectors

variable {input : BuildFailoverCandidatesInput} {c : CascadeCandidate} {e : BuiltEntry}
  {entries : List BuiltEntry}

/-! ### The declarations -/

/-- A connector declares the chat model of a candidate. -/
def Declared (input : BuildFailoverCandidatesInput) (c : CascadeCandidate) : Prop :=
  ∃ caps ∈ input.capabilities, ∃ info ∈ caps.metas,
    info.modality.getD (caps.modality.getD .chat) = .chat ∧ c = caps.candidate info

theorem mem_candidates_iff :
    c ∈ input.capabilities.flatMap DeclaredCapabilities.candidates ↔ Declared input c := by
  simp only [Declared, List.mem_flatMap, DeclaredCapabilities.candidates, List.mem_map,
    List.mem_filter, decide_eq_true_eq, and_assoc, eq_comm (a := c)]

theorem declared_of_mem (he : e ∈ collectEntries input) :
    Declared input e.candidate ∧ e = input.entry e.declOrder e.candidate := by
  obtain ⟨i, hi, rfl⟩ := List.mem_mapIdx.1 he
  exact ⟨mem_candidates_iff.1 (List.getElem_mem hi), rfl⟩

theorem exists_entry_of_declared (hc : Declared input c) :
    ∃ e ∈ collectEntries input, e.candidate = c := by
  obtain ⟨i, hi, heq⟩ := List.mem_iff_getElem.1 (mem_candidates_iff.2 hc)
  exact ⟨_, List.mem_mapIdx.2 ⟨i, hi, rfl⟩, heq⟩

theorem not_isDeepseek_of_paid (he : e ∈ collectEntries input) (hpaid : e.candidate.tier = .paid) :
    e.isDeepseek = false := by
  rw [(declared_of_mem he).2, BuildFailoverCandidatesInput.entry, hpaid]
  rfl

/-- A free entry comes before a paid one, a DeepSeek entry before another free one, and else the
rank of the provider decides, then the order of declaration. -/
def BuiltEntry.Precedes (a b : BuiltEntry) : Prop :=
  a.candidate.tier = .free ∧ b.candidate.tier = .paid ∨
    a.candidate.tier = b.candidate.tier ∧
      (a.isDeepseek = true ∧ b.isDeepseek = false ∨
        a.isDeepseek = b.isDeepseek ∧
          (a.providerRank < b.providerRank ∨
            a.providerRank = b.providerRank ∧ a.declOrder ≤ b.declOrder))

/-! ### Sorting -/

theorem byRank_nonpos_iff {a b : BuiltEntry} : byRank a b ≤ 0 ↔
    a.providerRank < b.providerRank ∨
      a.providerRank = b.providerRank ∧ a.declOrder ≤ b.declOrder := by
  unfold byRank
  dsimp only
  split_ifs <;> omega

theorem byDeepseekThenRank_nonpos_iff {a b : BuiltEntry} : byDeepseekThenRank a b ≤ 0 ↔
    a.isDeepseek = true ∧ b.isDeepseek = false ∨
      a.isDeepseek = b.isDeepseek ∧ byRank a b ≤ 0 := by
  unfold byDeepseekThenRank
  cases a.isDeepseek <;> cases b.isDeepseek <;> simp

/-- A comparison that sorts. -/
structure Sorts (compare : BuiltEntry → BuiltEntry → ℤ) : Prop where
  trans : ∀ a b c, compare a b ≤ 0 → compare b c ≤ 0 → compare a c ≤ 0
  total : ∀ a b, compare a b ≤ 0 ∨ compare b a ≤ 0

theorem sorts_byRank : Sorts byRank where
  trans a b c hab hbc := by
    rw [byRank_nonpos_iff] at *
    omega
  total a b := by
    simp only [byRank_nonpos_iff]
    omega

theorem sorts_byDeepseekThenRank : Sorts byDeepseekThenRank where
  trans a b c hab hbc := by
    rw [byDeepseekThenRank_nonpos_iff] at *
    rcases hab with ⟨ha, hb⟩ | ⟨hab, hrank⟩ <;> rcases hbc with ⟨hb', hc⟩ | ⟨hbc, hrank'⟩
    · exact .inl ⟨ha, hc⟩
    · exact .inl ⟨ha, hbc ▸ hb⟩
    · exact .inl ⟨hab ▸ hb', hc⟩
    · exact .inr ⟨hab.trans hbc, sorts_byRank.trans _ _ _ hrank hrank'⟩
  total a b := by
    simp only [byDeepseekThenRank_nonpos_iff]
    cases ha : a.isDeepseek <;> cases hb : b.isDeepseek
    · exact (sorts_byRank.total a b).imp (fun h ↦ .inr ⟨rfl, h⟩) fun h ↦ .inr ⟨rfl, h⟩
    · exact .inr (.inl ⟨rfl, rfl⟩)
    · exact .inl (.inl ⟨rfl, rfl⟩)
    · exact (sorts_byRank.total a b).imp (fun h ↦ .inr ⟨rfl, h⟩) fun h ↦ .inr ⟨rfl, h⟩

theorem mem_sortEntries {compare : BuiltEntry → BuiltEntry → ℤ} :
    e ∈ sortEntries compare entries ↔ e ∈ entries :=
  List.mem_mergeSort

theorem Sorts.pairwise {compare : BuiltEntry → BuiltEntry → ℤ} (hs : Sorts compare) :
    (sortEntries compare entries).Pairwise fun a b ↦ compare a b ≤ 0 := by
  refine (List.pairwise_mergeSort (fun a b c hab hbc ↦ ?_) (fun a b ↦ ?_) entries).imp
    of_decide_eq_true
  · exact decide_eq_true (hs.trans a b c (of_decide_eq_true hab) (of_decide_eq_true hbc))
  · rw [Bool.or_eq_true]
    exact (hs.total a b).imp decide_eq_true decide_eq_true

theorem mem_freeSorted_iff :
    e ∈ freeSorted entries ↔ e ∈ entries ∧ e.candidate.tier = .free := by
  rw [freeSorted, mem_sortEntries, List.mem_filter, decide_eq_true_eq]

theorem mem_paidSorted_iff {paidEnabled : Bool} : e ∈ paidSorted entries paidEnabled ↔
    paidEnabled = true ∧ e ∈ entries ∧ e.candidate.tier = .paid := by
  rw [paidSorted, mem_sortEntries]
  cases paidEnabled <;> simp

/-- The free-first chain is in order. -/
theorem pairwise_precedes :
    (freeSorted (collectEntries input) ++
      paidSorted (collectEntries input) input.paidEnabled).Pairwise BuiltEntry.Precedes := by
  refine List.pairwise_append.2 ⟨?_, ?_, fun a ha b hb ↦ ?_⟩
  · refine (sorts_byDeepseekThenRank.pairwise).imp_of_mem fun {a b} ha hb hab ↦ .inr ?_
    have hfree := (mem_freeSorted_iff.1 ha).2
    have hfree' := (mem_freeSorted_iff.1 hb).2
    rw [byDeepseekThenRank_nonpos_iff, byRank_nonpos_iff] at hab
    exact ⟨hfree.trans hfree'.symm, hab⟩
  · refine (sorts_byRank.pairwise).imp_of_mem fun {a b} ha hb hab ↦ .inr ?_
    obtain ⟨-, ha, hpaid⟩ := mem_paidSorted_iff.1 ha
    obtain ⟨-, hb, hpaid'⟩ := mem_paidSorted_iff.1 hb
    refine ⟨hpaid.trans hpaid'.symm, .inr ⟨?_, byRank_nonpos_iff.1 hab⟩⟩
    rw [not_isDeepseek_of_paid ha hpaid, not_isDeepseek_of_paid hb hpaid']
  · exact .inl ⟨(mem_freeSorted_iff.1 ha).2, (mem_paidSorted_iff.1 hb).2.2⟩

theorem mem_orderFreeFirst_iff {paidEnabled : Bool} : c ∈ orderFreeFirst entries paidEnabled ↔
    (∃ e ∈ entries, e.candidate = c) ∧ (c.tier = .free ∨ paidEnabled = true) := by
  simp only [orderFreeFirst, List.mem_map, List.mem_append, mem_freeSorted_iff, mem_paidSorted_iff]
  constructor
  · rintro ⟨e, ⟨he, hfree⟩ | ⟨hon, he, -⟩, rfl⟩
    · exact ⟨⟨e, he, rfl⟩, .inl hfree⟩
    · exact ⟨⟨e, he, rfl⟩, .inr hon⟩
  · rintro ⟨⟨e, he, rfl⟩, htier⟩
    cases hcase : e.candidate.tier with
    | free => exact ⟨e, .inl ⟨he, hcase⟩, rfl⟩
    | paid =>
      refine ⟨e, .inr ⟨htier.resolve_left ?_, he, hcase⟩, rfl⟩
      rw [hcase]
      rintro ⟨⟩

/-! ### The list -/

/-- A list in which no free candidate follows a paid one is accepted. -/
theorem checkFreeBeforePaid_ok : ∀ {seenPaid : Bool} {cs : List CascadeCandidate},
    (seenPaid = true → ∀ c ∈ cs, c.tier = .paid) →
    cs.Pairwise (fun a b ↦ a.tier = .paid → b.tier = .paid) →
    checkFreeBeforePaid seenPaid cs = .ok () := by
  intro seenPaid cs
  induction cs generalizing seenPaid with
  | nil => exact fun _ _ ↦ rfl
  | cons c rest ih =>
    intro hseen hpairwise
    obtain ⟨hhead, htail⟩ := List.pairwise_cons.1 hpairwise
    simp only [checkFreeBeforePaid]
    split_ifs with hpaid hseenPaid
    · exact ih (fun _ c' hc' ↦ hhead c' hc' hpaid) htail
    · exact absurd (hseen hseenPaid c List.mem_cons_self) hpaid
    · exact ih (fun h ↦ absurd h hseenPaid) htail

/-- The entries after the promoted one. -/
def fallback (input : BuildFailoverCandidatesInput) : List BuiltEntry :=
  firsts (fun e ↦ e.candidate.key) (input.promoted.map fun e ↦ e.candidate.key).toList
    (freeSorted (collectEntries input) ++ paidSorted (collectEntries input) input.paidEnabled)

theorem pairwise_fallback : (fallback input).Pairwise BuiltEntry.Precedes :=
  pairwise_precedes.sublist (firsts_sublist _)

theorem mem_of_mem_fallback (he : e ∈ fallback input) : e ∈ collectEntries input := by
  rcases List.mem_append.1 ((firsts_sublist _).subset he) with he | he
  · exact (mem_freeSorted_iff.1 he).1
  · exact (mem_paidSorted_iff.1 he).2.1

theorem mem_of_promoted (he : input.promoted = some e) : e ∈ collectEntries input := by
  obtain ⟨requested, -, hfind⟩ := Option.bind_eq_some_iff.1 he
  exact List.mem_of_find?_eq_some hfind

/-- A paid model is asked for that may not be replaced by a free one. -/
def StrictPaid (input : BuildFailoverCandidatesInput) : Prop :=
  ∃ e, input.promoted = some e ∧ e.candidate.tier = .paid ∧ input.allowFreeDowngrade = false

/-- The candidates outside the strict case. -/
def candidatesOf (input : BuildFailoverCandidatesInput) : List CascadeCandidate :=
  dedupe ((input.promoted.map BuiltEntry.candidate).toList ++
    orderFreeFirst (collectEntries input) input.paidEnabled)

theorem candidatesOf_eq : candidatesOf input =
    (input.promoted.map BuiltEntry.candidate).toList ++
      (fallback input).map BuiltEntry.candidate := by
  unfold candidatesOf fallback dedupe orderFreeFirst
  cases input.promoted with
  | none => exact firsts_map []
  | some e =>
    simp only [Option.map_some, Option.toList_some, List.singleton_append, firsts,
      List.not_mem_nil, if_false]
    rw [firsts_map]

/-- The list that is built. -/
theorem buildFailoverCandidates_eq (hstrict : ¬ StrictPaid input) :
    buildFailoverCandidates input = .ok (candidatesOf input) := by
  have heq : candidatesOf input = _ := candidatesOf_eq
  simp only [buildFailoverCandidates]
  cases hpromoted : input.promoted with
  | none =>
    have hdedupe : dedupe (orderFreeFirst (collectEntries input) input.paidEnabled) =
        candidatesOf input := by
      rw [candidatesOf, hpromoted]
      rfl
    rw [hpromoted] at heq
    have hok : validateFreeBeforePaid (candidatesOf input) = .ok () := by
      refine checkFreeBeforePaid_ok (fun h ↦ by cases h) ?_
      rw [heq]
      refine List.pairwise_map.2 (pairwise_fallback.imp fun {a b} hab hpaid ↦ ?_)
      rcases hab with ⟨hfree, -⟩ | ⟨htier, -⟩
      · rw [hpaid] at hfree
        cases hfree
      · exact htier ▸ hpaid
    simp only [hdedupe, hok]
    rfl
  | some e =>
    simp only
    rw [if_neg fun h ↦ hstrict ⟨e, hpromoted, h⟩, candidatesOf, hpromoted]
    rfl

/-! ### Spelling -/

/-- The text of a candidate is the candidate, but for its tier, when connectors have no colon in
their names. -/
theorem CascadeCandidate.key_injective {c c' : CascadeCandidate} (h : ':' ∉ c.connector.toList)
    (h' : ':' ∉ c'.connector.toList) (heq : c.key = c'.key) :
    c.connector = c'.connector ∧ c.model = c'.model := by
  have htext : c.connector.toList ++ ':' :: c.model.toList =
      c'.connector.toList ++ ':' :: c'.model.toList := by
    have hlists := congrArg String.toList heq
    simpa [CascadeCandidate.key, String.toList_append, List.append_assoc] using hlists
  have htake : ∀ {l m : List Char}, ':' ∉ l →
      (l ++ ':' :: m).takeWhile (fun x ↦ decide (x ≠ ':')) = l := by
    intro l m hl
    have hall : ∀ x ∈ l, decide (x ≠ ':') = true := by
      intro x hx
      refine decide_eq_true ?_
      rintro rfl
      exact hl hx
    rw [List.takeWhile_append_of_pos hall]
    simp
  have hconnector : c.connector.toList = c'.connector.toList := by
    rw [← htake h, htext, htake h']
  rw [hconnector] at htext
  exact ⟨String.toList_inj.1 hconnector,
    String.toList_inj.1 (List.cons.inj (List.append_cancel_left htext)).2⟩

theorem connector_of_declared (hc : Declared input c) :
    ∃ caps ∈ input.capabilities, c.connector = caps.name := by
  obtain ⟨caps, hcaps, info, -, -, rfl⟩ := hc
  exact ⟨caps, hcaps, rfl⟩

/-- A free model that is declared is in the list, or another free one that is spelled like it, or
the promoted one is. -/
theorem exists_mem_candidatesOf (hc : Declared input c) (hfree : c.tier = .free) :
    ∃ c' ∈ candidatesOf input, c'.key = c.key ∧ Declared input c' ∧
      (c'.tier = .free ∨ input.promoted.map BuiltEntry.candidate = some c') := by
  obtain ⟨e, he, rfl⟩ := exists_entry_of_declared hc
  have hmem : e ∈ freeSorted (collectEntries input) := mem_freeSorted_iff.2 ⟨he, hfree⟩
  have hcandidate : e.candidate ∈ (freeSorted (collectEntries input)).map BuiltEntry.candidate :=
    List.mem_map_of_mem hmem
  obtain ⟨c', hc', hkey, hfind⟩ := exists_mem_firsts CascadeCandidate.key
    (l := (input.promoted.map BuiltEntry.candidate).toList ++
      (freeSorted (collectEntries input)).map BuiltEntry.candidate)
    (List.mem_append_right _ hcandidate)
  have hfind' : ((input.promoted.map BuiltEntry.candidate).toList ++
      orderFreeFirst (collectEntries input) input.paidEnabled).find?
        (fun b ↦ decide (b.key = e.candidate.key)) = some c' := by
    rw [orderFreeFirst, List.map_append, ← List.append_assoc, List.find?_append, hfind]
    rfl
  refine ⟨c', mem_firsts_iff.2 ⟨List.not_mem_nil, hkey ▸ hfind'⟩, hkey, ?_⟩
  rcases List.mem_append.1 (List.mem_of_find?_eq_some hfind) with hhead | htail
  · obtain ⟨e', he', rfl⟩ := Option.map_eq_some_iff.1 (Option.mem_toList.1 hhead)
    refine ⟨(declared_of_mem (mem_of_promoted he')).1, .inr ?_⟩
    rw [he']
    rfl
  · obtain ⟨e', he', rfl⟩ := List.mem_map.1 htail
    obtain ⟨he', hfree'⟩ := mem_freeSorted_iff.1 he'
    exact ⟨(declared_of_mem he').1, .inl hfree'⟩

/-! ### The results -/

/-- What a list of candidates is. -/
structure Ordered (input : BuildFailoverCandidatesInput) (cs : List CascadeCandidate) : Prop where
  distinct : (cs.map fun c ↦ (c.connector, c.model)).Nodup
  declared : ∀ c ∈ cs, Declared input c
  ordered : ∃ chain : List BuiltEntry,
    cs = (input.promoted.map BuiltEntry.candidate).toList ++ chain.map BuiltEntry.candidate ∧
      (∀ e ∈ chain, e ∈ collectEntries input) ∧ chain.Pairwise BuiltEntry.Precedes

/-- Every free model is in the list, as a free candidate. -/
def Complete (input : BuildFailoverCandidatesInput) (cs : List CascadeCandidate) : Prop :=
  ∀ c, Declared input c → c.tier = .free → c ∈ cs

/-- No two free models, and no free model and the one that was asked for, are spelled alike. -/
def SpelledApart (input : BuildFailoverCandidatesInput) : Prop :=
  (∀ c c', Declared input c → Declared input c' → c.tier = .free → c'.tier = .free →
    c.key = c'.key → c = c') ∧
  ∀ e c, input.promoted = some e → Declared input c → c.tier = .free →
    c.key = e.candidate.key → c = e.candidate

theorem ordered_candidatesOf : Ordered input (candidatesOf input) where
  distinct := by
    refine List.Nodup.of_map (fun p ↦ p.1 ++ ":" ++ p.2) ?_
    rw [List.map_map]
    exact (firsts_keys CascadeCandidate.key []).2
  declared c hc := by
    rw [candidatesOf_eq] at hc
    rcases List.mem_append.1 hc with hc | hc
    · obtain ⟨e, he, rfl⟩ := Option.map_eq_some_iff.1 (Option.mem_toList.1 hc)
      exact (declared_of_mem (mem_of_promoted he)).1
    · obtain ⟨e, he, rfl⟩ := List.mem_map.1 hc
      exact (declared_of_mem (mem_of_mem_fallback he)).1
  ordered := ⟨fallback input, candidatesOf_eq, fun _ ↦ mem_of_mem_fallback, pairwise_fallback⟩

/-- In a list of distinct spelling only one candidate is spelled in one way. -/
theorem eq_of_key_eq {c' : CascadeCandidate} (hc : c ∈ candidatesOf input)
    (hc' : c' ∈ candidatesOf input) (heq : c.key = c'.key) : c = c' :=
  List.inj_on_of_nodup_map (firsts_keys CascadeCandidate.key []).2 hc hc' heq

theorem complete_iff : Complete input (candidatesOf input) ↔ SpelledApart input := by
  constructor
  · intro hcomplete
    refine ⟨fun c c' hc hc' hfree hfree' heq ↦ ?_, fun e c he hc hfree heq ↦ ?_⟩
    · exact eq_of_key_eq (hcomplete c hc hfree) (hcomplete c' hc' hfree') heq
    · refine eq_of_key_eq (hcomplete c hc hfree) ?_ heq
      rw [candidatesOf_eq, he]
      exact List.mem_append_left _ List.mem_cons_self
  · rintro ⟨hfrees, hhead⟩ c hc hfree
    obtain ⟨c', hmem, heq, hc', htier⟩ := exists_mem_candidatesOf hc hfree
    rcases htier with hfree' | hpromoted
    · exact hfrees c' c hc' hc hfree' hfree heq ▸ hmem
    · obtain ⟨e, he, rfl⟩ := Option.map_eq_some_iff.1 hpromoted
      exact (hhead e c he hc hfree heq.symm) ▸ hmem

/-- Connectors without a colon in their names keep their free models apart. -/
theorem spelledApart_of_colonless (hnames : ∀ caps ∈ input.capabilities, ':' ∉ caps.name.toList)
    (hhead : ∀ e, input.promoted = some e → e.candidate.tier = .free) : SpelledApart input := by
  have hapart : ∀ c c', Declared input c → Declared input c' → c.tier = .free → c'.tier = .free →
      c.key = c'.key → c = c' := by
    intro c c' hc hc' hfree hfree' heq
    obtain ⟨caps, hcaps, hname⟩ := connector_of_declared hc
    obtain ⟨caps', hcaps', hname'⟩ := connector_of_declared hc'
    obtain ⟨hconnector, hmodel⟩ := CascadeCandidate.key_injective
      (hname ▸ hnames caps hcaps) (hname' ▸ hnames caps' hcaps') heq
    cases c
    cases c'
    simp_all
  refine ⟨hapart, fun e c he hc hfree heq ↦ ?_⟩
  exact hapart c e.candidate hc (declared_of_mem (mem_of_promoted he)).1 hfree (hhead e he) heq

/-- **The list of candidates is ordered, distinct and complete up to spelling.** Outside the strict
case a list is built; it is complete exactly if the free models are spelled apart. -/
theorem candidates_ordered (hstrict : ¬ StrictPaid input) :
    ∃ cs, buildFailoverCandidates input = .ok cs ∧ Ordered input cs ∧
      (∀ c, Declared input c → c.tier = .free → ∃ c' ∈ cs, c'.key = c.key) ∧
      (Complete input cs ↔ SpelledApart input) ∧
      ((∀ caps ∈ input.capabilities, ':' ∉ caps.name.toList) →
        (∀ e, input.promoted = some e → e.candidate.tier = .free) → Complete input cs) := by
  refine ⟨_, buildFailoverCandidates_eq hstrict, ordered_candidatesOf, fun c hc hfree ↦ ?_,
    complete_iff, fun hnames hhead ↦ ?_⟩
  · obtain ⟨c', hmem, heq, -, -⟩ := exists_mem_candidatesOf hc hfree
    exact ⟨c', hmem, heq⟩
  · exact complete_iff.2 (spelledApart_of_colonless hnames hhead)

/-- Two providers, one of them with a free and a paid model; the paid one is asked for. -/
def qwenRequested : BuildFailoverCandidatesInput where
  capabilities :=
    [{ name := "groq", models := ["llama"], freeModels := some ["llama"] },
      { name := "openmodel", models := [],
        modelMeta := some [{ id := "deepseek-v4-flash", free := some true }, { id := "qwen3" }] }]
  requestedModel := some " qwen3"
  providerOrder := ["openmodel", "groq"]
  deepseekModel := "deepseek-v4-flash"
  paidEnabled := false
  allowFreeDowngrade := true

theorem promoted_qwenRequested :
    qwenRequested.promoted = some ⟨⟨"openmodel", "qwen3", .paid⟩, false, 0, 2⟩ := by
  decide +kernel

theorem candidates_ordered_qwen : ∃ cs, buildFailoverCandidates qwenRequested = .ok cs ∧
    Ordered qwenRequested cs ∧ ∃ c ∈ cs, c.key = "groq:llama" := by
  have hstrict : ¬ StrictPaid qwenRequested := fun ⟨_, _, _, hdowngrade⟩ ↦ by cases hdowngrade
  obtain ⟨cs, hbuilt, hordered, hspelled, -⟩ := candidates_ordered hstrict
  refine ⟨cs, hbuilt, hordered, hspelled ⟨"groq", "llama", .free⟩ ?_ rfl⟩
  exact ⟨_, List.mem_cons_self, { id := "llama" }, by decide, by decide, by decide⟩

/-- A model that its connector declares as paid and as free. -/
def declaredTwice : BuildFailoverCandidatesInput where
  capabilities :=
    [{ name := "x", models := [],
       modelMeta := some [{ id := "m", free := some false }, { id := "m", free := some true }] }]
  requestedModel := some "m"
  providerOrder := []
  deepseekModel := ""
  paidEnabled := false
  allowFreeDowngrade := true

/-- Two models that are spelled alike. -/
def spelledAlike : BuildFailoverCandidatesInput where
  capabilities := [{ name := "a:b", models := ["c"], freeModels := some ["c"] },
    { name := "a", models := ["b:c"], freeModels := some ["b:c"] }]
  providerOrder := []
  deepseekModel := ""
  paidEnabled := false
  allowFreeDowngrade := true

/-- A free model is missing: its paid declaration was asked for, or another model is spelled like
it. -/
theorem free_model_missing :
    (¬ StrictPaid declaredTwice ∧ ∃ cs, buildFailoverCandidates declaredTwice = .ok cs ∧
      ¬ Complete declaredTwice cs) ∧
    ¬ StrictPaid spelledAlike ∧ ∃ cs, buildFailoverCandidates spelledAlike = .ok cs ∧
      ¬ Complete spelledAlike cs := by
  have htwice : ¬ StrictPaid declaredTwice := fun ⟨_, _, _, hdowngrade⟩ ↦ by cases hdowngrade
  have halike : ¬ StrictPaid spelledAlike := fun ⟨_, _, _, hdowngrade⟩ ↦ by cases hdowngrade
  refine ⟨⟨htwice, _, buildFailoverCandidates_eq htwice, fun hcomplete ↦ ?_⟩, halike, _,
    buildFailoverCandidates_eq halike, fun hcomplete ↦ ?_⟩
  · have hpromoted : declaredTwice.promoted = some ⟨⟨"x", "m", .paid⟩, false, 0, 0⟩ := by
      decide +kernel
    have heq := (complete_iff.1 hcomplete).2 _ ⟨"x", "m", .free⟩ hpromoted
      ⟨_, List.mem_cons_self, { id := "m", free := some true }, by decide, by decide, by decide⟩
      rfl rfl
    cases heq
  · have heq := (complete_iff.1 hcomplete).1 ⟨"a:b", "c", .free⟩ ⟨"a", "b:c", .free⟩
      ⟨_, List.mem_cons_self, { id := "c" }, by decide, by decide, by decide⟩
      ⟨_, List.mem_cons_of_mem _ List.mem_cons_self, { id := "b:c" }, by decide, by decide,
        by decide⟩ rfl rfl (by decide)
    exact absurd (congrArg CascadeCandidate.connector heq) (by decide)

/-- A paid model is asked for. -/
def PaidRequested (input : BuildFailoverCandidatesInput) : Prop :=
  ∃ e, input.promoted = some e ∧ e.candidate.tier = .paid

/-- The model that was asked for is in the list. -/
theorem mem_of_built {cs : List CascadeCandidate} (he : input.promoted = some e)
    (hbuilt : buildFailoverCandidates input = .ok cs) : e.candidate ∈ cs := by
  by_cases hstrict : StrictPaid input
  · obtain ⟨e', he', hpaid, hdowngrade⟩ := hstrict
    obtain rfl := Option.some.inj (he.symm.trans he')
    simp only [buildFailoverCandidates, he, hpaid, hdowngrade, and_self, if_true] at hbuilt
    exact Except.ok.inj hbuilt ▸ List.mem_cons_self
  · rw [buildFailoverCandidates_eq hstrict] at hbuilt
    rw [← Except.ok.inj hbuilt, candidatesOf_eq, he]
    exact List.mem_append_left _ List.mem_cons_self

/-- **When switching paid failover off works.** The list is built and holds no paid candidate
exactly if the model that was asked for is absent, an alias, unknown, or first declared as free. -/
theorem paid_off_iff (hoff : input.paidEnabled = false) :
    (∃ cs, buildFailoverCandidates input = .ok cs ∧ ∀ c ∈ cs, c.tier = .free) ↔
      ¬ PaidRequested input := by
  constructor
  · rintro ⟨cs, hbuilt, hall⟩ ⟨e, he, hpaid⟩
    have hfree := hall _ (mem_of_built he hbuilt)
    rw [hpaid] at hfree
    cases hfree
  · intro hnone
    have hstrict : ¬ StrictPaid input := fun ⟨e, he, hpaid, _⟩ ↦ hnone ⟨e, he, hpaid⟩
    refine ⟨_, buildFailoverCandidates_eq hstrict, fun c hc ↦ ?_⟩
    rcases List.mem_append.1 ((firsts_sublist _).subset hc) with hc | hc
    · obtain ⟨e, he, rfl⟩ := Option.map_eq_some_iff.1 (Option.mem_toList.1 hc)
      cases hcase : e.candidate.tier with
      | free => rfl
      | paid => exact absurd ⟨e, he, hcase⟩ hnone
    · exact (mem_orderFreeFirst_iff.1 hc).2.resolve_right (Bool.eq_false_iff.1 hoff)

theorem paid_off_iff_auto : ∃ cs,
    buildFailoverCandidates { qwenRequested with requestedModel := some "Auto" } = .ok cs ∧
      ∀ c ∈ cs, c.tier = .free :=
  (paid_off_iff rfl).2 fun ⟨_, he, _⟩ ↦ by
    have hnone : ({ qwenRequested with requestedModel := some "Auto" } :
        BuildFailoverCandidatesInput).promoted = none := by decide +kernel
    rw [hnone] at he
    cases he

/-- A paid candidate heads the list while paid failover is switched off. -/
theorem paid_while_off : qwenRequested.paidEnabled = false ∧
    ∃ cs, buildFailoverCandidates qwenRequested = .ok cs ∧ ⟨"openmodel", "qwen3", .paid⟩ ∈ cs := by
  have hstrict : ¬ StrictPaid qwenRequested := fun ⟨_, _, _, hdowngrade⟩ ↦ by cases hdowngrade
  have hbuilt := buildFailoverCandidates_eq hstrict
  exact ⟨rfl, _, hbuilt, mem_of_built promoted_qwenRequested hbuilt⟩

end ModelConnector.Connectors
