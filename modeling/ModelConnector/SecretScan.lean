import ModelConnector.Foundations.Result
import ModelConnector.PromptCache.Contract

/-!
# Secrets in a cached prefix

What the scans of the contract leave undetected in a request that is let through in enforce mode.
The text of a block is scanned as it is: joined with its neighbours by line feeds it keeps every
match, since no pattern tells a line feed from the end of a text. A string of a tool is scanned as
part of the canonical text of the tools, in which a control character and a surrogate that is in no
pair are written as escapes, which end with a letter or a digit, and a quote starts with a
backslash. So a match is hidden where it needs the character before it to be such a one, or has one
or a quote inside. -/

namespace ModelConnector.PromptCache

open Regex (boundary notAfter isWord)

/-! ### Contexts -/

/-- Two ends or characters that no pattern tells apart by looking around. -/
def Alike (a b : Option Char) : Prop :=
  a.any isWord = b.any isWord ∧ a.any Char.isAlphanum = b.any Char.isAlphanum

theorem Alike.refl (a : Option Char) : Alike a a :=
  ⟨rfl, rfl⟩

theorem insensitive_boundary : boundary.Insensitive Alike := by
  intro a a' b b' ha hb h
  show (a'.any isWord != b'.any isWord) = true
  rw [← ha.1, ← hb.1]
  exact h

theorem insensitive_notAfter : (notAfter Char.isAlphanum).Insensitive Alike := by
  intro a a' b b' ha _ h
  show (!a'.any Char.isAlphanum) = true
  rw [← ha.2]
  exact h

@[simp]
theorem insensitive_lineUpTo (n : ℕ) : (lineUpTo n).Insensitive Alike := by
  induction n using lineUpTo.induct with
  | case1 => trivial
  | case2 => exact ⟨trivial, trivial⟩
  | case3 n ih ih' => exact ⟨⟨⟨trivial, ih⟩, trivial, ih'⟩, trivial⟩

/-- No pattern of the contract tells alike contexts apart. -/
theorem insensitive_scanPatterns : ∀ rule ∈ scanPatterns, ∀ r ∈ rule.2, r.Insensitive Alike := by
  simp [scanPatterns, timestampPatterns, uuidPatterns, counterPatterns, envPatterns,
    sessionIdPatterns, featureFlagPatterns, userIdentityPatterns, tenantPatterns, secretPatterns,
    insensitive_boundary, insensitive_notAfter, isoDate, digit, hex, wordsI, assigned, spaces,
    filled, oneOf]

theorem insensitive_secret {r : Regex} (hr : r ∈ secretPatterns) : r.Insensitive Alike :=
  insensitive_scanPatterns (.SECRET_IN_PREFIX, secretPatterns) (by simp [scanPatterns]) r hr

/-- What is found in a part of a text is found in the text, when the part ends alike. -/
theorem found_append {r : Regex} (hr : r.Insensitive Alike) {u t v : List Char}
    (hu : Alike none u.getLast?) (hv : Alike none v.head?) (h : r.Found t) :
    r.Found (u ++ t ++ v) := by
  obtain ⟨x, y, z, rfl, hmatch⟩ := h
  refine ⟨u ++ x, y, z ++ v, by simp, hmatch.congr Alike.refl hr ?_ ?_⟩
  · rw [List.getLast?_append]
    cases x.getLast? with
    | none => exact hu
    | some c => exact .refl _
  · rw [List.head?_append]
    cases z.head? with
    | none => exact hv
    | some c => exact .refl _

/-- An element of a list stands in the joined list, between separators or at an end. -/
theorem exists_intercalate (sep : List Char) {ts : List (List Char)} {t : List Char} (ht : t ∈ ts) :
    ∃ u v, sep.intercalate ts = u ++ t ++ v ∧ (u = [] ∨ ∃ u', u = u' ++ sep) ∧
      (v = [] ∨ ∃ v', v = sep ++ v') := by
  induction ts with
  | nil => cases ht
  | cons head rest ih =>
    cases rest with
    | nil =>
      rw [List.mem_singleton.1 ht]
      exact ⟨[], [], by simp, .inl rfl, .inl rfl⟩
    | cons next rest =>
      rw [List.intercalate_cons_cons]
      rcases List.mem_cons.1 ht with rfl | ht
      · exact ⟨[], sep ++ sep.intercalate (next :: rest), by simp, .inl rfl, .inr ⟨_, rfl⟩⟩
      · obtain ⟨u, v, heq, hu, hv⟩ := ih ht
        rw [heq]
        refine ⟨head ++ sep ++ u, v, by simp, .inr ?_, hv⟩
        rcases hu with rfl | ⟨u', rfl⟩
        · exact ⟨head, by simp⟩
        · exact ⟨head ++ sep ++ u', by simp⟩

/-! ### The texts of blocks -/

/-- The text of a block, when it has one. -/
def blockText (block : Json) : Except String (Option String) :=
  match block with
  | .str s => .ok (some s)
  | _ =>
    if stringMember block "type" = some "text" then
      match block.get? "text" with
      | none | some .null => .ok (some "")
      | some v => (jsString v).map some
    else .ok none

/-- What is found in the text of a block is found in the text of its layer. -/
theorem found_textOfBlocks {r : Regex} (hr : r.Insensitive Alike) {blocks : List Json}
    {block : Json} {text t : String} (htext : textOfBlocks blocks = .ok text)
    (hblock : block ∈ blocks) (ht : blockText block = .ok (some t)) (h : r.Found t.toList) :
    r.Found text.toList := by
  obtain ⟨texts, htexts, hjoin⟩ : ∃ texts, blocks.mapM blockText = .ok texts ∧
      "\n".intercalate (texts.filterMap id) = text := by
    have hmap : (blocks.mapM blockText >>= fun texts ↦
        (.ok ("\n".intercalate (texts.filterMap id)) : Except String String)) = .ok text := htext
    obtain ⟨texts, htexts, hjoin⟩ := Except.bind_ok hmap
    exact ⟨texts, htexts, Except.ok.inj hjoin⟩
  obtain ⟨o, ho, hblock'⟩ := (Except.mapM_eq_ok.1 htexts).exists_of_mem_left hblock
  rw [ht] at hblock'
  cases hblock'
  have hmem : t.toList ∈ (texts.filterMap id).map String.toList :=
    List.mem_map_of_mem (List.mem_filterMap.2 ⟨some t, ho, rfl⟩)
  have hsep : "\n".toList = ['\n'] := by decide
  have hfeed : Alike none (some '\n') := ⟨by decide, by decide⟩
  obtain ⟨u, v, heq, hu, hv⟩ := exists_intercalate ['\n'] hmem
  rw [← hjoin, String.toList_intercalate, hsep, heq]
  refine found_append hr ?_ ?_ h
  · rcases hu with rfl | ⟨u', rfl⟩
    · exact .refl _
    · rw [List.getLast?_concat]
      exact hfeed
  · rcases hv with rfl | ⟨v', rfl⟩
    · exact .refl _
    · exact hfeed

/-! ### The strings of a value -/

/-- A string occurs in a value, at any depth, as a value or as a key. -/
inductive StringIn (s : String) : Json → Prop
  | str : StringIn s (.str s)
  | elem {elems : List Json} {v : Json} (hv : v ∈ elems) (h : StringIn s v) :
    StringIn s (.arr elems)
  | key {members : List (String × Json)} {v : Json} (hv : (s, v) ∈ members) :
    StringIn s (.obj members)
  | member {members : List (String × Json)} {key : String} {v : Json} (hv : (key, v) ∈ members)
    (h : StringIn s v) : StringIn s (.obj members)

/-- The text of a member stands in the text of the object. -/
theorem memberText_within {members : List (String × Json)} {p : String × Json} (hp : p ∈ members) :
    Json.memberText (p.1, p.2.text) <:+: (Json.obj members).text := by
  have hmem : Json.memberText (p.1, p.2.text) ∈
      ((Json.memberTexts members).insertionSort Json.KeyLE).map Json.memberText := by
    refine List.mem_map_of_mem ((List.mem_insertionSort _).2 ?_)
    rw [Json.memberTexts_eq_map]
    exact List.mem_map_of_mem (f := fun p : String × Json ↦ (p.1, p.2.text)) hp
  obtain ⟨u, v, heq, -⟩ := exists_intercalate [','] hmem
  rw [Json.text, heq]
  exact ⟨'\x7b' :: u, v ++ ['\x7d'], by simp⟩

/-- A string of a value stands quoted in the text of the value. -/
theorem quote_infix {s : String} {v : Json} (h : StringIn s v) : Json.quote s <:+: v.text := by
  induction h with
  | str => exact List.infix_refl _
  | @elem elems v hv _ ih =>
    obtain ⟨u, w, heq, -⟩ :=
      exists_intercalate [','] (List.mem_map_of_mem (f := Json.text) hv)
    rw [Json.text, Json.texts_eq_map, heq]
    exact ih.trans ⟨'[' :: u, w ++ [']'], by simp⟩
  | @key members v hv =>
    exact .trans ⟨[], ':' :: v.text, by simp [Json.memberText]⟩ (memberText_within hv)
  | @member members key v hv _ ih =>
    refine ih.trans (.trans ?_ (memberText_within hv))
    exact ⟨Json.quote key ++ [':'], [], by simp [Json.memberText]⟩

/-! ### What escaping hides -/

/-- A control character. -/
def isControl (c : Char) : Bool :=
  c.toNat < 0x20

/-- A character that is written as an escape, which ends with a letter or a digit. -/
def isEscaped (c : Char) : Bool :=
  isControl c || isLoneSurrogate c

/-- A match that the escapes of the canonical text may hide: the pattern looks around, and a control
character or a surrogate alone stands before the match, or the match holds one or a quote. -/
def Hidden (r : Regex) (x y : List Char) : Prop :=
  r.anchored = true ∧
    ((∃ c, x.getLast? = some c ∧ isEscaped c = true) ∨ ∃ c ∈ y, isEscaped c = true ∨ c = '"')

theorem toNat_of_isAlphanum {c : Char} (h : c.isAlphanum = true) :
    0x30 ≤ c.toNat ∧ c.toNat ≤ 0x7A := by
  have hclass : (c.isUpper || c.isLower || c.isDigit) = true := h
  have hlower : c.isLower = true ↔ c.val ≥ 'a'.val ∧ c.val ≤ 'z'.val := by
    show (decide _ && decide _) = true ↔ _
    simp only [Bool.and_eq_true, decide_eq_true_eq]
  have hdigit : c.isDigit = true ↔ c.val ≥ '0'.val ∧ c.val ≤ '9'.val := by
    show (decide _ && decide _) = true ↔ _
    simp only [Bool.and_eq_true, decide_eq_true_eq]
  have hupper : c.isUpper = true ↔ c.val ≥ 'A'.val ∧ c.val ≤ 'Z'.val := by
    show decide _ = true ↔ _
    exact decide_eq_true_iff
  simp only [Bool.or_eq_true, hupper, hlower, hdigit, ge_iff_le, UInt32.le_iff_toNat_le] at hclass
  rcases hclass with (⟨hl, hh⟩ | ⟨hl, hh⟩) | ⟨hl, hh⟩
  all_goals exact ⟨le_trans (by decide) hl, hh.trans (by decide)⟩

/-- What is written as an escape is no letter or digit. -/
theorem isAlphanum_of_isEscaped {c : Char} (h : isEscaped c = true) : c.isAlphanum = false := by
  by_contra halnum
  obtain ⟨hlow, hhigh⟩ := toNat_of_isAlphanum (by simpa using halnum)
  simp only [isEscaped, isControl, isLoneSurrogate, Bool.or_eq_true, decide_eq_true_eq] at h
  omega

theorem quoteChar_of_plain {c : Char} (hplain : isEscaped c = false) (hquote : c ≠ '"')
    (hbackslash : c ≠ '\\') : Json.quoteChar c = [c] := by
  obtain ⟨hcontrol, hlone⟩ := Bool.or_eq_false_iff.1 hplain
  have hge : ¬ c.toNat < 0x20 := by simpa [isControl] using hcontrol
  have hne : ∀ d : Char, d.toNat < 0x20 → c ≠ d := fun d hd h ↦ hge (h ▸ hd)
  simp [Json.quoteChar, hquote, hbackslash, hge, hlone, hne '\x08' (by decide),
    hne '\x0c' (by decide), hne '\n' (by decide), hne '\r' (by decide), hne '\t' (by decide)]

/-- What is written of a character without an escape of its own ends with it. -/
theorem getLast?_quoteChar {c : Char} (h : isEscaped c = false) :
    (Json.quoteChar c).getLast? = some c := by
  by_cases hquote : c = '"'
  · rw [hquote]
    rfl
  · by_cases hbackslash : c = '\\'
    · rw [hbackslash]
      rfl
    · rw [quoteChar_of_plain h hquote hbackslash]
      rfl

/-- What is written of a character starts with it, or with a backslash where no word goes on. -/
theorem alike_head?_quoteChar (c : Char) (w : List Char) :
    Alike (some c) (Json.quoteChar c ++ w).head? := by
  by_cases hplain : Json.quoteChar c = [c]
  · rw [hplain]
    exact .refl _
  · have hword : isWord c = false ∧ c.isAlphanum = false := by
      by_contra hword
      refine hplain (quoteChar_of_plain ?_ ?_ ?_)
      · by_contra hescaped
        rw [Bool.not_eq_false] at hescaped
        have hne : c ≠ '_' := fun h ↦ absurd (h ▸ hescaped) (by decide)
        have halnum := isAlphanum_of_isEscaped hescaped
        exact hword ⟨by simp [isWord, halnum, hne], halnum⟩
      · rintro rfl
        exact hword ⟨by decide, by decide⟩
      · rintro rfl
        exact hword ⟨by decide, by decide⟩
    have hhead : (Json.quoteChar c ++ w).head? = some '\\' ∨ Json.quoteChar c = [c] := by
      unfold Json.quoteChar
      repeat' split
      all_goals first | exact .inl rfl | exact .inr rfl
    rw [hhead.resolve_right hplain]
    have hbackslash : isWord '\\' = false ∧ '\\'.isAlphanum = false := ⟨by decide, by decide⟩
    exact ⟨by simp [hword.1, hbackslash.1], by simp [hword.2, hbackslash.2]⟩

theorem secret_reads {r : Regex} (hr : r ∈ secretPatterns) : r.reads '\\' = false := by
  have hall : secretPatterns.all (fun r ↦ !r.reads '\\') = true := by decide +kernel
  simpa using List.all_eq_true.1 hall r hr

/-- A pattern of a secret that does not look around reads neither what is escaped nor quotes. -/
theorem secret_reads_of_not_anchored {r : Regex} (hr : r ∈ secretPatterns)
    (hanchored : r.anchored = false) {c : Char} (hc : isEscaped c = true ∨ c = '"') :
    r.reads c = false := by
  have hlow : c.isAlphanum = false := by
    rcases hc with hc | rfl
    · exact isAlphanum_of_isEscaped hc
    · decide
  have hlit : ∀ s : String, (s.toList.all fun d ↦ !isEscaped d && d != '"') = true →
      (Regex.lit s).reads c = false := by
    intro s hs
    rw [Regex.reads_lit]
    by_contra hmem
    have hd := List.all_eq_true.1 hs c (by simpa using hmem)
    rcases hc with hc | rfl
    · simp [hc] at hd
    · simp at hd
  have hclass : isWord c = false ∧ (c.isUpper || c == ' ') = false := by
    have hne : ∀ d : Char, isEscaped d = false → d ≠ '"' → c ≠ d := by
      rintro d hd hd' rfl
      rcases hc with hc | hc
      · rw [hc] at hd
        cases hd
      · exact hd' hc
    have hupper : c.isUpper = false := by
      have hclass : (c.isUpper || c.isLower || c.isDigit) = false := hlow
      simp only [Bool.or_eq_false_iff] at hclass
      exact hclass.1.1
    simp [isWord, hlow, hupper, hne '_' (by decide) (by decide), hne ' ' (by decide) (by decide)]
  simp only [secretPatterns, List.mem_cons, List.not_mem_nil, or_false] at hr
  rcases hr with rfl | rfl | rfl | rfl | rfl | rfl
  · simp [-Regex.reads_lit, Regex.reads, hlit "mun_sk_" (by decide), hclass.1]
  · simp [-Regex.reads_lit, Regex.reads, hlit "ghp_" (by decide), hlow]
  · cases hanchored
  · simp [-Regex.reads_lit, Regex.reads, hlit "-----BEGIN " (by decide),
      hlit "PRIVATE KEY-----" (by decide), hclass.2]
  · cases hanchored
  · cases hanchored

/-- A match in a string of a value that is not hidden is found in the text of the value. -/
theorem found_text {r : Regex} (hr : r ∈ secretPatterns) {s : String} {v : Json}
    (hs : StringIn s v) {x y z : List Char} (hsplit : s.toList = x ++ y ++ z)
    (hmatch : r.Matches x.getLast? y z.head?) (hshown : ¬ Hidden r x y) : r.Found v.text := by
  -- what a pattern matches holds no character that is written as an escape, unless it is hidden
  have hplain : y.flatMap Json.quoteChar = y := by
    have hchars : ∀ c ∈ y, Json.quoteChar c = [c] := by
      intro c hc
      have hreads := hmatch.reads c hc
      have hshow : ¬(isEscaped c = true ∨ c = '"') := by
        intro h
        cases hanchored : r.anchored with
        | true => exact hshown ⟨hanchored, .inr ⟨c, hc, h⟩⟩
        | false =>
          rw [secret_reads_of_not_anchored hr hanchored h] at hreads
          cases hreads
      rw [not_or] at hshow
      refine quoteChar_of_plain (by simpa using hshow.1) hshow.2 fun h ↦ ?_
      rw [h, secret_reads hr] at hreads
      cases hreads
    clear hsplit hmatch hshown
    induction y with
    | nil => rfl
    | cons c y ih =>
      rw [List.flatMap_cons, hchars c List.mem_cons_self,
        ih fun c hc ↦ hchars c (List.mem_cons_of_mem _ hc)]
      rfl
  obtain ⟨u, w, heq⟩ := quote_infix hs
  refine ⟨u ++ '"' :: x.flatMap Json.quoteChar, y, z.flatMap Json.quoteChar ++ '"' :: w, ?_, ?_⟩
  · rw [← heq, Json.quote, hsplit, List.flatMap_append, List.flatMap_append, hplain]
    simp
  · cases hanchored : r.anchored with
    | false =>
      exact hmatch.congr (R := fun _ _ ↦ True) (fun _ ↦ trivial)
        (Regex.insensitive_of_not_anchored hanchored) trivial trivial
    | true =>
      have hquote : Alike none (some '"') := ⟨by decide, by decide⟩
      refine hmatch.congr Alike.refl (insensitive_secret hr) ?_ ?_
      · rcases List.eq_nil_or_concat x with rfl | ⟨x', c, rfl⟩
        · simpa using hquote
        · have hlast : isEscaped c = false :=
            Bool.eq_false_iff.2 fun h ↦ hshown ⟨hanchored, .inl ⟨c, by simp, h⟩⟩
          rw [List.concat_eq_append, List.flatMap_append, List.flatMap_singleton,
            List.getLast?_concat, ← List.cons_append, ← List.append_assoc, List.getLast?_append,
            getLast?_quoteChar hlast]
          exact .refl _
      · cases z with
        | nil => exact hquote
        | cons c z =>
          rw [List.flatMap_cons, List.append_assoc]
          exact alike_head?_quoteChar c _

/-! ### What is let through -/

section LetThrough

variable {sha256Text : String → String} {options : EvaluateOptions} {call : EvaluateCall}
  {store : PolicyStore} {d : Derivation}

/-- What the derivation of a request is made of, hashes and counts apart. -/
structure Derived (req : Json) (d : Derivation) : Prop where
  L0_eq : d.L0 = arrayMember req "tools"
  layers_eq : d.layers = (place req).layers
  L4_eq : d.L4 = tailMessages (arrayMember req "messages") (place req).m0Rest
  missing_eq : d.missing = (place req).missing
  misplaced_eq : d.misplaced = (place req).misplaced
  L0_text : canonicalText (.arr d.L0) = .ok d.prefixText.L0
  L1_text : textOfBlocks d.layers.L1 = .ok d.prefixText.L1
  L2_text : textOfBlocks d.layers.L2 = .ok d.prefixText.L2
  L3_text : textOfBlocks d.layers.L3 = .ok d.prefixText.L3

theorem derived_of_derive {req : Json} (h : derive sha256Text req = .ok d) : Derived req d := by
  unfold derive at h
  obtain ⟨_, hl0, h⟩ := Except.bind_ok h
  obtain ⟨_, ht1, h⟩ := Except.bind_ok h
  obtain ⟨_, ht2, h⟩ := Except.bind_ok h
  obtain ⟨_, ht3, h⟩ := Except.bind_ok h
  obtain ⟨_, -, h⟩ := Except.bind_ok h
  obtain ⟨_, -, h⟩ := Except.bind_ok h
  obtain ⟨_, -, h⟩ := Except.bind_ok h
  obtain ⟨_, -, h⟩ := Except.bind_ok h
  obtain ⟨_, -, h⟩ := Except.bind_ok h
  obtain ⟨_, -, h⟩ := Except.bind_ok h
  obtain ⟨_, -, h⟩ := Except.bind_ok h
  cases h
  exact ⟨rfl, rfl, rfl, rfl, rfl, hl0, ht1, ht2, ht3⟩

/-- The texts of the layers that are scanned. -/
theorem prefixText_of_derive (h : derive sha256Text call.body = .ok d) :
    canonicalText (.arr d.L0) = .ok d.prefixText.L0 ∧
      textOfBlocks d.layers.L1 = .ok d.prefixText.L1 ∧
      textOfBlocks d.layers.L2 = .ok d.prefixText.L2 ∧
      textOfBlocks d.layers.L3 = .ok d.prefixText.L3 := by
  have hderived := derived_of_derive h
  exact ⟨hderived.L0_text, hderived.L1_text, hderived.L2_text, hderived.L3_text⟩

theorem layers_of_derive (h : derive sha256Text call.body = .ok d) :
    d.layers = (place call.body).layers ∧ d.L0 = arrayMember call.body "tools" := by
  have hderived := derived_of_derive h
  exact ⟨hderived.layers_eq, hderived.L0_eq⟩

/-- The decision on a request whose layers are derived, and that is let through, is recorded. -/
theorem recorded_of_passed {decision : PromptCachePolicyDecision}
    (hdecision : (evaluatePromptCachePolicy sha256Text options call store).1 = .ok decision)
    (hpassed : decision.action ≠ .refuse) (hclaimed : decision.caching_claimed = true)
    (hd : derive sha256Text call.body = .ok d) :
    ∃ session, Recorded sha256Text options call store d session decision := by
  rcases evaluate_cases sha256Text options call store with ⟨-, h⟩ | ⟨d', session, decision', hrec⟩
  · rcases h decision hdecision with hrefused | ⟨-, -, hunread⟩
    · exact absurd hrefused hpassed
    · have hbad := hunread hclaimed
      rw [hd] at hbad
      cases hbad
  · rw [hrec.result] at hdecision
    cases hdecision
    obtain rfl : d' = d := Except.ok.inj (hrec.derived.symm.trans hd)
    exact ⟨session, hrec⟩

/-- In enforce mode no pattern of the contract is found in the text of a layer, but for identifiers
in the third. -/
theorem not_found_of_passed {decision : PromptCachePolicyDecision} {session : SessionEvaluation}
    (hrec : Recorded sha256Text options call store d session decision)
    (hmode : options.mode = .enforce) (hcontract : options.contract = vendoredContract)
    {rule : FindingCode × List Regex} (hrule : rule ∈ scanPatterns) {layer : FindingLayer}
    {text : String} (hlayer : (layer, text) ∈ d.prefixText.layers)
    (huuid : rule.1 ≠ .DYN_UUID ∨ layer ≠ .L3) {r : Regex} (hr : r ∈ rule.2) :
    ¬ r.Found text.toList := by
  intro hfound
  have htest : r.test text = true := Regex.test_iff.2 hfound
  have hne : text ≠ "" := by
    rintro rfl
    have hempty : scanPatterns.all (fun rule ↦ rule.2.all fun r ↦ !r.test "") = true := by
      decide +kernel
    have hr' := List.all_eq_true.1 (List.all_eq_true.1 hempty rule hrule) r hr
    rw [htest] at hr'
    cases hr'
  have hseverity : ∀ rule ∈ scanPatterns,
      rule.1.severity = .refusal ∨ rule.1.severity = .error := by decide +kernel
  obtain ⟨index, hindex⟩ := List.mem_iff_getElem?.1 (List.mem_map_of_mem (f := Regex.test) hr)
  have hfinding : contractFinding rule.1 layer ("pattern #" ++ toString index ++ " of " ++
      rule.1.text ++ " matched in " ++ layer.text) ∈ decision.findings := by
    have hscan : contractFinding rule.1 layer ("pattern #" ++ toString index ++ " of " ++
        rule.1.text ++ " matched in " ++ layer.text) ∈
          scanFindings options.contract d.prefixText := by
      rw [hcontract]
      refine List.mem_flatMap.2 ⟨compileRule rule, List.mem_map_of_mem hrule,
        List.mem_flatMap.2 ⟨(layer, text), List.mem_filter.2 ⟨hlayer, ?_⟩,
          List.mem_filterMap.2 ⟨(r.test, index), List.mk_mem_zipIdx_iff_getElem?.2 hindex, ?_⟩⟩⟩
      · show ((rule.1 ≠ .DYN_UUID || layer ≠ .L3) && text ≠ "" : Bool) = true
        simpa [hne] using huuid
      · simp [htest, compileRule]
    rw [hrec.findings_eq]
    unfold prefixFindings requestFindings
    simp only [List.mem_append, hscan, or_true, true_or]
  obtain ⟨hrefusal, herror⟩ := hrec.severity_ne hmode hfinding
  rcases hseverity rule hrule with h | h
  · exact hrefusal h
  · exact herror h

/-- The blocks of the system and of the head of the first message that are cached. -/
def prefixBlocks (req : Json) : List Json :=
  (place req).layers.L1 ++ (place req).layers.L2 ++ (place req).layers.L3

/-- No string of the tools and no text of a cached block holds a secret, when a request that claims
a cached prefix is let through. -/
def SecretFree (sha256Text : String → String) (options : EvaluateOptions) (call : EvaluateCall)
    (store : PolicyStore) : Prop :=
  ∀ decision, (evaluatePromptCachePolicy sha256Text options call store).1 = .ok decision →
    decision.action ≠ .refuse → decision.caching_claimed = true →
      (∀ s, StringIn s (.arr (arrayMember call.body "tools")) →
        ∀ r ∈ secretPatterns, ¬ r.Found s.toList) ∧
      ∀ block ∈ prefixBlocks call.body, ∀ t, blockText block = .ok (some t) →
        ∀ r ∈ secretPatterns, ¬ r.Found t.toList

/-- In a request that is let through in enforce mode, and whose layers can be derived, no text of a
cached block holds a secret, and what a string of the tools holds of one is hidden. -/
theorem secrets_detected (hmode : options.mode = .enforce)
    (hcontract : options.contract = vendoredContract) {decision : PromptCachePolicyDecision}
    (hdecision : (evaluatePromptCachePolicy sha256Text options call store).1 = .ok decision)
    (hpassed : decision.action ≠ .refuse) (hclaimed : decision.caching_claimed = true)
    (hd : (derive sha256Text call.body).isOk = true) :
    (∀ block ∈ prefixBlocks call.body, ∀ t, blockText block = .ok (some t) →
      ∀ r ∈ secretPatterns, ¬ r.Found t.toList) ∧
    ∀ s, StringIn s (.arr (arrayMember call.body "tools")) → ∀ r ∈ secretPatterns, ∀ x y z,
      s.toList = x ++ y ++ z → r.Matches x.getLast? y z.head? → Hidden r x y := by
  cases hderived : derive sha256Text call.body with
  | error e =>
    rw [hderived] at hd
    cases hd
  | ok d =>
    obtain ⟨session, hrec⟩ := recorded_of_passed hdecision hpassed hclaimed hderived
    obtain ⟨h0, h1, h2, h3⟩ := prefixText_of_derive hderived
    have hrule : (FindingCode.SECRET_IN_PREFIX, secretPatterns) ∈ scanPatterns := by
      simp [scanPatterns]
    have hscan : ∀ layer text, (layer, text) ∈ d.prefixText.layers → ∀ r ∈ secretPatterns,
        ¬ r.Found text.toList := fun layer text hlayer r hr ↦
      not_found_of_passed hrec hmode hcontract hrule hlayer (.inl (by decide)) hr
    have hlayers : d.layers = (place call.body).layers ∧ d.L0 = arrayMember call.body "tools" :=
      layers_of_derive hderived
    constructor
    · intro block hblock t ht r hr hfound
      rw [prefixBlocks, ← hlayers.1] at hblock
      rcases List.mem_append.1 hblock with hblock | hblock
      · rcases List.mem_append.1 hblock with hblock | hblock
        · exact hscan .L1 _ (by simp [PrefixText.layers]) r hr
            (found_textOfBlocks (insensitive_secret hr) h1 hblock ht hfound)
        · exact hscan .L2 _ (by simp [PrefixText.layers]) r hr
            (found_textOfBlocks (insensitive_secret hr) h2 hblock ht hfound)
      · exact hscan .L3 _ (by simp [PrefixText.layers]) r hr
          (found_textOfBlocks (insensitive_secret hr) h3 hblock ht hfound)
    -- a string of the tools is matched in the text of the whole list
    · intro s hs r hr x y z hsplit hmatch
      by_contra hshown
      rw [← hlayers.2] at hs
      have hfound := found_text hr hs hsplit hmatch hshown
      refine hscan .L0 d.prefixText.L0 (by simp [PrefixText.layers]) r hr ?_
      unfold canonicalText at h0
      split at h0
      · rename_i text htext
        unfold Json.canonicalJson at htext
        split at htext
        · rw [← Except.ok.inj h0, ← Option.some.inj htext, String.toList_ofList]
          exact hfound
        · cases htext
      · cases h0

end LetThrough

/-- A text block with a breakpoint. -/
def cachedBlock (text : String) : Json :=
  .obj [("type", .str "text"), ("text", .str text),
    ("cache_control", .obj [("type", .str "ephemeral")])]

/-- A key after a character. -/
def keyAfter (before : Char) : String :=
  String.ofList (before :: "sk-aaaaaaaaaaaaaaaa".toList)

/-- The surrogate `\ud800`, in no pair. -/
def loneSurrogate : Char :=
  Char.ofNat 0x10F800

/-- A request with a key after a character in the description of a tool, for a model whose minimum
prefix the contract does not know. -/
def leakingCall (before : Char) : EvaluateCall where
  body := .obj [("model", .str "other"),
    ("tools", .arr [.obj [("description", .str (keyAfter before))]]),
    ("system", .arr [cachedBlock "a", cachedBlock "b", cachedBlock "c"])]
  ctx := { tenantId := some "t" }

/-- The request is let through. -/
def passes (call : EvaluateCall) : Bool :=
  (evaluatePromptCachePolicy id { contract := vendoredContract, mode := .enforce } call
    {}).1.toOption.any fun decision ↦ decision.action ≠ .refuse && decision.caching_claimed

theorem exists_leaking_decision {call : EvaluateCall} (hpassed : passes call = true) :
    ∃ decision, (evaluatePromptCachePolicy id
      { contract := vendoredContract, mode := .enforce } call {}).1 = .ok decision ∧
    decision.action ≠ .refuse ∧ decision.caching_claimed = true := by
  unfold passes at hpassed
  cases hdecision : (evaluatePromptCachePolicy id
      { contract := vendoredContract, mode := .enforce } call {}).1 with
  | error e =>
    rw [hdecision] at hpassed
    cases hpassed
  | ok decision =>
    rw [hdecision] at hpassed
    simp only [Except.toOption, Option.any_some, Bool.and_eq_true, decide_eq_true_eq] at hpassed
    exact ⟨decision, rfl, hpassed⟩

theorem stringIn_leakingCall (before : Char) :
    StringIn (keyAfter before) (.arr (arrayMember (leakingCall before).body "tools")) :=
  .elem List.mem_cons_self (.member List.mem_cons_self .str)

theorem not_secretFree_leakingCall {before : Char} (hpassed : passes (leakingCall before) = true)
    (htest : secretPatterns.any (·.test (keyAfter before)) = true) :
    ¬ SecretFree id { contract := vendoredContract, mode := .enforce } (leakingCall before) {} := by
  intro h
  obtain ⟨decision, hdecision, hpassed, hclaimed⟩ := exists_leaking_decision hpassed
  obtain ⟨r, hr, hfound⟩ := List.any_eq_true.1 htest
  exact (h decision hdecision hpassed hclaimed).1 _ (stringIn_leakingCall before) r hr
    (Regex.test_iff.1 hfound)

/-- A key is let through after a line feed, and after a surrogate that is in no pair. -/
theorem leakingCall_passes :
    ¬ SecretFree id { contract := vendoredContract, mode := .enforce } (leakingCall '\n') {} ∧
    ¬ SecretFree id { contract := vendoredContract, mode := .enforce }
      (leakingCall loneSurrogate) {} :=
  ⟨not_secretFree_leakingCall (by decide +kernel) (by decide +kernel),
    not_secretFree_leakingCall (by decide +kernel) (by decide +kernel)⟩

/-- The key of `leakingCall` is hidden, after the surrogate. -/
theorem leakingCall_hidden :
    ∃ r ∈ secretPatterns, Hidden r [loneSurrogate] "sk-aaaaaaaaaaaaaaaa".toList := by
  obtain ⟨decision, hdecision, hpassed, hclaimed⟩ :=
    @exists_leaking_decision (leakingCall loneSurrogate) (by decide +kernel)
  have hread : (derive id (leakingCall loneSurrogate).body).isOk = true := by decide +kernel
  have hsecrets := (@secrets_detected id { contract := vendoredContract, mode := .enforce }
    (leakingCall loneSurrogate) {} rfl rfl decision hdecision hpassed hclaimed hread).2
      (keyAfter loneSurrogate) (stringIn_leakingCall loneSurrogate)
  have hmatch : ∃ r ∈ secretPatterns,
      r.Matches (some loneSurrogate) "sk-aaaaaaaaaaaaaaaa".toList none := by
    have hstart : (secretPatterns.any fun r ↦
        ("sk-aaaaaaaaaaaaaaaa".toList.foldl (fun (p : Regex × Option Char) c ↦
          (p.1.deriv p.2 c, some c)) (r, some loneSurrogate)).1.nullable (some 'a') none) =
            true := by
      decide +kernel
    obtain ⟨r, hr, hnull⟩ := List.any_eq_true.1 hstart
    refine ⟨r, hr, ?_⟩
    simpa [Regex.matches_deriv_iff] using Regex.nullable_iff.1 hnull
  obtain ⟨r, hr, hmatch⟩ := hmatch
  exact ⟨r, hr, hsecrets r hr [loneSurrogate] "sk-aaaaaaaaaaaaaaaa".toList [] (by decide) hmatch⟩

end ModelConnector.PromptCache
