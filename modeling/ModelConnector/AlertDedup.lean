import ModelConnector.CanonicalTexts
import ModelConnector.HealedCircuits
import ModelConnector.StrictSchemas
import ModelConnector.Watcher.Alerts

/-!
# Repeated alerts

The client drops an event when it has delivered one with the same text a short time ago. The text
has the reference of the audit log in it, which is made anew for every alert, and the date of the
evidence. So two alerts about the same failure have different texts, unless their bodies are cut off
before they differ, and both are delivered. The member `dedup_key`, which they share, is not looked
at.
-/

namespace ModelConnector.Watcher

open Ecma Connectors.Codex

variable {R : Rendering} {dedupWindowMs : ℕ} {client : OpsBotClient} {e e' : Emission}
  {es : List Emission}

/-! ### What is wanted of the client -/

/-- Alerts about the same failure of a pair, with the same action and outcome. -/
structure Emission.Alike (e e' : Emission) : Prop where
  provider : e.alert.evidence.provider = e'.alert.evidence.provider
  model : e.alert.evidence.model = e'.alert.evidence.model
  failureClass : e.alert.failureClass = e'.alert.failureClass
  attemptedAction : e.alert.attemptedAction = e'.alert.attemptedAction
  outcome : e.alert.outcome = e'.alert.outcome

instance (e e' : Emission) : Decidable (e.Alike e') :=
  decidable_of_iff (e.alert.evidence.provider = e'.alert.evidence.provider ∧
      e.alert.evidence.model = e'.alert.evidence.model ∧
      e.alert.failureClass = e'.alert.failureClass ∧
      e.alert.attemptedAction = e'.alert.attemptedAction ∧ e.alert.outcome = e'.alert.outcome)
    ⟨fun h ↦ ⟨h.1, h.2.1, h.2.2.1, h.2.2.2.1, h.2.2.2.2⟩,
      fun h ↦ ⟨h.provider, h.model, h.failureClass, h.attemptedAction, h.outcome⟩⟩

/-- Alerts that are alike are a window apart. -/
def Apart (dedupWindowMs : ℕ) (e e' : Emission) : Prop :=
  e.Alike e' → (dedupWindowMs : ℤ) ≤ |e'.now - e.now|

instance (e e' : Emission) : Decidable (Apart dedupWindowMs e e') :=
  inferInstanceAs (Decidable (_ → _))

/-- The client after a sequence of emissions. -/
def OpsBotClient.after (dedupWindowMs : ℕ) (R : Rendering) (es : List Emission) : OpsBotClient :=
  es.foldl (OpsBotClient.emit dedupWindowMs R) {}

/-- **What is wanted of the client**: what it delivers is a window apart where it is alike, and a
delivery that fails leaves everything as it is. -/
structure Deduplicates (dedupWindowMs : ℕ) (R : Rendering) (es : List Emission) : Prop where
  apart : (OpsBotClient.after dedupWindowMs R es).delivered.Pairwise (Apart dedupWindowMs)
  uncounted : ∀ before e, before ++ [e] <+: es → e.sent = false →
    OpsBotClient.after dedupWindowMs R (before ++ [e]) = .after dedupWindowMs R before

/-! ### What the client remembers -/

/-- The client remembers when it last delivered an event. -/
structure Remembers (R : Rendering) (client : OpsBotClient) : Prop where
  delivered : ∀ {key t}, client.sent key = some t →
    ∃ d ∈ client.delivered, d.key R = key ∧ d.now = t
  last : ∀ d ∈ client.delivered, ∃ t, client.sent (d.key R) = some t ∧ d.now ≤ t

theorem remembers_init : Remembers R {} where
  delivered h := nomatch h
  last _ hd := nomatch hd

theorem isRecent_iff (h : Remembers R client) : client.isRecent dedupWindowMs R e = true ↔
    ∃ d ∈ client.delivered, d.key R = e.key R ∧ e.now - d.now < dedupWindowMs := by
  unfold OpsBotClient.isRecent
  constructor
  · intro hrecent
    obtain ⟨t, ht, hlt⟩ := (Option.any_eq_true _ _).1 hrecent
    obtain ⟨d, hd, hkey, rfl⟩ := h.delivered ht
    exact ⟨d, hd, hkey, of_decide_eq_true hlt⟩
  · rintro ⟨d, hd, hkey, hlt⟩
    obtain ⟨t, ht, hle⟩ := h.last d hd
    exact (Option.any_eq_true _ _).2 ⟨t, hkey ▸ ht, decide_eq_true (by omega)⟩

theorem remembers_emit (h : Remembers R client) :
    Remembers R (client.emit dedupWindowMs R e) := by
  unfold OpsBotClient.emit
  split_ifs with hrecent hsent
  · exact h
  · exact h
  · refine ⟨fun {key t} ht ↦ ?_, fun d hd ↦ ?_⟩
    · dsimp only at ht ⊢
      by_cases hkey : key = e.key R
      · subst hkey
        rw [Function.update_self] at ht
        exact ⟨e, List.mem_append_right _ (List.mem_singleton_self e), rfl, Option.some.inj ht⟩
      · rw [Function.update_of_ne hkey] at ht
        obtain ⟨d, hd, hrest⟩ := h.delivered ht
        exact ⟨d, List.mem_append_left _ hd, hrest⟩
    · dsimp only at hd ⊢
      by_cases hkey : d.key R = e.key R
      · refine ⟨e.now, by rw [hkey, Function.update_self], ?_⟩
        rcases List.mem_append.1 hd with hd | hd
        · -- what was sent under the key was sent a window ago
          obtain ⟨t, ht, hle⟩ := h.last d hd
          have hold : ¬ (e.now - t < dedupWindowMs) := by
            intro hlt
            exact hrecent ((Option.any_eq_true _ _).2 ⟨t, hkey ▸ ht, decide_eq_true hlt⟩)
          omega
        · rw [List.mem_singleton.1 hd]
      · rcases List.mem_append.1 hd with hd | hd
        · obtain ⟨t, ht, hle⟩ := h.last d hd
          exact ⟨t, by rw [Function.update_of_ne hkey, ht], hle⟩
        · exact absurd (by rw [List.mem_singleton.1 hd]) hkey

theorem after_concat : OpsBotClient.after dedupWindowMs R (es ++ [e]) =
    (OpsBotClient.after dedupWindowMs R es).emit dedupWindowMs R e := by
  unfold OpsBotClient.after
  rw [List.foldl_append, List.foldl_cons, List.foldl_nil]

theorem remembers_after : Remembers R (OpsBotClient.after dedupWindowMs R es) := by
  induction es using List.reverseRecOn with
  | nil => exact remembers_init
  | append_singleton es e ih =>
    rw [after_concat]
    exact remembers_emit ih

/-- A delivery that fails leaves the client as it is. -/
theorem emit_of_unsent (h : e.sent = false) : client.emit dedupWindowMs R e = client := by
  unfold OpsBotClient.emit
  simp [h]

/-- What is delivered is some of what can be sent, in that order. -/
theorem delivered_sublist :
    (OpsBotClient.after dedupWindowMs R es).delivered.Sublist (es.filter Emission.sent) := by
  induction es using List.reverseRecOn with
  | nil => exact List.Sublist.refl _
  | append_singleton es e ih =>
    have hold : (OpsBotClient.after dedupWindowMs R es).delivered.Sublist
        ((es ++ [e]).filter Emission.sent) :=
      ih.trans ((List.sublist_append_left es [e]).filter _)
    rw [after_concat, OpsBotClient.emit]
    split_ifs with hrecent hsent
    · exact hold
    · exact hold
    · have hsent' : e.sent = true := by simpa using hsent
      rw [List.filter_append, List.filter_singleton, hsent']
      exact ih.append (List.Sublist.refl _)

/-- The alerts are a window apart where they are alike, or have the same text. -/
def Told (dedupWindowMs : ℕ) (R : Rendering) (e e' : Emission) : Prop :=
  Apart dedupWindowMs e e' ∨ e.key R = e'.key R

/-- Where alike alerts that can be sent within a window have the same text, what is delivered is
apart: the second of two such alerts is dropped. -/
theorem apart_of_told (h : (es.filter Emission.sent).Pairwise (Told dedupWindowMs R)) :
    (OpsBotClient.after dedupWindowMs R es).delivered.Pairwise (Apart dedupWindowMs) := by
  induction es using List.reverseRecOn with
  | nil => exact List.Pairwise.nil
  | append_singleton es e ih =>
    rw [List.filter_append, List.pairwise_append] at h
    obtain ⟨hes, -, hlast⟩ := h
    rw [after_concat, OpsBotClient.emit]
    split_ifs with hrecent hsent
    · exact ih hes
    · exact ih hes
    · have hsent' : e.sent = true := by simpa using hsent
      refine List.pairwise_append.2 ⟨ih hes, List.pairwise_singleton _ _, fun d hd e' he' ↦ ?_⟩
      rw [List.mem_singleton.1 he']
      rcases hlast d (delivered_sublist.mem hd) e (by simp [hsent']) with hapart | hkey
      · exact hapart
      · -- with the same text it is recent, unless it is a window later
        intro _
        by_contra hclose
        refine hrecent ((isRecent_iff remembers_after).2 ⟨d, hd, hkey, ?_⟩)
        exact (le_abs_self _).trans_lt (not_le.1 hclose)

/-! ### References that are made anew -/

theorem lawful_stringify : stringify.Lawful :=
  ⟨Signatures.lawful_stringify.number, Signatures.lawful_stringify.starts,
    Signatures.lawful_stringify.body⟩

/-- The members stand in the order they are written in. -/
theorem normalize_stringify (v : Value) : stringify.normalize v = v := by
  have hid : ∀ {members : List (Text × Value)}, (∀ p ∈ members, stringify.normalize p.2 = p.2) →
      (members.map fun p ↦ (p.1, stringify.normalize p.2)) = members := by
    intro members h
    conv_rhs => rw [← List.map_id members]
    refine List.map_congr_left fun p hp ↦ ?_
    rw [h p hp]
    rfl
  induction v using Value.induction with
  | null => rfl
  | bool b => rfl
  | num n => rfl
  | str t => rfl
  | arr elems ih =>
    rw [Writer.normalize_arr, List.map_congr_left ih, List.map_id']
  | obj members ih =>
    have hsorted : members.insertionSort stringify.KeyLE = members :=
      List.Pairwise.insertionSort_eq (List.pairwise_of_forall fun _ _ ↦ le_refl [])
    rw [Writer.normalize_obj, hsorted, hid ih]

/-- A text is that of one value. -/
theorem eq_of_text_eq {v v' : Value} (hv : v.Proper) (hv' : v'.Proper)
    (h : stringify.text v = stringify.text v') : v = v' := by
  have hparse := lawful_stringify.parse_text hv
  rw [h, lawful_stringify.parse_text hv', normalize_stringify, normalize_stringify] at hparse
  exact (Option.some.inj hparse).symm

/-- A value with five members that are strings. -/
theorem proper_strings {members : List (Text × Value)} (hkeys : (members.map Prod.fst).Nodup)
    (hstr : ∀ p ∈ members, ∃ t, p.2 = .str t) : (Value.obj members).Proper := by
  refine .obj hkeys fun p hp ↦ ?_
  obtain ⟨t, ht⟩ := hstr p hp
  rw [ht]
  exact .str t

/-- What is left of an event. -/
theorem redact_event (alert : Alert) (auditRef : Text) : redact [] (alert.event R auditRef) =
    .obj [(ascii "category",
        .str ((textOf (if alert.blockedAction.isSome then "warning" else "info")).take 200)),
      (ascii "agent", .str ((textOf "model-connector-watcher").take 200)),
      (ascii "title", .str (alert.title.take 200)),
      (ascii "body", .str (((alert.bodySummary R auditRef).take 4000).take 4000)),
      (ascii "dedup_key", .str (alert.dedupKey.take 200))] := by
  have hopen : isSecretKey [] = false ∧ isSecretKey (ascii "category") = false ∧
      isSecretKey (ascii "agent") = false ∧ isSecretKey (ascii "title") = false ∧
      isSecretKey (ascii "body") = false ∧ isSecretKey (ascii "dedup_key") = false := by
    decide +kernel
  obtain ⟨hnone, hcategory, hagent, htitle, hbody, hkey⟩ := hopen
  have hlength : maxLength (ascii "category") = 200 ∧ maxLength (ascii "agent") = 200 ∧
      maxLength (ascii "title") = 200 ∧ maxLength (ascii "body") = 4000 ∧
      maxLength (ascii "dedup_key") = 200 := by
    decide +kernel
  obtain ⟨hcategory', hagent', htitle', hbody', hkey'⟩ := hlength
  unfold Alert.event stringMember
  simp only [redact, redactMembers, redactPair, hnone, hcategory, hagent, htitle, hbody, hkey,
    hcategory', hagent', htitle', hbody', hkey', Bool.false_eq_true, if_false]

theorem proper_redact_event (alert : Alert) (auditRef : Text) :
    (redact [] (alert.event R auditRef)).Proper := by
  rw [redact_event]
  refine proper_strings ?_ ?_
  · simp only [List.map_cons, List.map_nil]
    decide +kernel
  · simp

/-- Events with the same text have the same body, as far as it goes. -/
theorem body_eq_of_key_eq (h : e.key R = e'.key R) :
    (e.alert.bodySummary R e.auditRef).take 4000 =
      (e'.alert.bodySummary R e'.auditRef).take 4000 := by
  have heq := eq_of_text_eq (proper_redact_event e.alert e.auditRef)
    (proper_redact_event e'.alert e'.auditRef) h
  rw [redact_event, redact_event] at heq
  simp only [Value.obj.injEq, List.cons.injEq, Prod.mk.injEq, Value.str.injEq,
    List.take_take] at heq
  exact heq.2.2.2.1.2

/-- A text of 36 hexadecimal digits and hyphens. -/
def IsReference (t : Text) : Prop :=
  t.length = 36 ∧ ∀ u ∈ t, (0x30 ≤ u.val ∧ u.val ≤ 0x39) ∨ (0x61 ≤ u.val ∧ u.val ≤ 0x66) ∨
    u.val = 0x2D

/-- A code unit that stands for itself. -/
theorem quoteUnit_of_plain {u : CodeUnit} (hlow : 0x23 ≤ u.val) (hhigh : u.val < 0x7F)
    (hslash : u.val ≠ 0x5C) : quoteUnit u = [u] := by
  have hescape : shortEscape? u = none := by
    unfold shortEscape?
    split_ifs <;> first | rfl | omega
  unfold quoteUnit
  rw [hescape]
  have hplain : ¬ ((decide (u.val < 0x20) || isLead u || isTrail u) = true) := by
    simp only [isLead, isTrail, Bool.or_eq_true, Bool.and_eq_true, decide_eq_true_eq]
    omega
  exact if_neg hplain

/-- A reference is written as it is. -/
theorem quoteBody_of_isReference {t : Text} (h : IsReference t) : quoteBody t = t := by
  have hunit : ∀ u ∈ t, quoteUnit u = [u] ∧ isLead u = false := by
    intro u hu
    have hu := h.2 u hu
    refine ⟨quoteUnit_of_plain (by omega) (by omega) (by omega), ?_⟩
    unfold isLead
    simp only [Bool.and_eq_false_iff, decide_eq_false_iff_not]
    omega
  clear h
  fun_induction quoteBody t with
  | case1 => rfl
  | case2 u => exact (hunit u (by simp)).1
  | case3 u v rest hpair ih =>
    rw [(hunit u (by simp)).2] at hpair
    cases hpair
  | case4 u v rest hpair ih =>
    rw [(hunit u (by simp)).1, ih fun w hw ↦ hunit w (List.mem_cons_of_mem u hw)]
    rfl

theorem exists_intercalate_concat (sep : Text) (ts : List Text) (t : Text) :
    ∃ start, sep.intercalate (ts ++ [t]) = start ++ t := by
  induction ts with
  | nil => exact ⟨[], by simp⟩
  | cons t' ts ih =>
    obtain ⟨start, hstart⟩ := ih
    obtain ⟨u, us, hus⟩ := List.exists_cons_of_ne_nil (l := ts ++ [t]) (by simp)
    refine ⟨t' ++ sep ++ start, ?_⟩
    rw [List.cons_append, hus, List.intercalate_cons_cons, ← hus, hstart]
    simp

/-- The text of an object ends with its last string. -/
theorem exists_text_concat (members : List (Text × Value)) (key t : Text) :
    ∃ start, stringify.text (.obj (members ++ [(key, .str t)])) =
      start ++ (quoteBody t ++ [0x22, 0x7D]) := by
  rw [stringify_obj, List.map_append, List.map_singleton]
  obtain ⟨start, hstart⟩ := exists_intercalate_concat [0x2C]
    (members.map fun p ↦ stringify.memberText (p.1, stringify.text p.2))
    (stringify.memberText (key, stringify.text (.str t)))
  refine ⟨0x7B :: start ++ (stringify.quote key ++ [0x3A, 0x22]), ?_⟩
  have hquote : stringify.quote t = 0x22 :: quoteBody t ++ [0x22] := rfl
  rw [hstart, Writer.memberText, Writer.text, hquote]
  simp

/-- The reference is the last thing in a body. -/
theorem exists_bodySummary (alert : Alert) (auditRef : Text) : ∃ start,
    alert.bodySummary R auditRef = start ++ (quoteBody auditRef ++ [0x22, 0x7D]) := by
  have hdetail : ∀ evidence, ∃ start, stringify.text (alert.bodyDetail evidence auditRef) =
      start ++ (quoteBody auditRef ++ [0x22, 0x7D]) := by
    intro evidence
    have hmembers : ∃ members, alert.bodyDetail evidence auditRef =
        .obj (members ++ [(ascii "audit_ref", .str auditRef)]) := by
      refine ⟨[stringMember "provider" alert.evidence.provider,
          stringMember "model" alert.evidence.model,
          stringMember "failure_class" alert.failureClass.name, (ascii "evidence", evidence),
          stringMember "attempted_action" alert.attemptedAction] ++
        (alert.blockedAction.map (stringMember "blocked_action")).toList ++
        [stringMember "outcome" alert.outcome,
          stringMember "recommended_operator_step" alert.recommendedStep], ?_⟩
      simp only [Alert.bodyDetail, List.append_assoc, List.cons_append, List.nil_append]
    obtain ⟨members, hmembers⟩ := hmembers
    rw [hmembers]
    exact exists_text_concat members _ auditRef
  unfold Alert.bodySummary
  split_ifs
  · exact hdetail _
  · exact hdetail _

/-- The reference was made anew in the right form, and the body is not cut off. -/
structure Emission.Fits (R : Rendering) (e : Emission) : Prop where
  reference : IsReference e.auditRef
  body : (e.alert.bodySummary R e.auditRef).length ≤ 4000

/-- Events with the same text have the same reference. -/
theorem auditRef_eq_of_key_eq (he : e.Fits R) (he' : e'.Fits R) (h : e.key R = e'.key R) :
    e.auditRef = e'.auditRef := by
  have hbody := body_eq_of_key_eq h
  rw [List.take_of_length_le he.body, List.take_of_length_le he'.body] at hbody
  obtain ⟨start, hstart⟩ := exists_bodySummary (R := R) e.alert e.auditRef
  obtain ⟨start', hstart'⟩ := exists_bodySummary (R := R) e'.alert e'.auditRef
  rw [hstart, hstart', quoteBody_of_isReference he.reference,
    quoteBody_of_isReference he'.reference] at hbody
  have hlength : e.auditRef.length = e'.auditRef.length :=
    he.reference.1.trans he'.reference.1.symm
  exact (List.append_inj' (List.append_inj' hbody (by simp [hlength])).2 rfl).1

/-- The body is shorter than what is kept of one. -/
def Emission.short (R : Rendering) (e : Emission) : Bool :=
  decide ((e.alert.bodySummary R e.auditRef).length < 4000)

theorem Emission.fits_of_short (href : IsReference e.auditRef) (h : e.short R = true) : e.Fits R :=
  ⟨href, (of_decide_eq_true h).le⟩

/-- An event with the text of a short one is short. -/
theorem short_of_key_eq (h : e.key R = e'.key R) (hshort : e'.short R = true) :
    e.short R = true := by
  have hlength := congrArg List.length (body_eq_of_key_eq h)
  rw [List.length_take, List.length_take] at hlength
  have hlt : (e'.alert.bodySummary R e'.auditRef).length < 4000 := of_decide_eq_true hshort
  exact decide_eq_true (by omega)

/-- Alerts with references of their own, all of which fit, are all delivered, whatever is emitted
besides that cannot have their text. -/
theorem delivered_filter {p : Emission → Bool} (hfits : ∀ e ∈ es, p e = true → e.Fits R)
    (hp : ∀ e ∈ es, ∀ d ∈ es, p e = true → d.key R = e.key R → p d = true)
    (hrefs : (es.map Emission.auditRef).Nodup) :
    (OpsBotClient.after dedupWindowMs R es).delivered.filter p =
      (es.filter Emission.sent).filter p := by
  induction es using List.reverseRecOn with
  | nil => rfl
  | append_singleton es e ih =>
    rw [List.map_append, List.nodup_append] at hrefs
    have hleft : ∀ d ∈ es, d ∈ es ++ [e] := fun d hd ↦ List.mem_append_left _ hd
    have hlast : e ∈ es ++ [e] := List.mem_append_right _ (List.mem_singleton_self e)
    have hdelivered := ih (fun d hd ↦ hfits d (hleft d hd))
      (fun d hd d' hd' ↦ hp d (hleft d hd) d' (hleft d' hd')) hrefs.1
    rw [after_concat, List.filter_append, List.filter_append, ← hdelivered, OpsBotClient.emit]
    cases hpe : p e with
    | false =>
      split_ifs
      · simp [List.filter_filter, hpe]
      · simp [List.filter_filter, hpe]
      · simp [List.filter_append, List.filter_filter, hpe]
    | true =>
      have hrecent : (OpsBotClient.after dedupWindowMs R es).isRecent dedupWindowMs R e =
          false := by
        rw [Bool.eq_false_iff]
        intro hrecent
        obtain ⟨d, hd, hkey, -⟩ := (isRecent_iff remembers_after).1 hrecent
        have hmem := List.mem_of_mem_filter (delivered_sublist.mem hd)
        have hpd := hp e hlast d (hleft d hmem) hpe hkey
        exact hrefs.2.2 d.auditRef (List.mem_map_of_mem hmem) e.auditRef (by simp)
          (auditRef_eq_of_key_eq (hfits d (hleft d hmem) hpd) (hfits e hlast hpe) hkey)
      rw [hrecent]
      cases hsent : e.sent with
      | false => simp [hsent]
      | true => simp [List.filter_append, hsent, hpe]

/-- **Alerts are deduplicated** when those that are alike, can be sent and are less than a window
apart have the same text. As the references are made anew, no text comes twice of a body that is not
cut off. So where alerts are deduplicated, the short ones are apart anyway, and where all fit, that
is the only way. -/
theorem alerts_deduplicated (href : ∀ e ∈ es, IsReference e.auditRef)
    (hrefs : (es.map Emission.auditRef).Nodup) :
    ((es.filter Emission.sent).Pairwise (Told dedupWindowMs R) →
        Deduplicates dedupWindowMs R es) ∧
      (Deduplicates dedupWindowMs R es →
        ((es.filter Emission.sent).filter (Emission.short R)).Pairwise (Apart dedupWindowMs)) ∧
      ((∀ e ∈ es, (e.alert.bodySummary R e.auditRef).length ≤ 4000) →
        (Deduplicates dedupWindowMs R es ↔
          (es.filter Emission.sent).Pairwise (Apart dedupWindowMs))) := by
  have huncounted : ∀ before e, before ++ [e] <+: es → e.sent = false →
      OpsBotClient.after dedupWindowMs R (before ++ [e]) = .after dedupWindowMs R before := by
    intro before e _ h
    rw [after_concat, emit_of_unsent h]
  refine ⟨fun h ↦ ⟨apart_of_told h, huncounted⟩, fun h ↦ ?_, fun hbody ↦ ?_⟩
  · rw [← @delivered_filter R dedupWindowMs es (Emission.short R)
      (fun e he hshort ↦ e.fits_of_short (href e he) hshort)
      (fun e _ d _ hshort hkey ↦ short_of_key_eq hkey hshort) hrefs]
    exact h.apart.filter _
  · have hall := @delivered_filter R dedupWindowMs es (fun _ ↦ true)
      (fun e he _ ↦ ⟨href e he, hbody e he⟩) (fun _ _ _ _ _ _ ↦ rfl) hrefs
    rw [List.filter_true, List.filter_true] at hall
    rw [← hall]
    exact ⟨fun h ↦ h.apart, fun h ↦ ⟨h, huncounted⟩⟩

/-! ### A circuit that stays open -/

/-- Evidence written by what it is about and when, and a date by its milliseconds. -/
def plainRendering : Rendering where
  evidence evidence := .obj [stringMember "provider" evidence.provider,
    stringMember "model" evidence.model,
    (ascii "observedAt", .str (indexKey evidence.observedAt.toNat))]
  date t := indexKey t.toNat

/-- The reference of an alert with a last digit, the clock, and a delivery that goes well. -/
def sendingAt (digit : String) (now : ℤ) : Sending where
  auditRef := ascii ("3f1c0f0e-6f0a-4d5e-9b1a-00000000000" ++ digit)
  now := now
  sent := true

theorem isReference_sendingAt (now : ℤ) {digit : String} (h : digit ∈ ["1", "2", "3"]) :
    IsReference (sendingAt digit now).auditRef := by
  have hall : ∀ digit ∈ ["1", "2", "3"],
      (ascii ("3f1c0f0e-6f0a-4d5e-9b1a-00000000000" ++ digit)).length = 36 ∧
      ((ascii ("3f1c0f0e-6f0a-4d5e-9b1a-00000000000" ++ digit)).all fun u ↦
        (0x30 ≤ u.val && u.val ≤ 0x39) || (0x61 ≤ u.val && u.val ≤ 0x66) ||
          decide (u.val = 0x2D)) = true := by
    decide +kernel
  obtain ⟨hlength, hunits⟩ := hall digit h
  refine ⟨hlength, fun u hu ↦ ?_⟩
  simpa [or_assoc] using List.all_eq_true.1 hunits u hu

/-- A circuit is observed open three times within three minutes, and each time the window of fifteen
minutes does not keep the alert from being delivered. The last two are alike. -/
theorem open_circuit_alerted : ∃ h s, Run (watcherStep shadowConfig) .init h s ∧
    (OpsBotClient.after 900000 plainRendering (emissionsOf shadowConfig h [sendingAt "1" 0,
      sendingAt "2" 120000, sendingAt "3" 180000])).delivered.length = 3 ∧
    ¬ Deduplicates 900000 plainRendering (emissionsOf shadowConfig h [sendingAt "1" 0,
      sendingAt "2" 120000, sendingAt "3" 180000]) := by
  obtain ⟨h, s, hr, hcheck⟩ := Run.exists_of_check (watcherStep shadowConfig) .init
    [countsCycle 0 9 0 1, countsCycle 120000 10 0 2, countsCycle 180000 11 0 3]
    (fun h _ ↦ decide ((OpsBotClient.after 900000 plainRendering (emissionsOf shadowConfig h
        [sendingAt "1" 0, sendingAt "2" 120000, sendingAt "3" 180000])).delivered.length = 3 ∧
      ¬ (OpsBotClient.after 900000 plainRendering (emissionsOf shadowConfig h [sendingAt "1" 0,
        sendingAt "2" 120000, sendingAt "3" 180000])).delivered.Pairwise (Apart 900000)))
    (by decide +kernel)
  obtain ⟨hlength, happart⟩ := of_decide_eq_true hcheck
  exact ⟨h, s, hr, hlength, fun hdedup ↦ happart hdedup.apart⟩

/-- The reference of an emission is one that was made for it. -/
theorem auditRef_of_mem_emissionsOf {config : WatcherConfig} {h : List (WatcherState × Cycle)}
    {sendings : List Sending} (he : e ∈ emissionsOf config h sendings) :
    ∃ sending ∈ sendings, e.auditRef = sending.auditRef := by
  rw [emissionsOf, ← List.map_uncurry_zip_eq_zipWith] at he
  obtain ⟨p, hp, rfl⟩ := List.mem_map.1 he
  exact ⟨p.2, (List.of_mem_zip hp).2, rfl⟩

/-- The last observation comes a window after the one like it, and what is delivered is apart. -/
theorem alerts_deduplicated_slow : ∃ h s, Run (watcherStep shadowConfig) .init h s ∧
    (OpsBotClient.after 900000 plainRendering (emissionsOf shadowConfig h [sendingAt "1" 0,
      sendingAt "2" 120000, sendingAt "3" 1020000])).delivered.length = 3 ∧
    Deduplicates 900000 plainRendering (emissionsOf shadowConfig h [sendingAt "1" 0,
      sendingAt "2" 120000, sendingAt "3" 1020000]) := by
  obtain ⟨h, s, hr, hcheck⟩ := Run.exists_of_check (watcherStep shadowConfig) .init
    [countsCycle 0 9 0 1, countsCycle 120000 10 0 2, countsCycle 1020000 11 0 3]
    (fun h _ ↦ decide ((OpsBotClient.after 900000 plainRendering (emissionsOf shadowConfig h
        [sendingAt "1" 0, sendingAt "2" 120000, sendingAt "3" 1020000])).delivered.length = 3 ∧
      ((emissionsOf shadowConfig h [sendingAt "1" 0, sendingAt "2" 120000,
          sendingAt "3" 1020000]).map Emission.auditRef).Nodup ∧
      ((emissionsOf shadowConfig h [sendingAt "1" 0, sendingAt "2" 120000,
          sendingAt "3" 1020000]).filter Emission.sent).Pairwise (Apart 900000) ∧
      ∀ e ∈ emissionsOf shadowConfig h [sendingAt "1" 0, sendingAt "2" 120000,
          sendingAt "3" 1020000], (e.alert.bodySummary plainRendering e.auditRef).drop 4000 = []))
    (by decide +kernel)
  obtain ⟨hlength, hrefs, hapart, hbody⟩ := of_decide_eq_true hcheck
  have href : ∀ e ∈ emissionsOf shadowConfig h [sendingAt "1" 0, sendingAt "2" 120000,
      sendingAt "3" 1020000], IsReference e.auditRef := by
    intro e he
    obtain ⟨sending, hsending, heq⟩ := auditRef_of_mem_emissionsOf he
    rw [heq]
    simp only [List.mem_cons, List.not_mem_nil, or_false] at hsending
    rcases hsending with rfl | rfl | rfl <;> exact isReference_sendingAt _ (by simp)
  exact ⟨h, s, hr, hlength, ((alerts_deduplicated href hrefs).2.2
    fun e he ↦ List.drop_eq_nil_iff.1 (hbody e he)).2 hapart⟩

end ModelConnector.Watcher
