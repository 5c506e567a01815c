import ModelConnector.Bench.Canonical
import ModelConnector.Foundations.EcmaOrder

/-!
# What canonical texts bind

`monetaryCanonical` rewrites what `canonical` wrote, and is itself the text of a writer, one that
escapes what is not ASCII (`monetaryCanonical_eq_text`). Both writers are lawful, so both texts are
read as the value with sorted members and tell values apart (`canonical_binds`).

The incumbent escapes one ASCII character more, the delete character, and that is the only
difference on integers and ASCII keys (`monetaryCanonical_eq_pythonDumps_iff`).
-/

namespace ModelConnector.Signatures

open Ecma

/-! ### The ASCII writer -/

/-- `canonical` with what is not ASCII escaped. -/
def asciiStringify : Writer where
  number := Number.text
  body s := (quoteBody s).flatMap asciiUnit
  sortKey s := s.map Fin.val

theorem asciiUnit_of_lt {u : CodeUnit} (h : u.val < 0x80) : asciiUnit u = [u] :=
  if_pos h

/-- ASCII text is left as it is. -/
theorem flatMap_asciiUnit {t : Text} (h : ∀ u ∈ t, u.val < 0x80) : t.flatMap asciiUnit = t := by
  induction t with
  | nil => rfl
  | cons u rest ih =>
    rw [List.flatMap_cons, asciiUnit_of_lt (h u List.mem_cons_self),
      ih fun u hu ↦ h u (List.mem_cons_of_mem _ hu)]
    rfl

theorem hexDigit_lt : ∀ n < 0x10, (hexDigit n).val < 0x7F := by
  decide

/-- Escapes are ASCII, and do not hold the delete character. -/
theorem unicodeEscape_lt (u : CodeUnit) : ∀ c ∈ unicodeEscape u, c.val < 0x7F := by
  have hu := u.isLt
  intro c hc
  simp only [unicodeEscape, List.mem_cons, List.not_mem_nil, or_false] at hc
  rcases hc with rfl | rfl | rfl | rfl | rfl | rfl
  · decide
  · decide
  all_goals exact hexDigit_lt _ (by omega)

theorem shortEscape_lt {u : CodeUnit} {escape : Text} (h : shortEscape? u = some escape) :
    ∀ c ∈ escape, c.val < 0x7F := by
  unfold shortEscape? at h
  split_ifs at h
  all_goals
    cases h
    simp only [List.forall_mem_cons, List.not_mem_nil, false_imp_iff, forall_const, and_true]
    exact ⟨by decide, by decide⟩

theorem digitUnit_lt : ∀ d : Digit, (digitUnit d).val < 0x7F := by
  decide

theorem digitUnits_lt (ds : List Digit) : ∀ u ∈ ds.map digitUnit, u.val < 0x7F := by
  intro u hu
  obtain ⟨d, -, rfl⟩ := List.mem_map.1 hu
  exact digitUnit_lt d

/-- The text of a number is ASCII, and does not hold the delete character. -/
theorem numberText_lt (n : Ecma.Number) : ∀ u ∈ n.text, u.val < 0x7F := by
  cases n with
  | zero =>
    intro u hu
    rw [List.mem_singleton.1 hu]
    decide
  | nonzero negative digits point =>
    intro u hu
    simp only [Number.text, Layout.text, List.mem_append] at hu
    rcases hu with hu | (hu | hu) | hu
    · cases negative with
      | true =>
        rw [if_pos rfl, List.mem_singleton] at hu
        rw [hu]
        decide
      | false => cases hu
    · exact digitUnits_lt _ u hu
    · unfold fractionText at hu
      split_ifs at hu
      · cases hu
      · rcases List.mem_cons.1 hu with rfl | hu
        · decide
        · exact digitUnits_lt _ u hu
    · cases hexponent : (layout digits.digits point).exponent with
      | none =>
        rw [hexponent] at hu
        cases hu
      | some e =>
        rw [hexponent, exponentText, List.mem_cons, List.mem_cons] at hu
        rcases hu with rfl | rfl | hu
        · decide
        · split_ifs <;> decide
        · exact digitUnits_lt _ u hu

theorem isNotation_lt {u : CodeUnit} (h : Writer.IsNotation u) : u.val < 0x7F := by
  have hall : ∀ n ∈ (ascii "null" ++ ascii "true" ++ ascii "false" ++
      ascii "[],\x7b\x7d:\"").map Fin.val, n < 0x7F := by decide
  exact hall u (List.mem_map_of_mem h)

/-- **Rewriting the text is the same as writing ASCII.** -/
theorem monetaryCanonical_eq_text (v : Value) : monetaryCanonical v = asciiStringify.text v := by
  have hv : v.Forall (fun _ ↦ True) (fun _ ↦ True) fun _ ↦ True :=
    Value.forall_of_forall (fun _ ↦ trivial) (fun _ ↦ trivial) (fun _ ↦ trivial) v
  have hnumber : ∀ n, True → (stringify.number n).flatMap asciiUnit = asciiStringify.number n :=
    fun n _ ↦ flatMap_asciiUnit fun u hu ↦ (numberText_lt n u hu).trans (by decide)
  exact Writer.flatMap_text (fun u hu ↦ asciiUnit_of_lt ((isNotation_lt hu).trans (by decide)))
    hnumber (fun _ ↦ rfl) (fun _ _ _ _ ↦ Iff.rfl) hv

/-! ### Lawful writers -/

theorem starts_digitUnit : ∀ d : Digit, 0x30 ≤ (digitUnit d).val ∧ (digitUnit d).val ≤ 0x39 := by
  decide

/-- The text of a number starts with its sign or a digit. -/
theorem starts_numberText (n : Ecma.Number) : ∃ u rest, n.text = u :: rest ∧ StartsNumber u := by
  cases n with
  | zero => exact ⟨_, _, rfl, .inr (by decide)⟩
  | nonzero negative digits point =>
    cases negative with
    | true => exact ⟨_, _, rfl, .inl rfl⟩
    | false =>
      have hstart : ∃ d ds, (layout digits.digits point).integer = d :: ds := by
        rcases layout_integer digits point with h | ⟨h, -⟩
        · exact ⟨0, [], h⟩
        · exact List.exists_cons_of_ne_nil h
      obtain ⟨d, ds, hd⟩ := hstart
      rw [Number.text, Layout.text, hd]
      exact ⟨_, _, rfl, .inr (starts_digitUnit d)⟩

theorem lawful_stringify : stringify.Lawful where
  number n _ := readNumber_text n
  starts := starts_numberText
  body := spelled_quoteBody

theorem spells_asciiUnit {u : CodeUnit} (h : Spells [u] u) : Spells (asciiUnit u) u := by
  unfold asciiUnit
  split_ifs
  · exact h
  · exact spells_unicodeEscape u

/-- An escape is left as it is, and what is not escaped is escaped now. -/
theorem spells_asciiQuote (u : CodeUnit) : Spells ((quoteUnit u).flatMap asciiUnit) u := by
  have hquote := spells_quoteUnit u
  unfold quoteUnit at hquote ⊢
  cases h : shortEscape? u with
  | some escape =>
    rw [h] at hquote
    have hfix := flatMap_asciiUnit fun c hc ↦ (shortEscape_lt h c hc).trans (by decide)
    simpa only [hfix] using hquote
  | none =>
    rw [h] at hquote
    split_ifs at hquote ⊢ with hescape
    · have hfix := flatMap_asciiUnit fun c hc ↦ (unicodeEscape_lt u c hc).trans (by decide)
      simpa only [hfix] using hquote
    · simpa only [List.flatMap_cons, List.flatMap_nil, List.append_nil] using
        spells_asciiUnit hquote

/-- Escaping what is not ASCII spells the same string. -/
theorem spelled_asciiBody (s : Text) : Spelled ((quoteBody s).flatMap asciiUnit) s := by
  fun_induction quoteBody s with
  | case1 => exact .nil
  | case2 u => exact (spells_asciiQuote u).spelled
  | case3 u v rest hpair ih =>
    -- The halves of a pair are escaped one by one.
    simp only [isLead, isTrail, Bool.and_eq_true, decide_eq_true_eq] at hpair
    have hself : ∀ c : CodeUnit, 0xD800 ≤ c.val → Spells [c] c := fun c hc ↦
      spells_self (by omega) (by omega) (by omega)
    rw [List.flatMap_cons, List.flatMap_cons]
    exact .cons (spells_asciiUnit (hself u (by omega)))
      (.cons (spells_asciiUnit (hself v (by omega))) ih)
  | case4 u v rest hpair ih =>
    rw [List.flatMap_append]
    exact .cons (spells_asciiQuote u) ih

theorem lawful_asciiStringify : asciiStringify.Lawful where
  number n _ := readNumber_text n
  starts := starts_numberText
  body := spelled_asciiBody

/-! ### What is bound -/

theorem asciiUnit_lt (u : CodeUnit) : ∀ c ∈ asciiUnit u, c.val < 0x80 := by
  intro c hc
  unfold asciiUnit at hc
  split_ifs at hc with hu
  · rwa [List.mem_singleton.1 hc]
  · exact (unicodeEscape_lt u c hc).trans (by decide)

theorem sortKey_injective : Function.Injective fun s : Text ↦ s.map Fin.val :=
  List.map_injective_iff.2 Fin.val_injective

/-- **Canonical texts bind the value.** They are read as the value up to the order of members, they
are equal for values that are the same up to it and for no others, and the monetary one is ASCII. -/
theorem canonical_binds {v : Value} (hv : v.Proper) :
    (∃ u, parse (canonical v) = some u ∧ v.Same u) ∧
      (∃ u, parse (monetaryCanonical v) = some u ∧ v.Same u) ∧
      (∀ v' : Value, v'.Proper → (canonical v = canonical v' ↔ v.Same v') ∧
        (monetaryCanonical v = monetaryCanonical v' ↔ v.Same v')) ∧
      ∀ u ∈ monetaryCanonical v, u.val < 0x80 := by
  refine ⟨⟨_, lawful_stringify.parse_text hv, Writer.same_normalize hv⟩, ?_, fun v' hv' ↦ ?_, ?_⟩
  · rw [monetaryCanonical_eq_text]
    exact ⟨_, lawful_asciiStringify.parse_text hv, Writer.same_normalize hv⟩
  · rw [monetaryCanonical_eq_text, monetaryCanonical_eq_text]
    exact ⟨lawful_stringify.text_eq_iff_same sortKey_injective hv hv',
      lawful_asciiStringify.text_eq_iff_same sortKey_injective hv hv'⟩
  · intro u hu
    obtain ⟨c, -, hc⟩ := List.mem_flatMap.1 hu
    exact asciiUnit_lt c u hc

/-- A lone surrogate, and a member before another one in the order of keys. -/
def loneSurrogate : Value :=
  .obj [(ascii "b", .str [0xD800]), (ascii "a", .num .zero)]

theorem canonical_binds_loneSurrogate :
    loneSurrogate.Proper ∧ (∃ u, parse (monetaryCanonical loneSurrogate) = some u ∧
      loneSurrogate.Same u) ∧
        monetaryCanonical loneSurrogate = ascii "\x7b\"a\":0,\"b\":\"\\ud800\"\x7d" := by
  have hv : loneSurrogate.Proper := by
    refine .obj (by decide) fun p hp ↦ ?_
    rcases List.mem_cons.1 hp with rfl | hp
    · exact .str _
    · rw [List.mem_singleton.1 hp]
      exact .num _
  exact ⟨hv, (canonical_binds hv).2.1, by decide⟩

end ModelConnector.Signatures
