import Mathlib.Tactic.NormNum
import ModelConnector.CanonicalTexts

/-!
# The incumbent's encoder

On integers a double holds exactly and on ASCII keys, the incumbent writes what `monetaryCanonical`
writes with the delete character escaped (`pythonDumps_eq_flatMap`): the regular expression of
`monetaryCanonical` leaves that character alone, as it is ASCII. So the two texts are equal when no
string and no key holds it, and for no other value (`monetaryCanonical_eq_pythonDumps_iff`).
-/

namespace ModelConnector.Signatures

open Ecma

/-! ### Integers -/

/-- A safe integer. -/
def IsSafeInteger (n : Ecma.Number) : Prop :=
  ∃ m, integer? n = some m ∧ m.natAbs < 2 ^ 53

/-- Digits that start with no zero are those of the number they stand for. -/
theorem digitsOf_natOf {ds : List Digit} (hne : ds ≠ []) (hhead : ds.head? ≠ some 0) :
    Nat.digits 10 (natOf ds) = (ds.map Fin.val).reverse ∧ digitsOf (natOf ds) = ds := by
  set l := (ds.map Fin.val).reverse with hl
  have hlt : ∀ d ∈ l, d < 10 := by
    intro d hd
    obtain ⟨d, -, rfl⟩ := List.mem_map.1 (List.mem_reverse.1 hd)
    exact d.isLt
  have hback : (l.map (Fin.ofNat 10)).reverse = ds := by
    rw [hl, List.map_reverse, List.reverse_reverse, List.map_map]
    exact (List.map_congr_left fun d _ ↦ Fin.ofNat_val_eq_self d).trans (List.map_id ds)
  have hlast : ∀ h : l ≠ [], l.getLast h ≠ 0 := by
    intro h hzero
    cases ds with
    | nil => exact hne rfl
    | cons d rest =>
      simp only [hl, List.getLast_reverse, List.head_map, List.head_cons] at hzero
      exact hhead (congrArg some (Fin.ext hzero))
  have hdigits : Nat.digits 10 (natOf ds) = l := by
    rw [← congrArg natOf hback, natOf_reverse l hlt, Nat.digits_ofDigits 10 (by decide) l hlt hlast]
  refine ⟨hdigits, ?_⟩
  have hnil : l ≠ [] := by simpa [hl] using hne
  have hzero : natOf ds ≠ 0 := by
    intro hzero
    rw [hzero, Nat.digits_zero] at hdigits
    exact hnil hdigits.symm
  rw [digitsOf, if_neg hzero, hdigits, hback]

/-- A safe integer is laid out as its digits. -/
theorem text_of_isSafeInteger {n : Ecma.Number} (h : IsSafeInteger n) :
    n.text = integerText ((integer? n).getD 0) := by
  obtain ⟨m, hm, hbound⟩ := h
  cases n with
  | zero => rfl
  | nonzero negative digits point =>
    rw [hm, Option.getD_some]
    simp only [integer?] at hm
    have hlength : (digits.digits.length : ℤ) ≤ point := by
      by_contra hlength
      rw [if_neg hlength] at hm
      cases hm
    rw [if_pos hlength] at hm
    set ds := digits.digits ++ List.replicate (point.toNat - digits.digits.length) 0 with hds
    have hlen : ds.length = point.toNat := by
      rw [hds, List.length_append, List.length_replicate]
      omega
    have hne : ds ≠ [] := by simp [hds, digits.ne_nil]
    have hhead : ds.head? ≠ some 0 := by
      rw [hds, List.head?_append_of_ne_nil _ digits.ne_nil]
      exact digits.head_ne
    obtain ⟨hdigits, hback⟩ := digitsOf_natOf hne hhead
    have habs : m.natAbs = natOf ds := by
      rw [← Option.some.inj hm]
      split_ifs <;> simp
    have hzero : natOf ds ≠ 0 := by
      intro hzero
      rw [hzero, Nat.digits_zero] at hdigits
      exact hne (by simpa using hdigits.symm)
    -- A safe integer has no more digits than are written without an exponent.
    have hpoint : point ≤ 21 := by
      have hshort : (Nat.digits 10 (natOf ds)).length ≤ 21 := by
        rw [Nat.digits_length_le_iff (by decide)]
        exact (habs ▸ hbound).trans (by norm_num)
      rw [hdigits, List.length_reverse, List.length_map, hlen] at hshort
      omega
    have hsign : m < 0 ↔ negative = true := by
      rw [← Option.some.inj hm]
      cases negative
      · simp
      · simp
        omega
    have hlayout : layout digits.digits point = ⟨ds, [], none⟩ := if_pos ⟨hlength, hpoint⟩
    rw [Number.text, hlayout, integerText, habs, hback]
    simp only [hsign, Layout.text, fractionText, exponentText, if_true, List.append_nil]

/-! ### Strings -/

/-- The delete character escaped. -/
def escapeDelete (u : CodeUnit) : Text :=
  if u.val = 0x7F then unicodeEscape u else [u]

theorem escapeDelete_of_ne {u : CodeUnit} (h : u.val ≠ 0x7F) : escapeDelete u = [u] :=
  if_neg h

theorem flatMap_escapeDelete {t : Text} (h : ∀ u ∈ t, u.val < 0x7F) :
    t.flatMap escapeDelete = t := by
  induction t with
  | nil => rfl
  | cons u rest ih =>
    rw [List.flatMap_cons, escapeDelete_of_ne (h u List.mem_cons_self).ne,
      ih fun u hu ↦ h u (List.mem_cons_of_mem _ hu)]
    rfl

/-- What stands for a code unit in `monetaryCanonical`, with the delete character escaped. -/
def escapedUnit (u : CodeUnit) : Text :=
  ((quoteUnit u).flatMap asciiUnit).flatMap escapeDelete

theorem escapedUnicode (u : CodeUnit) :
    ((unicodeEscape u).flatMap asciiUnit).flatMap escapeDelete = unicodeEscape u := by
  rw [flatMap_asciiUnit fun c hc ↦ (unicodeEscape_lt u c hc).trans (by decide),
    flatMap_escapeDelete (unicodeEscape_lt u)]

/-- What is not ASCII is escaped as it is. -/
theorem escaped_of_ge {u : CodeUnit} (h : 0x80 ≤ u.val) :
    (asciiUnit u).flatMap escapeDelete = unicodeEscape u := by
  rw [asciiUnit, if_neg (not_lt.2 h), flatMap_escapeDelete (unicodeEscape_lt u)]

/-- The Python encoder on a code point of one code unit. -/
theorem pythonEscape_val (u : CodeUnit) : pythonEscape u.val = escapedUnit u := by
  have hu : Fin.ofNat 0x10000 u.val = u := Fin.ofNat_val_eq_self u
  rw [pythonEscape, if_pos u.isLt, escapedUnit, quoteUnit, hu]
  cases h : shortEscape? u with
  | some escape =>
    simp only []
    rw [flatMap_asciiUnit fun c hc ↦ (shortEscape_lt h c hc).trans (by decide),
      flatMap_escapeDelete (shortEscape_lt h)]
  | none =>
    simp only [isLead, isTrail, Bool.or_eq_true, Bool.and_eq_true, decide_eq_true_eq]
    split_ifs with hprintable hescape hescape
    · omega
    · rw [List.flatMap_singleton, asciiUnit_of_lt (by omega), List.flatMap_singleton,
        escapeDelete_of_ne (by omega)]
    · exact (escapedUnicode u).symm
    · rw [List.flatMap_singleton]
      by_cases hdelete : u.val = 0x7F
      · rw [asciiUnit_of_lt (by omega), List.flatMap_singleton, escapeDelete, if_pos hdelete]
      · exact (escaped_of_ge (by omega)).symm

/-- The Python encoder on the code point of a pair. -/
theorem pythonEscape_pair {u v : CodeUnit} (hu : isLead u = true) (hv : isTrail v = true) :
    pythonEscape (0x10000 + 0x400 * (u.val - 0xD800) + (v.val - 0xDC00)) =
      unicodeEscape u ++ unicodeEscape v := by
  simp only [isLead, isTrail, Bool.and_eq_true, decide_eq_true_eq] at hu hv
  have hlead : Fin.ofNat 0x10000 (0xD800 + (0x10000 + 0x400 * (u.val - 0xD800) +
      (v.val - 0xDC00) - 0x10000) / 0x400) = u := by
    refine Fin.ext ?_
    rw [Fin.val_ofNat]
    omega
  have htrail : Fin.ofNat 0x10000 (0xDC00 + (0x10000 + 0x400 * (u.val - 0xD800) +
      (v.val - 0xDC00) - 0x10000) % 0x400) = v := by
    refine Fin.ext ?_
    rw [Fin.val_ofNat]
    omega
  rw [pythonEscape, if_neg (by omega), hlead, htrail]

/-- The Python encoder on a string. -/
theorem flatMap_pythonEscape (s : Text) : (codePoints s).flatMap pythonEscape =
    ((quoteBody s).flatMap asciiUnit).flatMap escapeDelete := by
  fun_induction quoteBody s with
  | case1 => rfl
  | case2 u =>
    rw [codePoints, List.flatMap_singleton, pythonEscape_val, escapedUnit]
  | case3 u v rest hpair ih =>
    have hpair' := hpair
    simp only [isLead, isTrail, Bool.and_eq_true, decide_eq_true_eq] at hpair'
    rw [Bool.and_eq_true] at hpair
    rw [codePoints, if_pos (Bool.and_eq_true _ _ ▸ hpair), List.flatMap_cons, ih,
      pythonEscape_pair hpair.1 hpair.2]
    simp only [List.flatMap_cons, List.flatMap_append, escaped_of_ge (u := u) (by omega),
      escaped_of_ge (u := v) (by omega), List.append_assoc]
  | case4 u v rest hpair ih =>
    rw [codePoints, if_neg hpair, List.flatMap_cons, ih, pythonEscape_val, escapedUnit,
      List.flatMap_append, List.flatMap_append]

/-! ### Values -/

/-- A string of ASCII characters. -/
def IsAscii (s : Text) : Prop :=
  ∀ u ∈ s, u.val < 0x80

instance (s : Text) : Decidable (IsAscii s) :=
  List.decidableBAll (fun u : CodeUnit ↦ u.val < 0x80) s

/-- Code points of ASCII text are its code units, so both encoders sort such keys alike. -/
theorem codePoints_of_isAscii {s : Text} (h : IsAscii s) : codePoints s = s.map Fin.val := by
  fun_induction codePoints s with
  | case1 => rfl
  | case2 u => rfl
  | case3 u v rest hpair =>
    have hu := h u List.mem_cons_self
    simp only [isLead, Bool.and_eq_true, decide_eq_true_eq] at hpair
    omega
  | case4 u v rest hpair ih =>
    rw [ih fun c hc ↦ h c (List.mem_cons_of_mem _ hc)]
    rfl

/-- **The incumbent escapes the delete character, and nothing else differs.** -/
theorem pythonDumps_eq_flatMap {v : Value}
    (hv : v.Forall IsSafeInteger IsAscii fun _ ↦ True) :
    pythonDumps v = (monetaryCanonical v).flatMap escapeDelete := by
  have hfix : ∀ u, Writer.IsNotation u → escapeDelete u = [u] := fun u hu ↦
    escapeDelete_of_ne (isNotation_lt hu).ne
  have hnumber : ∀ n, IsSafeInteger n →
      (asciiStringify.number n).flatMap escapeDelete = dumps.number n := fun n hn ↦
    (flatMap_escapeDelete (numberText_lt n)).trans (text_of_isSafeInteger hn)
  have hkey : ∀ k k', IsAscii k → IsAscii k' →
      (asciiStringify.sortKey k ≤ asciiStringify.sortKey k' ↔
        dumps.sortKey k ≤ dumps.sortKey k') := fun k k' hk hk' ↦ by
    simp only [asciiStringify, dumps, codePoints_of_isAscii hk, codePoints_of_isAscii hk']
  rw [monetaryCanonical_eq_text]
  exact (Writer.flatMap_text hfix hnumber (fun s ↦ (flatMap_pythonEscape s).symm) hkey hv).symm

theorem not_mem_escapeDelete (u : CodeUnit) : (0x7F : CodeUnit) ∉ escapeDelete u := by
  intro hmem
  unfold escapeDelete at hmem
  split_ifs at hmem with hu
  · exact absurd (unicodeEscape_lt u _ hmem) (by decide)
  · exact hu (congrArg Fin.val (List.mem_singleton.1 hmem)).symm

/-- Escaping changes exactly the texts that hold the delete character. -/
theorem flatMap_escapeDelete_eq_iff (t : Text) :
    t.flatMap escapeDelete = t ↔ (0x7F : CodeUnit) ∉ t := by
  constructor
  · intro heq hmem
    rw [← heq] at hmem
    obtain ⟨u, -, hu⟩ := List.mem_flatMap.1 hmem
    exact not_mem_escapeDelete u hu
  · intro hfree
    induction t with
    | nil => rfl
    | cons u rest ih =>
      have hu : u.val ≠ 0x7F := fun hu ↦
        hfree (List.mem_cons.2 (.inl (Fin.ext hu : u = 0x7F).symm))
      rw [List.flatMap_cons, escapeDelete_of_ne hu, ih fun h ↦ hfree (List.mem_cons_of_mem _ h)]
      rfl

theorem delete_mem_asciiUnit {u : CodeUnit} : (0x7F : CodeUnit) ∈ asciiUnit u ↔ u = 0x7F := by
  constructor
  · intro hmem
    unfold asciiUnit at hmem
    split_ifs at hmem
    · exact (List.mem_singleton.1 hmem).symm
    · exact absurd (unicodeEscape_lt u _ hmem) (by decide)
  · rintro rfl
    decide

theorem delete_mem_quoteUnit {u : CodeUnit} : (0x7F : CodeUnit) ∈ quoteUnit u ↔ u = 0x7F := by
  constructor
  · intro hmem
    unfold quoteUnit at hmem
    cases h : shortEscape? u with
    | some escape =>
      rw [h] at hmem
      exact absurd (shortEscape_lt h _ hmem) (by decide)
    | none =>
      rw [h] at hmem
      simp only [] at hmem
      split_ifs at hmem
      · exact absurd (unicodeEscape_lt u _ hmem) (by decide)
      · exact (List.mem_singleton.1 hmem).symm
  · rintro rfl
    decide

theorem delete_mem_quoteBody (s : Text) :
    (0x7F : CodeUnit) ∈ quoteBody s ↔ (0x7F : CodeUnit) ∈ s := by
  fun_induction quoteBody s with
  | case1 => exact Iff.rfl
  | case2 u => rw [delete_mem_quoteUnit, List.mem_singleton, eq_comm]
  | case3 u v rest hpair ih => rw [List.mem_cons, List.mem_cons, List.mem_cons, List.mem_cons, ih]
  | case4 u v rest hpair ih =>
    rw [List.mem_append, delete_mem_quoteUnit, ih, eq_comm, ← List.mem_cons]

/-- The delete character is in what is written of a string when it is in the string. -/
theorem delete_mem_asciiBody (s : Text) :
    (0x7F : CodeUnit) ∈ asciiStringify.body s ↔ (0x7F : CodeUnit) ∈ s := by
  simp only [asciiStringify, List.mem_flatMap, delete_mem_asciiUnit, exists_eq_right,
    delete_mem_quoteBody]

/-- **When the two encoders agree.** For integers that a double holds exactly and ASCII keys, the
texts are equal exactly when no string and no key holds the delete character. -/
theorem monetaryCanonical_eq_pythonDumps_iff {v : Value}
    (hv : v.Forall IsSafeInteger IsAscii fun _ ↦ True) :
    monetaryCanonical v = pythonDumps v ↔
      v.Forall (fun _ ↦ True) (fun key ↦ (0x7F : CodeUnit) ∉ key) fun s ↦
        (0x7F : CodeUnit) ∉ s := by
  have hnumber : ∀ n, (0x7F : CodeUnit) ∉ asciiStringify.number n := fun n hmem ↦
    absurd (numberText_lt n _ hmem) (by decide)
  have hnotation : ¬Writer.IsNotation 0x7F := fun h ↦ absurd (isNotation_lt h) (by decide)
  rw [pythonDumps_eq_flatMap hv, eq_comm, flatMap_escapeDelete_eq_iff, monetaryCanonical_eq_text,
    Writer.not_mem_text_iff hnotation hnumber]
  simp only [delete_mem_asciiBody]

/-- A nested object with an escaped control character, a pair and a lone surrogate. -/
def nestedNote : Value :=
  .obj [(ascii "note", .str [0x01, 0xD83D, 0xDE00, 0xDC00]),
    (ascii "amount", .arr [.num (.nonzero true ⟨[1, 2], by decide, by decide, by decide⟩ 3)])]

theorem monetaryCanonical_nestedNote : monetaryCanonical nestedNote = pythonDumps nestedNote := by
  have hamount : IsSafeInteger (.nonzero true ⟨[1, 2], by decide, by decide, by decide⟩ 3) :=
    ⟨-120, by decide, by decide⟩
  have hv : nestedNote.Forall IsSafeInteger IsAscii fun _ ↦ True := by
    refine .obj (by decide) fun p hp ↦ ?_
    rcases List.mem_cons.1 hp with rfl | hp
    · exact .str trivial
    · rw [List.mem_singleton.1 hp]
      exact .arr fun v hv ↦ by rw [List.mem_singleton.1 hv]; exact .num hamount
  refine (monetaryCanonical_eq_pythonDumps_iff hv).2 ?_
  refine .obj (by decide) fun p hp ↦ ?_
  rcases List.mem_cons.1 hp with rfl | hp
  · exact .str (by decide)
  · rw [List.mem_singleton.1 hp]
    exact .arr fun v hv ↦ by rw [List.mem_singleton.1 hv]; exact .num trivial

/-- The delete character on its own: the incumbent escapes it, and the comparison with
`monetaryCanonical` fails. -/
theorem delete_differs :
    (Value.str [0x7F]).Forall IsSafeInteger IsAscii (fun _ ↦ True) ∧
      monetaryCanonical (.str [0x7F]) = [0x22, 0x7F, 0x22] ∧
      pythonDumps (.str [0x7F]) = ascii "\"\\u007f\"" ∧
      monetaryCanonical (.str [0x7F]) ≠ pythonDumps (.str [0x7F]) :=
  ⟨.str trivial, by decide, by decide, by decide⟩

end ModelConnector.Signatures
