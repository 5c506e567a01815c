import Mathlib.Tactic.Linarith
import ModelConnector.Foundations.Json

/-!
# JSON values up to the order of members

Two values are the same up to the order of members when arrays agree element by element and
objects have the same keys, and the same value under each. For values that a text is read as, the
canonical text decides it (`Json.text_eq_iff_same`).
-/

namespace Json

/-! ### Values that a text is read as -/

/-- All numbers are finite, and no object has a key twice. -/
inductive Proper : Json → Prop
  | null : Proper .null
  | bool (b : Bool) : Proper (.bool b)
  | num (n : JsonNumber) : Proper (.num n)
  | str (s : String) : Proper (.str s)
  | arr {elems : List Json} : (∀ v ∈ elems, Proper v) → Proper (.arr elems)
  | obj {members : List (String × Json)} : (members.map Prod.fst).Nodup →
      (∀ p ∈ members, Proper p.2) → Proper (.obj members)

theorem Proper.finite {v : Json} (h : Proper v) : v.finite = true := by
  induction h with
  | arr _ ih => exact allFinite_iff.2 ih
  | obj _ _ ih => exact membersFinite_iff.2 ih
  | _ => rfl

theorem Proper.elems {elems : List Json} (h : Proper (.arr elems)) : ∀ v ∈ elems, Proper v := by
  cases h
  assumption

theorem Proper.keys {members : List (String × Json)} (h : Proper (.obj members)) :
    (members.map Prod.fst).Nodup := by
  cases h
  assumption

theorem Proper.members {members : List (String × Json)} (h : Proper (.obj members)) :
    ∀ p ∈ members, Proper p.2 := by
  cases h
  assumption

/-- The same up to the order of the members of objects, at every depth. -/
inductive Same : Json → Json → Prop
  | null : Same .null .null
  | bool (b : Bool) : Same (.bool b) (.bool b)
  | num (n : JsonNumber) : Same (.num n) (.num n)
  | nonFinite : Same .nonFinite .nonFinite
  | str (s : String) : Same (.str s) (.str s)
  | arr {elems elems' : List Json} : elems.length = elems'.length →
      (∀ (i : ℕ) (v w : Json), elems[i]? = some v → elems'[i]? = some w → Same v w) →
        Same (.arr elems) (.arr elems')
  | obj {members members' : List (String × Json)} :
      (∀ key, (members.lookup key).isSome = (members'.lookup key).isSome) →
      (∀ key v w, members.lookup key = some v → members'.lookup key = some w → Same v w) →
        Same (.obj members) (.obj members')

/-! ### The same value, the same text -/

/-- Values that are the same have the same text. -/
theorem Same.text_eq {v w : Json} (h : Same v w) (hv : Proper v) (hw : Proper w) :
    v.text = w.text := by
  induction h with
  | null | bool _ | num _ | nonFinite | str _ => rfl
  | @arr elems elems' hlength _ ih =>
    have htexts : elems.map text = elems'.map text := by
      refine List.ext_getElem? fun i ↦ ?_
      rw [List.getElem?_map, List.getElem?_map]
      cases hi : elems[i]? with
      | none =>
        have hout : elems'[i]? = none :=
          List.getElem?_eq_none (hlength ▸ List.getElem?_eq_none_iff.1 hi)
        rw [hout]
      | some v =>
        obtain ⟨hlt, -⟩ := List.getElem?_eq_some_iff.1 hi
        have hi' : elems'[i]? = some elems'[i] := List.getElem?_eq_getElem (hlength ▸ hlt)
        rw [hi', Option.map_some, Option.map_some, ih i v _ hi hi'
          (hv.elems v (List.mem_of_getElem? hi)) (hw.elems _ (List.mem_of_getElem? hi'))]
    rw [text, text, texts_eq_map, texts_eq_map, htexts]
  | @obj members members' hsome _ ih =>
    have hlookup : ∀ key, (members.map fun p ↦ (p.1, p.2.text)).lookup key =
        (members'.map fun p ↦ (p.1, p.2.text)).lookup key := fun key ↦ by
      have hkey := hsome key
      rw [Members.lookup_map_snd, Members.lookup_map_snd]
      cases hv' : members.lookup key with
      | none =>
        rw [hv'] at hkey
        have hnone : members'.lookup key = none := Option.not_isSome_iff_eq_none.1 fun hsome' ↦
          Bool.false_ne_true (hkey.trans hsome')
        rw [hnone]
      | some v =>
        rw [hv'] at hkey
        obtain ⟨w, hw'⟩ := Option.isSome_iff_exists.1 hkey.symm
        rw [hw', Option.map_some, Option.map_some, ih key v w hv' hw'
          (hv.members _ (Members.mem_of_lookup hv')) (hw.members _ (Members.mem_of_lookup hw'))]
    have hmap : ∀ members : List (String × Json),
        (members.map fun p ↦ (p.1, p.2.text)).map Prod.fst = members.map Prod.fst := fun members ↦ by
      rw [List.map_map]
      rfl
    rw [text, text, memberTexts_eq_map, memberTexts_eq_map,
      Members.insertionSort_eq_of_lookup (r := KeyLE) (fun _ _ ↦ Iff.rfl) keyRank_injective
        (hmap members ▸ hv.keys) (hmap members' ▸ hw.keys) hlookup]

/-! ### The same text, the same value -/

/-- Values with the same normal form are the same. -/
theorem same_of_normalize_eq {v w : Json} (hv : Proper v) (hw : Proper w)
    (h : v.normalize = w.normalize) : Same v w := by
  induction v using Json.induction generalizing w with
  | null | bool _ | num _ | nonFinite | str _ =>
    cases w <;> simp only [normalize, reduceCtorEq, Json.bool.injEq, Json.num.injEq,
      Json.str.injEq] at h
    all_goals first | (subst h; constructor) | constructor
  | arr elems ih =>
    cases w with
    | arr elems' =>
      rw [normalize, normalize, normalizeAll_eq_map, normalizeAll_eq_map, Json.arr.injEq] at h
      refine .arr (by simpa using congrArg List.length h) fun i v w hi hi' ↦ ?_
      have hi'' := congrArg (fun l ↦ l[i]?) h
      simp only [List.getElem?_map, hi, hi', Option.map_some, Option.some.injEq] at hi''
      have hmem := List.mem_of_getElem? hi
      exact ih v hmem (hv.elems v hmem) (hw.elems w (List.mem_of_getElem? hi')) hi''
    | _ => simp only [normalize, reduceCtorEq] at h
  | obj members ih =>
    cases w with
    | obj members' =>
      have hget := get?_eq_of_normalize_eq hv.keys hw.keys h
      simp only [get?, members?, Option.bind_some] at hget
      refine .obj (fun key ↦ ?_) fun key v w hv' hw' ↦ ?_
      · simpa using congrArg Option.isSome (hget key)
      · have hkey := hget key
        rw [hv', hw', Option.map_some, Option.map_some, Option.some.injEq] at hkey
        have hmem := Members.mem_of_lookup hv'
        exact ih _ hmem (hv.members _ hmem) (hw.members _ (Members.mem_of_lookup hw')) hkey
    | _ => simp only [normalize, reduceCtorEq] at h

/-- **The canonical text decides whether two values are the same.** -/
theorem text_eq_iff_same {v w : Json} (hv : Proper v) (hw : Proper w) :
    v.text = w.text ↔ Same v w :=
  ⟨fun h ↦ same_of_normalize_eq hv hw (normalize_eq_of_text_eq hv.finite hw.finite h),
    fun h ↦ h.text_eq hv hw⟩

end Json
