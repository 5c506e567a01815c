import ModelConnector.Foundations.EcmaJson
import ModelConnector.Foundations.Members

/-!
# Values up to the order of members

Two values are the same up to the order of members when arrays agree element by element, and objects
have the same keys and the same value under each. Sorting the members decides it
(`normalize_eq_iff_same`), and so does what a lawful writer writes (`text_eq_iff_same`).
-/

namespace Ecma

/-- The same up to the order of the members of objects, at every depth. -/
inductive Value.Same : Value → Value → Prop
  | null : Same .null .null
  | bool (b : Bool) : Same (.bool b) (.bool b)
  | num (n : Number) : Same (.num n) (.num n)
  | str (s : Text) : Same (.str s) (.str s)
  | arr {elems elems' : List Value} : elems.length = elems'.length →
      (∀ (i : ℕ) (v v' : Value), elems[i]? = some v → elems'[i]? = some v' → Same v v') →
        Same (.arr elems) (.arr elems')
  | obj {members members' : List (Text × Value)} :
      (∀ key, (members.lookup key).isSome = (members'.lookup key).isSome) →
      (∀ key v v', members.lookup key = some v → members'.lookup key = some v' → Same v v') →
        Same (.obj members) (.obj members')

theorem Value.Same.refl (v : Value) : v.Same v := by
  induction v using Value.induction with
  | null => exact .null
  | bool b => exact .bool b
  | num n => exact .num n
  | str s => exact .str s
  | arr elems ih =>
    refine .arr rfl fun i v v' hv hv' ↦ ?_
    obtain rfl := Option.some.inj (hv.symm.trans hv')
    exact ih v (List.mem_of_getElem? hv)
  | obj members ih =>
    refine .obj (fun _ ↦ rfl) fun key v v' hv hv' ↦ ?_
    obtain rfl := Option.some.inj (hv.symm.trans hv')
    exact ih _ (Members.mem_of_lookup hv)

/-- Members in another order. -/
theorem Value.Same.of_perm {members members' : List (Text × Value)} (h : members.Perm members')
    (hkeys : (members.map Prod.fst).Nodup) : (Value.obj members).Same (.obj members') := by
  refine .obj (fun key ↦ by rw [Members.lookup_eq_of_perm h hkeys]) fun key v v' hv hv' ↦ ?_
  rw [Members.lookup_eq_of_perm h hkeys] at hv
  obtain rfl := Option.some.inj (hv.symm.trans hv')
  exact .refl v

theorem Value.Same.symm {v v' : Value} (h : v.Same v') : v'.Same v := by
  induction h with
  | null => exact .null
  | bool b => exact .bool b
  | num n => exact .num n
  | str s => exact .str s
  | arr hlength _ ih => exact .arr hlength.symm fun i v v' hv hv' ↦ ih i v' v hv' hv
  | obj hsome _ ih =>
    exact .obj (fun key ↦ (hsome key).symm) fun key v v' hv hv' ↦ ih key v' v hv' hv

namespace Writer

variable {w : Writer} {v v' : Value}

theorem map_fst_normalize (members : List (Text × Value)) :
    (members.map fun p ↦ (p.1, w.normalize p.2)).map Prod.fst = members.map Prod.fst := by
  rw [List.map_map]
  rfl

/-- Values that are the same are sorted into one value. -/
theorem normalize_eq_of_same (hw : Function.Injective w.sortKey) (h : v.Same v') (hv : v.Proper)
    (hv' : v'.Proper) : w.normalize v = w.normalize v' := by
  induction h with
  | null | bool _ | num _ | str _ => rfl
  | @arr elems elems' hlength _ ih =>
    have hmap : elems.map w.normalize = elems'.map w.normalize := by
      refine List.ext_getElem? fun i ↦ ?_
      rw [List.getElem?_map, List.getElem?_map]
      cases hi : elems[i]? with
      | none =>
        have hout : elems'[i]? = none :=
          List.getElem?_eq_none (hlength ▸ List.getElem?_eq_none_iff.1 hi)
        rw [hout]
      | some v =>
        obtain ⟨hlt, -⟩ := List.getElem?_eq_some_iff.1 hi
        have hi' : elems'[i]? = some elems'[i] := List.getElem?_eq_getElem (hlength ▸ hlt)
        rw [hi', Option.map_some, Option.map_some, ih i v _ hi hi'
          (hv.elems v (List.mem_of_getElem? hi)) (hv'.elems _ (List.mem_of_getElem? hi'))]
    rw [normalize_arr, normalize_arr, hmap]
  | @obj members members' hsome _ ih =>
    have hlookup : ∀ key, (members.map fun p ↦ (p.1, w.normalize p.2)).lookup key =
        (members'.map fun p ↦ (p.1, w.normalize p.2)).lookup key := fun key ↦ by
      have hkey := hsome key
      rw [Members.lookup_map_snd, Members.lookup_map_snd]
      cases hv₁ : members.lookup key with
      | none =>
        rw [hv₁] at hkey
        have hnone : members'.lookup key = none := Option.not_isSome_iff_eq_none.1 fun hsome' ↦
          Bool.false_ne_true (hkey.trans hsome')
        rw [hnone]
      | some v =>
        rw [hv₁] at hkey
        obtain ⟨v', hv₂⟩ := Option.isSome_iff_exists.1 hkey.symm
        rw [hv₂, Option.map_some, Option.map_some, ih key v v' hv₁ hv₂
          (hv.members _ (Members.mem_of_lookup hv₁)) (hv'.members _ (Members.mem_of_lookup hv₂))]
    rw [normalize_obj, normalize_obj, ← map_insertionSort_members, ← map_insertionSort_members,
      Members.insertionSort_eq_of_lookup (r := w.KeyLE) (fun _ _ ↦ Iff.rfl) hw
        (map_fst_normalize (w := w) members ▸ hv.keys)
        (map_fst_normalize (w := w) members' ▸ hv'.keys) hlookup]

/-- A value under a key of an object with sorted members. -/
theorem lookup_sorted {members : List (Text × Value)} (hkeys : (members.map Prod.fst).Nodup)
    (key : Text) :
    ((members.insertionSort w.KeyLE).map fun p ↦ (p.1, w.normalize p.2)).lookup key =
      (members.lookup key).map w.normalize := by
  rw [Members.lookup_map_snd,
    Members.lookup_eq_of_perm (members.perm_insertionSort w.KeyLE).symm hkeys]

/-- Values that are sorted into one value are the same. -/
theorem same_of_normalize_eq (hv : v.Proper) (hv' : v'.Proper)
    (h : w.normalize v = w.normalize v') : v.Same v' := by
  induction v using Value.induction generalizing v' with
  | null | bool _ | num _ | str _ =>
    cases v' <;> simp only [normalize, reduceCtorEq, Value.bool.injEq, Value.num.injEq,
      Value.str.injEq] at h
    all_goals first | (subst h; constructor) | constructor
  | arr elems ih =>
    cases v' with
    | arr elems' =>
      rw [normalize_arr, normalize_arr, Value.arr.injEq] at h
      refine .arr (by simpa using congrArg List.length h) fun i v v' hi hi' ↦ ?_
      have hmap := congrArg (fun l ↦ l[i]?) h
      simp only [List.getElem?_map, hi, hi', Option.map_some, Option.some.injEq] at hmap
      have hmem := List.mem_of_getElem? hi
      exact ih v hmem (hv.elems v hmem) (hv'.elems v' (List.mem_of_getElem? hi')) hmap
    | _ => simp only [normalize, reduceCtorEq] at h
  | obj members ih =>
    cases v' with
    | obj members' =>
      rw [normalize_obj, normalize_obj, Value.obj.injEq] at h
      have hlookup : ∀ key, (members.lookup key).map w.normalize =
          (members'.lookup key).map w.normalize := fun key ↦ by
        rw [← lookup_sorted hv.keys, ← lookup_sorted hv'.keys, h]
      refine .obj (fun key ↦ ?_) fun key v v' hv₁ hv₂ ↦ ?_
      · simpa using congrArg Option.isSome (hlookup key)
      · have hkey := hlookup key
        rw [hv₁, hv₂, Option.map_some, Option.map_some, Option.some.injEq] at hkey
        have hmem := Members.mem_of_lookup hv₁
        exact ih _ hmem (hv.members _ hmem) (hv'.members _ (Members.mem_of_lookup hv₂)) hkey
    | _ => simp only [normalize, reduceCtorEq] at h

/-- Sorting decides whether two values are the same. -/
theorem normalize_eq_iff_same (hw : Function.Injective w.sortKey) (hv : v.Proper)
    (hv' : v'.Proper) : w.normalize v = w.normalize v' ↔ v.Same v' :=
  ⟨same_of_normalize_eq hv hv', fun h ↦ normalize_eq_of_same hw h hv hv'⟩

/-- A value is the same as itself with sorted members. -/
theorem same_normalize (hv : v.Proper) : v.Same (w.normalize v) := by
  induction v using Value.induction with
  | null => exact .null
  | bool b => exact .bool b
  | num n => exact .num n
  | str s => exact .str s
  | arr elems ih =>
    rw [normalize_arr]
    refine .arr (List.length_map _).symm fun i v v' hi hi' ↦ ?_
    rw [List.getElem?_map, hi, Option.map_some, Option.some.injEq] at hi'
    have hmem := List.mem_of_getElem? hi
    exact hi' ▸ ih v hmem (hv.elems v hmem)
  | obj members ih =>
    rw [normalize_obj]
    refine .obj (fun key ↦ ?_) fun key v v' hv₁ hv₂ ↦ ?_
    · rw [lookup_sorted hv.keys, Option.isSome_map]
    · rw [lookup_sorted hv.keys, hv₁, Option.map_some, Option.some.injEq] at hv₂
      have hmem := Members.mem_of_lookup hv₁
      exact hv₂ ▸ ih _ hmem (hv.members _ hmem)

instance {α : Type} : Std.Total (@KeyLE w α) :=
  ⟨fun _ _ ↦ le_total _ _⟩

instance {α : Type} : IsTrans (Text × α) w.KeyLE :=
  ⟨fun _ _ _ ↦ le_trans⟩

/-- Sorting the members does not change the text. -/
theorem text_normalize (v : Value) : w.text (w.normalize v) = w.text v := by
  induction v using Value.induction with
  | null | bool _ | num _ | str _ => rfl
  | arr elems ih =>
    rw [normalize_arr, text_arr, text_arr, List.map_map]
    congr 2
    exact congrArg _ (List.map_congr_left fun v hv ↦ ih v hv)
  | obj members ih =>
    have hsorted : ((members.map fun p ↦ (p.1, w.normalize p.2)).insertionSort
        w.KeyLE).insertionSort w.KeyLE =
          (members.map fun p ↦ (p.1, w.normalize p.2)).insertionSort w.KeyLE :=
      (List.pairwise_insertionSort w.KeyLE _).insertionSort_eq
    rw [normalize_obj, text_obj, text_obj, ← map_insertionSort_members, hsorted,
      map_insertionSort_members, List.map_map]
    congr 2
    refine congrArg _ (List.map_congr_left fun p hp ↦ ?_)
    rw [Function.comp_apply, ih p ((List.mem_insertionSort w.KeyLE).1 hp)]

/-- **What a lawful writer writes decides whether two values are the same.** -/
theorem Lawful.text_eq_iff_same (h : w.Lawful) (hw : Function.Injective w.sortKey) (hv : v.Proper)
    (hv' : v'.Proper) : w.text v = w.text v' ↔ v.Same v' := by
  rw [← normalize_eq_iff_same hw hv hv']
  constructor
  · intro htext
    have hparse := h.parse_text hv
    rw [htext, h.parse_text hv'] at hparse
    exact (Option.some.inj hparse).symm
  · intro hnormal
    rw [← text_normalize v, hnormal, text_normalize]

end Writer

end Ecma
