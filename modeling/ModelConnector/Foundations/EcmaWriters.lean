import ModelConnector.Foundations.EcmaJson

/-!
# Writers compared

When one writer spells strings and numbers as another one does, with some units rewritten, and sorts
the keys alike, its texts are those of the other one rewritten (`flatMap_text`). A unit that is no
part of the notation is in a text exactly when it is in what is written of a string or a key
(`not_mem_text_iff`).
-/

namespace Ecma

/-- The numbers, the keys and the strings of a value satisfy the predicates. -/
inductive Value.Forall (onNumber : Number → Prop) (onKey onString : Text → Prop) : Value → Prop
  | null : Forall onNumber onKey onString .null
  | bool (b : Bool) : Forall onNumber onKey onString (.bool b)
  | num {n : Number} (h : onNumber n) : Forall onNumber onKey onString (.num n)
  | str {s : Text} (h : onString s) : Forall onNumber onKey onString (.str s)
  | arr {elems : List Value} (h : ∀ v ∈ elems, Forall onNumber onKey onString v) :
      Forall onNumber onKey onString (.arr elems)
  | obj {members : List (Text × Value)} (hkeys : ∀ p ∈ members, onKey p.1)
      (h : ∀ p ∈ members, Forall onNumber onKey onString p.2) :
      Forall onNumber onKey onString (.obj members)

section Forall

variable {onNumber : Number → Prop} {onKey onString : Text → Prop}

theorem Value.forall_num {n : Number} :
    (Value.num n).Forall onNumber onKey onString ↔ onNumber n :=
  ⟨fun h ↦ by cases h; assumption, .num⟩

theorem Value.forall_str {s : Text} :
    (Value.str s).Forall onNumber onKey onString ↔ onString s :=
  ⟨fun h ↦ by cases h; assumption, .str⟩

theorem Value.forall_arr {elems : List Value} : (Value.arr elems).Forall onNumber onKey onString ↔
    ∀ v ∈ elems, v.Forall onNumber onKey onString :=
  ⟨fun h ↦ by cases h; assumption, .arr⟩

theorem Value.forall_obj {members : List (Text × Value)} :
    (Value.obj members).Forall onNumber onKey onString ↔
      ∀ p ∈ members, onKey p.1 ∧ p.2.Forall onNumber onKey onString := by
  constructor
  · rintro (_ | _ | _ | _ | _ | ⟨hkeys, h⟩) p hp
    exact ⟨hkeys p hp, h p hp⟩
  · exact fun h ↦ .obj (fun p hp ↦ (h p hp).1) fun p hp ↦ (h p hp).2

/-- A predicate that always holds, holds of every value. -/
theorem Value.forall_of_forall (hnumber : ∀ n, onNumber n) (hkey : ∀ s, onKey s)
    (hstring : ∀ s, onString s) (v : Value) : v.Forall onNumber onKey onString := by
  induction v using Value.induction with
  | null => exact .null
  | bool b => exact .bool b
  | num n => exact .num (hnumber n)
  | str s => exact .str (hstring s)
  | arr elems ih => exact .arr ih
  | obj members ih => exact .obj (fun p _ ↦ hkey p.1) ih

end Forall

/-! ### Joined texts -/

theorem flatMap_intercalate {g : CodeUnit → Text} {c : CodeUnit} (hc : g c = [c]) (ts : List Text) :
    ([c].intercalate ts).flatMap g = [c].intercalate (ts.map fun t ↦ t.flatMap g) := by
  induction ts with
  | nil => rfl
  | cons t rest ih =>
    cases rest with
    | nil => simp only [List.intercalate_singleton, List.map_cons, List.map_nil]
    | cons t' rest =>
      simp only [List.intercalate_cons_cons, List.map_cons, List.flatMap_append, List.flatMap_cons,
        List.flatMap_nil, hc, List.append_nil] at ih ⊢
      rw [ih]

theorem mem_intercalate_iff {u c : CodeUnit} (hne : u ≠ c) {ts : List Text} :
    u ∈ [c].intercalate ts ↔ ∃ t ∈ ts, u ∈ t := by
  induction ts with
  | nil => simp
  | cons t rest ih =>
    cases rest with
    | nil => simp
    | cons t' rest =>
      rw [List.intercalate_cons_cons, List.mem_append, List.mem_append, ih]
      simp [hne]

namespace Writer

variable {w w' : Writer}

/-- A unit of the notation: what a text is made of apart from its numbers and strings. -/
def IsNotation (u : CodeUnit) : Prop :=
  u ∈ ascii "null" ++ ascii "true" ++ ascii "false" ++ ascii "[],\x7b\x7d:\""

instance (u : CodeUnit) : Decidable (IsNotation u) :=
  inferInstanceAs (Decidable (u ∈ _))

section Rewrite

variable {g : CodeUnit → Text} {onNumber : Number → Prop} {onKey : Text → Prop}

theorem flatMap_ascii (hfix : ∀ u, IsNotation u → g u = [u]) {t : Text}
    (ht : ∀ u ∈ t, IsNotation u) : t.flatMap g = t := by
  induction t with
  | nil => rfl
  | cons u rest ih =>
    rw [List.flatMap_cons, hfix u (ht u List.mem_cons_self),
      ih fun u hu ↦ ht u (List.mem_cons_of_mem _ hu)]
    rfl

/-- **A writer that rewrites what another one writes.** -/
theorem flatMap_text (hfix : ∀ u, IsNotation u → g u = [u])
    (hnumber : ∀ n, onNumber n → (w.number n).flatMap g = w'.number n)
    (hbody : ∀ s, (w.body s).flatMap g = w'.body s)
    (hkey : ∀ k k', onKey k → onKey k' →
      (w.sortKey k ≤ w.sortKey k' ↔ w'.sortKey k ≤ w'.sortKey k'))
    {v : Value} (hv : v.Forall onNumber onKey fun _ ↦ True) :
    (w.text v).flatMap g = w'.text v := by
  have hquote : ∀ s, (w.quote s).flatMap g = w'.quote s := fun s ↦ by
    rw [quote, List.flatMap_append, List.flatMap_cons, hbody, hfix 0x22 (by decide)]
    simp [hfix 0x22 (by decide), quote]
  induction v using Value.induction with
  | null => exact flatMap_ascii hfix (t := ascii "null") fun u hu ↦ by simp [IsNotation, hu]
  | bool b =>
    cases b with
    | true => exact flatMap_ascii hfix (t := ascii "true") fun u hu ↦ by simp [IsNotation, hu]
    | false => exact flatMap_ascii hfix (t := ascii "false") fun u hu ↦ by simp [IsNotation, hu]
  | num n => exact hnumber n (Value.forall_num.1 hv)
  | str s => exact hquote s
  | arr elems ih =>
    have helems : (elems.map w.text).map (fun t ↦ t.flatMap g) = elems.map w'.text := by
      rw [List.map_map]
      exact List.map_congr_left fun v hmem ↦ ih v hmem (Value.forall_arr.1 hv v hmem)
    rw [text_arr, text_arr, List.flatMap_append, List.flatMap_cons, flatMap_intercalate
      (hfix 0x2C (by decide)), helems, hfix 0x5B (by decide)]
    simp [hfix 0x5D (by decide)]
  | obj members ih =>
    have hall := Value.forall_obj.1 hv
    -- both writers put these keys into one order
    have hsorted : members.insertionSort w'.KeyLE = members.insertionSort w.KeyLE := by
      have hmap := List.map_insertionSort w.KeyLE w'.KeyLE id members fun p hp q hq ↦
        hkey p.1 q.1 (hall p hp).1 (hall q hq).1
      rw [List.map_id, List.map_id] at hmap
      exact hmap.symm
    have hmembers : ((members.insertionSort w.KeyLE).map fun p ↦
        w.memberText (p.1, w.text p.2)).map (fun t ↦ t.flatMap g) =
          (members.insertionSort w.KeyLE).map fun p ↦ w'.memberText (p.1, w'.text p.2) := by
      rw [List.map_map]
      refine List.map_congr_left fun p hp ↦ ?_
      have hp' := (List.mem_insertionSort w.KeyLE).1 hp
      rw [Function.comp_apply, memberText, List.flatMap_append, List.flatMap_cons, hquote,
        ih p hp' (hall p hp').2, hfix 0x3A (by decide)]
      rfl
    rw [text_obj, text_obj, List.flatMap_append, List.flatMap_cons, flatMap_intercalate
      (hfix 0x2C (by decide)), hmembers, hsorted, hfix 0x7B (by decide)]
    simp [hfix 0x7D (by decide)]

end Rewrite

/-- **Which units a text is free of.** One that is no part of the notation and of no number is in no
string and no key as it is written. -/
theorem not_mem_text_iff {u : CodeUnit} (hu : ¬IsNotation u) (hnumber : ∀ n, u ∉ w.number n)
    {v : Value} :
    u ∉ w.text v ↔ v.Forall (fun _ ↦ True) (fun s ↦ u ∉ w.body s) fun s ↦ u ∉ w.body s := by
  have hne : ∀ c, IsNotation c → u ≠ c := fun c hc heq ↦ hu (heq ▸ hc)
  have hquote : ∀ s, u ∈ w.quote s ↔ u ∈ w.body s := fun s ↦ by
    simp [quote, hne 0x22 (by decide)]
  induction v using Value.induction with
  | null =>
    refine iff_of_true (fun hmem ↦ hu ?_) .null
    simp [text] at hmem
    simp [IsNotation, hmem]
  | bool b =>
    refine iff_of_true (fun hmem ↦ hu ?_) (.bool b)
    cases b <;> simp [text] at hmem <;> simp [IsNotation, hmem]
  | num n => exact iff_of_true (hnumber n) (.num trivial)
  | str s =>
    rw [Value.forall_str]
    exact not_congr (hquote s)
  | arr elems ih =>
    rw [text_arr, Value.forall_arr]
    simp only [List.mem_append, List.mem_cons, mem_intercalate_iff (hne 0x2C (by decide)),
      List.mem_map, hne 0x5B (by decide), hne 0x5D (by decide), List.not_mem_nil, false_or,
      or_false, exists_exists_and_eq_and, not_exists, not_and]
    exact forall₂_congr fun v hv ↦ ih v hv
  | obj members ih =>
    rw [text_obj, Value.forall_obj]
    simp only [List.mem_append, List.mem_cons, mem_intercalate_iff (hne 0x2C (by decide)),
      List.mem_map, List.mem_insertionSort, memberText, hquote, hne 0x7B (by decide),
      hne 0x7D (by decide), hne 0x3A (by decide), List.not_mem_nil, false_or, or_false,
      exists_exists_and_eq_and, not_exists, not_and, not_or]
    exact forall₂_congr fun p hp ↦ and_congr_right fun _ ↦ ih p hp

end Writer

end Ecma
