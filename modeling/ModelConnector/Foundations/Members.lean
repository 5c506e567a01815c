import Mathlib.Data.List.Sort

/-!
# Members under keys

A list of pairs as a map from keys to values, by `List.lookup`. Where no key occurs twice, the order
of the pairs does not matter for what is looked up, and two lists in which the same is looked up are
sorted by their keys into the same list.
-/

namespace Members

variable {κ α β : Type*} [BEq κ] [LawfulBEq κ] {members members' : List (κ × α)} {key : κ}

theorem lookup_map_mk (f : κ → α → β) (members : List (κ × α)) (key : κ) :
    (members.map fun p ↦ (p.1, f p.1 p.2)).lookup key = (members.lookup key).map (f key) := by
  induction members with
  | nil => rfl
  | cons p rest ih =>
    obtain ⟨k, v⟩ := p
    simp only [List.map_cons, List.lookup_cons]
    split
    · rename_i hkey
      rw [eq_of_beq hkey]
      rfl
    · exact ih

theorem lookup_map_snd (f : α → β) (members : List (κ × α)) (key : κ) :
    (members.map fun p ↦ (p.1, f p.2)).lookup key = (members.lookup key).map f :=
  lookup_map_mk (fun _ ↦ f) members key

/-- Where no key occurs twice, the order of members does not matter. -/
theorem lookup_eq_of_perm (h : members.Perm members') (hkeys : (members.map Prod.fst).Nodup)
    (key : κ) : members.lookup key = members'.lookup key := by
  induction h with
  | nil => rfl
  | cons p _ ih =>
    obtain ⟨k, v⟩ := p
    rw [List.lookup_cons, List.lookup_cons, ih (List.nodup_cons.1 hkeys).2]
  | swap p q rest =>
    obtain ⟨k, v⟩ := p
    obtain ⟨k', v'⟩ := q
    have hne : k' ≠ k := fun heq ↦ (List.nodup_cons.1 hkeys).1 (by simp [heq])
    simp only [List.lookup_cons]
    by_cases hk : key = k
    · subst hk
      have hkey : (key == k') = false := by simpa using hne.symm
      simp [hkey]
    · have hkey : (key == k) = false := by simpa using hk
      simp [hkey]
  | trans hfirst _ ih ih' =>
    rw [ih hkeys, ih' ((hfirst.map Prod.fst).nodup_iff.1 hkeys)]

theorem mem_of_lookup {v : α} (h : members.lookup key = some v) : (key, v) ∈ members := by
  obtain ⟨before, after, rfl, -⟩ := List.lookup_eq_some_iff.1 h
  simp

/-- Where no key occurs twice, a member is what is looked up. -/
theorem lookup_of_mem {p : κ × α} (hkeys : (members.map Prod.fst).Nodup) (h : p ∈ members) :
    members.lookup p.1 = some p.2 := by
  induction members with
  | nil => cases h
  | cons q rest ih =>
    obtain ⟨hfresh, hrest⟩ := List.nodup_cons.1 hkeys
    obtain ⟨k, v⟩ := q
    rw [List.lookup_cons]
    rcases List.mem_cons.1 h with rfl | h
    · rw [beq_self_eq_true]
    · have hne : (p.1 == k) = false := by
        rw [beq_eq_false_iff_ne]
        exact fun heq ↦ hfresh (List.mem_map.2 ⟨p, h, heq⟩)
      rw [hne]
      exact ih hrest h

/-- Where no key occurs twice, sorting by key puts members with the same values under the same keys
into one order. -/
theorem insertionSort_eq_of_lookup {γ : Type*} [LinearOrder γ] {sortKey : κ → γ}
    {r : κ × α → κ × α → Prop} [DecidableRel r] (hr : ∀ p q, r p q ↔ sortKey p.1 ≤ sortKey q.1)
    (hinj : Function.Injective sortKey) (hkeys : (members.map Prod.fst).Nodup)
    (hkeys' : (members'.map Prod.fst).Nodup)
    (h : ∀ key, members.lookup key = members'.lookup key) :
    members.insertionSort r = members'.insertionSort r := by
  have htotal : Std.Total r := ⟨fun p q ↦ by
    rw [hr, hr]
    exact le_total _ _⟩
  have htrans : IsTrans _ r := ⟨fun p q s ↦ by
    rw [hr, hr, hr]
    exact le_trans⟩
  have hmem : ∀ p, p ∈ members ↔ p ∈ members' := fun p ↦
    ⟨fun hp ↦ mem_of_lookup ((h p.1).symm.trans (lookup_of_mem hkeys hp)),
      fun hp ↦ mem_of_lookup ((h p.1).trans (lookup_of_mem hkeys' hp))⟩
  have hperm : members.Perm members' :=
    (List.perm_ext_iff_of_nodup hkeys.of_map hkeys'.of_map).2 hmem
  refine List.Perm.eq_of_pairwise (fun p q hp hq hpq hqp ↦ ?_) (List.pairwise_insertionSort r _)
    (List.pairwise_insertionSort r _)
    (((members.perm_insertionSort r).trans hperm).trans (members'.perm_insertionSort r).symm)
  have hkey : p.1 = q.1 := hinj (le_antisymm ((hr p q).1 hpq) ((hr q p).1 hqp))
  have hp' := lookup_of_mem hkeys ((List.mem_insertionSort r).1 hp)
  have hq' := lookup_of_mem hkeys ((hmem q).2 ((List.mem_insertionSort r).1 hq))
  rw [hkey, hq'] at hp'
  exact Prod.ext hkey (Option.some.inj hp'.symm)

theorem isSome_lookup : (members.lookup key).isSome = true ↔ key ∈ members.map Prod.fst := by
  induction members with
  | nil => simp
  | cons p rest ih =>
    rw [List.lookup_cons, List.map_cons, List.mem_cons]
    cases hk : key == p.1 with
    | true => exact ⟨fun _ ↦ .inl (eq_of_beq hk), fun _ ↦ rfl⟩
    | false =>
      have hne : key ≠ p.1 := beq_eq_false_iff_ne.1 hk
      exact ih.trans ⟨.inr, fun h ↦ h.resolve_left hne⟩

/-- Members that are kept are looked up as before. -/
theorem lookup_filter {keep : κ × α → Bool} (h : ∀ v, keep (key, v) = true) :
    (members.filter keep).lookup key = members.lookup key := by
  induction members with
  | nil => rfl
  | cons p rest ih =>
    obtain ⟨k, v⟩ := p
    rw [List.filter_cons, List.lookup_cons]
    by_cases hk : key = k
    · subst hk
      rw [if_pos (h v), List.lookup_cons]
      simp
    · have hne : (key == k) = false := beq_eq_false_iff_ne.2 hk
      split_ifs
      · rw [List.lookup_cons, hne, ih]
      · rw [hne, ih]

omit [LawfulBEq κ] in
/-- What is looked up in members with the same keys comes from what is looked up in them. -/
theorem exists_lookup_of_forall₂ (R : α → β → Prop) {images : List (κ × β)} {w : β}
    (h : List.Forall₂ (fun p q ↦ q.1 = p.1 ∧ R p.2 q.2) members images)
    (hw : images.lookup key = some w) : ∃ v, members.lookup key = some v ∧ R v w := by
  induction h with
  | nil => cases hw
  | @cons p q _ _ hpq _ ih =>
    obtain ⟨k, v⟩ := p
    obtain ⟨k', w'⟩ := q
    obtain ⟨hkey, hR⟩ := hpq
    obtain rfl : k' = k := hkey
    rw [List.lookup_cons] at hw ⊢
    cases hk : key == k' with
    | true =>
      rw [hk] at hw
      cases hw
      exact ⟨v, rfl, hR⟩
    | false =>
      rw [hk] at hw
      exact ih hw

/-! ### Assignment -/

/-- The value of a key is set, in its place or behind all others. -/
def set (members : List (κ × α)) (key : κ) (v : α) : List (κ × α) :=
  match members with
  | [] => [(key, v)]
  | p :: rest => if p.1 == key then (key, v) :: rest else p :: set rest key v

theorem lookup_set_self {v : α} : (set members key v).lookup key = some v := by
  induction members with
  | nil => simp [set]
  | cons p rest ih =>
    rw [set]
    split_ifs with hk
    · simp
    · have hne : (key == p.1) = false := beq_eq_false_iff_ne.2 fun heq ↦ hk (beq_iff_eq.2 heq.symm)
      rw [List.lookup_cons, hne]
      exact ih

theorem lookup_set_of_ne {v : α} {key' : κ} (h : key' ≠ key) :
    (set members key v).lookup key' = members.lookup key' := by
  have hne : (key' == key) = false := beq_eq_false_iff_ne.2 h
  induction members with
  | nil => rw [set, List.lookup_cons, hne]
  | cons p rest ih =>
    rw [set]
    split_ifs with hk
    · obtain rfl := eq_of_beq hk
      rw [List.lookup_cons, List.lookup_cons, hne]
    · rw [List.lookup_cons, List.lookup_cons, ih]

/-- Setting what is set already changes nothing. -/
theorem set_of_lookup {v : α} (h : members.lookup key = some v) : set members key v = members := by
  induction members with
  | nil => cases h
  | cons p rest ih =>
    obtain ⟨k, w⟩ := p
    rw [List.lookup_cons] at h
    rw [set]
    split_ifs with hk
    · obtain rfl := eq_of_beq hk
      rw [beq_self_eq_true] at h
      cases h
      rfl
    · have hne : (key == k) = false := beq_eq_false_iff_ne.2 fun heq ↦ hk (beq_iff_eq.2 heq.symm)
      rw [hne] at h
      rw [ih h]

/-- A member is set at its place, or at the end. -/
theorem map_fst_set [DecidableEq κ] {v : α} : (set members key v).map Prod.fst =
    if key ∈ members.map Prod.fst then members.map Prod.fst
    else members.map Prod.fst ++ [key] := by
  induction members with
  | nil => rfl
  | cons p rest ih =>
    unfold set
    by_cases hp : p.1 = key
    · simp [hp]
    · simp only [beq_iff_eq, hp, if_false, List.map_cons, ih, List.mem_cons, Ne.symm hp, false_or]
      split <;> rfl

omit [LawfulBEq κ] in
theorem mem_of_mem_set {v : α} {p : κ × α} (h : p ∈ set members key v) :
    p ∈ members ∨ p = (key, v) := by
  induction members with
  | nil => exact .inr (List.mem_singleton.1 h)
  | cons q rest ih =>
    rw [set] at h
    split_ifs at h with hk
    · rcases List.mem_cons.1 h with rfl | h
      · exact .inr rfl
      · exact .inl (List.mem_cons_of_mem _ h)
    · rcases List.mem_cons.1 h with rfl | h
      · exact .inl List.mem_cons_self
      · exact (ih h).imp_left (List.mem_cons_of_mem _)

end Members
