import ModelConnector.Foundations.EcmaWriters
import ModelConnector.Foundations.Members
import ModelConnector.Policy.KeyContext

/-!
# Secrets are redacted, and nothing else is touched

A key that has no bracket and is no part of the word in its place is gone from every string and
every key of a value, and a text without it is as it was. What an object keeps is what `assign`
keeps of its entries: of those whose keys have become the same, the last one.
-/

namespace Ecma

variable {α : Type} {members : List (Text × α)} {p : Text × α}

/-! ### Members that are assigned -/

/-- What is assigned is one of the members. -/
theorem mem_of_mem_assign (h : p ∈ assign members) : p ∈ members := by
  induction members with
  | nil => cases h
  | cons q rest ih =>
    obtain ⟨key, v⟩ := q
    rw [assign] at h
    split at h
    · rcases List.mem_cons.1 h with rfl | h
      · exact List.mem_cons_self
      · exact List.mem_cons_of_mem _ (ih h)
    · rename_i w hw
      rcases List.mem_cons.1 h with rfl | h
      · exact List.mem_cons_of_mem _ (ih (Members.mem_of_lookup hw))
      · exact List.mem_cons_of_mem _ (ih (List.mem_of_mem_eraseP h))

/-- Every key of the members is assigned. -/
theorem exists_mem_assign (h : p ∈ members) : ∃ v, (p.1, v) ∈ assign members := by
  induction members with
  | nil => cases h
  | cons q rest ih =>
    obtain ⟨key, v⟩ := q
    rw [assign]
    split
    · rcases List.mem_cons.1 h with rfl | h
      · exact ⟨v, List.mem_cons_self⟩
      · obtain ⟨w, hw⟩ := ih h
        exact ⟨w, List.mem_cons_of_mem _ hw⟩
    · rename_i w hw
      rcases List.mem_cons.1 h with rfl | h
      · exact ⟨w, List.mem_cons_self⟩
      · obtain ⟨w', hw'⟩ := ih h
        rcases eq_or_ne p.1 key with heq | hne
        · exact ⟨w, by rw [heq]; exact List.mem_cons_self⟩
        · exact ⟨w', List.mem_cons_of_mem _ ((List.mem_eraseP_of_neg (by simpa using hne)).2 hw')⟩

/-- No key is assigned twice. -/
theorem keys_assign_nodup : ((assign members).map Prod.fst).Nodup := by
  induction members with
  | nil => exact List.nodup_nil
  | cons q rest ih =>
    obtain ⟨key, v⟩ := q
    rw [assign]
    split
    · rename_i hnone
      refine List.nodup_cons.2 ⟨fun hmem ↦ ?_, ih⟩
      obtain ⟨p, hp, hkey⟩ := List.mem_map.1 hmem
      have hne := List.lookup_eq_none_iff.1 hnone p hp
      exact absurd hkey.symm (by simpa using hne)
    · rename_i w hw
      have herased : ((assign rest).eraseP fun p ↦ p.1 = key).map Prod.fst =
          ((assign rest).map Prod.fst).erase key := by
        rw [List.erase_eq_eraseP', List.eraseP_map]
        congr
        exact funext fun p ↦ (beq_eq_decide p.1 key).symm
      rw [List.map_cons, herased]
      exact List.nodup_cons.2 ⟨ih.not_mem_erase, ih.erase key⟩

end Ecma

namespace ModelConnector.Policy

open Ecma Splits

variable {secret s t : Text} {v : Value}

/-! ### What is wanted of the redaction -/

/-- What may become of a value: a text without the secret is kept, an array has its elements, and an
object its members under their redacted keys, which are distinct; a key without the secret is kept.
A member is lost only when another key of the object is redacted to the same text. -/
inductive Rewritten (secret : Text) : Value → Value → Prop
  | null : Rewritten secret .null .null
  | bool (b : Bool) : Rewritten secret (.bool b) (.bool b)
  | num (n : Ecma.Number) : Rewritten secret (.num n) (.num n)
  | str {s s' : Text} (h : ¬ secret <:+: s → s' = s) : Rewritten secret (.str s) (.str s')
  | arr {elems elems' : List Value} (hlength : elems'.length = elems.length)
      (h : ∀ (i : ℕ) (v v' : Value), elems[i]? = some v → elems'[i]? = some v' →
        Rewritten secret v v') : Rewritten secret (.arr elems) (.arr elems')
  | obj {members members' : List (Text × Value)} (origin : Text × Value → Text × Value)
      (hkeys : ∀ p ∈ members, ¬ secret <:+: p.1 → redactText secret p.1 = p.1)
      (hnodup : (members'.map Prod.fst).Nodup)
      (horigin : ∀ p' ∈ members', origin p' ∈ members ∧ p'.1 = redactText secret (origin p').1)
      (h : ∀ p' ∈ members', Rewritten secret (origin p').2 p'.2)
      (hlost : ∀ p ∈ members, (∃ p' ∈ members', origin p' = p) ∨
        ∃ q ∈ members, q.1 ≠ p.1 ∧ redactText secret q.1 = redactText secret p.1) :
      Rewritten secret (.obj members) (.obj members')

/-- **What is wanted of the redaction** of a value. -/
structure RedactedFrom (secret : Text) (v v' : Value) : Prop where
  /-- The secret is in no string and in no key. -/
  clean : v'.Forall (fun _ ↦ True) (fun key ↦ ¬ secret <:+: key) (fun s ↦ ¬ secret <:+: s)
  kept : Rewritten secret v v'
  stable : redactProviderSecrets (some secret) v' = v'

/-- A secret that can be told from what stands in its place. -/
structure Tellable (secret : Text) : Prop where
  nonempty : secret ≠ []
  noOpen : 0x5B ∉ secret
  noClose : 0x5D ∉ secret
  notInWord : ¬ secret <:+: ascii "REDACTED"

/-! ### Texts -/

theorem redacted_eq : REDACTED = 0x5B :: ascii "REDACTED" ++ [0x5D] := by
  decide

theorem not_infix_redactText (h : Tellable secret) : ¬ secret <:+: redactText secret t := by
  rw [redactText, redacted_eq]
  exact not_infix_replaceAll h.nonempty h.noOpen h.noClose h.notInWord

theorem redactText_of_absent (h : ¬ secret <:+: t) : redactText secret t = t :=
  replaceAll_of_not_infix REDACTED h

/-! ### Values -/

theorem redactProviderSecrets_some (h : secret ≠ []) :
    redactProviderSecrets (some secret) v = visit secret v := by
  cases secret with
  | nil => exact absurd rfl h
  | cons u us => rfl

theorem visit_arr (elems : List Value) :
    visit secret (.arr elems) = .arr (elems.map (visit secret)) := by
  rw [visit, visitAll_eq_map]

theorem visit_obj (members : List (Text × Value)) : visit secret (.obj members) =
    .obj (assign (members.map fun p ↦ (redactText secret p.1, visit secret p.2))) := by
  rw [visit, visitMembers_eq_map]

/-- A member of an object that is visited comes from one of the object. -/
theorem exists_of_mem_visit {members : List (Text × Value)} {p' : Text × Value}
    (h : p' ∈ assign (members.map fun p ↦ (redactText secret p.1, visit secret p.2))) :
    ∃ p ∈ members, p' = (redactText secret p.1, visit secret p.2) := by
  obtain ⟨p, hp, heq⟩ := List.mem_map.1 (mem_of_mem_assign h)
  exact ⟨p, hp, heq.symm⟩

/-- The secret is gone. -/
theorem clean_visit (h : Tellable secret) (v : Value) : (visit secret v).Forall (fun _ ↦ True)
    (fun key ↦ ¬ secret <:+: key) (fun s ↦ ¬ secret <:+: s) := by
  induction v using Value.induction with
  | null => exact .null
  | bool b => exact .bool b
  | num n => exact .num trivial
  | str s => exact .str (not_infix_redactText h)
  | arr elems ih =>
    rw [visit_arr, Value.forall_arr]
    intro v' hv'
    obtain ⟨v, hv, rfl⟩ := List.mem_map.1 hv'
    exact ih v hv
  | obj members ih =>
    rw [visit_obj, Value.forall_obj]
    intro p' hp'
    obtain ⟨p, hp, rfl⟩ := exists_of_mem_visit hp'
    exact ⟨not_infix_redactText h, ih p hp⟩

/-- Nothing else is touched. -/
theorem rewritten_visit {v : Value} (hv : v.Proper) : Rewritten secret v (visit secret v) := by
  induction v using Value.induction with
  | null => exact .null
  | bool b => exact .bool b
  | num n => exact .num n
  | str s => exact .str redactText_of_absent
  | arr elems ih =>
    rw [visit_arr]
    refine .arr (List.length_map _) fun i v v' hmem hmem' ↦ ?_
    rw [List.getElem?_map, hmem] at hmem'
    rw [← Option.some.inj hmem']
    exact ih v (List.mem_of_getElem? hmem) (hv.elems v (List.mem_of_getElem? hmem))
  | obj members ih =>
    rw [visit_obj]
    choose! origin horigin heq using fun p' : Text × Value ↦
      @exists_of_mem_visit secret members p'
    refine .obj origin (fun p _ ↦ redactText_of_absent) keys_assign_nodup
      (fun p' hp' ↦ ⟨horigin p' hp', congrArg Prod.fst (heq p' hp')⟩) (fun p' hp' ↦ ?_)
      fun p hp ↦ ?_
    · rw [congrArg Prod.snd (heq p' hp')]
      exact ih _ (horigin p' hp') (hv.members _ (horigin p' hp'))
    · obtain ⟨w, hw⟩ := exists_mem_assign (List.mem_map_of_mem
        (f := fun p ↦ (redactText secret p.1, visit secret p.2)) hp)
      have hkey : redactText secret p.1 = redactText secret (origin _).1 :=
        congrArg Prod.fst (heq _ hw)
      rcases eq_or_ne (origin (redactText secret p.1, w)).1 p.1 with hsame | hother
      · -- the keys of the object are distinct, so the member that is kept is this one
        have hlookup := Members.lookup_of_mem hv.keys (horigin _ hw)
        rw [hsame, Members.lookup_of_mem hv.keys hp] at hlookup
        exact .inl ⟨_, hw, Prod.ext hsame (Option.some.inj hlookup).symm⟩
      · exact .inr ⟨_, horigin _ hw, hother, hkey.symm⟩

/-- Where the secret is not, nothing changes. -/
theorem visit_of_clean {v : Value} (hv : v.Forall (fun _ ↦ True) (fun key ↦ ¬ secret <:+: key)
    (fun s ↦ ¬ secret <:+: s)) (hproper : v.Proper) : visit secret v = v := by
  induction v using Value.induction with
  | null => rfl
  | bool b => rfl
  | num n => rfl
  | str s => rw [visit, redactText_of_absent (Value.forall_str.1 hv)]
  | arr elems ih =>
    rw [visit_arr, List.map_congr_left fun v hmem ↦
      ih v hmem (Value.forall_arr.1 hv v hmem) (hproper.elems v hmem), List.map_id']
  | obj members ih =>
    have hsame : (members.map fun p ↦ (redactText secret p.1, visit secret p.2)) = members := by
      rw [List.map_congr_left (g := fun p ↦ p) fun p hp ↦ ?_, List.map_id']
      obtain ⟨hkey, hvalue⟩ := Value.forall_obj.1 hv p hp
      rw [redactText_of_absent hkey, ih p hp hvalue (hproper.members p hp)]
    rw [visit_obj, hsame, assign_of_nodup hproper.keys]

/-- No key is set twice in what is visited. -/
theorem proper_visit (v : Value) : (visit secret v).Proper := by
  induction v using Value.induction with
  | null => exact .null
  | bool b => exact .bool b
  | num n => exact .num n
  | str s => exact .str _
  | arr elems ih =>
    rw [visit_arr]
    refine .arr fun v' hv' ↦ ?_
    obtain ⟨v, hv, rfl⟩ := List.mem_map.1 hv'
    exact ih v hv
  | obj members ih =>
    rw [visit_obj]
    refine .obj keys_assign_nodup fun p' hp' ↦ ?_
    obtain ⟨p, hp, rfl⟩ := exists_of_mem_visit hp'
    exact ih p hp

/-- **Secrets are redacted, and nothing else is touched.** -/
theorem redacted_of_tellable {v : Value} (h : Tellable secret) (hv : v.Proper) :
    RedactedFrom secret v (redactProviderSecrets (some secret) v) := by
  rw [redactProviderSecrets_some h.nonempty]
  refine ⟨clean_visit h v, rewritten_visit hv, ?_⟩
  rw [redactProviderSecrets_some h.nonempty]
  exact visit_of_clean (clean_visit h v) (proper_visit v)

/-- An object two of whose keys differ in the secret only. -/
def echoed : Value :=
  .obj [(ascii "sk-1", .str (ascii "key sk-1.")), (ascii "[REDACTED]", .arr [.bool true])]

/-- Both keys become the same, and the last member is kept. -/
theorem redacted_echoed :
    RedactedFrom (ascii "sk-1") echoed (redactProviderSecrets (some (ascii "sk-1")) echoed) :=
  redacted_of_tellable ⟨by decide, by decide, by decide, by decide⟩
    (.obj (by decide) fun p hp ↦ by
      simp only [List.mem_cons, List.not_mem_nil, or_false] at hp
      rcases hp with rfl | rfl
      · exact .str _
      · exact .arr fun v hv ↦ by
          rw [List.mem_singleton.1 hv]
          exact .bool true)

end ModelConnector.Policy
