import ModelConnector.Sdk.Redaction

/-!
# Causes without bearer tokens

No text of a cause that was gone through has a bearer token, and nothing but the mark stands under a
key `authorization`, as far as the clients go: what lies eleven levels deep is attached as it is.
So a cause is free of both exactly when the parts that lie so deep are.
-/

namespace ModelConnector.Sdk

variable {α ν : Type} {R : Redactor α} {v : Cause α ν}

/-! ### What is wanted of a cause -/

/-- **What is wanted of a cause**: no text in it has a bearer token, and what stands under a key
`authorization` is the mark. -/
structure Redacted (R : Redactor α) (v : Cause α ν) : Prop where
  texts : ∀ s, Within (.str s) v → ¬ R.bearer.Contains s
  authorizations : ∀ members, Within (.obj members) v → ∀ p ∈ members,
    R.isAuthorization p.1 = true → p.2 = R.redacted

namespace Redactor

/-- The values of an object that are gone through. -/
def opened (R : Redactor α) (members : List (List α × Cause α ν)) : List (Cause α ν) :=
  ((R.kept members).filter fun p ↦ !R.isAuthorization p.1).map Prod.snd

/-- What is one level deeper. -/
def children (R : Redactor α) : Cause α ν → List (Cause α ν)
  | .arr elems =>
    match R.indexKey? with
    | none => elems
    | some key => R.opened (indexed key elems)
  | .obj members => R.opened members
  | .null | .bool _ | .num _ | .str _ => []

/-- **The parts so many levels deep**, below no key `authorization`. -/
def beyond (R : Redactor α) : ℕ → Cause α ν → List (Cause α ν)
  | 0, v => [v]
  | n + 1, v => (R.children v).flatMap (R.beyond n)

end Redactor

/-! ### Redacted values -/

theorem redacted_of_scalar (hstr : ∀ s, v ≠ .str s) (harr : ∀ elems, v ≠ .arr elems)
    (hobj : ∀ members, v ≠ .obj members) : Redacted R v := by
  constructor
  · intro s h
    cases h with
    | refl => exact absurd rfl (hstr s)
    | elem hmem h => exact absurd rfl (harr _)
    | member hmem h => exact absurd rfl (hobj _)
  · intro members h
    cases h with
    | refl => exact absurd rfl (hobj members)
    | elem hmem h => exact absurd rfl (harr _)
    | member hmem h => exact absurd rfl (hobj _)

theorem redacted_str_iff {s : List α} :
    Redacted R (.str s : Cause α ν) ↔ ¬ R.bearer.Contains s := by
  refine ⟨fun h ↦ h.texts s .refl, fun h ↦ ⟨fun s' hs' ↦ ?_, fun members h' ↦ ?_⟩⟩
  · cases hs'
    exact h
  · cases h'

theorem redacted_arr_iff {elems : List (Cause α ν)} :
    Redacted R (.arr elems) ↔ ∀ v ∈ elems, Redacted R v := by
  constructor
  · intro h v hv
    exact ⟨fun s hs ↦ h.texts s (.elem hv hs),
      fun members hm ↦ h.authorizations members (.elem hv hm)⟩
  · intro h
    constructor
    · intro s hs
      cases hs with
      | elem hv hs => exact (h _ hv).texts s hs
    · intro members hm
      cases hm with
      | elem hv hm => exact (h _ hv).authorizations members hm

theorem redacted_obj_iff {members : List (List α × Cause α ν)} : Redacted R (.obj members) ↔
    ∀ p ∈ members, (R.isAuthorization p.1 = true → p.2 = R.redacted) ∧ Redacted R p.2 := by
  constructor
  · intro h p hp
    exact ⟨h.authorizations members .refl p hp, fun s hs ↦ h.texts s (.member hp hs),
      fun members' hm ↦ h.authorizations members' (.member hp hm)⟩
  · intro h
    constructor
    · intro s hs
      cases hs with
      | member hp hs => exact (h _ hp).2.texts s hs
    · intro members' hm
      cases hm with
      | refl => exact fun p hp ↦ (h p hp).1
      | member hp hm => exact (h _ hp).2.authorizations members' hm

/-- The mark has no bearer token. -/
theorem redacted_mark : Redacted R (R.redacted : Cause α ν) :=
  redacted_str_iff.2 R.bearer.not_contains_closing

/-! ### The law of the causes -/

variable [DecidableEq α]

/-- The members of an object after redaction. -/
theorem redacted_members_iff {n : ℕ} {members : List (List α × Cause α ν)} :
    Redacted R (.obj ((R.kept members).map fun p ↦
        (p.1, if R.isAuthorization p.1 then R.redacted else R.redact n p.2))) ↔
      ∀ v ∈ R.opened members, Redacted R (R.redact n v) := by
  unfold Redactor.opened
  rw [redacted_obj_iff, List.forall_mem_map, List.forall_mem_map]
  simp only [List.mem_filter, and_imp]
  refine forall₂_congr fun p hp ↦ ?_
  cases hkey : R.isAuthorization p.1 with
  | true => simp [redacted_mark]
  | false => simp

/-- **A cause is redacted** exactly when its parts that are too deep are. -/
theorem redacted_redact_iff (n : ℕ) (v : Cause α ν) :
    Redacted R (R.redact n v) ↔ ∀ w ∈ R.beyond n v, Redacted R w := by
  induction n generalizing v with
  | zero => simp [Redactor.redact, Redactor.beyond]
  | succ n ih =>
    have hscalar : ∀ v : Cause α ν, R.children v = [] → ∀ w ∈ R.beyond (n + 1) v, Redacted R w := by
      intro v hv w hw
      unfold Redactor.beyond at hw
      rw [hv] at hw
      cases hw
    have hopened : ∀ vs : List (Cause α ν), (∀ v ∈ vs, Redacted R (R.redact n v)) ↔
        ∀ w ∈ vs.flatMap (R.beyond n), Redacted R w := by
      intro vs
      simp only [ih, List.mem_flatMap, forall_exists_index, and_imp]
      exact ⟨fun h w v hv hw ↦ h v hv w hw, fun h v hv w hw ↦ h w v hv hw⟩
    cases v with
    | null => exact iff_of_true (redacted_of_scalar nofun nofun nofun) (hscalar _ rfl)
    | bool b => exact iff_of_true (redacted_of_scalar nofun nofun nofun) (hscalar _ rfl)
    | num m => exact iff_of_true (redacted_of_scalar nofun nofun nofun) (hscalar _ rfl)
    | str s =>
      exact iff_of_true (redacted_str_iff.2 (TokenPattern.not_contains_replace s)) (hscalar _ rfl)
    | arr elems =>
      unfold Redactor.redact Redactor.beyond Redactor.children
      cases R.indexKey? with
      | none =>
        dsimp only
        rw [redacted_arr_iff, List.forall_mem_map]
        exact hopened elems
      | some key =>
        dsimp only
        rw [redacted_members_iff]
        exact hopened _
    | obj members =>
      unfold Redactor.redact Redactor.beyond Redactor.children
      dsimp only
      rw [redacted_members_iff]
      exact hopened _

/-- **In both clients** the cause of an error is redacted exactly when what lies eleven levels deep
in the body is. -/
theorem causes_redacted_iff :
    (∀ body : Cause Ecma.CodeUnit ν,
      Redacted TypeScript.redactor (TypeScript.redactCause body 0) ↔
        ∀ w ∈ TypeScript.redactor.beyond 11 body, Redacted TypeScript.redactor w) ∧
    (∀ body : Cause Char ν,
      Redacted Python.redactor (Python.redact_cause body 0) ↔
        ∀ w ∈ Python.redactor.beyond 11 body, Redacted Python.redactor w) :=
  ⟨fun body ↦ redacted_redact_iff 11 body, fun body ↦ redacted_redact_iff 11 body⟩

/-! ### A body that is nested deep -/

/-- A value as the one member of an object, and this of another one, and so on. -/
def nested (key : List α) : ℕ → Cause α ν → Cause α ν
  | 0, v => v
  | n + 1, v => .obj [(key, nested key n v)]

omit [DecidableEq α] in
theorem within_nested (key : List α) (n : ℕ) (v : Cause α ν) : Within v (nested key n v) := by
  induction n with
  | zero => exact .refl
  | succ n ih => exact .member List.mem_cons_self ih

/-- A header with a token. -/
def deepHeader (letters : String → List α) : Cause α ℕ :=
  nested (letters "detail") 11 (.obj [(letters "authorization", .str (letters "Bearer mun_sk_1"))])

/-- **The token of a header eleven levels deep** is in the causes of both clients. -/
theorem deep_header_survives :
    TypeScript.redactCause (deepHeader Ecma.ascii) 0 = deepHeader Ecma.ascii ∧
      ¬ Redacted TypeScript.redactor (TypeScript.redactCause (deepHeader Ecma.ascii) 0) ∧
      Python.redact_cause (deepHeader String.toList) 0 = deepHeader String.toList ∧
      ¬ Redacted Python.redactor (Python.redact_cause (deepHeader String.toList) 0) := by
  have htypescript :
      TypeScript.redactCause (deepHeader Ecma.ascii) 0 = deepHeader Ecma.ascii := rfl
  have hpython : Python.redact_cause (deepHeader String.toList) 0 = deepHeader String.toList := rfl
  refine ⟨htypescript, fun h ↦ ?_, hpython, fun h ↦ ?_⟩
  · rw [htypescript] at h
    have htext := h.authorizations _ (within_nested _ 11 _) _ List.mem_cons_self (by decide)
    cases htext
  · rw [hpython] at h
    have htext := h.authorizations _ (within_nested _ 11 _) _ List.mem_cons_self (by decide)
    cases htext

end ModelConnector.Sdk
