import ModelConnector.Connectors.SchemaNormalizer
import ModelConnector.Foundations.Result
import Mathlib.Logic.Relation

/-!
# Strict schemas

Which object schemas `normalizeSchema` makes strict. What `walk` visits it rewrites: an object
schema that it reaches through `properties` and `items` forbids other properties and requires the
ones it has. It does not go into the other keywords that hold schemas, and what stands there is as
strict as it was (`strictThroughout_of_ready`). What is rewritten is a fixed point of `walk`, unless
a property is named `__proto__` and gets lost (`walk_walk`).
-/

namespace ModelConnector.Connectors.Codex

open Ecma

/-! ### Schemas within a schema -/

/-- The elements of an array. -/
def elements : Option Value → List Value
  | some (.arr elems) => elems
  | _ => []

/-- The values of the members of an object. -/
def memberValues : Option Value → List Value
  | some (.obj members) => members.map Prod.snd
  | _ => []

/-- The schemas under `items`: one for all elements, or one for each. -/
def itemSchemas : Option Value → List Value
  | some (.arr elems) => elems
  | v => v.toList

/-- The keywords under which there is a list of schemas. -/
def listKeywords : List String :=
  ["prefixItems", "anyOf", "oneOf", "allOf"]

/-- The keywords under which there are schemas by name, but for `properties`. -/
def nameKeywords : List String :=
  ["$defs", "definitions"]

/-- The schemas under the keywords that `walk` does not know. -/
def otherSchemas (members : List (Text × Value)) : List Value :=
  (listKeywords.flatMap fun keyword ↦ elements (members.lookup (ascii keyword))) ++
    nameKeywords.flatMap fun keyword ↦ memberValues (members.lookup (ascii keyword))

/-- The schemas that a schema is made of. -/
def subschemas : Value → List Value
  | .obj members => memberValues (members.lookup (ascii "properties")) ++
      itemSchemas (members.lookup (ascii "items")) ++ otherSchemas members
  | _ => []

/-- A schema is somewhere within another. -/
def Within (schema s : Value) : Prop :=
  Relation.ReflTransGen (fun v w ↦ w ∈ subschemas v) schema s

/-- A schema of objects. -/
def IsObjectSchema : Value → Prop
  | .obj members =>
    match members.lookup (ascii "type") with
    | some (.arr types) => ∃ type ∈ types, isString "object" (some type)
    | type => isString "object" type
  | _ => False

/-- The names of the properties of an object schema. -/
def propertyNames (members : List (Text × Value)) : List Text :=
  match members.lookup (ascii "properties") with
  | some (.obj props) => props.map Prod.fst
  | _ => []

/-- No other properties, and all of them are required. -/
def IsStrict : Value → Prop
  | .obj members => members.lookup (ascii "additionalProperties") = some (.bool false) ∧
      ∀ name ∈ propertyNames members, .str name ∈ elements (members.lookup (ascii "required"))
  | _ => False

/-- Every object schema within a schema is strict. -/
def StrictThroughout (schema : Value) : Prop :=
  ∀ s, Within schema s → IsObjectSchema s → IsStrict s

/-! ### What is visited -/

/-- What `walk` goes into. -/
def visits : Value → List Value
  | .arr elems => elems
  | .obj members =>
    match properties? members with
    | some props => props.map Prod.snd
    | none => (items? members).toList
  | _ => []

/-- `walk` comes from a value to another. -/
def Visited (schema s : Value) : Prop :=
  Relation.ReflTransGen (fun v w ↦ w ∈ visits v) schema s

/-- The value is taken for an object schema and rewritten. -/
def Rewritten : Value → Prop
  | .obj members => (properties? members).isSome
  | _ => False

/-- The schemas of a schema that `walk` does not go into. -/
def passedOver : Value → List Value
  | .obj members =>
    (match properties? members with
      | some _ => itemSchemas (members.lookup (ascii "items"))
      | none => memberValues (members.lookup (ascii "properties")) ++
          if (items? members).isSome then [] else itemSchemas (members.lookup (ascii "items"))) ++
      otherSchemas members
  | _ => []

/-- What is not rewritten is strict already. -/
def Ready (schema : Value) : Prop :=
  ∀ s, Visited schema s → (¬Rewritten s → IsObjectSchema s → IsStrict s) ∧
    ∀ w ∈ passedOver s, StrictThroughout w

/-- No property that is visited is named `__proto__`. -/
def NoProto (schema : Value) : Prop :=
  ∀ members, Visited schema (.obj members) → ∀ props, properties? members = some props →
    ascii "__proto__" ∉ props.map Prod.fst

variable {left : ℕ} {v v' w' schema out s s' : Value}
  {members members' props walked : List (Text × Value)} {elems : List Value}

theorem visits_of_properties (h : properties? members = some props) :
    visits (.obj members) = props.map Prod.snd := by
  simp only [visits, h]

theorem visits_of_items (h : properties? members = none) :
    visits (.obj members) = (items? members).toList := by
  simp only [visits, h]

theorem passedOver_of_properties (h : properties? members = some props) :
    passedOver (.obj members) =
      itemSchemas (members.lookup (ascii "items")) ++ otherSchemas members := by
  simp only [passedOver, h]

theorem passedOver_of_items {items : Value} (h : properties? members = none)
    (hitems : items? members = some items) : passedOver (.obj members) =
      memberValues (members.lookup (ascii "properties")) ++ otherSchemas members := by
  simp [passedOver, h, hitems]

theorem passedOver_of_none (h : properties? members = none) (hitems : items? members = none) :
    passedOver (.obj members) = subschemas (.obj members) := by
  simp [passedOver, subschemas, h, hitems]

/-! ### Rewritten members -/

theorem lookup_additionalProperties : (strictMembers members props walked).lookup
    (ascii "additionalProperties") = some (.bool false) := by
  rw [strictMembers, Members.lookup_set_of_ne (by decide), Members.lookup_set_of_ne (by decide),
    Members.lookup_set_self]

theorem lookup_required : (strictMembers members props walked).lookup (ascii "required") =
    some (.arr (props.map fun p ↦ .str p.1)) := by
  rw [strictMembers, Members.lookup_set_of_ne (by decide), Members.lookup_set_self]

theorem lookup_properties : (strictMembers members props walked).lookup (ascii "properties") =
    some (.obj (newProps walked)) :=
  Members.lookup_set_self

theorem lookup_strictMembers {key : Text} (hadditional : key ≠ ascii "additionalProperties")
    (hrequired : key ≠ ascii "required") (hproperties : key ≠ ascii "properties") :
    (strictMembers members props walked).lookup key = members.lookup key := by
  rw [strictMembers, Members.lookup_set_of_ne hproperties, Members.lookup_set_of_ne hrequired,
    Members.lookup_set_of_ne hadditional]

theorem isObject_of_properties? (h : properties? members = some props) :
    isString "object" (members.lookup (ascii "type")) = true := by
  unfold properties? at h
  split_ifs at h with htype
  exact htype

theorem properties?_strictMembers (h : properties? members = some props) :
    properties? (strictMembers members props walked) = some (newProps walked) := by
  rw [properties?, lookup_properties,
    lookup_strictMembers (by decide) (by decide) (by decide), if_pos (isObject_of_properties? h)]
  rfl

theorem otherSchemas_congr (h : ∀ keyword ∈ listKeywords ++ nameKeywords,
    members'.lookup (ascii keyword) = members.lookup (ascii keyword)) :
    otherSchemas members' = otherSchemas members := by
  unfold otherSchemas
  congr 1
  · exact List.flatMap_congr fun keyword hkeyword ↦ by
      rw [h keyword (List.mem_append_left _ hkeyword)]
  · exact List.flatMap_congr fun keyword hkeyword ↦ by
      rw [h keyword (List.mem_append_right _ hkeyword)]

theorem otherSchemas_strictMembers :
    otherSchemas (strictMembers members props walked) = otherSchemas members := by
  refine otherSchemas_congr fun keyword hkeyword ↦ lookup_strictMembers ?_ ?_ ?_ <;>
    revert keyword <;> decide

theorem isStrict_strictMembers (h : props.map Prod.fst = walked.map Prod.fst) :
    IsStrict (.obj (strictMembers members props walked)) := by
  refine ⟨lookup_additionalProperties, fun name hname ↦ ?_⟩
  rw [propertyNames, lookup_properties] at hname
  rw [lookup_required]
  have hmem : name ∈ props.map Prod.fst := by
    rw [h]
    exact List.map_subset _ List.filter_sublist.subset hname
  obtain ⟨p, hp, rfl⟩ := List.mem_map.1 hmem
  exact List.mem_map.2 ⟨p, hp, rfl⟩

/-! ### Items -/

theorem lookup_set_items {key : Text} {items : Value} (h : key ≠ ascii "items") :
    (Members.set members (ascii "items") items).lookup key = members.lookup key :=
  Members.lookup_set_of_ne h

theorem properties?_set_items {items : Value} :
    properties? (Members.set members (ascii "items") items) = properties? members := by
  rw [properties?, lookup_set_items (by decide), lookup_set_items (by decide), properties?]

theorem items?_set_items {items items' : Value} (h : items? members = some items)
    (htruthy : truthy (some items') = true) :
    items? (Members.set members (ascii "items") items') = some items' := by
  unfold items? at h ⊢
  rw [Members.lookup_set_self, lookup_set_items (by decide)]
  dsimp only at h ⊢
  split_ifs at h with htype
  rw [Bool.and_eq_true] at htype
  rw [htype.1, htruthy]
  rfl

theorem lookup_items_of_items? {items : Value} (h : items? members = some items) :
    members.lookup (ascii "items") = some items ∧ truthy (some items) = true := by
  unfold items? at h
  dsimp only at h
  split_ifs at h with htype
  rw [Bool.and_eq_true, h] at htype
  exact ⟨h, htype.2⟩

theorem otherSchemas_set_items {items : Value} :
    otherSchemas (Members.set members (ascii "items") items) = otherSchemas members := by
  refine otherSchemas_congr fun keyword hkeyword ↦ lookup_set_items ?_
  revert keyword
  decide

theorem isObjectSchema_set_items {items : Value} :
    IsObjectSchema (.obj (Members.set members (ascii "items") items)) ↔
      IsObjectSchema (.obj members) := by
  simp only [IsObjectSchema]
  rw [lookup_set_items (by decide)]

theorem isStrict_set_items {items : Value} :
    IsStrict (.obj (Members.set members (ascii "items") items)) ↔ IsStrict (.obj members) := by
  simp only [IsStrict, propertyNames]
  rw [lookup_set_items (by decide), lookup_set_items (by decide), lookup_set_items (by decide)]

/-! ### One level -/

/-- A walk over the elements of an array. -/
theorem walk_arr (h : walk left (.arr elems) = .ok v') : ∃ left' elems', left = left' + 1 ∧
    v' = .arr elems' ∧ List.Forall₂ (fun v w ↦ walk left' v = .ok w) elems elems' := by
  cases left with
  | zero => cases h
  | succ left =>
    obtain ⟨elems', helems, h⟩ := Except.bind_ok h
    cases h
    exact ⟨left, elems', rfl, rfl, Except.mapM_eq_ok.1 helems⟩

/-- A walk over an object: over its properties, over its items, or over nothing. -/
theorem walk_obj (h : walk left (.obj members) = .ok v') : ∃ left', left = left' + 1 ∧
    ((∃ props walked, properties? members = some props ∧
      List.Forall₂ (fun p q ↦ q.1 = p.1 ∧ walk left' p.2 = .ok q.2) props walked ∧
        v' = .obj (strictMembers members props walked)) ∨
    (properties? members = none ∧ ∃ items items', items? members = some items ∧
      walk left' items = .ok items' ∧ v' = .obj (Members.set members (ascii "items") items')) ∨
    (properties? members = none ∧ items? members = none ∧ v' = .obj members)) := by
  cases left with
  | zero => cases h
  | succ left =>
    refine ⟨left, rfl, ?_⟩
    rw [walk] at h
    cases hprops : properties? members with
    | some props =>
      rw [hprops] at h
      obtain ⟨walked, hwalked, h⟩ := Except.bind_ok h
      cases h
      refine .inl ⟨props, walked, rfl, (Except.mapM_eq_ok.1 hwalked).imp fun p q hpq ↦ ?_, rfl⟩
      obtain ⟨w, hw, hpq⟩ := Except.bind_ok hpq
      cases hpq
      exact ⟨rfl, hw⟩
    | none =>
      rw [hprops] at h
      dsimp only at h
      cases hitems : items? members with
      | some items =>
        rw [hitems] at h
        obtain ⟨items', hwalk, h⟩ := Except.bind_ok h
        cases h
        exact .inr (.inl ⟨rfl, items, items', rfl, hwalk, rfl⟩)
      | none =>
        rw [hitems] at h
        cases h
        exact .inr (.inr ⟨rfl, rfl, rfl⟩)

/-- What is neither an array nor an object is left as it is. -/
theorem walk_primitive (harr : ∀ elems, v ≠ .arr elems) (hobj : ∀ members, v ≠ .obj members)
    (h : walk left v = .ok v') : v' = v := by
  cases left with
  | zero => cases h
  | succ left =>
    cases v with
    | arr elems => exact absurd rfl (harr elems)
    | obj members => exact absurd rfl (hobj members)
    | null | bool | num | str =>
      cases h
      rfl

theorem truthy_walk (h : walk left v = .ok v') (hv : truthy (some v) = true) :
    truthy (some v') = true := by
  cases v with
  | arr elems =>
    obtain ⟨_, elems', -, rfl, -⟩ := walk_arr h
    rfl
  | obj members =>
    obtain ⟨_, -, ⟨_, _, -, -, rfl⟩ | ⟨-, _, _, -, -, rfl⟩ | ⟨-, -, rfl⟩⟩ := walk_obj h
    all_goals rfl
  | null | bool | num | str => rwa [walk_primitive (by simp) (by simp) h]

theorem map_fst_eq {walk' : Value → Except SchemaNormalizationError Value}
    (h : List.Forall₂ (fun p q : Text × Value ↦ q.1 = p.1 ∧ walk' p.2 = .ok q.2) props walked) :
    props.map Prod.fst = walked.map Prod.fst := by
  induction h with
  | nil => rfl
  | cons hpq _ ih => rw [List.map_cons, List.map_cons, hpq.1, ih]

/-- What is visited in a walked value was walked. -/
theorem exists_of_mem_visits (h : walk left v = .ok v') (hw : w' ∈ visits v') :
    ∃ w ∈ visits v, ∃ left', walk left' w = .ok w' := by
  cases v with
  | arr elems =>
    obtain ⟨left', elems', -, rfl, hall⟩ := walk_arr h
    obtain ⟨w, hmem, hwalk⟩ := hall.exists_of_mem_right hw
    exact ⟨w, hmem, left', hwalk⟩
  | obj members =>
    obtain ⟨left', -, ⟨props, walked, hprops, hall, rfl⟩ |
      ⟨hprops, items, items', hitems, hwalk, rfl⟩ | ⟨hprops, hitems, rfl⟩⟩ := walk_obj h
    · rw [visits_of_properties (properties?_strictMembers hprops)] at hw
      obtain ⟨q, hq, rfl⟩ := List.mem_map.1 hw
      obtain ⟨p, hp, -, hwalk⟩ := hall.exists_of_mem_right (List.mem_of_mem_filter hq)
      rw [visits_of_properties hprops]
      exact ⟨p.2, List.mem_map_of_mem hp, left', hwalk⟩
    · have htruthy := (lookup_items_of_items? hitems).2
      rw [visits_of_items (properties?_set_items.trans hprops),
        items?_set_items hitems (truthy_walk hwalk htruthy)] at hw
      obtain rfl := List.mem_singleton.1 hw
      rw [visits_of_items hprops, hitems]
      exact ⟨items, List.mem_singleton_self items, left', hwalk⟩
    · rw [visits_of_items hprops, hitems] at hw
      cases hw
  | null | bool | num | str =>
    rw [walk_primitive (by simp) (by simp) h] at hw
    cases hw

/-- The schemas under walked items were walked. -/
theorem exists_of_mem_itemSchemas (h : walk left v = .ok v') (hw : w' ∈ itemSchemas (some v')) :
    ∃ w, Visited v w ∧ ∃ left', walk left' w = .ok w' := by
  cases v with
  | arr elems =>
    obtain ⟨left', elems', -, rfl, hall⟩ := walk_arr h
    obtain ⟨w, hmem, hwalk⟩ := hall.exists_of_mem_right hw
    exact ⟨w, .single hmem, left', hwalk⟩
  | obj members =>
    obtain ⟨_, -, ⟨_, _, -, -, rfl⟩ | ⟨-, _, _, -, -, rfl⟩ | ⟨-, -, rfl⟩⟩ := walk_obj h
    all_goals
      obtain rfl := List.mem_singleton.1 hw
      exact ⟨_, .refl, left, h⟩
  | null | bool | num | str =>
    obtain rfl := walk_primitive (by simp) (by simp) h
    obtain rfl := List.mem_singleton.1 hw
    exact ⟨_, .refl, left, h⟩

/-- A schema of a walked value was walked, or `walk` did not go into it. -/
theorem exists_of_mem_subschemas (h : walk left v = .ok v') (hw : w' ∈ subschemas v') :
    (∃ w, Visited v w ∧ ∃ left', walk left' w = .ok w') ∨ w' ∈ passedOver v := by
  cases v with
  | arr elems =>
    obtain ⟨_, _, -, rfl, -⟩ := walk_arr h
    cases hw
  | obj members =>
    obtain ⟨left', -, ⟨props, walked, hprops, hall, rfl⟩ |
      ⟨hprops, items, items', hitems, hwalk, rfl⟩ | ⟨hprops, hitems, rfl⟩⟩ := walk_obj h
    · rw [subschemas, lookup_properties, lookup_strictMembers (by decide) (by decide) (by decide),
        otherSchemas_strictMembers, List.append_assoc] at hw
      rcases List.mem_append.1 hw with hw | hw
      · obtain ⟨q, hq, rfl⟩ := List.mem_map.1 hw
        obtain ⟨p, hp, -, hwalk⟩ := hall.exists_of_mem_right (List.mem_of_mem_filter hq)
        refine .inl ⟨p.2, .single ?_, left', hwalk⟩
        rw [visits_of_properties hprops]
        exact List.mem_map_of_mem hp
      · exact .inr (by rwa [passedOver_of_properties hprops])
    · rw [subschemas, Members.lookup_set_self, lookup_set_items (by decide),
        otherSchemas_set_items, List.append_assoc, List.mem_append, List.mem_append] at hw
      rcases hw with hw | hw | hw
      · exact .inr (by rw [passedOver_of_items hprops hitems]; exact List.mem_append_left _ hw)
      · obtain ⟨w, hvisited, hwalk⟩ := exists_of_mem_itemSchemas hwalk hw
        refine .inl ⟨w, .head ?_ hvisited, hwalk⟩
        rw [visits_of_items hprops, hitems]
        exact List.mem_singleton_self items
      · exact .inr (by rw [passedOver_of_items hprops hitems]; exact List.mem_append_right _ hw)
    · exact .inr (by rwa [passedOver_of_none hprops hitems])
  | null | bool | num | str =>
    rw [walk_primitive (by simp) (by simp) h] at hw
    cases hw

/-- What was walked is strict when it is rewritten, and as strict as it was when it is not. -/
theorem isStrict_of_walk (h : walk left v = .ok v') (hobject : IsObjectSchema v') :
    IsStrict v' ∨ ¬Rewritten v ∧ IsObjectSchema v ∧ (IsStrict v → IsStrict v') := by
  cases v with
  | arr elems =>
    obtain ⟨_, _, -, rfl, -⟩ := walk_arr h
    cases hobject
  | obj members =>
    obtain ⟨left', -, ⟨props, walked, hprops, hall, rfl⟩ |
      ⟨hprops, items, items', hitems, hwalk, rfl⟩ | ⟨hprops, hitems, rfl⟩⟩ := walk_obj h
    · exact .inl (isStrict_strictMembers (map_fst_eq hall))
    · exact .inr ⟨by simp [Rewritten, hprops], isObjectSchema_set_items.1 hobject,
        isStrict_set_items.2⟩
    · exact .inr ⟨by simp [Rewritten, hprops], hobject, id⟩
  | null | bool | num | str =>
    rw [walk_primitive (by simp) (by simp) h] at hobject
    cases hobject

/-- What is rewritten again was rewritten. -/
theorem isStrict_of_rewritten (h : walk left v = .ok v') (hrewritten : Rewritten v') :
    IsStrict v' := by
  cases v with
  | arr elems =>
    obtain ⟨_, _, -, rfl, -⟩ := walk_arr h
    cases hrewritten
  | obj members =>
    obtain ⟨left', -, ⟨props, walked, hprops, hall, rfl⟩ |
      ⟨hprops, items, items', hitems, hwalk, rfl⟩ | ⟨hprops, hitems, rfl⟩⟩ := walk_obj h
    · exact isStrict_strictMembers (map_fst_eq hall)
    · simp [Rewritten, properties?_set_items, hprops] at hrewritten
    · simp [Rewritten, hprops] at hrewritten
  | null | bool | num | str =>
    rw [walk_primitive (by simp) (by simp) h] at hrewritten
    cases hrewritten

/-! ### All levels -/

/-- What is visited in the output was walked. -/
theorem exists_of_visited (h : walk left schema = .ok out) (hs : Visited out s') :
    ∃ s, Visited schema s ∧ ∃ left', walk left' s = .ok s' := by
  induction hs with
  | refl => exact ⟨schema, .refl, left, h⟩
  | tail _ hmem ih =>
    obtain ⟨s, hvisited, left', hwalk⟩ := ih
    obtain ⟨w, hw, hwalk'⟩ := exists_of_mem_visits hwalk hmem
    exact ⟨w, hvisited.tail hw, hwalk'⟩

/-- A schema within the output was walked, or it stands where `walk` did not go. -/
theorem exists_of_within (h : walk left schema = .ok out) (hs : Within out s') :
    (∃ s, Visited schema s ∧ ∃ left', walk left' s = .ok s') ∨
      ∃ s, Visited schema s ∧ ∃ w ∈ passedOver s, Within w s' := by
  induction hs with
  | refl => exact .inl ⟨schema, .refl, left, h⟩
  | tail _ hmem ih =>
    rcases ih with ⟨s, hvisited, left', hwalk⟩ | ⟨s, hvisited, w, hpassed, hwithin⟩
    · rcases exists_of_mem_subschemas hwalk hmem with ⟨w, hw, hwalk'⟩ | hpassed
      · exact .inl ⟨w, hvisited.trans hw, hwalk'⟩
      · exact .inr ⟨s, hvisited, _, hpassed, .refl⟩
    · exact .inr ⟨s, hvisited, w, hpassed, hwithin.tail hmem⟩

/-- **The output is strict throughout** when what is not rewritten is strict already. -/
theorem strictThroughout_of_ready (h : walk left schema = .ok out) (hready : Ready schema) :
    StrictThroughout out := by
  intro s' hwithin hobject
  rcases exists_of_within h hwithin with ⟨s, hvisited, left', hwalk⟩ | ⟨s, hvisited, w, hpassed, hw⟩
  · rcases isStrict_of_walk hwalk hobject with hstrict | ⟨hkept, hobject', hstrict⟩
    · exact hstrict
    · exact hstrict ((hready s hvisited).1 hkept hobject')
  · exact (hready s hvisited).2 w hpassed s' hw hobject

/-! ### Once more -/

theorem containsSelfRef_arr : containsSelfRef (.arr elems) = false ↔
    ∀ v ∈ elems, containsSelfRef v = false := by
  rw [containsSelfRef]
  induction elems with
  | nil => simp [someSelfRef]
  | cons v rest ih => rw [someSelfRef, Bool.or_eq_false_iff, ih, List.forall_mem_cons]

theorem containsSelfRef_obj : containsSelfRef (.obj members) = false ↔
    isString "#" (members.lookup (ascii "$ref")) = false ∧
      ∀ p ∈ members, containsSelfRef p.2 = false := by
  have hsome : ∀ rest, someMemberSelfRef rest = false ↔
      ∀ p ∈ rest, containsSelfRef p.2 = false := by
    intro rest
    induction rest with
    | nil => simp [someMemberSelfRef]
    | cons p rest ih =>
      rw [someMemberSelfRef, pairSelfRef, Bool.or_eq_false_iff, ih, List.forall_mem_cons]
  rw [containsSelfRef, Bool.or_eq_false_iff, hsome]

/-- No index is spelled like a reference. -/
theorem indexKey_ne_ref (i : ℕ) : indexKey i ≠ ascii "$ref" := by
  intro h
  have hdollar : ascii "$" ⊆ indexKey i := by
    rw [h]
    decide
  obtain ⟨d, -, hd⟩ := List.mem_map.1 (hdollar (List.mem_singleton_self _))
  revert d
  decide

theorem containsSelfRef_entries (h : entries? (some v) = some props)
    (hself : containsSelfRef v = false) : containsSelfRef (.obj props) = false := by
  cases v with
  | arr elems =>
    cases h
    refine containsSelfRef_obj.2 ⟨?_, fun p hp ↦ ?_⟩
    · rw [List.lookup_eq_none_iff.2]
      · rfl
      · intro p hp
        obtain ⟨i, hi, rfl⟩ := List.mem_mapIdx.1 hp
        exact bne_iff_ne.2 (indexKey_ne_ref i).symm
    · obtain ⟨i, hi, rfl⟩ := List.mem_mapIdx.1 hp
      exact containsSelfRef_arr.1 hself _ (List.getElem_mem hi)
  | obj members =>
    cases h
    exact hself
  | null | bool | num | str => cases h

theorem mem_of_properties? (h : properties? members = some props) :
    ∃ v, (ascii "properties", v) ∈ members ∧ entries? (some v) = some props := by
  unfold properties? at h
  split_ifs at h with htype
  cases hv : members.lookup (ascii "properties") with
  | none =>
    rw [hv] at h
    cases h
  | some v =>
    rw [hv] at h
    exact ⟨v, Members.mem_of_lookup hv, h⟩

theorem isText_walk {name : String} (h : walk left v = .ok v')
    (hv : isString name (some v) = false) : isString name (some v') = false := by
  cases v with
  | arr elems =>
    obtain ⟨_, _, -, rfl, -⟩ := walk_arr h
    rfl
  | obj members =>
    obtain ⟨_, -, ⟨_, _, -, -, rfl⟩ | ⟨-, _, _, -, -, rfl⟩ | ⟨-, -, rfl⟩⟩ := walk_obj h
    all_goals rfl
  | null | bool | num | str => rwa [walk_primitive (by simp) (by simp) h]

/-- A walk adds no reference to the whole schema. -/
theorem containsSelfRef_walk (h : walk left v = .ok v') (hself : containsSelfRef v = false) :
    containsSelfRef v' = false := by
  induction left generalizing v v' with
  | zero => cases h
  | succ left ih =>
    cases v with
    | arr elems =>
      obtain ⟨left', elems', hleft, rfl, hall⟩ := walk_arr h
      obtain rfl := Nat.succ.inj hleft
      refine containsSelfRef_arr.2 fun w' hw' ↦ ?_
      obtain ⟨w, hw, hwalk⟩ := hall.exists_of_mem_right hw'
      exact ih hwalk (containsSelfRef_arr.1 hself w hw)
    | obj members =>
      obtain ⟨href, hmembers⟩ := containsSelfRef_obj.1 hself
      obtain ⟨left', hleft, ⟨props, walked, hprops, hall, rfl⟩ |
        ⟨hprops, items, items', hitems, hwalk, rfl⟩ | ⟨hprops, hitems, rfl⟩⟩ := walk_obj h
      · obtain rfl := Nat.succ.inj hleft
        obtain ⟨v, hv, hentries⟩ := mem_of_properties? hprops
        obtain ⟨hpropsRef, hpropsSelf⟩ :=
          containsSelfRef_obj.1 (containsSelfRef_entries hentries (hmembers _ hv))
        -- what is walked under `$ref` is a text only if it was one
        have hwalked : containsSelfRef (.obj (newProps walked)) = false := by
          refine containsSelfRef_obj.2 ⟨?_, fun q hq ↦ ?_⟩
          · have hkept : ascii "$ref" ≠ ascii "__proto__" := by decide
            rw [newProps, Members.lookup_filter fun _ ↦ decide_eq_true hkept]
            cases hw : walked.lookup (ascii "$ref") with
            | none => rfl
            | some w =>
              obtain ⟨v, hv, hwalk⟩ := Members.exists_lookup_of_forall₂
                (fun v w ↦ walk left v = .ok w) hall hw
              rw [hv] at hpropsRef
              exact isText_walk hwalk hpropsRef
          · obtain ⟨p, hp, -, hwalk⟩ := hall.exists_of_mem_right (List.mem_of_mem_filter hq)
            exact ih hwalk (hpropsSelf p hp)
        refine containsSelfRef_obj.2 ⟨?_, fun p hp ↦ ?_⟩
        · rwa [lookup_strictMembers (by decide) (by decide) (by decide)]
        · rcases Members.mem_of_mem_set hp with hp | rfl
          · rcases Members.mem_of_mem_set hp with hp | rfl
            · rcases Members.mem_of_mem_set hp with hp | rfl
              · exact hmembers p hp
              · rfl
            · refine containsSelfRef_arr.2 fun w hw ↦ ?_
              obtain ⟨p, -, rfl⟩ := List.mem_map.1 hw
              rfl
          · exact hwalked
      · obtain rfl := Nat.succ.inj hleft
        have hmem := Members.mem_of_lookup (lookup_items_of_items? hitems).1
        refine containsSelfRef_obj.2 ⟨by rwa [lookup_set_items (by decide)], fun p hp ↦ ?_⟩
        rcases Members.mem_of_mem_set hp with hp | rfl
        · exact hmembers p hp
        · exact ih hwalk (hmembers _ hmem)
      · exact hself
    | null | bool | num | str =>
      rwa [walk_primitive (by simp) (by simp) h]

theorem newProps_eq_self (h : ascii "__proto__" ∉ walked.map Prod.fst) : newProps walked = walked :=
  List.filter_eq_self.2 fun q hq ↦ decide_eq_true fun heq ↦
    h (List.mem_map.2 ⟨q, hq, heq⟩)

theorem strictMembers_again (hkeys : props.map Prod.fst = walked.map Prod.fst) :
    strictMembers (strictMembers members props walked) walked walked =
      strictMembers members props walked := by
  have hrequired : (walked.map fun p ↦ Value.str p.1) = props.map fun p ↦ Value.str p.1 := by
    have hnames := congrArg (List.map Value.str) hkeys
    rw [List.map_map, List.map_map] at hnames
    exact hnames.symm
  generalize hm : strictMembers members props walked = m
  have hadditional := @lookup_additionalProperties members props walked
  have hreq := @lookup_required members props walked
  have hprops := @lookup_properties members props walked
  rw [hm] at hadditional hreq hprops
  rw [strictMembers, Members.set_of_lookup hadditional, hrequired, Members.set_of_lookup hreq,
    Members.set_of_lookup hprops]

/-- **What was walked is a fixed point**, when no property gets lost. -/
theorem walk_walk (h : walk left v = .ok v') (hproto : NoProto v) : walk left v' = .ok v' := by
  induction left generalizing v v' with
  | zero => cases h
  | succ left ih =>
    have hproto' : ∀ w ∈ visits v, NoProto w :=
      fun w hw members hvisited ↦ hproto members (.head hw hvisited)
    cases v with
    | arr elems =>
      obtain ⟨left', elems', hleft, rfl, hall⟩ := walk_arr h
      obtain rfl := Nat.succ.inj hleft
      refine Except.ok_bind (Except.mapM_eq_ok.2 (List.forall₂_same.2 fun w' hw' ↦ ?_)) rfl
      obtain ⟨w, hw, hwalk⟩ := hall.exists_of_mem_right hw'
      exact ih hwalk (hproto' w hw)
    | obj members =>
      obtain ⟨left', hleft, ⟨props, walked, hprops, hall, rfl⟩ |
        ⟨hprops, items, items', hitems, hwalk, rfl⟩ | ⟨hprops, hitems, rfl⟩⟩ := walk_obj h
      · obtain rfl := Nat.succ.inj hleft
        have hkeys := map_fst_eq hall
        have hfree : newProps walked = walked :=
          newProps_eq_self (hkeys ▸ hproto members .refl props hprops)
        have hagain : walked.mapM (fun p ↦ do return (p.1, ← walk left p.2)) = .ok walked := by
          refine Except.mapM_eq_ok.2 (List.forall₂_same.2 fun q hq ↦ ?_)
          obtain ⟨p, hp, -, hwalk⟩ := hall.exists_of_mem_right hq
          refine Except.ok_bind (ih hwalk (hproto' p.2 ?_)) rfl
          rw [visits_of_properties hprops]
          exact List.mem_map_of_mem hp
        rw [walk, properties?_strictMembers hprops, hfree]
        dsimp only
        rw [hagain]
        exact congrArg (fun m ↦ Except.ok (Value.obj m)) (strictMembers_again hkeys)
      · obtain rfl := Nat.succ.inj hleft
        have htruthy := truthy_walk hwalk (lookup_items_of_items? hitems).2
        have hagain : walk left items' = .ok items' := by
          refine ih hwalk (hproto' items ?_)
          rw [visits_of_items hprops, hitems]
          exact List.mem_singleton_self items
        rw [walk, properties?_set_items, hprops]
        dsimp only
        rw [items?_set_items hitems htruthy]
        dsimp only
        rw [hagain]
        exact congrArg (fun m ↦ Except.ok (Value.obj m))
          (Members.set_of_lookup Members.lookup_set_self)
      · exact h
    | null | bool | num | str =>
      obtain rfl := walk_primitive (by simp) (by simp) h
      exact h

theorem lookup_anyOf_walk (h : walk left (.obj members) = .ok v') : ∃ members', v' = .obj members' ∧
    members'.lookup (ascii "anyOf") = members.lookup (ascii "anyOf") := by
  obtain ⟨_, -, ⟨_, _, -, -, rfl⟩ | ⟨-, _, _, -, -, rfl⟩ | ⟨-, -, rfl⟩⟩ := walk_obj h
  · exact ⟨_, rfl, lookup_strictMembers (by decide) (by decide) (by decide)⟩
  · exact ⟨_, rfl, lookup_set_items (by decide)⟩
  · exact ⟨_, rfl, rfl⟩

/-- What a schema was that is accepted. -/
theorem normalizeSchema_eq_ok (h : normalizeSchema members = .ok out) :
    isArray (members.lookup (ascii "anyOf")) = false ∧ containsSelfRef (.obj members) = false ∧
      walk (MAX_DEPTH + 1) (.obj members) = .ok out := by
  unfold normalizeSchema at h
  dsimp only at h
  split_ifs at h with hsize hanyOf hself
  exact ⟨Bool.eq_false_iff.2 hanyOf, Bool.eq_false_iff.2 hself, h⟩

/-- **Strict where `walk` goes.** What is rewritten is strict; the output is strict throughout when
the rest of the schema is already; and it is normalized into itself unless it has become too large.
-/
theorem normalizeSchema_strict (h : normalizeSchema members = .ok out) :
    (∀ s, Visited out s → Rewritten s → IsStrict s) ∧
    (Ready (.obj members) → StrictThroughout out) ∧
    (NoProto (.obj members) → ∃ members', out = .obj members' ∧ normalizeSchema members' =
      if MAX_SIZE_BYTES < (stringify.text out).length then
        .error (.tooLarge (stringify.text out).length)
      else .ok out) := by
  obtain ⟨hanyOf, hself, hwalk⟩ := normalizeSchema_eq_ok h
  refine ⟨fun s hvisited hrewritten ↦ ?_, strictThroughout_of_ready hwalk, fun hproto ↦ ?_⟩
  · obtain ⟨_, -, _, hs⟩ := exists_of_visited hwalk hvisited
    exact isStrict_of_rewritten hs hrewritten
  · obtain ⟨members', rfl, hlookup⟩ := lookup_anyOf_walk hwalk
    refine ⟨members', rfl, ?_⟩
    unfold normalizeSchema
    rw [hlookup, hanyOf, containsSelfRef_walk hwalk hself, walk_walk hwalk hproto]
    rfl

/-- What is visited is among values that hold the first one and what is visited from each. -/
theorem mem_of_visited {l : List Value} (hclosed : ∀ v ∈ l, ∀ w ∈ visits v, w ∈ l)
    (hmem : schema ∈ l) (hs : Visited schema s) : s ∈ l := by
  induction hs with
  | refl => exact hmem
  | tail _ hw ih => exact hclosed _ ih _ hw

/-- A schema of texts. -/
def nameSchema : Value :=
  .obj [(ascii "type", .str (ascii "string"))]

/-- A schema of objects with a name. -/
def namedSchema : List (Text × Value) :=
  [(ascii "type", .str (ascii "object")), (ascii "properties", .obj [(ascii "name", nameSchema)])]

/-- A schema of lists of them. -/
def listSchema (named : List (Text × Value)) : Value :=
  .obj [(ascii "type", .str (ascii "array")), (ascii "items", .obj named)]

/-- A schema of objects with such a list. -/
def nestedSchema : List (Text × Value) :=
  [(ascii "type", .str (ascii "object")),
    (ascii "properties", .obj [(ascii "list", listSchema namedSchema)])]

/-- What is made of the objects with a name. -/
def namedStrict : List (Text × Value) :=
  namedSchema ++ [(ascii "additionalProperties", .bool false),
    (ascii "required", .arr [.str (ascii "name")])]

/-- What is made of the objects with a list. -/
def nestedStrict : List (Text × Value) :=
  [(ascii "type", .str (ascii "object")),
    (ascii "properties", .obj [(ascii "list", listSchema namedStrict)]),
    (ascii "additionalProperties", .bool false), (ascii "required", .arr [.str (ascii "list")])]

theorem visited_nestedSchema (hs : Visited (.obj nestedSchema) s) :
    s ∈ [.obj nestedSchema, listSchema namedSchema, .obj namedSchema, nameSchema] := by
  refine mem_of_visited ?_ (List.Mem.head _) hs
  simp only [List.forall_mem_cons]
  refine ⟨?_, ?_, ?_, ?_, fun _ h ↦ by cases h⟩
  · exact fun w hw ↦ List.mem_singleton.1 hw ▸ .tail _ (.head _)
  · exact fun w hw ↦ List.mem_singleton.1 hw ▸ .tail _ (.tail _ (.head _))
  · exact fun w hw ↦ List.mem_singleton.1 hw ▸ .tail _ (.tail _ (.tail _ (.head _)))
  · exact fun w hw ↦ by cases hw

theorem normalizeSchema_nestedSchema :
    normalizeSchema nestedSchema = .ok (.obj nestedStrict) := by
  have hsize : ¬MAX_SIZE_BYTES < (stringify.text (.obj nestedSchema)).length := by decide +kernel
  have hwalk : walk (MAX_DEPTH + 1) (.obj nestedSchema) = .ok (.obj nestedStrict) := rfl
  have hself : containsSelfRef (.obj nestedSchema) = false := by decide +kernel
  unfold normalizeSchema
  dsimp only
  rw [if_neg hsize, hself, hwalk]
  rfl

/-- Objects with a list of objects, which are both made strict. -/
theorem normalizeSchema_strict_nested : normalizeSchema nestedSchema = .ok (.obj nestedStrict) ∧
    IsStrict (.obj nestedStrict) ∧ IsStrict (.obj namedStrict) ∧
    StrictThroughout (.obj nestedStrict) ∧
    normalizeSchema nestedStrict = .ok (.obj nestedStrict) := by
  obtain ⟨hstrict, hready, hproto⟩ := normalizeSchema_strict normalizeSchema_nestedSchema
  have hlist : visits (.obj nestedStrict) = [listSchema namedStrict] := rfl
  have hnamed : visits (listSchema namedStrict) = [.obj namedStrict] := rfl
  have hvisited : Visited (.obj nestedStrict) (.obj namedStrict) :=
    .head (hlist ▸ List.mem_singleton_self _) (.single (hnamed ▸ List.mem_singleton_self _))
  refine ⟨normalizeSchema_nestedSchema, hstrict _ .refl rfl, hstrict _ hvisited rfl,
    hready fun s hs ↦ ?_, ?_⟩
  · have hall := visited_nestedSchema hs
    have hpassed : ∀ v ∈ [Value.obj nestedSchema, listSchema namedSchema, .obj namedSchema,
        nameSchema], passedOver v = [] := by
      simp only [List.forall_mem_cons]
      exact ⟨rfl, rfl, rfl, rfl, fun _ h ↦ by cases h⟩
    rw [hpassed s hall]
    refine ⟨fun hrewritten hobject ↦ ?_, fun w hw ↦ by cases hw⟩
    simp only [List.mem_cons, List.not_mem_nil, or_false] at hall
    rcases hall with rfl | rfl | rfl | rfl
    · exact absurd rfl hrewritten
    · cases hobject
    · exact absurd rfl hrewritten
    · cases hobject
  · obtain ⟨members, hmembers, hagain⟩ := hproto fun members hs props hprops ↦ by
      have hall := visited_nestedSchema hs
      simp only [List.mem_cons, List.not_mem_nil, or_false] at hall
      rcases hall with h | h | h | h <;> cases h <;> cases hprops <;> decide
    cases hmembers
    have hsize : ¬MAX_SIZE_BYTES < (stringify.text (.obj nestedStrict)).length := by
      decide +kernel
    rw [hagain, if_neg hsize]

/-! ### Where it fails -/

theorem stringify_obj : stringify.text (.obj members) = 0x7B :: [0x2C].intercalate
    (members.map fun p ↦ stringify.memberText (p.1, stringify.text p.2)) ++ [0x7D] := by
  have hsorted : members.insertionSort stringify.KeyLE = members :=
    List.Pairwise.insertionSort_eq (List.pairwise_of_forall fun _ _ ↦ le_refl [])
  rw [Writer.text_obj, hsorted]

/-- A name of so many letters. -/
def longName (n : ℕ) : Text :=
  List.replicate n 0x61

theorem quoteBody_longName (n : ℕ) : quoteBody (longName n) = longName n := by
  induction n with
  | zero => rfl
  | succ n ih =>
    cases n with
    | zero => rfl
    | succ n =>
      unfold longName at ih ⊢
      rw [List.replicate_succ, List.replicate_succ, quoteBody, if_neg (by decide),
        ← List.replicate_succ, ih]
      rfl

theorem length_memberText (key t : Text) :
    (stringify.memberText (key, t)).length = (quoteBody key).length + t.length + 3 := by
  simp [Writer.memberText, Writer.quote, stringify]
  omega

/-- The text of an object, with a comma or a bracket for each of its members. -/
theorem length_stringify_obj {p : Text × Value} : (stringify.text (.obj (p :: members))).length =
    ((p :: members).map fun p ↦
      (quoteBody p.1).length + (stringify.text p.2).length + 4).sum + 1 := by
  have hjoin : ∀ (ts : List Text) (t : Text),
      ([0x2C].intercalate (t :: ts)).length + 1 = ((t :: ts).map fun t ↦ t.length + 1).sum := by
    intro ts
    induction ts with
    | nil => simp
    | cons t' ts ih =>
      intro t
      rw [List.intercalate_cons_cons, List.map_cons, List.sum_cons, ← ih t']
      simp
      omega
  have hmember : ∀ p : Text × Value, (stringify.memberText (p.1, stringify.text p.2)).length + 1 =
      (quoteBody p.1).length + (stringify.text p.2).length + 4 := fun p ↦ by rw [length_memberText]
  rw [stringify_obj, List.length_append, List.length_cons, List.map_cons, hjoin]
  simp only [List.map_cons, List.map_map, Function.comp_def, hmember, List.length_singleton]

theorem length_longName (n : ℕ) : (longName n).length = n :=
  List.length_replicate

/-- A schema of objects with one property of a long name. -/
def wide (n : ℕ) : List (Text × Value) :=
  [(ascii "type", .str (ascii "object")), (ascii "properties", .obj [(longName n, .obj [])])]

/-- What is made of it. -/
def wideStrict (n : ℕ) : List (Text × Value) :=
  [(ascii "type", .str (ascii "object")), (ascii "properties", .obj [(longName n, .obj [])]),
    (ascii "additionalProperties", .bool false), (ascii "required", .arr [.str (longName n)])]

theorem length_wide (n : ℕ) : (stringify.text (.obj (wide n))).length = n + 38 := by
  have htype : (quoteBody (ascii "type")).length + (stringify.text (.str (ascii "object"))).length =
    12 := by decide
  have hproperties : (quoteBody (ascii "properties")).length = 10 := by decide
  have hempty : (stringify.text (.obj [])).length = 2 := rfl
  simp only [wide, length_stringify_obj, List.map_cons, List.map_nil, List.sum_cons, List.sum_nil,
    htype, hproperties, quoteBody_longName, length_longName, hempty]
  omega

theorem length_wideStrict (n : ℕ) :
    (stringify.text (.obj (wideStrict n))).length = 2 * n + 83 := by
  have hwide := length_wide n
  have hfalse : (quoteBody (ascii "additionalProperties")).length +
      (stringify.text (.bool false)).length = 25 := by decide
  have hrequired : (quoteBody (ascii "required")).length = 8 := by decide
  have hnames : (stringify.text (.arr [.str (longName n)])).length = n + 4 := by
    have hname : stringify.text (.str (longName n)) = 0x22 :: longName n ++ [0x22] := by
      show 0x22 :: quoteBody (longName n) ++ [0x22] = _
      rw [quoteBody_longName]
    rw [Writer.text_arr, List.map_singleton, List.intercalate_singleton, hname]
    simp [length_longName]
  simp only [wide, wideStrict, length_stringify_obj, List.map_cons, List.map_nil, List.sum_cons,
    List.sum_nil, hfalse, hrequired, hnames] at hwide ⊢
  omega

theorem longName_ne_proto (n : ℕ) : longName n ≠ ascii "__proto__" := by
  intro h
  have hmem : (0x5F : CodeUnit) ∈ longName n := by
    rw [h]
    decide
  exact absurd (List.eq_of_mem_replicate hmem) (by decide)

theorem walk_wide (n : ℕ) : walk (MAX_DEPTH + 1) (.obj (wide n)) = .ok (.obj (wideStrict n)) := by
  have hprops : newProps [(longName n, Value.obj [])] = [(longName n, .obj [])] :=
    newProps_eq_self (by simpa using (longName_ne_proto n).symm)
  show Except.ok (Value.obj (strictMembers (wide n) [(longName n, .obj [])]
    [(longName n, .obj [])])) = _
  rw [strictMembers, hprops]
  rfl

theorem containsSelfRef_wide (n : ℕ) : containsSelfRef (.obj (wide n)) = false := by
  have hname : containsSelfRef (.obj [(longName n, .obj [])]) = false := by
    refine containsSelfRef_obj.2 ⟨?_, ?_⟩
    · rw [List.lookup_cons]
      cases ascii "$ref" == longName n <;> rfl
    · exact List.forall_mem_singleton.2 rfl
  refine containsSelfRef_obj.2 ⟨rfl, ?_⟩
  exact List.forall_mem_cons.2 ⟨rfl, List.forall_mem_singleton.2 hname⟩

/-- A schema of objects under `anyOf`, in a schema of objects. -/
def withChoice : List (Text × Value) :=
  [(ascii "type", .str (ascii "object")), (ascii "properties", .obj [(ascii "a",
    .obj [(ascii "anyOf", .arr [.obj [(ascii "type", .str (ascii "object"))]])])])]

theorem not_strictThroughout_withChoice :
    ∃ out, normalizeSchema withChoice = .ok out ∧ ¬StrictThroughout out := by
  refine ⟨_, rfl, fun h ↦ ?_⟩
  have hstrict := h (.obj [(ascii "type", .str (ascii "object"))])
    (.head (b := .obj [(ascii "anyOf", .arr [.obj [(ascii "type", .str (ascii "object"))]])])
      (List.Mem.head _) (.single (List.Mem.head _))) rfl
  cases hstrict.1

/-- A schema that is accepted, and refused for its size once it is strict; and one in which the
schema under `anyOf` stays as it is. -/
theorem not_normalizeSchema_everywhere :
    (normalizeSchema (wide 40000) = .ok (.obj (wideStrict 40000)) ∧
      normalizeSchema (wideStrict 40000) = .error (.tooLarge 80083)) ∧
    ∃ out, normalizeSchema withChoice = .ok out ∧ ¬StrictThroughout out := by
  refine ⟨⟨?_, ?_⟩, not_strictThroughout_withChoice⟩
  · unfold normalizeSchema
    dsimp only
    rw [length_wide, containsSelfRef_wide, walk_wide]
    rfl
  · unfold normalizeSchema
    dsimp only
    rw [length_wideStrict]
    rfl

end ModelConnector.Connectors.Codex
