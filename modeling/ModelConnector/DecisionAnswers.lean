import Mathlib.Data.List.Perm.Subperm
import ModelConnector.Connectors.DecisionContract
import ModelConnector.Foundations.EcmaOrder
import ModelConnector.Foundations.Result

/-!
# Complete decisions

What it is for the response of a provider to answer a decision request: it answers exactly the
questions that were asked, and each within its domain (`Answered`). `normalizeDecision` observes
such a response and carries its answers, and carries nothing of any other
(`normalizeDecision_observed`). Neither the order of the questions nor that of the members of the
response makes a difference.
-/

namespace ModelConnector.Connectors.Jev

open Ecma

/-! ### Domains -/

/-- Between 0 and 1. -/
def IsProbability (n : Number) : Prop :=
  0 ≤ n.value ∧ n.value ≤ 1

/-- What a member holds that may be missing. -/
inductive Given {α : Type} (P : Value → α → Prop) : Option Value → Option α → Prop
  | missing : Given P none none
  | given {v : Value} {a : α} : P v a → Given P (some v) (some a)

/-- The members of a record. -/
def recordMembers (members : List (Text × Value)) : List (Text × Value) :=
  members.filter fun p ↦ decide (p.1 ≠ ascii "__proto__")

/-- The value is a record of these probabilities. -/
def IsRecord (v : Value) (probabilities : List (Text × Number)) : Prop :=
  ∃ members, v = .obj members ∧ List.Forall₂ (fun p q ↦ q.1 = p.1 ∧ p.2 = .num q.2 ∧
    IsProbability q.2) (recordMembers members) probabilities

/-- The probabilities are over the options, sum to 1, and are greatest at the choice; a confidence
is the distance of the probability of the choice above the uniform one. -/
structure IsDistribution (options : List Text) (choice : Text) (confidence : Option Number)
    (probabilities : List (Text × Number)) : Prop where
  names : ∀ name, name ∈ probabilities.map Prod.fst ↔ name ∈ options
  sum : |(probabilities.map fun p ↦ p.2.value).sum - 1| ≤ tolerance
  maximal : ∀ selected, (choice, selected) ∈ probabilities →
    ∀ p ∈ probabilities, p.2.value ≤ selected.value + tolerance
  distance : ∀ selected, (choice, selected) ∈ probabilities → ∀ c, confidence = some c →
    |c.value - (selected.value - 1 / options.length) / (1 - 1 / options.length)| ≤ tolerance

/-- A value answers a question within its domain, and this is the answer. -/
inductive IsAnswer : Question → Value → DecisionAnswer → Prop
  | choice {instructions : Text} {criteria : List (Text × Text)} {members : List (Text × Value)}
    {choice : Text} {confidence : Option Number} {probabilities : Option (List (Text × Number))} :
    members.lookup (ascii "choice") = some (.str choice) → choice ∈ criteria.map Prod.fst →
    Given (fun v c ↦ v = .num c ∧ IsProbability c) (members.lookup (ascii "confidence"))
      confidence →
    Given IsRecord (members.lookup (ascii "probabilities")) probabilities →
    (∀ ps, probabilities = some ps → IsDistribution (criteria.map Prod.fst) choice confidence ps) →
      IsAnswer (.choice instructions criteria) (.obj members)
        (.choice choice confidence probabilities)
  | score {instructions : Text} {criteria : List Text} {members : List (Text × Value)}
    {score : Number} : members.lookup (ascii "score") = some (.num score) → 0 ≤ score.value →
    score.value ≤ (criteria.length : ℚ) - 1 →
      IsAnswer (.score instructions criteria) (.obj members) (.score score)
  | noul {instructions : Text} {criteria : Option (Text × Text)} {members : List (Text × Value)}
    {noul : Number} : members.lookup (ascii "noul") = some (.num noul) → IsProbability noul →
      IsAnswer (.noul instructions criteria) (.obj members) (.noul noul)

/-- A response answers the questions that were asked and no others, each within its domain; a model
is named by 1 to 256 units. -/
structure Answered (request : DecisionRequest) (members answered : List (Text × Value))
    (model : Option Text) (answers : List (Text × DecisionAnswer)) : Prop where
  model : Given (fun v s ↦ v = .str s ∧ 1 ≤ s.length ∧ s.length ≤ 256)
    (members.lookup (ascii "model")) model
  record : members.lookup (ascii "answers") = some (.obj answered)
  names : ∀ name, name ∈ (recordMembers answered).map Prod.fst ↔
    name ∈ request.questions.map Prod.fst
  answers : List.Forall₂ (fun p q ↦ q.1 = p.1 ∧ ∃ raw,
    (recordMembers answered).lookup p.1 = some raw ∧ IsAnswer p.2 raw q.2) request.questions answers

variable {α : Type} {v raw : Value} {members answered : List (Text × Value)} {n : Number}
  {q : Question} {a : DecisionAnswer} {request request' : DecisionRequest} {response : Response}
  {answers : List (Text × DecisionAnswer)}

/-! ### Schemas -/

theorem optional?_eq_some {parse : Value → Option α} {P : Value → α → Prop}
    (h : ∀ v a, parse v = some a ↔ P v a) {member : Option Value} {o : Option α} :
    optional? parse member = some o ↔ Given P member o := by
  cases member with
  | none =>
    refine ⟨fun heq ↦ ?_, fun hgiven ↦ ?_⟩
    · cases heq
      exact .missing
    · cases hgiven
      rfl
  | some v =>
    rw [optional?, Option.map_eq_some_iff]
    refine ⟨?_, fun hgiven ↦ ?_⟩
    · rintro ⟨a, ha, rfl⟩
      exact .given ((h v a).1 ha)
    · cases hgiven with
      | given hP => exact ⟨_, (h _ _).2 hP, rfl⟩

theorem number?_eq_some : number? v = some n ↔ v = .num n := by
  cases v <;> simp [number?]

theorem string?_eq_some {s : Text} : string? v = some s ↔ v = .str s := by
  cases v <;> simp [string?]

theorem probability?_eq_some : probability? v = some n ↔ v = .num n ∧ IsProbability n := by
  rw [probability?, Option.filter_eq_some_iff, number?_eq_some, IsProbability]
  simp

theorem model?_eq_some {s : Text} :
    model? v = some s ↔ v = .str s ∧ 1 ≤ s.length ∧ s.length ≤ 256 := by
  rw [model?, Option.filter_eq_some_iff, string?_eq_some]
  simp

theorem record?_eq_some {ps : List (Text × Number)} :
    record? probability? v = some ps ↔ IsRecord v ps := by
  cases v with
  | obj members =>
    have hpair : ∀ (p : Text × Value) (q : Text × Number),
        (probability? p.2).map (fun a ↦ (p.1, a)) = some q ↔
          q.1 = p.1 ∧ p.2 = .num q.2 ∧ IsProbability q.2 := by
      intro p q
      rw [Option.map_eq_some_iff]
      refine ⟨?_, fun h ↦ ⟨q.2, probability?_eq_some.2 h.2, Prod.ext h.1.symm rfl⟩⟩
      rintro ⟨n, hn, rfl⟩
      exact ⟨rfl, probability?_eq_some.1 hn⟩
    rw [record?, Option.mapM_eq_some]
    simp only [hpair]
    exact ⟨fun h ↦ ⟨members, rfl, h⟩, fun ⟨_, heq, h⟩ ↦ by cases heq; exact h⟩
  | null | bool | num | str | arr =>
    refine ⟨fun h ↦ (by cases h), ?_⟩
    rintro ⟨_, heq, -⟩
    cases heq

theorem record?_some : record? some v = some answered ↔
    ∃ members, v = .obj members ∧ answered = recordMembers members := by
  cases v with
  | obj members =>
    have hall : (recordMembers members).mapM (fun p ↦ (some p.2).map fun a ↦ (p.1, a)) =
        some (recordMembers members) :=
      Option.mapM_eq_some.2 (List.forall₂_same.2 fun _ _ ↦ rfl)
    rw [record?]
    refine ⟨fun h ↦ ⟨members, rfl, (Option.some.inj (hall.symm.trans h)).symm⟩, ?_⟩
    rintro ⟨_, heq, rfl⟩
    cases heq
    exact hall
  | null | bool | num | str | arr =>
    refine ⟨fun h ↦ (by cases h), ?_⟩
    rintro ⟨_, heq, -⟩
    cases heq

theorem responseSchema_eq_some : responseSchema v = some response ↔
    ∃ members answered, v = .obj members ∧
      Given (fun v s ↦ v = .str s ∧ 1 ≤ s.length ∧ s.length ≤ 256)
        (members.lookup (ascii "model")) response.model ∧
      members.lookup (ascii "answers") = some (.obj answered) ∧
      response.answers = recordMembers answered := by
  constructor
  · intro h
    cases v with
    | obj members =>
      obtain ⟨model, hmodel, h⟩ := Option.bind_eq_some_iff.1 h
      obtain ⟨answers, hanswers, h⟩ := Option.bind_eq_some_iff.1 h
      cases h
      obtain ⟨w, hw, hrecord⟩ := Option.bind_eq_some_iff.1 hanswers
      obtain ⟨answered, rfl, rfl⟩ := record?_some.1 hrecord
      exact ⟨members, answered, rfl, (optional?_eq_some fun _ _ ↦ model?_eq_some).1 hmodel, hw, rfl⟩
    | null | bool | num | str | arr => cases h
  · rintro ⟨members, answered, rfl, hmodel, hanswers, hrecord⟩
    refine Option.bind_eq_some_iff.2
      ⟨response.model, (optional?_eq_some fun _ _ ↦ model?_eq_some).2 hmodel, ?_⟩
    refine Option.bind_eq_some_iff.2 ⟨response.answers, ?_, rfl⟩
    rw [hanswers]
    exact record?_some.2 ⟨answered, rfl, hrecord⟩

theorem choiceAnswer_eq_some {c : ChoiceAnswer} : choiceAnswer v = some c ↔ ∃ members,
    v = .obj members ∧ members.lookup (ascii "choice") = some (.str c.choice) ∧
      Given (fun v c ↦ v = .num c ∧ IsProbability c) (members.lookup (ascii "confidence"))
        c.confidence ∧
      Given IsRecord (members.lookup (ascii "probabilities")) c.probabilities := by
  constructor
  · intro h
    cases v with
    | obj members =>
      obtain ⟨choice, hchoice, h⟩ := Option.bind_eq_some_iff.1 h
      obtain ⟨confidence, hconfidence, h⟩ := Option.bind_eq_some_iff.1 h
      obtain ⟨probabilities, hprobabilities, h⟩ := Option.bind_eq_some_iff.1 h
      cases h
      obtain ⟨w, hw, hstring⟩ := Option.bind_eq_some_iff.1 hchoice
      obtain rfl := string?_eq_some.1 hstring
      exact ⟨members, rfl, hw, (optional?_eq_some fun _ _ ↦ probability?_eq_some).1 hconfidence,
        (optional?_eq_some fun _ _ ↦ record?_eq_some).1 hprobabilities⟩
    | null | bool | num | str | arr => cases h
  · rintro ⟨members, rfl, hchoice, hconfidence, hprobabilities⟩
    refine Option.bind_eq_some_iff.2 ⟨c.choice, ?_, Option.bind_eq_some_iff.2 ⟨c.confidence,
      (optional?_eq_some fun _ _ ↦ probability?_eq_some).2 hconfidence,
      Option.bind_eq_some_iff.2 ⟨c.probabilities,
        (optional?_eq_some fun _ _ ↦ record?_eq_some).2 hprobabilities, rfl⟩⟩⟩
    rw [hchoice]
    rfl

theorem scoreAnswer_eq_some : scoreAnswer v = some n ↔ ∃ members, v = .obj members ∧
    members.lookup (ascii "score") = some (.num n) ∧ 0 ≤ n.value := by
  constructor
  · intro h
    cases v with
    | obj members =>
      obtain ⟨hbind, hpos⟩ := Option.filter_eq_some_iff.1 h
      obtain ⟨w, hw, hnumber⟩ := Option.bind_eq_some_iff.1 hbind
      obtain rfl := number?_eq_some.1 hnumber
      exact ⟨members, rfl, hw, of_decide_eq_true hpos⟩
    | null | bool | num | str | arr => cases h
  · rintro ⟨members, rfl, hscore, hpos⟩
    refine Option.filter_eq_some_iff.2 ⟨?_, decide_eq_true hpos⟩
    rw [hscore]
    rfl

theorem noulAnswer_eq_some : noulAnswer v = some n ↔ ∃ members, v = .obj members ∧
    members.lookup (ascii "noul") = some (.num n) ∧ IsProbability n := by
  constructor
  · intro h
    cases v with
    | obj members =>
      obtain ⟨w, hw, hprobability⟩ := Option.bind_eq_some_iff.1 h
      obtain ⟨rfl, hn⟩ := probability?_eq_some.1 hprobability
      exact ⟨members, rfl, hw, hn⟩
    | null | bool | num | str | arr => cases h
  · rintro ⟨members, rfl, hnoul, hn⟩
    rw [noulAnswer, hnoul]
    exact probability?_eq_some.2 ⟨rfl, hn⟩

/-! ### Key sets -/

/-- Lists without duplicates of one length, one within the other, have the same members. -/
theorem mem_iff_of_subset {names names' : List Text} (h : names.Nodup) (hsub : names ⊆ names')
    (hlength : names'.length ≤ names.length) (name : Text) : name ∈ names' ↔ name ∈ names :=
  ((h.subperm hsub).perm_of_length_le hlength).symm.mem_iff

theorem length_eq_of_mem_iff {names names' : List Text} (h : names.Nodup) (h' : names'.Nodup)
    (hmem : ∀ name, name ∈ names ↔ name ∈ names') : names.length = names'.length :=
  ((List.perm_ext_iff_of_nodup h h').2 hmem).length_eq

theorem nodup_recordMembers (h : (members.map Prod.fst).Nodup) :
    ((recordMembers members).map Prod.fst).Nodup :=
  h.sublist (List.filter_sublist.map _)

/-! ### Answers -/

theorem map_fst_of_forall₂ {R : Text × Value → Text × Number → Prop} {images : List (Text × Number)}
    (h : List.Forall₂ (fun p q ↦ q.1 = p.1 ∧ R p q) members images) :
    images.map Prod.fst = members.map Prod.fst := by
  induction h with
  | nil => rfl
  | cons hpq _ ih => rw [List.map_cons, List.map_cons, hpq.1, ih]

theorem probabilitiesFit_iff {criteria : List (Text × Text)} {c : ChoiceAnswer}
    {ps : List (Text × Number)} (hcriteria : (criteria.map Prod.fst).Nodup)
    (hps : (ps.map Prod.fst).Nodup) : probabilitiesFit criteria c ps = true ↔
      IsDistribution (criteria.map Prod.fst) c.choice c.confidence ps := by
  unfold probabilitiesFit
  rw [Bool.and_eq_true, Bool.and_eq_true, Bool.and_eq_true, decide_eq_true_eq, decide_eq_true_eq,
    List.all_eq_true]
  constructor
  · rintro ⟨⟨⟨hlength, hnames⟩, hsum⟩, hmatch⟩
    -- as many names as criteria, all of them criteria and none twice: all the criteria
    have hsub : ps.map Prod.fst ⊆ criteria.map Prod.fst := by
      intro name hname
      obtain ⟨p, hp, rfl⟩ := List.mem_map.1 hname
      exact Members.isSome_lookup.1 (hnames p hp)
    have hchoice : ∀ selected, (c.choice, selected) ∈ ps →
        (∀ p ∈ ps, p.2.value ≤ selected.value + tolerance) ∧ ∀ d, c.confidence = some d →
          |d.value - (selected.value - 1 / (criteria.map Prod.fst).length) /
            (1 - 1 / (criteria.map Prod.fst).length)| ≤ tolerance := by
      intro selected hselected
      rw [Members.lookup_of_mem hps hselected] at hmatch
      dsimp only at hmatch
      rw [Bool.and_eq_true, List.all_eq_true] at hmatch
      refine ⟨fun p hp ↦ of_decide_eq_true (hmatch.1 p hp), fun d hd ↦ ?_⟩
      rw [hd, Option.all_some, decide_eq_true_eq, hlength] at hmatch
      rw [List.length_map]
      exact hmatch.2
    exact {
      names := fun name ↦ (mem_iff_of_subset hps hsub (by simp [hlength]) name).symm
      sum := hsum
      maximal := fun selected hselected ↦ (hchoice selected hselected).1
      distance := fun selected hselected ↦ (hchoice selected hselected).2 }
  · intro h
    have hlength : ps.length = criteria.length := by
      simpa using length_eq_of_mem_iff hps hcriteria h.names
    refine ⟨⟨⟨hlength, fun p hp ↦ ?_⟩, h.sum⟩, ?_⟩
    · exact Members.isSome_lookup.2 ((h.names p.1).1 (List.mem_map_of_mem hp))
    · cases hlookup : ps.lookup c.choice with
      | none => rfl
      | some selected =>
        have hselected := Members.mem_of_lookup hlookup
        dsimp only
        rw [Bool.and_eq_true, List.all_eq_true]
        refine ⟨fun p hp ↦ decide_eq_true (h.maximal selected hselected p hp), ?_⟩
        cases hc : c.confidence with
        | none => rfl
        | some d =>
          have hdistance := h.distance selected hselected d hc
          rw [List.length_map] at hdistance
          rw [Option.all_some, decide_eq_true_eq, hlength]
          exact hdistance

/-- The names of a record of probabilities are those of its members. -/
theorem nodup_of_isRecord {ps : List (Text × Number)} (h : IsRecord v ps) (hv : v.Proper) :
    (ps.map Prod.fst).Nodup := by
  obtain ⟨members, rfl, hall⟩ := h
  rw [map_fst_of_forall₂ hall]
  exact nodup_recordMembers hv.keys

theorem all_probabilitiesFit_iff {criteria : List (Text × Text)} {c : ChoiceAnswer}
    (hcriteria : (criteria.map Prod.fst).Nodup) (hraw : (Value.obj members).Proper)
    (hgiven : Given IsRecord (members.lookup (ascii "probabilities")) c.probabilities) :
    c.probabilities.all (fun ps ↦ probabilitiesFit criteria c ps) = true ↔
      ∀ ps, c.probabilities = some ps →
        IsDistribution (criteria.map Prod.fst) c.choice c.confidence ps := by
  generalize hmember : members.lookup (ascii "probabilities") = member at hgiven
  generalize c.probabilities = probabilities at hgiven ⊢
  cases hgiven with
  | missing => simp
  | @given w ps hrecord =>
    have hproper := hraw.members _ (Members.mem_of_lookup hmember)
    rw [Option.all_some, probabilitiesFit_iff hcriteria (nodup_of_isRecord hrecord hproper)]
    exact ⟨fun h ps heq ↦ Option.some.inj heq ▸ h, fun h ↦ h ps rfl⟩

/-- **One answer**: it is taken exactly when it is one, within the domain of its question. -/
theorem answer?_eq_some (hoptions : q.options.Nodup) (hraw : raw.Proper) :
    answer? q raw = some a ↔ IsAnswer q raw a := by
  cases q with
  | choice instructions criteria =>
    constructor
    · intro h
      obtain ⟨c, hc, hchecks⟩ := Option.bind_eq_some_iff.1 h
      obtain ⟨members, rfl, hchoice, hconfidence, hprobabilities⟩ := choiceAnswer_eq_some.1 hc
      obtain ⟨hoption, hrest⟩ := guard_bind_eq_some.1 hchecks
      obtain ⟨hfit, ha⟩ := guard_bind_eq_some.1 hrest
      cases ha
      exact .choice hchoice (Members.isSome_lookup.1 hoption) hconfidence hprobabilities
        ((all_probabilitiesFit_iff hoptions hraw hprobabilities).1 hfit)
    · intro h
      cases h with
      | @choice _ _ members choice confidence probabilities hchoice hoption hconfidence
          hprobabilities hdistribution =>
        refine Option.bind_eq_some_iff.2 ⟨⟨choice, confidence, probabilities⟩,
          choiceAnswer_eq_some.2 ⟨members, rfl, hchoice, hconfidence, hprobabilities⟩, ?_⟩
        refine guard_bind_eq_some.2 ⟨Members.isSome_lookup.2 hoption, ?_⟩
        exact guard_bind_eq_some.2
          ⟨(all_probabilitiesFit_iff hoptions hraw hprobabilities).2 hdistribution, rfl⟩
  | score instructions criteria =>
    constructor
    · intro h
      obtain ⟨score, hscore, hcheck⟩ := Option.bind_eq_some_iff.1 h
      obtain ⟨hle, ha⟩ := guard_bind_eq_some.1 hcheck
      cases ha
      obtain ⟨members, rfl, hlookup, hpos⟩ := scoreAnswer_eq_some.1 hscore
      exact .score hlookup hpos hle
    · intro h
      cases h with
      | @score _ _ members score hlookup hpos hle =>
        exact Option.bind_eq_some_iff.2 ⟨score, scoreAnswer_eq_some.2 ⟨members, rfl, hlookup, hpos⟩,
          guard_bind_eq_some.2 ⟨hle, rfl⟩⟩
  | noul instructions criteria =>
    constructor
    · intro h
      obtain ⟨noul, hnoul, rfl⟩ := Option.map_eq_some_iff.1 h
      obtain ⟨members, rfl, hlookup, hprobability⟩ := noulAnswer_eq_some.1 hnoul
      exact .noul hlookup hprobability
    · intro h
      cases h with
      | @noul _ _ members noul hlookup hprobability =>
        exact Option.map_eq_some_iff.2
          ⟨noul, noulAnswer_eq_some.2 ⟨members, rfl, hlookup, hprobability⟩, rfl⟩

/-! ### All answers -/

/-- **All answers**: they are taken exactly when they are answers to the questions that were asked
and to no others. -/
theorem answers?_eq_some (hvalid : request.Valid) (hanswered : (answered.map Prod.fst).Nodup)
    (hproper : ∀ p ∈ answered, p.2.Proper) (hresponse : response.answers = answered) :
    answers? request response = some answers ↔
      (∀ name, name ∈ answered.map Prod.fst ↔ name ∈ request.questions.map Prod.fst) ∧
      List.Forall₂ (fun p q ↦ q.1 = p.1 ∧ ∃ raw, answered.lookup p.1 = some raw ∧
        IsAnswer p.2 raw q.2) request.questions answers := by
  subst hresponse
  have hone : ∀ p ∈ request.questions, ∀ q : Text × DecisionAnswer,
      (do
        let raw ← response.answers.lookup p.1
        let a ← answer? p.2 raw
        return (p.1, a)) = some q ↔
      q.1 = p.1 ∧ ∃ raw, response.answers.lookup p.1 = some raw ∧ IsAnswer p.2 raw q.2 := by
    intro p hp q
    constructor
    · intro h
      obtain ⟨raw, hraw, h⟩ := Option.bind_eq_some_iff.1 h
      obtain ⟨a, ha, h⟩ := Option.bind_eq_some_iff.1 h
      cases h
      exact ⟨rfl, raw, hraw, (answer?_eq_some (hvalid.options p hp)
        (hproper _ (Members.mem_of_lookup hraw))).1 ha⟩
    · rintro ⟨hname, raw, hraw, ha⟩
      exact Option.bind_eq_some_iff.2 ⟨raw, hraw, Option.bind_eq_some_iff.2
        ⟨q.2, (answer?_eq_some (hvalid.options p hp) (hproper _ (Members.mem_of_lookup hraw))).2 ha,
          congrArg some (Prod.ext hname.symm rfl)⟩⟩
  rw [answers?, guard_bind_eq_some, Option.mapM_eq_some, List.forall₂_congr_of_mem hone]
  constructor
  · rintro ⟨hlength, hanswers⟩
    refine ⟨mem_iff_of_subset hvalid.names (fun name hname ↦ ?_) (by simp [hlength]), hanswers⟩
    obtain ⟨p, hp, rfl⟩ := List.mem_map.1 hname
    obtain ⟨q, -, -, raw, hraw, -⟩ := hanswers.exists_of_mem_left hp
    exact Members.isSome_lookup.1 (by rw [hraw]; rfl)
  · rintro ⟨hnames, hanswers⟩
    exact ⟨by simpa using length_eq_of_mem_iff hanswered hvalid.names hnames, hanswers⟩

/-! ### The order of members -/

/-- What is under a key of two objects that are the same. -/
theorem exists_lookup_of_same {members' : List (Text × Value)} {key : Text}
    (h : (Value.obj members).Same (.obj members')) (hv : members.lookup key = some v) :
    ∃ v', members'.lookup key = some v' ∧ v.Same v' := by
  cases h with
  | obj hsome hvalues =>
    have hkey := hsome key
    rw [hv] at hkey
    obtain ⟨v', hv'⟩ := Option.isSome_iff_exists.1 hkey.symm
    exact ⟨v', hv', hvalues key v v' hv hv'⟩

theorem lookup_recordMembers {key : Text} : (recordMembers members).lookup key =
    if key = ascii "__proto__" then none else members.lookup key := by
  split_ifs with hproto
  · rw [List.lookup_eq_none_iff]
    intro p hp
    have hkept := of_decide_eq_true (List.mem_filter.1 hp).2
    exact bne_iff_ne.2 fun heq ↦ hkept (heq ▸ hproto)
  · exact Members.lookup_filter fun _ ↦ decide_eq_true hproto

theorem same_recordMembers {members' : List (Text × Value)}
    (h : (Value.obj members).Same (.obj members')) :
    (Value.obj (recordMembers members)).Same (.obj (recordMembers members')) := by
  cases h with
  | obj hsome hvalues =>
    refine .obj (fun key ↦ ?_) fun key v v' hv hv' ↦ ?_
    · rw [lookup_recordMembers, lookup_recordMembers]
      split_ifs
      · rfl
      · exact hsome key
    · rw [lookup_recordMembers] at hv hv'
      split_ifs at hv hv'
      exact hvalues key v v' hv hv'

/-- What is given in an object is given in one that is the same. -/
theorem Given.exists_of_same {P : Value → α → Prop} (R : α → α → Prop)
    {members' : List (Text × Value)} {key : Text} {o : Option α}
    (h : Given P (members.lookup key) o) (hsame : (Value.obj members).Same (.obj members'))
    (hP : ∀ v v' a, (key, v) ∈ members → (key, v') ∈ members' → P v a → v.Same v' →
      ∃ a', P v' a' ∧ R a a') :
    ∃ o', Given P (members'.lookup key) o' ∧ ∀ a', o' = some a' → ∃ a, o = some a ∧ R a a' := by
  generalize hv : members.lookup key = member at h
  cases h with
  | missing =>
    cases hsame with
    | obj hsome _ =>
      have hkey := hsome key
      rw [hv] at hkey
      cases hv' : members'.lookup key with
      | none => exact ⟨none, .missing, fun _ h ↦ (by cases h)⟩
      | some v' =>
        rw [hv'] at hkey
        cases hkey
  | given ha =>
    obtain ⟨v', hv', hsame'⟩ := exists_lookup_of_same hsame hv
    obtain ⟨a', ha', hR⟩ :=
      hP _ _ _ (Members.mem_of_lookup hv) (Members.mem_of_lookup hv') ha hsame'
    rw [hv']
    refine ⟨some a', .given ha', fun b hb ↦ ?_⟩
    cases hb
    exact ⟨_, rfl, hR⟩

/-- Records of numbers that are the same have the same members, in some order. -/
theorem perm_of_same {members' : List (Text × Value)}
    (hsame : (Value.obj members).Same (.obj members')) (h : (members.map Prod.fst).Nodup)
    (h' : (members'.map Prod.fst).Nodup) (hnum : ∀ p ∈ members, ∃ n, p.2 = .num n) :
    members'.Perm members := by
  cases hsame with
  | obj hsome hvalues =>
    refine (List.perm_ext_iff_of_nodup h'.of_map h.of_map).2 fun p ↦ ⟨fun hp ↦ ?_, fun hp ↦ ?_⟩
    · have hlookup' := Members.lookup_of_mem h' hp
      have hkey := hsome p.1
      rw [hlookup'] at hkey
      obtain ⟨v, hv⟩ := Option.isSome_iff_exists.1 hkey
      obtain ⟨n, hn⟩ := hnum _ (Members.mem_of_lookup hv)
      obtain rfl : v = .num n := hn
      have hp2 := hvalues _ _ _ hv hlookup'
      generalize hw : p.2 = w at hp2
      cases hp2
      exact (Prod.ext rfl hw : p = (p.1, .num n)) ▸ Members.mem_of_lookup hv
    · have hlookup := Members.lookup_of_mem h hp
      obtain ⟨n, hn⟩ := hnum p hp
      have hkey := hsome p.1
      rw [hlookup] at hkey
      obtain ⟨v', hv'⟩ := Option.isSome_iff_exists.1 hkey.symm
      have hp2 := hvalues _ _ _ hlookup hv'
      rw [hn] at hp2
      cases hp2
      exact (Prod.ext rfl hn : p = (p.1, .num n)) ▸ Members.mem_of_lookup hv'

/-- A record of probabilities in another order. -/
theorem exists_isRecord_of_same {v' : Value} {ps : List (Text × Number)} (h : IsRecord v ps)
    (hsame : v.Same v') (hv : v.Proper) (hv' : v'.Proper) :
    ∃ ps', IsRecord v' ps' ∧ ps'.Perm ps := by
  obtain ⟨members, rfl, hall⟩ := h
  cases hsame with
  | @obj _ members' hsome hvalues =>
    have hperm := perm_of_same (same_recordMembers (.obj hsome hvalues))
      (nodup_recordMembers hv.keys) (nodup_recordMembers hv'.keys) fun p hp ↦ by
        obtain ⟨q, -, -, hn, -⟩ := hall.exists_of_mem_left hp
        exact ⟨q.2, hn⟩
    obtain ⟨ps', hall', hps⟩ := List.perm_comp_forall₂ hperm hall
    exact ⟨ps', ⟨members', rfl, hall'⟩, hps⟩

theorem IsDistribution.of_perm {options : List Text} {choice : Text}
    {confidence confidence' : Option Number} {ps ps' : List (Text × Number)}
    (h : IsDistribution options choice confidence ps) (hperm : ps'.Perm ps)
    (hconfidence : ∀ c, confidence' = some c → confidence = some c) :
    IsDistribution options choice confidence' ps' where
  names name := (hperm.map Prod.fst).mem_iff.trans (h.names name)
  sum := (hperm.map fun p ↦ p.2.value).sum_eq.symm ▸ h.sum
  maximal selected hselected p hp :=
    h.maximal selected (hperm.mem_iff.1 hselected) p (hperm.mem_iff.1 hp)
  distance selected hselected c hc :=
    h.distance selected (hperm.mem_iff.1 hselected) c (hconfidence c hc)

theorem num_of_same {v' : Value} (h : (Value.num n).Same v') : v' = .num n := by
  cases h
  rfl

theorem str_of_same {s : Text} {v' : Value} (h : (Value.str s).Same v') : v' = .str s := by
  cases h
  rfl

theorem obj_of_same {v' : Value} (h : (Value.obj members).Same v') :
    ∃ members', v' = .obj members' := by
  cases h with
  | @obj _ members' => exact ⟨members', rfl⟩

/-- An answer with its members in another order is an answer. -/
theorem exists_isAnswer_of_same {v' : Value} (h : IsAnswer q v a) (hsame : v.Same v')
    (hv : v.Proper) (hv' : v'.Proper) : ∃ a', IsAnswer q v' a' := by
  cases h with
  | @choice instructions criteria members choice confidence probabilities hchoice hoption
      hconfidence hprobabilities hdistribution =>
    obtain ⟨members', rfl⟩ := obj_of_same hsame
    obtain ⟨w, hw, hsame'⟩ := exists_lookup_of_same hsame hchoice
    obtain rfl := str_of_same hsame'
    obtain ⟨confidence', hconfidence', heq⟩ := hconfidence.exists_of_same Eq hsame
      fun v v' c _ _ hc hsame' ↦ ⟨c, ⟨num_of_same (hc.1 ▸ hsame'), hc.2⟩, rfl⟩
    obtain ⟨probabilities', hprobabilities', hperm⟩ := hprobabilities.exists_of_same
      (fun ps ps' ↦ ps'.Perm ps) hsame fun v v' ps hmem hmem' hps hsame' ↦
        exists_isRecord_of_same hps hsame' (hv.members _ hmem) (hv'.members _ hmem')
    refine ⟨_, .choice hw hoption hconfidence' hprobabilities' fun ps' hps' ↦ ?_⟩
    obtain ⟨ps, rfl, hps⟩ := hperm ps' hps'
    refine (hdistribution ps rfl).of_perm hps fun c hc ↦ ?_
    obtain ⟨_, rfl, rfl⟩ := heq c hc
    rfl
  | score hlookup hpos hle =>
    obtain ⟨members', rfl⟩ := obj_of_same hsame
    obtain ⟨w, hw, hsame'⟩ := exists_lookup_of_same hsame hlookup
    obtain rfl := num_of_same hsame'
    exact ⟨_, .score hw hpos hle⟩
  | noul hlookup hprobability =>
    obtain ⟨members', rfl⟩ := obj_of_same hsame
    obtain ⟨w, hw, hsame'⟩ := exists_lookup_of_same hsame hlookup
    obtain rfl := num_of_same hsame'
    exact ⟨_, .noul hw hprobability⟩

/-! ### Decisions -/

/-- The response answers the request. -/
def Complete (request : DecisionRequest) (input : Value) : Prop :=
  ∃ members answered model answers, input = .obj members ∧
    Answered request members answered model answers

/-- Neither the order of the questions nor that of the members makes a difference. -/
theorem Complete.of_same {input input' : Value} (h : Complete request input)
    (hquestions : request'.questions.Perm request.questions) (hsame : input.Same input')
    (hinput : input.Proper) (hinput' : input'.Proper) : Complete request' input' := by
  obtain ⟨members, answered, model, answers, rfl, hanswered⟩ := h
  obtain ⟨members', rfl⟩ := obj_of_same hsame
  obtain ⟨model', hmodel', -⟩ := hanswered.model.exists_of_same Eq hsame
    fun v v' s _ _ hs hsame' ↦ ⟨s, ⟨str_of_same (hs.1 ▸ hsame'), hs.2⟩, rfl⟩
  obtain ⟨w, hw, hsame'⟩ := exists_lookup_of_same hsame hanswered.record
  obtain ⟨answered', rfl⟩ := obj_of_same hsame'
  have hproper : (Value.obj answered).Proper :=
    hinput.members _ (Members.mem_of_lookup hanswered.record)
  have hproper' : (Value.obj answered').Proper := hinput'.members _ (Members.mem_of_lookup hw)
  have hrecord := same_recordMembers hsame'
  have hnames : ∀ name, name ∈ (recordMembers answered').map Prod.fst ↔
      name ∈ request'.questions.map Prod.fst := by
    intro name
    cases hrecord with
    | obj hkeys _ =>
      rw [(hquestions.map Prod.fst).mem_iff, ← hanswered.names name, ← Members.isSome_lookup,
        ← Members.isSome_lookup, hkeys name]
  obtain ⟨answers', hanswers'⟩ : ∃ answers', List.Forall₂
      (fun (p : Text × Question) (q : Text × DecisionAnswer) ↦ q.1 = p.1 ∧ ∃ raw,
        (recordMembers answered').lookup p.1 = some raw ∧ IsAnswer p.2 raw q.2)
      request'.questions answers' := by
    refine List.exists_forall₂ fun p hp ↦ ?_
    obtain ⟨q, -, -, raw, hraw, ha⟩ :=
      hanswered.answers.exists_of_mem_left (hquestions.mem_iff.1 hp)
    obtain ⟨raw', hraw', hsame⟩ := exists_lookup_of_same hrecord hraw
    obtain ⟨a', ha'⟩ := exists_isAnswer_of_same ha hsame
      (hproper.members _ (List.mem_of_mem_filter (Members.mem_of_lookup hraw)))
      (hproper'.members _ (List.mem_of_mem_filter (Members.mem_of_lookup hraw')))
    exact ⟨(p.1, a'), rfl, raw', hraw', ha'⟩
  exact ⟨members', answered', model', answers', rfl, hmodel', hw, hnames, hanswers'⟩

variable (sha256 : Text → Text)

/-- A response that answers the request is observed, with its answers. -/
theorem normalizeDecision_of_answered {model : Option Text} (hvalid : request.Valid)
    (hinput : (Value.obj members).Proper) (h : Answered request members answered model answers) :
    normalizeDecision sha256 request (.obj members) =
      { unknownDecision sha256 request "invalid_response" with
        status := .observed, reason := none, observedModel := model, answers } := by
  have hresponse : responseSchema (.obj members) = some ⟨model, recordMembers answered⟩ :=
    responseSchema_eq_some.2 ⟨members, answered, rfl, h.model, h.record, rfl⟩
  have hproper : (Value.obj answered).Proper := hinput.members _ (Members.mem_of_lookup h.record)
  have hanswers : answers? request ⟨model, recordMembers answered⟩ = some answers :=
    (answers?_eq_some hvalid (nodup_recordMembers hproper.keys)
      (fun p hp ↦ hproper.members p (List.mem_of_mem_filter hp)) rfl).2 ⟨h.names, h.answers⟩
  rw [normalizeDecision, hresponse]
  dsimp only
  rw [hanswers]

/-- A response that does not is not, with no answers. -/
theorem normalizeDecision_of_not_complete {input : Value} (hvalid : request.Valid)
    (hinput : input.Proper) (h : ¬Complete request input) :
    normalizeDecision sha256 request input =
      unknownDecision sha256 request "invalid_response" := by
  unfold normalizeDecision
  cases hresponse : responseSchema input with
  | none => rfl
  | some response =>
    obtain ⟨members, answered, rfl, hmodel, hrecord, hanswered⟩ :=
      responseSchema_eq_some.1 hresponse
    have hproper : (Value.obj answered).Proper := hinput.members _ (Members.mem_of_lookup hrecord)
    cases hanswers : answers? request response with
    | none =>
      dsimp only
      rw [hanswers]
    | some answers =>
      obtain ⟨hnames, hall⟩ := (answers?_eq_some hvalid (nodup_recordMembers hproper.keys)
        (fun p hp ↦ hproper.members p (List.mem_of_mem_filter hp)) hanswered).1 hanswers
      exact absurd ⟨members, answered, _, answers, rfl, hmodel, hrecord, hnames, hall⟩ h

/-- **Complete decisions are observed and others are not.** A response that answers the request is
observed with exactly its answers, any other is unknown without answers, and the order of the
questions and of the members of the response does not matter. -/
theorem normalizeDecision_observed {input : Value} (hvalid : request.Valid)
    (hinput : input.Proper) :
    ((normalizeDecision sha256 request input).status = .observed ↔ Complete request input) ∧
    (∀ members answered model answers, input = .obj members →
      Answered request members answered model answers →
        (normalizeDecision sha256 request input).answers = answers ∧
        (normalizeDecision sha256 request input).observedModel = model) ∧
    (¬Complete request input →
      (normalizeDecision sha256 request input).status = .unknown ∧
      (normalizeDecision sha256 request input).answers = []) ∧
    ∀ (request' : DecisionRequest) (input' : Value), request'.Valid → input'.Proper →
      request'.questions.Perm request.questions → input.Same input' →
        (normalizeDecision sha256 request' input').status =
          (normalizeDecision sha256 request input).status := by
  have hstatus : ∀ {request : DecisionRequest} {input : Value}, request.Valid → input.Proper →
      ((normalizeDecision sha256 request input).status = .observed ↔ Complete request input) := by
    intro request input hvalid hinput
    constructor
    · intro hobserved
      by_contra hnot
      rw [normalizeDecision_of_not_complete sha256 hvalid hinput hnot] at hobserved
      cases hobserved
    · rintro ⟨members, answered, model, answers, rfl, h⟩
      rw [normalizeDecision_of_answered sha256 hvalid hinput h]
  refine ⟨hstatus hvalid hinput, ?_, fun hnot ↦ ?_, ?_⟩
  · rintro members answered model answers rfl h
    rw [normalizeDecision_of_answered sha256 hvalid hinput h]
    exact ⟨rfl, rfl⟩
  · rw [normalizeDecision_of_not_complete sha256 hvalid hinput hnot]
    exact ⟨rfl, rfl⟩
  · intro request' input' hvalid' hinput' hquestions hsame
    have hiff : Complete request' input' ↔ Complete request input :=
      ⟨fun h ↦ h.of_same hquestions.symm hsame.symm hinput' hinput,
        fun h ↦ h.of_same hquestions hsame hinput hinput'⟩
    by_cases hcomplete : Complete request input
    · rw [(hstatus hvalid hinput).2 hcomplete, (hstatus hvalid' hinput').2 (hiff.2 hcomplete)]
    · rw [normalizeDecision_of_not_complete sha256 hvalid hinput hcomplete,
        normalizeDecision_of_not_complete sha256 hvalid' hinput' fun h ↦ hcomplete (hiff.1 h)]
      rfl

/-! ### One question -/

/-- One half. -/
def half : Number :=
  .ofDecimal false [5] 0

/-- A request with one question. -/
def riskRequest : DecisionRequest where
  decisionType := ascii "task-routing"
  policyId := ascii "fixture-v1"
  state := ascii "Synthetic local task"
  questions := [(ascii "risk", .noul (ascii "Is the task risky?") none)]

/-- The answers to it, and what else is among them. -/
def riskAnswers (more : List (Text × Value)) : List (Text × Value) :=
  (ascii "risk", .obj [(ascii "noul", .num half)]) :: more

theorem riskRequest_valid : riskRequest.Valid where
  accepted := by decide +kernel
  names := by decide
  options := by decide

theorem isAnswer_half {instructions : Text} {criteria : Option (Text × Text)} :
    IsAnswer (.noul instructions criteria) (.obj [(ascii "noul", .num half)]) (.noul half) :=
  .noul rfl ⟨by decide +kernel, by decide +kernel⟩

/-- A response with a model. -/
def riskResponse (model : Text) (more : List (Text × Value)) : List (Text × Value) :=
  [(ascii "model", .str model), (ascii "answers", .obj (riskAnswers more))]

theorem answered_riskResponse : Answered riskRequest (riskResponse (ascii "jev") [])
    (riskAnswers []) (some (ascii "jev")) [(ascii "risk", .noul half)] where
  model := .given ⟨rfl, by decide, by decide⟩
  record := rfl
  names _ := Iff.rfl
  answers := .cons ⟨rfl, _, rfl, isAnswer_half⟩ .nil

theorem proper_riskResponse {model : Text} : (Value.obj (riskResponse model [])).Proper :=
  .obj (by decide : [ascii "model", ascii "answers"].Nodup) (List.forall_mem_cons.2
    ⟨.str _, List.forall_mem_singleton.2
    (.obj (by decide) (List.forall_mem_singleton.2
      (.obj (by decide) (List.forall_mem_singleton.2 (.num _)))))⟩)

/-- The response is observed, also with its members in reverse, and `null` is not. -/
theorem normalizeDecision_observed_risk :
    (normalizeDecision id riskRequest (.obj (riskResponse (ascii "jev") []).reverse)).status =
      .observed ∧
    (normalizeDecision id riskRequest (.obj (riskResponse (ascii "jev") []))).answers =
      [(ascii "risk", .noul half)] ∧
    (normalizeDecision id riskRequest .null).status = .unknown := by
  obtain ⟨hiff, hanswers, -, horder⟩ :=
    normalizeDecision_observed id riskRequest_valid (@proper_riskResponse (ascii "jev"))
  obtain ⟨-, -, hnull, -⟩ := normalizeDecision_observed id riskRequest_valid .null
  have hreverse : (Value.obj (riskResponse (ascii "jev") []).reverse).Proper :=
    .obj (by decide) fun p hp ↦ proper_riskResponse.members p (List.mem_reverse.1 hp)
  refine ⟨(horder riskRequest _ riskRequest_valid hreverse (.refl _)
    (.of_perm (List.reverse_perm _).symm (by decide))).trans
      (hiff.2 ⟨_, _, _, _, rfl, answered_riskResponse⟩),
    (hanswers _ _ _ _ rfl answered_riskResponse).1, (hnull ?_).1⟩
  rintro ⟨_, _, _, _, heq, -⟩
  cases heq

/-- A request to choose between two options. -/
def tierRequest : DecisionRequest where
  decisionType := ascii "task-routing"
  policyId := ascii "fixture-v1"
  state := ascii "Synthetic local task"
  questions := [(ascii "tier", .choice (ascii "Choose tier")
    [(ascii "small", ascii "Simple"), (ascii "large", ascii "Complex")])]

/-- Just above 1, and what is missing to 1. -/
def tierProbabilities : List (Text × Number) :=
  [(ascii "small", .ofDecimal false [1, 0, 0, 0, 0, 0, 5] 1),
    (ascii "large", .ofDecimal true [5] (-5))]

/-- What the answers alone do not decide: a model without a name is refused, a member `__proto__`
is passed over, and what sums to 1 may be no probabilities. -/
theorem answers_do_not_decide :
    (¬∀ (request : DecisionRequest) (members answered : List (Text × Value)), request.Valid →
      (Value.obj members).Proper → members.lookup (ascii "answers") = some (.obj answered) →
        ((normalizeDecision id request (.obj members)).status = .observed ↔
          (∀ name, name ∈ answered.map Prod.fst ↔ name ∈ request.questions.map Prod.fst) ∧
            ∀ p ∈ request.questions, ∃ raw a, answered.lookup p.1 = some raw ∧
              IsAnswer p.2 raw a)) ∧
    (normalizeDecision id riskRequest
      (.obj (riskResponse (ascii "jev") [(ascii "__proto__", .null)]))).status = .observed ∧
    (IsDistribution [ascii "small", ascii "large"] (ascii "small") none tierProbabilities ∧
      (normalizeDecision id tierRequest (.obj [(ascii "answers", .obj [(ascii "tier",
        .obj [(ascii "choice", .str (ascii "small")), (ascii "probabilities",
          .obj (tierProbabilities.map fun p ↦ (p.1, .num p.2)))])])])).status = .unknown) := by
  refine ⟨fun h ↦ ?_, by decide +kernel, ⟨fun _ ↦ Iff.rfl, by decide +kernel, ?_, ?_⟩,
    by decide +kernel⟩
  · have hobserved := (h riskRequest (riskResponse [] []) (riskAnswers []) riskRequest_valid
      proper_riskResponse rfl).2 ⟨fun _ ↦ Iff.rfl, List.forall_mem_singleton.2
        ⟨_, _, rfl, isAnswer_half⟩⟩
    exact absurd hobserved (by decide +kernel)
  · intro selected hselected
    rcases List.mem_cons.1 hselected with heq | hmem
    · cases heq
      exact List.forall_mem_cons.2 ⟨by decide +kernel,
        List.forall_mem_singleton.2 (by decide +kernel)⟩
    · have hname : ascii "small" = ascii "large" :=
        congrArg Prod.fst (List.mem_singleton.1 hmem)
      exact absurd hname (by decide)
  · rintro _ _ _ ⟨⟩

end ModelConnector.Connectors.Jev
