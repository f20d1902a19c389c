import DataApi.Predicate.Filter

/-!
# What a predicate and its filter mean

Whether an instance satisfies a comparison is decided outside: a `Valuation` answers for a field,
the keyword of an operator and a value. Over it a Boolean expression, the predicate that the
operators `and`, `or` and `not` build from the expression, and the filter of that predicate each
have a meaning of their own. The meaning of a filter is read off the JSON value alone.

The three agree. The operators may extend a group in place, nest it or drop a member, so the
invariant they carry is not the shape of the tree but that every comparison in it is known and no
group in it is empty: such a predicate has a filter.
-/

namespace DataApi

/-- Whether a comparison holds, given its field, the keyword of its operator and its value. -/
abbrev Valuation := String → String → Json → Bool

def Combinator.combine : Combinator → List Bool → Bool
  | .and, truths => truths.all id
  | .or, truths => truths.any id

@[simp] theorem Combinator.combine_and_pair (a b : Bool) :
    Combinator.and.combine [a, b] = (a && b) := by
  simp [combine]

@[simp] theorem Combinator.combine_or_pair (a b : Bool) :
    Combinator.or.combine [a, b] = (a || b) := by
  simp [combine]

theorem Combinator.combine_append_singleton (c : Combinator) (truths : List Bool) (b : Bool) :
    c.combine (truths ++ [b]) = c.combine [c.combine truths, b] := by
  cases c <;> simp [combine]

namespace Json

mutual

def meaning? (v : Valuation) : Json → Option Bool
  | .object [] => some true
  | .object [(key, value)] =>
      if key = "not" then (meaning? v value).map not
      else
        match (Keyword.ofKeyword? key : Option Combinator), value with
        | some c, .list filters => (meanings? v filters).map c.combine
        | none, .object [(operator, operand)] => some (v key operator operand)
        | _, _ => none
  | _ => none

def meanings? (v : Valuation) : List Json → Option (List Bool)
  | [] => some []
  | filter :: filters =>
      match meaning? v filter, meanings? v filters with
      | some truth, some truths => some (truth :: truths)
      | _, _ => none

end

@[simp] theorem meaning?_empty (v : Valuation) : meaning? v (.object []) = some true := by
  rw [meaning?]

theorem meaning?_single (v : Valuation) (key : String) (value : Json) :
    meaning? v (.single key value) =
      if key = "not" then (meaning? v value).map not
      else
        match (Keyword.ofKeyword? key : Option Combinator), value with
        | some c, .list filters => (meanings? v filters).map c.combine
        | none, .object [(operator, operand)] => some (v key operator operand)
        | _, _ => none := by
  rw [single, meaning?.eq_def]

theorem meaning?_single_not (v : Valuation) (filter : Json) :
    meaning? v (.single "not" filter) = (meaning? v filter).map not := by
  rw [meaning?_single, if_pos rfl]

theorem meaning?_single_combinator (v : Valuation) (c : Combinator) (filters : List Json) :
    meaning? v (.single (Keyword.keyword c) (.list filters)) =
      (meanings? v filters).map c.combine := by
  have hnot : Keyword.keyword c ≠ "not" := by cases c <;> decide
  rw [meaning?_single, if_neg hnot, Keyword.ofKeyword?_keyword]

theorem meaning?_single_field (v : Valuation) {field : String} (operator : String) (operand : Json)
    (hc : field ∉ Keyword.keywords Combinator) (hnot : field ≠ "not") :
    meaning? v (.single field (.single operator operand)) = some (v field operator operand) := by
  rw [meaning?_single, if_neg hnot, Keyword.ofKeyword?_eq_none_iff.2 hc, single]

theorem meanings?_cons (v : Valuation) {filter : Json} {filters : List Json} {truth : Bool}
    {truths : List Bool} (h : meaning? v filter = some truth)
    (hs : meanings? v filters = some truths) :
    meanings? v (filter :: filters) = some (truth :: truths) := by
  rw [meanings?, h, hs]

end Json

def filterMeaning? (v : Valuation) : Option Json → Option Bool
  | none => some true
  | some filter => filter.meaning? v

namespace Comparison

def operatorName : Comparison → String
  | .relation r _ => Keyword.keyword (FilterOperator.relation r)
  | .between _ _ => Keyword.keyword FilterOperator.between
  | .named keyword _ => keyword

def operand : Comparison → Json
  | .relation _ value => value
  | .between low high => .list [low, high]
  | .named _ value => value

/-- The server has the operator, and the field is not mistaken for a connective. -/
def Known (field : String) (c : Comparison) : Prop :=
  c.operatorName ∈ Keyword.keywords FilterOperator ∧
    field ∉ Keyword.keywords Combinator ∧ field ≠ "not"

instance (field : String) (c : Comparison) : Decidable (c.Known field) :=
  inferInstanceAs (Decidable (_ ∧ _ ∧ _))

def holds (v : Valuation) (field : String) (c : Comparison) : Bool :=
  v field c.operatorName c.operand

theorem applied_eq_ok (field : String) {c : Comparison}
    (h : c.operatorName ∈ Keyword.keywords FilterOperator) :
    ∃ operator, c.applied field = .ok (operator, c.operand) ∧
      Keyword.keyword operator = c.operatorName := by
  cases c with
  | relation r value => exact ⟨_, rfl, rfl⟩
  | between low high => exact ⟨_, rfl, rfl⟩
  | named keyword value =>
      cases hop : (Keyword.ofKeyword? keyword : Option FilterOperator) with
      | none => exact absurd h (Keyword.ofKeyword?_eq_none_iff.1 hop)
      | some operator =>
          refine ⟨operator, ?_, Keyword.keyword_of_ofKeyword? hop⟩
          simp only [applied, hop, operand]

theorem filter_eq_ok {field : String} {c : Comparison}
    (h : c.operatorName ∈ Keyword.keywords FilterOperator) :
    c.filter field = .ok (.single field (.single c.operatorName c.operand)) := by
  obtain ⟨operator, happlied, hname⟩ := applied_eq_ok field h
  rw [filter, happlied, ← hname]
  rfl

end Comparison

namespace Predicate

mutual

def holds (v : Valuation) : Predicate → Bool
  | .all => true
  | .compare field c => c.holds v field
  | .group c members => c.combine (holdsMembers v members)
  | .not p => !holds v p

def holdsMembers (v : Valuation) : List Predicate → List Bool
  | [] => []
  | p :: ps => holds v p :: holdsMembers v ps

end

mutual

def Translatable : Predicate → Prop
  | .all => True
  | .compare field c => c.Known field
  | .group _ members => members ≠ [] ∧ TranslatableMembers members
  | .not p => Translatable p

def TranslatableMembers : List Predicate → Prop
  | [] => True
  | p :: ps => Translatable p ∧ TranslatableMembers ps

end

theorem holdsMembers_append (v : Valuation) (ps qs : List Predicate) :
    holdsMembers v (ps ++ qs) = holdsMembers v ps ++ holdsMembers v qs := by
  induction ps with
  | nil => rfl
  | cons p ps ih => rw [List.cons_append, holdsMembers, ih, holdsMembers, List.cons_append]

theorem translatableMembers_append {ps qs : List Predicate} :
    TranslatableMembers (ps ++ qs) ↔ TranslatableMembers ps ∧ TranslatableMembers qs := by
  induction ps with
  | nil => simp [TranslatableMembers]
  | cons p ps ih => rw [List.cons_append, TranslatableMembers, ih, TranslatableMembers, and_assoc]

theorem holds_pair (v : Valuation) (c : Combinator) (p q : Predicate) :
    (group c [p, q]).holds v = c.combine [p.holds v, q.holds v] := rfl

theorem Translatable.pair {p q : Predicate} (c : Combinator) (hp : p.Translatable)
    (hq : q.Translatable) : (group c [p, q]).Translatable :=
  ⟨by simp, hp, hq, trivial⟩

/-- Whether a group is extended in place or nested makes no difference to its truth. -/
theorem holds_extend (v : Valuation) (c : Combinator) (p q : Predicate) :
    (extend c p q).holds v = c.combine [p.holds v, q.holds v] := by
  cases p with
  | all => rfl
  | compare field comparison => rfl
  | not p => rfl
  | group d members =>
      by_cases hd : d = c
      · subst hd
        rw [extend, if_pos rfl, holds, holdsMembers_append, holdsMembers, holdsMembers,
          Combinator.combine_append_singleton, holds]
      · rw [extend, if_neg hd, holds_pair]

theorem Translatable.extend {p q : Predicate} (c : Combinator) (hp : p.Translatable)
    (hq : q.Translatable) : (Predicate.extend c p q).Translatable := by
  cases p with
  | all => exact hp.pair c hq
  | compare field comparison => exact hp.pair c hq
  | not p => exact hp.pair c hq
  | group d members =>
      by_cases hd : d = c
      · rw [Predicate.extend, if_pos hd]
        exact ⟨by simp, translatableMembers_append.2 ⟨hp.2, hq, trivial⟩⟩
      · rw [Predicate.extend, if_neg hd]
        exact hp.pair c hq

theorem holds_and (v : Valuation) (p q : Predicate) :
    (p.and q).holds v = (p.holds v && q.holds v) := by
  by_cases hp : p.isAll
  · rw [isAll_iff.1 hp, all_and, holds, Bool.true_and]
  · by_cases hq : q.isAll
    · rw [isAll_iff.1 hq, and_all, holds, Bool.and_true]
    · rw [Predicate.and, if_neg hp, if_neg hq, holds_extend, Combinator.combine_and_pair]

theorem Translatable.and {p q : Predicate} (hp : p.Translatable) (hq : q.Translatable) :
    (p.and q).Translatable := by
  rw [Predicate.and]
  split
  · exact hq
  · split
    · exact hp
    · exact hp.extend .and hq

theorem holds_or (v : Valuation) (p q : Predicate) :
    (p.or q).holds v = (p.holds v || q.holds v) := by
  by_cases hp : p.isAll
  · rw [isAll_iff.1 hp, all_or, holds, Bool.true_or]
  · by_cases hq : q.isAll
    · rw [isAll_iff.1 hq, or_all, holds, Bool.or_true]
    · have hall : ¬(p.isAll || q.isAll) = true := by simp [hp, hq]
      rw [Predicate.or, if_neg hall, holds_extend, Combinator.combine_or_pair]

theorem Translatable.or {p q : Predicate} (hp : p.Translatable) (hq : q.Translatable) :
    (p.or q).Translatable := by
  rw [Predicate.or]
  split
  · trivial
  · exact hp.extend .or hq

mutual

/-- A translatable predicate has a filter, also inside another one, and both mean the same. -/
theorem Translatable.nested_meaning : ∀ {p : Predicate}, p.Translatable →
    ∃ filter, nested p = .ok filter ∧ ∀ v, filter.meaning? v = some (p.holds v)
  | .all, _ => ⟨.object [], by rw [nested], fun v => Json.meaning?_empty v⟩
  | .compare field c, ⟨hop, hconnective, hnot⟩ => by
      refine ⟨.single field (.single c.operatorName c.operand), ?_, fun v => ?_⟩
      · rw [nested, Comparison.filter_eq_ok hop]
      · rw [Json.meaning?_single_field v _ _ hconnective hnot, holds, Comparison.holds]
  | .group c members, ⟨hne, hmembers⟩ => by
      obtain ⟨filters, hfilters, hmeaning⟩ := TranslatableMembers.nestedMembers_meaning hmembers
      refine ⟨.single (Keyword.keyword c) (.list filters), ?_, fun v => ?_⟩
      · rw [nested_group hne, hfilters, Except.map]
      · rw [Json.meaning?_single_combinator, hmeaning v, Option.map_some, holds]
  | .not p, hp => by
      obtain ⟨filter, hfilter, hmeaning⟩ := Translatable.nested_meaning (p := p) hp
      refine ⟨.single "not" filter, ?_, fun v => ?_⟩
      · rw [nested, hfilter]
        rfl
      · rw [Json.meaning?_single_not, hmeaning v, Option.map_some, holds]

theorem TranslatableMembers.nestedMembers_meaning : ∀ {ps : List Predicate},
    TranslatableMembers ps →
    ∃ filters, nestedMembers ps = .ok filters ∧
      ∀ v, Json.meanings? v filters = some (holdsMembers v ps)
  | [], _ => ⟨[], by rw [nestedMembers], fun v => by rw [Json.meanings?, holdsMembers]⟩
  | p :: ps, ⟨hp, hps⟩ => by
      obtain ⟨filter, hfilter, hmeaning⟩ := Translatable.nested_meaning hp
      obtain ⟨filters, hfilters, hmeanings⟩ := TranslatableMembers.nestedMembers_meaning hps
      refine ⟨filter :: filters, ?_, fun v => ?_⟩
      · rw [nestedMembers, hfilter, hfilters]
        rfl
      · rw [Json.meanings?_cons v (hmeaning v) (hmeanings v), holdsMembers]

end

theorem filter?_eq_map_nested {p : Predicate} (hall : p ≠ .all) (hgroup : ∀ c, p ≠ .group c []) :
    p.filter? = (nested p).map some := by
  cases p with
  | all => exact absurd rfl hall
  | compare field c => rfl
  | not p => rfl
  | group c members =>
      cases members with
      | nil => exact absurd rfl (hgroup c)
      | cons p ps => rfl

theorem Translatable.filter?_meaning {p : Predicate} (hp : p.Translatable) :
    ∃ filter?, p.filter? = .ok filter? ∧ (∀ v, filterMeaning? v filter? = some (p.holds v)) ∧
      (filter? = none ↔ p = .all) := by
  by_cases hall : p = .all
  · subst hall
    exact ⟨none, rfl, fun v => rfl, by simp⟩
  · have hgroup : ∀ c, p ≠ .group c [] := by
      rintro c rfl
      exact hp.1 rfl
    obtain ⟨filter, hfilter, hmeaning⟩ := hp.nested_meaning
    refine ⟨some filter, ?_, hmeaning, by simp [hall]⟩
    rw [filter?_eq_map_nested hall hgroup, hfilter, Except.map]

end Predicate

inductive Expression where
  | all
  | compare (field : String) (comparison : Comparison)
  | and (a b : Expression)
  | or (a b : Expression)
  | not (a : Expression)

namespace Expression

def predicate : Expression → Predicate
  | .all => .all
  | .compare field c => .compare field c
  | .and a b => a.predicate.and b.predicate
  | .or a b => a.predicate.or b.predicate
  | .not a => .not a.predicate

def holds (v : Valuation) : Expression → Bool
  | .all => true
  | .compare field c => c.holds v field
  | .and a b => a.holds v && b.holds v
  | .or a b => a.holds v || b.holds v
  | .not a => !a.holds v

def Known : Expression → Prop
  | .all => True
  | .compare field c => c.Known field
  | .and a b => a.Known ∧ b.Known
  | .or a b => a.Known ∧ b.Known
  | .not a => a.Known

theorem holds_predicate (v : Valuation) (e : Expression) : e.predicate.holds v = e.holds v := by
  induction e with
  | all => rfl
  | compare field c => rfl
  | and a b iha ihb => rw [predicate, Predicate.holds_and, iha, ihb, holds]
  | or a b iha ihb => rw [predicate, Predicate.holds_or, iha, ihb, holds]
  | not a ih => rw [predicate, Predicate.holds, ih, holds]

theorem Known.translatable {e : Expression} (h : e.Known) : e.predicate.Translatable := by
  induction e with
  | all => trivial
  | compare field c => exact h
  | and a b iha ihb => exact (iha h.1).and (ihb h.2)
  | or a b iha ihb => exact (iha h.1).or (ihb h.2)
  | not a ih => exact ih h

/-- An expression over known comparisons has a filter that means what the expression says. Nothing
is left to filter exactly when the expression has become the predicate that holds of everything. -/
theorem filter?_predicate_meaning {e : Expression} (h : e.Known) :
    ∃ filter?, e.predicate.filter? = .ok filter? ∧
      (∀ v, filterMeaning? v filter? = some (e.holds v)) ∧
      (filter? = none ↔ e.predicate = .all) := by
  obtain ⟨filter?, hfilter, hmeaning, hnone⟩ := h.translatable.filter?_meaning
  refine ⟨filter?, hfilter, fun v => ?_, hnone⟩
  rw [hmeaning v, holds_predicate]

def ratedOrFinished : Expression :=
  .or (.and .all (.compare "rating" (.relation .gt (.int 3))))
    (.and (.and (.not (.compare "status" (.relation .eq (.string "DRAFT"))))
      (.compare "age" (.between (.int 0) (.int 9))))
      (.and (.compare "title" (.named "beginsWith" (.string "A"))) (.not .all)))

theorem ratedOrFinished_filter_meaning :
    ratedOrFinished.Known ∧ ∃ filter?, ratedOrFinished.predicate.filter? = .ok filter? ∧
      (∀ v, filterMeaning? v filter? = some (ratedOrFinished.holds v)) ∧
      (filter? = none ↔ ratedOrFinished.predicate = .all) := by
  have hknown : ratedOrFinished.Known := by
    simp only [ratedOrFinished, Known]
    decide
  exact ⟨hknown, filter?_predicate_meaning hknown⟩

end Expression

end DataApi
