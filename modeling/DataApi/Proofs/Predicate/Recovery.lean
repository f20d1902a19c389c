import DataApi.Proofs.Fallible
import DataApi.Proofs.Predicate.Meaning

/-!
# Predicates read back from their filters

A filter says of a comparison its field, the keyword of its operator and one value, and no more:
`between` is applied to the list of its bounds, and an operator that was given by its keyword looks
like any other. `Predicate.spelled` gives every operator by its keyword, which leaves the filter as
it is, and `Predicate.ofFilter?` reads a predicate from a filter. What is read is the spelled form of
the predicate that the filter was made of, so two predicates have one filter exactly when they are
spelled alike.

A field may have the name of a combinator, as the filter of a group is a list and that of a
comparison is an object. A field `not` is out of the question: when it is compared with an object,
the filter may also be the one of the negation of another comparison.
-/

namespace DataApi

namespace Json

theorem same_single_left {key : String} {value other : Json} (h : (single key value).same other) :
    ∃ value', other = single key value' ∧ value.same value' := by
  cases other with
  | object entries =>
      simp only [single, same, sameEntries, Bool.and_eq_true, beq_iff_eq, List.length_singleton] at h
      obtain ⟨⟨key', value'⟩, rfl⟩ := List.length_eq_one_iff.1 h.1.symm
      by_cases hk : key = key'
      · subst hk
        refine ⟨value', rfl, ?_⟩
        simpa using h.2
      · have hne : (key == key') = false := by simpa using hk
        simp [List.lookup_cons, hne] at h
  | _ => simp [single, same] at h

theorem same_list_left {items : List Json} {other : Json} (h : (list items).same other) :
    ∃ items', other = list items' ∧ sameItems items items' := by
  cases other with
  | list items' => exact ⟨items', rfl, by simpa [same] using h⟩
  | _ => simp [same] at h

theorem same_empty_left {other : Json} (h : (object []).same other) : other = object [] := by
  cases other with
  | object entries =>
      simp only [same, sameEntries, Bool.and_true, beq_iff_eq] at h
      rw [List.eq_nil_of_length_eq_zero h.symm]
  | _ => simp [same] at h

end Json

namespace Comparison

def spelled (c : Comparison) : Comparison := .named c.operatorName c.operand

theorem filter_eq_ok_iff {field : String} {c : Comparison} {filter : Json} :
    c.filter field = .ok filter ↔
      c.operatorName ∈ Keyword.keywords FilterOperator ∧
        filter = .single field (.single c.operatorName c.operand) := by
  by_cases hop : c.operatorName ∈ Keyword.keywords FilterOperator
  · rw [filter_eq_ok hop, Except.ok.injEq]
    simp [hop, eq_comm]
  · have hnone := Keyword.ofKeyword?_eq_none_iff.2 hop
    cases c with
    | relation r value => exact absurd (List.mem_map_of_mem (Keyword.mem_all _)) hop
    | between low high => exact absurd (List.mem_map_of_mem (Keyword.mem_all _)) hop
    | named keyword value =>
        rw [operatorName] at hnone
        simp [Comparison.filter, applied, hnone, hop, bind, Except.bind]

theorem applied_named_keyword (field : String) (operator : FilterOperator) (value : Json) :
    (named (Keyword.keyword operator) value).applied field = .ok (operator, value) := by
  rw [applied, Keyword.ofKeyword?_keyword]

theorem filter_spelled (field : String) (c : Comparison) :
    c.spelled.filter field = c.filter field := by
  cases c with
  | relation r value =>
      rw [spelled, operatorName, Comparison.filter, applied_named_keyword]
      rfl
  | between low high =>
      rw [spelled, operatorName, Comparison.filter, applied_named_keyword]
      rfl
  | named keyword value => rfl

end Comparison

namespace Predicate

mutual

/-- The predicate with the operators of its comparisons given by keyword. -/
def spelled : Predicate → Predicate
  | .all => .all
  | .compare field c => .compare field c.spelled
  | .group c members => .group c (spelledMembers members)
  | .not p => .not (spelled p)

def spelledMembers : List Predicate → List Predicate
  | [] => []
  | p :: ps => spelled p :: spelledMembers ps

end

mutual

def fields : Predicate → List String
  | .all => []
  | .compare field _ => [field]
  | .group _ members => fieldsOfMembers members
  | .not p => fields p

def fieldsOfMembers : List Predicate → List String
  | [] => []
  | p :: ps => fields p ++ fieldsOfMembers ps

end

theorem ne_not_of_not_mem_fields {field : String} {c : Comparison}
    (h : "not" ∉ (compare field c).fields) : field ≠ "not" := by
  rintro rfl
  exact h (List.mem_singleton.2 rfl)

mutual

/-- The predicate that a filter was made of, with its operators given by keyword. -/
def ofFilter? : Json → Option Predicate
  | .object [] => some .all
  | .object [(key, value)] =>
      if key = "not" then (ofFilter? value).map .not
      else
        match (Keyword.ofKeyword? key : Option Combinator), value with
        | some c, .list filters => (ofFilters? filters).map (.group c)
        | _, .object [(operator, operand)] => some (.compare key (.named operator operand))
        | _, _ => none
  | _ => none

def ofFilters? : List Json → Option (List Predicate)
  | [] => some []
  | filter :: filters =>
      match ofFilter? filter, ofFilters? filters with
      | some p, some ps => some (p :: ps)
      | _, _ => none

end

theorem ofFilter?_empty : ofFilter? (.object []) = some .all := by
  rw [ofFilter?]

theorem ofFilter?_single (key : String) (value : Json) :
    ofFilter? (.single key value) =
      if key = "not" then (ofFilter? value).map .not
      else
        match (Keyword.ofKeyword? key : Option Combinator), value with
        | some c, .list filters => (ofFilters? filters).map (.group c)
        | _, .object [(operator, operand)] => some (.compare key (.named operator operand))
        | _, _ => none := by
  rw [Json.single, ofFilter?.eq_def]

theorem ofFilter?_single_not (filter : Json) :
    ofFilter? (.single "not" filter) = (ofFilter? filter).map .not := by
  rw [ofFilter?_single, if_pos rfl]

theorem ofFilter?_single_combinator (c : Combinator) (filters : List Json) :
    ofFilter? (.single (Keyword.keyword c) (.list filters)) =
      (ofFilters? filters).map (.group c) := by
  have hnot : Keyword.keyword c ≠ "not" := by cases c <;> decide
  rw [ofFilter?_single, if_neg hnot, Keyword.ofKeyword?_keyword]

/-- A field with the name of a combinator is told from a group by what stands under it. -/
theorem ofFilter?_single_field {field : String} (operator : String) (operand : Json)
    (hnot : field ≠ "not") :
    ofFilter? (.single field (.single operator operand)) =
      some (.compare field (.named operator operand)) := by
  rw [ofFilter?_single, if_neg hnot, Json.single]
  cases (Keyword.ofKeyword? field : Option Combinator) <;> rfl

theorem ofFilters?_cons {filter : Json} {filters : List Json} {p : Predicate}
    {ps : List Predicate} (h : ofFilter? filter = some p) (hs : ofFilters? filters = some ps) :
    ofFilters? (filter :: filters) = some (p :: ps) := by
  rw [ofFilters?, h, hs]

theorem ofFilters?_cons_eq_some {filter : Json} {filters : List Json} {ps : List Predicate}
    (h : ofFilters? (filter :: filters) = some ps) :
    ∃ first, ofFilter? filter = some first ∧ ∃ others, ofFilters? filters = some others ∧
      first :: others = ps := by
  rw [ofFilters?] at h
  split at h
  · next first others hfirst hothers => exact ⟨first, hfirst, others, hothers, Option.some.inj h⟩
  · nomatch h

theorem nested_group_eq_ok {c : Combinator} {members : List Predicate} {filter : Json}
    (h : nested (.group c members) = .ok filter) :
    ∃ filters, nestedMembers members = .ok filters ∧
      filter = .single (Keyword.keyword c) (.list filters) := by
  cases members with
  | nil => nomatch h
  | cons p ps =>
      rw [nested_group (List.cons_ne_nil p ps)] at h
      obtain ⟨filters, hfilters, hfilter⟩ := map_eq_ok_iff.1 h
      exact ⟨filters, hfilters, hfilter.symm⟩

theorem nested_not_eq_ok {p : Predicate} {filter : Json} (h : nested (.not p) = .ok filter) :
    ∃ inner, nested p = .ok inner ∧ filter = .single "not" inner := by
  rw [nested] at h
  obtain ⟨inner, hinner, hfilter⟩ := bind_eq_ok_iff.1 h
  exact ⟨inner, hinner, (Except.ok.inj hfilter).symm⟩

theorem nestedMembers_cons_eq_ok {p : Predicate} {ps : List Predicate} {filters : List Json}
    (h : nestedMembers (p :: ps) = .ok filters) :
    ∃ first, nested p = .ok first ∧ ∃ others, nestedMembers ps = .ok others ∧
      filters = first :: others := by
  rw [nestedMembers] at h
  obtain ⟨first, hfirst, h⟩ := bind_eq_ok_iff.1 h
  obtain ⟨others, hothers, h⟩ := bind_eq_ok_iff.1 h
  exact ⟨first, hfirst, others, hothers, (Except.ok.inj h).symm⟩

mutual

theorem ofFilter?_of_nested : ∀ {p : Predicate} {filter : Json}, "not" ∉ p.fields →
    nested p = .ok filter → ofFilter? filter = some p.spelled
  | .all, filter, _, h => by
      rw [nested] at h
      rw [← Except.ok.inj h, ofFilter?_empty, spelled]
  | .compare field c, filter, hfields, h => by
      rw [nested] at h
      obtain ⟨_, rfl⟩ := Comparison.filter_eq_ok_iff.1 h
      rw [ofFilter?_single_field _ _ (ne_not_of_not_mem_fields hfields), spelled, Comparison.spelled]
  | .group c members, filter, hfields, h => by
      obtain ⟨filters, hfilters, rfl⟩ := nested_group_eq_ok h
      rw [fields] at hfields
      rw [ofFilter?_single_combinator, ofFilters?_of_nestedMembers hfields hfilters,
        Option.map_some, spelled]
  | .not p, filter, hfields, h => by
      obtain ⟨inner, hinner, rfl⟩ := nested_not_eq_ok h
      rw [fields] at hfields
      rw [ofFilter?_single_not, ofFilter?_of_nested hfields hinner, Option.map_some, spelled]

theorem ofFilters?_of_nestedMembers : ∀ {ps : List Predicate} {filters : List Json},
    "not" ∉ fieldsOfMembers ps → nestedMembers ps = .ok filters →
      ofFilters? filters = some (spelledMembers ps)
  | [], filters, _, h => by
      rw [nestedMembers] at h
      rw [← Except.ok.inj h, ofFilters?, spelledMembers]
  | p :: ps, filters, hfields, h => by
      obtain ⟨first, hfirst, others, hothers, rfl⟩ := nestedMembers_cons_eq_ok h
      rw [fieldsOfMembers, List.mem_append, not_or] at hfields
      rw [spelledMembers]
      exact ofFilters?_cons (ofFilter?_of_nested hfields.1 hfirst)
        (ofFilters?_of_nestedMembers hfields.2 hothers)

end

mutual

theorem nested_spelled : ∀ p : Predicate, nested p.spelled = nested p
  | .all => rfl
  | .compare field c => by
      rw [spelled, nested, nested, Comparison.filter_spelled]
  | .group c [] => rfl
  | .group c (p :: ps) => by
      rw [spelled, spelledMembers, nested, nested, nested_spelled p, nestedMembers_spelled ps]
  | .not p => by
      rw [spelled, nested, nested, nested_spelled p]

theorem nestedMembers_spelled : ∀ ps : List Predicate,
    nestedMembers (spelledMembers ps) = nestedMembers ps
  | [] => rfl
  | p :: ps => by
      rw [spelledMembers, nestedMembers, nestedMembers, nested_spelled p,
        nestedMembers_spelled ps]

end

theorem filter?_spelled (p : Predicate) : p.spelled.filter? = p.filter? := by
  cases p with
  | all => rfl
  | compare field c => exact congrArg (Except.map some) (nested_spelled (.compare field c))
  | not p => exact congrArg (Except.map some) (nested_spelled (.not p))
  | group c members =>
      cases members with
      | nil => rfl
      | cons p ps => exact congrArg (Except.map some) (nested_spelled (.group c (p :: ps)))

theorem nested_eq_ok_of_filter?_eq_some {p : Predicate} {filter : Json}
    (h : p.filter? = .ok (some filter)) : nested p = .ok filter := by
  have hall : p ≠ .all := by
    rintro rfl
    nomatch h
  have hgroup (c : Combinator) : p ≠ .group c [] := by
    rintro rfl
    nomatch h
  rw [filter?_eq_map_nested hall hgroup] at h
  obtain ⟨inner, hinner, hfilter⟩ := map_eq_ok_iff.1 h
  rw [hinner, Option.some.inj hfilter]

mutual

/-- A filter that differs in the order of object entries only is read as a predicate that differs in
that order only. -/
theorem same_of_nested : ∀ {p q : Predicate} {f g : Json}, "not" ∉ p.fields →
    nested p = .ok f → f.same g → ofFilter? g = some q → p.spelled.same q
  | .all, q, f, g, _, h, hsame, hq => by
      rw [nested] at h
      obtain rfl := Except.ok.inj h
      rw [Json.same_empty_left hsame, ofFilter?_empty] at hq
      rw [← Option.some.inj hq]
      rfl
  | .compare field c, q, f, g, hfields, h, hsame, hq => by
      rw [nested] at h
      obtain ⟨_, rfl⟩ := Comparison.filter_eq_ok_iff.1 h
      obtain ⟨comparison, rfl, hcomparison⟩ := Json.same_single_left hsame
      obtain ⟨operand, rfl, hoperand⟩ := Json.same_single_left hcomparison
      rw [ofFilter?_single_field _ _ (ne_not_of_not_mem_fields hfields)] at hq
      rw [← Option.some.inj hq, spelled, Comparison.spelled, same, Comparison.same]
      simp [hoperand]
  | .group c members, q, f, g, hfields, h, hsame, hq => by
      obtain ⟨filters, hfilters, rfl⟩ := nested_group_eq_ok h
      rw [fields] at hfields
      obtain ⟨value, rfl, hvalue⟩ := Json.same_single_left hsame
      obtain ⟨filters', rfl, hitems⟩ := Json.same_list_left hvalue
      rw [ofFilter?_single_combinator] at hq
      obtain ⟨qs, hqs, rfl⟩ := Option.map_eq_some_iff.1 hq
      rw [spelled, same, sameMembers_of_nestedMembers hfields hfilters hitems hqs]
      simp
  | .not p, q, f, g, hfields, h, hsame, hq => by
      obtain ⟨inner, hinner, rfl⟩ := nested_not_eq_ok h
      rw [fields] at hfields
      obtain ⟨inner', rfl, hsameInner⟩ := Json.same_single_left hsame
      rw [ofFilter?_single_not] at hq
      obtain ⟨q', hq', rfl⟩ := Option.map_eq_some_iff.1 hq
      rw [spelled, same, same_of_nested hfields hinner hsameInner hq']

theorem sameMembers_of_nestedMembers : ∀ {ps qs : List Predicate} {fs gs : List Json},
    "not" ∉ fieldsOfMembers ps → nestedMembers ps = .ok fs → Json.sameItems fs gs →
      ofFilters? gs = some qs → sameMembers (spelledMembers ps) qs
  | [], qs, fs, gs, _, h, hsame, hqs => by
      rw [nestedMembers] at h
      obtain rfl := Except.ok.inj h
      cases gs with
      | cons g gs => simp [Json.sameItems] at hsame
      | nil =>
          rw [ofFilters?] at hqs
          rw [← Option.some.inj hqs]
          rfl
  | p :: ps, qs, fs, gs, hfields, h, hsame, hqs => by
      obtain ⟨first, hfirst, others, hothers, rfl⟩ := nestedMembers_cons_eq_ok h
      rw [fieldsOfMembers, List.mem_append, not_or] at hfields
      cases gs with
      | nil => simp [Json.sameItems] at hsame
      | cons g gs =>
          rw [Json.sameItems, Bool.and_eq_true] at hsame
          obtain ⟨q, hq, rest, hrest, rfl⟩ := ofFilters?_cons_eq_some hqs
          rw [spelledMembers, sameMembers, same_of_nested hfields.1 hfirst hsame.1 hq,
            sameMembers_of_nestedMembers hfields.2 hothers hsame.2 hrest]
          rfl

end

/-- The filter loses nothing of a predicate but the way its operators were given. Two predicates
have the same filter exactly when they are spelled alike, and the spelled form is read back from the
filter; where the order of object entries does not count, neither does it in what is read. -/
theorem filter?_eq_iff_spelled_eq {p q : Predicate} {f : Json} (hp : "not" ∉ p.fields)
    (hq : "not" ∉ q.fields) (hf : p.filter? = .ok (some f)) :
    (q.filter? = .ok (some f) ↔ q.spelled = p.spelled) ∧
      ofFilter? f = some p.spelled ∧
      ∀ g, q.filter? = .ok (some g) → f.same g → p.spelled.same q.spelled := by
  have hnested := nested_eq_ok_of_filter?_eq_some hf
  have hread := ofFilter?_of_nested hp hnested
  refine ⟨⟨fun hqf => ?_, fun hspelled => ?_⟩, hread, fun g hg hsame => ?_⟩
  · have hqread := ofFilter?_of_nested hq (nested_eq_ok_of_filter?_eq_some hqf)
    rw [hread] at hqread
    exact (Option.some.inj hqread).symm
  · rw [← filter?_spelled, hspelled, filter?_spelled, hf]
  · have hqread := ofFilter?_of_nested hq (nested_eq_ok_of_filter?_eq_some hg)
    exact same_of_nested hp hnested hsame hqread

def bounded (bounds title : Comparison) : Predicate :=
  .group .and [.compare "and" bounds, .not (.group .or [.all, .compare "title" title])]

theorem filter?_eq_iff_spelled_eq_bounded :
    let value := Json.single "not" (.object [])
    let p := bounded (.between (.int 0) (.int 9)) (.relation .contains value)
    let q := bounded (.named "between" (.list [.int 0, .int 9])) (.named "contains" value)
    "not" ∉ p.fields ∧ "not" ∉ q.fields ∧ ∃ f, p.filter? = .ok (some f) ∧
      q.filter? = .ok (some f) ∧ q.spelled = p.spelled ∧ ofFilter? f = some p.spelled := by
  intro value p q
  have hp : "not" ∉ p.fields := by decide
  have hq : "not" ∉ q.fields := by decide
  have hpf : p.filter? = .ok (some (.single "and" (.list [
      .single "and" (.single "between" (.list [.int 0, .int 9])),
      .single "not" (.single "or" (.list [.object [],
        .single "title" (.single "contains" value)]))]))) := rfl
  obtain ⟨hiff, hread, _⟩ := filter?_eq_iff_spelled_eq hp hq hpf
  exact ⟨hp, hq, _, hpf, rfl, hiff.1 rfl, hread⟩

/-- On a field `not` a comparison is lost in the negation of another one. -/
example : (compare "not" (.relation .eq (.single "gt" (.int 1)))).filter? =
    (not (.compare "eq" (.relation .gt (.int 1)))).filter? := rfl

end Predicate

end DataApi
