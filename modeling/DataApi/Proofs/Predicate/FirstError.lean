import DataApi.Proofs.Predicate.Recovery

/-!
# The first error in a predicate

Two things can be wrong with a predicate itself, whatever is inside it: it is a group without
members, or it compares a field by a keyword that stands for no operator. A predicate that is not
left out as a whole has a filter exactly when nothing is wrong with it or with any predicate inside
it, at any depth, and otherwise the error is that of the first one in reading order.

The predicate that holds of everything and the empty group have no filter where they stand alone,
and none of this applies to them; inside another predicate the empty group is an error.
-/

namespace DataApi

namespace Predicate

mutual

/-- A predicate and all predicates inside it, in reading order. -/
def nodes : Predicate → List Predicate
  | .all => [.all]
  | .compare field c => [.compare field c]
  | .group c members => .group c members :: nodesOfMembers members
  | .not p => .not p :: nodes p

def nodesOfMembers : List Predicate → List Predicate
  | [] => []
  | p :: ps => nodes p ++ nodesOfMembers ps

end

/-- What is wrong with a predicate itself, whatever is inside it. -/
def ownError? : Predicate → Option FilterError
  | .group c [] => some (.emptyGroup c)
  | .compare field (.named keyword _) =>
      if keyword ∈ Keyword.keywords FilterOperator then none
      else some (.unknownOperator field keyword)
  | _ => none

end Predicate

theorem Comparison.filter_eq_error_iff {field : String} {c : Comparison} {e : FilterError} :
    c.filter field = .error e ↔ (Predicate.compare field c).ownError? = some e := by
  cases c with
  | relation r value => simp [Comparison.filter, applied, Predicate.ownError?]
  | between low high => simp [Comparison.filter, applied, Predicate.ownError?]
  | named keyword value =>
      rw [Predicate.ownError?]
      by_cases hop : (named keyword value).operatorName ∈ Keyword.keywords FilterOperator
      · rw [filter_eq_ok hop]
        rw [operatorName] at hop
        simp [hop]
      · rw [operatorName] at hop
        have hnone := Keyword.ofKeyword?_eq_none_iff.2 hop
        simp [Comparison.filter, applied, hnone, hop, bind, Except.bind]

namespace Predicate

theorem nested_not_eq_error_iff {p : Predicate} {e : FilterError} :
    nested (.not p) = .error e ↔ nested p = .error e := by
  rw [nested, bind_pure_eq_error_iff]

theorem nestedMembers_cons_eq_error_iff {p : Predicate} {ps : List Predicate} {e : FilterError} :
    nestedMembers (p :: ps) = .error e ↔
      nested p = .error e ∨ (∃ filter, nested p = .ok filter) ∧ nestedMembers ps = .error e := by
  rw [nestedMembers, bind_eq_error_iff]
  simp only [bind_eq_error_iff, pure, Except.pure, reduceCtorEq, and_false, exists_false, or_false,
    exists_and_right]

mutual

/-- The translation of a predicate inside another one fails at the first predicate in it that
something is wrong with. -/
theorem nested_eq_error_iff : ∀ {p : Predicate} {e : FilterError},
    nested p = .error e ↔ p.nodes.findSome? ownError? = some e
  | .all, e => by simp [nested, nodes, ownError?]
  | .compare field c, e => by
      rw [nested, nodes, Comparison.filter_eq_error_iff, List.findSome?_singleton]
  | .group c [], e => by simp [nested, nodes, nodesOfMembers, ownError?]
  | .group c (p :: ps), e => by
      rw [nested_group (List.cons_ne_nil p ps), map_eq_error_iff, nodes, List.findSome?_cons]
      exact nestedMembers_eq_error_iff
  | .not p, e => by
      rw [nested_not_eq_error_iff, nodes, List.findSome?_cons]
      exact nested_eq_error_iff

theorem nestedMembers_eq_error_iff : ∀ {ps : List Predicate} {e : FilterError},
    nestedMembers ps = .error e ↔ (nodesOfMembers ps).findSome? ownError? = some e
  | [], e => by simp [nestedMembers, nodesOfMembers]
  | p :: ps, e => by
      have hfirst : (∃ filter, nested p = .ok filter) ↔ p.nodes.findSome? ownError? = none :=
        exists_eq_ok_iff_of_eq_error_iff fun _ => nested_eq_error_iff
      rw [nestedMembers_cons_eq_error_iff, nodesOfMembers, List.findSome?_append,
        Option.or_eq_some_iff, nested_eq_error_iff, hfirst, nestedMembers_eq_error_iff]

end

/-- A predicate that restricts something has a filter exactly when nothing is wrong with any of the
predicates in it, and else the error is that of the first of them that something is wrong with. The
others have no filter and no error. -/
theorem filter?_first_error :
    all.filter? = .ok none ∧ (∀ c, (group c []).filter? = .ok none) ∧
      ∀ p : Predicate, p ≠ .all → (∀ c, p ≠ .group c []) →
        ((∃ filter, p.filter? = .ok (some filter)) ↔ ∀ node ∈ p.nodes, node.ownError? = none) ∧
        ∀ e, p.filter? = .error e ↔
          ∃ before node after, p.nodes = before ++ node :: after ∧ node.ownError? = some e ∧
            ∀ other ∈ before, other.ownError? = none := by
  refine ⟨rfl, fun _ => rfl, fun p hall hgroup => ⟨?_, fun e => ?_⟩⟩
  · have hsome : (∃ filter, p.filter? = .ok (some filter)) ↔ ∃ filter, nested p = .ok filter := by
      simp only [filter?_eq_map_nested hall hgroup, map_eq_ok_iff, Option.some.injEq,
        exists_eq_right]
    rw [hsome, exists_eq_ok_iff_of_eq_error_iff fun _ => nested_eq_error_iff,
      List.findSome?_eq_none_iff]
  · rw [filter?_eq_map_nested hall hgroup, map_eq_error_iff, nested_eq_error_iff,
      List.findSome?_eq_some_iff]

def faulty : Predicate :=
  .group .and [.all, .not (.group .or [.compare "rating" (.between (.int 1) (.int 5)),
    .group .and []]), .compare "age" (.named "between?" (.int 1))]

/-- The empty group comes first in reading order, though it lies deeper. -/
theorem filter?_first_error_faulty :
    faulty ≠ .all ∧ (∀ c, faulty ≠ .group c []) ∧ faulty.filter? = .error (.emptyGroup .and) ∧
      ¬∃ filter, faulty.filter? = .ok (some filter) := by
  have hall : faulty ≠ .all := nofun
  have hgroup : ∀ c, faulty ≠ .group c [] := nofun
  obtain ⟨hok, herror⟩ := filter?_first_error.2.2 faulty hall hgroup
  have hnodes : faulty.nodes = faulty.nodes.take 5 ++ .group .and [] :: faulty.nodes.drop 6 := rfl
  have hbefore : ∀ other ∈ faulty.nodes.take 5, other.ownError? = none := by decide
  refine ⟨hall, hgroup, (herror _).2 ⟨_, _, _, hnodes, rfl, hbefore⟩, fun hfilter => ?_⟩
  have hmem : group .and [] ∈ faulty.nodes := by
    rw [hnodes]
    exact List.mem_append_right _ List.mem_cons_self
  nomatch hok.1 hfilter _ hmem

end Predicate

end DataApi
