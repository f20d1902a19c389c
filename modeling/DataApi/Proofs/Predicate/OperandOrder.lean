import DataApi.Proofs.Predicate.Chain
import DataApi.Proofs.Predicate.FirstError

/-!
# When the order of two operands counts

A predicate is accepted when it has a filter or leaves nothing to filter. An operator takes its
operands differently: a group of its own kind on the left is extended, while one on the right is
nested. Extending takes the members of the group one by one, so what has been a group without
members is none any more, whereas inside another predicate such a group is an error. This is the
only way in which the order can count: exchanging the operands makes a difference exactly when one
of them is the group of the operator's kind without members, and the other one restricts something
and is accepted (`accepted_swap_iff`).
-/

namespace DataApi

namespace Predicate

/-- There is a filter of the predicate, or nothing to filter. -/
def Accepted (p : Predicate) : Prop := ∃ filter?, p.filter? = .ok filter?

/-- There is a filter of the predicate inside another one. -/
def Nests (p : Predicate) : Prop := ∃ filter, nested p = .ok filter

/-- The group of a kind that has no members, and a predicate that restricts something. -/
structure JoinsEmpty (c : Combinator) (p q : Predicate) : Prop where
  empty : p = .group c []
  accepted : q.Accepted
  restricts : q ≠ .all
  not_empty : ∀ d, q ≠ .group d []

theorem nestedMembers_eq_ok_iff {ps : List Predicate} :
    (∃ filters, nestedMembers ps = .ok filters) ↔ ∀ p ∈ ps, p.Nests := by
  induction ps with
  | nil => simp [nestedMembers]
  | cons p ps ih =>
      rw [List.forall_mem_cons, ← ih]
      constructor
      · rintro ⟨filters, h⟩
        obtain ⟨first, hfirst, others, hothers, _⟩ := nestedMembers_cons_eq_ok h
        exact ⟨⟨first, hfirst⟩, others, hothers⟩
      · rintro ⟨⟨first, hfirst⟩, others, hothers⟩
        rw [nestedMembers, hfirst, hothers]
        exact ⟨_, rfl⟩

theorem nests_group_iff {c : Combinator} {members : List Predicate} :
    (group c members).Nests ↔ members ≠ [] ∧ ∀ p ∈ members, p.Nests := by
  constructor
  · rintro ⟨filter, h⟩
    obtain ⟨filters, hfilters, _⟩ := nested_group_eq_ok h
    refine ⟨?_, nestedMembers_eq_ok_iff.1 ⟨filters, hfilters⟩⟩
    rintro rfl
    nomatch h
  · rintro ⟨hne, hmembers⟩
    obtain ⟨filters, hfilters⟩ := nestedMembers_eq_ok_iff.2 hmembers
    rw [Nests, nested_group hne, hfilters]
    exact ⟨_, rfl⟩

theorem not_nests_group_nil (c : Combinator) : ¬(group c []).Nests :=
  fun h => (nests_group_iff.1 h).1 rfl

/-- Of the predicates that restrict something, other than the groups without members, those are
accepted that have a filter inside another predicate. -/
theorem accepted_iff_nests {p : Predicate} (hall : p ≠ .all) (hgroup : ∀ c, p ≠ .group c []) :
    p.Accepted ↔ p.Nests := by
  rw [Accepted, Nests, filter?_eq_map_nested hall hgroup]
  constructor
  · rintro ⟨filter?, h⟩
    obtain ⟨filter, hfilter, _⟩ := map_eq_ok_iff.1 h
    exact ⟨filter, hfilter⟩
  · rintro ⟨filter, hfilter⟩
    exact ⟨some filter, map_eq_ok_iff.2 ⟨filter, hfilter, rfl⟩⟩

theorem nests_membersIn_iff {c : Combinator} {p : Predicate} :
    (∀ r ∈ p.membersIn c, r.Nests) ↔ p = .group c [] ∨ p.Nests := by
  have hself (h : p.membersIn c = [p]) (hempty : p ≠ .group c []) :
      (∀ r ∈ p.membersIn c, r.Nests) ↔ p = .group c [] ∨ p.Nests := by
    simp [h, hempty]
  cases p with
  | all => exact hself rfl nofun
  | compare field comparison => exact hself rfl nofun
  | not p => exact hself rfl nofun
  | group d members =>
      by_cases hd : d = c
      · subst hd
        rw [membersIn_group_self, nests_group_iff]
        by_cases hempty : members = []
        · simp [hempty]
        · simp [hempty]
      · exact hself (if_neg hd) fun h => hd (by injection h)

theorem accepted_extend_iff {c : Combinator} {p q : Predicate} :
    (extend c p q).Accepted ↔ (p = .group c [] ∨ p.Nests) ∧ q.Nests := by
  have hne : p.membersIn c ++ [q] ≠ [] := by simp
  have hall : group c (p.membersIn c ++ [q]) ≠ .all := nofun
  have hgroup : ∀ d, group c (p.membersIn c ++ [q]) ≠ .group d [] := by simp
  rw [extend_eq_group, accepted_iff_nests hall hgroup, nests_group_iff, List.forall_mem_append,
    List.forall_mem_singleton, nests_membersIn_iff, and_iff_right hne]

theorem joinsEmpty_iff {c : Combinator} {p q : Predicate} (hq : q ≠ .all) :
    JoinsEmpty c p q ↔ p = .group c [] ∧ q.Nests := by
  constructor
  · rintro ⟨hp, haccepted, hrestricts, hgroup⟩
    exact ⟨hp, (accepted_iff_nests hrestricts hgroup).1 haccepted⟩
  · rintro ⟨hp, hnests⟩
    have hgroup : ∀ d, q ≠ .group d [] := by
      rintro d rfl
      exact not_nests_group_nil d hnests
    exact ⟨hp, (accepted_iff_nests hq hgroup).2 hnests, hq, hgroup⟩

theorem accepted_only_on_left_of_extend {c : Combinator} {p q : Predicate} (hq : q ≠ .all) :
    (extend c p q).Accepted ∧ ¬(extend c q p).Accepted ↔ JoinsEmpty c p q := by
  have hpempty : p = .group c [] → ¬p.Nests := fun h => h ▸ not_nests_group_nil c
  have hqempty : q = .group c [] → ¬q.Nests := fun h => h ▸ not_nests_group_nil c
  rw [accepted_extend_iff, accepted_extend_iff, joinsEmpty_iff hq]
  tauto

/-- An operator that extends its left operand where both restrict something, and for which the order
does not matter where one of them holds of everything, accepts two predicates in one order only if
the first is the empty group. -/
theorem accepted_only_on_left_iff {c : Combinator} {op : Predicate → Predicate → Predicate}
    (hop : ∀ {p q}, p ≠ .all → q ≠ .all → op p q = extend c p q)
    (hall : ∀ p, op .all p = op p .all) (p q : Predicate) :
    (op p q).Accepted ∧ ¬(op q p).Accepted ↔ JoinsEmpty c p q := by
  by_cases hp : p = .all
  · rw [hp, hall q]
    exact iff_of_false and_not_self fun h => nomatch h.empty
  · by_cases hq : q = .all
    · rw [hq, hall p]
      exact iff_of_false and_not_self fun h => h.restricts rfl
    · rw [hop hp hq, hop hq hp]
      exact accepted_only_on_left_of_extend hq

/-- A comparison is accepted behind the group without members, but not in front of it. -/
theorem not_accepted_swap :
    ¬∀ p q : Predicate, ((p.and q).Accepted ↔ (q.and p).Accepted) ∧
      ((p.or q).Accepted ↔ (q.or p).Accepted) := by
  intro h
  let p : Predicate := .group .and []
  let q : Predicate := .compare "title" (.relation .eq (.string "A"))
  have hleft : (p.and q).Accepted := ⟨_, rfl⟩
  obtain ⟨filter?, hright⟩ := (h p q).1.1 hleft
  nomatch hright

/-- Exchanging the operands of an operator makes no difference to whether the result is accepted,
unless one of them is the group of the operator's kind without members and the other one, which
restricts something, is accepted by itself and not an empty group. Then the result is accepted with
the empty group on the left, and only so. -/
theorem accepted_swap_iff (p q : Predicate) :
    (((p.and q).Accepted ↔ (q.and p).Accepted) ↔
      ¬JoinsEmpty .and p q ∧ ¬JoinsEmpty .and q p) ∧
    (((p.or q).Accepted ↔ (q.or p).Accepted) ↔
      ¬JoinsEmpty .or p q ∧ ¬JoinsEmpty .or q p) ∧
    (JoinsEmpty .and p q → (p.and q).Accepted ∧ ¬(q.and p).Accepted) ∧
    (JoinsEmpty .or p q → (p.or q).Accepted ∧ ¬(q.or p).Accepted) := by
  have hand := accepted_only_on_left_iff and_of_ne_all fun r => by rw [all_and, and_all]
  have hor := accepted_only_on_left_iff or_of_ne_all fun r => by rw [all_or, or_all]
  have hboth {A B : Prop} : (A ↔ B) ↔ ¬(A ∧ ¬B) ∧ ¬(B ∧ ¬A) := by tauto
  refine ⟨?_, ?_, (hand p q).2, (hor p q).2⟩
  · rw [← hand p q, ← hand q p]
    exact hboth
  · rw [← hor p q, ← hor q p]
    exact hboth

theorem accepted_swap_iff_negation :
    let q : Predicate := .not (.group .and [.all, .compare "age" (.named "gt" (.int 1))])
    JoinsEmpty .or (.group .or []) q ∧ ((group .or []).or q).Accepted ∧
      ¬(q.or (.group .or [])).Accepted := by
  intro q
  have hjoins : JoinsEmpty .or (.group .or []) q := ⟨rfl, ⟨_, rfl⟩, nofun, nofun⟩
  exact ⟨hjoins, (accepted_swap_iff _ q).2.2.2 hjoins⟩

end Predicate

end DataApi
