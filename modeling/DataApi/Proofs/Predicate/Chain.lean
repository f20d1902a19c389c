import DataApi.Predicate.Basic

/-!
# Chains of one operator

What comes out when a list of predicates is combined from left to right by one operator. While the
chain is run, the predicate so far may hold of everything, be the one predicate that has come yet,
or be a group; and a group it starts with is extended in place only if it is of the operator's kind.
But apart from the predicates that hold of everything, every step does the same: what the predicate
so far brings to a group of that kind becomes the beginning of the group, and the next predicate its
last member, as it is (`extend_eq_group`). So a chain is one group, of which only the first member
can be taken apart.
-/

namespace DataApi

namespace Predicate

instance (p : Predicate) : Decidable (p = .all) := decidable_of_iff _ isAll_iff

/-- The members that a predicate brings to a group that begins with it: a group of the same kind is
taken apart. -/
def membersIn (c : Combinator) : Predicate → List Predicate
  | .group d members => if d = c then members else [.group d members]
  | p => [p]

/-- What a chain of conjunctions comes to. The predicates that hold of everything are dropped, and
of the others several make a group, while a single one stays what it is. -/
def conjunction (ps : List Predicate) : Predicate :=
  match ps.filter fun p => p ≠ .all with
  | [] => .all
  | [p] => p
  | p :: others => .group .and (p.membersIn .and ++ others)

/-- What a chain of disjunctions that begins with `p` comes to. A predicate that holds of everything
takes the place of all, and again a single one stays what it is. -/
def disjunction (p : Predicate) (ps : List Predicate) : Predicate :=
  if ∃ q ∈ p :: ps, q = .all then .all
  else if ps.isEmpty then p
  else .group .or (p.membersIn .or ++ ps)

@[simp] theorem membersIn_group_self (c : Combinator) (members : List Predicate) :
    (group c members).membersIn c = members :=
  if_pos rfl

theorem extend_eq_group (c : Combinator) (p q : Predicate) :
    extend c p q = .group c (p.membersIn c ++ [q]) := by
  cases p with
  | all => rfl
  | compare field comparison => rfl
  | not p => rfl
  | group d members =>
      by_cases hd : d = c
      · rw [extend, membersIn, if_pos hd, if_pos hd, hd]
      · rw [extend, membersIn, if_neg hd, if_neg hd]
        rfl

theorem extend_ne_all (c : Combinator) (p q : Predicate) : extend c p q ≠ .all := by
  rw [extend_eq_group]
  nofun

theorem isAll_eq_false_of_ne_all {p : Predicate} (hp : p ≠ .all) : p.isAll = false :=
  Bool.eq_false_iff.2 fun h => hp (isAll_iff.1 h)

theorem and_of_ne_all {p q : Predicate} (hp : p ≠ .all) (hq : q ≠ .all) :
    p.and q = extend .and p q := by
  rw [Predicate.and, isAll_eq_false_of_ne_all hp, isAll_eq_false_of_ne_all hq,
    if_neg Bool.false_ne_true, if_neg Bool.false_ne_true]

theorem or_of_ne_all {p q : Predicate} (hp : p ≠ .all) (hq : q ≠ .all) :
    p.or q = extend .or p q := by
  rw [Predicate.or, isAll_eq_false_of_ne_all hp, isAll_eq_false_of_ne_all hq, Bool.or_self,
    if_neg Bool.false_ne_true]

/-- Where no predicate holds of everything, a chain of an operator is one group. -/
theorem foldl_eq_group {c : Combinator} {op : Predicate → Predicate → Predicate}
    (hop : ∀ {p q}, p ≠ .all → q ≠ .all → op p q = extend c p q)
    {p q : Predicate} {ps : List Predicate} (hp : p ≠ .all) (hps : ∀ r ∈ q :: ps, r ≠ .all) :
    (q :: ps).foldl op p = .group c (p.membersIn c ++ q :: ps) := by
  induction ps generalizing p q with
  | nil =>
      have hq : q ≠ .all := hps q List.mem_cons_self
      rw [List.foldl_cons, List.foldl_nil, hop hp hq, extend_eq_group]
  | cons r ps ih =>
      have hq : q ≠ .all := hps q List.mem_cons_self
      have hrest : ∀ s ∈ r :: ps, s ≠ .all := fun s hs => hps s (List.mem_cons_of_mem q hs)
      rw [List.foldl_cons, hop hp hq, ih (extend_ne_all c p q) hrest, extend_eq_group,
        membersIn_group_self, List.append_assoc]
      rfl

theorem foldl_and_filter (p : Predicate) (ps : List Predicate) :
    (ps.filter fun q => q ≠ .all).foldl and p = ps.foldl and p := by
  induction ps generalizing p with
  | nil => rfl
  | cons q ps ih =>
      by_cases hq : q = .all
      · rw [List.filter_cons_of_neg (by simpa using hq), List.foldl_cons, hq, and_all, ih]
      · rw [List.filter_cons_of_pos (by simpa using hq), List.foldl_cons, List.foldl_cons, ih]

theorem foldl_and (p : Predicate) (ps : List Predicate) :
    ps.foldl and p = conjunction (p :: ps) := by
  have hfold : ps.foldl and p = ((p :: ps).filter fun q => q ≠ .all).foldl and .all := by
    rw [foldl_and_filter, List.foldl_cons, all_and]
  have hrestricts : ∀ q ∈ (p :: ps).filter fun q => q ≠ .all, q ≠ .all := by
    intro q hq
    simpa using (List.mem_filter.1 hq).2
  rw [hfold, conjunction]
  generalize (p :: ps).filter (fun q => q ≠ .all) = restricting at hrestricts
  match restricting with
  | [] => rfl
  | [q] => rfl
  | q :: r :: others =>
      obtain ⟨hq, hothers⟩ := List.forall_mem_cons.1 hrestricts
      rw [List.foldl_cons, all_and, foldl_eq_group and_of_ne_all hq hothers]

theorem foldl_or_all (ps : List Predicate) : ps.foldl or .all = .all := by
  induction ps with
  | nil => rfl
  | cons q ps ih => rw [List.foldl_cons, all_or, ih]

theorem foldl_or_of_mem {p : Predicate} {ps : List Predicate} (h : .all ∈ p :: ps) :
    ps.foldl or p = .all := by
  rcases List.mem_cons.1 h with rfl | h
  · exact foldl_or_all ps
  · obtain ⟨before, after, rfl⟩ := List.append_of_mem h
    rw [List.foldl_append, List.foldl_cons, or_all, foldl_or_all]

theorem foldl_or (p : Predicate) (ps : List Predicate) : ps.foldl or p = disjunction p ps := by
  unfold disjunction
  split
  · next h =>
    obtain ⟨q, hq, rfl⟩ := h
    exact foldl_or_of_mem hq
  · next h =>
    have hrestricts : ∀ q ∈ p :: ps, q ≠ .all := fun q hq hall => h ⟨q, hq, hall⟩
    obtain ⟨hp, hps⟩ := List.forall_mem_cons.1 hrestricts
    cases ps with
    | nil => rfl
    | cons q ps => exact foldl_eq_group or_of_ne_all hp hps

/-- What combining a list from left to right comes to. By `and`, the predicates that restrict
anything stand in one group, in order, unless there is only one of them or none. By `or`, all of
them stand in one group unless there is only one, and one that holds of everything takes the place
of the whole. Only what comes first is taken apart if it is a group of that kind. -/
theorem chain_of_operator (p : Predicate) (ps : List Predicate) :
    ps.foldl and p = conjunction (p :: ps) ∧ ps.foldl or p = disjunction p ps :=
  ⟨foldl_and p ps, foldl_or p ps⟩

/-- The first group is extended, the second one nested. -/
example (p q r s : Predicate) :
    conjunction [.all, .group .and [p, .all], .not q, .all, .group .and [r, s]] =
      .group .and [p, .all, .not q, .group .and [r, s]] := rfl

end Predicate

end DataApi
