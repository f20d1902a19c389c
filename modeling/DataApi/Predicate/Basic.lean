import DataApi.Json.Basic
import DataApi.Keyword

/-!
# Predicates over the fields of a model

A predicate compares a field, combines other predicates, negates one, or holds of everything. The
operators `and` and `or` treat the last kind by its meaning: it is neutral for `and` and absorbs
for `or`. They also keep groups flat on the left, so that `(a.and b).and c` is one group of three.
The constructors take their arguments as they are.
-/

namespace DataApi

/-- The relations between a field and one value. -/
inductive Relation where
  | eq
  | ne
  | gt
  | lt
  | ge
  | le
  | contains
  | notContains
  | beginsWith
  deriving DecidableEq

/-- What a field is compared with. -/
inductive Comparison where
  | relation (r : Relation) (value : Json)
  | between (low high : Json)
  /-- The operator is given by its keyword, which need not exist. -/
  | named (keyword : String) (value : Json)

inductive Combinator where
  | and
  | or
  deriving DecidableEq

instance : Keyword Combinator where
  all := [.and, .or]
  keyword
    | .and => "and"
    | .or => "or"
  mem_all a := by cases a <;> decide
  nodup_keywords := by decide

/-- A condition on the fields of an instance. -/
inductive Predicate where
  | all
  | compare (field : String) (comparison : Comparison)
  | group (combinator : Combinator) (members : List Predicate)
  | not (p : Predicate)

/-- Equality of comparisons in which the order of object entries does not count. -/
def Comparison.same : Comparison → Comparison → Bool
  | .relation r v, .relation q w => r = q && v.same w
  | .between a b, .between c d => a.same c && b.same d
  | .named k v, .named l w => k == l && v.same w
  | _, _ => false

namespace Predicate

def isAll : Predicate → Bool
  | .all => true
  | _ => false

/-- Adds a predicate to another one, as a further member if that one is a group of the same
kind. -/
def extend (c : Combinator) : Predicate → Predicate → Predicate
  | .group d members, q =>
      if d = c then .group d (members ++ [q]) else .group c [.group d members, q]
  | p, q => .group c [p, q]

def and (p q : Predicate) : Predicate :=
  if p.isAll then q else if q.isAll then p else extend .and p q

def or (p q : Predicate) : Predicate :=
  if p.isAll || q.isAll then .all else extend .or p q

mutual

/-- Equality of predicates in which the order of object entries does not count. -/
def same : Predicate → Predicate → Bool
  | .all, .all => true
  | .compare f c, .compare g d => f == g && c.same d
  | .group c ps, .group d qs => c = d && sameMembers ps qs
  | .not p, .not q => same p q
  | _, _ => false

def sameMembers : List Predicate → List Predicate → Bool
  | [], [] => true
  | p :: ps, q :: qs => same p q && sameMembers ps qs
  | _, _ => false

end

@[simp] theorem isAll_all : all.isAll = true := rfl

theorem isAll_iff {p : Predicate} : p.isAll = true ↔ p = .all := by
  cases p <;> simp [isAll]

@[simp] theorem all_and (p : Predicate) : all.and p = p := rfl

@[simp] theorem and_all (p : Predicate) : p.and all = p := by
  cases p <;> rfl

@[simp] theorem all_or (p : Predicate) : all.or p = all := rfl

@[simp] theorem or_all (p : Predicate) : p.or all = all := by
  simp [or]

end Predicate

end DataApi
