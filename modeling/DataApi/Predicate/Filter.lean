import DataApi.Predicate.Basic

/-!
# Filters

The server takes a predicate as an object. A comparison becomes
`{field: {operator: value}}`, a group `{"and": [..]}` or `{"or": [..]}`, a negation `{"not": ..}`;
the predicate that holds of everything becomes the empty object inside another one, and no filter
at all where it stands alone. An empty group alone is no filter either, but inside another
predicate it is an error, as is an operator the server does not know. The first error in reading
order counts.
-/

namespace DataApi

inductive FilterOperator where
  | relation (r : Relation)
  | between
  deriving DecidableEq

instance : Keyword FilterOperator where
  all := [.relation .eq, .relation .ne, .relation .gt, .relation .lt, .relation .ge, .relation .le,
    .relation .contains, .relation .notContains, .relation .beginsWith, .between]
  keyword
    | .relation .eq => "eq"
    | .relation .ne => "ne"
    | .relation .gt => "gt"
    | .relation .lt => "lt"
    | .relation .ge => "ge"
    | .relation .le => "le"
    | .relation .contains => "contains"
    | .relation .notContains => "notContains"
    | .relation .beginsWith => "beginsWith"
    | .between => "between"
  mem_all
    | .relation r => by cases r <;> decide
    | .between => by decide
  nodup_keywords := by decide

inductive FilterError where
  | unknownOperator (field operator : String)
  /-- A group inside another predicate has no members. -/
  | emptyGroup (combinator : Combinator)
  deriving DecidableEq

def FilterError.message : FilterError → String
  | .unknownOperator field operator =>
      "Operator '" ++ operator ++ "' used on field '" ++ field ++
        "' has no server-side filter equivalent"
  | .emptyGroup combinator =>
      "An '" ++ Keyword.keyword combinator ++
        "' predicate group must contain at least one predicate"

/-- The operator of a comparison and the value it is applied to. -/
def Comparison.applied (field : String) : Comparison → Except FilterError (FilterOperator × Json)
  | .relation r value => .ok (.relation r, value)
  | .between low high => .ok (.between, .list [low, high])
  | .named keyword value =>
      match Keyword.ofKeyword? keyword with
      | some operator => .ok (operator, value)
      | none => .error (.unknownOperator field keyword)

def Comparison.filter (field : String) (c : Comparison) : Except FilterError Json := do
  let (operator, value) ← c.applied field
  return .single field (.single (Keyword.keyword operator) value)

namespace Predicate

mutual

/-- The filter of a predicate that stands inside another one. -/
def nested : Predicate → Except FilterError Json
  | .all => .ok (.object [])
  | .compare field c => c.filter field
  | .group c [] => .error (.emptyGroup c)
  | .group c (p :: ps) => do
      let first ← nested p
      let others ← nestedMembers ps
      return .single (Keyword.keyword c) (.list (first :: others))
  | .not p => do return .single "not" (← nested p)

def nestedMembers : List Predicate → Except FilterError (List Json)
  | [] => .ok []
  | p :: ps => do
      let first ← nested p
      let others ← nestedMembers ps
      return first :: others

end

/-- The filter of a predicate, if it restricts anything. -/
def filter? : Predicate → Except FilterError (Option Json)
  | .all => .ok none
  | .group _ [] => .ok none
  | p => (nested p).map some

theorem nested_group {c : Combinator} {ps : List Predicate} (h : ps ≠ []) :
    nested (.group c ps) =
      (nestedMembers ps).map fun filters => .single (Keyword.keyword c) (.list filters) := by
  cases ps with
  | nil => exact absurd rfl h
  | cons p ps =>
      rw [nested, nestedMembers]
      cases nested p with
      | error e => rfl
      | ok first => cases nestedMembers ps <;> rfl

end Predicate

end DataApi
