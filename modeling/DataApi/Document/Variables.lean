import DataApi.Instance
import DataApi.Keyword

/-!
# Variables of a document

A variable has a type and a value. The variables of a document are kept in the order in which they
were first declared, and declaring one again keeps its position. What happens when the type then
differs is a matter of policy: the declaration is rejected, or it overwrites the earlier one.

`absorb` declares the variables of a list one after the other and stops at the first collision; it
returns the variables as far as it came, together with that collision.
-/

namespace DataApi

/-- What happens when a variable is declared again with another type. -/
inductive CollisionPolicy where
  /-- It is a collision; with the same type the value is replaced. -/
  | reject
  | overwrite
  deriving DecidableEq

instance : Keyword CollisionPolicy where
  all := [.reject, .overwrite]
  keyword
    | .reject => "reject"
    | .overwrite => "overwrite"
  mem_all a := by cases a <;> decide
  nodup_keywords := by decide

structure Variable where
  /-- The type under which the document declares it. -/
  type : String
  value : Json

/-- Equality of variables in which the order of object entries does not count. -/
def Variable.same (v w : Variable) : Bool := v.type == w.type && v.value.same w.value

/-- A variable was declared under a type and then again under another one. -/
structure Collision where
  name : String
  existing : String
  incoming : String
  deriving DecidableEq

def Collision.message (c : Collision) : String :=
  "Variable '$" ++ c.name ++ "' is already declared as '" ++ c.existing ++
    "' and cannot be redeclared as '" ++ c.incoming ++ "'"

/-- The variables of a document in order of first declaration. -/
abbrev Variables := OrderedMap Variable

namespace Variables

structure Progress where
  /-- The variables as far as the declarations went through. -/
  reached : Variables
  /-- The collision that stopped them, if one did. -/
  collision? : Option Collision

/-- All variables, or the collision that stopped the declarations. -/
def Progress.result (p : Progress) : Except Collision Variables :=
  match p.collision? with
  | none => .ok p.reached
  | some c => .error c

def declare (policy : CollisionPolicy) (vs : Variables) (name : String) (v : Variable) :
    Except Collision Variables :=
  match vs.get? name with
  | none => .ok (vs.insert name v)
  | some old =>
      if policy = .reject ∧ old.type ≠ v.type then .error ⟨name, old.type, v.type⟩
      else .ok (vs.insert name v)

/-- Declares the variables of a list one after the other, up to the first collision. -/
def absorb (policy : CollisionPolicy) (vs : Variables) : List (String × Variable) → Progress
  | [] => ⟨vs, none⟩
  | e :: rest =>
      match declare policy vs e.1 e.2 with
      | .ok vs => absorb policy vs rest
      | .error c => ⟨vs, some c⟩

def ofDeclarations (policy : CollisionPolicy) (declarations : List (String × Variable)) :
    Except Collision Variables :=
  (absorb policy ∅ declarations).result

def valueMap (vs : Variables) : OrderedMap Json := vs.map Variable.value

def toJson (vs : Variables) : Json :=
  .object (vs.entries.map fun e => (e.1, .object [("type", .string e.2.type), ("value", e.2.value)]))

/-- Equality of variables in which no order counts. -/
def same (vs ws : Variables) : Bool := OrderedMap.sameBy Variable.same vs ws

@[simp] theorem absorb_nil (policy : CollisionPolicy) (vs : Variables) :
    absorb policy vs [] = ⟨vs, none⟩ := rfl

theorem absorb_cons_of_ok {policy : CollisionPolicy} {vs ws : Variables} {e : String × Variable}
    (rest : List (String × Variable)) (h : declare policy vs e.1 e.2 = .ok ws) :
    absorb policy vs (e :: rest) = absorb policy ws rest := by
  simp [absorb, h]

theorem absorb_cons_of_error {policy : CollisionPolicy} {vs : Variables} {e : String × Variable}
    {c : Collision} (rest : List (String × Variable)) (h : declare policy vs e.1 e.2 = .error c) :
    absorb policy vs (e :: rest) = ⟨vs, some c⟩ := by
  simp [absorb, h]

/-- Nothing collides when declarations overwrite. -/
theorem declare_overwrite (vs : Variables) (name : String) (v : Variable) :
    declare .overwrite vs name v = .ok (vs.insert name v) := by
  unfold declare
  split <;> simp

end Variables

end DataApi
