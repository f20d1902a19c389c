import DataApi.Document.Selection
import DataApi.Document.Variables

/-!
# Documents

A document asks for one operation on one model. It has the name of the operation's root field,
what is selected of the answer, and the variables that go with it. Before an operation has been
chosen the name is empty and nothing is selected.
-/

namespace DataApi

/-- A document under construction, or complete. -/
structure Document where
  kind : OperationKind
  /-- The name of the root field; empty until an operation has been chosen. -/
  name : String := ""
  directive? : Option Operation := none
  selection? : Option SelectionSet := none
  declared : Variables := ∅

namespace Document

def operationName (d : Document) : String := Naming.pascal d.name

def values (d : Document) : OrderedMap Json := d.declared.valueMap

/-- Equality of documents in which neither the order of the variables nor that of object entries
counts. -/
def same (d e : Document) : Bool :=
  d.kind = e.kind && d.name = e.name && d.directive? = e.directive? &&
    d.selection? = e.selection? && d.declared.same e.declared

/-- Declares variables on top of those the document has: they are first collected among
themselves, then declared in the document. -/
def register (d : Document) (policy : CollisionPolicy) (declarations : List (String × Variable)) :
    Except Collision Document := do
  let incoming ← Variables.ofDeclarations policy declarations
  let declared ← (Variables.absorb policy d.declared incoming.entries).result
  return { d with declared }

@[simp] theorem register_nil (d : Document) (policy : CollisionPolicy) :
    d.register policy [] = .ok d := rfl

end Document

end DataApi
