import DataApi.Schema.Basic

/-!
# Selection sets

A selection names a field, or an object together with what is selected in it. Of a model the plain
fields are selected by name, and of the models it is tied to by a single instance the associated
keys, one level down; the other side of a one-to-many tie is left out. Every set may end in the
name of the type. What is selected of a list of instances stands under `items`, beside the token of
the next page.
-/

namespace DataApi

inductive Selection where
  | field (name : String)
  | object (name : String) (members : List Selection)

abbrev SelectionSet := List Selection

namespace Selection

mutual

def decEq (a b : Selection) : Decidable (a = b) :=
  match a, b with
  | .field x, .field y => decidable_of_iff (x = y) (by simp)
  | .object x xs, .object y ys =>
      haveI := decEqSets xs ys
      decidable_of_iff (x = y ∧ xs = ys) (by simp)
  | .field _, .object _ _ => isFalse nofun
  | .object _ _, .field _ => isFalse nofun

def decEqSets (xs ys : List Selection) : Decidable (xs = ys) :=
  match xs, ys with
  | [], [] => isTrue rfl
  | x :: xs, y :: ys =>
      haveI := decEq x y
      haveI := decEqSets xs ys
      decidable_of_iff (x = y ∧ xs = ys) (by simp)
  | [], _ :: _ => isFalse nofun
  | _ :: _, [] => isFalse nofun

end

instance : DecidableEq Selection := decEq

mutual

/-- The selection with every empty set below it replaced by the name of the type alone: a
document must not hold an empty set. -/
def filled : Selection → Selection
  | .field name => .field name
  | .object name members =>
      .object name (if members.isEmpty then [.field Naming.typename] else filledMembers members)

def filledMembers : List Selection → List Selection
  | [] => []
  | member :: rest => member.filled :: filledMembers rest

end

theorem filledMembers_eq_map (members : List Selection) :
    filledMembers members = members.map filled := by
  induction members with
  | nil => rfl
  | cons member rest ih => simp [filledMembers, ih]

end Selection

/-- The name of the type, where it is wanted. -/
def typenameSelection (wanted : Bool) : SelectionSet :=
  if wanted then [.field Naming.typename] else []

/-- What is selected of a field, if anything is. -/
def Field.selection? (typename : Bool) (f : Field) : Option Selection :=
  match f.type with
  | .scalar _ | .enum _ | .embedded _ => some (.field f.name)
  | .model (.belongsTo _ keys _) | .model (.hasOne _ keys) =>
      some (.object f.name (keys.map .field ++ typenameSelection typename))
  | .model (.hasMany _) => none

namespace SelectionSet

/-- What is selected of an instance of a model, with or without the names of the types. -/
def ofSchema (s : Schema) (typename : Bool) : SelectionSet :=
  s.fields.filterMap (Field.selection? typename) ++ typenameSelection typename

def paginated (members : SelectionSet) : SelectionSet :=
  [.object Naming.items members, .field Naming.nextToken]

/-- The set with every empty set in it, itself included, replaced by the name of the type. -/
def filled (members : SelectionSet) : SelectionSet :=
  if members.isEmpty then [.field Naming.typename] else Selection.filledMembers members

@[simp] theorem filled_nil : filled [] = [.field Naming.typename] := rfl

/-- What an object selects is filled like the set of its members. -/
theorem filled_object (name : String) (members : SelectionSet) :
    (Selection.object name members).filled = .object name (filled members) := rfl

end SelectionSet

end DataApi
