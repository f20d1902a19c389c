import DataApi.Json.Basic
import DataApi.OrderedMap

/-!
# Instances of models

An instance holds a JSON value for some of the fields of its model, in the order in which they
came in. A field that is absent and a field that is set to `null` are different things, and
`get?` tells them apart; `nonNull?` does not.

An instance is made from a JSON object, from a list of pairs, or from a map. The entries of a map
with integer keys come in the order of the keys, written in decimal. Keys that are lists have no
written form, so only the empty map of that kind makes an instance.
-/

namespace DataApi

/-- The values of the fields of one instance. -/
abbrev Instance := OrderedMap Json

inductive InstanceError where
  | notAnObject (found : String)
  /-- A key of the map has no written form. -/
  | keyNotAString
  deriving DecidableEq

def InstanceError.message : InstanceError → String
  | .notAnObject found => "A model instance must serialize to an object, found " ++ found
  | .keyNotAString => "Could not serialize the model instance: key must be a string"

/-- Writes `value` under an integer key of a list of entries in increasing order of their keys. -/
def insertSorted {α : Type} (key : Int) (value : α) : List (Int × α) → List (Int × α)
  | [] => [(key, value)]
  | (k, v) :: rest =>
      if key < k then (key, value) :: (k, v) :: rest
      else if key = k then (key, value) :: rest
      else (k, v) :: insertSorted key value rest

/-- The entries of a map with integer keys, in increasing order of the keys; of several entries
for one key the last one counts. -/
def sortEntries {α : Type} (entries : List (Int × α)) : List (Int × α) :=
  entries.foldl (fun sorted e => insertSorted e.1 e.2 sorted) []

namespace Instance

def ofJson : Json → Except InstanceError Instance
  | .object entries => .ok (OrderedMap.ofList entries)
  | j => .error (.notAnObject j.kind)

def ofIntKeyed (entries : List (Int × Json)) : Instance :=
  OrderedMap.ofList ((sortEntries entries).map fun e => (toString e.1, e.2))

/-- The instance of a map whose keys are lists of strings. -/
def ofListKeyed : List (List String × Json) → Except InstanceError Instance
  | [] => .ok ∅
  | _ :: _ => .error .keyNotAString

def toJson (m : Instance) : Json := .object m.entries

/-- The value of a field unless it is absent or `null`. -/
def nonNull? (m : Instance) (field : String) : Option Json :=
  (m.get? field).filter fun value => !value.isNull

theorem nonNull?_eq_some_iff {m : Instance} {field : String} {value : Json} :
    m.nonNull? field = some value ↔ m.get? field = some value ∧ value ≠ .null := by
  rw [nonNull?, Option.filter_eq_some_iff]
  simp only [Bool.not_eq_true', ← Bool.not_eq_true, Json.isNull_iff, ne_eq]

theorem nonNull?_eq_none_iff {m : Instance} {field : String} :
    m.nonNull? field = none ↔ m.get? field = none ∨ m.get? field = some .null := by
  unfold nonNull?
  cases h : m.get? field with
  | none => simp
  | some value => simp [Option.filter, ← Json.isNull_iff]

end Instance

end DataApi
