import DataApi.Instance
import DataApi.Schema.Basic

/-!
# What a mutation writes

The input of a mutation is made of contributions, in the order of the schema's fields. A plain
field contributes the value the instance has for it, unless the server computes the field; a
belongs-to field contributes each of its target fields, with the value the instance has for the
target or else the one that the associated object has for the key. Missing values are
contributed as `null`. Where several contributions go to one name, a value is never replaced by
`null`.

Creating sends all of this, updating leaves the nulls out, and deleting sends the primary key alone.
-/

namespace DataApi

/-- An instance has no value for a field of its primary key. -/
structure MissingKeyField where
  model : String
  field : String
  deriving DecidableEq

def MissingKeyField.message (e : MissingKeyField) : String :=
  "Model '" ++ e.model ++ "' is missing a value for its primary key field '" ++ e.field ++ "'"

/-- Writes a contribution to the input of a mutation: an entry that is there gives way to a value
but not to `null`. -/
def contribute (input : OrderedMap Json) (name : String) (value : Json) : OrderedMap Json :=
  if value.isNull && input.contains name then input else input.insert name value

namespace Schema

/-- Whether the server computes a field, so that it is not sent. The fields of the primary key
always identify the instance, even those that the server generates. -/
def isServerComputed (s : Schema) (f : Field) : Bool :=
  f.readOnly && !f.required && !s.isKeyField f.name

end Schema

/-- The value of a foreign key: the one that the instance has for the target, or else the one that
the object under the belongs-to field has for the associated key. -/
def Instance.foreignKey (m : Instance) (field key target : String) : Json :=
  ((m.nonNull? target).or ((m.get? field).bind (·.get? key))).getD .null

def Field.contributions (s : Schema) (m : Instance) (f : Field) : List (String × Json) :=
  match f.type with
  | .scalar _ | .enum _ | .embedded _ =>
      if s.isServerComputed f then [] else [(f.name, (m.get? f.name).getD .null)]
  | .model (.belongsTo _ keys targets) =>
      (keys.zip targets).map fun e => (e.2, m.foreignKey f.name e.1 e.2)
  | .model (.hasOne _ _) | .model (.hasMany _) => []

namespace Schema

/-- All contributions to the input of a mutation, in the order of the fields. -/
def contributions (s : Schema) (m : Instance) : List (String × Json) :=
  s.fields.flatMap (Field.contributions s m)

def createInput (s : Schema) (m : Instance) : OrderedMap Json :=
  (s.contributions m).foldl (fun input e => contribute input e.1 e.2) ∅

/-- The input that updates an instance, which needs a value for every key field. -/
def updateInput (s : Schema) (m : Instance) : Except MissingKeyField (OrderedMap Json) :=
  let input := (s.createInput m).filterValues fun value => !value.isNull
  match s.keyFields.find? fun field => !input.contains field with
  | some field => .error ⟨s.name, field⟩
  | none => .ok input

def keyValue (s : Schema) (m : Instance) (field : String) : Except MissingKeyField Json :=
  match m.nonNull? field with
  | some value => .ok value
  | none => .error ⟨s.name, field⟩

/-- The primary key of an instance: a value for every key field, in the order of the key. -/
def keyInput (s : Schema) (m : Instance) : Except MissingKeyField (OrderedMap Json) := do
  let entries ← s.keyFields.mapM fun field => do return (field, ← s.keyValue m field)
  return OrderedMap.ofList entries

def mutationInput (s : Schema) (m : Instance) :
    MutationKind → Except MissingKeyField (OrderedMap Json)
  | .create => .ok (s.createInput m)
  | .update => s.updateInput m
  | .delete => s.keyInput m

end Schema

end DataApi
