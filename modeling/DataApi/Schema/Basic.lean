import DataApi.Naming
import DataApi.Operation

/-!
# Schemas of models

A schema names a model, its primary key and its fields. A field holds a scalar, a value of an
enumeration, a value that is stored inline, or an association with another model. The model that
belongs to another one holds the foreign key: the target names list its own fields in the order of
the associated keys of the other model. The default primary key is the one field `id`; a custom
key lists its fields.
-/

namespace DataApi

inductive ScalarType where
  | id
  | string
  | int
  | float
  | boolean
  | date
  | time
  | dateTime
  | timestamp
  | email
  | json
  | url
  | phone
  | ipAddress
  deriving DecidableEq

instance : Keyword ScalarType where
  all := [.id, .string, .int, .float, .boolean, .date, .time, .dateTime, .timestamp, .email,
    .json, .url, .phone, .ipAddress]
  keyword
    | .id => "ID"
    | .string => "String"
    | .int => "Int"
    | .float => "Float"
    | .boolean => "Boolean"
    | .date => "AWSDate"
    | .time => "AWSTime"
    | .dateTime => "AWSDateTime"
    | .timestamp => "AWSTimestamp"
    | .email => "AWSEmail"
    | .json => "AWSJSON"
    | .url => "AWSURL"
    | .phone => "AWSPhone"
    | .ipAddress => "AWSIPAddress"
  mem_all a := by cases a <;> decide
  nodup_keywords := by decide

/-- How a model is tied to another one. -/
inductive Association where
  /-- This model holds the foreign key: the fields `targetNames` store the `associatedKeys` of the
  other model, position by position. -/
  | belongsTo (model : String) (associatedKeys targetNames : List String)
  /-- One instance of the other model holds the foreign key. -/
  | hasOne (model : String) (associatedKeys : List String)
  /-- Any number of instances of the other model hold the foreign key. -/
  | hasMany (model : String)
  deriving DecidableEq

inductive FieldType where
  | scalar (type : ScalarType)
  | enum (name : String)
  /-- A value without a key of its own, stored, selected and sent as a whole. -/
  | embedded (name : String)
  | model (association : Association)
  deriving DecidableEq

inductive PrimaryKey where
  | default
  | custom (fields : List String)
  deriving DecidableEq

structure Field where
  name : String
  type : FieldType
  required : Bool := false
  readOnly : Bool := false
  deriving DecidableEq

/-- A model: its names, its primary key and its fields in order of declaration. -/
structure Schema where
  name : String
  /-- The plural of the name, where it is not the name with an `s`. -/
  plural : Option String := none
  primaryKey : PrimaryKey := .default
  fields : List Field
  deriving DecidableEq

/-- The identifier field that goes with the default primary key. -/
def Field.id : Field where
  name := Naming.id
  type := .scalar .id
  required := true

def FieldType.association? : FieldType → Option Association
  | .model a => some a
  | _ => none

namespace Schema

/-- The plural of the model's name, as it is used where instances are listed. -/
def pluralName (s : Schema) : String := s.plural.getD (s.name ++ "s")

def field? (s : Schema) (name : String) : Option Field := s.fields.find? fun f => f.name == name

def customKeyFields? (s : Schema) : Option (List String) :=
  match s.primaryKey with
  | .default => none
  | .custom fields => some fields

def keyFields (s : Schema) : List String := s.customKeyFields?.getD [Naming.id]

def isKeyField (s : Schema) (name : String) : Bool := s.keyFields.contains name

/-- The name of an operation's root field: the operation, and the name of what it is about. -/
def rootField (s : Schema) (op : Operation) : String :=
  Keyword.keyword op ++ match op with
    | .list => s.pluralName
    | _ => s.name

theorem field?_eq_none_iff {s : Schema} {name : String} :
    s.field? name = none ↔ ∀ f ∈ s.fields, f.name ≠ name := by
  simp [field?]

theorem isKeyField_iff {s : Schema} {name : String} :
    s.isKeyField name = true ↔ name ∈ s.keyFields := by
  simp [isKeyField]

theorem rootField_ne_empty (s : Schema) (op : Operation) : s.rootField op ≠ "" := by
  cases op <;> simp [rootField, Keyword.keyword]

end Schema

end DataApi
