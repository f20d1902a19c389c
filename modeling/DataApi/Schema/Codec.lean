import DataApi.Json.Decode
import DataApi.Schema.Basic

/-!
# Schemas as JSON

A schema is written as an object with all its members in order of declaration; only the plural is
left out when there is none. Reading takes the members in any order, ignores the entries it does
not know, and fills in the default key, no plural, and flags that are not set. The choices (the
type of a field, an association, the primary key) are written with the name of the variant as the
only key.
-/

namespace DataApi

def Json.strings (names : List String) : Json := .list (names.map .string)

namespace Association

def variants : List String := ["belongsTo", "hasOne", "hasMany"]

def toJson : Association → Json
  | .belongsTo model keys targets =>
      .single "belongsTo" (.object [("model", .string model),
        ("associatedKeys", .strings keys), ("targetNames", .strings targets)])
  | .hasOne model keys =>
      .single "hasOne" (.object [("model", .string model), ("associatedKeys", .strings keys)])
  | .hasMany model => .single "hasMany" (.object [("model", .string model)])

/-- The members of an association that have been read. -/
structure Draft where
  model : Option String := none
  keys : Option (List String) := none
  targets : Option (List String) := none

def Draft.addModel (d : Draft) (j : Json) : Except DecodeError Draft := do
  return { d with model := some (← j.asString) }

def Draft.addKeys (d : Draft) (j : Json) : Except DecodeError Draft := do
  return { d with keys := some (← j.asList Json.asString) }

def Draft.addTargets (d : Draft) (j : Json) : Except DecodeError Draft := do
  return { d with targets := some (← j.asList Json.asString) }

/-- The members of the model that holds the foreign key. -/
def belongsToRecord : Record Draft Association where
  names := ["model", "associatedKeys", "targetNames"]
  blank := {}
  add d
    | ("model", j) => d.addModel j
    | ("associatedKeys", j) => d.addKeys j
    | ("targetNames", j) => d.addTargets j
    | _ => .ok d
  finish d := do
    return .belongsTo (← Record.required "model" d.model)
      (← Record.required "associatedKeys" d.keys) (← Record.required "targetNames" d.targets)

/-- The members of a tie to the one instance that holds the foreign key. -/
def hasOneRecord : Record Draft Association where
  names := ["model", "associatedKeys"]
  blank := {}
  add d
    | ("model", j) => d.addModel j
    | ("associatedKeys", j) => d.addKeys j
    | _ => .ok d
  finish d := do
    return .hasOne (← Record.required "model" d.model) (← Record.required "associatedKeys" d.keys)

/-- The members of a tie to the instances that hold the foreign key. -/
def hasManyRecord : Record Draft Association where
  names := ["model"]
  blank := {}
  add d
    | ("model", j) => d.addModel j
    | _ => .ok d
  finish d := do
    return .hasMany (← Record.required "model" d.model)

def ofJson (j : Json) : Except DecodeError Association := do
  match ← j.asVariant with
  | ("belongsTo", content) => belongsToRecord.ofObject (← Json.content content)
  | ("hasOne", content) => hasOneRecord.ofObject (← Json.content content)
  | ("hasMany", content) => hasManyRecord.ofObject (← Json.content content)
  | (name, _) => throw (.unknownVariant name variants)

end Association

namespace FieldType

def variants : List String := ["scalar", "enum", "embedded", "model"]

def toJson : FieldType → Json
  | .scalar type => .single "scalar" (.string (Keyword.keyword type))
  | .enum name => .single "enum" (.string name)
  | .embedded name => .single "embedded" (.string name)
  | .model association => .single "model" association.toJson

def ofJson (j : Json) : Except DecodeError FieldType := do
  match ← j.asVariant with
  | ("scalar", content) => return .scalar (← (← Json.content content).asKeyword)
  | ("enum", content) => return .enum (← (← Json.content content).asString)
  | ("embedded", content) => return .embedded (← (← Json.content content).asString)
  | ("model", content) => return .model (← Association.ofJson (← Json.content content))
  | (name, _) => throw (.unknownVariant name variants)

end FieldType

namespace PrimaryKey

def variants : List String := ["default", "custom"]

def toJson : PrimaryKey → Json
  | .default => .string "default"
  | .custom fields => .single "custom" (.strings fields)

def ofJson (j : Json) : Except DecodeError PrimaryKey := do
  match ← j.asVariant with
  | ("default", content) => Json.noContent content; return .default
  | ("custom", content) => return .custom (← (← Json.content content).asList Json.asString)
  | (name, _) => throw (.unknownVariant name variants)

end PrimaryKey

namespace Field

def toJson (f : Field) : Json :=
  .object [("name", .string f.name), ("type", f.type.toJson), ("required", .bool f.required),
    ("readOnly", .bool f.readOnly)]

/-- The members of a field that have been read. -/
structure Draft where
  name : Option String := none
  type : Option FieldType := none
  required : Bool := false
  readOnly : Bool := false

def record : Record Draft Field where
  names := ["name", "type", "required", "readOnly"]
  blank := {}
  add d
    | ("name", j) => do return { d with name := some (← j.asString) }
    | ("type", j) => do return { d with type := some (← FieldType.ofJson j) }
    | ("required", j) => do return { d with required := ← j.asBool }
    | ("readOnly", j) => do return { d with readOnly := ← j.asBool }
    | _ => .ok d
  finish d := do
    let name ← Record.required "name" d.name
    let type ← Record.required "type" d.type
    return { name, type, required := d.required, readOnly := d.readOnly }

def ofJson : Json → Except DecodeError Field := record.ofJson

end Field

namespace Schema

def toJson (s : Schema) : Json :=
  .object <| [("name", .string s.name)]
    ++ (s.plural.map fun plural => ("pluralName", Json.string plural)).toList
    ++ [("primaryKey", s.primaryKey.toJson), ("fields", .list (s.fields.map Field.toJson))]

/-- The members of a schema that have been read. -/
structure Draft where
  name : Option String := none
  plural : Option String := none
  primaryKey : PrimaryKey := .default
  fields : Option (List Field) := none

def record : Record Draft Schema where
  names := ["name", "pluralName", "primaryKey", "fields"]
  blank := {}
  add d
    | ("name", j) => do return { d with name := some (← j.asString) }
    | ("pluralName", j) => do return { d with plural := ← j.asOption Json.asString }
    | ("primaryKey", j) => do return { d with primaryKey := ← PrimaryKey.ofJson j }
    | ("fields", j) => do return { d with fields := some (← j.asList Field.ofJson) }
    | _ => .ok d
  finish d := do
    let name ← Record.required "name" d.name
    let fields ← Record.required "fields" d.fields
    return { name, plural := d.plural, primaryKey := d.primaryKey, fields }

def ofJson : Json → Except DecodeError Schema := record.ofJson

end Schema

end DataApi
