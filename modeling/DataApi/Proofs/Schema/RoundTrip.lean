import DataApi.Proofs.Fallible
import DataApi.Schema.Codec

/-!
# Schemas that are written and read back

Every type of a schema is read back from the JSON it is written as. A choice writes the name of the
variant, which is what reading goes by, and the content, which is read back by the type of the
content. An object is written with its members under the names that the record looks for; a plural
that there is not is left out, which is what a record that finds none takes it for.
-/

namespace DataApi

theorem Json.asList_strings (names : List String) :
    (strings names).asList asString = .ok names :=
  mapM_map_eq_ok asString_string names

namespace Association

theorem ofEntries_belongsTo (model : String) (keys targets : List String) :
    belongsToRecord.ofEntries [("model", .string model), ("associatedKeys", .strings keys),
      ("targetNames", .strings targets)] = .ok (.belongsTo model keys targets) := by
  have hkeys : (Json.strings keys).asList Json.asString = .ok keys := Json.asList_strings keys
  have htargets : (Json.strings targets).asList Json.asString = .ok targets :=
    Json.asList_strings targets
  simp [Record.ofEntries, belongsToRecord, Draft.addModel, Draft.addKeys, Draft.addTargets, hkeys,
    htargets, pure, Except.pure]

theorem ofEntries_hasOne (model : String) (keys : List String) :
    hasOneRecord.ofEntries [("model", .string model), ("associatedKeys", .strings keys)] =
      .ok (.hasOne model keys) := by
  have hkeys : (Json.strings keys).asList Json.asString = .ok keys := Json.asList_strings keys
  simp [Record.ofEntries, hasOneRecord, Draft.addModel, Draft.addKeys, hkeys, pure, Except.pure]

theorem ofJson_toJson (a : Association) : ofJson a.toJson = .ok a := by
  cases a with
  | belongsTo model keys targets => exact ofEntries_belongsTo model keys targets
  | hasOne model keys => exact ofEntries_hasOne model keys
  | hasMany model => rfl

end Association

theorem FieldType.ofJson_toJson (t : FieldType) : ofJson t.toJson = .ok t := by
  cases t with
  | scalar type =>
      have htype : (Json.string (Keyword.keyword type)).asKeyword = .ok type :=
        Json.asKeyword_keyword type
      simp [toJson, ofJson, Json.content, htype, pure, Except.pure]
  | enum name => rfl
  | embedded name => rfl
  | model association =>
      simp [toJson, ofJson, Json.content, association.ofJson_toJson, pure, Except.pure]

theorem PrimaryKey.ofJson_toJson (k : PrimaryKey) : ofJson k.toJson = .ok k := by
  cases k with
  | default => rfl
  | custom fields => simp [toJson, ofJson, Json.content, Json.asList_strings, pure, Except.pure]

theorem Field.ofJson_toJson (f : Field) : ofJson f.toJson = .ok f := by
  have htype : FieldType.ofJson f.type.toJson = .ok f.type := f.type.ofJson_toJson
  simp [toJson, ofJson, record, Record.ofEntries, htype, pure, Except.pure]

namespace Schema

/-- A schema is read back with its plural, if it has one, and without it otherwise. -/
theorem ofJson_toJson (s : Schema) : ofJson s.toJson = .ok s := by
  obtain ⟨name, plural?, key, fields⟩ := s
  have hkey : PrimaryKey.ofJson key.toJson = .ok key := key.ofJson_toJson
  have hfields : (Json.list (fields.map Field.toJson)).asList Field.ofJson = .ok fields :=
    mapM_map_eq_ok Field.ofJson_toJson fields
  cases plural? with
  | none => simp [toJson, ofJson, record, Record.ofEntries, hkey, hfields, pure, Except.pure]
  | some plural =>
      have hplural : (Json.string plural).asOption Json.asString = .ok (some plural) := rfl
      simp [toJson, ofJson, record, Record.ofEntries, hkey, hfields, hplural, pure, Except.pure]

end Schema

/-- A schema is read back from the JSON it is written as, and so is each of its parts. -/
theorem schema_read_back :
    (∀ s : Schema, Schema.ofJson s.toJson = .ok s) ∧ (∀ f : Field, Field.ofJson f.toJson = .ok f) ∧
      (∀ t : FieldType, FieldType.ofJson t.toJson = .ok t) ∧
      (∀ a : Association, Association.ofJson a.toJson = .ok a) ∧
      ∀ k : PrimaryKey, PrimaryKey.ofJson k.toJson = .ok k :=
  ⟨Schema.ofJson_toJson, Field.ofJson_toJson, FieldType.ofJson_toJson, Association.ofJson_toJson,
    PrimaryKey.ofJson_toJson⟩

end DataApi
