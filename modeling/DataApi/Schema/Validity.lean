import DataApi.Schema.Basic

/-!
# Valid schemas

The primary key of a valid schema has at least one field, each of which is declared, and every
belongs-to field maps at least one associated key, each to one target name. `Schema.defect?` finds
the first thing that is wrong: the key is judged before the fields. `Schema.defect?_eq_none_iff`
says that it finds nothing exactly in valid schemas.
-/

namespace DataApi

inductive SchemaDefect where
  /-- The key is the default one, but there is no field `id`. -/
  | noIdField
  | emptyKey
  | undeclaredKeyField (name : String)
  /-- The keys and the targets of a belongs-to field do not match. -/
  | unmatchedKeys (field : String)
  deriving DecidableEq

def SchemaDefect.message : SchemaDefect → String
  | .noIdField => "the default primary key requires an 'id' field"
  | .emptyKey => "a custom primary key must list at least one field"
  | .undeclaredKeyField name => "primary key field '" ++ name ++ "' is not declared"
  | .unmatchedKeys field =>
      "belongs-to field '" ++ field ++ "' must map every associated key to one target name"

/-- Whether a type that stores a foreign key has a target for every associated key, and at least
one of them. -/
def FieldType.isMatched : FieldType → Bool
  | .model (.belongsTo _ keys targets) => !keys.isEmpty && keys.length == targets.length
  | _ => true

namespace Schema

def keyDefect? (s : Schema) : Option SchemaDefect :=
  match s.primaryKey with
  | .default => if (s.field? Naming.id).isNone then some .noIdField else none
  | .custom [] => some .emptyKey
  | .custom fields =>
      (fields.find? fun name => (s.field? name).isNone).map .undeclaredKeyField

/-- The first belongs-to field whose keys and targets do not match. -/
def fieldDefect? (s : Schema) : Option SchemaDefect :=
  (s.fields.find? fun f => !f.type.isMatched).map fun f => .unmatchedKeys f.name

def defect? (s : Schema) : Option SchemaDefect := s.keyDefect?.or s.fieldDefect?

/-- A schema that documents can be built from. -/
structure Valid (s : Schema) : Prop where
  keyFields_ne_nil : s.keyFields ≠ []
  exists_field : ∀ name ∈ s.keyFields, ∃ f ∈ s.fields, f.name = name
  /-- Every foreign key has as many targets as keys. -/
  isMatched : ∀ f ∈ s.fields, f.type.isMatched = true

theorem keyDefect?_eq_none_iff {s : Schema} :
    s.keyDefect? = none ↔
      s.keyFields ≠ [] ∧ ∀ name ∈ s.keyFields, ∃ f ∈ s.fields, f.name = name := by
  have h (name : String) :
      (∃ f ∈ s.fields, f.name = name) ↔ ¬s.field? name = none := by
    simp [field?_eq_none_iff]
  unfold keyDefect? keyFields customKeyFields?
  split
  · next hk => simp [hk, h]
  · next hk => simp [hk]
  · next fields hne hk =>
    have : fields ≠ [] := fun he => hne he
    simp [hk, this, h]

theorem fieldDefect?_eq_none_iff {s : Schema} :
    s.fieldDefect? = none ↔ ∀ f ∈ s.fields, f.type.isMatched = true := by
  simp [fieldDefect?]

/-- Nothing is found exactly in valid schemas. -/
theorem defect?_eq_none_iff {s : Schema} : s.defect? = none ↔ s.Valid := by
  rw [defect?, Option.or_eq_none_iff, keyDefect?_eq_none_iff, fieldDefect?_eq_none_iff]
  exact ⟨fun h => ⟨h.1.1, h.1.2, h.2⟩, fun h => ⟨⟨h.1, h.2⟩, h.3⟩⟩

end Schema

end DataApi
