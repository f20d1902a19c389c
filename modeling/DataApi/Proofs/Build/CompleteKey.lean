import DataApi.Proofs.Build.Signature
import DataApi.Proofs.Mutation.Key

/-!
# Updates and deletes carry the whole key

Which instance a mutation writes is decided by the variable `input`, and what counts is the
decorator that declared it last, whatever follows. If that one updates or deletes, the built document
has the primary key in its input: every field of it has a value, and there is at least one field,
since a schema without a key builds nothing. A delete sends nothing but the key.
-/

namespace DataApi

namespace Decorator

def IsUpdate : Decorator → Prop
  | .model _ .update => True
  | _ => False

def IsDelete : Decorator → Prop
  | .model _ .delete | .modelId (.delete _) => True
  | _ => False

variable {s : Schema} {kind : OperationKind} {op? : Option Operation}

/-- A decorator that updates or deletes declares an input that addresses the instance. -/
theorem addresses_of_declarationsAfter {decorator : Decorator}
    {declared : List (String × Variable)}
    (h : decorator.declarationsAfter s kind op? = .ok declared)
    (hwrites : decorator.IsUpdate ∨ decorator.IsDelete) :
    ∃ type input, declared = [inputDeclaration type input] ∧ s.Addresses input ∧
      (decorator.IsDelete → input.keys = s.keyFields.eraseDups) := by
  cases decorator with
  | model m how =>
      obtain ⟨_, input, hinput, hdeclared⟩ := inputDeclaration_of_eq_ok h
      refine ⟨_, input, hdeclared, ?_⟩
      cases how with
      | create => simp [IsUpdate, IsDelete] at hwrites
      | update => exact ⟨Schema.addresses_updateInput hinput, nofun⟩
      | delete =>
          exact ⟨Schema.addresses_keyInput hinput, fun _ => (Schema.keyInput_fields hinput).1⟩
  | modelId binding =>
      cases binding with
      | delete m =>
          obtain ⟨_, input, hinput, hdeclared⟩ := inputDeclaration_of_eq_ok h
          exact ⟨_, input, hdeclared, Schema.addresses_keyInput hinput,
            fun _ => (Schema.keyInput_fields hinput).1⟩
      | byId id => simp [IsUpdate, IsDelete] at hwrites
      | byKey ids => simp [IsUpdate, IsDelete] at hwrites
  | _ => simp [IsUpdate, IsDelete] at hwrites

end Decorator

/-- If the input of a built document was declared last by an update or a delete, it is an object
with a value for every field of the primary key, of which there is at least one; the input of a
delete has these fields and no others, each once and in the order of the key. -/
theorem input_holds_complete_key {s : Schema} {kind : OperationKind} {config : Config}
    {decorators before : List Decorator} {decorator : Decorator} {d : Document}
    (h : buildDocument s kind config decorators = .ok d)
    (hlast : decorator.LastDeclaring s kind Naming.input decorators before)
    (hwrites : decorator.IsUpdate ∨ decorator.IsDelete) :
    ∃ input : OrderedMap Json, d.values.get? Naming.input = some (.object input.entries) ∧
      s.keyFields ≠ [] ∧
      (∀ field ∈ s.keyFields, ∃ value, input.get? field = some value ∧ value ≠ .null) ∧
      (decorator.IsDelete → input.keys = s.keyFields.eraseDups) := by
  have hvalid : s.Valid := (buildDocument_eq_ok_iff.1 h).1
  obtain ⟨declared, hdeclared, hget⟩ := get?_of_lastDeclaring h hlast
  obtain ⟨type, input, rfl, haddresses, hkeys⟩ :=
    Decorator.addresses_of_declarationsAfter hdeclared hwrites
  refine ⟨input, ?_, hvalid.keyFields_ne_nil, haddresses, hkeys⟩
  rw [Document.values, Variables.valueMap, OrderedMap.get?_map, hget]
  rfl

def Schema.membership : Schema where
  name := "Membership"
  primaryKey := .custom ["team", "user"]
  fields := [
    { name := "user", type := .scalar .id },
    { name := "team", type := .scalar .id, readOnly := true },
    { name := "role", type := .scalar .string }]

def adminMembership : Instance :=
  .ofList [("user", .string "u1"), ("role", .string "admin"), ("team", .string "t1")]

def dismissal : List Decorator :=
  [.directive .create, .model adminMembership .create, .directive .delete,
    .modelId (.delete adminMembership), .filter (.compare "role" (.relation .ne (.string "owner")))]

theorem dismissal_holds_complete_key : ∃ d,
    buildDocument .membership .mutation { collisions := .overwrite } dismissal = .ok d ∧
      ∃ input : OrderedMap Json, d.values.get? Naming.input = some (.object input.entries) ∧
        input.keys = ["team", "user"] ∧
        ∃ value, input.get? "team" = some value ∧ value ≠ .null := by
  obtain ⟨d, hd⟩ : ∃ d, buildDocument .membership .mutation { collisions := .overwrite }
      dismissal = .ok d := ⟨_, rfl⟩
  have hlast : (Decorator.modelId (.delete adminMembership)).LastDeclaring .membership .mutation
      Naming.input dismissal
      [.directive .create, .model adminMembership .create, .directive .delete] := by
    refine ⟨by decide, _, rfl, ?_⟩
    intro other hother
    rw [List.mem_singleton.1 hother]
    decide
  obtain ⟨input, hget, _, haddresses, hkeys⟩ :=
    input_holds_complete_key hd hlast (.inr trivial)
  exact ⟨d, hd, input, hget, hkeys trivial, haddresses "team" (by decide)⟩

end DataApi
