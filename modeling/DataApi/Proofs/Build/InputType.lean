import DataApi.Proofs.Build.Signature

/-!
# The type of the input and the operation of the document

A decorator that declares the input derives the type from the operation that was chosen closest
before it. An operation that is chosen afterwards renames the document and leaves the variables as
they are, so the type may belong to another operation than the document: it is the one that goes with
the document exactly when the last declaration of the input was made under the operation that the
document ends up with. In particular the types of different operations differ, whatever the names of
the model are, since their first letters do.

A field of the primary key that is called `input` is declared as an identifier under the same name,
so there must be none.
-/

namespace DataApi

/-- The type is the root field with its first letter in upper case and `Input!` behind it. -/
def IsInputTypeOf (rootField type : String) : Prop :=
  ∃ c rest, rootField.toList = c :: rest ∧ type = String.ofList (c.toUpper :: rest) ++ "Input!"

theorem toList_keyword (op : Operation) :
    ∃ c rest, (Keyword.keyword op).toList = c :: rest ∧ upperCase c = [c.toUpper] := by
  cases op <;> exact ⟨_, _, rfl, rfl⟩

theorem isInputTypeOf_mutationInput (s : Schema) (op : Operation) :
    IsInputTypeOf (s.rootField op) (Naming.mutationInput (s.rootField op)) := by
  obtain ⟨c, rest, hword, hupper⟩ := toList_keyword op
  obtain ⟨about, hname⟩ : ∃ about, (s.rootField op).toList = c :: (rest ++ about) := by
    unfold Schema.rootField
    rw [String.toList_append, hword]
    exact ⟨_, rfl⟩
  refine ⟨c, rest ++ about, hname, ?_⟩
  rw [Naming.mutationInput, Naming.pascal_eq_ofList hname, hupper, List.singleton_append]

theorem take_mutationInput_rootField (s : Schema) (op : Operation) :
    (Naming.mutationInput (s.rootField op)).toList.take 3 =
      (Naming.pascal (Keyword.keyword op)).toList.take 3 := by
  cases op <;> simp [Schema.rootField, Naming.mutationInput, Naming.pascal, Keyword.keyword, upperCase]

theorem mutationInput_rootField_injective (s : Schema) {op op' : Operation}
    (h : Naming.mutationInput (s.rootField op) = Naming.mutationInput (s.rootField op')) :
    op = op' := by
  have hletters : (Naming.pascal (Keyword.keyword op)).toList.take 3 =
      (Naming.pascal (Keyword.keyword op')).toList.take 3 := by
    rw [← take_mutationInput_rootField s, ← take_mutationInput_rootField s, h]
  have hdistinct : ∀ a ∈ (Keyword.all : List Operation), ∀ b ∈ (Keyword.all : List Operation),
      (Naming.pascal (Keyword.keyword a)).toList.take 3 =
        (Naming.pascal (Keyword.keyword b)).toList.take 3 → a = b := by decide
  exact hdistinct op (Keyword.mem_all op) op' (Keyword.mem_all op') hletters

namespace Decorator

variable {s : Schema} {kind : OperationKind} {op? : Option Operation}

/-- Unless a field of the key has its name, the input is declared only by decorators that derive its
type from the operation. -/
theorem isSome_inputDecorator? (hkey : Naming.input ∉ s.keyFields) {decorator : Decorator}
    (h : Naming.input ∈ decorator.declaredNames s kind) : decorator.inputDecorator?.isSome := by
  obtain ⟨⟨name, type⟩, hmem, hname⟩ := List.mem_map.1 h
  obtain rfl : name = Naming.input := hname
  rcases mem_signature_cases hmem with ⟨hsome, _⟩ | ⟨hname | hname, _⟩ | ⟨_, hname, _⟩ |
    ⟨_, hname, _⟩ | ⟨hname, _⟩ | ⟨hname, _⟩
  · exact hsome
  · exact absurd hname (by decide)
  · exact absurd hname hkey
  · exact absurd hname (by decide)
  · exact absurd hname (by decide)
  · exact absurd hname (by decide)
  · exact absurd hname (by decide)

theorem declarationsAfter_inputDecorator {decorator : Decorator}
    (hsome : decorator.inputDecorator?.isSome) {declared : List (String × Variable)}
    (h : decorator.declarationsAfter s kind op? = .ok declared) :
    ∃ op value, op? = some op ∧
      declared = [inputDeclaration (Naming.mutationInput (s.rootField op)) value] := by
  obtain ⟨i, hi⟩ := Option.isSome_iff_exists.1 hsome
  obtain ⟨input, hform⟩ := declarations_of_inputDecorator? (s := s) hi
  rw [declarationsAfter, hform] at h
  obtain ⟨hname, value, _, hdeclared⟩ := inputDeclaration_of_eq_ok h
  cases op? with
  | none => exact absurd rfl hname
  | some op => exact ⟨op, value, rfl, hdeclared⟩

end Decorator

def renamedCreation : List Decorator :=
  [.directive .create, .model (.ofList [("id", .string "7")]) .create, .directive .update]

/-- The type of the input need not go with the name of the document. -/
theorem renamedCreation_keeps_type :
    ¬∀ (s : Schema) (kind : OperationKind) (config : Config) (decorators : List Decorator)
      (d : Document) (v : Variable), Naming.input ∉ s.keyFields →
        buildDocument s kind config decorators = .ok d →
        d.declared.get? Naming.input = some v → v.type = Naming.mutationInput d.name := by
  intro h
  have hbuild : buildDocument .post .mutation {} renamedCreation =
      .ok (.outline .post .mutation {} (some .update)
        [("input", ⟨"CreatePostInput!",
          .object [("id", .string "7"), ("title", .null)]⟩)]) := rfl
  have htype := h .post .mutation {} renamedCreation _ _ (by decide) hbuild rfl
  exact absurd htype (by decide)

/-- The input of a built document has the type that goes with the operation under which the input was
declared last, and this is the type that goes with the document exactly when the document has that
operation. -/
theorem type_input_eq_mutationInput_iff {s : Schema} {kind : OperationKind} {config : Config}
    {decorators : List Decorator} {d : Document} {v : Variable}
    (hkey : Naming.input ∉ s.keyFields) (h : buildDocument s kind config decorators = .ok d)
    (hv : d.declared.get? Naming.input = some v) :
    ∃ (before : List Decorator) (decorator : Decorator) (op : Operation),
      decorator.LastDeclaring s kind Naming.input decorators before ∧
        Decorator.lastOperation? before = some op ∧
        v.type = Naming.mutationInput (s.rootField op) ∧
        IsInputTypeOf (s.rootField op) v.type ∧
        (v.type = Naming.mutationInput d.name ↔ Decorator.lastOperation? decorators = some op) := by
  obtain ⟨_, _, last, hlastop, declared, hdeclared, _, hd⟩ := buildDocument_eq_ok_iff.1 h
  have hname : d.name = s.rootField last := by rw [hd]; rfl
  have hmem : Naming.input ∈ decorators.flatMap (Decorator.declaredNames s kind) := by
    rw [← Decorator.map_fst_registrations hdeclared, ← List.mem_eraseDups,
      ← OrderedMap.keys_ofList, OrderedMap.mem_keys_iff_isSome_get?]
    rw [hd] at hv
    exact Option.isSome_iff_exists.2 ⟨v, hv⟩
  obtain ⟨before, decorator, hlast⟩ := Decorator.exists_lastDeclaring hmem
  obtain ⟨own, hown, hget⟩ := get?_of_lastDeclaring h hlast
  obtain ⟨op, value, hop, rfl⟩ := Decorator.declarationsAfter_inputDecorator
    (Decorator.isSome_inputDecorator? hkey hlast.declares) hown
  have htype : v.type = Naming.mutationInput (s.rootField op) := by
    rw [hv] at hget
    exact congrArg Variable.type (Option.some.inj hget)
  refine ⟨before, decorator, op, hlast, hop, htype, htype ▸ isInputTypeOf_mutationInput s op, ?_⟩
  rw [htype, hname, hlastop, Option.some.injEq]
  exact ⟨fun heq => (mutationInput_rootField_injective s heq).symm, fun heq => by rw [heq]⟩

/-- The deletion is the last to declare the input, and the operation that is chosen behind it is the
one it was declared under. -/
theorem type_input_eq_mutationInput_iff_post :
    let decorators : List Decorator := [.directive .create,
      .model (.ofList [("id", .string "7")]) .create, .directive .delete,
      .modelId (.delete (.ofList [("id", .string "7")])), .directive .create, .directive .delete]
    Naming.input ∉ Schema.post.keyFields ∧
      ∃ d v, buildDocument .post .mutation { collisions := .overwrite } decorators = .ok d ∧
        d.declared.get? Naming.input = some v ∧ v.type = Naming.mutationInput d.name ∧
        v.type = "DeletePostInput!" := by
  intro decorators
  have hkey : Naming.input ∉ Schema.post.keyFields := by decide
  have hbuild : buildDocument .post .mutation { collisions := .overwrite } decorators =
      .ok (.outline .post .mutation { collisions := .overwrite } (some .delete)
        [("input", ⟨"CreatePostInput!", .object [("id", .string "7"), ("title", .null)]⟩),
          ("input", ⟨"DeletePostInput!", .object [("id", .string "7")]⟩)]) := rfl
  have hv : (OrderedMap.ofList
      [("input", (⟨"CreatePostInput!", .object [("id", .string "7"), ("title", .null)]⟩ : Variable)),
        ("input", ⟨"DeletePostInput!", .object [("id", .string "7")]⟩)]).get? Naming.input =
      some ⟨"DeletePostInput!", .object [("id", .string "7")]⟩ := rfl
  obtain ⟨_, _, op, _, _, htype, _, hiff⟩ := type_input_eq_mutationInput_iff hkey hbuild hv
  have hop : Operation.delete = op := mutationInput_rootField_injective .post htype
  exact ⟨hkey, _, _, hbuild, hv, hiff.2 (congrArg some hop), rfl⟩

end DataApi
