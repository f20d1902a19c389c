import DataApi.Proofs.Build.InputType
import DataApi.Proofs.Predicate.Recovery

/-!
# Variables are well typed

The types of variables are few: identifiers and tokens are strings, the limit of a page is a natural
number, and whatever has another type is an object. A decorator declares a type together with a value
of its kind (`declarable_of_declarationsAfter`), and a declaration that overwrites another one replaces
both, even where a field of the primary key has the name of another variable. So every variable of a
built document is one that some decorator has declared, and its value fits its type.
-/

namespace DataApi

namespace Naming

def scalarTypes : List String := [idType, limitType, nextTokenType]

theorem mutationInput_not_mem_scalarTypes (rootField : String) :
    mutationInput rootField ∉ scalarTypes := by
  have hend : (mutationInput rootField).toList.reverse.take 2 = ['!', 't'] := by
    simp [mutationInput]
  have hscalar : ∀ type ∈ scalarTypes, type.toList.reverse.take 2 ≠ ['!', 't'] := by decide
  exact fun hmem => hscalar _ hmem hend

theorem not_mem_scalarTypes_of_head? {type : String} (h : type.toList.head? = some 'M') :
    type ∉ scalarTypes := by
  have hscalar : ∀ scalar ∈ scalarTypes, scalar.toList.head? ≠ some 'M' := by decide
  exact fun hmem => hscalar type hmem h

end Naming

/-- A value is of the kind that a type demands: identifiers and tokens are strings, limits are natural
numbers, and whatever has another type is an object. -/
def Json.FitsType (value : Json) (type : String) : Prop :=
  if type = "ID!" ∨ type = "String" then ∃ text, value = .string text
  else if type = "Int" then ∃ n : Nat, value = .int n
  else ∃ entries, value = .object entries

inductive Variable.Declarable (s : Schema) (kind : OperationKind) : Variable → Prop where
  | identifier (id : String) : Declarable s kind ⟨Naming.idType, .string id⟩
  | limit (n : Nat) : Declarable s kind ⟨Naming.limitType, .int n⟩
  | nextToken (token : String) : Declarable s kind ⟨Naming.nextTokenType, .string token⟩
  | input (op : Operation) (entries : List (String × Json)) (hop : op.kind = kind) :
      Declarable s kind ⟨Naming.mutationInput (s.rootField op), .object entries⟩
  | filter (entries : List (String × Json)) (hkind : kind ≠ .mutation) :
      Declarable s kind ⟨Naming.filterInput s.name, .object entries⟩
  | condition (entries : List (String × Json)) (hkind : kind = .mutation) :
      Declarable s kind ⟨Naming.conditionInput s.name, .object entries⟩

theorem Json.fitsType_object {type : String} (h : type ∉ Naming.scalarTypes)
    (entries : List (String × Json)) : (Json.object entries).FitsType type := by
  simp only [Naming.scalarTypes, List.mem_cons, not_or] at h
  obtain ⟨hid, hlimit, htoken, _⟩ := h
  have hstring : ¬(type = "ID!" ∨ type = "String") := not_or.2 ⟨hid, htoken⟩
  have hint : ¬type = "Int" := hlimit
  rw [Json.FitsType, if_neg hstring, if_neg hint]
  exact ⟨entries, rfl⟩

theorem Json.FitsType.ne_null {value : Json} {type : String} (h : value.FitsType type) :
    value ≠ .null := by
  rintro rfl
  unfold Json.FitsType at h
  split at h
  · obtain ⟨_, h⟩ := h
    nomatch h
  · split at h
    · obtain ⟨_, h⟩ := h
      nomatch h
    · obtain ⟨_, h⟩ := h
      nomatch h

namespace Variable.Declarable

variable {s : Schema} {kind : OperationKind} {v : Variable}

theorem fitsType (h : v.Declarable s kind) : v.value.FitsType v.type := by
  cases h with
  | identifier id => exact ⟨id, rfl⟩
  | limit n => exact ⟨n, rfl⟩
  | nextToken token => exact ⟨token, rfl⟩
  | input op entries hop =>
      exact Json.fitsType_object (Naming.mutationInput_not_mem_scalarTypes _) entries
  | filter entries hkind =>
      exact Json.fitsType_object
        (Naming.not_mem_scalarTypes_of_head? (by simp [Naming.filterInput])) entries
  | condition entries hkind =>
      exact Json.fitsType_object
        (Naming.not_mem_scalarTypes_of_head? (by simp [Naming.conditionInput])) entries

theorem type_cases (h : v.Declarable s kind) :
    v.type ∈ Naming.scalarTypes ∨
      (∃ op, op.kind = kind ∧ v.type = Naming.mutationInput (s.rootField op) ∧
        IsInputTypeOf (s.rootField op) v.type) ∨
      (v.type = "Model" ++ s.name ++ "FilterInput" ∧ kind ≠ .mutation) ∨
      (v.type = "Model" ++ s.name ++ "ConditionInput" ∧ kind = .mutation) := by
  cases h with
  | identifier id => exact .inl (by simp [Naming.scalarTypes])
  | limit n => exact .inl (by simp [Naming.scalarTypes])
  | nextToken token => exact .inl (by simp [Naming.scalarTypes])
  | input op entries hop =>
      exact .inr (.inl ⟨op, hop, rfl, isInputTypeOf_mutationInput s op⟩)
  | filter entries hkind => exact .inr (.inr (.inl ⟨rfl, hkind⟩))
  | condition entries hkind => exact .inr (.inr (.inr ⟨rfl, hkind⟩))

end Variable.Declarable

theorem Predicate.exists_object_of_filter? {p : Predicate} {filter : Json}
    (h : p.filter? = .ok (some filter)) : ∃ entries, filter = .object entries := by
  have hnested := nested_eq_ok_of_filter?_eq_some h
  cases p with
  | all => nomatch h
  | compare field c => exact ⟨_, (Comparison.filter_eq_ok_iff.1 hnested).2⟩
  | group c members =>
      obtain ⟨filters, _, hfilter⟩ := nested_group_eq_ok hnested
      exact ⟨_, hfilter⟩
  | not p =>
      obtain ⟨inner, _, hfilter⟩ := nested_not_eq_ok hnested
      exact ⟨_, hfilter⟩

namespace Decorator

variable {s : Schema} {kind : OperationKind} {op? : Option Operation}

theorem declarable_keyIdentifiers {ids : OrderedMap String} {fields : List String}
    {l : List (String × Variable)} (h : fields.mapM (keyIdentifier s ids) = .ok l) :
    ∀ e ∈ l, e.2.Declarable s kind := by
  intro e he
  obtain ⟨id, _, heq⟩ := (keyIdentifiers_fields h).2 e he
  rw [heq]
  exact .identifier id

/-- What a decorator declares can be declared. -/
theorem declarable_of_declarationsAfter {decorator : Decorator}
    (hop : ∀ op, op? = some op → op.kind = kind) {declared : List (String × Variable)}
    (h : decorator.declarationsAfter s kind op? = .ok declared) :
    ∀ e ∈ declared, e.2.Declarable s kind := by
  intro e he
  cases hinput : decorator.inputDecorator? with
  | some i =>
      obtain ⟨op, value, rfl, rfl⟩ :=
        declarationsAfter_inputDecorator (Option.isSome_of_eq_some hinput) h
      rw [List.mem_singleton.1 he]
      exact .input op value.entries (hop op rfl)
  | none =>
      cases decorator with
      | directive op =>
          obtain rfl := Except.ok.inj h
          nomatch he
      | model m how => nomatch hinput
      | modelId binding =>
          cases binding with
          | delete m => nomatch hinput
          | byId id =>
              obtain rfl := Except.ok.inj h
              rcases List.mem_append.1 he with he | he
              · obtain ⟨field, _, rfl⟩ := Option.map_eq_some_iff.1 (Option.mem_toList.1 he)
                exact .identifier id
              · rw [List.mem_singleton.1 he]
                exact .identifier id
          | byKey ids => exact declarable_keyIdentifiers (mapError_eq_ok_iff.1 h) e he
      | filter p =>
          obtain ⟨filter?, hfilter, h⟩ := bind_eq_ok_iff.1 h
          obtain rfl := Except.ok.inj h
          obtain ⟨filter, rfl, rfl⟩ := Option.map_eq_some_iff.1 (Option.mem_toList.1 he)
          obtain ⟨entries, rfl⟩ :=
            Predicate.exists_object_of_filter? (mapError_eq_ok_iff.1 hfilter)
          cases kind with
          | mutation => exact .condition entries rfl
          | query => exact .filter entries nofun
          | subscription => exact .filter entries nofun
      | pagination page =>
          obtain rfl := Except.ok.inj h
          rcases List.mem_append.1 he with he | he
          · obtain ⟨n, _, rfl⟩ := Option.map_eq_some_iff.1 (Option.mem_toList.1 he)
            exact .limit n
          · obtain ⟨token, _, rfl⟩ := Option.map_eq_some_iff.1 (Option.mem_toList.1 he)
            exact .nextToken token

theorem mem_of_lastOperation? {decorators : List Decorator} {op : Operation}
    (h : lastOperation? decorators = some op) : op ∈ decorators.filterMap operation? :=
  List.mem_of_getLast? h

theorem declarable_of_registrations {decorators : List Decorator}
    (hkinds : ∀ op ∈ decorators.filterMap operation?, op.kind = kind)
    {declared : List (String × Variable)}
    (h : registrations s kind none decorators = .ok declared) :
    ∀ e ∈ declared, e.2.Declarable s kind := by
  intro e he
  obtain ⟨before, decorator, after, own, rfl, hown, he⟩ := (mem_registrations_iff h).1 he
  refine declarable_of_declarationsAfter (fun op hop => hkinds op ?_) hown e he
  rw [Option.or_none] at hop
  rw [List.filterMap_append]
  exact List.mem_append_left _ (mem_of_lastOperation? hop)

end Decorator

/-- The variables of a built document have different names and values that fit their types, none of
which is null. A type is that of a single value, the input type of an operation of the document's kind,
which begins with the first letter of the root field in upper case, or the filter of the model, which
is called a condition in mutations. -/
theorem built_document_wellTyped {s : Schema} {kind : OperationKind} {config : Config}
    {decorators : List Decorator} {d : Document}
    (h : buildDocument s kind config decorators = .ok d) :
    d.declared.keys.Nodup ∧
    ∀ name v, d.declared.get? name = some v →
      v.value ≠ .null ∧ v.value.FitsType v.type ∧
      (v.type ∈ ["ID!", "Int", "String"] ∨
        (∃ op, op.kind = kind ∧ v.type = Naming.mutationInput (s.rootField op) ∧
          IsInputTypeOf (s.rootField op) v.type) ∨
        (v.type = "Model" ++ s.name ++ "FilterInput" ∧ kind ≠ .mutation) ∨
        (v.type = "Model" ++ s.name ++ "ConditionInput" ∧ kind = .mutation)) := by
  obtain ⟨_, hkinds, _, _, declared, hdeclared, _, rfl⟩ := buildDocument_eq_ok_iff.1 h
  refine ⟨OrderedMap.nodup_keys _, fun name v hv => ?_⟩
  have hmem : (name, v) ∈ declared :=
    Variables.entries_ofList_subset declared (OrderedMap.mem_entries_iff.2 hv)
  have hdeclarable := Decorator.declarable_of_registrations hkinds hdeclared _ hmem
  exact ⟨hdeclarable.fitsType.ne_null, hdeclarable.fitsType, hdeclarable.type_cases⟩

def limitedPage : List Decorator :=
  [.directive .list, .modelId (.byId "gold"),
    .filter (.compare "limit" (.relation .ne (.string "gold"))), .pagination { limit := some 5 }]

/-- The size of the page takes the place of the identifier, type and value together. -/
theorem built_document_wellTyped_rateLimit : ∃ d,
    buildDocument .rateLimit .query { collisions := .overwrite } limitedPage = .ok d ∧
      d.declared.keys.Nodup ∧ ∃ v, d.declared.get? Naming.limit = some v ∧
        v.type = Naming.limitType ∧ v.value.FitsType Naming.limitType := by
  obtain ⟨d, hd⟩ : ∃ d, buildDocument .rateLimit .query { collisions := .overwrite } limitedPage =
      .ok d := ⟨_, rfl⟩
  obtain ⟨hnodup, hvariables⟩ := built_document_wellTyped hd
  have hv : d.declared.get? Naming.limit = some ⟨Naming.limitType, .int 5⟩ := by
    obtain rfl := Except.ok.inj hd
    rfl
  exact ⟨d, hd, hnodup, _, hv, rfl, (hvariables _ _ hv).2.1⟩

end DataApi
