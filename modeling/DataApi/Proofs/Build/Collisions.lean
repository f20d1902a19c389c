import DataApi.Proofs.Build.CollisionPolicies
import DataApi.Proofs.Build.CompleteKey
import DataApi.Proofs.Build.InputType

/-!
# Where collisions come from

Decorators declare few names, and all of them but one have a type that goes with the name: the
condition and the filter are typed after the model, the parts of a page have fixed types, and
everything else is an identifier. Only the input of a mutation is typed after the operation. So the
one way to declare a name under two types is to declare the input under two operations, unless a field
of the primary key has one of the other names and is declared as an identifier under it. Operations
have input types of their own, hence that one way always collides when collisions are rejected.
-/

namespace DataApi

/-- The names that decorators declare for other purposes than to identify an instance. -/
def reservedNames : List String :=
  [Naming.input, Naming.filter, Naming.condition, Naming.limit, Naming.nextToken]

def variableType (s : Schema) (name : String) : String :=
  if name = Naming.condition then Naming.conditionInput s.name
  else if name = Naming.filter then Naming.filterInput s.name
  else if name = Naming.limit then Naming.limitType
  else if name = Naming.nextToken then Naming.nextTokenType
  else Naming.idType

theorem variableType_of_not_mem (s : Schema) {name : String} (h : name ∉ reservedNames) :
    variableType s name = Naming.idType := by
  simp only [reservedNames, List.mem_cons, not_or] at h
  obtain ⟨_, hfilter, hcondition, hlimit, htoken, _⟩ := h
  rw [variableType, if_neg hcondition, if_neg hfilter, if_neg hlimit, if_neg htoken]

namespace Decorator

/-- A list of decorators declares the input of a mutation under an operation, the one that was chosen
closest before. -/
def DeclaresInputUnder (decorators : List Decorator) (op : Operation) : Prop :=
  ∃ before decorator after, decorators = before ++ decorator :: after ∧
    decorator.inputDecorator?.isSome ∧ lastOperation? before = some op

variable {s : Schema} {kind : OperationKind} {op? : Option Operation}

theorem type_of_mem_signature (hkeys : ∀ field ∈ s.keyFields, field ∉ reservedNames)
    {decorator : Decorator} {name type : String}
    (h : (name, type) ∈ decorator.signature s kind op?) :
    (name = Naming.input ∧ decorator.inputDecorator?.isSome) ∨
      (name ≠ Naming.input ∧ type = variableType s name) := by
  have hid : Naming.id ∉ reservedNames := by decide
  have hidentifier {name : String} (hname : name ∉ reservedNames) :
      name ≠ Naming.input ∧ Naming.idType = variableType s name :=
    ⟨fun he => hname (he ▸ List.mem_cons_self), (variableType_of_not_mem s hname).symm⟩
  rcases mem_signature_cases h with ⟨hsome, hname, _⟩ | ⟨hname | hname, rfl⟩ | ⟨_, rfl, rfl⟩ |
    ⟨_, rfl, rfl⟩ | ⟨rfl, rfl⟩ | ⟨rfl, rfl⟩
  · exact .inl ⟨hname, hsome⟩
  · exact .inr (hidentifier (hname ▸ hid))
  · exact .inr (hidentifier (hkeys name hname))
  · exact .inr ⟨by decide, rfl⟩
  · exact .inr ⟨by decide, rfl⟩
  · exact .inr ⟨by decide, rfl⟩
  · exact .inr ⟨by decide, rfl⟩

/-- What a list of decorators declares is the input under one of the operations it is declared under,
or has the type that goes with the name. -/
theorem mem_signatures_registrations_cases (hkeys : ∀ field ∈ s.keyFields, field ∉ reservedNames)
    {decorators : List Decorator} {declared : List (String × Variable)}
    (h : registrations s kind none decorators = .ok declared) {name type : String}
    (hmem : (name, type) ∈ signatures declared) :
    (name = Naming.input ∧ ∃ op, DeclaresInputUnder decorators op ∧
        type = Naming.mutationInput (s.rootField op)) ∨
      (name ≠ Naming.input ∧ type = variableType s name) := by
  obtain ⟨⟨name, v⟩, he, rfl, rfl⟩ := mem_signatures_iff.1 hmem
  obtain ⟨before, decorator, after, own, hsplit, hown, he⟩ := (mem_registrations_iff h).1 he
  have hsignature : (name, v.type) ∈ decorator.signature s kind ((lastOperation? before).or none) :=
    signatures_declarationsAfter hown ▸ mem_signatures_iff.2 ⟨_, he, rfl, rfl⟩
  rcases type_of_mem_signature hkeys hsignature with ⟨hname, hsome⟩ | htype
  · obtain ⟨op, value, hop, rfl⟩ := declarationsAfter_inputDecorator hsome hown
    rw [Option.or_none] at hop
    have hv : (name, v) = _ := List.mem_singleton.1 he
    exact .inl ⟨hname, op, ⟨before, decorator, after, hsplit, hsome, hop⟩,
      congrArg (fun e => e.2.type) hv⟩
  · exact .inr htype

theorem DeclaresInputUnder.mem_signatures {decorators : List Decorator} {op : Operation}
    (hunder : DeclaresInputUnder decorators op) {declared : List (String × Variable)}
    (h : registrations s kind none decorators = .ok declared) :
    (Naming.input, Naming.mutationInput (s.rootField op)) ∈ signatures declared := by
  obtain ⟨before, decorator, after, rfl, hsome, hop⟩ := hunder
  obtain ⟨own, hown, hsub⟩ := declarationsAfter_of_split h
  obtain ⟨op', value, hop', rfl⟩ := declarationsAfter_inputDecorator hsome hown
  rw [Option.or_none, hop] at hop'
  obtain rfl := Option.some.inj hop'
  exact mem_signatures_iff.2 ⟨_, hsub List.mem_cons_self, rfl, rfl⟩

theorem DeclaresInputUnder.unique {decorators : List Decorator} {op op' : Operation}
    (hop : DeclaresInputUnder decorators op) (hop' : DeclaresInputUnder decorators op')
    {declared : List (String × Variable)}
    (h : registrations s kind none decorators = .ok declared) (hagree : TypesAgree declared) :
    op = op' := by
  obtain ⟨e, he, hname, htype⟩ := mem_signatures_iff.1 (hop.mem_signatures h)
  obtain ⟨f, hf, hname', htype'⟩ := mem_signatures_iff.1 (hop'.mem_signatures h)
  have hsame := hagree e he f hf (hname.trans hname'.symm)
  rw [htype, htype'] at hsame
  exact mutationInput_rootField_injective s hsame

/-- A name that is declared under two types is the input, declared under two operations. -/
theorem two_inputs_of_two_types (hkeys : ∀ field ∈ s.keyFields, field ∉ reservedNames)
    {decorators : List Decorator} {declared : List (String × Variable)}
    (h : registrations s kind none decorators = .ok declared) {name type type' : String}
    (hmem : (name, type) ∈ signatures declared) (hmem' : (name, type') ∈ signatures declared)
    (hne : type ≠ type') :
    name = Naming.input ∧ ∃ op op', op ≠ op' ∧
      DeclaresInputUnder decorators op ∧ DeclaresInputUnder decorators op' ∧
      type = Naming.mutationInput (s.rootField op) ∧
      type' = Naming.mutationInput (s.rootField op') := by
  rcases mem_signatures_registrations_cases hkeys h hmem with ⟨hname, op, hop, rfl⟩ | ⟨hname, rfl⟩
  · rcases mem_signatures_registrations_cases hkeys h hmem' with ⟨_, op', hop', rfl⟩ | ⟨hother, _⟩
    · exact ⟨hname, op, op', fun he => hne (he ▸ rfl), hop, hop', rfl, rfl⟩
    · exact absurd hname hother
  · rcases mem_signatures_registrations_cases hkeys h hmem' with ⟨hinput, _⟩ | ⟨_, rfl⟩
    · exact absurd hinput hname
    · exact absurd rfl hne

end Decorator

theorem collides_of_buildDocument {s : Schema} {kind : OperationKind} {config : Config}
    {decorators : List Decorator} {declared : List (String × Variable)} {c : Collision}
    (h : buildDocument s kind config decorators = .error (.collision c))
    (hdeclared : Decorator.registrations s kind none decorators = .ok declared) :
    c.existing ≠ c.incoming ∧ (c.name, c.existing) ∈ signatures declared ∧
      (c.name, c.incoming) ∈ signatures declared := by
  have hschema : ∀ defect, BuildError.collision c ≠ .invalidSchema s.name defect := nofun
  obtain ⟨_, before, decorator, ⟨after, rfl⟩, d, hd, hfails⟩ :=
    (buildDocument_eq_error_iff_firstFailing hschema nofun).1 h
  obtain ⟨_, first, hfirst, _, rfl⟩ := Decorator.applyAll_eq_ok_iff.1 hd
  obtain ⟨own, hown, hregister⟩ := Decorator.apply_eq_error_collision_iff.1 hfails
  rw [Decorator.declarations_outline] at hown
  obtain ⟨first', hfirst', more, hmore, rfl⟩ := Decorator.registrations_append_eq_ok_iff.1 hdeclared
  obtain ⟨own', hown', others, _, rfl⟩ := Decorator.registrations_cons_eq_ok_iff.1 hmore
  rw [Option.or_none] at hown'
  obtain rfl : first = first' := Except.ok.inj (hfirst.symm.trans hfirst')
  obtain rfl : own = own' := Except.ok.inj (hown.symm.trans hown')
  obtain ⟨htypes, hexisting, hincoming⟩ := Document.collides_of_register hregister
  have hreached : signatures ((OrderedMap.ofList first).entries ++ own) ⊆
      signatures (first ++ (own ++ others)) := by
    refine signatures_append_subset (Variables.signatures_entries_ofList_subset first) ?_
    rw [signatures_append]
    exact List.subset_append_left _ _
  have hown : signatures own ⊆ signatures (first ++ (own ++ others)) := by
    simp [signatures_append]
  exact ⟨htypes, hreached hexisting, hown hincoming⟩

/-- Of a list that builds a document when collisions overwrite, the input is all that can collide:
rejecting fails exactly when the list declares the input under two operations, and then for the reason
that the two have inputs of different types. -/
theorem reject_fails_iff_two_inputs {s : Schema} {kind : OperationKind} {typename : Bool}
    {decorators : List Decorator} {d : Document}
    (hkeys : ∀ field ∈ s.keyFields, field ∉ reservedNames)
    (h : buildDocument s kind { collisions := .overwrite, typename } decorators = .ok d) :
    ((∃ e, buildDocument s kind { collisions := .reject, typename } decorators = .error e) ↔
      ∃ op op', op ≠ op' ∧ Decorator.DeclaresInputUnder decorators op ∧
        Decorator.DeclaresInputUnder decorators op') ∧
    ∀ e, buildDocument s kind { collisions := .reject, typename } decorators = .error e →
      ∃ op op', op ≠ op' ∧ Decorator.DeclaresInputUnder decorators op ∧
        Decorator.DeclaresInputUnder decorators op' ∧
        e = .collision ⟨Naming.input, Naming.mutationInput (s.rootField op),
          Naming.mutationInput (s.rootField op')⟩ := by
  obtain ⟨_, _, _, _, declared, hdeclared, _, _⟩ := buildDocument_eq_ok_iff.1 h
  have herror : ∀ e, buildDocument s kind { collisions := .reject, typename } decorators = .error e →
      ∃ op op', op ≠ op' ∧ Decorator.DeclaresInputUnder decorators op ∧
        Decorator.DeclaresInputUnder decorators op' ∧
        e = .collision ⟨Naming.input, Naming.mutationInput (s.rootField op),
          Naming.mutationInput (s.rootField op')⟩ := by
    intro e he
    rcases buildDocument_agreesUnlessCollision s kind typename decorators with hsame | ⟨c, hc⟩
    · rw [hsame, h] at he
      nomatch he
    · obtain rfl : e = .collision c := Except.error.inj (he.symm.trans hc)
      obtain ⟨hne, hexisting, hincoming⟩ := collides_of_buildDocument hc hdeclared
      obtain ⟨hname, op, op', hops, hop, hop', htype, htype'⟩ :=
        Decorator.two_inputs_of_two_types hkeys hdeclared hexisting hincoming hne
      exact ⟨op, op', hops, hop, hop', by rw [← hname, ← htype, ← htype']⟩
  refine ⟨⟨?_, ?_⟩, herror⟩
  · rintro ⟨e, he⟩
    obtain ⟨op, op', hne, hop, hop', _⟩ := herror e he
    exact ⟨op, op', hne, hop, hop'⟩
  · rintro ⟨op, op', hne, hop, hop'⟩
    cases hreject : buildDocument s kind { collisions := .reject, typename } decorators with
    | error e => exact ⟨e, rfl⟩
    | ok d' =>
        obtain ⟨_, _, _, _, declared', hdeclared', hadmits, _⟩ := buildDocument_eq_ok_iff.1 hreject
        obtain rfl : declared = declared' := Except.ok.inj (hdeclared.symm.trans hdeclared')
        exact absurd (hop.unique hop' hdeclared (hadmits rfl)) hne

def turnedCreation : List Decorator :=
  [.directive .create, .model adminMembership .create,
    .filter (.compare "role" (.relation .eq (.string "admin"))),
    .modelId (.byKey (.ofList [("team", "t1"), ("user", "u1")])), .directive .delete,
    .modelId (.delete adminMembership), .modelId (.byId "t1")]

theorem reject_fails_iff_two_inputs_membership :
    (∀ field ∈ Schema.membership.keyFields, field ∉ reservedNames) ∧
      ∃ d, buildDocument .membership .mutation { collisions := .overwrite } turnedCreation = .ok d ∧
        ∃ e, buildDocument .membership .mutation { collisions := .reject } turnedCreation = .error e := by
  have hkeys : ∀ field ∈ Schema.membership.keyFields, field ∉ reservedNames := by decide
  obtain ⟨d, hd⟩ : ∃ d, buildDocument .membership .mutation { collisions := .overwrite }
      turnedCreation = .ok d := ⟨_, rfl⟩
  have hiff := (reject_fails_iff_two_inputs hkeys hd).1
  refine ⟨hkeys, d, hd, hiff.2 ⟨.create, .delete, by decide, ?_, ?_⟩⟩
  · exact ⟨[.directive .create], _, _, rfl, rfl, rfl⟩
  · exact ⟨[.directive .create, .model adminMembership .create,
      .filter (.compare "role" (.relation .eq (.string "admin"))),
      .modelId (.byKey (.ofList [("team", "t1"), ("user", "u1")])), .directive .delete], _, _,
      rfl, rfl, rfl⟩

end DataApi
