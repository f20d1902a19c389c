import DataApi.Proofs.Build.Outline

/-!
# Names and types that decorators declare

What a decorator declares has a signature that can be read off the decorator: the names, and the
type of each. Of the document only its kind counts, and the operation that was chosen before, from
which the type of an input is derived; the names do not depend on that operation. So it is decided
by the list which decorator is the last one to declare a name, and `get?_of_lastDeclaring` says that
the built document has the variable as that decorator declares it.
-/

namespace DataApi

theorem Schema.mem_keyFields_of_head? {s : Schema} {field : String}
    (h : s.customKeyFields?.bind List.head? = some field) : field ∈ s.keyFields := by
  obtain ⟨fields, hfields, hhead⟩ := Option.bind_eq_some_iff.1 h
  rw [keyFields, hfields]
  exact List.mem_of_head? hhead

namespace Decorator

/-- The names and types that a decorator declares where `op?` is the operation that was chosen
closest before it. -/
def signature (s : Schema) (kind : OperationKind) (op? : Option Operation) :
    Decorator → List (String × String)
  | .directive _ => []
  | .model _ _ | .modelId (.delete _) =>
      [(Naming.input, Naming.mutationInput (op?.elim "" s.rootField))]
  | .modelId (.byId _) =>
      ((s.customKeyFields?.bind List.head?).toList ++ [Naming.id]).map (·, Naming.idType)
  | .modelId (.byKey _) => s.keyFields.map (·, Naming.idType)
  | .filter p =>
      match p.filter? with
      | .ok (some _) =>
          [match kind with
            | .mutation => (Naming.condition, Naming.conditionInput s.name)
            | .query | .subscription => (Naming.filter, Naming.filterInput s.name)]
      | _ => []
  | .pagination page =>
      (page.limit.map fun _ => (Naming.limit, Naming.limitType)).toList ++
        (page.nextToken.map fun _ => (Naming.nextToken, Naming.nextTokenType)).toList

def declaredNames (s : Schema) (kind : OperationKind) (decorator : Decorator) : List String :=
  (decorator.signature s kind none).map Prod.fst

/-- The kind of a decorator that derives the type of an input from the operation. -/
def inputDecorator? : Decorator → Option InputDecorator
  | .model _ _ => some .model
  | .modelId (.delete _) => some .modelId
  | _ => none

variable {s : Schema} {kind : OperationKind} {op? : Option Operation}

theorem map_fst_signature (s : Schema) (kind : OperationKind) (op? : Option Operation)
    (decorator : Decorator) :
    (decorator.signature s kind op?).map Prod.fst = decorator.declaredNames s kind := by
  cases decorator with
  | modelId binding => cases binding <;> rfl
  | _ => rfl

theorem map_fst_signatures (s : Schema) (kind : OperationKind) (op? : Option Operation)
    (decorators : List Decorator) :
    (decorators.flatMap (signature s kind op?)).map Prod.fst =
      decorators.flatMap (declaredNames s kind) := by
  simp only [List.map_flatMap, map_fst_signature]

theorem declaredNames_filter_sublist (s : Schema) (kind : OperationKind) (p : Predicate) :
    (declaredNames s kind (.filter p)).Sublist
      [match kind with
        | .mutation => Naming.condition
        | .query | .subscription => Naming.filter] := by
  cases hfilter : p.filter? with
  | error e => simp [declaredNames, signature, hfilter]
  | ok filter? => cases filter? <;> cases kind <;> simp [declaredNames, signature, hfilter]

theorem declaredNames_pagination_sublist (s : Schema) (kind : OperationKind) (page : Page) :
    (declaredNames s kind (.pagination page)).Sublist [Naming.limit, Naming.nextToken] := by
  obtain ⟨limit, token⟩ := page
  cases limit <;> cases token <;> simp [declaredNames, signature]

/-- The names that are declared, with the types that each of them can have. -/
theorem mem_signature_cases {decorator : Decorator} {name type : String}
    (h : (name, type) ∈ decorator.signature s kind op?) :
    (decorator.inputDecorator?.isSome ∧ name = Naming.input ∧
        type = Naming.mutationInput (op?.elim "" s.rootField)) ∨
      ((name = Naming.id ∨ name ∈ s.keyFields) ∧ type = Naming.idType) ∨
      (kind = .mutation ∧ name = Naming.condition ∧ type = Naming.conditionInput s.name) ∨
      (kind ≠ .mutation ∧ name = Naming.filter ∧ type = Naming.filterInput s.name) ∨
      (name = Naming.limit ∧ type = Naming.limitType) ∨
      (name = Naming.nextToken ∧ type = Naming.nextTokenType) := by
  cases decorator with
  | directive op => nomatch h
  | model m how =>
      obtain ⟨rfl, rfl⟩ := Prod.mk.inj (List.mem_singleton.1 h)
      exact .inl ⟨rfl, rfl, rfl⟩
  | modelId binding =>
      cases binding with
      | delete m =>
          obtain ⟨rfl, rfl⟩ := Prod.mk.inj (List.mem_singleton.1 h)
          exact .inl ⟨rfl, rfl, rfl⟩
      | byId id =>
          obtain ⟨name, hname, hpair⟩ := List.mem_map.1 h
          obtain ⟨rfl, rfl⟩ := Prod.mk.inj hpair
          refine .inr (.inl ⟨?_, rfl⟩)
          rcases List.mem_append.1 hname with hname | hname
          · exact .inr (Schema.mem_keyFields_of_head? (Option.mem_toList.1 hname))
          · exact .inl (List.mem_singleton.1 hname)
      | byKey ids =>
          obtain ⟨name, hname, hpair⟩ := List.mem_map.1 h
          obtain ⟨rfl, rfl⟩ := Prod.mk.inj hpair
          exact .inr (.inl ⟨.inr hname, rfl⟩)
  | filter p =>
      simp only [signature] at h
      split at h
      · cases kind <;> simp_all
      · nomatch h
  | pagination page =>
      rcases List.mem_append.1 h with h | h
      · obtain ⟨_, _, hpair⟩ := Option.map_eq_some_iff.1 (Option.mem_toList.1 h)
        obtain ⟨rfl, rfl⟩ := Prod.mk.inj hpair
        simp
      · obtain ⟨_, _, hpair⟩ := Option.map_eq_some_iff.1 (Option.mem_toList.1 h)
        obtain ⟨rfl, rfl⟩ := Prod.mk.inj hpair
        simp

/-- A decorator that derives the type of an input declares that input and nothing else. -/
theorem declarations_of_inputDecorator? {decorator : Decorator} {i : InputDecorator}
    (h : decorator.inputDecorator? = some i) :
    ∃ input : Except MissingKeyField (OrderedMap Json), ∀ d, decorator.declarations s d = (do
      return [inputDeclaration (← inputType d i) (← input.mapError .missingKeyField)]) := by
  cases decorator with
  | model m how =>
      obtain rfl := Option.some.inj h
      exact ⟨s.mutationInput m how, fun _ => rfl⟩
  | modelId binding =>
      cases binding with
      | delete m =>
          obtain rfl := Option.some.inj h
          exact ⟨s.keyInput m, fun _ => rfl⟩
      | _ => nomatch h
  | _ => nomatch h

theorem inputType_eq_ok_iff {d : Document} {i : InputDecorator} {type : String} :
    inputType d i = .ok type ↔ d.name ≠ "" ∧ type = Naming.mutationInput d.name := by
  unfold inputType
  by_cases hname : d.name = ""
  · simp [hname]
  · have hempty : d.name.isEmpty = false := by simpa using hname
    rw [if_neg (by simp [hempty]), Except.ok.injEq]
    exact ⟨fun h => ⟨hname, h.symm⟩, fun h => h.2.symm⟩

theorem inputType_eq_error_iff {d : Document} {i : InputDecorator} {e : BuildError} :
    inputType d i = .error e ↔ d.name = "" ∧ e = .missingDirective i := by
  unfold inputType
  by_cases hname : d.name = ""
  · rw [if_pos (by simp [hname]), Except.error.injEq]
    exact ⟨fun h => ⟨hname, h.symm⟩, fun h => h.2.symm⟩
  · have hempty : d.name.isEmpty = false := by simpa using hname
    simp [hname, hempty]

theorem inputDeclaration_of_eq_ok {d : Document} {i : InputDecorator}
    {input : Except MissingKeyField (OrderedMap Json)} {declared : List (String × Variable)}
    (h : (do return [inputDeclaration (← inputType d i) (← input.mapError .missingKeyField)]) =
      .ok declared) :
    d.name ≠ "" ∧ ∃ value, input = .ok value ∧
      declared = [inputDeclaration (Naming.mutationInput d.name) value] := by
  obtain ⟨type, htype, h⟩ := bind_eq_ok_iff.1 h
  obtain ⟨value, hvalue, h⟩ := bind_eq_ok_iff.1 h
  obtain ⟨hname, rfl⟩ := inputType_eq_ok_iff.1 htype
  exact ⟨hname, value, mapError_eq_ok_iff.1 hvalue, (Except.ok.inj h).symm⟩

theorem keyIdentifier_eq_ok_iff {ids : OrderedMap String} {field : String} {e : String × Variable} :
    keyIdentifier s ids field = .ok e ↔
      ∃ id, ids.get? field = some id ∧ e = identifier field id := by
  unfold keyIdentifier
  cases ids.get? field with
  | none => simp
  | some id => simp [eq_comm]

theorem keyIdentifiers_fields {ids : OrderedMap String} {fields : List String}
    {l : List (String × Variable)} (h : fields.mapM (keyIdentifier s ids) = .ok l) :
    l.map Prod.fst = fields ∧ ∀ e ∈ l, ∃ id, ids.get? e.1 = some id ∧ e = identifier e.1 id := by
  refine map_eq_of_mapM_eq_ok (fun field e he => ?_) h
  obtain ⟨id, hid, rfl⟩ := keyIdentifier_eq_ok_iff.1 he
  exact ⟨⟨id, hid, rfl⟩, rfl⟩

theorem signatures_keyIdentifiers {ids : OrderedMap String} {fields : List String}
    {l : List (String × Variable)} (h : fields.mapM (keyIdentifier s ids) = .ok l) :
    signatures l = fields.map fun field => (field, Naming.idType) := by
  obtain ⟨rfl, hbound⟩ := keyIdentifiers_fields h
  rw [signatures, List.map_map]
  refine List.map_congr_left fun e he => ?_
  obtain ⟨id, _, heq⟩ := hbound e he
  rw [heq]
  rfl

/-- Of an optional declaration only the value can depend on what is set. -/
theorem map_eq_of_isSome_eq {α : Type} {a b : Option α} (h : a.isSome = b.isSome)
    (e : String × String) : (a.map fun _ => e) = b.map fun _ => e := by
  cases a with
  | none =>
      cases b with
      | none => rfl
      | some y => nomatch h
  | some x =>
      cases b with
      | none => nomatch h
      | some y => rfl

theorem signatures_pageDeclarations (page : Page) :
    signatures (pageDeclarations page) =
      (page.limit.map fun _ => (Naming.limit, Naming.limitType)).toList ++
        (page.nextToken.map fun _ => (Naming.nextToken, Naming.nextTokenType)).toList := by
  rw [pageDeclarations, signatures_append]
  cases page.limit <;> cases page.nextToken <;> rfl

theorem signatures_declarationsAfter {decorator : Decorator} {declared : List (String × Variable)}
    (h : decorator.declarationsAfter s kind op? = .ok declared) :
    signatures declared = decorator.signature s kind op? := by
  cases decorator with
  | directive op =>
      obtain rfl := Except.ok.inj h
      rfl
  | model m how =>
      obtain ⟨_, value, _, rfl⟩ := inputDeclaration_of_eq_ok h
      rfl
  | modelId binding =>
      cases binding with
      | delete m =>
          obtain ⟨_, value, _, rfl⟩ := inputDeclaration_of_eq_ok h
          rfl
      | byId id =>
          obtain rfl := Except.ok.inj h
          rw [signature, signatures_append]
          cases s.customKeyFields?.bind List.head? <;> rfl
      | byKey ids => exact signatures_keyIdentifiers (mapError_eq_ok_iff.1 h)
  | filter p =>
      obtain ⟨filter?, hfilter, h⟩ := bind_eq_ok_iff.1 h
      obtain rfl := Except.ok.inj h
      simp only [signature, mapError_eq_ok_iff.1 hfilter]
      cases filter? with
      | none => rfl
      | some filter => cases kind <;> rfl
  | pagination page =>
      obtain rfl := Except.ok.inj h
      exact signatures_pageDeclarations page

theorem map_fst_declarationsAfter {decorator : Decorator} {declared : List (String × Variable)}
    (h : decorator.declarationsAfter s kind op? = .ok declared) :
    declared.map Prod.fst = decorator.declaredNames s kind := by
  rw [← map_fst_signature s kind op?, ← signatures_declarationsAfter h, signatures, List.map_map]
  rfl

theorem map_fst_registrations {decorators : List Decorator} {declared : List (String × Variable)}
    (h : registrations s kind op? decorators = .ok declared) :
    declared.map Prod.fst = decorators.flatMap (declaredNames s kind) := by
  induction decorators generalizing op? declared with
  | nil =>
      obtain rfl := Except.ok.inj h
      rfl
  | cons decorator rest ih =>
      obtain ⟨first, hfirst, others, hothers, rfl⟩ := registrations_cons_eq_ok_iff.1 h
      rw [List.map_append, map_fst_declarationsAfter hfirst, ih hothers, List.flatMap_cons]

theorem registrations_append_eq_ok_iff {before after : List Decorator}
    {declared : List (String × Variable)} :
    registrations s kind op? (before ++ after) = .ok declared ↔
      ∃ first, registrations s kind op? before = .ok first ∧
        ∃ others, registrations s kind ((lastOperation? before).or op?) after = .ok others ∧
          first ++ others = declared := by
  induction before generalizing op? declared with
  | nil => simp [registrations]
  | cons decorator rest ih =>
      rw [List.cons_append, registrations_cons_eq_ok_iff, lastOperation?_cons_or]
      constructor
      · rintro ⟨own, hown, more, hmore, rfl⟩
        obtain ⟨first, hfirst, others, hothers, rfl⟩ := ih.1 hmore
        exact ⟨own ++ first, registrations_cons_eq_ok_iff.2 ⟨own, hown, first, hfirst, rfl⟩,
          others, hothers, List.append_assoc ..⟩
      · rintro ⟨first, hfirst, others, hothers, rfl⟩
        obtain ⟨own, hown, more, hmore, rfl⟩ := registrations_cons_eq_ok_iff.1 hfirst
        exact ⟨own, hown, more ++ others, ih.2 ⟨more, hmore, others, hothers, rfl⟩,
          (List.append_assoc ..).symm⟩

/-- A decorator in a list of decorators that declare something makes its declarations after the
operation that was chosen closest before it. -/
theorem declarationsAfter_of_split {before after : List Decorator} {decorator : Decorator}
    {declared : List (String × Variable)}
    (h : registrations s kind op? (before ++ decorator :: after) = .ok declared) :
    ∃ own, decorator.declarationsAfter s kind ((lastOperation? before).or op?) = .ok own ∧
      own ⊆ declared := by
  obtain ⟨first, _, more, hmore, rfl⟩ := registrations_append_eq_ok_iff.1 h
  obtain ⟨own, hown, others, _, rfl⟩ := registrations_cons_eq_ok_iff.1 hmore
  exact ⟨own, hown, fun e he => List.mem_append_right _ (List.mem_append_left _ he)⟩

theorem mem_registrations_iff {decorators : List Decorator} {declared : List (String × Variable)}
    (h : registrations s kind op? decorators = .ok declared) {e : String × Variable} :
    e ∈ declared ↔ ∃ before decorator after own, decorators = before ++ decorator :: after ∧
      decorator.declarationsAfter s kind ((lastOperation? before).or op?) = .ok own ∧ e ∈ own := by
  constructor
  · intro he
    induction decorators using List.reverseRecOn generalizing declared with
    | nil =>
        obtain rfl := Except.ok.inj h
        nomatch he
    | append_singleton decorators last ih =>
        obtain ⟨first, hfirst, others, hothers, rfl⟩ := registrations_append_eq_ok_iff.1 h
        obtain ⟨own, hown, _, hnil, rfl⟩ := registrations_cons_eq_ok_iff.1 hothers
        obtain rfl := Except.ok.inj hnil
        rcases List.mem_append.1 he with he | he
        · obtain ⟨before, decorator, after, own, rfl, hown, he⟩ := ih hfirst he
          exact ⟨before, decorator, after ++ [last], own, by simp, hown, he⟩
        · exact ⟨decorators, last, [], own, rfl, hown, by simpa using he⟩
  · rintro ⟨before, decorator, after, own, rfl, hown, he⟩
    obtain ⟨own', hown', hsub⟩ := declarationsAfter_of_split h
    obtain rfl : own = own' := Except.ok.inj (hown.symm.trans hown')
    exact hsub he

/-- A decorator is the last one of a list that declares a variable, and `before` are the decorators
in front of it. -/
structure LastDeclaring (s : Schema) (kind : OperationKind) (name : String)
    (decorators before : List Decorator) (decorator : Decorator) : Prop where
  declares : name ∈ decorator.declaredNames s kind
  split : ∃ after, decorators = before ++ decorator :: after ∧
    ∀ other ∈ after, name ∉ other.declaredNames s kind

theorem exists_lastDeclaring {name : String} {decorators : List Decorator}
    (h : name ∈ decorators.flatMap (declaredNames s kind)) :
    ∃ before decorator, LastDeclaring s kind name decorators before decorator := by
  induction decorators using List.reverseRecOn with
  | nil => nomatch h
  | append_singleton decorators last ih =>
      by_cases hlast : name ∈ last.declaredNames s kind
      · exact ⟨decorators, last, hlast, [], rfl, nofun⟩
      · rw [List.flatMap_append, List.mem_append] at h
        have hbefore := h.resolve_right (by simpa using hlast)
        obtain ⟨before, decorator, hdeclares, after, rfl, hafter⟩ := ih hbefore
        refine ⟨before, decorator, hdeclares, after ++ [last], by simp, ?_⟩
        intro other hother
        rcases List.mem_append.1 hother with hother | hother
        · exact hafter other hother
        · rw [List.mem_singleton.1 hother]
          exact hlast

end Decorator

/-- A built document has a variable as the last decorator that declares it does. -/
theorem get?_of_lastDeclaring {s : Schema} {kind : OperationKind} {config : Config}
    {decorators before : List Decorator} {decorator : Decorator} {d : Document} {name : String}
    (h : buildDocument s kind config decorators = .ok d)
    (hlast : decorator.LastDeclaring s kind name decorators before) :
    ∃ declared, decorator.declarationsAfter s kind (Decorator.lastOperation? before) = .ok declared ∧
      d.declared.get? name = declared.reverse.lookup name := by
  obtain ⟨_, _, op, _, declared, hdeclared, _, rfl⟩ := buildDocument_eq_ok_iff.1 h
  obtain ⟨after, rfl, hafter⟩ := hlast.split
  obtain ⟨first, _, more, hmore, rfl⟩ := Decorator.registrations_append_eq_ok_iff.1 hdeclared
  obtain ⟨own, hown, others, hothers, rfl⟩ := Decorator.registrations_cons_eq_ok_iff.1 hmore
  rw [Option.or_none] at hown
  have hothers : name ∉ others.map Prod.fst := by
    rw [Decorator.map_fst_registrations hothers, List.mem_flatMap]
    rintro ⟨other, hother, hname⟩
    exact hafter other hother hname
  have hname : name ∈ own.reverse.map Prod.fst := by
    rw [List.map_reverse, List.mem_reverse, Decorator.map_fst_declarationsAfter hown]
    exact hlast.declares
  obtain ⟨v, hv⟩ := lookup_eq_some_of_mem_map_fst hname
  refine ⟨own, hown, ?_⟩
  change (OrderedMap.ofList (first ++ (own ++ others))).get? name = _
  rw [OrderedMap.get?_ofList, ← List.append_assoc, lookup_reverse_append_of_not_mem hothers,
    List.reverse_append, List.lookup_append, hv, Option.some_or]

end DataApi
