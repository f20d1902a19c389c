import DataApi.Builder
import DataApi.Proofs.Document.Registration

/-!
# What a list of decorators builds

Two things of a list of decorators count for the document it builds: the operation that the list
chooses last, and the declarations it makes, one decorator after the other. A decorator that derives
a type from the root field takes the operation that was chosen closest before it, so `registrations`
carries that operation along the list. `Document.outline` is the document with a given operation and
given declarations. One decorator takes an outline to an outline (`apply_outline_eq_ok_iff`), and so
does a list of them; `buildDocument_eq_ok_iff` says when a list builds a document, and which one.
-/

namespace DataApi

namespace Decorator

def operation? : Decorator → Option Operation
  | .directive op => some op
  | _ => none

def lastOperation? (decorators : List Decorator) : Option Operation :=
  (decorators.filterMap operation?).getLast?

/-- What a decorator declares where `op?` is the operation that was chosen closest before it. -/
def declarationsAfter (s : Schema) (kind : OperationKind) (op? : Option Operation)
    (decorator : Decorator) : Except BuildError (List (String × Variable)) :=
  decorator.declarations s { kind, name := op?.elim "" s.rootField }

def registrations (s : Schema) (kind : OperationKind) :
    Option Operation → List Decorator → Except BuildError (List (String × Variable))
  | _, [] => .ok []
  | op?, decorator :: rest => do
      let declared ← decorator.declarationsAfter s kind op?
      let others ← registrations s kind (decorator.operation?.or op?) rest
      return declared ++ others

def applyAll (s : Schema) (config : Config) (d : Document) (decorators : List Decorator) :
    Except BuildError Document :=
  decorators.foldlM (apply s config) d

end Decorator

def Document.outline (s : Schema) (kind : OperationKind) (config : Config)
    (op? : Option Operation) (declarations : List (String × Variable)) : Document where
  kind
  name := op?.elim "" s.rootField
  directive? := op?
  selection? := op?.map (Decorator.selection s config)
  declared := .ofList declarations

namespace Decorator

variable {s : Schema} {kind : OperationKind} {config : Config} {op? : Option Operation}

@[simp] theorem operation?_directive (op : Operation) :
    operation? (.directive op) = some op := rfl

theorem eq_directive_of_operation? {decorator : Decorator} {op : Operation}
    (h : decorator.operation? = some op) : decorator = .directive op := by
  cases decorator with
  | directive other => exact congrArg _ (Option.some.inj h)
  | _ => nomatch h

theorem operation?_eq_none_iff {decorator : Decorator} :
    decorator.operation? = none ↔ ∀ op, decorator ≠ .directive op := by
  cases decorator <;> simp [operation?]

@[simp] theorem lastOperation?_nil : lastOperation? [] = none := rfl

theorem lastOperation?_cons_or (decorator : Decorator) (rest : List Decorator)
    (op? : Option Operation) :
    (lastOperation? (decorator :: rest)).or op? =
      (lastOperation? rest).or (decorator.operation?.or op?) := by
  unfold lastOperation?
  cases h : decorator.operation? with
  | none => rw [List.filterMap_cons_none h, Option.none_or]
  | some op =>
      rw [List.filterMap_cons_some h, List.getLast?_cons]
      cases (rest.filterMap operation?).getLast? with
      | none => rfl
      | some last => rfl

theorem lastOperation?_eq_none_iff {decorators : List Decorator} :
    lastOperation? decorators = none ↔ ∀ op, .directive op ∉ decorators := by
  rw [lastOperation?, List.getLast?_eq_none_iff, List.filterMap_eq_nil_iff]
  simp only [operation?_eq_none_iff]
  exact ⟨fun h op hop => h _ hop op rfl, fun h decorator hmem op hop => h op (hop ▸ hmem)⟩

theorem forall_mem_filterMap_cons {p : Operation → Prop} {decorator : Decorator}
    {rest : List Decorator} :
    (∀ op ∈ (decorator :: rest).filterMap operation?, p op) ↔
      (∀ op, decorator.operation? = some op → p op) ∧
        ∀ op ∈ rest.filterMap operation?, p op := by
  simp only [List.mem_filterMap, List.mem_cons]
  constructor
  · intro h
    exact ⟨fun op hop => h op ⟨decorator, .inl rfl, hop⟩,
      fun op ⟨other, hother, hop⟩ => h op ⟨other, .inr hother, hop⟩⟩
  · rintro ⟨hfirst, hrest⟩ op ⟨other, rfl | hother, hop⟩
    · exact hfirst op hop
    · exact hrest op ⟨other, hother, hop⟩

theorem registrations_cons_eq_ok_iff {decorator : Decorator} {rest : List Decorator}
    {declared : List (String × Variable)} :
    registrations s kind op? (decorator :: rest) = .ok declared ↔
      ∃ first, decorator.declarationsAfter s kind op? = .ok first ∧
        ∃ others, registrations s kind (decorator.operation?.or op?) rest = .ok others ∧
          first ++ others = declared := by
  rw [registrations, bind_eq_ok_iff]
  simp only [bind_eq_ok_iff, pure, Except.pure, Except.ok.injEq]

theorem applyAll_cons_eq_ok_iff {d e : Document} {decorator : Decorator}
    {rest : List Decorator} :
    applyAll s config d (decorator :: rest) = .ok e ↔
      ∃ d', decorator.apply s config d = .ok d' ∧ applyAll s config d' rest = .ok e :=
  bind_eq_ok_iff

/-- Of a document only the kind and the name count for what a decorator declares in it. -/
theorem declarations_congr {d e : Document} (hkind : d.kind = e.kind) (hname : d.name = e.name)
    (decorator : Decorator) : decorator.declarations s d = decorator.declarations s e := by
  have htype (i : InputDecorator) : inputType d i = inputType e i := by
    rw [inputType, inputType, hname]
  cases decorator with
  | directive op => rfl
  | model m kind => rw [declarations, declarations, htype]
  | modelId binding =>
      cases binding with
      | delete m =>
          rw [declarations, declarations, keyDeclarations, keyDeclarations, htype]
      | byId id => rfl
      | byKey ids => rfl
  | filter p => rw [declarations, declarations, hkind]
  | pagination page => rfl

theorem declarations_outline (config : Config) (op? : Option Operation)
    (declared : List (String × Variable)) (decorator : Decorator) :
    decorator.declarations s (.outline s kind config op? declared) =
      decorator.declarationsAfter s kind op? :=
  declarations_congr rfl rfl decorator

theorem apply_of_operation?_eq_none {decorator : Decorator} (d : Document)
    (h : decorator.operation? = none) :
    decorator.apply s config d = (do
      let declared ← decorator.declarations s d
      (d.register config.collisions declared).mapError .collision) := by
  cases decorator with
  | directive op => nomatch h
  | model m kind => rfl
  | modelId binding => rfl
  | filter p => rfl
  | pagination page => rfl

theorem direct_eq_ok_iff {d e : Document} {op : Operation} :
    direct s config d op = .ok e ↔ op.kind = d.kind ∧
      e = { d with
        name := s.rootField op
        directive? := some op
        selection? := some (selection s config op) } := by
  unfold direct
  split
  · next h => simp [h, eq_comm]
  · next h => simp [h]

/-- A decorator takes an outline to the outline with its operation and its declarations. -/
theorem apply_outline_eq_ok_iff {decorator : Decorator} {declared : List (String × Variable)}
    {e : Document} (hd : config.collisions.Admits declared) :
    decorator.apply s config (.outline s kind config op? declared) = .ok e ↔
      (∀ op, decorator.operation? = some op → op.kind = kind) ∧
        ∃ more, decorator.declarationsAfter s kind op? = .ok more ∧
          config.collisions.Admits (declared ++ more) ∧
          e = .outline s kind config (decorator.operation?.or op?) (declared ++ more) := by
  cases hop : decorator.operation? with
  | some op =>
      obtain rfl := eq_directive_of_operation? hop
      have hafter : declarationsAfter s kind op? (.directive op) = .ok [] := rfl
      rw [apply, direct_eq_ok_iff, hafter]
      simp only [Option.some.injEq, forall_eq', Except.ok.injEq, exists_eq_left',
        List.append_nil, Option.some_or, hd, true_and]
      rfl
  | none =>
      have hcollected (more : List (String × Variable)) :
          config.collisions.Admits ((OrderedMap.ofList declared).entries ++ more) ↔
            config.collisions.Admits (declared ++ more) := by
        simpa using Variables.admits_collected_iff hd [] more
      have houtline (more : List (String × Variable)) :
          { Document.outline s kind config op? declared with
            declared := (OrderedMap.ofList declared).insertAll more } =
            Document.outline s kind config op? (declared ++ more) := by
        rw [Document.outline, Document.outline, OrderedMap.ofList_append]
      rw [apply_of_operation?_eq_none _ hop, declarations_outline, bind_eq_ok_iff]
      simp only [mapError_eq_ok_iff, Document.register_eq_ok_iff, Option.none_or, reduceCtorEq,
        false_imp_iff, implies_true, true_and]
      refine exists_congr fun more => and_congr_right fun _ => ?_
      rw [and_comm]
      exact and_congr (hcollected more) (by rw [← houtline more]; rfl)

/-- A list of decorators takes an outline to the outline with its last operation and all its
declarations. -/
theorem applyAll_outline_eq_ok_iff {decorators : List Decorator}
    {declared : List (String × Variable)} {e : Document}
    (hd : config.collisions.Admits declared) :
    applyAll s config (.outline s kind config op? declared) decorators = .ok e ↔
      (∀ op ∈ decorators.filterMap operation?, op.kind = kind) ∧
        ∃ more, registrations s kind op? decorators = .ok more ∧
          config.collisions.Admits (declared ++ more) ∧
          e = .outline s kind config ((lastOperation? decorators).or op?) (declared ++ more) := by
  induction decorators generalizing op? declared with
  | nil => simp [applyAll, registrations, hd, pure, Except.pure, eq_comm]
  | cons decorator rest ih =>
      rw [applyAll_cons_eq_ok_iff, lastOperation?_cons_or]
      constructor
      · rintro ⟨d, hstep, hrest⟩
        obtain ⟨hkind, first, hfirst, hadmits, rfl⟩ := (apply_outline_eq_ok_iff hd).1 hstep
        obtain ⟨hkinds, others, hothers, hall, rfl⟩ := (ih hadmits).1 hrest
        rw [List.append_assoc] at hall ⊢
        refine ⟨forall_mem_filterMap_cons.2 ⟨hkind, hkinds⟩, first ++ others, ?_, hall, rfl⟩
        exact registrations_cons_eq_ok_iff.2 ⟨first, hfirst, others, hothers, rfl⟩
      · rintro ⟨hkinds, more, hmore, hall, he⟩
        obtain ⟨first, hfirst, others, hothers, rfl⟩ := registrations_cons_eq_ok_iff.1 hmore
        obtain ⟨hkind, hkinds⟩ := forall_mem_filterMap_cons.1 hkinds
        rw [← List.append_assoc] at hall he
        have hadmits : config.collisions.Admits (declared ++ first) := hall.of_append_left
        exact ⟨_, (apply_outline_eq_ok_iff hd).2 ⟨hkind, first, hfirst, hadmits, rfl⟩,
          (ih hadmits).2 ⟨hkinds, others, hothers, hall, he⟩⟩

theorem applyAll_eq_ok_iff {decorators : List Decorator} {d : Document} :
    applyAll s config { kind } decorators = .ok d ↔
      (∀ op ∈ decorators.filterMap operation?, op.kind = kind) ∧
        ∃ declared, registrations s kind none decorators = .ok declared ∧
          config.collisions.Admits declared ∧
          d = .outline s kind config (lastOperation? decorators) declared := by
  have hstart : config.collisions.Admits [] := fun _ e he => nomatch he
  have hempty : Document.outline s kind config none [] = { kind } := rfl
  rw [← hempty, applyAll_outline_eq_ok_iff hstart]
  simp only [List.nil_append, Option.or_none]

end Decorator

theorem Builder.state_decorateAll (b : Builder) (decorators : List Decorator) :
    (b.decorateAll decorators).state =
      b.state >>= fun d => Decorator.applyAll b.schema b.config d decorators := by
  induction decorators generalizing b with
  | nil => exact (bind_pure b.state).symm
  | cons decorator rest ih =>
      have hcons : b.decorateAll (decorator :: rest) =
          (b.decorate decorator).decorateAll rest := rfl
      rw [hcons, ih]
      exact bind_assoc b.state _ _

theorem buildDocument_eq_ok_iff_applyAll {s : Schema} {kind : OperationKind} {config : Config}
    {decorators : List Decorator} {d : Document} :
    buildDocument s kind config decorators = .ok d ↔
      s.Valid ∧ Decorator.applyAll s config { kind } decorators = .ok d ∧
        d.selection? ≠ none := by
  have hstate : (((Builder.new s kind).withConfig config).decorateAll decorators).state =
      (s.validate.map fun _ => { kind }) >>= fun d =>
        Decorator.applyAll s config d decorators := Builder.state_decorateAll _ _
  rw [buildDocument, Builder.build, hstate]
  simp only [bind_eq_ok_iff, map_eq_ok_iff]
  constructor
  · rintro ⟨e, ⟨start, ⟨⟨⟩, hvalid, rfl⟩, hrun⟩, hbuild⟩
    cases hsel : e.selection? with
    | none =>
        rw [hsel] at hbuild
        nomatch hbuild
    | some members =>
        rw [hsel] at hbuild
        obtain rfl : e = d := Except.ok.inj hbuild
        exact ⟨Schema.validate_eq_ok_iff.1 hvalid, hrun, by simp [hsel]⟩
  · rintro ⟨hvalid, hrun, hsel⟩
    have hnone : d.selection?.isNone = false :=
      Option.isNone_eq_false_iff.2 (Option.isSome_iff_ne_none.2 hsel)
    exact ⟨d, ⟨{ kind }, ⟨(), Schema.validate_eq_ok_iff.2 hvalid, rfl⟩, hrun⟩, by simp [hnone]; rfl⟩

/-- A list of decorators builds a document exactly when the schema is valid, every operation it
chooses belongs to the kind of the document, it chooses one, no decorator fails, and the policy
admits all declarations together. The document is then the outline of the list. -/
theorem buildDocument_eq_ok_iff {s : Schema} {kind : OperationKind} {config : Config}
    {decorators : List Decorator} {d : Document} :
    buildDocument s kind config decorators = .ok d ↔
      s.Valid ∧ (∀ op ∈ decorators.filterMap Decorator.operation?, op.kind = kind) ∧
        ∃ op, Decorator.lastOperation? decorators = some op ∧
          ∃ declared, Decorator.registrations s kind none decorators = .ok declared ∧
            config.collisions.Admits declared ∧
            d = .outline s kind config (some op) declared := by
  rw [buildDocument_eq_ok_iff_applyAll, Decorator.applyAll_eq_ok_iff]
  constructor
  · rintro ⟨hvalid, ⟨hkinds, declared, hdecl, hadmits, rfl⟩, hsel⟩
    cases hop : Decorator.lastOperation? decorators with
    | none =>
        rw [hop] at hsel
        exact absurd rfl hsel
    | some op => exact ⟨hvalid, hkinds, op, rfl, declared, hdecl, hadmits, rfl⟩
  · rintro ⟨hvalid, hkinds, op, hop, declared, hdecl, hadmits, rfl⟩
    rw [hop]
    exact ⟨hvalid, ⟨hkinds, declared, hdecl, hadmits, rfl⟩, nofun⟩

/-- A document that was built is read off the list of decorators: its name, its operation and what
it selects are those of the operation chosen last, and its variables are the declared names in order
of first declaration, each with the type and the value of its last declaration. -/
theorem built_document_read_off_decorators {s : Schema} {kind : OperationKind} {config : Config}
    {decorators : List Decorator} {d : Document}
    (h : buildDocument s kind config decorators = .ok d) :
    ∃ op declared,
      Decorator.lastOperation? decorators = some op ∧
      Decorator.registrations s kind none decorators = .ok declared ∧
      d.kind = kind ∧ d.name = s.rootField op ∧ d.directive? = some op ∧
      d.selection? = some
        (if op = .list then (SelectionSet.ofSchema s config.typename).paginated
        else SelectionSet.ofSchema s config.typename) ∧
      d.declared.keys = (declared.map Prod.fst).eraseDups ∧
      (∀ name, d.declared.get? name = declared.reverse.lookup name) ∧
      (config.collisions = .reject →
        ∀ e ∈ declared, ∀ f ∈ declared, e.1 = f.1 → e.2.type = f.2.type) := by
  obtain ⟨_, _, op, hop, declared, hdecl, hadmits, rfl⟩ := buildDocument_eq_ok_iff.1 h
  have hselection : Decorator.selection s config op =
      if op = .list then (SelectionSet.ofSchema s config.typename).paginated
      else SelectionSet.ofSchema s config.typename := by
    cases op <;> rfl
  refine ⟨op, declared, hop, hdecl, rfl, rfl, rfl, congrArg some hselection, ?_, ?_, hadmits⟩
  · exact OrderedMap.keys_ofList declared
  · exact OrderedMap.get?_ofList declared

def Schema.post : Schema where
  name := "Post"
  fields := [.id, { name := "title", type := .scalar .string }]

def Schema.rateLimit : Schema where
  name := "RateLimit"
  primaryKey := .custom ["limit"]
  fields := [{ name := "limit", type := .scalar .string }]

def renamedMutation : List Decorator :=
  [.directive .create, .model (.ofList [("id", .string "7")]) .create, .modelId (.byId "7"),
    .directive .update, .model (.ofList [("id", .string "8")]) .update]

theorem renamedMutation_read_off_decorators :
    ∃ d, buildDocument .post .mutation { collisions := .overwrite } renamedMutation = .ok d ∧
      d.name = "updatePost" ∧ d.declared.keys = ["input", "id"] ∧
      (d.declared.get? "input").map Variable.type = some "UpdatePostInput!" := by
  have hbuild : buildDocument .post .mutation { collisions := .overwrite } renamedMutation =
      .ok (.outline .post .mutation { collisions := .overwrite } (some .update)
        [("input", ⟨"CreatePostInput!", .object [("id", .string "7")]⟩),
          ("id", ⟨"ID!", .string "7"⟩),
          ("input", ⟨"UpdatePostInput!", .object [("id", .string "8")]⟩)]) := rfl
  obtain ⟨op, declared, hop, hdecl, _, hname, _, _, hkeys, hget, _⟩ :=
    built_document_read_off_decorators hbuild
  obtain rfl : .update = op := Option.some.inj hop
  obtain rfl := Except.ok.inj hdecl
  refine ⟨_, hbuild, hname, hkeys, ?_⟩
  rw [hget]
  rfl

end DataApi
