import DataApi.Proofs.Build.SingleOperation
import DataApi.Proofs.Mutation.Input
import DataApi.Request

/-!
# How the usual requests succeed and fail

Every request is a document for one operation, so it fails for one of few reasons, whatever the
policy: `send_eq_error_cases` lists them, and a collision, the want of an operation and an empty
document are not among them. `requests_outcome` works out request by request which variables are
sent, or which error there is instead.
-/

namespace DataApi

namespace Decorator

def registeredNames (s : Schema) (kind : OperationKind) (op : Operation)
    (decorators : List Decorator) : Except BuildError (List String) :=
  (registrations s kind (some op) decorators).map fun declared =>
    (declared.map Prod.fst).eraseDups

/-- A mutation declares the input of the instance, if it can be written, and the condition, if it
translates to one. -/
theorem registeredNames_mutation (s : Schema) (op : Operation) (m : Instance) (how : MutationKind)
    (condition : Predicate) :
    registeredNames s .mutation op [.model m how, .filter condition] = (do
      let _ ← (s.mutationInput m how).mapError .missingKeyField
      let filter? ← condition.filter?.mapError .filter
      return Naming.input :: (filter?.map fun _ => Naming.condition).toList) := by
  have htype : inputType { kind := .mutation, name := s.rootField op } .model =
      .ok (Naming.mutationInput (s.rootField op)) :=
    inputType_eq_ok_iff.2 ⟨s.rootField_ne_empty op, rfl⟩
  have hmodel : declarationsAfter s .mutation (some op) (.model m how) = (do
      let input ← (s.mutationInput m how).mapError .missingKeyField
      return [inputDeclaration (Naming.mutationInput (s.rootField op)) input]) :=
    congrArg (· >>= _) htype
  rw [registeredNames, registrations, hmodel]
  cases s.mutationInput m how with
  | error e => rfl
  | ok input =>
      simp only [registrations, declarationsAfter, declarations]
      cases condition.filter? with
      | error e => rfl
      | ok filter? => cases filter? <;> rfl

theorem registeredNames_byId (s : Schema) (op : Operation) (id : String) :
    registeredNames s .query op [.modelId (.byId id)] =
      .ok ((s.customKeyFields?.bind List.head?).toList ++ [Naming.id]).eraseDups := by
  have hok : registrations s .query (some op) [.modelId (.byId id)] = .ok _ := rfl
  rw [registeredNames, hok, Except.map, map_fst_registrations hok]
  simp [declaredNames, signature, Function.comp_def]

theorem registeredNames_list (s : Schema) (op : Operation) (p : Predicate) (page : Page) :
    registeredNames s .query op [.filter p, .pagination page] = (do
      let filter? ← p.filter?.mapError .filter
      return (filter?.map fun _ => Naming.filter).toList ++
        (page.limit.map fun _ => Naming.limit).toList ++
        (page.nextToken.map fun _ => Naming.nextToken).toList) := by
  obtain ⟨limit, token⟩ := page
  simp only [registeredNames, registrations, declarationsAfter, declarations]
  cases p.filter? with
  | error e => rfl
  | ok filter? => cases filter? <;> cases limit <;> cases token <;> rfl

theorem nodup_declaredNames_mutation (s : Schema) (m : Instance) (how : MutationKind)
    (condition : Predicate) :
    ([.model m how, .filter condition].flatMap (declaredNames s .mutation)).Nodup := by
  have hsub : ([.model m how, .filter condition].flatMap
      (declaredNames s .mutation)).Sublist [Naming.input, Naming.condition] := by
    simp only [List.flatMap_cons, List.flatMap_nil, List.append_nil]
    exact (List.Sublist.refl [Naming.input]).append
      (declaredNames_filter_sublist s .mutation condition)
  exact hsub.nodup (by decide)

theorem nodup_declaredNames_list (s : Schema) (p : Predicate) (page : Page) :
    ([.filter p, .pagination page].flatMap (declaredNames s .query)).Nodup := by
  have hsub : ([.filter p, .pagination page].flatMap (declaredNames s .query)).Sublist
      [Naming.filter, Naming.limit, Naming.nextToken] := by
    simp only [List.flatMap_cons, List.flatMap_nil, List.append_nil]
    exact (declaredNames_filter_sublist s .query p).append
      (declaredNames_pagination_sublist s .query page)
  exact hsub.nodup (by decide)

end Decorator

namespace Requests

inductive Call where
  | create (m : Instance)
  | update (m : Instance) (condition : Predicate)
  | delete (m : Instance) (condition : Predicate)
  | get (id : String)
  | list (p : Predicate) (page : Page)
  | subscription (op : Operation)

def send (r : Requests) : Call → Except BuildError Request
  | .create m => r.create m
  | .update m condition => r.update m condition
  | .delete m condition => r.delete m condition
  | .get id => r.get id
  | .list p page => r.list p page
  | .subscription op => r.subscription op

namespace Call

def kind : Call → OperationKind
  | .create _ | .update _ _ | .delete _ _ => .mutation
  | .get _ | .list _ _ => .query
  | .subscription _ => .subscription

def operation : Call → Operation
  | .create _ => .create
  | .update _ _ => .update
  | .delete _ _ => .delete
  | .get _ => .get
  | .list _ _ => .list
  | .subscription op => op

def decorators : Call → List Decorator
  | .create m => [.model m .create, .filter .all]
  | .update m condition => [.model m .update, .filter condition]
  | .delete m condition => [.model m .delete, .filter condition]
  | .get id => [.modelId (.byId id)]
  | .list p page => [.filter p, .pagination page]
  | .subscription _ => []

theorem operation?_eq_none (call : Call) :
    ∀ decorator ∈ call.decorators, decorator.operation? = none := by
  cases call <;> simp [decorators, Decorator.operation?]

theorem kind_operation_or (call : Call) :
    call.operation.kind = call.kind ∨ ∃ op, call = .subscription op := by
  cases call with
  | subscription op => exact .inr ⟨op, rfl⟩
  | _ => exact .inl rfl

end Call

theorem send_eq_request (r : Requests) (call : Call) :
    r.send call = r.request call.kind (.directive call.operation :: call.decorators) := by
  cases call <;> rfl

/-- The names in a request are different, or all of them are names of identifiers. -/
theorem Call.signaturesAgree (call : Call) (s : Schema) (op? : Option Operation) :
    SignaturesAgree (call.decorators.flatMap (Decorator.signature s call.kind op?)) := by
  have hnodup : (call.decorators.flatMap (Decorator.declaredNames s call.kind)).Nodup →
      SignaturesAgree (call.decorators.flatMap (Decorator.signature s call.kind op?)) := by
    rw [← Decorator.map_fst_signatures s call.kind op?]
    exact SignaturesAgree.of_nodup
  cases call with
  | create m => exact hnodup (Decorator.nodup_declaredNames_mutation s m .create .all)
  | update m condition => exact hnodup (Decorator.nodup_declaredNames_mutation s m .update condition)
  | delete m condition => exact hnodup (Decorator.nodup_declaredNames_mutation s m .delete condition)
  | get id =>
      have htype : ∀ a ∈ (get id).decorators.flatMap (Decorator.signature s .query op?),
          a.2 = Naming.idType := by
        rw [decorators, List.flatMap_singleton, Decorator.signature, List.forall_mem_map]
        exact fun _ _ => rfl
      exact SignaturesAgree.of_eq_type htype
  | list p page => exact hnodup (Decorator.nodup_declaredNames_list s p page)
  | subscription op => exact hnodup List.nodup_nil

variable {r : Requests}

theorem send_of_invalid {e : BuildError} (h : r.schema.validate = .error e) (call : Call) :
    r.send call = .error e := by
  rw [send_eq_request, request, buildDocument_of_invalid h]
  rfl

theorem send_eq_error_cases {call : Call} {e : BuildError} (h : r.send call = .error e) :
    (∃ defect, e = .invalidSchema r.schema.name defect) ∨
      (∃ op, call = .subscription op ∧ op.kind ≠ .subscription ∧
        e = .operationMismatch op .subscription) ∨
      (∃ key, e = .missingKeyField key) ∨ ∃ filter, e = .filter filter := by
  rw [send_eq_request, request] at h
  cases hbuild : buildDocument r.schema call.kind r.config
      (.directive call.operation :: call.decorators) with
  | ok d =>
      rw [hbuild] at h
      nomatch h
  | error e' =>
      rw [hbuild] at h
      obtain rfl : e' = e := Except.error.inj h
      rcases buildDocument_directive_eq_error_cases call.operation?_eq_none
        (call.signaturesAgree _ _) hbuild with hschema | ⟨hkind, he⟩ | hcause
      · exact .inl hschema
      · obtain ⟨op, rfl⟩ := call.kind_operation_or.resolve_left hkind
        exact .inr (.inl ⟨op, rfl, hkind, he⟩)
      · exact .inr (.inr hcause)

def variableNames (outcome : Except BuildError Request) : Except BuildError (List String) :=
  outcome.map fun q => q.values.keys

/-- The names that are sent are those that the decorators declare. -/
theorem variableNames_send (hvalid : r.schema.Valid) (call : Call) :
    variableNames (r.send call) =
      if call.operation.kind = call.kind then
        Decorator.registeredNames r.schema call.kind call.operation call.decorators
      else .error (.operationMismatch call.operation call.kind) := by
  have hnames (declared : List (String × Variable)) :
      (Document.outline r.schema call.kind r.config (some call.operation) declared).values.keys =
        (declared.map Prod.fst).eraseDups := by
    rw [Document.values, Variables.valueMap, OrderedMap.keys_map]
    exact OrderedMap.keys_ofList declared
  rw [variableNames, send_eq_request, request, Decorator.registeredNames,
    buildDocument_directive hvalid call.operation?_eq_none (call.signaturesAgree _ _)]
  split
  · cases Decorator.registrations r.schema call.kind (some call.operation) call.decorators with
    | error e => rfl
    | ok declared => exact congrArg Except.ok (hnames declared)
  · rfl

theorem variableNames_subscription (hvalid : r.schema.Valid) (op : Operation) :
    variableNames (r.subscription op) =
      if op ∈ [.onCreate, .onUpdate, .onDelete] then .ok []
      else .error (.operationMismatch op .subscription) := by
  refine (variableNames_send hvalid (.subscription op)).trans ?_
  cases op <;> rfl

end Requests

/-- A request on a model that is not valid fails with what is wrong with the model. On a valid model,
creating and getting an instance always succeed; updating and deleting fail for want of the key,
or else because of the condition; listing fails because of the predicate alone, and subscribing
because of the operation alone. An update lacks the first field of the key that no field of the
model has a value to offer for, and a deletion the first one that the instance has no value for. A
request that succeeds is sent with the variables that are listed here, in this order. Under no policy
does a request collide, want an operation or select nothing. -/
theorem requests_outcome (r : Requests) :
    (∀ e, r.schema.validate = .error e → ∀ call, r.send call = .error e) ∧
    (r.schema.Valid →
      (∀ m, Requests.variableNames (r.create m) = .ok ["input"]) ∧
      (∀ m condition, Requests.variableNames (r.update m condition) = (do
        let _ ← (r.schema.updateInput m).mapError .missingKeyField
        let filter? ← condition.filter?.mapError .filter
        return "input" :: (filter?.map fun _ => "condition").toList)) ∧
      (∀ m e, r.schema.updateInput m = .error e ↔ ∃ field, r.schema.FirstMissing
        (fun other => ∃ f ∈ r.schema.fields, ∃ value ∈ r.schema.offers m other f, value ≠ .null)
          field ∧ e = ⟨r.schema.name, field⟩) ∧
      (∀ m condition, Requests.variableNames (r.delete m condition) = (do
        let _ ← (r.schema.keyInput m).mapError .missingKeyField
        let filter? ← condition.filter?.mapError .filter
        return "input" :: (filter?.map fun _ => "condition").toList)) ∧
      (∀ m e, r.schema.keyInput m = .error e ↔ ∃ field, r.schema.FirstMissing
        (fun other => ∃ value, m.get? other = some value ∧ value ≠ .null) field ∧
          e = ⟨r.schema.name, field⟩) ∧
      (∀ id, Requests.variableNames (r.get id) =
        .ok ((r.schema.customKeyFields?.bind List.head?).toList ++ ["id"]).eraseDups) ∧
      (∀ p page, Requests.variableNames (r.list p page) = (do
        let filter? ← p.filter?.mapError .filter
        return (filter?.map fun _ => "filter").toList ++
          (page.limit.map fun _ => "limit").toList ++
          (page.nextToken.map fun _ => "nextToken").toList)) ∧
      ∀ op, Requests.variableNames (r.subscription op) =
        if op ∈ [.onCreate, .onUpdate, .onDelete] then .ok []
        else .error (.operationMismatch op .subscription)) ∧
    ∀ call e, r.send call = .error e →
      (∀ c, e ≠ .collision c) ∧ (∀ i, e ≠ .missingDirective i) ∧ e ≠ .incomplete := by
  refine ⟨fun e he => Requests.send_of_invalid he, fun hvalid => ⟨fun m => ?_,
    fun m condition => ?_, fun m e => Schema.updateInput_eq_error_iff_offers,
    fun m condition => ?_, fun m e => Schema.keyInput_eq_error_iff, fun id => ?_,
    fun p page => ?_, Requests.variableNames_subscription hvalid⟩, fun call e he => ?_⟩
  · exact (Requests.variableNames_send hvalid (.create m)).trans
      (Decorator.registeredNames_mutation r.schema .create m .create .all)
  · exact (Requests.variableNames_send hvalid (.update m condition)).trans
      (Decorator.registeredNames_mutation r.schema .update m .update condition)
  · exact (Requests.variableNames_send hvalid (.delete m condition)).trans
      (Decorator.registeredNames_mutation r.schema .delete m .delete condition)
  · exact (Requests.variableNames_send hvalid (.get id)).trans
      (Decorator.registeredNames_byId r.schema .get id)
  · exact (Requests.variableNames_send hvalid (.list p page)).trans
      (Decorator.registeredNames_list r.schema .list p page)
  · rcases Requests.send_eq_error_cases he with ⟨_, rfl⟩ | ⟨_, _, _, rfl⟩ | ⟨_, rfl⟩ | ⟨_, rfl⟩
    all_goals exact ⟨nofun, nofun, nofun⟩

/-- The identifiers of an instance are sent under the names of its key, whatever else these names
are used for, and a missing key comes before an unknown operator; `null` is no value for the key. -/
theorem requests_outcome_rateLimit :
    Requests.variableNames (Requests.get ⟨.rateLimit, {}⟩ "gold") = .ok ["limit", "id"] ∧
      Requests.variableNames (Requests.update ⟨.rateLimit, {}⟩ ∅
        (.compare "limit" (.named "matches" (.string "x")))) =
        .error (.missingKeyField ⟨"RateLimit", "limit"⟩) ∧
      Requests.variableNames (Requests.delete ⟨.rateLimit, {}⟩ (.ofList [("limit", .null)])
        (.compare "limit" (.named "matches" (.string "x")))) =
        .error (.missingKeyField ⟨"RateLimit", "limit"⟩) ∧
      Requests.variableNames (Requests.delete ⟨.rateLimit, {}⟩
        (.ofList [("limit", .string "gold")])
        (.compare "limit" (.relation .ne (.string "silver")))) = .ok ["input", "condition"] := by
  obtain ⟨_, hvalid, _⟩ := requests_outcome ⟨.rateLimit, {}⟩
  obtain ⟨_, hupdate, _, hdelete, hkey, hget, _⟩ := hvalid (Schema.defect?_eq_none_iff.1 rfl)
  have hmissing : Schema.rateLimit.keyInput (.ofList [("limit", .null)]) =
      .error ⟨"RateLimit", "limit"⟩ := by
    refine (hkey _ _).2 ⟨"limit", ⟨[], [], rfl, nofun, ?_⟩, rfl⟩
    rintro ⟨value, hvalue, hne⟩
    exact hne (Option.some.inj hvalue).symm
  refine ⟨hget _, (hupdate _ _).trans rfl, (hdelete _ _).trans ?_, (hdelete _ _).trans rfl⟩
  rw [hmissing]
  rfl

end DataApi
