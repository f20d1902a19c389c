import DataApi.BuildError
import DataApi.Document.Basic
import DataApi.Document.Config

/-!
# Decorators

A decorator adds one thing to a document: the operation with its root field and selection set, the
input of a mutation, the identity of an instance, a filter, or a page. All but the first do nothing
but declare variables; `Decorator.declarations` says which, and `Decorator.apply` registers them.
The type of a mutation's input is derived from the root field, so these decorators need an
operation that was chosen before.
-/

namespace DataApi

/-- How an instance is identified. -/
inductive KeyBinding where
  /-- By the key of an instance, as the input of a mutation that deletes it. -/
  | delete (m : Instance)
  | byId (id : String)
  /-- By an identifier for every field of the key. -/
  | byKey (ids : OrderedMap String)

/-- Which part of a list of instances is asked for. -/
structure Page where
  limit : Option Nat := none
  nextToken : Option String := none
  deriving DecidableEq

/-- A step in the construction of a document. -/
inductive Decorator where
  | directive (operation : Operation)
  | model (m : Instance) (kind : MutationKind)
  | modelId (binding : KeyBinding)
  | filter (p : Predicate)
  | pagination (page : Page)

namespace Decorator

def name : Decorator → String
  | .directive _ => "directive"
  | .model _ _ => "model"
  | .modelId _ => "model_id"
  | .filter _ => "filter"
  | .pagination _ => "pagination"

/-- The type of the input of the chosen operation. -/
def inputType (d : Document) (decorator : InputDecorator) : Except BuildError String :=
  if d.name.isEmpty then .error (.missingDirective decorator)
  else .ok (Naming.mutationInput d.name)

def identifier (name id : String) : String × Variable := (name, ⟨Naming.idType, .string id⟩)

def inputDeclaration (type : String) (input : OrderedMap Json) : String × Variable :=
  (Naming.input, ⟨type, .object input.entries⟩)

def keyIdentifier (s : Schema) (ids : OrderedMap String) (field : String) :
    Except MissingKeyField (String × Variable) :=
  match ids.get? field with
  | some id => .ok (identifier field id)
  | none => .error ⟨s.name, field⟩

/-- The declaration of a filter over the instances of a model, or of the condition under which a
mutation writes. -/
def filterDeclaration (s : Schema) (filter : Json) : OperationKind → String × Variable
  | .mutation => (Naming.condition, ⟨Naming.conditionInput s.name, filter⟩)
  | .query | .subscription => (Naming.filter, ⟨Naming.filterInput s.name, filter⟩)

def keyDeclarations (s : Schema) (d : Document) :
    KeyBinding → Except BuildError (List (String × Variable))
  | .delete m => do
      let type ← inputType d .modelId
      let key ← (s.keyInput m).mapError .missingKeyField
      return [inputDeclaration type key]
  | .byId id =>
      .ok (((s.customKeyFields?.bind List.head?).map fun field => identifier field id).toList
        ++ [identifier Naming.id id])
  | .byKey ids => (s.keyFields.mapM (keyIdentifier s ids)).mapError .missingKeyField

/-- The variables that choose a page; what is not set is not declared. -/
def pageDeclarations (page : Page) : List (String × Variable) :=
  (page.limit.map fun n => (Naming.limit, ⟨Naming.limitType, .int n⟩)).toList ++
    (page.nextToken.map fun token =>
      (Naming.nextToken, ⟨Naming.nextTokenType, .string token⟩)).toList

def declarations (s : Schema) (d : Document) :
    Decorator → Except BuildError (List (String × Variable))
  | .directive _ => .ok []
  | .model m kind => do
      let type ← inputType d .model
      let input ← (s.mutationInput m kind).mapError .missingKeyField
      return [inputDeclaration type input]
  | .modelId binding => keyDeclarations s d binding
  | .filter p => do
      let filter ← p.filter?.mapError .filter
      return (filter.map fun j => filterDeclaration s j d.kind).toList
  | .pagination page => .ok (pageDeclarations page)

def selection (s : Schema) (config : Config) (op : Operation) : SelectionSet :=
  let members := SelectionSet.ofSchema s config.typename
  match op with
  | .list => members.paginated
  | _ => members

def direct (s : Schema) (config : Config) (d : Document) (op : Operation) :
    Except BuildError Document :=
  if op.kind = d.kind then
    .ok { d with
      name := s.rootField op
      directive? := some op
      selection? := some (selection s config op) }
  else .error (.operationMismatch op d.kind)

def apply (s : Schema) (config : Config) (d : Document) : Decorator → Except BuildError Document
  | .directive op => direct s config d op
  | decorator => do
      let declared ← decorator.declarations s d
      (d.register config.collisions declared).mapError .collision

end Decorator

end DataApi
