import DataApi.Builder
import DataApi.Document.Text

/-!
# Requests

What is sent to the server: the text of a document, the name of its operation and the values of its
variables. `Requests` holds the usual requests on one model, each of them a fixed list of
decorators.
-/

namespace DataApi

structure Request where
  query : String
  operationName : String
  values : OrderedMap Json

namespace Request

def ofDocument (d : Document) : Request where
  query := d.text
  operationName := d.operationName
  values := d.values

/-- The body as an object; the variables are left out when there are none. -/
def toJson (r : Request) : Json :=
  .object <| [("query", .string r.query), ("operationName", .string r.operationName)]
    ++ if r.values.isEmpty then [] else [("variables", .object r.values.entries)]

end Request

/-- The usual requests on one model. -/
structure Requests where
  schema : Schema
  config : Config := {}

namespace Requests

def request (r : Requests) (kind : OperationKind) (decorators : List Decorator) :
    Except BuildError Request :=
  (buildDocument r.schema kind r.config decorators).map .ofDocument

/-- Writes an instance, provided that the stored one satisfies a condition. -/
def mutate (r : Requests) (m : Instance) (kind : MutationKind) (condition : Predicate) :
    Except BuildError Request :=
  r.request .mutation [.directive kind.operation, .model m kind, .filter condition]

def create (r : Requests) (m : Instance) : Except BuildError Request :=
  r.mutate m .create .all

def update (r : Requests) (m : Instance) (condition : Predicate := .all) :
    Except BuildError Request :=
  r.mutate m .update condition

def delete (r : Requests) (m : Instance) (condition : Predicate := .all) :
    Except BuildError Request :=
  r.mutate m .delete condition

def get (r : Requests) (id : String) : Except BuildError Request :=
  r.request .query [.directive .get, .modelId (.byId id)]

def list (r : Requests) (p : Predicate := .all) (page : Page := {}) : Except BuildError Request :=
  r.request .query [.directive .list, .filter p, .pagination page]

def subscription (r : Requests) (op : Operation) : Except BuildError Request :=
  r.request .subscription [.directive op]

end Requests

end DataApi
