import DataApi.Keyword

/-!
# Operations on models

A document is a query, a mutation or a subscription. For every model the server offers eight
operations, each of which belongs to one kind of document; three of them write.
-/

namespace DataApi

inductive OperationKind where
  | query
  | mutation
  | subscription
  deriving DecidableEq

/-- The operations that the server offers for every model. -/
inductive Operation where
  | create
  | update
  | delete
  | get
  | list
  | onCreate
  | onUpdate
  | onDelete
  deriving DecidableEq

inductive MutationKind where
  | create
  | update
  | delete
  deriving DecidableEq

instance : Keyword OperationKind where
  all := [.query, .mutation, .subscription]
  keyword
    | .query => "query"
    | .mutation => "mutation"
    | .subscription => "subscription"
  mem_all a := by cases a <;> decide
  nodup_keywords := by decide

instance : Keyword Operation where
  all := [.create, .update, .delete, .get, .list, .onCreate, .onUpdate, .onDelete]
  keyword
    | .create => "create"
    | .update => "update"
    | .delete => "delete"
    | .get => "get"
    | .list => "list"
    | .onCreate => "onCreate"
    | .onUpdate => "onUpdate"
    | .onDelete => "onDelete"
  mem_all a := by cases a <;> decide
  nodup_keywords := by decide

instance : Keyword MutationKind where
  all := [.create, .update, .delete]
  keyword
    | .create => "create"
    | .update => "update"
    | .delete => "delete"
  mem_all a := by cases a <;> decide
  nodup_keywords := by decide

/-- The kind of document in which an operation may be used. -/
def Operation.kind : Operation → OperationKind
  | .create | .update | .delete => .mutation
  | .get | .list => .query
  | .onCreate | .onUpdate | .onDelete => .subscription

def MutationKind.operation : MutationKind → Operation
  | .create => .create
  | .update => .update
  | .delete => .delete

@[simp] theorem MutationKind.kind_operation (k : MutationKind) : k.operation.kind = .mutation := by
  cases k <;> rfl

end DataApi
