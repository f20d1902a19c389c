import DataApi.Document.Variables
import DataApi.Mutation
import DataApi.Predicate.Filter
import DataApi.Schema.Validity

/-!
# Why a document cannot be built

One constructor for every cause. The causes that concern a schema, a key, a predicate or a variable
alone are errors of their own, which are taken over here.
-/

namespace DataApi

/-- The decorators that derive a type from the name of the operation. -/
inductive InputDecorator where
  | model
  | modelId
  deriving DecidableEq

def InputDecorator.title : InputDecorator → String
  | .model => "model"
  | .modelId => "model id"

/-- Why a document cannot be built. -/
inductive BuildError where
  /-- Nothing is selected, as no operation has been chosen. -/
  | incomplete
  | invalidSchema (model : String) (defect : SchemaDefect)
  | missingDirective (decorator : InputDecorator)
  | operationMismatch (operation : Operation) (kind : OperationKind)
  | missingKeyField (e : MissingKeyField)
  | filter (e : FilterError)
  | collision (c : Collision)
  deriving DecidableEq

def BuildError.message : BuildError → String
  | .incomplete =>
      "The document has no selection set, a directive decorator must be applied before building it"
  | .invalidSchema model defect =>
      "Invalid schema for model '" ++ model ++ "': " ++ defect.message
  | .missingDirective decorator =>
      "The " ++ decorator.title ++
        " decorator needs an operation name, apply a directive decorator first"
  | .operationMismatch operation kind =>
      "'" ++ Keyword.keyword operation ++ "' cannot be used in a " ++ Keyword.keyword kind ++
        " document"
  | .missingKeyField e => e.message
  | .filter e => e.message
  | .collision c => c.message

/-- Fails with the first thing that is wrong with a schema. -/
def Schema.validate (s : Schema) : Except BuildError Unit :=
  match s.defect? with
  | none => .ok ()
  | some defect => .error (.invalidSchema s.name defect)

theorem Schema.validate_eq_ok_iff {s : Schema} : s.validate = .ok () ↔ s.Valid := by
  rw [← Schema.defect?_eq_none_iff, validate]
  cases s.defect? <;> simp

end DataApi
