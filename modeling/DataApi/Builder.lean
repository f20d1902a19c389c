import DataApi.Decorator

/-!
# Building documents

A builder applies decorators one after the other, starting from the empty document of its kind. The
first thing that goes wrong (the schema comes before every decorator) is kept, and the decorators
behind it are not applied. A document is complete once something is selected.
-/

namespace DataApi

/-- A document under construction, or what went wrong with it. -/
structure Builder where
  schema : Schema
  config : Config := {}
  /-- The document so far, or the first error. -/
  state : Except BuildError Document

namespace Builder

def new (s : Schema) (kind : OperationKind) : Builder where
  schema := s
  state := s.validate.map fun _ => { kind }

/-- Changes the configuration for the decorators to come. -/
def withConfig (b : Builder) (config : Config) : Builder := { b with config }

/-- Applies a decorator, unless something has gone wrong before. -/
def decorate (b : Builder) (decorator : Decorator) : Builder :=
  { b with state := b.state.bind fun d => decorator.apply b.schema b.config d }

def decorateAll (b : Builder) (decorators : List Decorator) : Builder :=
  decorators.foldl decorate b

/-- The document, if nothing has gone wrong and something is selected. -/
def build (b : Builder) : Except BuildError Document := do
  let d ← b.state
  if d.selection?.isNone then throw .incomplete
  return d

end Builder

def buildDocument (s : Schema) (kind : OperationKind) (config : Config)
    (decorators : List Decorator) : Except BuildError Document :=
  (((Builder.new s kind).withConfig config).decorateAll decorators).build

end DataApi
