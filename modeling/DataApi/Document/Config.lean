import DataApi.Document.Variables
import DataApi.Json.Decode

/-!
# How documents are built

Two choices: what happens to a variable that is declared again with another type, and whether the
selection sets end in the name of the type. Both have a default, and a configuration that names
anything else is refused.
-/

namespace DataApi

/-- The choices that apply to every document. -/
structure Config where
  /-- What happens to a variable that is declared again with another type. -/
  collisions : CollisionPolicy := .reject
  /-- Whether every selection set that is generated ends in the name of the type. -/
  typename : Bool := true
  deriving DecidableEq

namespace Config

def names : List String := ["variable_collisions", "include_typename"]

def record : Record Config Config where
  names := names
  blank := {}
  add c
    | ("variable_collisions", j) => do return { c with collisions := ← j.asKeyword }
    | ("include_typename", j) => do return { c with typename := ← j.asBool }
    | (name, _) => throw (.unknownField name names)
  finish c := return c

def ofJson : Json → Except DecodeError Config := record.ofJson

end Config

end DataApi
