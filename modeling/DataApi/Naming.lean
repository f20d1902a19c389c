import DataApi.Text.Uppercase

/-!
# Names of types and variables

The server names its input types after root fields and models: `createPost` takes a
`CreatePostInput!`, lists of `Post` are filtered by a `ModelPostFilterInput`, and writes to it may
depend on a `ModelPostConditionInput`. The variables of a document have fixed names.
-/

namespace DataApi

namespace Naming

/-- The name with its first character in upper case and the rest untouched. -/
def pascal (name : String) : String :=
  match name.toList with
  | [] => ""
  | c :: rest => String.ofList (upperCase c ++ rest)

def mutationInput (rootField : String) : String := pascal rootField ++ "Input!"

def filterInput (model : String) : String := "Model" ++ model ++ "FilterInput"

/-- The type of a condition on a stored instance of a model. -/
def conditionInput (model : String) : String := "Model" ++ model ++ "ConditionInput"

def idType : String := "ID!"

def limitType : String := "Int"

def nextTokenType : String := "String"

/-- The name of the synthetic key field, and of the variable bound to it. -/
def id : String := "id"

def input : String := "input"

def filter : String := "filter"

def condition : String := "condition"

def limit : String := "limit"

/-- The variable, and the field, that carries the token of the next page. -/
def nextToken : String := "nextToken"

/-- The field that holds the entries of a page. -/
def items : String := "items"

def typename : String := "__typename"

@[simp] theorem pascal_empty : pascal "" = "" := rfl

theorem pascal_eq_ofList {name : String} {c : Char} {rest : List Char}
    (h : name.toList = c :: rest) : pascal name = String.ofList (upperCase c ++ rest) := by
  rw [pascal, h]

end Naming

end DataApi
