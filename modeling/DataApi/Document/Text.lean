import DataApi.Document.Basic

/-!
# The text of a document

A document is written in lines, two spaces of indentation for every brace that is open: a header
with the kind and the name of the operation, the root field, what is selected below it, and the
closing brace. The variables are listed twice, in their order: with their types in the header, and
as arguments of the root field, each under its own name. An empty selection set, which must not be
written, stands for the name of the type.
-/

namespace DataApi

/-- A line of text and the number of braces that are open around it. -/
structure Line where
  depth : Nat
  content : String
  deriving DecidableEq

def Line.text (l : Line) : String :=
  String.ofList (List.replicate (2 * l.depth) ' ') ++ l.content

def opening (content : String) : String := content ++ " \x7b"

def closing : String := "\x7d"

/-- Several items between parentheses; nothing at all when there are none. -/
def parenthesized (items : List String) : String :=
  if items.isEmpty then "" else "(" ++ ", ".intercalate items ++ ")"

theorem parenthesized_cons (item : String) (items : List String) :
    parenthesized (item :: items) = "(" ++ ", ".intercalate (item :: items) ++ ")" := rfl

namespace Selection

mutual

def lines (depth : Nat) : Selection → List Line
  | .field name => [⟨depth, name⟩]
  | .object name members =>
      ⟨depth, opening name⟩ :: (linesOfMembers (depth + 1) members ++ [⟨depth, closing⟩])

def linesOfMembers (depth : Nat) : List Selection → List Line
  | [] => []
  | member :: rest => member.lines depth ++ linesOfMembers depth rest

end

theorem linesOfMembers_eq_flatMap (depth : Nat) (members : List Selection) :
    linesOfMembers depth members = members.flatMap (lines depth) := by
  induction members with
  | nil => rfl
  | cons member rest ih => simp [linesOfMembers, ih]

end Selection

namespace Document

def definitions (d : Document) : List String :=
  d.declared.entries.map fun e => "$" ++ e.1 ++ ": " ++ e.2.type

/-- The arguments of the root field, each bound to the variable of its name. -/
def arguments (d : Document) : List String :=
  d.declared.keys.map fun name => name ++ ": $" ++ name

def header (d : Document) : String :=
  Keyword.keyword d.kind ++ " " ++ d.operationName ++ parenthesized d.definitions

def root (d : Document) : String := d.name ++ parenthesized d.arguments

/-- The lines of the root field and of what is selected below it. -/
def body (d : Document) : List Line :=
  match d.selection? with
  | none => [⟨1, d.root⟩]
  | some members =>
      ⟨1, opening d.root⟩ :: (Selection.linesOfMembers 2 (SelectionSet.filled members)
        ++ [⟨1, closing⟩])

def lines (d : Document) : List Line :=
  ⟨0, opening d.header⟩ :: (d.body ++ [⟨0, closing⟩])

/-- The text of a document; the last line is not ended. -/
def text (d : Document) : String := "\n".intercalate (d.lines.map Line.text)

end Document

end DataApi
