import DataApi.Json.Basic
import DataApi.Keyword

/-!
# Decoding JSON into types

The first failure decides. The entries of an object are decoded in their order and a member that
is missing is noticed only behind the last one; the items of a list are decoded in their order.

A `Record` says how the members of an object make up a value: each entry is added to a draft, and
`finish` asks the draft for what has to be there. A record may also be written as a list of its
members in their order of declaration. A choice between variants is written as the name of the
variant, or as an object whose only entry has the name as its key and the content as its value;
the name is judged before the content.
-/

namespace DataApi

/-- Why a JSON value does not decode. -/
inductive DecodeError where
  | unknownVariant (found : String) (expected : List String)
  | unknownField (found : String) (expected : List String)
  | missingField (name : String)
  | malformed
  deriving DecidableEq

namespace DecodeError

/-- A name between backquotes. -/
def ticked (name : String) : String := "\x60" ++ name ++ "\x60"

def choice : List String → String
  | [] => "nothing"
  | [name] => ticked name
  | [first, second] => ticked first ++ " or " ++ ticked second
  | names => "one of " ++ ", ".intercalate (names.map ticked)

/-- The text of an error; a value of the wrong shape has none. -/
def message? : DecodeError → Option String
  | .unknownVariant found expected =>
      some ("unknown variant " ++ ticked found ++ ", expected " ++ choice expected)
  | .unknownField found expected =>
      some ("unknown field " ++ ticked found ++ ", expected " ++ choice expected)
  | .missingField name => some ("missing field " ++ ticked name)
  | .malformed => none

end DecodeError

namespace Json

def asString : Json → Except DecodeError String
  | .string s => .ok s
  | _ => .error .malformed

def asBool : Json → Except DecodeError Bool
  | .bool b => .ok b
  | _ => .error .malformed

/-- Decodes `null` as nothing and every other value as something. -/
def asOption {α : Type} (decode : Json → Except DecodeError α) : Json → Except DecodeError (Option α)
  | .null => .ok none
  | j => (decode j).map some

def asList {α : Type} (decode : Json → Except DecodeError α) : Json → Except DecodeError (List α)
  | .list items => items.mapM decode
  | _ => .error .malformed

/-- The name of the chosen variant, and its content if there is one. -/
def asVariant : Json → Except DecodeError (String × Option Json)
  | .string name => .ok (name, none)
  | .object [(name, content)] => .ok (name, some content)
  | _ => .error .malformed

def content : Option Json → Except DecodeError Json
  | some j => .ok j
  | none => .error .malformed

/-- Accepts the content of a variant that has none to offer. -/
def noContent : Option Json → Except DecodeError Unit
  | none | some .null => .ok ()
  | some _ => .error .malformed

def asKeyword {α : Type} [Keyword α] (j : Json) : Except DecodeError α := do
  let (name, content) ← j.asVariant
  match Keyword.ofKeyword? name with
  | some a => noContent content; return a
  | none => throw (.unknownVariant name (Keyword.keywords α))

@[simp] theorem asString_string (s : String) : (string s).asString = .ok s := rfl

@[simp] theorem asBool_bool (b : Bool) : (bool b).asBool = .ok b := rfl

@[simp] theorem asVariant_string (name : String) : (string name).asVariant = .ok (name, none) := rfl

@[simp] theorem asVariant_single (name : String) (content : Json) :
    (single name content).asVariant = .ok (name, some content) := rfl

theorem asKeyword_keyword {α : Type} [Keyword α] (a : α) :
    (string (Keyword.keyword a)).asKeyword = .ok a := by
  simp [asKeyword, Keyword.ofKeyword?_keyword, noContent, bind, Except.bind, pure, Except.pure]

end Json

/-- How the members of an object, collected in a draft, make up a value. -/
structure Record (δ α : Type) where
  names : List String
  /-- The draft before the first entry. -/
  blank : δ
  add : δ → String × Json → Except DecodeError δ
  /-- The value of a complete draft. -/
  finish : δ → Except DecodeError α

namespace Record

variable {δ α : Type}

def ofEntries (r : Record δ α) (entries : List (String × Json)) : Except DecodeError α := do
  r.finish (← entries.foldlM r.add r.blank)

/-- Decodes the items of a list as the members in order of declaration; members may be left out
at the end if the record can do without them. -/
def ofItems (r : Record δ α) (items : List Json) : Except DecodeError α := do
  let draft ← (r.names.zip items).foldlM r.add r.blank
  if r.names.length < items.length then throw .malformed
  (r.finish draft).mapError fun _ => .malformed

/-- Decodes an object, or a list of the members. -/
def ofJson (r : Record δ α) : Json → Except DecodeError α
  | .object entries => r.ofEntries entries
  | .list items => r.ofItems items
  | _ => .error .malformed

def ofObject (r : Record δ α) : Json → Except DecodeError α
  | .object entries => r.ofEntries entries
  | _ => .error .malformed

def required (name : String) : Option α → Except DecodeError α
  | some a => .ok a
  | none => .error (.missingField name)

@[simp] theorem ofJson_object (r : Record δ α) (entries : List (String × Json)) :
    r.ofJson (.object entries) = r.ofEntries entries := rfl

@[simp] theorem required_some (name : String) (a : α) : required name (some a) = .ok a := rfl

end Record

end DataApi
