import DataApi.Json.Basic

/-!
# Compact JSON text

`Json.compact` writes a value without blanks, the entries of an object in their order. Inside a
string only the quote, the backslash and the characters below U+0020 are escaped, the latter by
their short escape where there is one and by four lower-case hexadecimal digits otherwise.
-/

namespace DataApi

/-- The digits of `n`, filled up with zeros from the left to `width` digits. -/
def paddedDigits (width n : Nat) : String :=
  let digits := (Nat.repr n).toList
  String.ofList (List.replicate (width - digits.length) '0' ++ digits)

/-- Sign, integer part, point and the places behind it. -/
def Decimal.text (d : Decimal) : String :=
  let unit := Nat.pow 10 d.places
  let size := d.digits.natAbs
  (if d.digits < 0 then "-" else "") ++ Nat.repr (size / unit) ++ "." ++
    paddedDigits d.places (size % unit)

/-- Integers in decimal digits, fractions with their point. -/
def Number.text : Number → String
  | .int n => (if n < 0 then "-" else "") ++ Nat.repr n.natAbs
  | .decimal d => d.text

namespace Json

/-- The characters that stand for `c` between the quotes of a string. -/
def escapedChar (c : Char) : String :=
  match c with
  | '"' => "\\\""
  | '\\' => "\\\\"
  | '\n' => "\\n"
  | '\r' => "\\r"
  | '\t' => "\\t"
  | '\x08' => "\\b"
  | '\x0c' => "\\f"
  | c =>
      if c.toNat < 0x20 then
        "\\u00" ++ String.ofList [Nat.digitChar (c.toNat / 16), Nat.digitChar (c.toNat % 16)]
      else c.toString

def quoted (s : String) : String := "\"" ++ String.join (s.toList.map escapedChar) ++ "\""

mutual

/-- The text of a value, without blanks. -/
def compact : Json → String
  | .null => "null"
  | .bool b => if b then "true" else "false"
  | .number n => n.text
  | .string s => quoted s
  | .list items => "[" ++ ",".intercalate (compactItems items) ++ "]"
  | .object entries => "\x7b" ++ ",".intercalate (compactEntries entries) ++ "\x7d"

def compactItems : List Json → List String
  | [] => []
  | item :: rest => compact item :: compactItems rest

def compactEntries : List (String × Json) → List String
  | [] => []
  | (key, value) :: rest => (quoted key ++ ":" ++ compact value) :: compactEntries rest

end

end Json

end DataApi
