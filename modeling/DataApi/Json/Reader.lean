import DataApi.Json.Basic
import DataApi.OrderedMap

/-!
# Reading JSON text

`Json.parse?` reads one value and keeps the entries of every object in the order of the text; a
key that comes again replaces the value where the key first stood. A number without a fraction and
without an exponent is an integer of any size, every other number a decimal fraction. The reader
works on the characters that are left, each part returning the rest behind it.
-/

namespace DataApi

namespace Json

namespace Reader

def isBlank (c : Char) : Bool := c == ' ' || c == '\n' || c == '\r' || c == '\t'

def skipBlanks (cs : List Char) : List Char := cs.dropWhile isBlank

def hexDigit? (c : Char) : Option Nat :=
  if '0' ≤ c && c ≤ '9' then some (c.toNat - '0'.toNat)
  else if 'a' ≤ c && c ≤ 'f' then some (c.toNat - 'a'.toNat + 10)
  else if 'A' ≤ c && c ≤ 'F' then some (c.toNat - 'A'.toNat + 10)
  else none

def hexUnit? (a b c d : Char) : Option Nat := do
  return ((← hexDigit? a) * 16 + (← hexDigit? b)) * 256 + (← hexDigit? c) * 16 + (← hexDigit? d)

def shortEscape? : Char → Option Char
  | '"' => some '"'
  | '\\' => some '\\'
  | '/' => some '/'
  | 'b' => some '\x08'
  | 'f' => some '\x0c'
  | 'n' => some '\n'
  | 'r' => some '\r'
  | 't' => some '\t'
  | _ => none

def isHighHalf (n : Nat) : Bool := 0xD800 ≤ n && n < 0xDC00

def isLowHalf (n : Nat) : Bool := 0xDC00 ≤ n && n < 0xE000

/-- Reads a string up to its closing quote; `done` holds the characters before, last one first. -/
def stringTail (done : List Char) : List Char → Option (String × List Char)
  | [] => none
  | '"' :: rest => some (String.ofList done.reverse, rest)
  | '\\' :: 'u' :: a :: b :: c :: d :: '\\' :: 'u' :: e :: f :: g :: h :: rest =>
      match hexUnit? a b c d, hexUnit? e f g h with
      | some high, some low =>
          if isHighHalf high && isLowHalf low then
            stringTail (Char.ofNat (0x10000 + (high - 0xD800) * 0x400 + (low - 0xDC00)) :: done) rest
          else if isHighHalf high || isLowHalf high then none
          else stringTail (Char.ofNat high :: done) ('\\' :: 'u' :: e :: f :: g :: h :: rest)
      | _, _ => none
  | '\\' :: 'u' :: a :: b :: c :: d :: rest =>
      match hexUnit? a b c d with
      | some n =>
          if isHighHalf n || isLowHalf n then none else stringTail (Char.ofNat n :: done) rest
      | none => none
  | '\\' :: c :: rest =>
      match shortEscape? c with
      | some c => stringTail (c :: done) rest
      | none => none
  | c :: rest => if c.toNat < 0x20 then none else stringTail (c :: done) rest

def natOfDigits (digits : List Char) : Nat :=
  digits.foldl (fun n c => n * 10 + (c.toNat - '0'.toNat)) 0

/-- The run of decimal digits at the front, which must not be empty, and the rest. -/
def digits? (cs : List Char) : Option (List Char × List Char) :=
  let digits := cs.takeWhile Char.isDigit
  if digits.isEmpty then none else some (digits, cs.dropWhile Char.isDigit)

/-- The digits behind a point, if a point comes next. -/
def fraction? : List Char → Option (Option (List Char) × List Char)
  | '.' :: rest => (digits? rest).map fun (digits, rest) => (some digits, rest)
  | rest => some (none, rest)

def exponent? : List Char → Option (Option Int × List Char)
  | c :: rest =>
      if c == 'e' || c == 'E' then
        let (negative, rest) := match rest with
          | '-' :: rest => (true, rest)
          | '+' :: rest => (false, rest)
          | rest => (false, rest)
        (digits? rest).map fun (digits, rest) =>
          let size : Int := natOfDigits digits
          (some (if negative then -size else size), rest)
      else some (none, c :: rest)
  | [] => some (none, [])

/-- The decimal fraction `digits * 10 ^ exponent`. -/
def scaled (digits : Int) (exponent : Int) : Decimal :=
  if exponent < 0 then Decimal.ofDigits digits exponent.natAbs
  else Decimal.ofInt (digits * Int.pow 10 exponent.natAbs)

def number? (cs : List Char) : Option (Number × List Char) := do
  let (negative, cs) := match cs with
    | '-' :: rest => (true, rest)
    | rest => (false, rest)
  let (whole, cs) ← digits? cs
  if whole.length > 1 && whole.head? == some '0' then none
  let (fraction, cs) ← fraction? cs
  let (exponent, cs) ← exponent? cs
  let places := fraction.getD []
  let size : Int := natOfDigits (whole ++ places)
  let signed := if negative then -size else size
  if fraction.isNone && exponent.isNone then return (.int signed, cs)
  return (.decimal (scaled signed (exponent.getD 0 - places.length)), cs)

mutual

/-- Reads a value; every part that is opened costs a unit of `fuel`. -/
def value? (fuel : Nat) (cs : List Char) : Option (Json × List Char) :=
  match fuel with
  | 0 => none
  | fuel + 1 =>
      match skipBlanks cs with
      | '\x7b' :: rest => match skipBlanks rest with
        | '\x7d' :: rest => some (.object [], rest)
        | rest => entries? fuel [] rest
      | '[' :: rest => match skipBlanks rest with
        | ']' :: rest => some (.list [], rest)
        | rest => items? fuel [] rest
      | '"' :: rest => (stringTail [] rest).map fun (s, rest) => (.string s, rest)
      | 'n' :: 'u' :: 'l' :: 'l' :: rest => some (.null, rest)
      | 't' :: 'r' :: 'u' :: 'e' :: rest => some (.bool true, rest)
      | 'f' :: 'a' :: 'l' :: 's' :: 'e' :: rest => some (.bool false, rest)
      | rest => (number? rest).map fun (n, rest) => (.number n, rest)

/-- Reads the items of a list up to its end; `done` holds the items before, last one first. -/
def items? (fuel : Nat) (done : List Json) (cs : List Char) : Option (Json × List Char) :=
  match fuel with
  | 0 => none
  | fuel + 1 =>
      match value? fuel cs with
      | none => none
      | some (item, rest) => match skipBlanks rest with
        | ',' :: rest => items? fuel (item :: done) rest
        | ']' :: rest => some (.list (item :: done).reverse, rest)
        | _ => none

/-- Reads the entries of an object up to its end; `done` holds the entries before. -/
def entries? (fuel : Nat) (done : List (String × Json)) (cs : List Char) :
    Option (Json × List Char) :=
  match fuel with
  | 0 => none
  | fuel + 1 =>
      match skipBlanks cs with
      | '"' :: rest => match stringTail [] rest with
        | none => none
        | some (key, rest) => match skipBlanks rest with
          | ':' :: rest => match value? fuel rest with
            | none => none
            | some (value, rest) => match skipBlanks rest with
              | ',' :: rest => entries? fuel (insertEntry key value done) rest
              | '\x7d' :: rest => some (.object (insertEntry key value done), rest)
              | _ => none
          | _ => none
      | _ => none

end

end Reader

/-- The value a text stands for. Two units of fuel for every character are enough, as a part is
opened by a character of its own and holds at most one more part for each of its characters. -/
def parse? (text : String) : Option Json :=
  let cs := text.toList
  match Reader.value? (2 * cs.length + 2) cs with
  | some (value, rest) => if (Reader.skipBlanks rest).isEmpty then some value else none
  | none => none

end Json

end DataApi
