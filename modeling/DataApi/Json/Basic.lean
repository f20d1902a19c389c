/-!
# JSON values

Values as they pass from an instance or a predicate to a request: nothing is computed with a
number, and the entries of an object keep their order. A number written with a fraction stays a
fraction, so `1` and `1.0` are different values; a fraction is kept in lowest terms, with one
place at least. `Json.same` compares values without regard to the order of object entries.
-/

namespace DataApi

/-- A decimal fraction: the integer `digits` with a point `places` digits from its right end. -/
structure Decimal where
  /-- The digits on both sides of the point, with the sign. -/
  digits : Int
  places : Nat
  /-- At least one digit stands behind the point, and the last of several is not a zero. -/
  lowest : 0 < places ∧ (places = 1 ∨ digits % 10 ≠ 0)
  deriving DecidableEq

namespace Decimal

/-- The fraction `digits / 10 ^ places` in lowest terms. -/
def ofDigits (digits : Int) : Nat → Decimal
  | 0 => ⟨digits * 10, 1, by simp⟩
  | 1 => ⟨digits, 1, by simp⟩
  | places + 2 =>
      if h : digits % 10 = 0 then ofDigits (digits / 10) (places + 1)
      else ⟨digits, places + 2, Nat.succ_pos _, .inr h⟩

/-- The fraction of an integer: one place, which is zero. -/
def ofInt (n : Int) : Decimal := ofDigits n 0

end Decimal

/-- A number, either an integer or one that was written with a fraction. -/
inductive Number where
  | int (n : Int)
  | decimal (d : Decimal)
  deriving DecidableEq

/-- A JSON value; the entries of an object stand in the order in which they were written. -/
inductive Json where
  | null
  | bool (b : Bool)
  | number (n : Number)
  | string (s : String)
  | list (items : List Json)
  | object (entries : List (String × Json))
  deriving Inhabited

namespace Json

/-- The kind of a value, with its article. -/
def kind : Json → String
  | .null => "null"
  | .bool _ => "a boolean"
  | .number _ => "a number"
  | .string _ => "a string"
  | .list _ => "a list"
  | .object _ => "an object"

def isNull : Json → Bool
  | .null => true
  | _ => false

/-- The value under `key` of an object; a value of another kind has none. -/
def get? : Json → String → Option Json
  | .object entries, key => entries.lookup key
  | _, _ => none

def int (n : Int) : Json := .number (.int n)

def single (key : String) (value : Json) : Json := .object [(key, value)]

mutual

/-- Equality of values in which the order of object entries does not count. -/
def same : Json → Json → Bool
  | .null, .null => true
  | .bool a, .bool b => a == b
  | .number a, .number b => a == b
  | .string a, .string b => a == b
  | .list xs, .list ys => sameItems xs ys
  | .object es, .object fs => es.length == fs.length && sameEntries es fs
  | _, _ => false

def sameItems : List Json → List Json → Bool
  | [], [] => true
  | x :: xs, y :: ys => same x y && sameItems xs ys
  | _, _ => false

/-- Whether every entry of the first list has an equal value under its key in the second. -/
def sameEntries : List (String × Json) → List (String × Json) → Bool
  | [], _ => true
  | (key, value) :: rest, entries =>
      (match entries.lookup key with
        | some other => same value other
        | none => false) && sameEntries rest entries

end

@[simp] theorem isNull_null : null.isNull = true := rfl

theorem isNull_iff {j : Json} : j.isNull = true ↔ j = .null := by
  cases j <;> simp [isNull]

@[simp] theorem get?_object (entries : List (String × Json)) (key : String) :
    (object entries).get? key = entries.lookup key := rfl

end Json

end DataApi
