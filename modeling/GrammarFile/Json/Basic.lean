/-!
# JSON values

A JSON value as its text gives it. An object keeps its members in the order of the text, repeated
names included, and a number keeps whether it was written as a whole number: what a repeated name or
a fraction means is for the reader of the value to say.
-/

namespace GrammarFile

/-- A JSON number: a whole number, or a decimal fraction `±digits · 10 ^ exponent`. A number written
with a point or an exponent is a fraction, and so is a negative zero. -/
inductive Json.Number where
  | whole (value : Int)
  | fraction (negative : Bool) (digits : Nat) (exponent : Int)
  deriving DecidableEq, Inhabited

/-- A JSON value. -/
inductive Json where
  | null
  | bool (value : Bool)
  | number (value : Json.Number)
  | string (text : String)
  | array (items : List Json)
  | object (members : List (String × Json))
  /-- A string, or an object with a name, that holds an escape for half of a surrogate pair: it is
  well-formed text and stands for no value. -/
  | unreadable
  deriving Inhabited

namespace Json

/-- A whole number. -/
def ofNat (n : Nat) : Json :=
  .number (.whole n)

/-- The first member of an object with the given name. -/
def get? (name : String) : Json → Option Json
  | object members => members.lookup name
  | _ => none

/-- The text of a string value. -/
def string? : Json → Option String
  | string text => some text
  | _ => none

/-- The value of a Boolean. -/
def bool? : Json → Option Bool
  | bool b => some b
  | _ => none

/-- The value of a whole number that is not negative. -/
def nat? : Json → Option Nat
  | number (.whole (.ofNat n)) => some n
  | _ => none

/-- The items of an array. -/
def array? : Json → Option (List Json)
  | array items => some items
  | _ => none

end Json

end GrammarFile
