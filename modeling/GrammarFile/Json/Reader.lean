import GrammarFile.Json.Basic
import GrammarFile.Text.Digits

/-!
# Reading JSON

`Json.read` turns a text into the value it writes, or refuses it. Only the four JSON blanks are
skipped, control characters have to be escaped inside strings, and nothing may follow the value.

The recursion is on a bound that the length of the text provides: every value and every item after
the first takes at least one character.
-/

namespace GrammarFile.Json

/-- The blanks between the tokens of JSON. -/
def isBlank (c : Char) : Bool :=
  c = ' ' || c = '\n' || c = '\t' || c = '\r'

/-- The text from its first character that is not a blank. -/
def skip (cs : List Char) : List Char :=
  cs.dropWhile isBlank

/-- The code that a one-letter escape stands for. -/
def escapeCode? (c : Char) : Option Nat :=
  match c with
  | '\x22' | '\\' | '/' => some c.toNat
  | 'b' => some 0x08
  | 'f' => some 0x0C
  | 'n' => some 0x0A
  | 'r' => some 0x0D
  | 't' => some 0x09
  | _ => none

/-- The codes of a string up to its closing quote, and what follows. An escape `\uXXXX` gives the
code it names, which may be half of a surrogate pair. -/
def readCodes : List Char → Option (List Nat × List Char)
  | [] => none
  | c :: rest =>
    if c = '\x22' then some ([], rest)
    else if c.toNat < 0x20 then none
    else if c ≠ '\\' then (readCodes rest).map fun (codes, after) => (c.toNat :: codes, after)
    else
      match rest with
      | 'u' :: a :: b :: c :: d :: rest =>
        if [a, b, c, d].all (Text.isDigitIn 16) then
          (readCodes rest).map fun (codes, after) => (Text.numeral 16 [a, b, c, d] :: codes, after)
        else none
      | e :: rest =>
        (escapeCode? e).bind fun code =>
          (readCodes rest).map fun (codes, after) => (code :: codes, after)
      | [] => none

/-- Whether a code is the first half of a surrogate pair. -/
def isHighSurrogate (code : Nat) : Bool :=
  0xD800 ≤ code && code < 0xDC00

/-- Whether a code is the second half of a surrogate pair. -/
def isLowSurrogate (code : Nat) : Bool :=
  0xDC00 ≤ code && code < 0xE000

/-- The characters that codes stand for, with surrogate pairs joined. Half a pair stands for none. -/
def charsOfCodes : List Nat → Option (List Char)
  | [] => some []
  | code :: rest =>
    if isHighSurrogate code then
      match rest with
      | [] => none
      | low :: rest =>
        if isLowSurrogate low then
          (charsOfCodes rest).map (Char.ofNat (0x10000 + (code - 0xD800) * 0x400 + (low - 0xDC00)) :: ·)
        else none
    else if isLowSurrogate code then none
    else (charsOfCodes rest).map (Char.ofNat code :: ·)

/-- A string after its opening quote. The text inside is missing where it is unreadable. -/
def readString (cs : List Char) : Option (Option String × List Char) :=
  (readCodes cs).map fun (codes, rest) => ((charsOfCodes codes).map String.ofList, rest)

/-- A run of at least one digit, and what follows. -/
def readDigits (cs : List Char) : Option (List Char × List Char) :=
  let digits := cs.takeWhile Char.isDigit
  if digits.isEmpty then none else some (digits, cs.dropWhile Char.isDigit)

/-- The digits after a point, if there is one. -/
def readPlaces : List Char → Option (Option (List Char) × List Char)
  | '.' :: rest => (readDigits rest).map fun (digits, rest) => (some digits, rest)
  | rest => some (none, rest)

/-- The sign in front of an exponent, true for a minus. -/
def readExponentSign : List Char → Bool × List Char
  | '-' :: rest => (true, rest)
  | '+' :: rest => (false, rest)
  | rest => (false, rest)

/-- An exponent, if there is one. -/
def readExponent : List Char → Option (Option Int × List Char)
  | c :: rest =>
    if c = 'e' ∨ c = 'E' then
      let (negative, rest) := readExponentSign rest
      (readDigits rest).map fun (digits, rest) =>
        let size := Int.ofNat (Text.numeral 10 digits)
        (some (if negative then -size else size), rest)
    else some (none, c :: rest)
  | [] => some (none, [])

/-- The value of a number from its parts. -/
def Number.ofParts (negative : Bool) (digits : List Char) (places : Option (List Char))
    (exponent : Option Int) : Number :=
  let size := Text.numeral 10 digits
  match places, exponent with
  | none, none =>
    if negative then (if size = 0 then .fraction true 0 0 else .whole (-size)) else .whole size
  | _, _ =>
    let places := places.getD []
    .fraction negative (Text.numeral 10 (digits ++ places)) (exponent.getD 0 - places.length)

/-- A number after its sign. Its whole part has no leading zero. -/
def readUnsigned (negative : Bool) (cs : List Char) : Option (Number × List Char) := do
  let (digits, rest) ← readDigits cs
  if digits.head? = some '0' ∧ digits.length > 1 then none
  let (places, rest) ← readPlaces rest
  let (exponent, rest) ← readExponent rest
  return (.ofParts negative digits places exponent, rest)

/-- A number. -/
def readNumber : List Char → Option (Number × List Char)
  | '-' :: rest => readUnsigned true rest
  | cs => readUnsigned false cs

/-- The object with the given members, which is unreadable if one of its names is. -/
def ofMembers (members : List (Option String × Json)) : Json :=
  match members.mapM fun (name, value) => name.map (·, value) with
  | some members => object members
  | none => unreadable

mutual

/-- The value at the front of a text, and what follows. -/
def readValue : Nat → List Char → Option (Json × List Char)
  | 0, _ => none
  | bound + 1, cs =>
    match skip cs with
    | '\x22' :: rest =>
      (readString rest).map fun (text, rest) => (text.elim unreadable string, rest)
    | '[' :: rest =>
      match skip rest with
      | ']' :: rest => some (array [], rest)
      | rest => (readItems bound rest).map fun (items, rest) => (array items, rest)
    | '\x7b' :: rest =>
      match skip rest with
      | '\x7d' :: rest => some (object [], rest)
      | rest => (readMembers bound rest).map fun (members, rest) => (ofMembers members, rest)
    | 'n' :: 'u' :: 'l' :: 'l' :: rest => some (null, rest)
    | 't' :: 'r' :: 'u' :: 'e' :: rest => some (bool true, rest)
    | 'f' :: 'a' :: 'l' :: 's' :: 'e' :: rest => some (bool false, rest)
    | rest => (readNumber rest).map fun (n, rest) => (number n, rest)

/-- The items of an array up to its closing bracket. -/
def readItems : Nat → List Char → Option (List Json × List Char)
  | 0, _ => none
  | bound + 1, cs => do
    let (item, rest) ← readValue bound cs
    match skip rest with
    | ',' :: rest =>
      let (items, rest) ← readItems bound rest
      return (item :: items, rest)
    | ']' :: rest => return ([item], rest)
    | _ => none

/-- The members of an object up to its closing brace. -/
def readMembers : Nat → List Char → Option (List (Option String × Json) × List Char)
  | 0, _ => none
  | bound + 1, cs =>
    match skip cs with
    | '\x22' :: rest => do
      let (name, rest) ← readString rest
      match skip rest with
      | ':' :: rest =>
        let (value, rest) ← readValue bound rest
        match skip rest with
        | ',' :: rest =>
          let (members, rest) ← readMembers bound rest
          return ((name, value) :: members, rest)
        | '\x7d' :: rest => return ([(name, value)], rest)
        | _ => none
      | _ => none
    | _ => none

end

/-- The value that a text writes. -/
def read (text : String) : Option Json := do
  let cs := text.toList
  let (value, rest) ← readValue (2 * cs.length + 1) cs
  if (skip rest).isEmpty then value else none

end GrammarFile.Json
