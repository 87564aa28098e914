import GrammarFile.Number.Width
import GrammarFile.Text.Digits
import GrammarFile.Toml.Fault
import GrammarFile.Toml.Value

/-!
# TOML numbers

Whole numbers of 64 bits in four bases, and numbers with a point, an exponent or a name. Digits may be
separated by single underscores, and a decimal number does not start with a needless zero: what follows
such a zero is no part of the number.
-/

namespace GrammarFile.Toml

/-! ### Digits -/

/-- Digits in base `base` after one that is read already. An underscore has to be followed by a digit. -/
def digitsAfter (base : Nat) : Reader (List Char)
  | [] => .ok ([], [])
  | '_' :: rest =>
    match rest with
    | c :: after =>
      if Text.isDigitIn base c then do
        let (digits, after) ← digitsAfter base after
        return (c :: digits, after)
      else .error (.expecting ["digit"] rest)
    | [] => .error (.expecting ["digit"] rest)
  | c :: rest =>
    if Text.isDigitIn base c then do
      let (digits, after) ← digitsAfter base rest
      return (c :: digits, after)
    else .ok ([], c :: rest)

/-- Digits in base `base`, at least one. -/
def readDigits (base : Nat) : Reader (List Char)
  | c :: rest =>
    if Text.isDigitIn base c then do
      let (digits, after) ← digitsAfter base rest
      return (c :: digits, after)
    else .error (.bare (c :: rest))
  | [] => .error (.bare [])

/-- A sign, true for a minus, and what follows. -/
def readSign : List Char → Bool × List Char
  | '-' :: rest => (true, rest)
  | '+' :: rest => (false, rest)
  | rest => (false, rest)

/-- A whole number with a sign. -/
def withSign (negative : Bool) (size : Nat) : Int :=
  if negative then -(size : Int) else size

/-! ### Whole numbers -/

/-- A whole number that starts at a place, if it has 64 bits. -/
def wholeNumber (start rest : List Char) (n : Int) : Except Fault (Toml × List Char) :=
  if fitsSigned 64 n then .ok (.integer n, rest)
  else if 0 ≤ n then .error (.because "number too large to fit in target type" start)
  else .error (.because "number too small to fit in target type" start)

/-- The digits of a number after the mark of its base. -/
def readInBase (base : Nat) (name : String) (start cs : List Char) : Except Fault (Toml × List Char) := do
  let (digits, rest) ← (readDigits base cs).mapError (.within name)
  wholeNumber start rest (Text.numeral base digits)

/-- The sign and the digits of a decimal number. -/
def readDecimal : Reader (Bool × List Char) := fun cs =>
  let (negative, rest) := readSign cs
  match rest with
  | '0' :: rest => .ok ((negative, ['0']), rest)
  | c :: after =>
    if c.isDigit then do
      let (digits, after) ← (digitsAfter 10 after).mapError (.within "integer")
      return ((negative, c :: digits), after)
    else .error (Fault.invalid "integer" [] rest).soften
  | [] => .error (Fault.invalid "integer" [] rest).soften

/-! ### Fractions -/

/-- What a number with a point or an exponent is called. -/
def fractionName : String := "floating-point number"

/-- Whether a character starts an exponent. -/
def isExponentMark (c : Char) : Bool :=
  c = 'e' || c = 'E'

/-- An exponent, if there is one. -/
def readExponent : Reader (Option Int)
  | c :: rest =>
    if isExponentMark c then do
      let (negative, rest) := readSign rest
      let (digits, rest) ← readDigits 10 rest
      return (some (withSign negative (Text.numeral 10 digits)), rest)
    else .ok (none, c :: rest)
  | [] => .ok (none, [])

/-- The digits after a point, if there is one. -/
def readPlaces : Reader (Option (List Char))
  | '.' :: rest => do
    let (digits, rest) ← (readDigits 10 rest).mapError (.orExpecting ["digit"])
    return (some digits, rest)
  | rest => .ok (none, rest)

/-- A decimal number. It is a whole one if it has neither a point nor an exponent. -/
def readNumber : Reader Toml := fun start => do
  let ((negative, whole), rest) ← readDecimal start
  let (places, rest) ← (readPlaces rest).mapError (.within fractionName)
  let (exponent, rest) ← (readExponent rest).mapError (.within fractionName)
  if places.isNone && exponent.isNone then
    wholeNumber start rest (withSign negative (Text.numeral 10 whole))
  else
    let places := places.getD []
    let value := Binary64.ofDecimal negative (Text.numeral 10 (whole ++ places))
      (exponent.getD 0 - places.length)
    if value = .infinite false then .error (.invalid fractionName [] start)
    else return (.float value, rest)

/-- A number by its name, with a sign or without. -/
def readNamed? (cs : List Char) : Option (Binary64 × List Char) :=
  match readSign cs with
  | (negative, 'i' :: 'n' :: 'f' :: rest) => some (.infinite negative, rest)
  | (_, 'n' :: 'a' :: 'n' :: rest) => some (.notANumber, rest)
  | _ => none

end GrammarFile.Toml
