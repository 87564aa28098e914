import GrammarFile.Pattern.Basic
import GrammarFile.Text.Blank
import GrammarFile.Text.Digits

/-!
# Escapes

What a backslash makes of the characters after it. With the verbose flag, blanks and comments may also
stand inside an escape, but not between the backslash and the character after it.
-/

namespace GrammarFile.Pattern

/-- The characters from the first on that means something: without the verbose flag, all of them, and
with it, those after blanks and after comments, which go from `#` to the end of the line. -/
def significant (verbose inComment : Bool) : List Char → List Char
  | [] => []
  | c :: cs =>
    if inComment then significant verbose (c ≠ '\n') cs
    else if verbose && Text.isBlank c then significant verbose false cs
    else if verbose && c = '#' then significant verbose true cs
    else c :: cs

/-- The characters from the first on that means something. -/
def skip (verbose : Bool) (cs : List Char) : List Char :=
  significant verbose false cs

/-- The characters that mean something, as long as `p` holds of them, and the characters from the next
that means something on. -/
def takeSignificant (p : Char → Bool) (verbose inComment : Bool) : List Char → List Char × List Char
  | [] => ([], [])
  | c :: cs =>
    if inComment then takeSignificant p verbose (c ≠ '\n') cs
    else if verbose && Text.isBlank c then takeSignificant p verbose false cs
    else if verbose && c = '#' then takeSignificant p verbose true cs
    else if p c then
      let (taken, rest) := takeSignificant p verbose false cs
      (c :: taken, rest)
    else ([], c :: cs)

/-! ### Characters by number -/

/-- Whether a number is that of a character. -/
def isScalarValue (n : Nat) : Bool :=
  n < 0xD800 || (0xDFFF < n && n ≤ 0x10FFFF)

/-- The character with the number that hexadecimal digits write. -/
def charOfHex (digits : List Char) : Except PatternError Char :=
  let n := Text.numeral 16 digits
  if isScalarValue n then .ok (Char.ofNat n) else .error .hexNotScalar

/-- The given count of hexadecimal digits. -/
def hexDigits (verbose : Bool) : (count : Nat) → List Char → Except PatternError (List Char × List Char)
  | 0, cs => .ok ([], cs)
  | _ + 1, [] => .error .escapeIncomplete
  | count + 1, c :: cs =>
    if Text.isDigitIn 16 c then do
      let (digits, rest) ← hexDigits verbose count (skip verbose cs)
      return (c :: digits, rest)
    else .error .hexInvalidDigit

/-- The hexadecimal digits up to a closing brace. -/
def hexBraced (verbose : Bool) (cs : List Char) : Except PatternError (List Char × List Char) :=
  let (digits, rest) := takeSignificant (· ≠ '\x7d') verbose false cs
  if !digits.all (Text.isDigitIn 16) then .error .hexInvalidDigit
  else
    match rest with
    | [] => .error .escapeIncomplete
    | _ :: rest => if digits.isEmpty then .error .hexEmpty else .ok (digits, rest)

/-- A character by its number, of the given count of digits unless there are braces. `isByte` says
whether a number without braces stands for a byte. -/
def hexEscape (verbose : Bool) (count : Nat) (isByte : Bool) (cs : List Char) :
    Except PatternError (Atom × List Char) :=
  match skip verbose cs with
  | [] => .error .escapeIncomplete
  | '\x7b' :: rest => do
    let (digits, rest) ← hexBraced verbose rest
    return (.scalar ⟨← charOfHex digits, false⟩, rest)
  | cs => do
    let (digits, rest) ← hexDigits verbose count cs
    return (.scalar ⟨← charOfHex digits, isByte⟩, rest)

/-! ### Properties -/

/-- The characters before and after the first place where `mark` stands. -/
def splitAtFirst (mark : List Char) : List Char → Option (List Char × List Char)
  | [] => none
  | c :: cs =>
    if mark.isPrefixOf (c :: cs) then some ([], (c :: cs).drop mark.length)
    else (splitAtFirst mark cs).map fun (before, after) => (c :: before, after)

/-- The query between braces: a name, or a property and a value with `!=`, `:` or `=` between them,
tried in this order. -/
def Query.ofBraced (cs : List Char) : Query :=
  match [['!', '='], [':'], ['=']].findSome? fun mark => splitAtFirst mark cs with
  | some (property, value) => valued (String.ofList property) (String.ofList value)
  | none => named (String.ofList cs)

/-- A query after `\p` or `\P`: a letter, or anything between braces. -/
def propertyEscape (verbose : Bool) (cs : List Char) : Except PatternError (Atom × List Char) :=
  match skip verbose cs with
  | [] => .error .escapeIncomplete
  | '\x7b' :: rest =>
    let (name, rest) := takeSignificant (· ≠ '\x7d') verbose false rest
    match rest with
    | [] => .error .escapeIncomplete
    | _ :: rest => .ok (.property (.ofBraced name), rest)
  | '\\' :: _ => .error .propertyLetterInvalid
  | c :: rest => .ok (.property (.named (String.singleton c)), rest)

/-! ### Word boundaries -/

/-- The kinds of word boundary that have a name. -/
def wordBoundaries : List String := ["start", "end", "start-half", "end-half"]

/-- Whether a character may stand in the name of a kind of word boundary. -/
def isBoundaryChar (c : Char) : Bool :=
  c.isAlpha || c = '-'

/-- A word boundary, whose kind may stand between braces. Braces that start with another character are
left alone, since they count repetitions. -/
def wordBoundary (verbose : Bool) (cs : List Char) : Except PatternError (Atom × List Char) :=
  match cs with
  | '\x7b' :: rest =>
    match skip verbose rest with
    | [] => .error .wordBoundaryIncomplete
    | c :: _ =>
      if isBoundaryChar c then
        let (name, after) := takeSignificant isBoundaryChar verbose false rest
        match after with
        | '\x7d' :: after =>
          if wordBoundaries.contains (String.ofList name) then .ok (.assertion, after)
          else .error .wordBoundaryUnrecognized
        | _ => .error .wordBoundaryUnclosed
      else .ok (.assertion, cs)
  | _ => .ok (.assertion, cs)

/-! ### All escapes -/

/-- The characters that mean something of their own somewhere in a pattern. -/
def specialCharacters : List Char :=
  ['\\', '.', '+', '*', '?', '(', ')', '|', '[', ']', '\x7b', '\x7d', '^', '$', '#', '&', '-', '~']

/-- Whether a character with a backslash in front stands for itself: ASCII signs and controls do, but
for the angle brackets. -/
def standsForItself (c : Char) : Bool :=
  specialCharacters.contains c || (c.toNat < 128 && !c.isAlphanum && c ≠ '<' && c ≠ '>')

/-- The control character that a letter with a backslash in front stands for. -/
def controlEscape? : Char → Option Char
  | 'a' => some '\x07'
  | 'f' => some '\x0c'
  | 't' => some '\t'
  | 'n' => some '\n'
  | 'r' => some '\r'
  | 'v' => some '\x0b'
  | _ => none

/-- What a backslash stands for together with the characters after it. -/
def escape (verbose : Bool) : List Char → Except PatternError (Atom × List Char)
  | [] => .error .escapeIncomplete
  | c :: cs =>
    if c.isDigit then .error .backreference
    else if c = 'x' then hexEscape verbose 2 true cs
    else if c = 'u' then hexEscape verbose 4 false cs
    else if c = 'U' then hexEscape verbose 8 false cs
    else if c = 'p' || c = 'P' then propertyEscape verbose cs
    else if c = 'd' || c = 's' || c = 'w' then .ok (.shorthand false, cs)
    else if c = 'D' || c = 'S' || c = 'W' then .ok (.shorthand true, cs)
    else if standsForItself c then .ok (.scalar ⟨c, false⟩, cs)
    else if c = 'b' then wordBoundary verbose cs
    else if ['A', 'z', 'B', '<', '>'].contains c then .ok (.assertion, cs)
    else
      match controlEscape? c with
      | some control => .ok (.scalar ⟨control, false⟩, cs)
      | none => .error .escapeUnrecognized

end GrammarFile.Pattern
