import GrammarFile.Text.Digits
import GrammarFile.Toml.Fault
import GrammarFile.Toml.Value

/-!
# TOML strings

Strings in double quotes, in which a backslash starts an escape, and strings in single quotes, which
have none. Either sort is written on one line, or between three quotes on any number of lines: then
line ends stand for line feeds, one right after the opening quotes is not part of the text, and a
backslash at the end of a line joins it with the next line that has something on it.
-/

namespace GrammarFile.Toml

/-- Whether strings in these quotes have escapes. -/
def hasEscapes (quote : Char) : Bool :=
  quote = '\x22'

/-- What a string is called, on one line or on several. -/
def stringName (quote : Char) (several : Bool) : String :=
  (if several then "multiline " else "") ++ if hasEscapes quote then "basic string" else "literal string"

/-- The character that a one-letter escape stands for. -/
def escapeChar? (c : Char) : Option Char :=
  match c with
  | '\x22' | '\\' => some c
  | 'b' => some '\x08'
  | 't' => some '\t'
  | 'n' => some '\n'
  | 'f' => some '\x0c'
  | 'r' => some '\r'
  | _ => none

/-- The letters that may follow a backslash. -/
def escapeLetters : List String :=
  ["`b`", "`f`", "`n`", "`r`", "`t`", "`u`", "`U`", "`\\`", "`\"`"]

/-- The character whose code is given by digits in base sixteen at the front of a text. -/
def charOfHex (digits rest : List Char) : Except Fault Char :=
  let code := Text.numeral 16 digits
  let reading := "unicode " ++ toString digits.length ++ "-digit hex code"
  if !digits.all (Text.isDigitIn 16) then .error (.invalid reading [] (digits ++ rest))
  else if code < 0xD800 || (0xE000 ≤ code && code < 0x110000) then .ok (Char.ofNat code)
  else .error (Fault.because "value is out of range" (digits ++ rest) |>.within reading)

/-- The character that an escape of one letter stands for, or the fault after the letter's first byte. -/
def charOfLetter (c : Char) (rest : List Char) : Except Fault Char :=
  match escapeChar? c with
  | some e => .ok e
  | none =>
    if c = 'u' then .error (.invalid "unicode 4-digit hex code" [] rest)
    else if c = 'U' then .error (.invalid "unicode 8-digit hex code" [] rest)
    else .error (.invalid "escape sequence" escapeLetters (if c.utf8Size = 1 then rest else c :: rest))

/-- Whether a string on several lines may go on after one or two quotes. In a string without escapes a
character that may not stand there is a fault of the quotes already. -/
def goesOn (quote : Char) (after : List Char) : Bool :=
  match after with
  | [] => false
  | c :: _ => hasEscapes quote || isPlain c || (lineEnd? after).isSome

/-- Whether nothing but blanks is left on the line. -/
def isLineLeftBlank (cs : List Char) : Bool :=
  (lineEnd? (skipBlanks cs)).isSome

/-- The text of a string after its opening quotes, of which a string on several lines has three. It ends
with three quotes, too, and up to two more before them belong to the text. While lines are being joined,
blanks and line ends are skipped. -/
def readText (quote : Char) (several : Bool) : (joining : Bool) → Reader (List Char)
  | _, [] => .error (.invalid (stringName quote several) [] [])
  | joining, c :: rest =>
    let invalid := .error (.invalid (stringName quote several) [] (c :: rest))
    if c = quote then
      let quotes := ((c :: rest).takeWhile (· = quote)).take 5
      let after := (c :: rest).drop quotes.length
      if !several then .ok ([], rest)
      else if 3 ≤ quotes.length then .ok (quotes.drop 3, after)
      else if goesOn quote after then do
        let (text, rest) ← readText quote several false rest
        return (c :: text, rest)
      else invalid
    else if c = '\\' && hasEscapes quote then
      if several && isLineLeftBlank rest then readText quote several true rest
      else
        match rest with
        | 'u' :: a :: b :: c :: d :: rest => do
          let e ← charOfHex [a, b, c, d] rest
          let (text, rest) ← readText quote several false rest
          return (e :: text, rest)
        | 'U' :: a :: b :: c :: d :: e :: f :: g :: h :: rest => do
          let e ← charOfHex [a, b, c, d, e, f, g, h] rest
          let (text, rest) ← readText quote several false rest
          return (e :: text, rest)
        | e :: rest => do
          let e ← charOfLetter e rest
          let (text, rest) ← readText quote several false rest
          return (e :: text, rest)
        | [] => invalid
    else if several && c = '\r' then
      if rest.head? = some '\n' then readText quote several joining rest else invalid
    else if joining && (c = '\n' || isBlank c) then readText quote several true rest
    else if (several && c = '\n') || isPlain c then do
      let (text, rest) ← readText quote several false rest
      return (c :: text, rest)
    else invalid

/-- The text of a string on one line, after its opening quote. -/
def readLine (quote : Char) : Reader (List Char) :=
  readText quote false false

/-- The text of a string after its first quote. -/
def readQuoted (quote : Char) : Reader (List Char) := fun cs =>
  match cs with
  | a :: b :: rest =>
    if a = quote && b = quote then readText quote true false ((lineEnd? rest).getD rest)
    else readLine quote cs
  | _ => readLine quote cs

end GrammarFile.Toml
