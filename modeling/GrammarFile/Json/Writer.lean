import GrammarFile.Json.Basic
import GrammarFile.Text.Digits

/-!
# Writing JSON

Two layouts of a JSON value: `compact`, without any white space, and `pretty`, with one item on each
line and two blanks for each level. A string is written with the short escapes where JSON has them,
with `\u00xx` for the other control characters, and with every other character as it is.
-/

namespace GrammarFile.Json

/-- One character of a string, escaped where JSON asks for it. -/
def escapeChar (c : Char) : List Char :=
  if c = '\x22' then ['\\', '\x22']
  else if c = '\\' then ['\\', '\\']
  else if c = '\x08' then ['\\', 'b']
  else if c = '\x0c' then ['\\', 'f']
  else if c = '\n' then ['\\', 'n']
  else if c = '\r' then ['\\', 'r']
  else if c = '\t' then ['\\', 't']
  else if c.toNat < 0x20 then '\\' :: 'u' :: (Text.hexPadded 4 c.toNat).toList
  else [c]

/-- A string in quotes. -/
def quote (text : String) : String :=
  String.ofList ('\x22' :: (text.toList.flatMap escapeChar ++ ['\x22']))

/-- A number as digits, a fraction with its exponent. -/
def Number.write : Number → String
  | whole n => toString n
  | fraction negative digits exponent =>
    (if negative then "-" else "") ++ toString digits ++ "e" ++ toString exponent

/-- The text of an unreadable value: a string with half of a surrogate pair. -/
def unreadableText : String := "\"\\ud800\""

mutual

/-- A value without white space. -/
def compact : Json → String
  | null => "null"
  | bool b => if b then "true" else "false"
  | number n => n.write
  | string s => quote s
  | array items => "[" ++ ",".intercalate (compactItems items) ++ "]"
  | object members => "\x7b" ++ ",".intercalate (compactMembers members) ++ "\x7d"
  | unreadable => unreadableText

/-- The items of an array, each without white space. -/
def compactItems : List Json → List String
  | [] => []
  | item :: rest => item.compact :: compactItems rest

/-- The members of an object, each without white space. -/
def compactMembers : List (String × Json) → List String
  | [] => []
  | (name, value) :: rest => (quote name ++ ":" ++ value.compact) :: compactMembers rest

end

/-- The start of a line at a level. -/
def newline (level : Nat) : String :=
  String.ofList ('\n' :: List.replicate (2 * level) ' ')

/-- Items between brackets, each on a line of its own one level further in. -/
def block (level : Nat) (left right : String) (items : List String) : String :=
  if items.isEmpty then left ++ right
  else
    left ++ newline (level + 1) ++ ("," ++ newline (level + 1)).intercalate items ++
      newline level ++ right

mutual

/-- A value that starts on a line at the given level. -/
def prettyAt (level : Nat) : Json → String
  | array items => block level "[" "]" (prettyItems (level + 1) items)
  | object members => block level "\x7b" "\x7d" (prettyMembers (level + 1) members)
  | null => "null"
  | bool b => if b then "true" else "false"
  | number n => n.write
  | string s => quote s
  | unreadable => unreadableText

/-- The items of an array at the given level. -/
def prettyItems (level : Nat) : List Json → List String
  | [] => []
  | item :: rest => item.prettyAt level :: prettyItems level rest

/-- The members of an object at the given level. -/
def prettyMembers (level : Nat) : List (String × Json) → List String
  | [] => []
  | (name, value) :: rest => (quote name ++ ": " ++ value.prettyAt level) :: prettyMembers level rest

end

/-- A value with one item on each line. -/
def pretty (value : Json) : String :=
  value.prettyAt 0

end GrammarFile.Json
