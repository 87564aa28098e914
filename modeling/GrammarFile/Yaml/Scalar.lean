import GrammarFile.Text.Digits

/-!
# Scalars in YAML

A text is written plainly where a reader takes the plain form back as that text: it must not look like
another kind of value, start with an indicator, or hold something that ends or changes a plain scalar.
Otherwise it is written between single quotes, or, if it has a line feed, as a literal block. What
neither of the two can hold goes between double quotes with escapes.

`Features` collects what the choice depends on.
-/

namespace GrammarFile.Yaml

/-- Whether a character ends a line. -/
def isBreak (c : Char) : Bool :=
  ['\r', '\n', '\x85', '\u2028', '\u2029'].contains c

/-- Whether a character is a blank, a break or stands at the end of the text. -/
def endsWord : Option Char → Bool
  | none => true
  | some c => c = ' ' || c = '\t' || c = '\x00' || isBreak c

/-- Whether a character may stand unescaped in a scalar. -/
def isPrintable (c : Char) : Bool :=
  let n := c.toNat
  n = 0x0A || (0x20 ≤ n && n ≤ 0x7E) || (0xA0 ≤ n && n ≤ 0xD7FF) ||
    (0xE000 ≤ n && n ≤ 0xFFFD && n ≠ 0xFEFF) || 0x10000 ≤ n

/-- The characters that cannot start a plain scalar. -/
def indicators : List Char :=
  ['#', ',', '[', ']', '\x7b', '\x7d', '&', '*', '!', '|', '>', '\x27', '\x22', '%', '@', '\x60']

/-- What the form of a scalar depends on. -/
structure Features where
  /-- Something in it would be taken for structure in a plain scalar. -/
  structural : Bool
  /-- It has a character that has to be escaped. -/
  special : Bool
  /-- It has a line break. -/
  breaks : Bool
  /-- It starts with a blank or a break, or ends with one. -/
  padded : Bool
  /-- It ends with a blank. -/
  trailingSpace : Bool
  /-- It has a blank right after a break. -/
  breakSpace : Bool
  /-- It has a break right after a blank. -/
  spaceBreak : Bool

/-- Whether the character `c` with neighbours `before` and `after` would be taken for structure inside
a plain scalar. -/
def isStructural (before : Option Char) (c : Char) (after : Option Char) : Bool :=
  match before with
  | none =>
    indicators.contains c || ((c = '?' || c = ':' || c = '-') && endsWord after)
  | some _ => (c = ':' && endsWord after) || (c = '#' && endsWord before)

/-- Whether `test` holds of some character of a text and its neighbours; `before` is the character in
front of the text. -/
def anyInContext (test : Option Char → Char → Option Char → Bool) (before : Option Char) :
    List Char → Bool
  | [] => false
  | c :: rest => test before c rest.head? || anyInContext test (some c) rest

/-- The features of a text. -/
def features (cs : List Char) : Features where
  structural :=
    ['-', '-', '-'].isPrefixOf cs || ['.', '.', '.'].isPrefixOf cs ||
      anyInContext isStructural none cs
  special := cs.any (!isPrintable ·)
  breaks := cs.any isBreak
  padded := [cs.head?, cs.getLast?].any (·.any fun c => c = ' ' || isBreak c)
  trailingSpace := cs.getLast? = some ' '
  breakSpace := anyInContext (fun before c _ => c = ' ' && before.any isBreak) none cs
  spaceBreak := anyInContext (fun before c _ => isBreak c && before = some ' ') none cs

/-- The words that stand for a Boolean or for no value. -/
def words : List String :=
  ["true", "True", "TRUE", "false", "False", "FALSE", "null", "Null", "NULL", "~", ".inf", ".Inf", ".INF",
   "+.inf", "+.Inf", "+.INF", "-.inf", "-.Inf", "-.INF", ".nan", ".NaN", ".NAN"]

/-- Whether a text without its sign is a whole number in some base. -/
def isWhole : List Char → Bool
  | '0' :: 'x' :: rest => !rest.isEmpty && rest.all (Text.isDigitIn 16)
  | '0' :: 'o' :: rest => !rest.isEmpty && rest.all (Text.isDigitIn 8)
  | '0' :: 'b' :: rest => !rest.isEmpty && rest.all (Text.isDigitIn 2)
  | cs => !cs.isEmpty && cs.all Char.isDigit

/-- A text without a sign in front. -/
def dropSign : List Char → List Char
  | '+' :: rest => rest
  | '-' :: rest => rest
  | cs => cs

/-- Whether a text without its sign is a decimal fraction, with digits on at least one side of its
point and possibly an exponent. -/
def isFraction (cs : List Char) : Bool :=
  let whole := cs.takeWhile Char.isDigit
  let rest := cs.drop whole.length
  let (places, rest) :=
    match rest with
    | '.' :: rest => (rest.takeWhile Char.isDigit, rest.dropWhile Char.isDigit)
    | rest => ([], rest)
  let exponent :=
    match rest with
    | [] => true
    | c :: rest =>
      let digits := dropSign rest
      (c = 'e' || c = 'E') && !digits.isEmpty && digits.all Char.isDigit
  !(whole.isEmpty && places.isEmpty) && exponent

/-- Whether the plain form of a text would be read as another kind of value. -/
def looksTyped (text : String) : Bool :=
  let size := dropSign text.toList
  text.isEmpty || words.contains text || isWhole size || isFraction size

/-- The start of a line with the given indentation. -/
def indentation (indent : Nat) : List Char :=
  List.replicate indent ' '

/-- A text whose lines after the first are indented. A line without characters stays empty, and
`broken` says that a break was just written. -/
def indentLines (indent : Nat) (write : Char → List Char) : (broken : Bool) → List Char → List Char
  | _, [] => []
  | broken, c :: rest =>
    if isBreak c then c :: indentLines indent write true rest
    else (if broken then indentation indent else []) ++ write c ++ indentLines indent write false rest

/-- Whether a text ends with a break. -/
def endsWithBreak (cs : List Char) : Bool :=
  cs.getLast?.any isBreak

/-- A text between single quotes, in which a quote is written twice. -/
def singleQuoted (indent : Nat) (cs : List Char) : List Char :=
  let body := indentLines indent (fun c => if c = '\x27' then [c, c] else [c]) false cs
  '\x27' :: (body ++ (if endsWithBreak cs then indentation indent else []) ++ ['\x27'])

/-- The letter of the escape for a character that has one of its own. -/
def escapeLetter? (c : Char) : Option Char :=
  match c with
  | '\x00' => some '0'
  | '\x07' => some 'a'
  | '\x08' => some 'b'
  | '\t' => some 't'
  | '\n' => some 'n'
  | '\x0b' => some 'v'
  | '\x0c' => some 'f'
  | '\r' => some 'r'
  | '\x1b' => some 'e'
  | '\x22' => some '\x22'
  | '\\' => some '\\'
  | '\x85' => some 'N'
  | '\xa0' => some '_'
  | '\u2028' => some 'L'
  | '\u2029' => some 'P'
  | _ => none

/-- A code in base sixteen and in capitals, after the letter that tells its width. -/
def escapeCode (n : Nat) : List Char :=
  let capitals (width : Nat) := (Text.hexPadded width n).toList.map Char.toUpper
  if n ≤ 0xFF then 'x' :: capitals 2 else if n ≤ 0xFFFF then 'u' :: capitals 4 else 'U' :: capitals 8

/-- One character between double quotes. -/
def doubleQuoteChar (c : Char) : List Char :=
  if isPrintable c && !isBreak c && c ≠ '\x22' && c ≠ '\\' then [c]
  else '\\' :: (escapeLetter? c).elim (escapeCode c.toNat) fun letter => [letter]

/-- A text between double quotes, on one line. -/
def doubleQuoted (cs : List Char) : List Char :=
  '\x22' :: (cs.flatMap doubleQuoteChar ++ ['\x22'])

/-- The header of a literal block: a digit where the first line is indented more than the block, and
how many breaks to keep at the end. -/
def literalHeader (cs : List Char) : List Char :=
  '|' :: ((if cs.head?.any fun c => c = ' ' || isBreak c then ['2'] else []) ++
    (if !endsWithBreak cs then ['-']
    else if cs.length = 1 || endsWithBreak cs.dropLast then ['+']
    else []))

/-- A text as a literal block, on lines of its own. -/
def literalBlock (indent : Nat) (cs : List Char) : List Char :=
  literalHeader cs ++ '\n' :: indentLines indent (fun c => [c]) true cs

/-- A text as a scalar, whose further lines have the given indentation. -/
def scalar (indent : Nat) (text : String) : String :=
  let cs := text.toList
  let f := features cs
  String.ofList <|
    if cs.contains '\n' then
      if f.trailingSpace || f.spaceBreak || f.special then doubleQuoted cs else literalBlock indent cs
    else if !(looksTyped text || f.structural || f.padded || f.breaks || f.special) then cs
    else if f.breakSpace || f.spaceBreak || f.special then doubleQuoted cs
    else singleQuoted indent cs

end GrammarFile.Yaml
