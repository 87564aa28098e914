/-!
# Blank characters and lines

What counts as white space between tokens, and how a text falls into lines.

A character is blank iff it has the Unicode property White_Space; this is the class the lexer skips.
A text is cut into lines after each line feed, and a carriage return directly before the feed belongs
to the line break, not to the line.
-/

namespace GrammarFile.Text

/-- The code points with the Unicode property White_Space, as closed intervals in ascending order. -/
def blankIntervals : List (Nat × Nat) :=
  [(0x09, 0x0D), (0x20, 0x20), (0x85, 0x85), (0xA0, 0xA0), (0x1680, 0x1680), (0x2000, 0x200A),
   (0x2028, 0x2029), (0x202F, 0x202F), (0x205F, 0x205F), (0x3000, 0x3000)]

/-- Whether a character is white space in the sense of Unicode. -/
def isBlank (c : Char) : Bool :=
  blankIntervals.any fun (first, last) => first ≤ c.toNat && c.toNat ≤ last

/-- The pieces of a text between its line feeds: one more than it has line feeds. -/
def pieces : List Char → List (List Char)
  | [] => [[]]
  | c :: rest =>
    if c = '\n' then [] :: pieces rest
    else
      match pieces rest with
      | [] => [[c]]
      | piece :: more => (c :: piece) :: more

/-- A piece that a line feed ends, without a carriage return at its end. -/
def dropReturn (piece : List Char) : List Char :=
  if piece.getLast? = some '\r' then piece.dropLast else piece

/-- The pieces as lines: only a piece that a line feed ends loses its carriage return, and an empty
piece after the last line feed is no line. -/
def linesOfPieces : List (List Char) → List (List Char)
  | [] => []
  | [last] => if last.isEmpty then [] else [last]
  | piece :: rest => dropReturn piece :: linesOfPieces rest

/-- The lines of a text, without their line breaks. -/
def lines (text : String) : List String :=
  (linesOfPieces (pieces text.toList)).map String.ofList

/-- A text without the blank characters at its ends. -/
def trim (text : String) : String :=
  String.ofList ((text.toList.dropWhile isBlank).reverse.dropWhile isBlank).reverse

/-- The last line of a text, without the blank characters at its ends. -/
def lastLine (text : String) : String :=
  trim ((lines text).getLast?.getD "")

end GrammarFile.Text
