/-!
# Faults of TOML documents

Why a text is no TOML document: what was being read, what could have stood there instead, and what else
is wrong. A fault is soft while nothing has been read that would fix what has to follow: then something
else may still be tried. `Fault.describe` shows the place of a fault in the text.
-/

namespace GrammarFile.Toml

/-- What is wrong at some place. -/
structure Complaint where
  /-- What was being read. -/
  reading : Option String
  /-- What could have stood there. -/
  expected : List String
  /-- Why what stands there will not do. -/
  cause : Option String
  deriving DecidableEq, Inhabited

/-- The wording of a complaint. -/
def Complaint.message (c : Complaint) : String :=
  String.intercalate "\n" ((c.reading.map ("invalid " ++ ·)).toList ++
    (if c.expected.isEmpty then [] else ["expected " ++ String.intercalate ", " c.expected]) ++
    c.cause.toList)

/-- What is wrong, and where. -/
structure Fault where
  complaint : Complaint
  /-- The text from the place on. -/
  rest : List Char
  /-- Whether something else may be tried. -/
  soft : Bool
  deriving DecidableEq, Inhabited

/-- Reads something at the front of a text and gives it with what follows. -/
abbrev Reader (α : Type) := List Char → Except Fault (α × List Char)

namespace Fault

/-- A fault about which nothing is known but its place. -/
def bare (rest : List Char) : Fault :=
  ⟨⟨none, [], none⟩, rest, false⟩

/-- Something is not what was being read. -/
def invalid (reading : String) (expected : List String) (rest : List Char) : Fault :=
  ⟨⟨some reading, expected, none⟩, rest, false⟩

/-- Something else has to stand at a place. -/
def expecting (expected : List String) (rest : List Char) : Fault :=
  ⟨⟨none, expected, none⟩, rest, false⟩

/-- Something stands at a place that will not do. -/
def because (cause : String) (rest : List Char) : Fault :=
  ⟨⟨none, [], some cause⟩, rest, false⟩

/-- Something else may be tried. -/
def soften (fault : Fault) : Fault :=
  { fault with soft := true }

/-- Nothing else may be tried. -/
def harden (fault : Fault) : Fault :=
  { fault with soft := false }

/-- A fault that came up while something was being read, unless something smaller was. -/
def within (reading : String) (fault : Fault) : Fault :=
  { fault with
    complaint := { fault.complaint with reading := fault.complaint.reading <|> some reading } }

/-- A fault at a place where something else could stand, too. -/
def orExpecting (expected : List String) (fault : Fault) : Fault :=
  { fault with complaint := { fault.complaint with expected := fault.complaint.expected ++ expected } }

/-! ### Showing faults -/

/-- The characters after the last line feed. -/
def lastLine (cs : List Char) : List Char :=
  (cs.reverse.takeWhile (· ≠ '\n')).reverse

/-- The number of the line after some characters, counted from zero, and the column where the rest starts.
A column counts characters, but it counts bytes where a character of more than one byte stands. The end
of the text counts as the place after its last character, even if that is a line feed. -/
def place (before rest : List Char) : Nat × Nat :=
  match rest with
  | [] =>
    if before.isEmpty then (0, 0)
    else (before.dropLast.count '\n', (lastLine before.dropLast).length + 1)
  | c :: _ =>
    let line := lastLine before
    (before.count '\n', if c.utf8Size = 1 then line.length else (String.ofList line).utf8ByteSize)

/-- Blanks. -/
def spaces (n : Nat) : String :=
  String.ofList (List.replicate n ' ')

/-- A fault of a text, with the line where it is. -/
def describe (fault : Fault) (source : String) : String :=
  let cs := source.toList
  let before := cs.take (cs.length - fault.rest.length)
  let (line, column) := place before fault.rest
  let start := if fault.rest.isEmpty then before.dropLast else before
  let content := String.ofList (lastLine start ++ (cs.drop start.length).takeWhile (· ≠ '\n'))
  let number := toString (line + 1)
  let margin := spaces (number.length + 1) ++ "|"
  let width := min ((fault.rest.head?.map (·.utf8Size)).getD 0) (content.utf8ByteSize - column)
  "TOML parse error at line " ++ number ++ ", column " ++ toString (column + 1) ++ "\n" ++
    margin ++ "\n" ++
    number ++ " | " ++ content ++ "\n" ++
    margin ++ spaces (column + 1) ++ String.ofList (List.replicate (max 1 width) '^') ++ "\n" ++
    fault.complaint.message ++ "\n"

end Fault

end GrammarFile.Toml
