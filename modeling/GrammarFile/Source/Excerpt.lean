import GrammarFile.Text.Blank

/-!
# Source excerpts

An excerpt shows a line of the source with up to two lines before it and two after it, each with its
number counted from 1. The line itself is marked by `>>`. Nothing is shown of a line that the source
does not have.
-/

namespace GrammarFile

/-- The text with blanks put in front until it has `width` characters. -/
def Text.padLeft (width : Nat) (text : String) : String :=
  String.ofList (List.replicate (width - text.length) ' ') ++ text

/-- One line of an excerpt. -/
def excerptLine (marked line : Nat) (text : String) : String :=
  (if line = marked then ">>" else "  ") ++ " " ++ Text.padLeft 3 (toString (line + 1)) ++ " | " ++
    text ++ "\n"

/-- The lines of `source` around line `line`, which is counted from 0. -/
def excerpt (source : String) (line : Nat) : String :=
  let first := line - 2
  let shown := ((Text.lines source).take (line + 3)).drop first
  String.join ((shown.zipIdx first).map fun (text, number) => excerptLine line number text)

end GrammarFile
