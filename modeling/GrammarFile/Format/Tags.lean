import GrammarFile.Outline.Basic

/-!
# Tags

An outline as nested tags: the type of a node names its tag, its label is the text after the opening
tag, and its children stand inside, each on lines of its own two blanks further in. The characters
that could be taken for markup are written as entities.
-/

namespace GrammarFile.Tags

/-- One character of a text, as an entity where it could be taken for markup. -/
def escapeChar (c : Char) : List Char :=
  if c = '&' then ['&', 'a', 'm', 'p', ';']
  else if c = '<' then ['&', 'l', 't', ';']
  else if c = '>' then ['&', 'g', 't', ';']
  else if c = '\x22' then ['&', 'q', 'u', 'o', 't', ';']
  else if c = '\x27' then ['&', 'a', 'p', 'o', 's', ';']
  else [c]

/-- A text with entities for markup. -/
def escape (text : String) : String :=
  String.ofList (text.toList.flatMap escapeChar)

/-- The name of the tag for a type of node. -/
def tagName (nodeType : String) : String :=
  String.ofList (nodeType.toList.map fun c => if c = '_' then '-' else c)

/-- The blanks in front of a line at a level. -/
def indent (level : Nat) : String :=
  String.ofList (List.replicate (2 * level) ' ')

/-- An opening tag. -/
def opening (nodeType : String) : String :=
  "<" ++ tagName nodeType ++ ">"

/-- A closing tag. -/
def closing (nodeType : String) : String :=
  "</" ++ tagName nodeType ++ ">"

mutual

/-- The lines of a node at a level. A node without children is one line. -/
def write (level : Nat) : Outline → String
  | ⟨nodeType, label, _, _, children⟩ =>
    indent level ++ opening nodeType ++ escape label ++
      (if children.isEmpty then "" else "\n" ++ writeAll (level + 1) children ++ indent level) ++
      closing nodeType ++ "\n"

/-- The lines of nodes at a level. -/
def writeAll (level : Nat) : List Outline → String
  | [] => ""
  | o :: rest => write level o ++ writeAll level rest

end

end GrammarFile.Tags
