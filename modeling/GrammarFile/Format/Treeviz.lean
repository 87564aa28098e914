import GrammarFile.Outline.Basic
import GrammarFile.Text.Digits

/-!
# Tree drawings

A drawing shows an outline with one row for each node: the connectors that lead to it, an icon for its
type and its label, cut after thirty characters. The root has no connector. In a numbered drawing the
rows below the root start with the number of the source line that the node starts on. Labels are shown
as they are, so a line feed in a label makes its row longer than a line.
-/

namespace GrammarFile.Treeviz

/-- The icon for a type of node. -/
def icon (nodeType : String) : String :=
  match nodeType with
  | "parol" => "⧉"
  | "prolog" => "§"
  | "grammar_definition" => "☰"
  | "production" => "≔"
  | "alternations" => "⋮"
  | "alternation" => "•"
  | "start_declaration" => "▶"
  | "declaration" => "%"
  | "scanner_directives" => "⚙"
  | "scanner_state" => "Ψ"
  | "scanner_state_directives" => "➔"
  | "group" => "()"
  | "optional" => "[]"
  | "repeat" => "\x7b\x7d"
  | "non_terminal" => "◦"
  | "simple_token" => "❝"
  | "token_with_states" => "⟨⟩"
  | "identifier_list" => "≡"
  | "look_ahead" => "?"
  | "ast_control" => "@"
  | "string" => "ʺ"
  | "raw_string" => "ʹ"
  | "regex" => "∕"
  | _ => "○"

/-- The most characters of a label that are shown. -/
def labelWidth : Nat := 30

/-- A label cut after `labelWidth` characters, with an ellipsis where something is missing. -/
def shorten (label : String) : String :=
  if label.length > labelWidth then String.ofList (label.toList.take labelWidth) ++ "..." else label

/-- An icon and a label. -/
def caption (nodeType label : String) : String :=
  icon nodeType ++ " " ++ shorten label

/-- The number of a line, counted from 1, with two digits at least. -/
def lineNumber (range : Range) : String :=
  let digits := toString (range.start.line + 1)
  (if digits.length < 2 then "0" else "") ++ digits

mutual

/-- The lines of a node below the root. `stem` is drawn in front of every line of it. -/
def drawNode (numbered : Bool) (stem : String) (isLast : Bool) : Outline → String
  | ⟨nodeType, label, _, range, children⟩ =>
    (if numbered then lineNumber range ++ " " else "") ++ stem ++ (if isLast then "└─ " else "├─ ") ++
      caption nodeType label ++ "\n" ++
      drawNodes numbered (stem ++ if isLast then "  " else "│ ") children

/-- The lines of the children of a node. -/
def drawNodes (numbered : Bool) (stem : String) : List Outline → String
  | [] => ""
  | o :: rest => drawNode numbered stem rest.isEmpty o ++ drawNodes numbered stem rest

end

/-- The drawing of an outline. -/
def draw (numbered : Bool) (o : Outline) : String :=
  caption o.nodeType o.label ++ "\n" ++ drawNodes numbered "" o.children

end GrammarFile.Treeviz
