import GrammarFile.Tree.Basic

/-!
# The text of a tree

Every node has a text on one line, which spells the node's own tokens with fixed spacing.
`Grammar.print` puts those texts together into a whole file in a fixed layout: a line for each
declaration and production, scanner states in blocks, and `%%` between blank lines.
-/

namespace GrammarFile

namespace IdentifierList

/-- The names, with a comma and a blank between them. -/
def display (l : IdentifierList) : String :=
  ", ".intercalate (l.identifiers.map (·.name))

end IdentifierList

namespace TypeName

/-- The names, with `::` between them. -/
def display (t : TypeName) : String :=
  "::".intercalate (t.segments.map (·.name))

end TypeName

namespace LookAheadKind

/-- The operator of a look-ahead. -/
def operator : LookAheadKind → Mark
  | positive => .positiveLookahead
  | negative => .negativeLookahead

end LookAheadKind

namespace LookAhead

/-- The operator and the literal. -/
def display (l : LookAhead) : String :=
  l.kind.operator.text ++ " " ++ l.literal.text

end LookAhead

namespace Terminal

/-- The literal, and after a blank the look-ahead. -/
def display (t : Terminal) : String :=
  t.literal.text ++ t.lookAhead.elim "" fun l => " " ++ l.display

end Terminal

namespace TypeAnnotation

/-- A colon, a blank and the type. -/
def display (a : TypeAnnotation) : String :=
  ": " ++ a.typeName.display

end TypeAnnotation

namespace TreeControl

/-- What is written after a symbol. -/
def display (c : TreeControl) : String :=
  match c.kind with
  | .cut => "^"
  | .member name type => "@" ++ name.identifier.name ++ type.elim "" (·.display)
  | .typed type => type.display

end TreeControl

namespace SymbolKind

/-- The symbol without what is written after it. -/
def display : SymbolKind → String
  | nonTerminal identifier => identifier.name
  | terminal t => t.display
  | terminalIn states t => "<" ++ states.display ++ ">" ++ t.display

end SymbolKind

namespace Symbol

/-- The symbol and what is written after it. -/
def display (s : Symbol) : String :=
  s.kind.display ++ s.control.elim "" (·.display)

end Symbol

/-! ### Bodies -/

mutual

/-- A symbol, or a body between brackets. -/
def Factor.display : Factor → String
  | .symbol s => s.display
  | .bracketed kind none _ => kind.left.text ++ kind.right.text
  | .bracketed kind (some ⟨alternations, _⟩) _ =>
    kind.left.text ++ displayBody alternations ++ kind.right.text

/-- The alternations with pipes between them. -/
def displayBody : List (AlternationOf Factor) → String
  | [] => ""
  | ⟨factors, _⟩ :: rest => " ".intercalate (displayFactors factors) ++ displayAfterPipe rest

/-- The alternations after the first, each after its pipe. An empty one stands right after it. -/
def displayAfterPipe : List (AlternationOf Factor) → String
  | [] => ""
  | ⟨[], _⟩ :: rest => " |" ++ displayAfterPipe rest
  | ⟨factor :: factors, _⟩ :: rest =>
    " | " ++ " ".intercalate (factor.display :: displayFactors factors) ++ displayAfterPipe rest

/-- The text of each factor. -/
def displayFactors : List Factor → List String
  | [] => []
  | factor :: rest => factor.display :: displayFactors rest

end

namespace AlternationOf

/-- The factors with blanks between them. -/
def display (a : Alternation) : String :=
  " ".intercalate (displayFactors a.factors)

end AlternationOf

namespace AlternationsOf

/-- The alternations with pipes between them. -/
def display (b : Alternations) : String :=
  displayBody b.alternations

end AlternationsOf

namespace Production

/-- A production up to its semicolon. -/
def display (p : Production) : String :=
  p.name.name ++ ":" ++ (if p.leadingPipe then " |" else "") ++
    (p.body.elim "" fun body => " " ++ AlternationsOf.display body) ++ ";"

end Production

/-! ### The prolog -/

namespace StateSwitch

/-- The keyword, and after a blank the state. -/
def display (s : StateSwitch) : String :=
  s.keyword.text ++ s.target?.elim "" fun target => " " ++ target.name

end StateSwitch

namespace Directive

/-- The keyword, and after blanks what belongs to it. -/
def display (d : Directive) : String :=
  match d.kind with
  | .lineComment l => d.keyword.text ++ " " ++ l.text
  | .blockComment first last => d.keyword.text ++ " " ++ first.text ++ " " ++ last.text
  | .on terminals switch => d.keyword.text ++ " " ++ terminals.display ++ " " ++ switch.display
  | .autoNewlineOff | .autoWsOff | .allowUnmatched => d.keyword.text

end Directive

namespace Declaration

/-- The keyword, and after blanks what belongs to it. -/
def display (d : Declaration) : String :=
  match d.kind with
  | .title l | .comment l | .grammarType l => d.keyword.text ++ " " ++ l.text
  | .userType name type | .ntType name type =>
    d.keyword.text ++ " " ++ name.name ++ " = " ++ type.display
  | .tType type => d.keyword.text ++ " " ++ type.display
  | .scanner directive => directive.display

end Declaration

namespace ScannerState

/-- A scanner state on one line. -/
def display (s : ScannerState) : String :=
  "%scanner " ++ s.name.name ++ " \x7b" ++
    String.join (s.directives.map fun d => " " ++ d.display) ++ " \x7d"

/-- A scanner state as a block, with a line for each directive. -/
def print (s : ScannerState) : String :=
  if s.directives.isEmpty then "%scanner " ++ s.name.name ++ " \x7b\x7d\n"
  else
    "%scanner " ++ s.name.name ++ " \x7b\n" ++
      String.join (s.directives.map fun d => "    " ++ d.display ++ "\n") ++ "\x7d\n"

end ScannerState

namespace StartDeclaration

/-- The keyword, a blank and the name. -/
def display (s : StartDeclaration) : String :=
  "%start " ++ s.identifier.name

end StartDeclaration

namespace Grammar

/-- The whole file in a fixed layout. Comments are no part of a tree, so none are printed. -/
def print (g : Grammar) : String :=
  g.prolog.start.display ++ "\n" ++
    String.join (g.prolog.declarations.map fun d => d.display ++ "\n") ++
    String.join (g.prolog.states.map fun s => "\n" ++ s.print) ++
    "\n%%\n\n" ++
    String.join (g.productions.map fun p => p.display ++ "\n")

end Grammar

end GrammarFile
