import GrammarFile.Outline.Basic
import GrammarFile.Tree.Display

/-!
# The outline of a grammar file

`Grammar.outline` gives every node of a tree one node of an outline, in the order of the file. The
label is the node's text, except that a node with a list under it is labelled with the length of the
list, a production or a scanner state with its name, and an empty alternation with `<empty>`.
-/

namespace GrammarFile

open Outline (leaf)

/-- The outline of a literal. -/
def Literal.outline (l : Literal) : Outline :=
  leaf l.kind.name l.text l.range

/-- The outline of a list of names. -/
def IdentifierList.outline (l : IdentifierList) : Outline :=
  leaf "identifier_list" l.display l.range

/-- The outline of a look-ahead. -/
def LookAhead.outline (l : LookAhead) : Outline :=
  (leaf "look_ahead" l.display l.range).withChild l.literal.outline

/-- The outlines of the parts of a terminal. -/
def Terminal.outlines (t : Terminal) : List Outline :=
  t.literal.outline :: (t.lookAhead.map (·.outline)).toList

/-- The name of a sort of tree control. -/
def TreeControlKind.name : TreeControlKind → String
  | cut => "cut"
  | member _ _ => "member"
  | typed _ => "user_type"

/-- The outline of what is written after a symbol. -/
def TreeControl.outline (c : TreeControl) : Outline :=
  let node := (leaf "ast_control" c.display c.range).withAttribute "kind" c.kind.name
  let node := c.memberName?.elim node fun name => node.withAttribute "member" name
  c.typeName?.elim node fun type => node.withAttribute "user_type" type.display

/-- The name of a sort of symbol. -/
def SymbolKind.name : SymbolKind → String
  | nonTerminal _ => "non_terminal"
  | terminal _ => "simple_token"
  | terminalIn _ _ => "token_with_states"

/-- The outline of a symbol. -/
def Symbol.outline (s : Symbol) : Outline :=
  let node := leaf s.kind.name s.display s.range
  let node :=
    match s.kind with
    | .nonTerminal identifier => node.withAttribute "name" identifier.name
    | .terminal t => node.withChildren t.outlines
    | .terminalIn states t => node.withChildren (states.outline :: t.outlines)
  node.withChildren (s.control.map (·.outline)).toList

/-- The label of an alternation. -/
def AlternationOf.label (a : Alternation) : String :=
  if AlternationOf.isEmpty a then "<empty>" else AlternationOf.display a

mutual

/-- The outline of a factor. -/
def Factor.outline : Factor → Outline
  | .symbol s => s.outline
  | .bracketed kind none r => leaf kind.name (Factor.display (.bracketed kind none r)) r
  | .bracketed kind (some ⟨alternations, inner⟩) r =>
    (leaf kind.name (Factor.display (.bracketed kind (some ⟨alternations, inner⟩) r)) r).withChild
      ((leaf "alternations" (toString alternations.length ++ " alternatives") inner).withChildren
        (outlineAlternations alternations))

/-- The outline of each alternation. -/
def outlineAlternations : List (AlternationOf Factor) → List Outline
  | [] => []
  | ⟨factors, r⟩ :: rest =>
    (leaf "alternation" (AlternationOf.label ⟨factors, r⟩) r).withChildren (outlineFactors factors) ::
      outlineAlternations rest

/-- The outline of each factor. -/
def outlineFactors : List Factor → List Outline
  | [] => []
  | factor :: rest => factor.outline :: outlineFactors rest

end

/-- The outline of a body. -/
def AlternationsOf.outline (b : Alternations) : Outline :=
  (leaf "alternations" (toString b.alternations.length ++ " alternatives") b.range).withChildren
    (outlineAlternations b.alternations)

/-- The outline of a production. -/
def Production.outline (p : Production) : Outline :=
  let node := leaf "production" p.name.name p.range
  let node := if p.leadingPipe then node.withAttribute "leading_pipe" "true" else node
  node.withChildren (p.body.map AlternationsOf.outline).toList

/-- The outline of a change of state. -/
def StateSwitch.outline (s : StateSwitch) : Outline :=
  (leaf "scanner_state_directives" s.display s.range).withAttribute "target" (s.target?.elim "" (·.name))

/-- The outline of a directive. -/
def Directive.outline (d : Directive) : Outline :=
  let node := (leaf "scanner_directives" d.display d.range).withAttribute "keyword" d.keyword.text
  match d.kind with
  | .on terminals switch => node.withChildren [terminals.outline, switch.outline]
  | _ => node.withChildren (d.literals.map (·.outline))

/-- The outline of a declaration. -/
def Declaration.outline (d : Declaration) : Outline :=
  let node := (leaf "declaration" d.display d.range).withAttribute "keyword" d.keyword.text
  match d.kind with
  | .scanner directive => node.withChild directive.outline
  | _ => node

/-- The outline of a scanner state. -/
def ScannerState.outline (s : ScannerState) : Outline :=
  ((leaf "scanner_state" s.name.name s.range).withAttribute "state_name" s.name.name).withChildren
    (s.directives.map (·.outline))

/-- The outline of the start declaration. -/
def StartDeclaration.outline (s : StartDeclaration) : Outline :=
  leaf "start_declaration" s.identifier.name s.range

/-- The outline of a prolog. -/
def Prolog.outline (p : Prolog) : Outline :=
  (leaf "prolog" p.start.display p.range).withChildren
    (p.start.outline :: (p.declarations.map (·.outline) ++ p.states.map (·.outline)))

/-- The outline of a definition. -/
def Definition.outline (d : Definition) : Outline :=
  (leaf "grammar_definition" (toString d.productions.length ++ " productions") d.range).withChildren
    (d.productions.map (·.outline))

/-- The outline of a whole file. -/
def Grammar.outline (g : Grammar) : Outline :=
  let label := toString g.productions.length ++ " productions, start " ++ g.startSymbol
  ((leaf "parol" label g.range).withAttribute "start" g.startSymbol).withChildren
    [g.prolog.outline, g.definition.outline]

end GrammarFile
