import GrammarFile.Tree.Display

/-!
# The tokens of a tree

A tree stands for a sequence of tokens: its keywords, names, literals and punctuation in the order in
which a file writes them. `Grammar.tokens` lists them, and so does `tokens` for every kind of node. The
pipe that leads a production is among them, and so is the pipe that stands before an empty alternation.
-/

namespace GrammarFile

/-! ### Names and literals -/

/-- The token of a name. -/
def Identifier.token (i : Identifier) : Token :=
  .identifier i.name

/-- The token of a literal. -/
def Literal.token (l : Literal) : Token :=
  .literal l.kind l.text

/-- Names with a mark between them. -/
def tokensBetween (separator : Mark) : List Identifier → List Token
  | [] => []
  | i :: rest => i.token :: rest.flatMap fun j => [.mark separator, j.token]

/-- Names between commas. -/
def IdentifierList.tokens (l : IdentifierList) : List Token :=
  tokensBetween .comma l.identifiers

/-- Names between `::`. -/
def TypeName.tokens (t : TypeName) : List Token :=
  tokensBetween .doubleColon t.segments

/-! ### Symbols -/

/-- The operator and the literal. -/
def LookAhead.tokens (l : LookAhead) : List Token :=
  [.mark l.kind.operator, l.literal.token]

/-- The literal and the look-ahead. -/
def Terminal.tokens (t : Terminal) : List Token :=
  t.literal.token :: t.lookAhead.elim [] (·.tokens)

/-- A colon and the type. -/
def TypeAnnotation.tokens (a : TypeAnnotation) : List Token :=
  .mark .colon :: a.typeName.tokens

/-- What is written after a symbol. -/
def TreeControl.tokens (c : TreeControl) : List Token :=
  match c.kind with
  | .cut => [.mark .caret]
  | .member name type => .mark .atSign :: name.identifier.token :: type.elim [] (·.tokens)
  | .typed type => type.tokens

/-- The symbol without what is written after it. -/
def SymbolKind.tokens : SymbolKind → List Token
  | nonTerminal identifier => [identifier.token]
  | terminal t => t.tokens
  | terminalIn states t => .mark .lessThan :: (states.tokens ++ .mark .greaterThan :: t.tokens)

/-- The symbol and what is written after it. -/
def Symbol.tokens (s : Symbol) : List Token :=
  s.kind.tokens ++ s.control.elim [] (·.tokens)

/-! ### Bodies -/

mutual

/-- A symbol, or a body between brackets. -/
def Factor.tokens : Factor → List Token
  | .symbol s => s.tokens
  | .bracketed kind none _ => [.mark kind.left, .mark kind.right]
  | .bracketed kind (some ⟨alternations, _⟩) _ =>
    .mark kind.left :: (tokensOfBody alternations ++ [.mark kind.right])

/-- The alternations with pipes between them. -/
def tokensOfBody : List (AlternationOf Factor) → List Token
  | [] => []
  | ⟨factors, _⟩ :: rest => tokensOfFactors factors ++ tokensAfterPipe rest

/-- The alternations after the first, each after its pipe. -/
def tokensAfterPipe : List (AlternationOf Factor) → List Token
  | [] => []
  | ⟨factors, _⟩ :: rest => .mark .pipe :: (tokensOfFactors factors ++ tokensAfterPipe rest)

/-- The factors in a row. -/
def tokensOfFactors : List Factor → List Token
  | [] => []
  | factor :: rest => factor.tokens ++ tokensOfFactors rest

end

/-- The alternations with pipes between them. -/
def AlternationsOf.tokens (b : Alternations) : List Token :=
  tokensOfBody b.alternations

/-- The name, the colon, the body and the semicolon. -/
def Production.tokens (p : Production) : List Token :=
  p.name.token :: .mark .colon :: ((if p.leadingPipe then [.mark .pipe] else []) ++
    (p.body.elim [] AlternationsOf.tokens ++ [.mark .semicolon]))

/-! ### The prolog -/

/-- The keyword and the state. -/
def StateSwitch.tokens (s : StateSwitch) : List Token :=
  .mark s.keyword :: (s.target?.map (·.token)).toList

/-- The keyword and what belongs to it. -/
def Directive.tokens (d : Directive) : List Token :=
  .mark d.keyword ::
    match d.kind with
    | .lineComment l => [l.token]
    | .blockComment first last => [first.token, last.token]
    | .on terminals switch => terminals.tokens ++ switch.tokens
    | .autoNewlineOff | .autoWsOff | .allowUnmatched => []

/-- The keyword and what belongs to it. -/
def Declaration.tokens (d : Declaration) : List Token :=
  match d.kind with
  | .title l | .comment l | .grammarType l => [.mark d.keyword, l.token]
  | .userType name type | .ntType name type =>
    .mark d.keyword :: name.token :: .mark .equals :: type.tokens
  | .tType type => .mark d.keyword :: type.tokens
  | .scanner directive => directive.tokens

/-- The keyword, the name and the directives between braces. -/
def ScannerState.tokens (s : ScannerState) : List Token :=
  .mark .scanner :: s.name.token :: .mark .leftBrace ::
    (s.directives.flatMap (·.tokens) ++ [.mark .rightBrace])

/-- The keyword and the name. -/
def StartDeclaration.tokens (s : StartDeclaration) : List Token :=
  [.mark .start, s.identifier.token]

/-- Everything before `%%`. -/
def Prolog.tokens (p : Prolog) : List Token :=
  p.start.tokens ++ (p.declarations.flatMap (·.tokens) ++ p.states.flatMap (·.tokens))

/-- `%%` and the productions. -/
def Definition.tokens (d : Definition) : List Token :=
  .mark .percentPercent :: d.productions.flatMap (·.tokens)

/-- The whole file. -/
def Grammar.tokens (g : Grammar) : List Token :=
  g.prolog.tokens ++ g.definition.tokens

end GrammarFile
