import GrammarFile.Tree.Basic

/-!
# Walking a tree

`Grammar.walk` lists the visits of a walk through a tree, in the order of the file. A node with nodes
under it is entered before them and left after them, and a terminal is followed by its literals. The
literals of directives are part of the directive and have no visit of their own.
-/

namespace GrammarFile

/-- One step of a walk. -/
inductive Visit where
  | enterGrammar (grammar : Grammar)
  | leaveGrammar (grammar : Grammar)
  | declaration (declaration : Declaration)
  | directive (directive : Directive)
  | enterState (state : ScannerState)
  | leaveState (state : ScannerState)
  | enterProduction (production : Production)
  | leaveProduction (production : Production)
  | enterAlternation (alternation : Alternation)
  | leaveAlternation (alternation : Alternation)
  | enterBrackets (kind : BracketKind) (body : Option Alternations) (range : Range)
  | leaveBrackets (kind : BracketKind) (body : Option Alternations) (range : Range)
  | symbol (symbol : Symbol)
  | literal (literal : Literal)

/-- The literals of a terminal: its own, then that of the look-ahead. -/
def Terminal.literals (t : Terminal) : List Literal :=
  t.literal :: (t.lookAhead.map (·.literal)).toList

/-- The literals of a symbol. -/
def Symbol.literals (s : Symbol) : List Literal :=
  s.terminal?.elim [] (·.literals)

/-- The visits of a symbol and its literals. -/
def Symbol.walk (s : Symbol) : List Visit :=
  .symbol s :: s.literals.map .literal

mutual

/-- The visits of a factor. -/
def Factor.walk : Factor → List Visit
  | .symbol s => s.walk
  | .bracketed kind none r => [.enterBrackets kind none r, .leaveBrackets kind none r]
  | .bracketed kind (some ⟨alternations, inner⟩) r =>
    .enterBrackets kind (some ⟨alternations, inner⟩) r :: (walkBody alternations ++
      [.leaveBrackets kind (some ⟨alternations, inner⟩) r])

/-- The visits of the alternations of a body. -/
def walkBody : List (AlternationOf Factor) → List Visit
  | [] => []
  | ⟨factors, r⟩ :: rest =>
    .enterAlternation ⟨factors, r⟩ ::
      (walkFactors factors ++ .leaveAlternation ⟨factors, r⟩ :: walkBody rest)

/-- The visits of factors. -/
def walkFactors : List Factor → List Visit
  | [] => []
  | factor :: rest => factor.walk ++ walkFactors rest

end

/-- The visits of a production. -/
def Production.walk (p : Production) : List Visit :=
  .enterProduction p :: (walkBody p.alternations ++ [.leaveProduction p])

/-- The visits of a declaration, and of the directive that it may be. -/
def Declaration.walk (d : Declaration) : List Visit :=
  .declaration d ::
    match d.kind with
    | .scanner directive => [.directive directive]
    | _ => []

/-- The visits of a scanner state. -/
def ScannerState.walk (s : ScannerState) : List Visit :=
  .enterState s :: (s.directives.map .directive ++ [.leaveState s])

/-- The visits of a whole file. -/
def Grammar.walk (g : Grammar) : List Visit :=
  .enterGrammar g :: (g.prolog.declarations.flatMap (·.walk) ++ g.prolog.states.flatMap (·.walk) ++
    g.productions.flatMap (·.walk) ++ [.leaveGrammar g])

end GrammarFile
