import GrammarFile.Tree.Walk

/-!
# What a grammar mentions

The symbols of a body at any depth of brackets, and what follows from them: the non-terminals that a
production refers to, the scanner states that are used, and the regular expressions of a file. All
lists are in the order of the file.
-/

namespace GrammarFile

mutual

/-- The symbols of a factor. -/
def Factor.symbols : Factor → List Symbol
  | .symbol s => [s]
  | .bracketed _ none _ => []
  | .bracketed _ (some ⟨alternations, _⟩) _ => bodySymbols alternations

/-- The symbols of the alternations of a body. -/
def bodySymbols : List (AlternationOf Factor) → List Symbol
  | [] => []
  | ⟨factors, _⟩ :: rest => factorSymbols factors ++ bodySymbols rest

/-- The symbols of factors. -/
def factorSymbols : List Factor → List Symbol
  | [] => []
  | factor :: rest => factor.symbols ++ factorSymbols rest

end

/-- The symbols of a production. -/
def Production.symbols (p : Production) : List Symbol :=
  bodySymbols p.alternations

/-- The non-terminal that a symbol is. -/
def Symbol.nonTerminal? (s : Symbol) : Option Identifier :=
  match s.kind with
  | .nonTerminal identifier => some identifier
  | _ => none

/-- The scanner states that a symbol names. -/
def Symbol.states (s : Symbol) : List Identifier :=
  match s.kind with
  | .terminalIn states _ => states.identifiers
  | _ => []

/-- The non-terminals in the body of a production. -/
def Production.references (p : Production) : List Identifier :=
  p.symbols.filterMap (·.nonTerminal?)

/-- The scanner state that a directive switches to. -/
def Directive.target? (d : Directive) : Option Identifier :=
  match d.kind with
  | .on _ switch => switch.target?
  | _ => none

/-- The directive that a declaration is. -/
def Declaration.directive? (d : Declaration) : Option Directive :=
  match d.kind with
  | .scanner directive => some directive
  | _ => none

namespace Grammar

/-- The directives of the declarations and of the scanner states. -/
def directives (g : Grammar) : List Directive :=
  g.prolog.declarations.filterMap (·.directive?) ++ g.prolog.states.flatMap (·.directives)

/-- The symbols of all productions. -/
def symbols (g : Grammar) : List Symbol :=
  g.productions.flatMap (·.symbols)

/-- The non-terminals of all bodies. -/
def references (g : Grammar) : List Identifier :=
  g.productions.flatMap (·.references)

/-- The names of the productions. -/
def productionNames (g : Grammar) : List Identifier :=
  g.productions.map (·.name)

/-- Whether a name has a production. -/
def defines (g : Grammar) (name : String) : Bool :=
  g.productions.any (·.name.name == name)

/-- The names of the scanner states. -/
def stateNames (g : Grammar) : List Identifier :=
  g.prolog.states.map (·.name)

/-- The places where a scanner state is used. The terminals after `%on` are no states. -/
def stateUses (g : Grammar) : List Identifier :=
  g.directives.filterMap (·.target?) ++ g.symbols.flatMap (·.states)

/-- The literals of comment directives and of bodies. -/
def literals (g : Grammar) : List Literal :=
  g.directives.flatMap (·.literals) ++ g.symbols.flatMap (·.literals)

/-- The regular expressions among the literals. -/
def regexes (g : Grammar) : List Literal :=
  g.literals.filter (·.kind = .regex)

end Grammar

end GrammarFile
