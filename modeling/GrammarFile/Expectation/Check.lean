import GrammarFile.Expectation.Basic

/-!
# Checking expectations

`Grammar.meets` goes through expectations in order and gives the first mismatch. An expectation about a
part is checked with the expectations of the part, once it is known that the part is there.
-/

namespace GrammarFile

/-- A mismatch at a path unless a condition holds. -/
def expect (path : List PathStep) (holds : Bool) (cause : MismatchCause) : Except Mismatch Unit :=
  if holds then .ok () else .error ⟨path, cause⟩

/-- Checks in order, up to the first that fails. -/
def checkAll {α : Type} (check : α → Except Mismatch Unit) : List α → Except Mismatch Unit
  | [] => .ok ()
  | a :: rest => do
    check a
    checkAll check rest

/-- What a symbol is called in a mismatch. -/
def SymbolKind.describe : SymbolKind → String
  | nonTerminal _ => "non-terminal"
  | terminal _ => "terminal"
  | terminalIn _ _ => "terminal with states"

/-- What a factor is called in a mismatch. -/
def Factor.describe : Factor → String
  | bracketed kind _ _ => kind.name
  | symbol s => s.kind.describe

/-- The number of alternations is as expected. -/
def checkAlternativeCount (path : List PathStep) (alternations : List Alternation) (count : Nat) :
    Except Mismatch Unit :=
  expect path (alternations.length = count)
    (.alternativeCount count (alternations.map AlternationOf.display))

/-- An expectation about a symbol. -/
def SymbolExpectation.check (path : List PathStep) (s : Symbol) :
    SymbolExpectation → Except Mismatch Unit
  | .nonTerminal name =>
    match s.kind with
    | .nonTerminal i => expect path (i.name = name) (.nonTerminal name i.name)
    | _ => .error ⟨path, .nonTerminal name s.display⟩
  | .literal kind text =>
    match s.terminal? with
    | some t => expect path (t.literal.kind = kind && t.literal.text = text) .literal
    | none => .error ⟨path, .noLiteral s.display⟩
  | .lookAhead kind text =>
    match s.terminal?.bind (·.lookAhead) with
    | some l => expect path (l.kind = kind && l.literal.text = text) .lookAhead
    | none => .error ⟨path, .noLookAhead s.display⟩
  | .states names =>
    match s.kind with
    | .terminalIn found _ => expect path (found.identifiers.map (·.name) = names) .states
    | _ => .error ⟨path, .noStates s.display⟩
  | .cut => expect path (s.control.any (·.isCut)) (.notCut s.display)
  | .member name => expect path (s.control.bind (·.memberName?) = some name) (.member s.display)
  | .userType text =>
    expect path ((s.control.bind (·.typeName?)).map (·.display) = some text) (.userType s.display)
  | .noControl => expect path s.control.isNone (.control s.display)

mutual

/-- An expectation about a body between brackets. -/
def BodyExpectation.check (path : List PathStep) (body : Option Alternations) :
    BodyExpectation → Except Mismatch Unit
  | .absent => expect path body.isNone .bracketsBody
  | .alternativeCount count => checkAlternativeCount path (body.elim [] (·.alternations)) count
  | .alternative index expectations =>
    let alternations := body.elim [] (·.alternations)
    match alternations[index]? with
    | some a => AlternationExpectation.checkEach (path ++ [.alternative index]) a expectations
    | none => .error ⟨path, .alternativeIndex index alternations.length⟩

/-- Expectations about a body between brackets. -/
def BodyExpectation.checkEach (path : List PathStep) (body : Option Alternations) :
    List BodyExpectation → Except Mismatch Unit
  | [] => .ok ()
  | e :: rest => do
    BodyExpectation.check path body e
    BodyExpectation.checkEach path body rest

/-- An expectation about an alternation. -/
def AlternationExpectation.check (path : List PathStep) (a : Alternation) :
    AlternationExpectation → Except Mismatch Unit
  | .factorCount count =>
    expect path (a.factors.length = count) (.factorCount count a.factors.length (AlternationOf.display a))
  | .empty => expect path a.factors.isEmpty (.notEmpty (AlternationOf.display a))
  | .text text => expect path (AlternationOf.display a = text) .alternativeText
  | .factor index expectations =>
    match a.factors[index]? with
    | some f => FactorExpectation.checkEach (path ++ [.factor index]) f expectations
    | none => .error ⟨path, .factorIndex index a.factors.length⟩

/-- Expectations about an alternation. -/
def AlternationExpectation.checkEach (path : List PathStep) (a : Alternation) :
    List AlternationExpectation → Except Mismatch Unit
  | [] => .ok ()
  | e :: rest => do
    AlternationExpectation.check path a e
    AlternationExpectation.checkEach path a rest

/-- An expectation about a factor. -/
def FactorExpectation.check (path : List PathStep) (f : Factor) :
    FactorExpectation → Except Mismatch Unit
  | .symbol expectation =>
    match f with
    | .symbol s => expectation.check path s
    | .bracketed kind _ _ => .error ⟨path, .notSymbol kind f.display⟩
  | .brackets kind expectations =>
    match f with
    | .bracketed found body _ =>
      if found = kind then BodyExpectation.checkEach (path ++ [.brackets kind]) body expectations
      else .error ⟨path, .notBrackets kind f.describe f.display⟩
    | .symbol _ => .error ⟨path, .notBrackets kind f.describe f.display⟩

/-- Expectations about a factor. -/
def FactorExpectation.checkEach (path : List PathStep) (f : Factor) :
    List FactorExpectation → Except Mismatch Unit
  | [] => .ok ()
  | e :: rest => do
    FactorExpectation.check path f e
    FactorExpectation.checkEach path f rest

end

/-- An expectation about a scanner state. -/
def StateExpectation.check (path : List PathStep) (s : ScannerState) :
    StateExpectation → Except Mismatch Unit
  | .name expected => expect path (s.name.name = expected) (.stateName expected s.name.name)
  | .directiveKeywords keywords =>
    expect path (s.directives.map (·.keyword.text) = keywords) .directiveKeywords
  | .directives texts => expect path (s.directives.map (·.display) = texts) .directives

/-- An expectation about a production. -/
def ProductionExpectation.check (path : List PathStep) (p : Production) :
    ProductionExpectation → Except Mismatch Unit
  | .name expected => expect path (p.name.name = expected) (.productionName expected p.name.name)
  | .leadingPipe present => expect path (p.leadingPipe = present) (.leadingPipe present p.leadingPipe)
  | .emptyBody => expect path p.body.isNone (.productionBody p.display)
  | .text expected => expect path (p.display = expected) .productionText
  | .alternativeCount count => checkAlternativeCount path p.alternations count
  | .alternative index expectations => BodyExpectation.check path p.body (.alternative index expectations)

/-- An expectation about a grammar. -/
def GrammarExpectation.check (g : Grammar) : GrammarExpectation → Except Mismatch Unit
  | .startSymbol name => expect [] (g.startSymbol = name) (.startSymbol name g.startSymbol)
  | .declarationCount count =>
    let keywords := g.prolog.declarations.map (·.keyword.text)
    expect [] (keywords.length = count) (.declarationCount count keywords)
  | .declarationKeywords keywords =>
    expect [] (g.prolog.declarations.map (·.keyword.text) = keywords) .declarationKeywords
  | .stateCount count =>
    expect [] (g.prolog.states.length = count) (.stateCount count g.prolog.states.length)
  | .state index expectations =>
    match g.prolog.states[index]? with
    | some s => checkAll (StateExpectation.check [.state index] s) expectations
    | none => .error ⟨[], .stateIndex index g.prolog.states.length⟩
  | .productionCount count =>
    let names := g.productions.map (·.name.name)
    expect [] (names.length = count) (.productionCount count names)
  | .productionNames names => expect [] (g.productions.map (·.name.name) = names) .productionNames
  | .production index expectations =>
    match g.productions[index]? with
    | some p => checkAll (ProductionExpectation.check [.production index] p) expectations
    | none => .error ⟨[], .productionIndex index g.productions.length⟩

/-- Whether a grammar is as expected, or the first mismatch. -/
def Grammar.meets (g : Grammar) (expectations : List GrammarExpectation) : Except Mismatch Unit :=
  checkAll (GrammarExpectation.check g) expectations

end GrammarFile
