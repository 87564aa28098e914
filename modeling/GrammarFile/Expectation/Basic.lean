import GrammarFile.Tree.Display

/-!
# Expectations

What someone may expect of a tree: of the grammar, of its scanner states and productions, and of their
parts, each part by its index. A `Mismatch` says which expectation fails first and where.
-/

namespace GrammarFile

/-! ### What can be expected -/

/-- What can be expected of a scanner state. -/
inductive StateExpectation where
  | name (name : String)
  | directiveKeywords (keywords : List String)
  /-- The directives as they are displayed. -/
  | directives (texts : List String)

/-- What can be expected of a symbol. -/
inductive SymbolExpectation where
  | nonTerminal (name : String)
  | literal (kind : LiteralKind) (text : String)
  | lookAhead (kind : LookAheadKind) (text : String)
  | states (names : List String)
  | cut
  | member (name : String)
  | userType (text : String)
  /-- Nothing is written after the symbol. -/
  | noControl

mutual

/-- What can be expected of a body between brackets. -/
inductive BodyExpectation where
  | absent
  | alternativeCount (count : Nat)
  | alternative (index : Nat) (expectations : List AlternationExpectation)

/-- What can be expected of an alternation. -/
inductive AlternationExpectation where
  | factorCount (count : Nat)
  | empty
  | text (text : String)
  | factor (index : Nat) (expectations : List FactorExpectation)

/-- What can be expected of a factor. -/
inductive FactorExpectation where
  | symbol (expectation : SymbolExpectation)
  | brackets (kind : BracketKind) (expectations : List BodyExpectation)

end

/-- What can be expected of a production. -/
inductive ProductionExpectation where
  | name (name : String)
  | leadingPipe (present : Bool)
  | emptyBody
  | text (text : String)
  | alternativeCount (count : Nat)
  | alternative (index : Nat) (expectations : List AlternationExpectation)

/-- What can be expected of a grammar. -/
inductive GrammarExpectation where
  | startSymbol (name : String)
  | declarationCount (count : Nat)
  | declarationKeywords (keywords : List String)
  | stateCount (count : Nat)
  | state (index : Nat) (expectations : List StateExpectation)
  | productionCount (count : Nat)
  | productionNames (names : List String)
  | production (index : Nat) (expectations : List ProductionExpectation)

/-! ### What can fail -/

/-- A step on the way to a part of a tree. -/
inductive PathStep where
  | state (index : Nat)
  | production (index : Nat)
  | alternative (index : Nat)
  | factor (index : Nat)
  | brackets (kind : BracketKind)
  deriving DecidableEq, Inhabited

/-- Why a tree is not as expected. -/
inductive MismatchCause where
  | startSymbol (expected found : String)
  | declarationCount (expected : Nat) (keywords : List String)
  | declarationKeywords
  | stateCount (expected found : Nat)
  | stateIndex (index count : Nat)
  | productionCount (expected : Nat) (names : List String)
  | productionNames
  | productionIndex (index count : Nat)
  | stateName (expected found : String)
  | directiveKeywords
  | directives
  | productionName (expected found : String)
  | leadingPipe (expected found : Bool)
  /-- A production has a body. -/
  | productionBody (text : String)
  | productionText
  | alternativeCount (expected : Nat) (texts : List String)
  | alternativeIndex (index count : Nat)
  | factorCount (expected found : Nat) (text : String)
  | notEmpty (text : String)
  | alternativeText
  | factorIndex (index count : Nat)
  /-- There are brackets of another sort, or a symbol, in place of brackets. -/
  | notBrackets (expected : BracketKind) (found text : String)
  /-- There are brackets in place of a symbol. -/
  | notSymbol (found : BracketKind) (text : String)
  | nonTerminal (expected found : String)
  | noLiteral (text : String)
  | literal
  | noLookAhead (text : String)
  | lookAhead
  | noStates (text : String)
  | states
  | notCut (text : String)
  | member (text : String)
  | userType (text : String)
  | control (text : String)
  /-- Brackets have a body. -/
  | bracketsBody
  deriving DecidableEq, Inhabited

/-- The first expectation that fails, and the part of the tree that it is about. -/
structure Mismatch where
  path : List PathStep
  cause : MismatchCause
  deriving DecidableEq, Inhabited

/-! ### Wordings -/

/-- A step of a path. -/
def PathStep.display : PathStep → String
  | state index => "scanner_states[" ++ toString index ++ "]"
  | production index => "productions[" ++ toString index ++ "]"
  | alternative index => "alternatives[" ++ toString index ++ "]"
  | factor index => "factors[" ++ toString index ++ "]"
  | brackets kind => kind.name

/-- An expected text and another that was found. -/
def expectedFound (what expected found : String) : String :=
  "Expected " ++ what ++ " '" ++ expected ++ "', found '" ++ found ++ "'"

/-- An index that is too large. -/
def indexTooLarge (what : String) (index : Nat) (reason : String) : String :=
  what ++ " index " ++ toString index ++ " out of bounds (" ++ reason ++ ")"

/-- An expected number of things, the number that was found, and the things. -/
def countDiffers (what separator : String) (expected : Nat) (found : List String) : String :=
  "Expected " ++ toString expected ++ " " ++ what ++ ", found " ++ toString found.length ++ ": [" ++
    separator.intercalate found ++ "]"

/-- The wording of a cause. -/
def MismatchCause.message : MismatchCause → String
  | startSymbol expected found => expectedFound "start symbol" expected found
  | declarationCount expected keywords => countDiffers "declarations" ", " expected keywords
  | declarationKeywords => "Declaration keywords differ"
  | stateCount expected found =>
    "Expected " ++ toString expected ++ " scanner states, found " ++ toString found
  | stateIndex index count =>
    indexTooLarge "Scanner state" index ("grammar has " ++ toString count ++ " states")
  | productionCount expected names => countDiffers "productions" ", " expected names
  | productionNames => "Production names differ"
  | productionIndex index count =>
    indexTooLarge "Production" index ("grammar has " ++ toString count ++ " productions")
  | stateName expected found => expectedFound "state name" expected found
  | directiveKeywords => "Directive keywords differ"
  | directives => "Directives differ"
  | productionName expected found => expectedFound "production name" expected found
  | leadingPipe expected found =>
    "Expected leading_pipe " ++ toString expected ++ ", found " ++ toString found
  | productionBody text => "Expected an empty body, found '" ++ text ++ "'"
  | productionText => "Production text differs"
  | alternativeCount expected texts => countDiffers "alternatives" " | " expected texts
  | alternativeIndex index count =>
    indexTooLarge "Alternative" index (toString count ++ " alternatives")
  | factorCount expected found text =>
    "Expected " ++ toString expected ++ " factors, found " ++ toString found ++ ": '" ++ text ++ "'"
  | notEmpty text => "Expected an empty alternative, found '" ++ text ++ "'"
  | alternativeText => "Alternative text differs"
  | factorIndex index count => indexTooLarge "Factor" index (toString count ++ " factors")
  | notBrackets expected found text =>
    "Expected " ++ expected.name ++ ", found " ++ found ++ " '" ++ text ++ "'"
  | notSymbol found text => "Expected a symbol, found " ++ found.name ++ " '" ++ text ++ "'"
  | nonTerminal expected found => expectedFound "non-terminal" expected found
  | noLiteral text => "Expected a token literal, found '" ++ text ++ "'"
  | literal => "Token literal differs"
  | noLookAhead text => "Expected a look-ahead, found '" ++ text ++ "'"
  | lookAhead => "Look-ahead differs"
  | noStates text => "Expected a token with states, found '" ++ text ++ "'"
  | states => "Scanner states differ"
  | notCut text => "Expected a cut, found '" ++ text ++ "'"
  | member text => "Member name differs in '" ++ text ++ "'"
  | userType text => "User type differs in '" ++ text ++ "'"
  | control text => "Expected no ast_control in '" ++ text ++ "'"
  | bracketsBody => "Expected an empty body"

/-- The wording of a mismatch, with the path to the part unless it is the grammar as a whole. -/
def Mismatch.message (m : Mismatch) : String :=
  (if m.path.isEmpty then "" else ".".intercalate (m.path.map (·.display)) ++ ": ") ++ m.cause.message

end GrammarFile
