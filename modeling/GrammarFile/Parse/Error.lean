import GrammarFile.Source.Position
import GrammarFile.Token.Basic

/-!
# Parse errors

A parse error blames one token, or the end of the input: either no rule goes on with it, or it is an
opening bracket with too many brackets open around it. `TokenKind.sort` puts kinds into the order of
messages and drops repeats.
-/

namespace GrammarFile

/-- The given kinds in declaration order, each once. -/
def TokenKind.sort (kinds : List TokenKind) : List TokenKind :=
  TokenKind.all.filter kinds.contains

/-- A token with the range of its text. -/
structure LocatedToken where
  token : Token
  range : Range
  deriving DecidableEq, Inhabited

/-- Why a token was refused. -/
inductive Fault where
  /-- A token of one of these kinds would have been accepted. -/
  | unexpected (expected : List TokenKind)
  /-- The token opens a bracket inside this many open brackets. -/
  | tooDeep (limit : Nat)
  deriving DecidableEq, Inhabited

/-- A refused token, which is missing at the end of the input, and its range. -/
structure ParseError where
  fault : Fault
  found : Option Token
  range : Range
  deriving DecidableEq, Inhabited

namespace Fault

/-- The kinds that would have been accepted. -/
def expected : Fault → List TokenKind
  | unexpected kinds => kinds
  | tooDeep _ => []

/-- The number of brackets that may be open around another. -/
def nestingLimit? : Fault → Option Nat
  | unexpected _ => none
  | tooDeep limit => some limit

end Fault

/-- The kinds that would have been accepted, in words. -/
def describeExpected : List TokenKind → String
  | [] => "nothing"
  | [kind] => kind.describe
  | kinds => "one of " ++ ", ".intercalate (kinds.map (·.describe))

namespace ParseError

/-- The error that none of the given kinds was found. -/
def unexpected (kinds : List TokenKind) (found : Option Token) (range : Range) : ParseError :=
  ⟨.unexpected (TokenKind.sort kinds), found, range⟩

/-- The wording of a parse error. -/
def message (e : ParseError) : String :=
  match e.fault with
  | .tooDeep limit => "groups nested deeper than " ++ toString limit ++ " levels"
  | .unexpected kinds =>
    "expected " ++ describeExpected kinds ++ ", found " ++ e.found.elim "end of input" (·.describe)

end ParseError

end GrammarFile
