import GrammarFile.Source.Position
import GrammarFile.Token.Basic

/-!
# The tree of a grammar file

A grammar file has a prolog (the start symbol, declarations, then scanner states) and a definition
(the productions after `%%`). Every node carries the range of the text it stands for.

The bodies of productions nest: a factor is a symbol, or a body between brackets. `AlternationOf` and
`AlternationsOf` say what a body is made of for any sort of factor, and `Factor` ties the knot. An
alternation without factors stands only at the end of a body, for the bare `|` written there.
-/

namespace GrammarFile

/-- A name. -/
structure Identifier where
  name : String
  range : Range
  deriving DecidableEq, Inhabited

/-- Names between commas. -/
structure IdentifierList where
  identifiers : List Identifier
  range : Range
  deriving DecidableEq, Inhabited

/-- A type: names between `::`. -/
structure TypeName where
  segments : List Identifier
  range : Range
  deriving DecidableEq, Inhabited

/-- A literal, whose text includes the delimiters. -/
structure Literal where
  kind : LiteralKind
  text : String
  range : Range
  deriving DecidableEq, Inhabited

/-- Whether a look-ahead asks for its operand or rules it out. -/
inductive LookAheadKind where
  | positive
  | negative
  deriving DecidableEq, Inhabited

/-- A condition on the text after a terminal: `?=` or `?!` and a literal. -/
structure LookAhead where
  kind : LookAheadKind
  literal : Literal
  range : Range
  deriving DecidableEq, Inhabited

/-- A terminal: a literal with an optional look-ahead. -/
structure Terminal where
  literal : Literal
  lookAhead : Option LookAhead
  range : Range
  deriving DecidableEq, Inhabited

/-- `@` and a name. -/
structure MemberName where
  identifier : Identifier
  range : Range
  deriving DecidableEq, Inhabited

/-- `:` and a type. -/
structure TypeAnnotation where
  typeName : TypeName
  range : Range
  deriving DecidableEq, Inhabited

/-- What a symbol contributes to the generated syntax tree. -/
inductive TreeControlKind where
  /-- `^`: nothing. -/
  | cut
  /-- A member of the given name, and possibly of a type of its own. -/
  | member (name : MemberName) (type : Option TypeAnnotation)
  /-- A type of its own. -/
  | typed (type : TypeAnnotation)
  deriving DecidableEq, Inhabited

/-- What is written after a symbol about the generated syntax tree. -/
structure TreeControl where
  kind : TreeControlKind
  range : Range
  deriving DecidableEq, Inhabited

/-- What a symbol stands for. -/
inductive SymbolKind where
  | nonTerminal (identifier : Identifier)
  | terminal (terminal : Terminal)
  /-- A terminal that the scanner knows only in the given states. -/
  | terminalIn (states : IdentifierList) (terminal : Terminal)
  deriving DecidableEq, Inhabited

/-- A symbol in a body. -/
structure Symbol where
  kind : SymbolKind
  control : Option TreeControl
  range : Range
  deriving DecidableEq, Inhabited

/-- A sequence of factors. -/
structure AlternationOf (φ : Type) where
  factors : List φ
  range : Range
  deriving DecidableEq

/-- The alternations of a body, between `|`. -/
structure AlternationsOf (φ : Type) where
  alternations : List (AlternationOf φ)
  range : Range
  deriving DecidableEq

/-- The three sorts of brackets. -/
inductive BracketKind where
  | group
  | optional
  | repetition
  deriving DecidableEq, Inhabited

/-- A part of an alternation: brackets around a body, which may be missing, or a symbol. -/
inductive Factor where
  | bracketed (kind : BracketKind) (body : Option (AlternationsOf Factor)) (range : Range)
  | symbol (symbol : Symbol)

mutual

/-- Whether two factors are the same, ranges included. -/
def Factor.decEq : (a b : Factor) → Decidable (a = b)
  | .symbol s, .symbol s' => decidable_of_iff (s = s') (by simp)
  | .symbol _, .bracketed _ _ _ => isFalse nofun
  | .bracketed _ _ _, .symbol _ => isFalse nofun
  | .bracketed kind none r, .bracketed kind' none r' =>
    decidable_of_iff (kind = kind' ∧ r = r') (by simp)
  | .bracketed _ none _, .bracketed _ (some _) _ => isFalse nofun
  | .bracketed _ (some _) _, .bracketed _ none _ => isFalse nofun
  | .bracketed kind (some ⟨as, inner⟩) r, .bracketed kind' (some ⟨as', inner'⟩) r' =>
    have := decEqAlternations as as'
    decidable_of_iff (kind = kind' ∧ (as = as' ∧ inner = inner') ∧ r = r') (by simp)

/-- Whether two lists of alternations are the same. -/
def decEqAlternations : (as bs : List (AlternationOf Factor)) → Decidable (as = bs)
  | [], [] => isTrue rfl
  | [], _ :: _ => isFalse nofun
  | _ :: _, [] => isFalse nofun
  | ⟨factors, r⟩ :: as, ⟨factors', r'⟩ :: bs =>
    have := decEqFactors factors factors'
    have := decEqAlternations as bs
    decidable_of_iff ((factors = factors' ∧ r = r') ∧ as = bs) (by simp)

/-- Whether two lists of factors are the same. -/
def decEqFactors : (as bs : List Factor) → Decidable (as = bs)
  | [], [] => isTrue rfl
  | [], _ :: _ => isFalse nofun
  | _ :: _, [] => isFalse nofun
  | a :: as, b :: bs =>
    have := a.decEq b
    have := decEqFactors as bs
    decidable_of_iff (a = b ∧ as = bs) (by simp)

end

instance : DecidableEq Factor := Factor.decEq

/-- A sequence of factors as it stands in a tree. -/
abbrev Alternation := AlternationOf Factor

/-- A body as it stands in a tree. -/
abbrev Alternations := AlternationsOf Factor

/-- A production. A pipe before the first alternation is remembered and means nothing. -/
structure Production where
  name : Identifier
  leadingPipe : Bool
  body : Option Alternations
  range : Range
  deriving DecidableEq

/-- What `%on` does when one of its terminals is met. -/
inductive StateSwitchKind where
  | enter (target : Identifier)
  | push (target : Identifier)
  | pop
  deriving DecidableEq, Inhabited

/-- A change of scanner state. -/
structure StateSwitch where
  kind : StateSwitchKind
  range : Range
  deriving DecidableEq, Inhabited

/-- What a directive tells the scanner. -/
inductive DirectiveKind where
  | lineComment (literal : Literal)
  | blockComment (first last : Literal)
  | autoNewlineOff
  | autoWsOff
  | on (terminals : IdentifierList) (switch : StateSwitch)
  | allowUnmatched
  deriving DecidableEq, Inhabited

/-- A directive for the scanner. -/
structure Directive where
  kind : DirectiveKind
  range : Range
  deriving DecidableEq, Inhabited

/-- What a declaration declares. -/
inductive DeclarationKind where
  | title (literal : Literal)
  | comment (literal : Literal)
  | userType (shown : Identifier) (type : TypeName)
  | ntType (name : Identifier) (type : TypeName)
  | tType (type : TypeName)
  | grammarType (literal : Literal)
  | scanner (directive : Directive)
  deriving DecidableEq, Inhabited

/-- A declaration of the prolog. -/
structure Declaration where
  kind : DeclarationKind
  range : Range
  deriving DecidableEq, Inhabited

/-- A scanner state with its own directives. -/
structure ScannerState where
  name : Identifier
  directives : List Directive
  range : Range
  deriving DecidableEq, Inhabited

/-- `%start` and a name. -/
structure StartDeclaration where
  identifier : Identifier
  range : Range
  deriving DecidableEq, Inhabited

/-- Everything before `%%`. -/
structure Prolog where
  start : StartDeclaration
  declarations : List Declaration
  states : List ScannerState
  range : Range
  deriving DecidableEq, Inhabited

/-- `%%` and the productions. -/
structure Definition where
  productions : List Production
  range : Range
  deriving DecidableEq

/-- A whole grammar file. -/
structure Grammar where
  prolog : Prolog
  definition : Definition
  range : Range
  deriving DecidableEq

namespace LiteralKind

/-- The name of a kind of literal. -/
def name : LiteralKind → String
  | string => "string"
  | rawString => "raw_string"
  | regex => "regex"

end LiteralKind

namespace Literal

/-- The text between the delimiters, escapes as they are written. -/
def content (l : Literal) : String :=
  String.ofList (l.text.toList.drop 1).dropLast

end Literal

namespace TypeName

/-- The last name of a type. -/
def last? (t : TypeName) : Option String :=
  t.segments.getLast?.map (·.name)

end TypeName

namespace TreeControl

/-- Whether a symbol is left out of the generated tree. -/
def isCut (c : TreeControl) : Bool :=
  match c.kind with
  | .cut => true
  | _ => false

/-- The name of the member that holds a symbol. -/
def memberName? (c : TreeControl) : Option String :=
  match c.kind with
  | .member name _ => some name.identifier.name
  | _ => none

/-- The type given to a symbol. -/
def typeName? (c : TreeControl) : Option TypeName :=
  match c.kind with
  | .member _ (some type) | .typed type => some type.typeName
  | _ => none

end TreeControl

namespace Symbol

/-- The terminal that a symbol stands for. -/
def terminal? (s : Symbol) : Option Terminal :=
  match s.kind with
  | .nonTerminal _ => none
  | .terminal t | .terminalIn _ t => some t

end Symbol

namespace BracketKind

/-- The opening bracket. -/
def left : BracketKind → Mark
  | group => .leftParen
  | optional => .leftBracket
  | repetition => .leftBrace

/-- The closing bracket. -/
def right : BracketKind → Mark
  | group => .rightParen
  | optional => .rightBracket
  | repetition => .rightBrace

/-- The name of a sort of brackets. -/
def name : BracketKind → String
  | group => "group"
  | optional => "optional"
  | repetition => "repeat"

end BracketKind

namespace AlternationOf

variable {φ : Type}

/-- The alternation for a bare `|` at the end of a body. -/
def empty (range : Range) : AlternationOf φ :=
  ⟨[], range⟩

/-- Whether an alternation has no factors. -/
def isEmpty (a : AlternationOf φ) : Bool :=
  a.factors.isEmpty

end AlternationOf

namespace AlternationsOf

variable {φ : Type}

/-- Whether a body ends with a bare `|`. -/
def hasEmptyAlternation (b : AlternationsOf φ) : Bool :=
  b.alternations.getLast?.any (·.isEmpty)

end AlternationsOf

namespace Factor

/-- The range of a factor. -/
def range : Factor → Range
  | bracketed _ _ r => r
  | symbol s => s.range

end Factor

namespace StateSwitch

/-- The state that is switched to. -/
def target? (s : StateSwitch) : Option Identifier :=
  match s.kind with
  | .enter target | .push target => some target
  | .pop => none

/-- The keyword of a change of state. -/
def keyword (s : StateSwitch) : Mark :=
  match s.kind with
  | .enter _ => .enter
  | .push _ => .push
  | .pop => .pop

end StateSwitch

namespace Directive

/-- The keyword that a directive starts with. -/
def keyword (d : Directive) : Mark :=
  match d.kind with
  | .lineComment _ => .lineComment
  | .blockComment _ _ => .blockComment
  | .autoNewlineOff => .autoNewlineOff
  | .autoWsOff => .autoWsOff
  | .on _ _ => .on
  | .allowUnmatched => .allowUnmatched

/-- The literals of a comment directive. -/
def literals (d : Directive) : List Literal :=
  match d.kind with
  | .lineComment l => [l]
  | .blockComment first last => [first, last]
  | _ => []

end Directive

namespace Declaration

/-- The keyword that a declaration starts with. -/
def keyword (d : Declaration) : Mark :=
  match d.kind with
  | .title _ => .title
  | .comment _ => .comment
  | .userType _ _ => .userType
  | .ntType _ _ => .ntType
  | .tType _ => .tType
  | .grammarType _ => .grammarType
  | .scanner directive => directive.keyword

end Declaration

namespace Production

/-- The alternations of a production, none where it has no body. -/
def alternations (p : Production) : List Alternation :=
  p.body.elim [] (·.alternations)

end Production

namespace Grammar

/-- The name of the start symbol. -/
def startSymbol (g : Grammar) : String :=
  g.prolog.start.identifier.name

/-- The productions of a grammar, in the order of the file. -/
def productions (g : Grammar) : List Production :=
  g.definition.productions

/-- The first scanner state of the given name. -/
def state? (g : Grammar) (name : String) : Option ScannerState :=
  g.prolog.states.find? (·.name.name == name)

/-- The productions of the given name, in the order of the file. -/
def productionsNamed (g : Grammar) (name : String) : List Production :=
  g.productions.filter (·.name.name == name)

end Grammar

end GrammarFile
