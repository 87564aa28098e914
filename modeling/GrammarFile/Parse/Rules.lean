import GrammarFile.Parse.Rule
import GrammarFile.Tree.Basic

/-!
# The rules of grammar files

```text
file                ::= prolog definition
prolog              ::= start_declaration declaration* scanner_state*
start_declaration   ::= "%start" identifier
declaration         ::= "%title" string | "%comment" string | "%user_type" identifier "=" type_name
                      | "%nt_type" identifier "=" type_name | "%t_type" type_name
                      | "%grammar_type" raw_string | directive
directive           ::= "%line_comment" literal | "%block_comment" literal literal
                      | "%auto_newline_off" | "%auto_ws_off" | "%allow_unmatched"
                      | "%on" identifier_list state_switch
state_switch        ::= "%enter" identifier | "%push" identifier | "%pop"
scanner_state       ::= "%scanner" identifier "{" directive* "}"
definition          ::= "%%" production+
production          ::= identifier ":" [ ["|"] alternations ] ";"
alternations        ::= alternation ("|" alternation)* ["|"]
alternation         ::= factor+
factor              ::= "(" [alternations] ")" | "[" [alternations] "]" | "{" [alternations] "}" | symbol
symbol              ::= (identifier | terminal | "<" identifier_list ">" terminal) [tree_control]
terminal            ::= literal [("?=" | "?!") literal]
tree_control        ::= "^" | "@" identifier [":" type_name] | ":" type_name
type_name           ::= identifier ("::" identifier)*
identifier_list     ::= identifier ("," identifier)*
```

Every rule but `file`, `prolog` and `definition` is a `Rule` here; those three also have to go on
after an error and are read by `parse`. Brackets nest to a limit, so `factor` is indexed by the number
of brackets that may still be opened.
-/

namespace GrammarFile

/-- The number of brackets that may be open at once. -/
def maxNesting : Nat := 64

namespace Rules

open Rule

/-- One mark. -/
def mark (m : Mark) : Rule true LocatedToken :=
  token (.mark m)

/-- A name. -/
def identifier : Rule true Identifier :=
  map (fun t => ⟨t.token.text, t.range⟩) (token .identifier)

/-- A literal of one kind. -/
def literalOf (kind : LiteralKind) : Rule true Literal :=
  map (fun t => ⟨kind, t.token.text, t.range⟩) (token (.literal kind))

/-- A literal of any kind. -/
def literal : Rule true Literal :=
  choice (literalOf .string) (choice (literalOf .rawString) (literalOf .regex))

/-- Names between `::`. -/
def typeName : Rule true TypeName :=
  ranged TypeName.mk (separated (mark .doubleColon) identifier)

/-- Names between commas. -/
def identifierList : Rule true IdentifierList :=
  ranged IdentifierList.mk (separated (mark .comma) identifier)

/-! ### Symbols -/

/-- The operator of a look-ahead. -/
def lookAheadKind : Rule true LookAheadKind :=
  choice (map (fun _ => .positive) (mark .positiveLookahead))
    (map (fun _ => .negative) (mark .negativeLookahead))

/-- A look-ahead. -/
def lookAhead : Rule true LookAhead :=
  ranged (fun (kind, literal) range => ⟨kind, literal, range⟩) (seq lookAheadKind literal)

/-- A literal and possibly a look-ahead. -/
def terminal : Rule true Terminal :=
  ranged (fun (literal, lookAhead) range => ⟨literal, lookAhead, range⟩)
    (seq literal (optional lookAhead))

/-- `:` and a type. -/
def typeAnnotation : Rule true TypeAnnotation :=
  ranged TypeAnnotation.mk (skipThen (mark .colon) typeName)

/-- `@` and a name. -/
def memberName : Rule true MemberName :=
  ranged MemberName.mk (skipThen (mark .atSign) identifier)

/-- What may follow a symbol. -/
def treeControl : Rule true TreeControl :=
  ranged TreeControl.mk
    (choice (map (fun _ => .cut) (mark .caret))
      (choice (map (fun (name, type) => .member name type) (seq memberName (optional typeAnnotation)))
        (map .typed typeAnnotation)))

/-- A terminal that the scanner knows only in some states. -/
def terminalIn : Rule true SymbolKind :=
  map (fun (states, terminal) => .terminalIn states terminal)
    (seq (skipThen (mark .lessThan) (thenSkip identifierList (mark .greaterThan))) terminal)

/-- What a symbol stands for. -/
def symbolKind : Rule true SymbolKind :=
  choice (map .nonTerminal identifier) (choice (map .terminal terminal) terminalIn)

/-- A symbol. -/
def symbol : Rule true Symbol :=
  ranged (fun (kind, control) range => ⟨kind, control, range⟩) (seq symbolKind (optional treeControl))

/-! ### Bodies -/

/-- At least one factor. -/
def alternation {φ : Type} (factor : Rule true φ) : Rule true (AlternationOf φ) :=
  ranged AlternationOf.mk (oneOrMore factor)

/-- An alternation after a pipe, or the empty one that a bare pipe ends the body with. -/
def afterPipe {φ : Type} : LocatedToken × Option (AlternationOf φ) → Step (AlternationOf φ)
  | (_, .some alternation) => .more alternation
  | (pipe, .none) => .last (.empty pipe.range.endPoint)

/-- Alternations between pipes. -/
def alternations {φ : Type} (factor : Rule true φ) : Rule true (AlternationsOf φ) :=
  ranged (fun (head, tail) range => ⟨head :: tail, range⟩)
    (seq (alternation factor)
      (iterate (map afterPipe (seq (mark .pipe) (optional (alternation factor))))))

/-- Brackets around a body or around nothing. -/
def bracketed (kind : BracketKind) (body : Rule true Alternations) : Rule true Factor :=
  ranged (fun body range => .bracketed kind body range)
    (skipThen (mark kind.left) (thenSkip (optional body) (mark kind.right)))

/-- The kinds of the opening brackets. -/
def openingBrackets : List TokenKind :=
  [BracketKind.group, .optional, .repetition].map fun kind => .mark kind.left

/-- A factor, with at most the given number of brackets open inside each other. -/
def factor : (levels : Nat) → Rule true Factor
  | 0 => choice (tooDeep maxNesting openingBrackets) (map .symbol symbol)
  | levels + 1 =>
    let body := alternations (factor levels)
    choice (bracketed .group body)
      (choice (bracketed .optional body) (choice (bracketed .repetition body) (map .symbol symbol)))

/-- The body of a production, and whether a pipe leads it. -/
def productionBody (levels : Nat) : Rule false (Bool × Option Alternations) :=
  let body := alternations (factor levels)
  choice (map (fun body => (true, .some body)) (skipThen (mark .pipe) body))
    (choice (map (fun body => (false, .some body)) body) (nothing (false, .none)))

/-- A production, whose brackets nest to the given number of levels. -/
def production (levels : Nat) : Rule true Production :=
  ranged (fun (name, leadingPipe, body) range => ⟨name, leadingPipe, body, range⟩)
    (seq identifier (skipThen (mark .colon) (thenSkip (productionBody levels) (mark .semicolon))))

/-! ### The prolog -/

/-- A change of scanner state. -/
def stateSwitch : Rule true StateSwitch :=
  ranged StateSwitch.mk
    (choice (map .enter (skipThen (mark .enter) identifier))
      (choice (map .push (skipThen (mark .push) identifier)) (map (fun _ => .pop) (mark .pop))))

/-- A directive for the scanner. -/
def directive : Rule true Directive :=
  ranged Directive.mk
    (choice (map .lineComment (skipThen (mark .lineComment) literal))
      (choice (map (fun (first, last) => .blockComment first last)
          (skipThen (mark .blockComment) (seq literal literal)))
        (choice (map (fun _ => .autoNewlineOff) (mark .autoNewlineOff))
          (choice (map (fun _ => .autoWsOff) (mark .autoWsOff))
            (choice (map (fun (terminals, switch) => .on terminals switch)
                (skipThen (mark .on) (seq identifierList stateSwitch)))
              (map (fun _ => .allowUnmatched) (mark .allowUnmatched)))))))

/-- A name, `=` and a type. -/
def typeDefinition : Rule true (Identifier × TypeName) :=
  seq identifier (skipThen (mark .equals) typeName)

/-- A declaration. -/
def declaration : Rule true Declaration :=
  ranged Declaration.mk
    (choice (map .title (skipThen (mark .title) (literalOf .string)))
      (choice (map .comment (skipThen (mark .comment) (literalOf .string)))
        (choice (map (fun (name, type) => .userType name type) (skipThen (mark .userType) typeDefinition))
          (choice (map (fun (name, type) => .ntType name type) (skipThen (mark .ntType) typeDefinition))
            (choice (map .tType (skipThen (mark .tType) typeName))
              (choice (map .grammarType (skipThen (mark .grammarType) (literalOf .rawString)))
                (map .scanner directive)))))))

/-- A scanner state. -/
def scannerState : Rule true ScannerState :=
  ranged (fun (name, directives) range => ⟨name, directives, range⟩)
    (skipThen (mark .scanner)
      (seq identifier
        (skipThen (mark .leftBrace) (thenSkip (many directive) (mark .rightBrace)))))

/-- `%start` and a name. -/
def startDeclaration : Rule true StartDeclaration :=
  ranged StartDeclaration.mk (skipThen (mark .start) identifier)

end Rules

end GrammarFile
