import GrammarFile.Token.Basic

/-!
# The rule table and its derivations

The rules of grammar files as a table of phrases, apart from how files are read: `RuleName.phrase` gives
the right-hand side of each rule. Nothing in a phrase decides anything. A part that may be missing, any
number of parts and a choice between parts stand there as such.

A `Derivation` is a tree over that table, with a token at each leaf and a rule at each other node, and
`Phrase.Derives` says which rows of trees a phrase stands for. `Derivation.tokens` reads the leaves off
from left to right, and `Derivation.nesting` counts how deep brackets stand inside each other.
-/

namespace GrammarFile

/-- The rules of the table. -/
inductive RuleName where
  | file
  | prolog
  | startDeclaration
  | declaration
  | directive
  | stateSwitch
  | scannerState
  | definition
  | production
  | alternations
  | alternation
  | factor
  | group
  | optional
  | repetition
  | symbol
  | nonTerminal
  | plainTerminal
  | terminalIn
  | terminal
  | lookAhead
  | treeControl
  | memberName
  | typeAnnotation
  | typeName
  | identifierList
  deriving DecidableEq

/-- A right-hand side of a rule. -/
inductive Phrase where
  /-- One token of the given kind. -/
  | token (kind : TokenKind)
  /-- What the named rule stands for. -/
  | rule (name : RuleName)
  /-- One phrase, then another. -/
  | seq (first second : Phrase)
  /-- One phrase or another. -/
  | alt (first second : Phrase)
  /-- A phrase, or nothing. -/
  | opt (phrase : Phrase)
  /-- A phrase any number of times. -/
  | star (phrase : Phrase)
  /-- A phrase at least once. -/
  | plus (phrase : Phrase)

namespace Phrase

/-- One mark. -/
def mark (m : Mark) : Phrase :=
  token (.mark m)

/-- A name. -/
def identifier : Phrase :=
  token .identifier

/-- A literal of any kind. -/
def literal : Phrase :=
  alt (token (.literal .string)) (alt (token (.literal .rawString)) (token (.literal .regex)))

/-- A name, `=` and a type. -/
def typeDefinition : Phrase :=
  seq identifier (seq (mark .equals) (rule .typeName))

/-- A body that may be missing, between two marks. -/
def bracketed (left right : Mark) : Phrase :=
  seq (mark left) (seq (opt (rule .alternations)) (mark right))

end Phrase

open Phrase in
/-- The table: what each rule stands for. -/
def RuleName.phrase : RuleName → Phrase
  | file => seq (rule prolog) (rule definition)
  | prolog => seq (rule startDeclaration) (seq (star (rule declaration)) (star (rule scannerState)))
  | startDeclaration => seq (mark .start) identifier
  | declaration =>
    alt (seq (mark .title) (token (.literal .string)))
      (alt (seq (mark .comment) (token (.literal .string)))
        (alt (seq (mark .userType) typeDefinition)
          (alt (seq (mark .ntType) typeDefinition)
            (alt (seq (mark .tType) (rule typeName))
              (alt (seq (mark .grammarType) (token (.literal .rawString)))
                (rule directive))))))
  | directive =>
    alt (seq (mark .lineComment) literal)
      (alt (seq (mark .blockComment) (seq literal literal))
        (alt (mark .autoNewlineOff)
          (alt (mark .autoWsOff)
            (alt (mark .allowUnmatched)
              (seq (mark .on) (seq (rule identifierList) (rule stateSwitch)))))))
  | stateSwitch => alt (seq (mark .enter) identifier) (alt (seq (mark .push) identifier) (mark .pop))
  | scannerState =>
    seq (mark .scanner)
      (seq identifier (seq (mark .leftBrace) (seq (star (rule directive)) (mark .rightBrace))))
  | definition => seq (mark .percentPercent) (plus (rule production))
  | production =>
    seq identifier
      (seq (mark .colon)
        (seq (opt (alt (rule alternations) (seq (mark .pipe) (rule alternations)))) (mark .semicolon)))
  | alternations =>
    seq (rule alternation) (seq (star (seq (mark .pipe) (rule alternation))) (opt (mark .pipe)))
  | alternation => plus (rule factor)
  | factor => alt (rule group) (alt (rule repetition) (alt (rule optional) (rule symbol)))
  | group => bracketed .leftParen .rightParen
  | optional => bracketed .leftBracket .rightBracket
  | repetition => bracketed .leftBrace .rightBrace
  | symbol => alt (rule nonTerminal) (alt (rule plainTerminal) (rule terminalIn))
  | nonTerminal => seq identifier (opt (rule treeControl))
  | plainTerminal => seq (rule terminal) (opt (rule treeControl))
  | terminalIn =>
    seq (mark .lessThan)
      (seq (rule identifierList)
        (seq (mark .greaterThan) (seq (rule terminal) (opt (rule treeControl)))))
  | terminal => seq literal (opt (rule lookAhead))
  | lookAhead => seq (alt (mark .positiveLookahead) (mark .negativeLookahead)) literal
  | treeControl =>
    alt (mark .caret) (alt (seq (rule memberName) (opt (rule typeAnnotation))) (rule typeAnnotation))
  | memberName => seq (mark .atSign) identifier
  | typeAnnotation => seq (mark .colon) (rule typeName)
  | typeName => seq identifier (star (seq (mark .doubleColon) identifier))
  | identifierList => seq identifier (star (seq (mark .comma) identifier))

/-- The number of brackets that a rule opens around its parts. -/
def RuleName.levels : RuleName → Nat
  | group | optional | repetition => 1
  | _ => 0

/-! ### Derivations -/

/-- A tree over the table: a token, or a rule with its parts in a row. -/
inductive Derivation where
  | leaf (token : Token)
  | node (name : RuleName) (parts : List Derivation)

/-- The leaf of a mark. -/
def Derivation.mark (m : Mark) : Derivation :=
  .leaf (.mark m)

/-- The parts of a node in a row. -/
def Derivation.parts : Derivation → List Derivation
  | leaf _ => []
  | node _ parts => parts

mutual

/-- The tokens at the leaves, from left to right. -/
def Derivation.tokens : Derivation → List Token
  | .leaf token => [token]
  | .node _ parts => tokensOfParts parts

/-- The tokens of some parts in a row. -/
def tokensOfParts : List Derivation → List Token
  | [] => []
  | part :: parts => part.tokens ++ tokensOfParts parts

end

mutual

/-- The greatest number of brackets that stand inside each other. -/
def Derivation.nesting : Derivation → Nat
  | .leaf _ => 0
  | .node name parts => nestingOfParts parts + name.levels

/-- The greatest nesting of some parts. -/
def nestingOfParts : List Derivation → Nat
  | [] => 0
  | part :: parts => max part.nesting (nestingOfParts parts)

end

/-- Which rows of trees a phrase stands for. -/
inductive Phrase.Derives : Phrase → List Derivation → Prop where
  | token {kind : TokenKind} {t : Token} : t.kind = kind → Derives (.token kind) [.leaf t]
  | rule {name : RuleName} {parts : List Derivation} :
      Derives name.phrase parts → Derives (.rule name) [.node name parts]
  | seq {a b : Phrase} {ds es : List Derivation} :
      Derives a ds → Derives b es → Derives (.seq a b) (ds ++ es)
  | left {a b : Phrase} {ds : List Derivation} : Derives a ds → Derives (.alt a b) ds
  | right {a b : Phrase} {ds : List Derivation} : Derives b ds → Derives (.alt a b) ds
  | none {a : Phrase} : Derives (.opt a) []
  | some {a : Phrase} {ds : List Derivation} : Derives a ds → Derives (.opt a) ds
  | done {a : Phrase} : Derives (.star a) []
  | more {a : Phrase} {ds es : List Derivation} :
      Derives a ds → Derives (.star a) es → Derives (.star a) (ds ++ es)
  | plus {a : Phrase} {ds es : List Derivation} :
      Derives a ds → Derives (.star a) es → Derives (.plus a) (ds ++ es)

/-- Parts behind parts yield their tokens behind the tokens of those. -/
theorem tokensOfParts_append (ds es : List Derivation) :
    tokensOfParts (ds ++ es) = tokensOfParts ds ++ tokensOfParts es := by
  induction ds with
  | nil => rfl
  | cons d ds ih => rw [List.cons_append, tokensOfParts, tokensOfParts, ih, List.append_assoc]

/-- Parts behind parts nest as deep as the deeper ones of the two. -/
theorem nestingOfParts_append (ds es : List Derivation) :
    nestingOfParts (ds ++ es) = max (nestingOfParts ds) (nestingOfParts es) := by
  induction ds with
  | nil => rw [List.nil_append, nestingOfParts, Nat.zero_max]
  | cons d ds ih => rw [List.cons_append, nestingOfParts, nestingOfParts, ih, Nat.max_assoc]

/-- Nesting to some number of levels is nesting to it in every part. -/
theorem nestingOfParts_append_le {ds es : List Derivation} {levels : Nat} :
    nestingOfParts (ds ++ es) ≤ levels ↔ nestingOfParts ds ≤ levels ∧ nestingOfParts es ≤ levels := by
  rw [nestingOfParts_append, Nat.max_le]

/-- A single part yields its own tokens. -/
theorem tokensOfParts_singleton (d : Derivation) : tokensOfParts [d] = d.tokens :=
  List.append_nil d.tokens

/-- A single part nests as deep as it does alone. -/
theorem nestingOfParts_singleton (d : Derivation) : nestingOfParts [d] = d.nesting :=
  Nat.max_zero d.nesting

end GrammarFile
