import GrammarFile.Pattern.Error

/-!
# Patterns

The form of a regular expression, as far as it decides whether the expression is accepted. What a
pattern matches is not recorded: a repetition has no count, a group no name, and an assertion is only
an assertion. `Pattern.depth` says how deep a pattern nests.
-/

namespace GrammarFile

namespace Pattern

/-- What a pattern asks about the properties of a character. -/
inductive Query where
  /-- A property, a general category or a script. -/
  | named (name : String)
  /-- A property with a value. -/
  | valued (property value : String)
  deriving DecidableEq, Inhabited

/-- A character of a pattern. One that is written `\x` and two digits stands for a byte. -/
structure Scalar where
  char : Char
  isByte : Bool
  deriving DecidableEq, Inhabited

/-- The smallest parts of a pattern. -/
inductive Atom where
  | scalar (scalar : Scalar)
  /-- Any character. -/
  | dot
  /-- A condition on the place. -/
  | assertion
  /-- A character with a property. -/
  | property (query : Query)
  /-- A digit, blank or word character, or with `negated` any other. -/
  | shorthand (negated : Bool)
  deriving DecidableEq, Inhabited

/-- A set of characters as it is written between square brackets. -/
inductive CharSet where
  | scalar (scalar : Scalar)
  | range (first last : Scalar)
  /-- A set with a name between colons. -/
  | named (negated : Bool)
  | property (query : Query)
  | shorthand (negated : Bool)
  | bracketed (negated : Bool) (set : CharSet)
  /-- Sets side by side. -/
  | union (sets : List CharSet)
  /-- Two sets with `&&`, `--` or `~~` between them. -/
  | operation (left right : CharSet)

/-- A change of the flags that bear on whether a pattern is accepted, where given. -/
structure Flags where
  /-- Blanks and comments mean nothing. -/
  verbose : Option Bool
  /-- Characters are Unicode characters, not bytes. -/
  unicode : Option Bool
  deriving DecidableEq, Inhabited

/-- No change. -/
def Flags.unchanged : Flags := ⟨none, none⟩

end Pattern

/-- A regular expression. -/
inductive Pattern where
  | empty
  /-- A change of flags up to the end of the group. -/
  | flags (flags : Pattern.Flags)
  | atom (atom : Pattern.Atom)
  | bracketed (negated : Bool) (set : Pattern.CharSet)
  | repetition (pattern : Pattern)
  /-- A group with its own change of flags. -/
  | group (flags : Pattern.Flags) (pattern : Pattern)
  | alternation (patterns : List Pattern)
  | concatenation (patterns : List Pattern)

namespace Pattern

/-- Sets side by side, where one alone is itself. -/
def CharSet.ofList : List CharSet → CharSet
  | [set] => set
  | sets => union sets

/-- Patterns in sequence, where one alone is itself and none are empty. -/
def inSequence : List Pattern → Pattern
  | [] => empty
  | [pattern] => pattern
  | patterns => concatenation patterns

/-- Patterns to choose from, where one alone is itself. -/
def oneOf : List Pattern → Pattern
  | [pattern] => pattern
  | patterns => alternation patterns

mutual

/-- How deep a set nests: brackets, sets side by side and operations each count as a level. -/
def CharSet.depth : CharSet → Nat
  | .bracketed _ set => set.depth + 1
  | .union [] => 0
  | .union (set :: sets) => max set.depth (CharSet.maxDepth sets) + 1
  | .operation left right => max left.depth right.depth + 1
  | .scalar _ | .range _ _ | .named _ | .property _ | .shorthand _ => 0

/-- The depth of the deepest of some sets. -/
def CharSet.maxDepth : List CharSet → Nat
  | [] => 0
  | set :: sets => max set.depth (CharSet.maxDepth sets)

end

mutual

/-- How deep a pattern nests: everything that has parts counts as a level. -/
def depth : Pattern → Nat
  | empty | flags _ | atom _ => 0
  | bracketed _ set => set.depth + 1
  | repetition pattern | group _ pattern => pattern.depth + 1
  | alternation patterns | concatenation patterns => maxDepth patterns + 1

/-- The depth of the deepest of some patterns. -/
def maxDepth : List Pattern → Nat
  | [] => 0
  | pattern :: patterns => max pattern.depth (maxDepth patterns)

end

end Pattern

end GrammarFile
