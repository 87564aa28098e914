import GrammarFile.Pattern.Property

/-!
# What a pattern stands for

A pattern that is well formed can still ask for too much: for properties that are unknown, or, where
the Unicode flag is off, for bytes that are no UTF-8. `Pattern.meaning` goes through a pattern from
left to right with the flag and gives the first complaint, or the flag as it is afterwards: a change
of flags lasts up to the end of the group, also across `|`.
-/

namespace GrammarFile.Pattern

/-- A query is answered for Unicode characters only. -/
def Query.meaning (unicode : Bool) (query : Query) : Except PatternError Unit :=
  if unicode then query.error?.elim (.ok ()) .error else .error .unicodeNotAllowed

/-- The complement of a set takes in bytes that are no UTF-8, unless it is one of characters. -/
def complement (unicode negated : Bool) : Except PatternError Unit :=
  if negated && !unicode then .error .invalidUtf8 else .ok ()

/-- A byte above 127 is no UTF-8 by itself. -/
def Scalar.meaning (unicode : Bool) (scalar : Scalar) : Except PatternError Unit :=
  if !unicode && scalar.isByte && 128 ≤ scalar.char.toNat then .error .invalidUtf8 else .ok ()

/-- In a set of bytes a character has to be one byte. -/
def Scalar.meaningInSet (unicode : Bool) (scalar : Scalar) : Except PatternError Unit :=
  match scalar.meaning unicode with
  | .error e => .error e
  | .ok () => if !unicode && 128 ≤ scalar.char.toNat then .error .unicodeNotAllowed else .ok ()

/-- The complaint about an atom. -/
def Atom.meaning (unicode : Bool) : Atom → Except PatternError Unit
  | scalar s => s.meaning unicode
  | dot => if unicode then .ok () else .error .invalidUtf8
  | assertion => .ok ()
  | property query => query.meaning unicode
  | shorthand negated => complement unicode negated

mutual

/-- The complaint about a set. -/
def CharSet.meaning (unicode : Bool) : CharSet → Except PatternError Unit
  | .scalar s => s.meaningInSet unicode
  | .range first last => do
    first.meaningInSet unicode
    last.meaningInSet unicode
  | .named negated | .shorthand negated => complement unicode negated
  | .property query => query.meaning unicode
  | .bracketed negated set => do
    set.meaning unicode
    complement unicode negated
  | .union sets => CharSet.meanings unicode sets
  | .operation left right => do
    left.meaning unicode
    right.meaning unicode

/-- The first complaint about some sets. -/
def CharSet.meanings (unicode : Bool) : List CharSet → Except PatternError Unit
  | [] => .ok ()
  | set :: sets => do
    set.meaning unicode
    CharSet.meanings unicode sets

end

mutual

/-- The complaint about a pattern, or the Unicode flag after it. -/
def meaning (unicode : Bool) : Pattern → Except PatternError Bool
  | .empty => .ok unicode
  | .flags change => .ok (change.unicode.getD unicode)
  | .atom a => do
    a.meaning unicode
    return unicode
  | .bracketed negated set => do
    set.meaning unicode
    complement unicode negated
    return unicode
  | .repetition pattern => pattern.meaning unicode
  | .group change pattern => do
    let _ ← pattern.meaning (change.unicode.getD unicode)
    return unicode
  | .alternation patterns | .concatenation patterns => meanings unicode patterns

/-- The first complaint about some patterns, or the Unicode flag after them. -/
def meanings (unicode : Bool) : List Pattern → Except PatternError Bool
  | [] => .ok unicode
  | pattern :: patterns => do
    let next ← pattern.meaning unicode
    meanings next patterns

end

end GrammarFile.Pattern
