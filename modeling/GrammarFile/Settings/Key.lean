import GrammarFile.Number.Width
import GrammarFile.Settings.Value
import GrammarFile.Text.Digits

/-!
# Keys of settings

A key leads from the table of all settings to one value: names with points between them, and numbers of
array items in brackets. A negative number counts from the end of the array. `Setting.assignAt` assigns
a value to a key and makes the tables and the array items on the way.
-/

namespace GrammarFile

/-- A step from a value to a part of it. -/
inductive KeyStep where
  | entry (name : String)
  | item (index : Int)
  deriving DecidableEq, Inhabited

/-- The steps from the table of all settings to a value. -/
abbrev Key := List KeyStep

namespace Key

/-- Whether a character may stand in a name. -/
def isNameChar (c : Char) : Bool :=
  c.isAlphanum || c = ' ' || c = '_' || c = '-'

/-- Whether blanks of this sort may stand around a number. -/
def isPadding (c : Char) : Bool :=
  c = ' ' || c = '\t'

/-- A name at the front of a text, and what follows. -/
def readName (cs : List Char) : Option (KeyStep × List Char) :=
  let name := cs.takeWhile isNameChar
  if name.isEmpty then none else some (.entry (String.ofList name), cs.dropWhile isNameChar)

/-- The number of an item before its closing bracket, and what follows the bracket. It is a whole number
of 64 bits with a sign. -/
def readIndex (cs : List Char) : Option (KeyStep × List Char) :=
  let cs := cs.dropWhile isPadding
  let (negative, cs) :=
    match cs with
    | '-' :: rest => (true, rest)
    | rest => (false, rest)
  match Text.decimal? (cs.takeWhile Char.isDigit), (cs.dropWhile Char.isDigit).dropWhile isPadding with
  | some size, ']' :: rest =>
    let index := if negative then -(size : Int) else size
    if fitsSigned 64 index then some (.item index, rest) else none
  | _, _ => none

/-- The steps after the first one. The bound is on their number. -/
def readSteps : (bound : Nat) → List Char → Option Key
  | _, [] => some []
  | 0, _ => none
  | bound + 1, '.' :: rest => do
    let (step, rest) ← readName rest
    return step :: (← readSteps bound rest)
  | bound + 1, '[' :: rest => do
    let (step, rest) ← readIndex rest
    return step :: (← readSteps bound rest)
  | _, _ => none

/-- The key that a text writes. -/
def read? (text : String) : Option Key := do
  let (step, rest) ← readName text.toList
  return step :: (← readSteps rest.length rest)

/-- The position of an item in an array of the given size, or behind it. -/
def position (index : Int) (size : Nat) : Nat :=
  if 0 ≤ index then index.toNat else size - index.natAbs

end Key

namespace Setting

/-- Items of an array that reach to a position. -/
def reach (items : List Setting) (position : Nat) : List Setting :=
  items ++ List.replicate (position + 1 - items.length) unset

/-- A value after a change to one of its items. What is no array counts as an empty one. -/
def changeItem (setting : Setting) (index : Int) (change : Setting → Setting) : Setting :=
  let position := Key.position index setting.items.length
  let origin :=
    match setting with
    | array _ origin => origin
    | _ => none
  array ((reach setting.items position).modify position change) origin

/-- Settings after the assignment of a value to a key. -/
def assignAt (setting : Setting) : (key : Key) → (value : Setting) → Setting
  | [], value => value
  | [.entry name], value => setting.assign name value
  | .entry name :: rest, value =>
    let name := Text.lowercase name
    setting.put name (assignAt ((setting.get? name).getD unset) rest value)
  | .item index :: rest, value => setting.changeItem index (assignAt · rest value)

end Setting

end GrammarFile
