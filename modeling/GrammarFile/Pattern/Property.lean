import GrammarFile.Pattern.Basic
import GrammarFile.Pattern.PropertyNames

/-!
# Which properties a pattern may ask for

Names are compared in a loose way, without regard to case, blanks, hyphens and low lines. A name alone
is looked for among the properties, then among the general categories, then among the scripts; three
short names that are both are categories.
-/

namespace GrammarFile.Pattern

/-- Whether a character says nothing in the name of a property. -/
def isFiller (c : Char) : Bool :=
  c = ' ' || c = '_' || c = '-'

/-- The ASCII letters, digits and signs of a name in lower case, without fillers. -/
def plainName (cs : List Char) : List Char :=
  (cs.filter fun c => !isFiller c && c.toNat < 128).map Char.toLower

/-- A name in the form for comparisons. A leading `is` is dropped, but `isc` alone stands for itself. -/
def looseName (name : String) : String :=
  match name.toList with
  | 'i' :: 's' :: rest | 'I' :: 'S' :: rest | 'i' :: 'S' :: rest | 'I' :: 's' :: rest =>
    let plain := plainName rest
    if plain = ['c'] then "isc" else String.ofList plain
  | cs => String.ofList (plainName cs)

/-- The properties that have a value other than yes or no and that a pattern can ask for. -/
inductive ValuedProperty where
  | generalCategory
  | script
  | scriptExtensions
  | age
  | graphemeBreak
  | wordBreak
  | sentenceBreak
  deriving DecidableEq, Inhabited

namespace ValuedProperty

/-- The properties with values. -/
def all : List ValuedProperty :=
  [generalCategory, script, scriptExtensions, age, graphemeBreak, wordBreak, sentenceBreak]

/-- The names of a property. -/
def names : ValuedProperty → List String
  | generalCategory => ["gc", "generalcategory"]
  | script => ["sc", "script"]
  | scriptExtensions => ["scx", "scriptextensions"]
  | age => ["age"]
  | graphemeBreak => ["gcb", "graphemeclusterbreak"]
  | wordBreak => ["wb", "wordbreak"]
  | sentenceBreak => ["sb", "sentencebreak"]

/-- The names for all characters, for those that are assigned, and for the first 128. -/
def broadCategories : List String := ["any", "assigned", "ascii"]

/-- The names of the values that some character has. -/
def values : ValuedProperty → List String
  | generalCategory => broadCategories ++ generalCategories
  | script | scriptExtensions => scripts
  | age => ages
  | graphemeBreak => graphemeBreaks
  | wordBreak => wordBreaks
  | sentenceBreak => sentenceBreaks

/-- The property of the given name. -/
def ofName? (name : String) : Option ValuedProperty :=
  all.find? (·.names.contains name)

end ValuedProperty

/-- The short names that a property shares with a category. -/
def sharedNames : List String := ["cf", "sc", "lc"]

/-- Whether a name is that of a property. -/
def isProperty (name : String) : Bool :=
  binaryProperties.contains name || otherProperties.contains name ||
    (ValuedProperty.ofName? name).isSome

/-- What is wrong with asking for a name in the form for comparisons. -/
def namedError (name : String) : Option PatternError :=
  if !sharedNames.contains name && isProperty name then
    if binaryProperties.contains name then none else some .propertyUnknown
  else if (ValuedProperty.values .generalCategory ++ scripts).contains name then none
  else if (emptyCategories ++ emptyScripts).contains name then some .propertyValueUnknown
  else some .propertyUnknown

/-- What is wrong with asking for a property and a value in the form for comparisons. -/
def valuedError (property value : String) : Option PatternError :=
  match ValuedProperty.ofName? property with
  | some known => if known.values.contains value then none else some .propertyValueUnknown
  | none => some (if isProperty property then .propertyValueUnknown else .propertyUnknown)

/-- What is wrong with a query. -/
def Query.error? : Query → Option PatternError
  | named name => namedError (looseName name)
  | valued property value => valuedError (looseName property) (looseName value)

end GrammarFile.Pattern
