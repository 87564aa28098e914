import GrammarFile.Number.Width
import GrammarFile.Settings.Basic
import GrammarFile.Settings.Error

/-!
# From values to settings

`Settings.ofSetting` reads settings off a tree of values. A value is converted where its sort leaves no
doubt: numbers and the usual words stand for truth values, and numbers and truth values for texts. A
section is a table, or an array with the fields in their order; whatever else it holds is ignored.
-/

namespace GrammarFile

namespace Setting

/-- The truth value that a word in lower case stands for. -/
def truthOfWord? (word : String) : Option Bool :=
  if ["1", "true", "on", "yes"].contains word then some true
  else if ["0", "false", "off", "no"].contains word then some false
  else none

/-- A value as a truth value: every number but zero is true, and so are the usual words. -/
def toBool (key : String) : Setting → Except SettingsError Bool
  | plain (.boolean b) _ => .ok b
  | plain (.integer n) _ => .ok (n != 0)
  | plain (.float x) _ => .ok (!x.isZero)
  | plain (.string text) origin =>
    let word := Text.lowercase text
    match truthOfWord? word with
    | some b => .ok b
    | none => .error (.wrongSort (plain (.string word) origin) "a boolean" key)
  | setting => .error (.wrongSort setting "a boolean" key)

/-- The number of 64 bits without a sign that a text writes in base ten; a plus may stand before it. -/
def wordOfText? (text : String) : Option Nat :=
  let digits :=
    match text.toList with
    | '+' :: rest => rest
    | cs => cs
  (Text.decimal? digits).filter (fitsUnsigned 64)

/-- The number that a text stands for: one or zero for the usual words, and what its digits write. -/
def countOfText? (text : String) : Option Nat :=
  let word := Text.lowercase text
  if ["true", "on", "yes"].contains word then some 1
  else if ["false", "off", "no"].contains word then some 0
  else wordOfText? text

/-- A value as a number of 64 bits without a sign. Fractions are rounded. -/
def toCount (key : String) : Setting → Except SettingsError Nat
  | plain (.integer n) origin =>
    if 0 ≤ n then .ok n.toNat
    else .error (.wrongSort (plain (.integer n) origin) "an unsigned 64 bit or less integer" key)
  | plain (.boolean b) _ => .ok b.toNat
  | plain (.float x) _ => .ok x.toWord
  | plain (.string text) origin =>
    match countOfText? text with
    | some n => .ok n
    | none => .error (.wrongSort (plain (.string text) origin) "an integer" key)
  | setting => .error (.wrongSort setting "an integer" key)

/-- A value as a text. -/
def toText (key : String) : Setting → Except SettingsError String
  | plain (.string text) _ => .ok text
  | plain (.boolean b) _ => .ok (if b then "true" else "false")
  | plain (.integer n) _ => .ok (toString n)
  | plain (.float x) _ => .ok x.write
  | setting => .error (.wrongSort setting "a string" key)

end Setting

/-- A section of the settings: the name of the table, what such a section is called, and its fields. -/
structure Section where
  name : String
  title : String
  fields : List String

namespace Section

/-- How to parse. -/
def parsing : Section := ⟨"parsing", "ParsingConfig", ["recover", "max_errors"]⟩

/-- What to render. -/
def output : Section := ⟨"output", "OutputConfig", ["format", "show_line_numbers"]⟩

/-- Whether to lint. -/
def lints : Section := ⟨"lints", "LintsConfig", ["enabled"]⟩

/-- The value of a field of a section, given by its number, if it is there, through a conversion that is
told the key of the value. -/
def field? {α : Type} (s : Section) (settings : Setting) (index : Nat)
    (convert : String → Setting → Except SettingsError α) : Except SettingsError (Option α) :=
  match settings.get? s.name with
  | none => .ok none
  | some (.table entries _) =>
    let name := s.fields.getD index ""
    match entries.lookup name with
    | none => .ok none
    | some value => (convert (s.name ++ "." ++ name) value).map some
  | some (.array items _) =>
    match items[index]? with
    | none => .ok none
    | some value => (convert (s.name ++ "[" ++ toString index ++ "]") value).map some
  | some value => .error (.noSection value s.title)

/-- A field of a section that has to be there. -/
def require {α : Type} (s : Section) (settings : Setting) (index : Nat) :
    Option α → Except SettingsError α
  | some value => .ok value
  | none =>
    match settings.get? s.name with
    | none => .error (.missingField s.name)
    | some (.array items _) => .error (.shortSection items.length s.title s.fields.length)
    | some _ => .error (.missingField (s.fields.getD index ""))

/-- The field of a section with one field. -/
def single {α : Type} (s : Section) (settings : Setting)
    (convert : String → Setting → Except SettingsError α) : Except SettingsError α := do
  s.require settings 0 (← s.field? settings 0 convert)

/-- The fields of a section with two fields. A value that cannot be converted is worse than one that is
missing. -/
def pair {α β : Type} (s : Section) (settings : Setting)
    (first : String → Setting → Except SettingsError α)
    (second : String → Setting → Except SettingsError β) : Except SettingsError (α × β) := do
  let a ← s.field? settings 0 first
  let b ← s.field? settings 1 second
  return (← s.require settings 0 a, ← s.require settings 1 b)

end Section

/-- The settings that a tree of values stands for. -/
def Settings.ofSetting (settings : Setting) : Except SettingsError Settings := do
  let (recover, maxErrors) ← Section.parsing.pair settings Setting.toBool Setting.toCount
  let (format, lineNumbers) ← Section.output.pair settings Setting.toText Setting.toBool
  let lints ← Section.lints.single settings Setting.toBool
  return ⟨⟨recover, maxErrors⟩, format, lineNumbers, lints⟩

end GrammarFile
