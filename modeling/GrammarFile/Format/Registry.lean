import GrammarFile.Catalog
import GrammarFile.Format.Tags
import GrammarFile.Format.Treeviz
import GrammarFile.Json.Writer
import GrammarFile.Outline.Json
import GrammarFile.Outline.OfGrammar
import GrammarFile.Tree.Display
import GrammarFile.Yaml.Writer

/-!
# Formats for trees

A formatter turns a grammar into text, and a registry holds formatters by name. Registering a name
that is taken replaces its formatter. `Registry.standard` holds the five formats that every grammar can
be written in; none of them fails.
-/

namespace GrammarFile

/-- Why a grammar has no text in a format. -/
inductive FormatError where
  /-- There is no formatter of this name. -/
  | unknown (name : String)
  /-- The formatter gave up, for this reason. -/
  | failed (reason : String)
  deriving DecidableEq, Inhabited

/-- The wording of an error. -/
def FormatError.message : FormatError → String
  | unknown name => "Format '" ++ name ++ "' not found"
  | failed reason => "Serialization error: " ++ reason

/-- A way to write a grammar. -/
structure Formatter where
  name : String
  description : String
  write : Grammar → Except FormatError String

/-- Formatters by name. -/
abbrev Registry := Catalog Formatter

namespace Registry

/-- The registry with one more formatter. -/
def register (registry : Registry) (formatter : Formatter) : Registry :=
  registry.insert formatter.name formatter

/-- A grammar in the format of the given name. -/
def write (registry : Registry) (name : String) (grammar : Grammar) : Except FormatError String :=
  match registry.get? name with
  | none => .error (.unknown name)
  | some formatter => formatter.write grammar

end Registry

namespace Formatter

/-- The drawing of the outline. -/
def treeviz (numbered : Bool) : Formatter :=
  ⟨"treeviz", "Visual tree representation with indentation and Unicode icons",
    fun g => .ok (Treeviz.draw numbered g.outline)⟩

/-- The outline as tags. -/
def tag : Formatter :=
  ⟨"tag", "XML-like tags mirroring the syntax tree", fun g => .ok (Tags.write 0 g.outline)⟩

/-- The outline as JSON. -/
def json : Formatter :=
  ⟨"json", "Syntax tree snapshot as JSON", fun g => .ok g.outline.toJson.pretty⟩

/-- The outline as YAML. -/
def yaml : Formatter :=
  ⟨"yaml", "Syntax tree snapshot as YAML", fun g => .ok (Yaml.write g.outline.toJson)⟩

/-- The file in its fixed layout. -/
def par : Formatter :=
  ⟨"par", "Canonical grammar source", fun g => .ok g.print⟩

end Formatter

/-- The standard formats, with line numbers in drawings or without. -/
def Registry.standard (numbered : Bool) : Registry :=
  [Formatter.treeviz numbered, .tag, .json, .yaml, .par].foldl Registry.register .empty

end GrammarFile
