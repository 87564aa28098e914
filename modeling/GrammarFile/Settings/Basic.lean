import GrammarFile.Parse.File
import GrammarFile.Settings.Value

/-!
# Settings

What can be set, the defaults, and the tree of values that settings stand for.
-/

namespace GrammarFile

/-- What can be set. -/
structure Settings where
  /-- How to parse. -/
  parser : ParserOptions
  /-- What to render, where nothing else is asked for. -/
  format : String
  /-- Whether the lines of a drawing are numbered. -/
  lineNumbers : Bool
  /-- Whether grammars are linted. -/
  lints : Bool
  deriving DecidableEq, Inhabited

namespace Settings

/-- The settings where nothing is set. -/
def default : Settings :=
  ⟨.default, "ast-treeviz", false, true⟩

/-- A table that comes from no file. -/
def tableOf (entries : List (String × Setting)) : Setting :=
  .table entries none

/-- A value that comes from no file. -/
def valueOf (value : Setting.Plain) : Setting :=
  .plain value none

/-- Settings as a tree of values. -/
def toSetting (settings : Settings) : Setting :=
  tableOf [
    ("parsing", tableOf [
      ("recover", valueOf (.boolean settings.parser.recover)),
      ("max_errors", valueOf (.integer settings.parser.maxErrors))]),
    ("output", tableOf [
      ("format", valueOf (.string settings.format)),
      ("show_line_numbers", valueOf (.boolean settings.lineNumbers))]),
    ("lints", tableOf [
      ("enabled", valueOf (.boolean settings.lints))])]

end Settings

end GrammarFile
