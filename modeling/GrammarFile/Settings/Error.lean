import GrammarFile.Files.Basic
import GrammarFile.Settings.Value
import GrammarFile.Text.Quoted
import GrammarFile.Toml.Fault

/-!
# Faults of settings

Why no settings come of the files and overrides, and the wording of each reason.
-/

namespace GrammarFile

/-- Why there are no settings. -/
inductive SettingsError where
  /-- There is no file at a path. -/
  | missingFile (path : String)
  /-- A file cannot be read as text. -/
  | unreadableFile (error : ReadError)
  /-- The file with this name and text is no TOML document. -/
  | malformedFile (origin source : String) (fault : Toml.Fault)
  /-- A text is no key. -/
  | malformedKey (text : String)
  /-- The value under a key is of the wrong sort. -/
  | wrongSort (value : Setting) (expected key : String)
  /-- A value stands where a section has to be. -/
  | noSection (value : Setting) (section_ : String)
  /-- An array that stands for a section ends too soon. -/
  | shortSection (size : Nat) (section_ : String) (fields : Nat)
  /-- There is no value for a field of a section. -/
  | missingField (name : String)
  deriving Inhabited

/-- What a value is. -/
def Setting.describe : Setting → String
  | plain .null _ => "unit value"
  | plain (.boolean b) _ => "boolean `" ++ (if b then "true" else "false") ++ "`"
  | plain (.integer n) _ => "integer `" ++ toString n ++ "`"
  | plain (.float x) _ => "floating point `" ++ x.writePointed ++ "`"
  | plain (.string text) _ => "string " ++ Text.quoted text
  | array _ _ => "sequence"
  | table _ _ => "map"

/-- What a value is, with the width of a number. -/
def Setting.describeWidth : Setting → String
  | plain (.integer n) origin => "64-bit " ++ (plain (.integer n) origin).describe
  | setting => setting.describe

namespace SettingsError

/-- The wording of an error. -/
def message : SettingsError → String
  | missingFile path => "configuration file \"" ++ path ++ "\" not found"
  | unreadableFile error => error.message
  | malformedFile origin source fault => fault.describe source ++ " in " ++ origin
  | malformedKey text => "no key: " ++ text
  | wrongSort value expected key =>
    "invalid type: " ++ value.describeWidth ++ ", expected " ++ expected ++ " for key `" ++ key ++ "`" ++
      value.origin.elim "" (" in " ++ ·)
  | noSection value name => "invalid type: " ++ value.describe ++ ", expected struct " ++ name
  | shortSection size name fields =>
    "invalid length " ++ toString size ++ ", expected struct " ++ name ++ " with " ++ toString fields ++
      (if fields = 1 then " element" else " elements")
  | missingField name => "missing field `" ++ name ++ "`"

end SettingsError

end GrammarFile
