/-!
# Arguments

What may be given on the command line: the path of a file, options with a value and flags without. The
order of `Argument.options` is the order in which they are listed.
-/

namespace GrammarFile

/-- A thing that may be given on the command line. -/
inductive Argument where
  | path
  | format
  | config
  | check
  | noRecover
  | lineNumbers
  | listFormats
  | help
  | version
  deriving DecidableEq, Inhabited

namespace Argument

/-- Everything but the path, in the order of listings. -/
def options : List Argument :=
  [format, config, check, noRecover, lineNumbers, listFormats, help, version]

/-- The name of an argument, which follows two dashes for an option or a flag. -/
def name : Argument → String
  | path => "path"
  | format => "format"
  | config => "config"
  | check => "check"
  | noRecover => "no-recover"
  | lineNumbers => "line-numbers"
  | listFormats => "list-formats"
  | help => "help"
  | version => "version"

/-- The letter that stands for an option or a flag after one dash. -/
def letter? : Argument → Option Char
  | format => some 'f'
  | config => some 'c'
  | help => some 'h'
  | version => some 'V'
  | _ => none

/-- Whether an option takes a value. -/
def takesValue : Argument → Bool
  | format | config => true
  | _ => false

/-- What an argument is for. -/
def purpose : Argument → String
  | path => "Path to the .par file"
  | format => "Output format (e.g., 'ast-treeviz', 'ast-json', 'token-simple')"
  | config => "Configuration file layered over the defaults"
  | check => "Only report diagnostics, print nothing on success"
  | noRecover => "Stop at the first parse error"
  | lineNumbers => "Prefix treeviz lines with source line numbers"
  | listFormats => "List available output formats"
  | help => "Print help"
  | version => "Print version"

/-- An argument as it has to be given. -/
def usage (argument : Argument) : String :=
  if argument = path then "<path>"
  else if argument.takesValue then "--" ++ argument.name ++ " <" ++ argument.name ++ ">"
  else "--" ++ argument.name

/-- The option or flag with the given name. -/
def ofName? (name : String) : Option Argument :=
  options.find? (·.name == name)

/-- The option or flag with the given letter. -/
def ofLetter? (letter : Char) : Option Argument :=
  options.find? (·.letter? == some letter)

end Argument

end GrammarFile
