import GrammarFile.CommandLine.Argument
import GrammarFile.Text.Controls

/-!
# Usage

The help text, and what is said about a command line that makes no sense.
-/

namespace GrammarFile

/-- Why a command line makes no sense. Where the arguments given so far matter for what is said, they
are the last component. -/
inductive UsageError where
  /-- There is no option of this name; one may be similar. -/
  | unknownName (name : String) (similar : Option Argument) (given : List Argument)
  /-- There is no option with this letter. -/
  | unknownLetter (letter : Char)
  /-- There is a second path. -/
  | secondPath (text : String)
  /-- A flag has a value. -/
  | unwantedValue (flag : Argument) (value : String) (given : List Argument)
  /-- An option has no value. -/
  | missingValue (option : Argument)
  | repeated (argument : Argument)
  | missingPath (given : List Argument)
  /-- Nothing is given at all. -/
  | nothing
  deriving DecidableEq, Inhabited

namespace Usage

/-- The usage of the program where nothing is known of what is wanted. -/
def general : String := "par [OPTIONS] [path]"

/-- Options that are given, as they have to be given, each once. -/
def givenOptions (given : List Argument) : String :=
  String.join ((given.eraseDups.filter (· ≠ .path)).map (" " ++ ·.usage))

/-- The usage of the program with what is given already. -/
def withGiven (given : List Argument) : String :=
  if given.isEmpty then general
  else "par" ++ givenOptions given ++ if given.contains .path then " <path>" else " [path]"

/-- The form of an option in a listing, with its letter. -/
def listed (argument : Argument) : String :=
  (argument.letter?.elim "    " fun c => String.ofList ['-', c, ',', ' ']) ++ argument.usage

/-- The width of the forms of options in the help text. -/
def listedWidth : Nat := 21

/-- A line of the help text. -/
def listing (argument : Argument) : String :=
  let form := listed argument
  "  " ++ form ++ String.ofList (List.replicate (listedWidth - form.length) ' ') ++ "  " ++
    argument.purpose ++ "\n"

/-- The help text. -/
def help : String :=
  "A tool for checking and inspecting parol grammar files\n\nUsage: " ++ general ++
    "\n\nArguments:\n  [path]  " ++ Argument.path.purpose ++ "\n\nOptions:\n" ++
    String.join (Argument.options.map listing)

/-- The name and version of the program. -/
def version : String := "par 0.1.0\n"

/-- A message about a command line, with the usage if there is one to show. -/
def complaint (reason : String) (usage : Option String) : String :=
  "error: " ++ reason ++ "\n" ++ usage.elim "" ("\nUsage: " ++ · ++ "\n") ++
    "\nFor more information, try '--help'.\n"

/-- The advice to mark a text as no option. -/
def markAsValue (text : String) : String :=
  "\n\n  tip: to pass '" ++ text ++ "' as a value, use '-- " ++ text ++ "'"

end Usage

open Usage in
/-- What is said about a command line that makes no sense. -/
def UsageError.message : UsageError → String
  | unknownName name similar given =>
    let text := "--" ++ Text.withoutControls name
    let advice :=
      match similar with
      | some argument => "\n\n  tip: a similar argument exists: '--" ++ argument.name ++ "'"
      | none => markAsValue text
    complaint ("unexpected argument '" ++ text ++ "' found" ++ advice)
      (some (withGiven (given ++ similar.toList)))
  | unknownLetter letter =>
    let text := Text.withoutControls (String.ofList ['-', letter])
    complaint ("unexpected argument '" ++ text ++ "' found" ++ markAsValue text) (some general)
  | secondPath text =>
    complaint ("unexpected argument '" ++ Text.withoutControls text ++ "' found") (some general)
  | unwantedValue flag value given =>
    complaint ("unexpected value '" ++ Text.withoutControls value ++ "' for '" ++ flag.usage ++
      "' found; no more were expected")
      (some (withGiven (given ++ [flag])))
  | missingValue option =>
    complaint ("a value is required for '" ++ option.usage ++ "' but none was supplied") none
  | repeated argument =>
    complaint ("the argument '" ++ argument.usage ++ "' cannot be used multiple times") (some general)
  | missingPath given =>
    complaint "the following required arguments were not provided:\n  <path>"
      (some ("par" ++ givenOptions given ++ " <path>"))
  | nothing => help

end GrammarFile
