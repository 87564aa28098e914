import GrammarFile.Diagnostic

/-!
# Lint issues

What a file can have wrong with it although it parses. Every issue has a place in the source, a code
and a wording; all but an unreachable production are errors.
-/

namespace GrammarFile

/-- Something wrong with a grammar file that parses. -/
inductive LintIssue where
  /-- The start symbol has no production. -/
  | undefinedStart (start : Identifier)
  /-- A non-terminal in a body has no production. -/
  | undefinedNonTerminal (use : Identifier)
  /-- A production is out of reach of the start symbol. -/
  | unreachableProduction (name : Identifier) (start : String)
  /-- There is an earlier scanner state of the same name. -/
  | duplicateScannerState (name : Identifier)
  /-- A scanner state is used and not declared. -/
  | unknownScannerState (use : Identifier)
  /-- A regular expression is refused, with what the last line of the error says. -/
  | invalidRegex (literal : Literal) (reason : String)
  deriving DecidableEq, Inhabited

namespace LintIssue

/-- The place of an issue. -/
def range : LintIssue → Range
  | undefinedStart i | undefinedNonTerminal i | unreachableProduction i _ | duplicateScannerState i
  | unknownScannerState i => i.range
  | invalidRegex literal _ => literal.range

/-- How bad an issue is. -/
def severity : LintIssue → Severity
  | unreachableProduction _ _ => .warning
  | _ => .error

/-- The short name of a sort of issue. -/
def code : LintIssue → String
  | undefinedStart _ => "undefined-start"
  | undefinedNonTerminal _ => "undefined-non-terminal"
  | unreachableProduction _ _ => "unreachable-production"
  | duplicateScannerState _ => "duplicate-scanner-state"
  | unknownScannerState _ => "unknown-scanner-state"
  | invalidRegex _ _ => "invalid-regex"

/-- A name between backquotes. -/
def quoteName (name : String) : String :=
  "\x60" ++ name ++ "\x60"

/-- The wording of an issue. -/
def message : LintIssue → String
  | undefinedStart i => "start symbol " ++ quoteName i.name ++ " has no production"
  | undefinedNonTerminal i => "non-terminal " ++ quoteName i.name ++ " has no production"
  | unreachableProduction i start =>
    "production " ++ quoteName i.name ++ " is unreachable from start symbol " ++ quoteName start
  | duplicateScannerState i => "scanner state " ++ quoteName i.name ++ " is declared twice"
  | unknownScannerState i => "unknown scanner state " ++ quoteName i.name
  | invalidRegex literal reason => "invalid regex " ++ literal.text ++ ": " ++ reason

/-- An issue as a diagnostic. -/
def diagnostic (issue : LintIssue) : Diagnostic :=
  ⟨issue.range, issue.severity, issue.message, some issue.code, "lint"⟩

end LintIssue

end GrammarFile
