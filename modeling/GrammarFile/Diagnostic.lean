import GrammarFile.Outline.Json
import GrammarFile.Parse.File

/-!
# Diagnostics

One shape for everything that can be wrong with a file: what the lexer refuses, what the parser
refuses, and what the lints find.
-/

namespace GrammarFile

/-- How bad a finding is. -/
inductive Severity where
  | error
  | warning
  deriving DecidableEq, Inhabited

/-- The name of a severity. -/
def Severity.name : Severity → String
  | error => "error"
  | warning => "warning"

/-- A finding about a range of a source text. -/
structure Diagnostic where
  range : Range
  severity : Severity
  message : String
  /-- The short name of the sort of finding. -/
  code : Option String
  /-- The stage that found it. -/
  source : String
  deriving DecidableEq, Inhabited

namespace Diagnostic

/-- A finding without a code. It is the parser's unless something else is said. -/
def of (range : Range) (severity : Severity) (message : String) : Diagnostic :=
  ⟨range, severity, message, none, "parser"⟩

/-- Whether a finding is an error. -/
def isError (d : Diagnostic) : Bool :=
  d.severity = .error

/-- A finding on one line, with the place where it starts. -/
def display (d : Diagnostic) : String :=
  d.severity.name ++ " [" ++ d.source ++ "]" ++ (d.code.elim "" fun code => " (" ++ code ++ ")") ++
    ": " ++ d.message ++ " at " ++ d.range.start.render

/-- A finding as JSON. -/
def toJson (d : Diagnostic) : Json :=
  .object [("range", d.range.toJson), ("severity", .string d.severity.name),
    ("message", .string d.message), ("code", d.code.elim .null .string), ("source", .string d.source)]

end Diagnostic

/-- What the lexer refuses. -/
def LexError.diagnostic (e : LexError) (index : LineIndex) : Diagnostic :=
  ⟨index.range e.span, .error, e.message, some "lex-error", "lexer"⟩

/-- What the parser refuses. -/
def ParseError.diagnostic (e : ParseError) : Diagnostic :=
  ⟨e.range, .error, e.message, some "parse-error", "parser"⟩

/-- What keeps a source text from being a grammar file. -/
def GrammarError.diagnostics (e : GrammarError) (source : String) : List Diagnostic :=
  match e with
  | lexical e => [e.diagnostic (LineIndex.ofSource source)]
  | parse errors => errors.map (·.diagnostic)

end GrammarFile
