import GrammarFile.Lint.Check
import GrammarFile.Pattern.Read

/-!
# The lints of a grammar

The issues of a grammar as diagnostics. Which regular expressions are refused is up to a judge of
patterns, which is a parameter throughout; where none is given, it is `Pattern.refusal?`.
-/

namespace GrammarFile

/-- What the lints find in a grammar. -/
def Grammar.lint (refuse : String → Option String) (g : Grammar) : List Diagnostic :=
  (g.issues refuse).map (·.diagnostic)

/-- What there is to report on a source text: why it is no grammar file, or what the lints find. -/
def checkSource (source : String) (options : ParserOptions)
    (refuse : String → Option String := Pattern.refusal?) : List Diagnostic :=
  match parse source options with
  | .error e => e.diagnostics source
  | .ok g => g.lint refuse

end GrammarFile
