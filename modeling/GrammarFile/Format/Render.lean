import GrammarFile.Format.Spec
import GrammarFile.Format.Tokens
import GrammarFile.Parse.File

/-!
# Rendering

`render` takes a source text through the stage that a spec names and gives the text of what comes out.
For a spec that was read from a text, it fails only where the source has a mistake.
-/

namespace GrammarFile

/-- What shapes a rendering but not its sort. -/
structure RenderOptions where
  parser : ParserOptions
  /-- Whether the lines of a drawing are numbered. -/
  lineNumbers : Bool
  deriving DecidableEq, Inhabited

/-- Why there is nothing to show. -/
inductive RenderError where
  | grammar (error : GrammarError)
  | format (error : FormatError)
  deriving DecidableEq, Inhabited

/-- The wording of an error. -/
def RenderError.message : RenderError → String
  | grammar e => e.message
  | format e => e.message

/-- Tokens in a listing. -/
def TokenListing.write (listing : TokenListing) (lexemes : List Lexeme) : String :=
  match listing with
  | simple | rawSimple => listTokens lexemes
  | json | rawJson => (tokensToJson lexemes).pretty

/-- A grammar in a standard format. -/
def renderTree (options : RenderOptions) (format : String) (g : Grammar) : Except RenderError String :=
  ((Registry.standard options.lineNumbers).write format g).mapError .format

/-- A source text as a spec asks for it. -/
def render (spec : RenderSpec) (options : RenderOptions) (source : String) : Except RenderError String :=
  match spec with
  | .tokens listing =>
    match if listing.isRaw then tokenize source else lex source with
    | .error e => .error (.grammar (.lexical e))
    | .ok lexemes => .ok (listing.write lexemes)
  | .tree format =>
    match parse source options.parser with
    | .error e => .error (.grammar e)
    | .ok g => renderTree options format g

end GrammarFile
