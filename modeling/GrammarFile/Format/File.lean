import GrammarFile.Files.Basic
import GrammarFile.Format.Render

/-!
# Rendering files

`renderFile` renders the text of a file. A file that is not there is told apart from one that cannot be
read.
-/

namespace GrammarFile

/-- Why there is nothing to show of a file. -/
inductive FileError where
  /-- Nothing stands at the path. -/
  | notFound (path : String)
  | unreadable (error : ReadError)
  | render (error : RenderError)
  deriving DecidableEq, Inhabited

/-- The wording of an error. -/
def FileError.message : FileError → String
  | notFound path => "File not found: " ++ path
  | unreadable error => "IO error: " ++ error.message
  | render error => error.message

/-- The text of the file at a path. -/
def readText (files : Files) (path : String) : Except FileError String :=
  match (files path).text with
  | .ok text => .ok text
  | .error .missing | .error .notDirectory => .error (.notFound path)
  | .error error => .error (.unreadable error)

/-- The file at a path as a spec asks for it. -/
def renderFile (files : Files) (spec : RenderSpec) (options : RenderOptions) (path : String) :
    Except FileError String := do
  let source ← readText files path
  (render spec options source).mapError .render

end GrammarFile
