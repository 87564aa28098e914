import GrammarFile.CommandLine.Run

/-!
# The program

Reads what stands at the paths that a command line needs, and carries out what `run` says.
-/

namespace GrammarFile

/-- The code that the operating system has for a directory where a file is needed. Some errors come with
the negated code. -/
def directoryCode : UInt32 := 21

/-- What a path leads to, according to the operating system. -/
def lookAt (path : String) : IO Found := do
  try
    let content ← IO.FS.readBinFile path
    return .file content.toList
  catch
    | .inappropriateType _ code _ =>
      return if code = directoryCode || 0 - code = directoryCode then .directory else .notDirectory
    | _ => return .missing

/-- Carries out a command line, and gives the code to exit with. -/
def execute (commandLine : List String) : IO UInt32 := do
  let found ← (pathsOf commandLine).mapM fun path => return (path, ← lookAt path)
  let outcome := run (fun path => (found.lookup path).getD .missing) commandLine Pattern.refusal?
  (← IO.getStdout).putStr outcome.output
  (← IO.getStderr).putStr outcome.errors
  return outcome.exit.toUInt32

end GrammarFile

/-- The program. -/
def main (commandLine : List String) : IO UInt32 :=
  GrammarFile.execute commandLine
