import GrammarFile.CommandLine.Read
import GrammarFile.Files.Basic
import GrammarFile.Format.Render
import GrammarFile.Lint
import GrammarFile.Settings.Load
import GrammarFile.Source.Excerpt

/-!
# Running the program

`run` gives what the program does with a command line: what it writes, and how it exits. It reads the
settings of the project, then those of the file that the command line names, and flags win over both.
With `check` a file is only reported on; otherwise it is rendered, and what the lints find does not
matter for the exit. Which regular expressions the lints refuse is up to a judge of patterns.
-/

namespace GrammarFile

/-- What a run of the program leaves behind. -/
structure RunOutcome where
  /-- 0 if all is well, 1 if the file is at fault, 2 if what was asked for is. -/
  exit : Nat
  output : String
  errors : String
  deriving DecidableEq, Inhabited

namespace RunOutcome

/-- All is well. -/
def success (output errors : String) : RunOutcome := ⟨0, output, errors⟩

/-- The file is at fault. -/
def failure (errors : String) : RunOutcome := ⟨1, "", errors⟩

/-- What was asked for is at fault. -/
def refusal (errors : String) : RunOutcome := ⟨2, "", errors⟩

end RunOutcome

/-- The settings file of a project. -/
def projectSettings : String := "par.toml"

/-- The settings files and overrides that a command line stands for. -/
def Arguments.layers (arguments : Arguments) : List Layer :=
  [.optionalFile projectSettings] ++ (arguments.config.map .file).toList ++
    (if arguments.noRecover then
      [.override "parsing.recover" (.boolean false), .override "parsing.max_errors" (.integer 1)]
    else []) ++
    (if arguments.lineNumbers then [.override "output.show_line_numbers" (.boolean true)] else [])

/-- Diagnostics of a file, each with the place that it is about. -/
def report (path source : String) (found : List Diagnostic) : String :=
  String.join (found.map fun d =>
    path ++ ": " ++ d.display ++ "\n" ++ excerpt source d.range.start.line)

/-- What the lints find, if they are wanted. -/
def lintFor (refuse : String → Option String) (settings : Settings) (g : Grammar) : List Diagnostic :=
  if settings.lints then g.lint refuse else []

/-- The outcome of checking a file. -/
def checkFile (refuse : String → Option String) (settings : Settings) (path source : String) :
    RunOutcome :=
  match parse source settings.parser with
  | .error e => .failure (report path source (e.diagnostics source))
  | .ok g =>
    let found := lintFor refuse settings g
    ⟨if found.any (·.isError) then 1 else 0, "", report path source found⟩

/-- How the settings shape a rendering. -/
def Settings.renderOptions (settings : Settings) : RenderOptions :=
  ⟨settings.parser, settings.lineNumbers⟩

/-- What a source text is rendered to, and what is reported on the way. A tree is read and written
here, so that it can be linted once it is written. -/
def renderAndLint (refuse : String → Option String) (settings : Settings) (spec : RenderSpec)
    (path source : String) : Except RenderError String × String :=
  match spec with
  | .tokens _ => (render spec settings.renderOptions source, "")
  | .tree format =>
    match parse source settings.parser with
    | .error e => (.error (.grammar e), "")
    | .ok g =>
      let written := renderTree settings.renderOptions format g
      (written, if written.isOk && settings.lints then report path source (g.lint refuse) else "")

/-- The outcome of rendering a file in the format that a text names. -/
def showFile (refuse : String → Option String) (settings : Settings) (format path source : String) :
    RunOutcome :=
  match RenderSpec.parse format with
  | .error e =>
    .refusal (e.message ++ "\nRun `par --list-formats` for the available formats.\n")
  | .ok spec =>
    match renderAndLint refuse settings spec path source with
    | (.ok text, reported) => .success (text ++ "\n") reported
    | (.error (.grammar e), reported) => .failure (reported ++ report path source (e.diagnostics source))
    | (.error (.format e), reported) => .failure (reported ++ "Execution error: " ++ e.message ++ "\n")

/-- The list of all formats. -/
def formatListing : String :=
  "Available formats:\n\n" ++
    String.join (RenderSpec.available.map fun spec =>
      "  " ++ spec.display ++ "\n    " ++ spec.description ++ "\n")

/-- The outcome for the file at a path. -/
def runFile (refuse : String → Option String) (files : Files) (arguments : Arguments)
    (settings : Settings) (path : String) : RunOutcome :=
  match (files path).text with
  | .error e => .failure ("Error reading file " ++ path ++ ": " ++ e.message ++ "\n")
  | .ok source =>
    if arguments.check then checkFile refuse settings path source
    else showFile refuse settings (arguments.format.getD settings.format) path source

/-- The outcome for arguments that make sense. -/
def runArguments (refuse : String → Option String) (files : Files) (arguments : Arguments) : RunOutcome :=
  if arguments.listFormats then .success formatListing ""
  else
    match Settings.load files arguments.layers, arguments.path with
    | .error e, _ => .refusal ("Configuration error: " ++ e.message ++ "\n")
    | .ok _, none => .refusal ""
    | .ok settings, some path => runFile refuse files arguments settings path

/-- The paths that a run with a command line may look at. -/
def pathsOf (commandLine : List String) : List String :=
  match Invocation.read commandLine with
  | .ok (.run arguments) =>
    let settings := projectSettings :: arguments.config.toList
    settings ++ settings.filterMap (Path.withExtension? "toml") ++ arguments.path.toList
  | _ => []

/-- The outcome of a command line. -/
def run (files : Files) (commandLine : List String)
    (refuse : String → Option String := Pattern.refusal?) : RunOutcome :=
  match Invocation.read commandLine with
  | .error e => .refusal e.message
  | .ok .help => .success Usage.help ""
  | .ok .version => .success Usage.version ""
  | .ok (.run arguments) => runArguments refuse files arguments

end GrammarFile
