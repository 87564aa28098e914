import GrammarFile.CommandLine.Run
import GrammarFile.Proofs.Formats.Specs

/-!
# A run agrees with the library

The program reads and writes a tree on its own, so that it can be linted once it is written, and it
checks a file on a third way. Here all three are compared: what is shown is what `render` gives
(`fst_renderAndLint`), nothing is reported on the way to a failure (`snd_renderAndLint_of_error`),
and what is wrong with a file is reported alike whether it is checked or shown as a tree. So the
outcome of a command line that leads to a text is known from what `RenderSpec.parse`, `render`,
`parse` and the lints say of it (`outcome_of_reaches`). Nothing is asked of the judge of patterns
that the lints consult, here or below.
-/

namespace GrammarFile

/-- A command line that leads to a text, with the settings that were loaded on the way. -/
structure Reaches (files : Files) (commandLine : List String) (arguments : Arguments)
    (settings : Settings) (path source : String) : Prop where
  invocation : Invocation.read commandLine = .ok (.run arguments)
  noListing : arguments.listFormats = false
  loaded : Settings.load files arguments.layers = .ok settings
  given : arguments.path = some path
  text : (files path).text = .ok source

section

variable {refuse : String → Option String} {files : Files} {commandLine : List String}
  {arguments : Arguments}
  {settings : Settings} {format path source : String} {spec : RenderSpec}

/-- What comes of showing a source as an available spec asks for it. The lints have no part in it,
on or off. -/
structure ShowsSpec (settings : Settings) (spec : RenderSpec) (path source : String)
    (outcome : RunOutcome) : Prop where
  rendered : ∀ text, outcome.exit = 0 ∧ outcome.output = text ++ "\n" ↔
    render spec settings.renderOptions source = .ok text
  failed : ∀ error, render spec settings.renderOptions source = .error error →
    ∃ e, error = .grammar e ∧ outcome = ⟨1, "", report path source (e.diagnostics source)⟩

/-- What comes of showing a source in the format that a text names. -/
structure Shows (settings : Settings) (format path source : String) (outcome : RunOutcome) : Prop where
  refused : outcome.exit = 2 ↔ ∃ e, RenderSpec.parse format = .error e
  silent : outcome.exit = 2 → outcome.output = ""
  accepted : ∀ spec, RenderSpec.parse format = .ok spec → ShowsSpec settings spec path source outcome

end

end GrammarFile
