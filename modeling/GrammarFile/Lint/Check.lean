import GrammarFile.Lint.Index
import GrammarFile.Lint.Issue
import GrammarFile.Text.Blank

/-!
# Lints

The checks on a grammar file that parses, in a fixed order: the start symbol, the non-terminals, what
is out of reach, scanner states declared twice, scanner states that are not declared, and regular
expressions. Each gives its issues in the order of the file. The judge of regular expressions is a
parameter, which gives the text of an error where it refuses a pattern.
-/

namespace GrammarFile

/-- The scanner state that every grammar has. -/
def initialState : String := "INITIAL"

/-- The identifiers of which none before has the same name, and the others. `seen` holds the names
before the list. -/
def splitRepeats (seen : List String) : List Identifier → List Identifier × List Identifier
  | [] => ([], [])
  | i :: rest =>
    let (firsts, repeats) := splitRepeats (i.name :: seen) rest
    if seen.contains i.name then (firsts, i :: repeats) else (i :: firsts, repeats)

/-- Identifiers in the order of their places. -/
def sortByPlace (identifiers : List Identifier) : List Identifier :=
  identifiers.mergeSort fun i j => i.range.span.start ≤ j.range.span.start

/-- The names of `unvisited` that cannot be reached from the names in `queue`, where `next` gives what
a name leads to. Each step takes a name out of one of the two lists. -/
def unreached (next : String → List String) (unvisited queue : List String) : List String :=
  match queue with
  | [] => unvisited
  | name :: rest =>
    if name ∈ unvisited then unreached next (unvisited.erase name) (rest ++ next name)
    else unreached next unvisited rest
  termination_by (unvisited.length, queue.length)
  decreasing_by
    · rename_i h
      apply Prod.Lex.left
      have := List.length_pos_of_mem h
      rw [List.length_erase_of_mem h]
      omega
    · exact Prod.Lex.right _ (by simp)

/-- The pattern of a regular expression. A slash is written with a backslash in front, since it would
end the literal. -/
def Literal.pattern (l : Literal) : String :=
  String.ofList (unescapeSlashes l.content.toList)
where
  /-- The characters with each slash in place of a backslash and a slash. -/
  unescapeSlashes : List Char → List Char
    | '\\' :: '/' :: rest => '/' :: unescapeSlashes rest
    | c :: rest => c :: unescapeSlashes rest
    | [] => []

namespace Grammar

/-- The names of productions that are out of reach of the start symbol. -/
def unreachableNames (g : Grammar) : List String :=
  unreached g.index.successors g.index.names [g.startSymbol]

/-- A start symbol without a production. -/
def undefinedStarts (g : Grammar) : List LintIssue :=
  if g.index.defines g.startSymbol then [] else [.undefinedStart g.prolog.start.identifier]

/-- The non-terminals without a production. -/
def undefinedNonTerminals (g : Grammar) : List LintIssue :=
  let index := g.index
  (sortByPlace (index.references.filter fun i => !index.defines i.name)).map .undefinedNonTerminal

/-- The productions that are out of reach, where there is a start to reach them from. -/
def unreachableProductions (g : Grammar) : List LintIssue :=
  if g.index.defines g.startSymbol then
    let names := g.unreachableNames
    (sortByPlace (g.index.definitions.filter fun i => names.contains i.name)).map
      (.unreachableProduction · g.startSymbol)
  else []

/-- The scanner states with an earlier one of the same name. -/
def duplicateScannerStates (g : Grammar) : List LintIssue :=
  (splitRepeats [] g.stateNames).2.map .duplicateScannerState

/-- Whether a scanner state is known. -/
def knowsState (g : Grammar) (name : String) : Bool :=
  name = initialState || g.stateNames.any (·.name == name)

/-- The uses of scanner states that are not known. -/
def unknownScannerStates (g : Grammar) : List LintIssue :=
  (g.stateUses.filter fun i => !g.knowsState i.name).map .unknownScannerState

/-- The regular expressions that `refuse` gives an error for, each with the last line of the error. -/
def invalidRegexes (refuse : String → Option String) (g : Grammar) : List LintIssue :=
  g.regexes.filterMap fun l => (refuse l.pattern).map fun error => .invalidRegex l (Text.lastLine error)

/-- All issues, check by check. -/
def issues (refuse : String → Option String) (g : Grammar) : List LintIssue :=
  g.undefinedStarts ++ g.undefinedNonTerminals ++ g.unreachableProductions ++
    g.duplicateScannerStates ++ g.unknownScannerStates ++ g.invalidRegexes refuse

end Grammar

end GrammarFile
