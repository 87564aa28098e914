import GrammarFile.Lint
import GrammarFile.Proofs.Lint.Index
import GrammarFile.Proofs.Locations.Erase

/-!
# Lints without locations

What a grammar mentions and what is out of reach in it are the same without the locations of the tree,
up to locations. The issues are sorted by their places, but where the names stand in order that is the
order of the file, which takes no place to tell. So two trees that are the same up to locations have the
same issues up to locations (`Grammar.issues_of_erase_eq`), and since an issue keeps its code, its
severity and its wording, the same findings, each at its own place (`Grammar.lint_of_erase_eq`).
-/

namespace GrammarFile

/-! ### Symbols -/

/-- An identifier has the same name without its location. -/
@[simp]
theorem Identifier.name_erase (i : Identifier) : i.erase.name = i.name :=
  rfl

/-- A symbol without locations is the same non-terminal, if it is one. -/
@[simp]
theorem Symbol.nonTerminal?_erase (s : Symbol) : s.erase.nonTerminal? = s.nonTerminal?.map (·.erase) := by
  unfold nonTerminal? Symbol.erase
  cases s.kind <;> rfl

/-- A symbol without locations has the same scanner states. -/
@[simp]
theorem Symbol.states_erase (s : Symbol) : s.erase.states = s.states.map (·.erase) := by
  unfold states Symbol.erase
  cases s.kind <;> rfl

/-- A terminal without locations has the same literals. -/
@[simp]
theorem Terminal.literals_erase (t : Terminal) : t.erase.literals = t.literals.map (·.erase) := by
  unfold literals Terminal.erase
  cases t.lookAhead <;> rfl

/-- A symbol without locations has the same literals. -/
@[simp]
theorem Symbol.literals_erase (s : Symbol) : s.erase.literals = s.literals.map (·.erase) := by
  unfold literals terminal? Symbol.erase
  cases s.kind with
  | nonTerminal i => rfl
  | terminal t | terminalIn _ t => exact t.literals_erase

mutual

/-- A factor without locations has the same symbols. -/
theorem Factor.symbols_erase : (f : Factor) → f.erase.symbols = f.symbols.map (·.erase)
  | .symbol _ => rfl
  | .bracketed _ none _ => rfl
  | .bracketed _ (some ⟨as, _⟩) _ => by
    rw [Factor.erase, Factor.symbols, Factor.symbols, bodySymbols_erase as]

/-- A body without locations has the same symbols. -/
theorem bodySymbols_erase : (as : List (AlternationOf Factor)) →
    bodySymbols (eraseAlternations as) = (bodySymbols as).map (·.erase)
  | [] => rfl
  | ⟨fs, _⟩ :: as => by
    rw [eraseAlternations, bodySymbols, bodySymbols, factorSymbols_erase fs, bodySymbols_erase as,
      List.map_append]

/-- Factors without locations have the same symbols. -/
theorem factorSymbols_erase : (fs : List Factor) →
    factorSymbols (eraseFactors fs) = (factorSymbols fs).map (·.erase)
  | [] => rfl
  | f :: fs => by
    rw [eraseFactors, factorSymbols, factorSymbols, f.symbols_erase, factorSymbols_erase fs,
      List.map_append]

end

namespace Production

variable (p : Production)

/-- A production without locations has the same symbols. -/
@[simp]
theorem symbols_erase : p.erase.symbols = p.symbols.map (·.erase) := by
  have hbody : p.erase.alternations = eraseAlternations p.alternations := by
    unfold alternations Production.erase
    cases p.body <;> rfl
  rw [symbols, symbols, hbody, bodySymbols_erase]

/-- A production without locations has the same references. -/
@[simp]
theorem references_erase : p.erase.references = p.references.map (·.erase) := by
  simp only [references, symbols_erase, List.filterMap_map, List.map_filterMap, Function.comp_def,
    Symbol.nonTerminal?_erase]

end Production

/-! ### Directives -/

/-- A switch without locations has the same target. -/
theorem StateSwitch.target?_erase (s : StateSwitch) : s.erase.target? = s.target?.map (·.erase) := by
  unfold target? StateSwitch.erase
  cases s.kind <;> rfl

/-- A directive without locations has the same target. -/
@[simp]
theorem Directive.target?_erase (d : Directive) : d.erase.target? = d.target?.map (·.erase) := by
  unfold target? Directive.erase
  cases d.kind with
  | on terminals switch => exact switch.target?_erase
  | _ => rfl

/-- A directive without locations has the same literals. -/
@[simp]
theorem Directive.literals_erase (d : Directive) : d.erase.literals = d.literals.map (·.erase) := by
  unfold literals Directive.erase
  cases d.kind <;> rfl

/-- A declaration without locations has the same directive. -/
@[simp]
theorem Declaration.directive?_erase (d : Declaration) :
    d.erase.directive? = d.directive?.map (·.erase) := by
  unfold directive? Declaration.erase
  cases d.kind <;> rfl

/-! ### What a grammar mentions -/

namespace Grammar

variable (g : Grammar)

/-- A file without locations has the same productions. -/
@[simp]
theorem productions_erase : g.erase.productions = g.productions.map (·.erase) :=
  rfl

/-- A file without locations has the same start symbol. -/
@[simp]
theorem startSymbol_erase : g.erase.startSymbol = g.startSymbol :=
  rfl

/-- A file without locations has the same directives. -/
@[simp]
theorem directives_erase : g.erase.directives = g.directives.map (·.erase) := by
  simp [directives, Grammar.erase, Prolog.erase, List.filterMap_map, List.map_filterMap, List.flatMap_map,
    List.map_flatMap, ScannerState.erase]

/-- A file without locations has the same symbols. -/
@[simp]
theorem symbols_erase : g.erase.symbols = g.symbols.map (·.erase) := by
  simp [symbols, List.flatMap_map, List.map_flatMap]

/-- A file without locations has the same references. -/
@[simp]
theorem references_erase : g.erase.references = g.references.map (·.erase) := by
  simp [references, List.flatMap_map, List.map_flatMap]

/-- A file without locations has productions of the same names. -/
@[simp]
theorem productionNames_erase : g.erase.productionNames = g.productionNames.map (·.erase) := by
  simp [productionNames, Production.erase, Function.comp_def]

/-- A file without locations defines the same names. -/
@[simp]
theorem defines_erase (name : String) : g.erase.defines name = g.defines name := by
  simp [defines, Production.erase, Function.comp_def]

/-- A file without locations declares the same scanner states. -/
@[simp]
theorem stateNames_erase : g.erase.stateNames = g.stateNames.map (·.erase) := by
  simp [stateNames, Grammar.erase, Prolog.erase, ScannerState.erase, Function.comp_def]

/-- A file without locations uses the same scanner states. -/
@[simp]
theorem stateUses_erase : g.erase.stateUses = g.stateUses.map (·.erase) := by
  simp [stateUses, List.filterMap_map, List.map_filterMap, List.flatMap_map, List.map_flatMap]

/-- A file without locations has the same regular expressions. -/
@[simp]
theorem regexes_erase : g.erase.regexes = g.regexes.map (·.erase) := by
  have hliterals : g.erase.literals = g.literals.map (·.erase) := by
    simp [literals, List.flatMap_map, List.map_flatMap]
  rw [regexes, hliterals, List.filter_map]
  rfl

end Grammar

/-! ### The index -/

namespace Grammar

variable (g : Grammar)

/-- The index of a file without locations knows the same names. -/
@[simp]
theorem index_defines_erase : g.erase.index.defines = g.index.defines := by
  funext name
  rw [defines_index, defines_index, defines_erase]

/-- The names that a name leads to are found without locations. -/
@[simp]
theorem index_successors_erase : g.erase.index.successors = g.index.successors := by
  funext name
  have hnamed : g.erase.productionsNamed name = (g.productionsNamed name).map (·.erase) := by
    rw [productionsNamed, productions_erase, List.filter_map]
    rfl
  have hfound : g.erase.productions.find? (·.name.name == name) =
      (g.productions.find? (·.name.name == name)).map (·.erase) := by
    rw [productions_erase, List.find?_map]
    rfl
  rw [ProductionIndex.successors, ProductionIndex.successors, index_defines_erase, get?_index, get?_index,
    hnamed, hfound]
  cases g.productions.find? (·.name.name == name) with
  | none => rfl
  | some p => simp [List.flatMap_map, List.map_flatMap, Function.comp_def]

/-- The index of a file without locations lists the same names. -/
theorem index_names_erase : g.erase.index.names = g.index.names :=
  Catalog.names_eq_of_isSome_eq fun name => congrFun g.index_defines_erase name

end Grammar

/-! ### The issues -/

/-- The issue without its location. -/
def LintIssue.erase : LintIssue → LintIssue
  | undefinedStart i => undefinedStart i.erase
  | undefinedNonTerminal i => undefinedNonTerminal i.erase
  | unreachableProduction i start => unreachableProduction i.erase start
  | duplicateScannerState i => duplicateScannerState i.erase
  | unknownScannerState i => unknownScannerState i.erase
  | invalidRegex l reason => invalidRegex l.erase reason

/-- Which names are repeats does not depend on where they stand. -/
theorem splitRepeats_erase (seen : List String) (is : List Identifier) :
    splitRepeats seen (is.map (·.erase)) =
      (splitRepeats seen is).map (List.map (·.erase)) (List.map (·.erase)) := by
  induction is generalizing seen with
  | nil => rfl
  | cons i is ih =>
    simp only [List.map_cons, splitRepeats, Identifier.name_erase, ih]
    split <;> rfl

namespace Grammar

variable (g : Grammar)

/-- A file without locations has the same first definitions. -/
theorem firstDefinitions_erase : g.erase.firstDefinitions = g.firstDefinitions.map (·.erase) := by
  rw [firstDefinitions, productionNames_erase, splitRepeats_erase]
  rfl

/-- What is out of reach is so without locations. -/
theorem unreachableNames_erase : g.erase.unreachableNames = g.unreachableNames := by
  rw [unreachableNames, unreachableNames, index_names_erase, index_successors_erase, startSymbol_erase]

/-- Whether the start is defined does not depend on locations. -/
theorem undefinedStarts_erase : g.erase.undefinedStarts = g.undefinedStarts.map (·.erase) := by
  unfold undefinedStarts
  rw [index_defines_erase, startSymbol_erase]
  split <;> rfl

variable {g} in
/-- In a file in order, sorting by place has no part in the undefined non-terminals. -/
theorem map_erase_undefinedNonTerminals (h : g.InOrder) :
    g.undefinedNonTerminals.map (·.erase) =
      (g.erase.references.filter fun i => !g.erase.defines i.name).map .undefinedNonTerminal := by
  simp only [undefinedNonTerminals_eq h, references_erase, List.filter_map, List.map_map,
    Function.comp_def, Identifier.name_erase, defines_erase]
  rfl

variable {g} in
/-- In a file in order, sorting by place has no part in the unreachable productions. -/
theorem map_erase_unreachableProductions (h : g.InOrder) :
    g.unreachableProductions.map (·.erase) =
      if g.erase.defines g.erase.startSymbol then
        (g.erase.firstDefinitions.filter fun i => g.erase.unreachableNames.contains i.name).map
          (.unreachableProduction · g.erase.startSymbol)
      else [] := by
  rw [unreachableProductions_eq h, defines_erase, startSymbol_erase, unreachableNames_erase,
    firstDefinitions_erase]
  split
  · simp only [List.filter_map, List.map_map]
    rfl
  · rfl

/-- Which scanner states are declared twice does not depend on locations. -/
theorem duplicateScannerStates_erase :
    g.erase.duplicateScannerStates = g.duplicateScannerStates.map (·.erase) := by
  rw [duplicateScannerStates, stateNames_erase, splitRepeats_erase, duplicateScannerStates, List.map_map]
  exact List.map_map

/-- Which scanner states are unknown does not depend on locations. -/
theorem unknownScannerStates_erase :
    g.erase.unknownScannerStates = g.unknownScannerStates.map (·.erase) := by
  have hknows : ∀ name, g.erase.knowsState name = g.knowsState name := by
    intro name
    simp [knowsState, Function.comp_def]
  simp only [unknownScannerStates, stateUses_erase, List.filter_map, List.map_map, Function.comp_def,
    Identifier.name_erase, hknows]
  rfl

/-- Which regular expressions are refused does not depend on locations, for every judge. -/
theorem invalidRegexes_erase (refuse : String → Option String) :
    g.erase.invalidRegexes refuse = (g.invalidRegexes refuse).map (·.erase) := by
  simp only [invalidRegexes, regexes_erase, List.filterMap_map, List.map_filterMap, Function.comp_def,
    Option.map_map]
  rfl

/-- **Trees that are the same up to locations have the same issues up to locations**, in the same order,
whatever judges the regular expressions. -/
theorem issues_of_erase_eq {g h : Grammar} (hg : g.InOrder) (hh : h.InOrder) (heq : g.erase = h.erase)
    (refuse : String → Option String) :
    (g.issues refuse).map (·.erase) = (h.issues refuse).map (·.erase) := by
  simp only [issues, List.map_append, ← undefinedStarts_erase, map_erase_undefinedNonTerminals hg,
    map_erase_undefinedNonTerminals hh, map_erase_unreachableProductions hg,
    map_erase_unreachableProductions hh, ← duplicateScannerStates_erase, ← unknownScannerStates_erase,
    ← invalidRegexes_erase, heq]

end Grammar

/-! ### The findings -/

/-- What a finding says, apart from its place. -/
def Diagnostic.content (d : Diagnostic) : Option String × Severity × String :=
  (d.code, d.severity, d.message)

/-- An issue says the same without its location. -/
theorem LintIssue.content_erase (issue : LintIssue) :
    issue.erase.diagnostic.content = issue.diagnostic.content := by
  cases issue <;> rfl

/-- **Trees that are the same up to locations have the same findings** in the same order, apart from the
places, whatever judges the regular expressions. -/
theorem Grammar.lint_of_erase_eq {g h : Grammar} (hg : g.InOrder) (hh : h.InOrder)
    (heq : g.erase = h.erase) (refuse : String → Option String) :
    (g.lint refuse).map (·.content) = (h.lint refuse).map (·.content) := by
  have hcontent : ∀ issues : List LintIssue,
      (issues.map (·.diagnostic)).map (·.content) =
        (issues.map (·.erase)).map fun issue => issue.diagnostic.content := by
    intro issues
    simp only [List.map_map, Function.comp_def, LintIssue.content_erase]
  rw [lint, lint, hcontent, hcontent, issues_of_erase_eq hg hh heq]

end GrammarFile
