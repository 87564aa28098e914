import GrammarFile.Proofs.Derivation.Parse
import GrammarFile.Proofs.Lint.Checks
import GrammarFile.Proofs.Lint.Index
import GrammarFile.Proofs.Lint.Occurrence

/-!
# The findings in order

What the lints find in a parsed grammar is grouped by checks, and within each group it stands in the order
of the file (`Grammar.pairwise_checks`). Each check picks its findings out of a list that stands in that
order: the non-terminals, the first definitions, the scanner states and their uses, or the literals.

The non-terminals without a production are found one by one: each that stands in some body, at whatever
depth of brackets, and at its own place (`lint_undefined_non_terminals`).
-/

namespace GrammarFile

/-- Names that have an earlier one of the same name stand among the names in their order. -/
theorem splitRepeats_snd_sublist (seen : List String) (is : List Identifier) :
    (splitRepeats seen is).2.Sublist is := by
  induction is generalizing seen with
  | nil => exact .slnil
  | cons i is ih =>
    rw [splitRepeats]
    dsimp only
    split
    · exact (ih _).cons_cons i
    · exact (ih _).cons i

/-- **Every check on a parsed grammar finds its issues in the order of the file.** -/
theorem Grammar.pairwise_checks {source : String} {options : ParserOptions} {g : Grammar}
    (h : parse source options = .ok g) {refuse : String → Option String} {check : String × List LintIssue}
    (hcheck : check ∈ g.checks refuse) :
    check.2.Pairwise (·.range.span.start < ·.range.span.start) := by
  have horder := inOrder_of_parse h
  simp only [checks, List.mem_cons, List.not_mem_nil, or_false] at hcheck
  rcases hcheck with rfl | rfl | rfl | rfl | rfl | rfl
  · dsimp only
    rw [undefinedStarts]
    split
    · exact .nil
    · exact List.pairwise_singleton _ _
  · dsimp only
    rw [undefinedNonTerminals_eq horder, List.pairwise_map]
    exact horder.references.filter _
  · dsimp only
    rw [unreachableProductions_eq horder]
    split
    · rw [List.pairwise_map]
      exact horder.firstDefinitions.filter _
    · exact .nil
  · exact List.pairwise_map.mpr ((pairwise_stateNames_of_parse h).sublist (splitRepeats_snd_sublist _ _))
  · exact List.pairwise_map.mpr ((pairwise_stateUses_of_parse h).filter _)
  · refine List.Pairwise.filterMap _ ?_ ((pairwise_literals_of_parse h).filter _)
    intro l l' hlt issue hissue issue' hissue'
    obtain ⟨error, -, rfl⟩ := Option.map_eq_some_iff.mp hissue
    obtain ⟨error', -, rfl⟩ := Option.map_eq_some_iff.mp hissue'
    exact hlt

/-- **Each non-terminal without a production is found once, and the findings are grouped by checks.** The
non-terminals are those that stand in the bodies of the productions, in the order of the file; those
whose name has no production are found in that order, each at its own place. All findings stand check by
check, and those of each check start at increasing byte offsets. All this holds for every judge of
patterns. -/
theorem lint_undefined_non_terminals {source : String} {options : ParserOptions} {g : Grammar}
    (h : parse source options = .ok g) :
    (∀ i, i ∈ g.references ↔ ∃ p ∈ g.productions, p.Mentions i) ∧
    g.references.Pairwise (·.range.span.start < ·.range.span.start) ∧
    ∀ refuse : String → Option String,
      (g.lint refuse).filter (·.code = some "undefined-non-terminal") =
        (g.references.filter fun i => !g.defines i.name).map
          (fun i => (LintIssue.undefinedNonTerminal i).diagnostic) ∧
      g.lint refuse =
        LintIssue.codes.flatMap (fun code => (g.lint refuse).filter (·.code = some code)) ∧
      ∀ code ∈ LintIssue.codes,
        ((g.lint refuse).filter (·.code = some code)).Pairwise
          (·.range.span.start < ·.range.span.start) := by
  have horder := inOrder_of_parse h
  refine ⟨fun _ => Grammar.mem_references_iff, horder.references, fun refuse => ?_⟩
  refine ⟨?_, Grammar.lint_eq_flatMap, ?_⟩
  · have hfound : (g.lint refuse).filter (·.code = some "undefined-non-terminal") =
        g.undefinedNonTerminals.map (·.diagnostic) :=
      Grammar.filter_lint (by simp [Grammar.checks])
    rw [hfound, Grammar.undefinedNonTerminals_eq horder, List.map_map]
    rfl
  · intro code hcode
    rw [← Grammar.map_fst_checks refuse g, List.mem_map] at hcode
    obtain ⟨check, hcheck, rfl⟩ := hcode
    rw [Grammar.filter_lint hcheck, List.pairwise_map]
    exact Grammar.pairwise_checks h hcheck

/-- A non-terminal without a production between brackets, in front of another one in the second
production of the start symbol. -/
theorem lint_undefined_non_terminals_brackets :
    ∃ g, parse "%start S%%S:[{(B)}];A:B;S:A C;" .default = .ok g ∧
      (g.references.filter fun i => !g.defines i.name).map (·.name) = ["B", "B", "C"] ∧
      (∀ i, i ∈ g.references ↔ ∃ p ∈ g.productions, p.Mentions i) ∧
      g.references.Pairwise (·.range.span.start < ·.range.span.start) ∧
      ∀ refuse : String → Option String,
        (g.lint refuse).filter (·.code = some "undefined-non-terminal") =
          (g.references.filter fun i => !g.defines i.name).map
            (fun i => (LintIssue.undefinedNonTerminal i).diagnostic) ∧
        g.lint refuse =
          LintIssue.codes.flatMap (fun code => (g.lint refuse).filter (·.code = some code)) ∧
        ∀ code ∈ LintIssue.codes,
          ((g.lint refuse).filter (·.code = some code)).Pairwise
            (·.range.span.start < ·.range.span.start) := by
  have hok : (parse "%start S%%S:[{(B)}];A:B;S:A C;" .default).isOk := by decide +kernel
  have hnames : (parse "%start S%%S:[{(B)}];A:B;S:A C;" .default).map (fun g =>
      (g.references.filter fun i => !g.defines i.name).map (·.name)) = .ok ["B", "B", "C"] := by
    decide +kernel
  obtain ⟨g, hg⟩ := exists_parse_of_isOk hok
  rw [hg] at hnames
  exact ⟨g, hg, Except.ok.inj hnames, lint_undefined_non_terminals hg⟩

end GrammarFile
