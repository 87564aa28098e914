import GrammarFile.Lint
import Mathlib.Data.List.Nodup

/-!
# The lints check by check

What the lints find is laid out check by check, and everything that a check finds has the code of the
check. So the findings with that code are just what the check finds (`Grammar.filter_lint`), and the
findings of the six codes, one behind the other, are all that there is (`Grammar.lint_eq_flatMap`).
This holds whatever judges the patterns.
-/

namespace GrammarFile

/-- The codes of the checks, in the order in which they are made. -/
def LintIssue.codes : List String :=
  ["undefined-start", "undefined-non-terminal", "unreachable-production", "duplicate-scanner-state",
    "unknown-scanner-state", "invalid-regex"]

/-- The issues with the code of a check are those of the check, where each check has its own code. -/
theorem filter_flatMap_of_nodup {checks : List (String × List LintIssue)}
    (hcodes : ∀ check ∈ checks, ∀ issue ∈ check.2, issue.code = check.1)
    (hnodup : (checks.map (·.1)).Nodup) {check : String × List LintIssue} (h : check ∈ checks) :
    (checks.flatMap (·.2)).filter (·.code = check.1) = check.2 := by
  induction checks with
  | nil => exact absurd h List.not_mem_nil
  | cons head rest ih =>
    obtain ⟨hhead, hrest⟩ := List.forall_mem_cons.mp hcodes
    obtain ⟨hnotin, hnodup⟩ := List.nodup_cons.mp hnodup
    have hfresh : ∀ other ∈ rest, other.1 ≠ head.1 :=
      fun other hother heq => hnotin (List.mem_map.mpr ⟨other, hother, heq⟩)
    rw [List.flatMap_cons, List.filter_append]
    rcases List.mem_cons.mp h with rfl | hmem
    · have hkept : check.2.filter (·.code = check.1) = check.2 :=
        List.filter_eq_self.mpr fun issue hissue => decide_eq_true (hhead issue hissue)
      have hothers : (rest.flatMap (·.2)).filter (·.code = check.1) = [] := by
        refine List.filter_eq_nil_iff.mpr fun issue hissue => ?_
        obtain ⟨other, hother, hissue⟩ := List.mem_flatMap.mp hissue
        rw [decide_eq_true_eq, hrest other hother issue hissue]
        exact hfresh other hother
      rw [hkept, hothers, List.append_nil]
    · have hskipped : head.2.filter (·.code = check.1) = [] := by
        refine List.filter_eq_nil_iff.mpr fun issue hissue => ?_
        rw [decide_eq_true_eq, hhead issue hissue]
        exact (hfresh check hmem).symm
      rw [hskipped, List.nil_append, ih hrest hnodup hmem]

namespace Grammar

/-- The checks in the order in which they are made, each with its code and with what it finds, by a
judge of patterns. -/
def checks (refuse : String → Option String) (g : Grammar) : List (String × List LintIssue) :=
  [("undefined-start", g.undefinedStarts),
    ("undefined-non-terminal", g.undefinedNonTerminals),
    ("unreachable-production", g.unreachableProductions),
    ("duplicate-scanner-state", g.duplicateScannerStates),
    ("unknown-scanner-state", g.unknownScannerStates),
    ("invalid-regex", g.invalidRegexes refuse)]

/-- The codes of the checks are the six codes. -/
theorem map_fst_checks (refuse : String → Option String) (g : Grammar) :
    (g.checks refuse).map (·.1) = LintIssue.codes :=
  rfl

variable {refuse : String → Option String} {g : Grammar}

/-- All issues are those of the checks, one check behind the other. -/
theorem issues_eq_flatMap_checks : g.issues refuse = (g.checks refuse).flatMap (·.2) := by
  simp [issues, checks]

/-- **A check gives its own code to all that it finds.** -/
theorem code_of_mem_checks {check : String × List LintIssue} (h : check ∈ g.checks refuse) :
    ∀ issue ∈ check.2, issue.code = check.1 := by
  intro issue hissue
  simp only [checks, List.mem_cons, List.not_mem_nil, or_false] at h
  rcases h with rfl | rfl | rfl | rfl | rfl | rfl
  · rw [undefinedStarts] at hissue
    split at hissue
    · exact absurd hissue List.not_mem_nil
    · rw [List.mem_singleton.mp hissue]
      rfl
  · obtain ⟨i, -, rfl⟩ := List.mem_map.mp hissue
    rfl
  · rw [unreachableProductions] at hissue
    split at hissue
    · obtain ⟨i, -, rfl⟩ := List.mem_map.mp hissue
      rfl
    · exact absurd hissue List.not_mem_nil
  · obtain ⟨i, -, rfl⟩ := List.mem_map.mp hissue
    rfl
  · obtain ⟨i, -, rfl⟩ := List.mem_map.mp hissue
    rfl
  · obtain ⟨l, -, hrefused⟩ := List.mem_filterMap.mp hissue
    obtain ⟨reason, -, rfl⟩ := Option.map_eq_some_iff.mp hrefused
    rfl

/-- **What the lints find with the code of a check is what the check finds.** -/
theorem filter_lint {code : String} {issues : List LintIssue} (h : (code, issues) ∈ g.checks refuse) :
    (g.lint refuse).filter (·.code = some code) = issues.map (·.diagnostic) := by
  have hnodup : ((g.checks refuse).map (·.1)).Nodup := by
    rw [map_fst_checks]
    decide
  have hfilter := filter_flatMap_of_nodup (fun _ => code_of_mem_checks) hnodup h
  rw [lint, issues_eq_flatMap_checks, List.filter_map]
  simpa [Function.comp_def, LintIssue.diagnostic] using congrArg (List.map (·.diagnostic)) hfilter

/-- **The lints lay out what they find check by check.** -/
theorem lint_eq_flatMap :
    g.lint refuse = LintIssue.codes.flatMap fun code => (g.lint refuse).filter (·.code = some code) := by
  rw [← map_fst_checks refuse g, List.flatMap_map]
  have hgroups : (g.checks refuse).flatMap (fun check => (g.lint refuse).filter (·.code = some check.1)) =
      (g.checks refuse).flatMap fun check => check.2.map (·.diagnostic) :=
    List.flatMap_congr fun check hcheck => filter_lint hcheck
  rw [hgroups, lint, issues_eq_flatMap_checks, List.map_flatMap]

end Grammar

end GrammarFile
