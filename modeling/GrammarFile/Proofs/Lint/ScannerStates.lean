import GrammarFile.Proofs.Derivation.Parse
import GrammarFile.Proofs.Lint.Checks
import GrammarFile.Proofs.Lint.Groups
import GrammarFile.Proofs.Lint.Occurrence
import Mathlib.Data.List.Perm.Basic

/-!
# Scanner states declared twice, or not at all

The declarations of scanner states are split into those of a new name and those that repeat an earlier
one. So a declaration is found just where one before it has the same name (`mem_splitRepeats_snd_iff`).
Whether a state is known goes by all the declarations of the file, wherever they stand, and every use of
an unknown one is found at its own place (`lint_scanner_states`).

The names behind `%on` are terminals. Like all names that a tree keeps they have places of their
own, apart from those of the uses of states, so none of them is found
(`Grammar.start_ne_of_mem_terminals`).
-/

namespace GrammarFile

/-- The names that repeat one seen before: before the list, or earlier in it. -/
theorem mem_splitRepeats_snd_iff {seen : List String} {is : List Identifier} {i : Identifier} :
    i ∈ (splitRepeats seen is).2 ↔
      ∃ before behind, is = before ++ i :: behind ∧ (i.name ∈ seen ∨ ∃ j ∈ before, j.name = i.name) := by
  induction is generalizing seen with
  | nil => simp [splitRepeats]
  | cons k is ih =>
    have hhead : i ∈ (splitRepeats seen (k :: is)).2 ↔
        (k = i ∧ k.name ∈ seen) ∨ i ∈ (splitRepeats (k.name :: seen) is).2 := by
      rw [splitRepeats]
      dsimp only
      split
      · rename_i hcontains
        rw [List.mem_cons, and_iff_left (List.contains_iff_mem.mp hcontains), eq_comm]
      · rename_i hnot
        exact (or_iff_right fun h => hnot (List.contains_iff_mem.mpr h.2)).symm
    rw [hhead, ih]
    constructor
    · rintro (⟨rfl, hseen⟩ | ⟨before, behind, rfl, h⟩)
      · exact ⟨[], is, rfl, .inl hseen⟩
      · refine ⟨k :: before, behind, rfl, ?_⟩
        rcases h with h | ⟨j, hj, hname⟩
        · rcases List.mem_cons.mp h with hk | hseen
          · exact .inr ⟨k, List.mem_cons_self, hk.symm⟩
          · exact .inl hseen
        · exact .inr ⟨j, List.mem_cons_of_mem k hj, hname⟩
    · rintro ⟨_ | ⟨j, before⟩, behind, heq, h⟩
      · obtain ⟨rfl, rfl⟩ := List.cons.inj heq
        have hnone : ¬∃ j ∈ ([] : List Identifier), j.name = k.name := by simp
        exact .inl ⟨rfl, h.resolve_right hnone⟩
      · obtain ⟨rfl, rfl⟩ := List.cons.inj heq
        refine .inr ⟨before, behind, rfl, ?_⟩
        rcases h with hseen | ⟨j, hj, hname⟩
        · exact .inl (List.mem_cons_of_mem k.name hseen)
        · rcases List.mem_cons.mp hj with rfl | hbefore
          · exact .inl (hname ▸ List.mem_cons_self)
          · exact .inr ⟨j, hbefore, hname⟩

/-! ### The terminals after `%on` -/

/-- The terminals at which a directive switches to another scanner state. -/
def Directive.terminals (d : Directive) : List Identifier :=
  match d.kind with
  | .on terminals _ => terminals.identifiers
  | _ => []

/-- The terminals and the target of a directive stand in the order of the file. -/
theorem Directive.names_sublist_kept (d : Directive) :
    ((d.terminals ++ d.target?.toList).map (·.located)).Sublist d.piece.kept := by
  obtain ⟨kind, range⟩ := d
  cases kind with
  | on terminals switch =>
    obtain ⟨kind, range⟩ := switch
    cases kind <;>
      simp [Directive.terminals, target?, StateSwitch.target?, piece, DirectiveKind.pieces,
        StateSwitch.piece, StateSwitchKind.pieces, IdentifierList.kept_piece]
  | _ => exact List.nil_sublist _

section

variable {source : String} {options : ParserOptions} {g : Grammar}

/-- **A terminal after `%on` does not stand where a scanner state is used.** -/
theorem Grammar.start_ne_of_mem_terminals (h : parse source options = .ok g) {d : Directive}
    (hd : d ∈ g.directives) {i j : Identifier} (hi : i ∈ d.terminals) (hj : j ∈ g.stateUses) :
    i.range.span.start ≠ j.range.span.start := by
  -- with the terminals in front of its target, each directive has its names in order
  have hsublist : ((g.directives.flatMap (fun d => d.terminals ++ d.target?.toList) ++
      g.symbols.flatMap (·.states)).map (·.located)).Sublist g.piece.kept := by
    rw [List.map_append, List.map_flatMap, List.map_flatMap]
    exact g.pick_sublist_kept Directive.names_sublist_kept Symbol.states_sublist_kept
  have hperm : (g.directives.flatMap (·.terminals) ++ g.stateUses).Perm
      (g.directives.flatMap (fun d => d.terminals ++ d.target?.toList) ++
        g.symbols.flatMap (·.states)) := by
    rw [stateUses, List.filterMap_eq_flatMap_toList, ← List.append_assoc]
    exact (List.flatMap_append_perm _ _ _).append_right _
  have hnodup := (pairwise_start_of_sublist_kept h hsublist).imp fun hlt => Nat.ne_of_lt hlt
  have hapart := (hperm.pairwise_iff fun hne => hne.symm).mpr hnodup
  exact (List.pairwise_append.mp hapart).2.2 i (List.mem_flatMap.mpr ⟨d, hd, hi⟩) j hj

/-- A scanner state is declared again just where an earlier one has its name. -/
theorem Grammar.mem_repeats_iff (h : parse source options = .ok g) {before behind : List ScannerState}
    {s : ScannerState} (hsplit : g.prolog.states = before ++ s :: behind) :
    s.name ∈ (splitRepeats [] g.stateNames).2 ↔ ∃ s' ∈ before, s'.name.name = s.name.name := by
  have hnames : g.stateNames = before.map (·.name) ++ s.name :: behind.map (·.name) := by
    rw [stateNames, hsplit, List.map_append, List.map_cons]
  rw [mem_splitRepeats_snd_iff]
  constructor
  · rintro ⟨before', behind', hsplit', hseen | ⟨j, hj, hname⟩⟩
    · exact absurd hseen List.not_mem_nil
    · -- a name with its place stands in one place of the list only
      have hnodup : g.stateNames.Nodup := by
        refine (pairwise_stateNames_of_parse h).imp fun hlt heq => ?_
        rw [heq] at hlt
        exact Nat.lt_irrefl _ hlt
      rw [hnames, List.nodup_middle, List.nodup_cons, List.mem_append, not_or] at hnodup
      obtain ⟨rfl, -, -⟩ := (List.append_cons_inj_of_notMem hnodup.1.1 hnodup.1.2).mp
        (hnames.symm.trans hsplit')
      obtain ⟨s', hs', rfl⟩ := List.mem_map.mp hj
      exact ⟨s', hs', hname⟩
  · rintro ⟨s', hs', hname⟩
    exact ⟨before.map (·.name), behind.map (·.name), hnames,
      .inr ⟨s'.name, List.mem_map_of_mem hs', hname⟩⟩

/-- A scanner state is known if it is the initial one or is declared. -/
theorem Grammar.knowsState_iff {name : String} :
    g.knowsState name ↔ name = initialState ∨ ∃ s ∈ g.prolog.states, s.name.name = name := by
  simp [knowsState, stateNames]

/-! ### Parsed grammars -/

/-- **Scanner states are found where they are declared again, and where they are used and unknown.** The
declarations that are found are those with an earlier one of the same name. The uses that are found are
those of a state that is neither the initial one nor declared anywhere in the file. Both are found once
and in the order of the file, and no terminal after `%on` is among the uses. The judge of patterns has no
part in it. -/
theorem lint_scanner_states (h : parse source options = .ok g) :
    ∃ repeats unknown : List Identifier,
      (∀ refuse : String → Option String,
        (g.lint refuse).filter (·.code = some "duplicate-scanner-state") =
          repeats.map fun i => (LintIssue.duplicateScannerState i).diagnostic) ∧
      repeats.Sublist (g.prolog.states.map (·.name)) ∧
      repeats.Pairwise (·.range.span.start < ·.range.span.start) ∧
      (∀ before s behind, g.prolog.states = before ++ s :: behind →
        (s.name ∈ repeats ↔ ∃ s' ∈ before, s'.name.name = s.name.name)) ∧
      (∀ refuse : String → Option String,
        (g.lint refuse).filter (·.code = some "unknown-scanner-state") =
          unknown.map fun i => (LintIssue.unknownScannerState i).diagnostic) ∧
      unknown.Pairwise (·.range.span.start < ·.range.span.start) ∧
      (∀ i, i ∈ unknown ↔
        g.UsesState i ∧ i.name ≠ initialState ∧ ∀ s ∈ g.prolog.states, s.name.name ≠ i.name) ∧
      ∀ d terminals switch, g.prolog.Holds d → d.kind = .on terminals switch →
        ∀ i ∈ terminals.identifiers, ∀ j ∈ unknown, i.range.span.start ≠ j.range.span.start := by
  have hduplicate (refuse : String → Option String) :
      (g.lint refuse).filter (·.code = some "duplicate-scanner-state") =
        g.duplicateScannerStates.map (·.diagnostic) :=
    Grammar.filter_lint (by simp [Grammar.checks])
  have hunknown (refuse : String → Option String) :
      (g.lint refuse).filter (·.code = some "unknown-scanner-state") =
        g.unknownScannerStates.map (·.diagnostic) :=
    Grammar.filter_lint (by simp [Grammar.checks])
  have hrepeats : (splitRepeats [] g.stateNames).2.Sublist g.stateNames := splitRepeats_snd_sublist _ _
  refine ⟨(splitRepeats [] g.stateNames).2, g.stateUses.filter fun i => !g.knowsState i.name, ?_,
    hrepeats,
    (pairwise_stateNames_of_parse h).sublist hrepeats, fun _ _ _ => Grammar.mem_repeats_iff h, ?_,
    (pairwise_stateUses_of_parse h).filter _, ?_, ?_⟩
  · intro refuse
    rw [hduplicate, Grammar.duplicateScannerStates, List.map_map]
    rfl
  · intro refuse
    rw [hunknown, Grammar.unknownScannerStates, List.map_map]
    rfl
  · intro i
    rw [List.mem_filter, Grammar.mem_stateUses_iff, Bool.not_eq_true', Bool.eq_false_iff, ne_eq,
      Grammar.knowsState_iff]
    simp only [not_or, not_exists, not_and, ne_eq]
  · intro d terminals switch hd hkind i hi j hj
    have hterminals : i ∈ d.terminals := by
      rw [Directive.terminals, hkind]
      exact hi
    exact Grammar.start_ne_of_mem_terminals h (Grammar.mem_directives_iff.mpr hd) hterminals
      (List.mem_filter.mp hj).1

end

/-- A state that is declared twice, and unknown ones behind `%enter` and in angle brackets between other
brackets. -/
def strayStates : String :=
  "%start A%on X,Y%enter U%scanner S\x7b%on U%push S\x7d%scanner S\x7b%on Z%pop\x7d" ++
    "%%A:<S,V>/a/[(<INITIAL,W>/b/)];"

/-- The `U` behind `%enter` is a use of the state, the terminal `U` behind `%on` is not. -/
theorem lint_scanner_states_brackets :
    ∃ g, parse strayStates .default = .ok g ∧
      g.stateUses.map (·.name) = ["U", "S", "S", "V", "INITIAL", "W"] ∧
      ∃ repeats unknown : List Identifier,
        (∀ refuse : String → Option String,
          (g.lint refuse).filter (·.code = some "duplicate-scanner-state") =
            repeats.map fun i => (LintIssue.duplicateScannerState i).diagnostic) ∧
        repeats.Sublist (g.prolog.states.map (·.name)) ∧
        repeats.Pairwise (·.range.span.start < ·.range.span.start) ∧
        (∀ before s behind, g.prolog.states = before ++ s :: behind →
          (s.name ∈ repeats ↔ ∃ s' ∈ before, s'.name.name = s.name.name)) ∧
        (∀ refuse : String → Option String,
          (g.lint refuse).filter (·.code = some "unknown-scanner-state") =
            unknown.map fun i => (LintIssue.unknownScannerState i).diagnostic) ∧
        unknown.Pairwise (·.range.span.start < ·.range.span.start) ∧
        (∀ i, i ∈ unknown ↔
          g.UsesState i ∧ i.name ≠ initialState ∧ ∀ s ∈ g.prolog.states, s.name.name ≠ i.name) ∧
        ∀ d terminals switch, g.prolog.Holds d → d.kind = .on terminals switch →
          ∀ i ∈ terminals.identifiers, ∀ j ∈ unknown, i.range.span.start ≠ j.range.span.start := by
  have hok : (parse strayStates .default).isOk := by decide +kernel
  have huses : (parse strayStates .default).map (fun g => g.stateUses.map (·.name)) =
      .ok ["U", "S", "S", "V", "INITIAL", "W"] := by
    decide +kernel
  obtain ⟨g, hg⟩ := exists_parse_of_isOk hok
  rw [hg] at huses
  exact ⟨g, hg, Except.ok.inj huses, lint_scanner_states hg⟩

end GrammarFile
