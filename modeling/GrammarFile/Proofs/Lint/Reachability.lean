import GrammarFile.Proofs.Derivation.Parse
import GrammarFile.Proofs.Lint.Checks
import GrammarFile.Proofs.Lint.Index
import GrammarFile.Proofs.Lint.Occurrence
import Mathlib.Logic.Relation

/-!
# What is out of reach

A name refers to another one if a production of the first mentions the second, between whatever brackets,
and the second has a production (`Grammar.RefersTo`). A name is within reach of the start symbol if such
steps lead to it, any number of them.

The search for what is out of reach takes names out of a list as it reaches them, and keeps in a queue the
names that it has still to go on from. What it leaves in the list is just what no name of the queue leads
to (`mem_unreached_iff`). The invariant is that names that are out of the list lead only to names that are
out of it as well or stand in the queue (`Settled`).

So there is one finding for each production name that is out of reach, at the first production of that
name, in the order of the file (`lint_unreachable`).
-/

namespace GrammarFile

open Relation

/-! ### The search -/

section Search

variable {next : String → List String} {unvisited queue : List String} {name : String}

/-- Whether all that a search has still to go on from stands in its queue: the names that were visited
lead to names that were visited or are in the queue. -/
def Settled (next : String → List String) (unvisited queue : List String) : Prop :=
  ∀ a ∉ unvisited, ∀ b ∈ next a, b ∈ unvisited → b ∈ queue

/-- A name that was visited and stands in the queue need not stand there. -/
theorem Settled.skip (h : Settled next unvisited (name :: queue)) (hname : name ∉ unvisited) :
    Settled next unvisited queue := by
  intro a ha b hb hunvisited
  rcases List.mem_cons.mp (h a ha b hb hunvisited) with rfl | hmem
  · exact absurd hunvisited hname
  · exact hmem

/-- A visit puts all that the name leads to into the queue. -/
theorem Settled.visit (h : Settled next unvisited (name :: queue)) (hnodup : unvisited.Nodup) :
    Settled next (unvisited.erase name) (queue ++ next name) := by
  intro a ha b hb hmem
  obtain ⟨hne, hunvisited⟩ := hnodup.mem_erase_iff.mp hmem
  by_cases haname : a = name
  · exact List.mem_append_right queue (haname ▸ hb)
  · have ha' : a ∉ unvisited := fun hin => ha ((List.mem_erase_of_ne haname).mpr hin)
    rcases List.mem_cons.mp (h a ha' b hb hunvisited) with heq | hqueue
    · exact absurd heq hne
    · exact List.mem_append_left _ hqueue

/-- On its way to a name that was not visited, a name that was leads through one of the queue. -/
theorem Settled.exists_mem_queue (h : Settled next unvisited queue) {a n : String} (ha : a ∉ unvisited)
    (hn : n ∈ unvisited) (hreach : ReflTransGen (fun x y => y ∈ next x) a n) :
    ∃ b ∈ queue, ReflTransGen (fun x y => y ∈ next x) b n := by
  induction hreach using ReflTransGen.head_induction_on with
  | refl => exact absurd hn ha
  | head hstep hrest ih =>
    rename_i a b
    by_cases hb : b ∈ unvisited
    · exact ⟨b, h a ha b hstep hb, hrest⟩
    · exact ih hb

/-- **The search leaves what cannot be reached.** Of the names that were not visited, those are left that
no name of the queue leads to. -/
theorem mem_unreached_iff (hnodup : unvisited.Nodup) (h : Settled next unvisited queue) {n : String} :
    n ∈ unreached next unvisited queue ↔
      n ∈ unvisited ∧ ∀ a ∈ queue, ¬ ReflTransGen (fun x y => y ∈ next x) a n := by
  fun_induction unreached next unvisited queue with
  | case1 unvisited => simp
  | case2 unvisited name rest hname ih =>
    rw [ih (hnodup.erase name) (h.visit hnodup), hnodup.mem_erase_iff, List.forall_mem_append,
      List.forall_mem_cons]
    constructor
    · rintro ⟨⟨hne, hn⟩, hrest, hnext⟩
      refine ⟨hn, fun hreach => ?_, hrest⟩
      rcases hreach.cases_head with heq | ⟨b, hstep, hreach⟩
      · exact hne heq.symm
      · exact hnext b hstep hreach
    · rintro ⟨hn, hnot, hrest⟩
      refine ⟨⟨?_, hn⟩, hrest, fun b hstep hreach => hnot (.head hstep hreach)⟩
      rintro rfl
      exact hnot .refl
  | case3 unvisited name rest hname ih =>
    have hsettled := h.skip hname
    rw [ih hnodup hsettled, List.forall_mem_cons]
    refine and_congr_right fun hn => ⟨fun hrest => ⟨fun hreach => ?_, hrest⟩, fun hall => hall.2⟩
    obtain ⟨b, hb, hreach⟩ := hsettled.exists_mem_queue hname hn hreach
    exact hrest b hb hreach

end Search

/-! ### Names that refer to each other -/

namespace Grammar

variable {g : Grammar}

/-- Whether some production of a name mentions another name, which has a production. -/
def RefersTo (g : Grammar) (name other : String) : Prop :=
  (∃ p ∈ g.productions, p.name.name = name ∧ ∃ i, p.Mentions i ∧ i.name = other) ∧ g.defines other

/-- **What follows a name in the index is what it refers to**, in all of its productions. -/
theorem mem_successors_iff {name other : String} :
    other ∈ g.index.successors name ↔ g.RefersTo name other := by
  have hentry : (g.index.get? name).elim [] (fun e => e.references.map (·.name)) =
      ((g.productionsNamed name).flatMap (·.references)).map (·.name) := by
    rw [get?_index]
    cases hfound : g.productions.find? (·.name.name == name) with
    | some p => rfl
    | none =>
      have hnone : g.productionsNamed name = [] :=
        List.filter_eq_nil_iff.mpr (List.find?_eq_none.mp hfound)
      rw [hnone]
      rfl
  rw [ProductionIndex.successors, List.mem_filter, defines_index, hentry, RefersTo]
  simp only [productionsNamed, List.mem_map, List.mem_flatMap, List.mem_filter, beq_iff_eq,
    Production.mem_references_iff]
  refine and_congr_left fun _ => ⟨?_, ?_⟩
  · rintro ⟨i, ⟨p, ⟨hp, hname⟩, hi⟩, hother⟩
    exact ⟨p, hp, hname, i, hi, hother⟩
  · rintro ⟨p, hp, hname, i, hi, hother⟩
    exact ⟨i, ⟨p, ⟨hp, hname⟩, hi⟩, hother⟩

/-- The names of the index are those that have a production. -/
theorem mem_names_index_iff {name : String} : name ∈ g.index.names ↔ g.defines name := by
  rw [Catalog.mem_names_iff, ← defines_index, ProductionIndex.defines]

/-- A name without a production refers to nothing. -/
theorem RefersTo.defines {name other : String} (h : g.RefersTo name other) : g.defines name := by
  obtain ⟨⟨p, hp, hname, -⟩, -⟩ := h
  exact List.any_eq_true.mpr ⟨p, hp, beq_iff_eq.mpr hname⟩

/-- **The names out of reach** are those that the start symbol does not lead to. -/
theorem mem_unreachableNames_iff {name : String} :
    name ∈ g.unreachableNames ↔ g.defines name ∧ ¬ ReflTransGen g.RefersTo g.startSymbol name := by
  have hsteps : (fun x y => y ∈ g.index.successors x) = g.RefersTo := by
    funext x y
    exact propext mem_successors_iff
  have hsettled : Settled g.index.successors g.index.names [g.startSymbol] := by
    intro a ha b hb _
    exact absurd (mem_names_index_iff.mpr (mem_successors_iff.mp hb).defines) ha
  rw [unreachableNames, mem_unreached_iff g.index.nodup_names hsettled, mem_names_index_iff, hsteps,
    List.forall_mem_singleton]

/-! ### First productions -/

/-- Whether a name, with its place, is that of the first production of the name. -/
def FirstDefines (g : Grammar) (i : Identifier) : Prop :=
  ∃ before p behind, g.productions = before ++ p :: behind ∧ p.name = i ∧
    ∀ q ∈ before, q.name.name ≠ i.name

/-- The first definitions are the identifiers that define their names first. -/
theorem mem_firstDefinitions_iff {i : Identifier} : i ∈ g.firstDefinitions ↔ g.FirstDefines i := by
  rw [firstDefinitions, mem_splitRepeats_fst_iff, and_iff_right List.not_mem_nil, productionNames,
    List.find?_map, Option.map_eq_some_iff]
  constructor
  · rintro ⟨p, hfound, rfl⟩
    obtain ⟨-, before, behind, hsplit, hbefore⟩ := List.find?_eq_some_iff_append.mp hfound
    exact ⟨before, p, behind, hsplit, rfl, fun q hq => by simpa using hbefore q hq⟩
  · rintro ⟨before, p, behind, hsplit, rfl, hbefore⟩
    refine ⟨p, List.find?_eq_some_iff_append.mpr ⟨by simp, before, behind, hsplit, ?_⟩, rfl⟩
    exact fun q hq => by simpa using hbefore q hq

/-- A name that is defined first somewhere is defined. -/
theorem FirstDefines.defines {i : Identifier} (h : g.FirstDefines i) : g.defines i.name := by
  obtain ⟨before, p, behind, hsplit, rfl, -⟩ := h
  refine List.any_eq_true.mpr ⟨p, ?_, beq_self_eq_true _⟩
  rw [hsplit]
  exact List.mem_append_right before List.mem_cons_self

/-- A name is defined first in one place. -/
theorem nodup_names_firstDefinitions : (g.firstDefinitions.map (·.name)).Nodup := by
  have hnames : (g.index.definitions.map (·.name)).Nodup := g.map_name_definitions ▸ g.index.nodup_names
  exact (g.definitions_index_perm.map (·.name)).nodup_iff.mp hnames

end Grammar

/-! ### Parsed grammars -/

/-- **There is one finding for each production name that is out of reach.** Where the start symbol has a
production, the names that it does not lead to are found, each at its first production and once, in the
order of the file. Where it has none, nothing is found. The judge of patterns has no part in it. -/
theorem lint_unreachable {source : String} {options : ParserOptions} {g : Grammar}
    (h : parse source options = .ok g) :
    ∃ names : List Identifier,
      (∀ refuse : String → Option String,
        (g.lint refuse).filter (·.code = some "unreachable-production") =
          names.map fun i => (LintIssue.unreachableProduction i g.startSymbol).diagnostic) ∧
      (∀ i, i ∈ names ↔ g.defines g.startSymbol ∧ g.FirstDefines i ∧
        ¬ ReflTransGen g.RefersTo g.startSymbol i.name) ∧
      (names.map (·.name)).Nodup ∧ names.Pairwise (·.range.span.start < ·.range.span.start) := by
  have horder := inOrder_of_parse h
  have hfound (refuse : String → Option String) :
      (g.lint refuse).filter (·.code = some "unreachable-production") =
        g.unreachableProductions.map (·.diagnostic) :=
    Grammar.filter_lint (by simp [Grammar.checks])
  simp only [hfound, Grammar.unreachableProductions_eq horder]
  by_cases hstart : g.defines g.startSymbol
  · rw [if_pos hstart]
    refine ⟨g.firstDefinitions.filter fun i => g.unreachableNames.contains i.name, ?_, ?_, ?_, ?_⟩
    · intro refuse
      rw [List.map_map]
      rfl
    · intro i
      rw [List.mem_filter, Grammar.mem_firstDefinitions_iff, List.contains_iff_mem,
        Grammar.mem_unreachableNames_iff, and_iff_right hstart]
      exact and_congr_right fun hfirst => and_iff_right hfirst.defines
    · exact (Grammar.nodup_names_firstDefinitions).sublist (List.filter_sublist.map _)
    · exact horder.firstDefinitions.filter _
  · rw [if_neg hstart]
    refine ⟨[], fun _ => rfl, fun i => ?_, .nil, .nil⟩
    exact iff_of_false List.not_mem_nil fun hi => hstart hi.1

/-- Two names out of reach that refer to each other, one of them with two productions. -/
theorem lint_unreachable_cycle :
    ∃ g, parse "%start A%%A:[{C}];D:E;E:(D)A;C:A;D:A;" .default = .ok g ∧
      g.defines g.startSymbol ∧ g.productionNames.map (·.name) = ["A", "D", "E", "C", "D"] ∧
      ∃ names : List Identifier,
        (∀ refuse : String → Option String,
          (g.lint refuse).filter (·.code = some "unreachable-production") =
            names.map fun i => (LintIssue.unreachableProduction i g.startSymbol).diagnostic) ∧
        (∀ i, i ∈ names ↔ g.defines g.startSymbol ∧ g.FirstDefines i ∧
          ¬ ReflTransGen g.RefersTo g.startSymbol i.name) ∧
        (names.map (·.name)).Nodup ∧ names.Pairwise (·.range.span.start < ·.range.span.start) := by
  have hok : (parse "%start A%%A:[{C}];D:E;E:(D)A;C:A;D:A;" .default).isOk := by decide +kernel
  have hnames : (parse "%start A%%A:[{C}];D:E;E:(D)A;C:A;D:A;" .default).map (fun g =>
      (g.defines g.startSymbol, g.productionNames.map (·.name))) =
        .ok (true, ["A", "D", "E", "C", "D"]) := by
    decide +kernel
  obtain ⟨g, hg⟩ := exists_parse_of_isOk hok
  rw [hg] at hnames
  obtain ⟨hstart, hnames⟩ := Prod.mk.inj (Except.ok.inj hnames)
  exact ⟨g, hg, hstart, hnames, lint_unreachable hg⟩

end GrammarFile
