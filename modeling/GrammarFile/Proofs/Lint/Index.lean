import GrammarFile.Lint.Check
import GrammarFile.Proofs.Catalog
import GrammarFile.Proofs.Locations.Order
import Mathlib.Data.List.Flatten
import Mathlib.Data.List.Induction
import Mathlib.Data.List.Nodup

/-!
# The index of a grammar and its file

The entry of a name holds what the productions of the name say, one after the other (`get?_index`). All
in all the index lists just the non-terminals and the first definitions of the file, in another order
(`references_index_perm`, `definitions_index_perm`).

Where the names of a file stand in order, as they do in all that is parsed, sorting by their places
brings them back into the order of the file. So the lints that go through the whole index give their
issues in that order (`undefinedNonTerminals_eq`, `unreachableProductions_eq`).
-/

namespace GrammarFile

/-! ### One more production -/

namespace ProductionIndex

/-- The entry of a production's name is made or extended, and the others stay. -/
theorem get?_add (index : ProductionIndex) (p : Production) (name : String) :
    (index.add p).get? name =
      if name = p.name.name then some ((index.get? p.name.name).elim (.ofProduction p) (·.extend p))
      else index.get? name :=
  Catalog.get?_insert index p.name.name _ name

/-- A production that is added brings its references along, in some order. -/
theorem references_add_perm (index : ProductionIndex) (p : Production) :
    (index.add p).references.Perm (index.references ++ p.references) := by
  obtain ⟨rest, hadded, hentries⟩ := Catalog.exists_perm_insert index p.name.name
    ((index.get? p.name.name).elim (.ofProduction p) (·.extend p))
  refine (hadded.flatMap_right (·.2.references)).trans ?_
  refine List.Perm.trans ?_ ((hentries.flatMap_right (·.2.references)).append_right p.references).symm
  cases index.get? p.name.name with
  | none => exact List.perm_append_comm
  | some e =>
    simp only [Option.elim, ProductionEntry.extend, Option.toList, List.map_singleton,
      List.singleton_append, List.flatMap_cons, List.append_assoc]
    exact List.perm_append_comm.append_left e.references

/-- The index of productions is built up from the front. -/
theorem ofProductions_concat (ps : List Production) (p : Production) :
    ofProductions (ps ++ [p]) = (ofProductions ps).add p := by
  rw [ofProductions, List.foldl_append]
  rfl

/-- The index has the references of all productions, in some order. -/
theorem references_ofProductions_perm (ps : List Production) :
    (ofProductions ps).references.Perm (ps.flatMap (·.references)) := by
  induction ps using List.reverseRecOn with
  | nil => exact .refl _
  | append_singleton ps p ih =>
    rw [ofProductions_concat, List.flatMap_append, List.flatMap_singleton]
    exact (references_add_perm _ p).trans (ih.append_right _)

/-- **The entry of a name holds what its productions say.** The first one defines it, and all of them
refer to non-terminals. -/
theorem get?_ofProductions (ps : List Production) (name : String) :
    (ofProductions ps).get? name =
      (ps.find? (·.name.name == name)).map fun p =>
        ⟨p.name, (ps.filter (·.name.name == name)).flatMap (·.references)⟩ := by
  induction ps using List.reverseRecOn with
  | nil => rfl
  | append_singleton ps p ih =>
    rw [ofProductions_concat, get?_add, List.find?_append, List.filter_append, List.flatMap_append]
    by_cases hname : name = p.name.name
    · rw [if_pos hname, ← hname, ih]
      cases hfound : ps.find? (·.name.name == name) with
      | none =>
        have hnone : ps.filter (·.name.name == name) = [] :=
          List.filter_eq_nil_iff.mpr (List.find?_eq_none.mp hfound)
        rw [hnone]
        simp [hname, ProductionEntry.ofProduction]
      | some q => simp [hname, ProductionEntry.extend]
    · rw [if_neg hname, ih]
      simp [Ne.symm hname]

end ProductionIndex

/-! ### First definitions -/

/-- The names that stand first are those that were not seen before, each at its first place. -/
theorem mem_splitRepeats_fst_iff {seen : List String} {is : List Identifier} {i : Identifier} :
    i ∈ (splitRepeats seen is).1 ↔ i.name ∉ seen ∧ is.find? (·.name == i.name) = some i := by
  induction is generalizing seen with
  | nil => simp [splitRepeats]
  | cons j is ih =>
    rw [splitRepeats]
    dsimp only
    by_cases hsame : j.name = i.name
    · have hfound : (j :: is).find? (·.name == i.name) = some j :=
        List.find?_cons_of_pos (beq_iff_eq.mpr hsame)
      have hseen : i ∉ (splitRepeats (i.name :: seen) is).1 :=
        fun h => (ih.mp h).1 List.mem_cons_self
      rw [hfound, hsame]
      split
      · rename_i hcontains
        exact iff_of_false hseen fun h => h.1 (List.contains_iff_mem.mp hcontains)
      · rename_i hnot
        have hmem : i.name ∉ seen := fun h => hnot (List.contains_iff_mem.mpr h)
        rw [List.mem_cons, or_iff_left hseen, and_iff_right hmem, Option.some.injEq]
        exact eq_comm
    · have hfound : (j :: is).find? (·.name == i.name) = is.find? (·.name == i.name) :=
        List.find?_cons_of_neg (by simpa using hsame)
      have hrest : i ∈ (splitRepeats (j.name :: seen) is).1 ↔
          i.name ∉ seen ∧ is.find? (·.name == i.name) = some i := by
        rw [ih, List.mem_cons, or_iff_right (Ne.symm hsame)]
      rw [hfound, ← hrest]
      split
      · rfl
      · rw [List.mem_cons, or_iff_right]
        rintro rfl
        exact hsame rfl

/-- The first identifiers of each name are among the identifiers, in their order. -/
theorem splitRepeats_fst_sublist (seen : List String) (is : List Identifier) :
    (splitRepeats seen is).1.Sublist is := by
  induction is generalizing seen with
  | nil => exact .slnil
  | cons i is ih =>
    rw [splitRepeats]
    dsimp only
    split
    · exact (ih _).cons i
    · exact (ih _).cons_cons i

/-- No identifier occurs twice among the first ones of their names. -/
theorem nodup_splitRepeats_fst (seen : List String) (is : List Identifier) :
    (splitRepeats seen is).1.Nodup := by
  induction is generalizing seen with
  | nil => exact .nil
  | cons i is ih =>
    rw [splitRepeats]
    dsimp only
    split
    · exact ih _
    · exact List.nodup_cons.mpr ⟨fun h => (mem_splitRepeats_fst_iff.mp h).1 List.mem_cons_self, ih _⟩

namespace Grammar

variable (g : Grammar)

/-- The names of the productions, each at its first place, in the order of the file. -/
def firstDefinitions : List Identifier :=
  (splitRepeats [] g.productionNames).1

/-- Under a name stand the first definition and all references of the productions of that name. -/
theorem get?_index (name : String) :
    g.index.get? name =
      (g.productions.find? (·.name.name == name)).map fun p =>
        ⟨p.name, (g.productionsNamed name).flatMap (·.references)⟩ :=
  ProductionIndex.get?_ofProductions g.productions name

/-- The index knows the names that have a production. -/
theorem defines_index (name : String) : g.index.defines name = g.defines name := by
  rw [ProductionIndex.defines, get?_index, Option.isSome_map, List.isSome_find?, defines]

/-- Every entry is about the name that it stands under. -/
theorem name_definition_of_mem {name : String} {e : ProductionEntry} (h : (name, e) ∈ g.index.entries) :
    e.definition.name = name := by
  have hget := Catalog.get?_eq_some_iff.mpr h
  rw [get?_index, Option.map_eq_some_iff] at hget
  obtain ⟨p, hp, rfl⟩ := hget
  simpa using List.find?_some hp

/-- The definitions of the index have the names of the index. -/
theorem map_name_definitions : g.index.definitions.map (·.name) = g.index.names := by
  rw [ProductionIndex.definitions, List.map_map]
  exact List.map_congr_left fun entry hmem => g.name_definition_of_mem hmem

/-- **The index lists the first definitions of the file**, in some order. -/
theorem definitions_index_perm : g.index.definitions.Perm g.firstDefinitions := by
  have hnodup : g.index.definitions.Nodup :=
    List.Nodup.of_map Identifier.name (g.map_name_definitions ▸ g.index.nodup_names)
  refine (List.perm_ext_iff_of_nodup hnodup (nodup_splitRepeats_fst _ _)).mpr fun i => ?_
  have hdefinition : i ∈ g.index.definitions ↔ (g.index.get? i.name).map (·.definition) = some i := by
    rw [ProductionIndex.definitions, List.mem_map, Option.map_eq_some_iff]
    constructor
    · rintro ⟨⟨name, e⟩, hmem, rfl⟩
      exact ⟨e, Catalog.get?_eq_some_iff.mpr (g.name_definition_of_mem hmem ▸ hmem), rfl⟩
    · rintro ⟨e, hget, rfl⟩
      exact ⟨(_, e), Catalog.get?_eq_some_iff.mp hget, rfl⟩
  rw [hdefinition, get?_index, mem_splitRepeats_fst_iff, productionNames, List.find?_map, Option.map_map]
  exact (and_iff_right List.not_mem_nil).symm

/-- **The index lists the non-terminals of the file**, in some order. -/
theorem references_index_perm : g.index.references.Perm g.references :=
  ProductionIndex.references_ofProductions_perm g.productions

end Grammar

/-! ### The order of the file -/

/-- Sorting puts names that stand in order back into it. -/
theorem sortByPlace_eq_of_perm {is js : List Identifier} (h : is.Perm js)
    (hjs : js.Pairwise (·.range.span.start < ·.range.span.start)) : sortByPlace is = js := by
  have hsorted : (sortByPlace is).Pairwise (·.range.span.start ≤ ·.range.span.start) := by
    have hmerge := @List.pairwise_mergeSort _
      (fun i j : Identifier => decide (i.range.span.start ≤ j.range.span.start))
      (fun _ _ _ hij hjk => decide_eq_true (Nat.le_trans (of_decide_eq_true hij) (of_decide_eq_true hjk)))
      (fun _ _ => by simpa using Nat.le_total _ _) is
    exact hmerge.imp of_decide_eq_true
  have hperm : (sortByPlace is).Perm js := (List.mergeSort_perm is _).trans h
  have hstarts : (js.map (·.range.span.start)).Nodup := List.pairwise_map.mpr (hjs.imp Nat.ne_of_lt)
  refine List.Perm.eq_of_pairwise (fun i j hi hj hij hji => ?_) hsorted (hjs.imp Nat.le_of_lt) hperm
  exact List.inj_on_of_nodup_map hstarts (hperm.mem_iff.mp hi) hj (Nat.le_antisymm hij hji)

namespace Grammar

variable {g : Grammar}

/-- Non-terminals stand in increasing order in a file in order. -/
theorem InOrder.references (h : g.InOrder) :
    g.references.Pairwise (·.range.span.start < ·.range.span.start) :=
  List.Pairwise.sublist g.references_sublist_identifiers h

/-- First definitions stand in increasing order in a file in order. -/
theorem InOrder.firstDefinitions (h : g.InOrder) :
    g.firstDefinitions.Pairwise (·.range.span.start < ·.range.span.start) :=
  List.Pairwise.sublist ((splitRepeats_fst_sublist _ _).trans g.productionNames_sublist_identifiers) h

/-- **The non-terminals without a production are found in the order of the file.** -/
theorem undefinedNonTerminals_eq (h : g.InOrder) :
    g.undefinedNonTerminals =
      (g.references.filter fun i => !g.defines i.name).map .undefinedNonTerminal := by
  simp only [undefinedNonTerminals, defines_index]
  rw [sortByPlace_eq_of_perm (g.references_index_perm.filter _) (h.references.filter _)]

/-- **The productions out of reach are found in the order of the file.** -/
theorem unreachableProductions_eq (h : g.InOrder) :
    g.unreachableProductions =
      if g.defines g.startSymbol then
        (g.firstDefinitions.filter fun i => g.unreachableNames.contains i.name).map
          (.unreachableProduction · g.startSymbol)
      else [] := by
  simp only [unreachableProductions, defines_index]
  rw [sortByPlace_eq_of_perm (g.definitions_index_perm.filter _) (h.firstDefinitions.filter _)]

end Grammar

end GrammarFile
