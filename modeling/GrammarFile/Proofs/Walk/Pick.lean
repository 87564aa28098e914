import GrammarFile.Tree.Symbols
import Mathlib.Data.List.Basic

/-!
# What a visitor makes of a walk

A visitor picks what it needs out of its visits. If it makes nothing of brackets and alternations,
then a body is to it the row of its symbols (`Production.pick_walk`), and if it makes nothing of
declarations and scanner states as such, then a file is to it the directives, and then the
productions (`Grammar.pick_walk`).

The lists that the lints go by are what such visitors come by on one walk: the uses of scanner states
(`Grammar.stateUses_eq_walk`) and the literals (`Grammar.literals_eq_walk`).
-/

namespace GrammarFile

namespace Visit

/-- Whether a visit is that of an alternation or of brackets, which stand around the symbols of a body. -/
def isFrame : Visit → Bool
  | enterAlternation _ | leaveAlternation _ | enterBrackets _ _ _ | leaveBrackets _ _ _ => true
  | _ => false

/-- Whether a visit is that of a file, a declaration or a scanner state, which stand around directives and
productions. -/
def isOutside : Visit → Bool
  | enterGrammar _ | leaveGrammar _ | declaration _ | enterState _ | leaveState _ => true
  | _ => false

/-- Whether a visit is that of a directive, a symbol or a literal. -/
def isPart : Visit → Bool
  | directive _ | symbol _ | literal _ => true
  | _ => false

end Visit

variable {α : Type} {pick : Visit → List α}

/-! ### Bodies -/

mutual

/-- What is picked out of the walk of a factor is picked out of the walks of its symbols. -/
theorem Factor.pick_walk (hpick : ∀ v : Visit, v.isFrame → pick v = []) : (f : Factor) →
    f.walk.flatMap pick = f.symbols.flatMap fun s => s.walk.flatMap pick
  | .symbol s => by
    rw [Factor.walk, Factor.symbols, List.flatMap_singleton]
  | .bracketed kind none r => by
    rw [Factor.walk, List.flatMap_cons, hpick _ rfl, List.flatMap_cons, hpick _ rfl]
    rfl
  | .bracketed kind (some ⟨as, inner⟩) r => by
    rw [Factor.walk, List.flatMap_cons, hpick _ rfl, List.flatMap_append, pick_walkBody hpick as,
      List.flatMap_singleton, hpick _ rfl, List.append_nil, Factor.symbols]
    rfl

/-- Where nothing is picked from brackets and alternations, a body is picked from symbol by symbol.
-/
theorem pick_walkBody (hpick : ∀ v : Visit, v.isFrame → pick v = []) :
    (as : List (AlternationOf Factor)) →
    (walkBody as).flatMap pick = (bodySymbols as).flatMap fun s => s.walk.flatMap pick
  | [] => rfl
  | ⟨fs, r⟩ :: as => by
    rw [walkBody, List.flatMap_cons, hpick _ rfl, List.flatMap_append, pick_walkFactors hpick fs,
      List.flatMap_cons, hpick _ rfl, pick_walkBody hpick as, bodySymbols, List.flatMap_append]
    rfl

/-- Where nothing is picked from brackets and alternations, factors are picked from symbol by
symbol. -/
theorem pick_walkFactors (hpick : ∀ v : Visit, v.isFrame → pick v = []) : (fs : List Factor) →
    (walkFactors fs).flatMap pick = (factorSymbols fs).flatMap fun s => s.walk.flatMap pick
  | [] => rfl
  | f :: fs => by
    rw [walkFactors, List.flatMap_append, f.pick_walk hpick, pick_walkFactors hpick fs, factorSymbols,
      List.flatMap_append]

end

/-- **What is picked out of the walk of a production is picked out of its two ends and of its
symbols**, as they stand in its body. -/
theorem Production.pick_walk (hpick : ∀ v : Visit, v.isFrame → pick v = []) (p : Production) :
    p.walk.flatMap pick = pick (.enterProduction p) ++
      (p.symbols.flatMap (fun s => s.walk.flatMap pick) ++ pick (.leaveProduction p)) := by
  rw [walk, List.flatMap_cons, List.flatMap_append, pick_walkBody hpick, List.flatMap_singleton, symbols]

/-! ### Whole files -/

namespace Grammar

variable (g : Grammar)

/-- **What is picked out of the walk of a file is picked out of its directives and productions**, if
nothing is picked from what stands around them. -/
theorem pick_walk (hpick : ∀ v : Visit, v.isOutside → pick v = []) :
    g.walk.flatMap pick = g.directives.flatMap (fun d => pick (.directive d)) ++
      g.productions.flatMap fun p => p.walk.flatMap pick := by
  have houtside : ∀ d : Declaration, pick (.declaration d) = [] := fun _ => hpick _ rfl
  have hdeclaration : ∀ d : Declaration, d.walk.flatMap pick =
      d.directive?.toList.flatMap fun d => pick (.directive d) := by
    rintro ⟨kind, range⟩
    cases kind <;> simp [Declaration.walk, Declaration.directive?, houtside]
  have hstate : ∀ s : ScannerState,
      s.walk.flatMap pick = s.directives.flatMap fun d => pick (.directive d) := by
    intro s
    rw [ScannerState.walk, List.flatMap_cons, hpick _ rfl, List.nil_append, List.flatMap_append,
      List.flatMap_singleton, hpick _ rfl, List.append_nil, List.flatMap_map]
  rw [walk, List.flatMap_cons, hpick _ rfl, List.nil_append, List.flatMap_append, List.flatMap_append,
    List.flatMap_append, List.flatMap_singleton, hpick _ rfl, List.append_nil, List.flatMap_assoc,
    List.flatMap_assoc, List.flatMap_assoc, List.flatMap_congr fun d _ => hdeclaration d,
    List.flatMap_congr fun s _ => hstate s, directives, List.filterMap_eq_flatMap_toList,
    List.flatMap_append, List.flatMap_assoc, List.flatMap_assoc]

/-- **What is picked out of nothing but directives, symbols and literals is picked out of the
directives and of the symbols**, as the file mentions them. -/
theorem pick_walk_parts (hpick : ∀ v : Visit, v.isPart = false → pick v = []) :
    g.walk.flatMap pick = g.directives.flatMap (fun d => pick (.directive d)) ++
      g.symbols.flatMap fun s => pick (.symbol s) ++ s.literals.flatMap fun l => pick (.literal l) := by
  have houtside : ∀ v : Visit, v.isOutside → pick v = [] := by
    intro v hv
    apply hpick
    cases v <;> simp_all [Visit.isOutside, Visit.isPart]
  have hframes : ∀ v : Visit, v.isFrame → pick v = [] := by
    intro v hv
    apply hpick
    cases v <;> simp_all [Visit.isFrame, Visit.isPart]
  have hsymbol : ∀ s : Symbol, s.walk.flatMap pick =
      pick (.symbol s) ++ s.literals.flatMap fun l => pick (.literal l) := by
    intro s
    rw [Symbol.walk, List.flatMap_cons, List.flatMap_map]
  have hproduction : ∀ p : Production,
      p.walk.flatMap pick = p.symbols.flatMap fun s => s.walk.flatMap pick := by
    intro p
    rw [p.pick_walk hframes, hpick _ rfl, hpick _ rfl, List.nil_append, List.append_nil]
  rw [g.pick_walk houtside, List.flatMap_congr fun p _ => hproduction p, symbols, List.flatMap_assoc]
  simp only [hsymbol]

end Grammar

/-! ### What the lints go by -/

namespace Visit

/-- The uses of scanner states that a visit shows. -/
def stateUses : Visit → List Identifier
  | directive d => d.target?.toList
  | symbol s => s.states
  | _ => []

/-- The literals that a visit shows. Those of a directive have no visits of their own. -/
def literals : Visit → List Literal
  | directive d => d.literals
  | literal l => [l]
  | _ => []

end Visit

namespace Grammar

variable (g : Grammar)

/-- **The uses of scanner states are those that a walk shows**, in its order. -/
theorem stateUses_eq_walk : g.stateUses = g.walk.flatMap Visit.stateUses := by
  have hpick : ∀ v : Visit, v.isPart = false → v.stateUses = [] := by
    intro v hv
    cases v <;> simp_all [Visit.isPart, Visit.stateUses]
  have hliterals : ∀ s : Symbol, (s.literals.flatMap fun l => (Visit.literal l).stateUses) = [] :=
    fun _ => List.flatMap_eq_nil_iff.mpr fun _ _ => rfl
  rw [g.pick_walk_parts hpick, stateUses, List.filterMap_eq_flatMap_toList]
  simp only [hliterals, List.append_nil]
  rfl

/-- **The literals of a file are those that a walk shows**, in its order. -/
theorem literals_eq_walk : g.literals = g.walk.flatMap Visit.literals := by
  have hpick : ∀ v : Visit, v.isPart = false → v.literals = [] := by
    intro v hv
    cases v <;> simp_all [Visit.isPart, Visit.literals]
  rw [g.pick_walk_parts hpick, literals]
  simp [Visit.literals]

end Grammar

end GrammarFile
