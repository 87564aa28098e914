import GrammarFile.Outline.OfGrammar
import GrammarFile.Proofs.Locations.Erase

/-!
# Outlines without locations

Two outlines have the same structure just where they are the same without their ranges
(`Outline.sameStructure_iff`). The outline of a tree takes nothing else from the locations in it
(`Grammar.outline_erase`), so trees that are the same up to locations have outlines of the same
structure.
-/

namespace GrammarFile

open Outline (leaf)

namespace Outline

mutual

/-- The outline without its ranges. -/
def erase : Outline → Outline
  | ⟨nodeType, label, attributes, _, children⟩ =>
    ⟨nodeType, label, attributes, .origin, eraseAll children⟩

/-- The outlines without their ranges. -/
def eraseAll : List Outline → List Outline
  | [] => []
  | o :: rest => o.erase :: eraseAll rest

end

/-- Outlines lose their locations one by one. -/
theorem eraseAll_eq_map (os : List Outline) : eraseAll os = os.map erase := by
  induction os with
  | nil => rfl
  | cons o os ih => rw [eraseAll, ih, List.map_cons]

mutual

/-- Having the same structure is being the same without ranges. -/
theorem sameStructure_iff : (a b : Outline) → (a.sameStructure b ↔ a.erase = b.erase)
  | ⟨t, l, as, _, cs⟩, ⟨t', l', as', _, cs'⟩ => by
    simp only [sameStructure, erase, Bool.and_eq_true, decide_eq_true_eq, sameStructures_iff cs cs',
      Outline.mk.injEq, true_and, and_assoc]

/-- Lists of outlines have the same structure if they are equal without locations. -/
theorem sameStructures_iff : (as bs : List Outline) → (sameStructures as bs ↔ eraseAll as = eraseAll bs)
  | [], [] => iff_of_true rfl rfl
  | [], _ :: _ => iff_of_false nofun nofun
  | _ :: _, [] => iff_of_false nofun nofun
  | a :: as, b :: bs => by
    simp only [sameStructures, eraseAll, Bool.and_eq_true, sameStructure_iff a b,
      sameStructures_iff as bs, List.cons.injEq]

end

variable (o : Outline)

/-- An outline without locations has its children without locations. -/
theorem erase_eq : o.erase = ⟨o.nodeType, o.label, o.attributes, .origin, o.children.map erase⟩ := by
  obtain ⟨t, l, as, r, cs⟩ := o
  rw [erase, eraseAll_eq_map]

/-- A leaf loses its range. -/
@[simp]
theorem erase_leaf (nodeType label : String) (range : Range) :
    (leaf nodeType label range).erase = leaf nodeType label .origin :=
  rfl

/-- An attribute may be put on before or after the locations are lost. -/
@[simp]
theorem erase_withAttribute (name text : String) :
    (o.withAttribute name text).erase = o.erase.withAttribute name text := by
  simp [erase_eq, withAttribute]

/-- Children may be put below before or after the locations are lost. -/
@[simp]
theorem erase_withChildren (children : List Outline) :
    (o.withChildren children).erase = o.erase.withChildren (children.map erase) := by
  simp [erase_eq, withChildren]

/-- A child may be put below before or after the locations are lost. -/
@[simp]
theorem erase_withChild (child : Outline) :
    (o.withChild child).erase = o.erase.withChild child.erase := by
  simp [withChild]

end Outline

/-! ### Symbols -/

/-- A literal has the same outline up to locations. -/
@[simp]
theorem Literal.outline_erase (l : Literal) : l.erase.outline = l.outline.erase :=
  rfl

/-- A list of identifiers has the same outline up to locations. -/
@[simp]
theorem IdentifierList.outline_erase (l : IdentifierList) : l.erase.outline = l.outline.erase := by
  unfold IdentifierList.outline
  rw [l.display_erase, Outline.erase_leaf]
  rfl

/-- A look-ahead has the same outline up to locations. -/
@[simp]
theorem LookAhead.outline_erase (l : LookAhead) : l.erase.outline = l.outline.erase :=
  rfl

/-- A terminal has the same outlines up to locations. -/
@[simp]
theorem Terminal.outlines_erase (t : Terminal) : t.erase.outlines = t.outlines.map (·.erase) := by
  unfold Terminal.outlines Terminal.erase
  cases t.lookAhead <;> simp

/-- What is written after a symbol has the same outline up to locations. -/
@[simp]
theorem TreeControl.outline_erase (c : TreeControl) : c.erase.outline = c.outline.erase := by
  unfold TreeControl.outline
  rw [c.display_erase]
  unfold TreeControl.memberName? TreeControl.typeName? TreeControl.erase
  cases c.kind with
  | cut => simp [TreeControlKind.erase, TreeControlKind.name]
  | member name type =>
    cases type <;> simp [TreeControlKind.erase, TreeControlKind.name, MemberName.erase, Identifier.erase,
      TypeAnnotation.erase]
  | typed type => simp [TreeControlKind.erase, TreeControlKind.name, TypeAnnotation.erase]

/-- A symbol has the same outline up to locations. -/
@[simp]
theorem Symbol.outline_erase (s : Symbol) : s.erase.outline = s.outline.erase := by
  unfold Symbol.outline
  rw [s.display_erase]
  unfold Symbol.erase
  cases s.kind <;> cases s.control <;> simp [SymbolKind.erase, SymbolKind.name, Identifier.erase]

/-! ### Bodies -/

/-- An alternation has the same label without locations. -/
@[simp]
theorem AlternationOf.label_erase (a : Alternation) :
    AlternationOf.label (AlternationOf.erase a) = AlternationOf.label a := by
  unfold AlternationOf.label AlternationOf.isEmpty
  rw [AlternationOf.display_erase, AlternationOf.erase, eraseFactors_eq_map, List.isEmpty_map]

mutual

/-- A factor has the same outline up to locations. -/
@[simp]
theorem Factor.outline_erase : (f : Factor) → f.erase.outline = f.outline.erase
  | .symbol s => s.outline_erase
  | .bracketed _ none _ => rfl
  | .bracketed kind (some ⟨as, inner⟩) r => by
    have hdisplay := Factor.display_erase (.bracketed kind (some ⟨as, inner⟩) r)
    rw [Factor.erase] at hdisplay
    rw [Factor.erase, Factor.outline, Factor.outline, hdisplay, outlineAlternations_erase as]
    simp [eraseAlternations_eq_map]

/-- Alternations have the same outlines up to locations. -/
theorem outlineAlternations_erase : (as : List (AlternationOf Factor)) →
    outlineAlternations (eraseAlternations as) = (outlineAlternations as).map (·.erase)
  | [] => rfl
  | ⟨fs, r⟩ :: as => by
    have hlabel := AlternationOf.label_erase ⟨fs, r⟩
    rw [AlternationOf.erase] at hlabel
    rw [eraseAlternations, outlineAlternations, outlineAlternations, hlabel, outlineFactors_erase fs,
      outlineAlternations_erase as]
    simp

/-- Factors have the same outlines up to locations. -/
theorem outlineFactors_erase : (fs : List Factor) →
    outlineFactors (eraseFactors fs) = (outlineFactors fs).map (·.erase)
  | [] => rfl
  | f :: fs => by
    rw [eraseFactors, outlineFactors, outlineFactors, f.outline_erase, outlineFactors_erase fs,
      List.map_cons]

end

/-- A body has the same outline up to locations. -/
@[simp]
theorem AlternationsOf.outline_erase (b : Alternations) :
    AlternationsOf.outline (AlternationsOf.erase b) = (AlternationsOf.outline b).erase := by
  unfold AlternationsOf.outline AlternationsOf.erase
  rw [outlineAlternations_erase]
  simp [eraseAlternations_eq_map]

/-- A production has the same outline up to locations. -/
@[simp]
theorem Production.outline_erase (p : Production) : p.erase.outline = p.outline.erase := by
  unfold Production.outline Production.erase
  cases p.body <;> cases p.leadingPipe <;> simp [Identifier.erase]

/-! ### The prolog -/

/-- A switch of scanner states has the same outline up to locations. -/
@[simp]
theorem StateSwitch.outline_erase (s : StateSwitch) : s.erase.outline = s.outline.erase := by
  unfold StateSwitch.outline
  rw [s.display_erase]
  unfold StateSwitch.target? StateSwitch.erase
  cases s.kind <;> simp [StateSwitchKind.erase, Identifier.erase]

/-- A directive has the same outline up to locations. -/
@[simp]
theorem Directive.outline_erase (d : Directive) : d.erase.outline = d.outline.erase := by
  unfold Directive.outline
  rw [d.display_erase, d.keyword_erase]
  unfold Directive.literals Directive.erase
  cases d.kind <;> simp [DirectiveKind.erase]

/-- A declaration has the same outline up to locations. -/
@[simp]
theorem Declaration.outline_erase (d : Declaration) : d.erase.outline = d.outline.erase := by
  unfold Declaration.outline
  rw [d.display_erase, d.keyword_erase]
  unfold Declaration.erase
  cases d.kind <;> simp [DeclarationKind.erase]

/-- A scanner state has the same outline up to locations. -/
@[simp]
theorem ScannerState.outline_erase (s : ScannerState) : s.erase.outline = s.outline.erase := by
  simp [ScannerState.outline, ScannerState.erase, Identifier.erase, Function.comp_def]

/-- The prolog has the same outline up to locations. -/
@[simp]
theorem Prolog.outline_erase (p : Prolog) : p.erase.outline = p.outline.erase := by
  simp [Prolog.outline, Prolog.erase, StartDeclaration.display, StartDeclaration.erase, Identifier.erase,
    StartDeclaration.outline, Function.comp_def]

/-- The productions have the same outline up to locations. -/
@[simp]
theorem Definition.outline_erase (d : Definition) : d.erase.outline = d.outline.erase := by
  simp [Definition.outline, Definition.erase, Function.comp_def]

/-- The outline of a tree takes its ranges from the locations of the tree, and nothing else. -/
theorem Grammar.outline_erase (g : Grammar) : g.erase.outline = g.outline.erase := by
  have hstart : g.erase.startSymbol = g.startSymbol := rfl
  have hlength : g.erase.productions.length = g.productions.length := List.length_map _
  unfold Grammar.outline
  rw [hstart, hlength]
  simp [Grammar.erase]

/-- Trees that are the same up to locations have outlines of the same structure. -/
theorem Grammar.sameStructure_of_erase_eq {g h : Grammar} (heq : g.erase = h.erase) :
    g.outline.sameStructure h.outline := by
  rw [Outline.sameStructure_iff, ← g.outline_erase, ← h.outline_erase, heq]

end GrammarFile
