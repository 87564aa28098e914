import GrammarFile.Tree.Display

/-!
# Trees without locations

`erase` puts the same range, that of the origin, at every node of a tree. Two trees are the same up to
locations if they are the same after that.

The text of a tree does not depend on its ranges (`Grammar.print_erase`).
-/

namespace GrammarFile

/-! ### Names and literals -/

/-- The name without its location. -/
def Identifier.erase (i : Identifier) : Identifier :=
  ⟨i.name, .origin⟩

/-- The literal without its location. -/
def Literal.erase (l : Literal) : Literal :=
  ⟨l.kind, l.text, .origin⟩

/-- The names without their locations. -/
def IdentifierList.erase (l : IdentifierList) : IdentifierList :=
  ⟨l.identifiers.map (·.erase), .origin⟩

/-- The type without its locations. -/
def TypeName.erase (t : TypeName) : TypeName :=
  ⟨t.segments.map (·.erase), .origin⟩

/-- Names are the same without their locations. -/
theorem map_name_erase (names : List Identifier) :
    (names.map (·.erase)).map (·.name) = names.map (·.name) := by
  rw [List.map_map]
  rfl

/-- A list of identifiers is displayed alike without locations. -/
@[simp]
theorem IdentifierList.display_erase (l : IdentifierList) : l.erase.display = l.display := by
  unfold IdentifierList.display IdentifierList.erase
  rw [map_name_erase]

/-- A type name is displayed alike without locations. -/
@[simp]
theorem TypeName.display_erase (t : TypeName) : t.erase.display = t.display := by
  unfold TypeName.display TypeName.erase
  rw [map_name_erase]

/-! ### Symbols -/

/-- The look-ahead without its locations. -/
def LookAhead.erase (l : LookAhead) : LookAhead :=
  ⟨l.kind, l.literal.erase, .origin⟩

/-- The terminal without its locations. -/
def Terminal.erase (t : Terminal) : Terminal :=
  ⟨t.literal.erase, t.lookAhead.map (·.erase), .origin⟩

/-- The member name without its locations. -/
def MemberName.erase (n : MemberName) : MemberName :=
  ⟨n.identifier.erase, .origin⟩

/-- The type without its locations. -/
def TypeAnnotation.erase (a : TypeAnnotation) : TypeAnnotation :=
  ⟨a.typeName.erase, .origin⟩

/-- What is written after a symbol, without its locations. -/
def TreeControlKind.erase : TreeControlKind → TreeControlKind
  | cut => cut
  | member name type => member name.erase (type.map (·.erase))
  | typed type => typed type.erase

/-- What is written after a symbol, without its locations. -/
def TreeControl.erase (c : TreeControl) : TreeControl :=
  ⟨c.kind.erase, .origin⟩

/-- The symbol without its locations. -/
def SymbolKind.erase : SymbolKind → SymbolKind
  | nonTerminal i => nonTerminal i.erase
  | terminal t => terminal t.erase
  | terminalIn states t => terminalIn states.erase t.erase

/-- The symbol without its locations. -/
def Symbol.erase (s : Symbol) : Symbol :=
  ⟨s.kind.erase, s.control.map (·.erase), .origin⟩

/-- A terminal is displayed alike without locations. -/
@[simp]
theorem Terminal.display_erase (t : Terminal) : t.erase.display = t.display := by
  unfold Terminal.display Terminal.erase
  cases t.lookAhead <;> rfl

/-- A type annotation is displayed alike without locations. -/
@[simp]
theorem TypeAnnotation.display_erase (a : TypeAnnotation) : a.erase.display = a.display := by
  unfold TypeAnnotation.display TypeAnnotation.erase
  simp

/-- What is written after a symbol is displayed alike without locations. -/
@[simp]
theorem TreeControl.display_erase (c : TreeControl) : c.erase.display = c.display := by
  unfold TreeControl.display TreeControl.erase
  cases c.kind with
  | cut => rfl
  | member name type => cases type <;> simp [TreeControlKind.erase, MemberName.erase, Identifier.erase]
  | typed type => simp [TreeControlKind.erase]

/-- A symbol by itself is displayed alike without locations. -/
@[simp]
theorem SymbolKind.display_erase (s : SymbolKind) : s.erase.display = s.display := by
  cases s with
  | nonTerminal i => rfl
  | terminal t => simp [SymbolKind.display, SymbolKind.erase]
  | terminalIn states t => simp [SymbolKind.display, SymbolKind.erase]

/-- A symbol is displayed alike without locations. -/
@[simp]
theorem Symbol.display_erase (s : Symbol) : s.erase.display = s.display := by
  unfold Symbol.display Symbol.erase
  cases s.control <;> simp

/-! ### Bodies -/

mutual

/-- The factor without its locations. -/
def Factor.erase : Factor → Factor
  | .symbol s => .symbol s.erase
  | .bracketed kind none _ => .bracketed kind none .origin
  | .bracketed kind (some ⟨alternations, _⟩) _ =>
    .bracketed kind (some ⟨eraseAlternations alternations, .origin⟩) .origin

/-- The alternations without their locations. -/
def eraseAlternations : List (AlternationOf Factor) → List (AlternationOf Factor)
  | [] => []
  | ⟨factors, _⟩ :: rest => ⟨eraseFactors factors, .origin⟩ :: eraseAlternations rest

/-- The factors without their locations. -/
def eraseFactors : List Factor → List Factor
  | [] => []
  | factor :: rest => factor.erase :: eraseFactors rest

end

/-- The alternation without its locations. -/
def AlternationOf.erase (a : Alternation) : Alternation :=
  ⟨eraseFactors a.factors, .origin⟩

/-- The body without its locations. -/
def AlternationsOf.erase (b : Alternations) : Alternations :=
  ⟨eraseAlternations b.alternations, .origin⟩

/-- The production without its locations. -/
def Production.erase (p : Production) : Production :=
  ⟨p.name.erase, p.leadingPipe, p.body.map AlternationsOf.erase, .origin⟩

/-- Factors lose their locations one by one. -/
theorem eraseFactors_eq_map (fs : List Factor) : eraseFactors fs = fs.map (·.erase) := by
  induction fs with
  | nil => rfl
  | cons f fs ih => rw [eraseFactors, ih, List.map_cons]

/-- Alternations lose their locations one by one. -/
theorem eraseAlternations_eq_map (as : List Alternation) :
    eraseAlternations as = as.map AlternationOf.erase := by
  induction as with
  | nil => rfl
  | cons a as ih =>
    obtain ⟨fs, r⟩ := a
    rw [eraseAlternations, ih, List.map_cons]
    rfl

mutual

/-- A factor is displayed alike without locations. -/
@[simp]
theorem Factor.display_erase : (f : Factor) → f.erase.display = f.display
  | .symbol s => s.display_erase
  | .bracketed _ none _ => rfl
  | .bracketed kind (some ⟨as, _⟩) _ => by
    rw [Factor.erase, Factor.display, Factor.display, displayBody_erase as]

/-- A body is displayed alike without locations. -/
@[simp]
theorem displayBody_erase : (as : List (AlternationOf Factor)) →
    displayBody (eraseAlternations as) = displayBody as
  | [] => rfl
  | ⟨fs, _⟩ :: as => by
    rw [eraseAlternations, displayBody, displayBody, displayFactors_erase fs, displayAfterPipe_erase as]

/-- Alternations behind a pipe are displayed alike without locations. -/
theorem displayAfterPipe_erase : (as : List (AlternationOf Factor)) →
    displayAfterPipe (eraseAlternations as) = displayAfterPipe as
  | [] => rfl
  | ⟨[], _⟩ :: as => by
    rw [eraseAlternations, eraseFactors, displayAfterPipe, displayAfterPipe, displayAfterPipe_erase as]
  | ⟨f :: fs, _⟩ :: as => by
    rw [eraseAlternations, eraseFactors, displayAfterPipe, displayAfterPipe, f.display_erase,
      displayFactors_erase fs, displayAfterPipe_erase as]

/-- Factors are displayed alike without locations. -/
@[simp]
theorem displayFactors_erase : (fs : List Factor) → displayFactors (eraseFactors fs) = displayFactors fs
  | [] => rfl
  | f :: fs => by
    rw [eraseFactors, displayFactors, displayFactors, f.display_erase, displayFactors_erase fs]

end

/-- An alternation is displayed alike without locations. -/
@[simp]
theorem AlternationOf.display_erase (a : Alternation) :
    AlternationOf.display (AlternationOf.erase a) = AlternationOf.display a := by
  simp [AlternationOf.display, AlternationOf.erase]

/-- A body with its range is displayed alike without locations. -/
@[simp]
theorem AlternationsOf.display_erase (b : Alternations) :
    AlternationsOf.display (AlternationsOf.erase b) = AlternationsOf.display b := by
  simp [AlternationsOf.display, AlternationsOf.erase]

/-- A production is displayed alike without locations. -/
@[simp]
theorem Production.display_erase (p : Production) : p.erase.display = p.display := by
  unfold Production.display Production.erase
  cases p.body <;> simp [Identifier.erase]

/-! ### The prolog -/

/-- The change of state without its locations. -/
def StateSwitchKind.erase : StateSwitchKind → StateSwitchKind
  | enter target => enter target.erase
  | push target => push target.erase
  | pop => pop

/-- The change of state without its locations. -/
def StateSwitch.erase (s : StateSwitch) : StateSwitch :=
  ⟨s.kind.erase, .origin⟩

/-- The directive without its locations. -/
def DirectiveKind.erase : DirectiveKind → DirectiveKind
  | lineComment l => lineComment l.erase
  | blockComment first last => blockComment first.erase last.erase
  | autoNewlineOff => autoNewlineOff
  | autoWsOff => autoWsOff
  | on terminals switch => on terminals.erase switch.erase
  | allowUnmatched => allowUnmatched

/-- The directive without its locations. -/
def Directive.erase (d : Directive) : Directive :=
  ⟨d.kind.erase, .origin⟩

/-- The declaration without its locations. -/
def DeclarationKind.erase : DeclarationKind → DeclarationKind
  | title l => title l.erase
  | comment l => comment l.erase
  | userType name type => userType name.erase type.erase
  | ntType name type => ntType name.erase type.erase
  | tType type => tType type.erase
  | grammarType l => grammarType l.erase
  | scanner directive => scanner directive.erase

/-- The declaration without its locations. -/
def Declaration.erase (d : Declaration) : Declaration :=
  ⟨d.kind.erase, .origin⟩

/-- The scanner state without its locations. -/
def ScannerState.erase (s : ScannerState) : ScannerState :=
  ⟨s.name.erase, s.directives.map (·.erase), .origin⟩

/-- The start declaration without its locations. -/
def StartDeclaration.erase (s : StartDeclaration) : StartDeclaration :=
  ⟨s.identifier.erase, .origin⟩

/-- The prolog without its locations. -/
def Prolog.erase (p : Prolog) : Prolog :=
  ⟨p.start.erase, p.declarations.map (·.erase), p.states.map (·.erase), .origin⟩

/-- The definition without its locations. -/
def Definition.erase (d : Definition) : Definition :=
  ⟨d.productions.map (·.erase), .origin⟩

/-- The file without its locations. -/
def Grammar.erase (g : Grammar) : Grammar :=
  ⟨g.prolog.erase, g.definition.erase, .origin⟩

/-- A switch of scanner states is displayed alike without locations. -/
@[simp]
theorem StateSwitch.display_erase (s : StateSwitch) : s.erase.display = s.display := by
  unfold StateSwitch.display StateSwitch.target? StateSwitch.keyword StateSwitch.erase
  cases s.kind <;> rfl

/-- A directive has the same keyword without locations. -/
@[simp]
theorem Directive.keyword_erase (d : Directive) : d.erase.keyword = d.keyword := by
  unfold Directive.keyword Directive.erase
  cases d.kind <;> rfl

/-- A directive is displayed alike without locations. -/
@[simp]
theorem Directive.display_erase (d : Directive) : d.erase.display = d.display := by
  unfold Directive.display
  rw [d.keyword_erase]
  unfold Directive.erase
  cases d.kind with
  | on terminals switch => simp [DirectiveKind.erase]
  | _ => rfl

/-- A declaration has the same keyword without locations. -/
@[simp]
theorem Declaration.keyword_erase (d : Declaration) : d.erase.keyword = d.keyword := by
  unfold Declaration.keyword Declaration.erase
  cases d.kind with
  | scanner directive => exact directive.keyword_erase
  | _ => rfl

/-- A declaration is displayed alike without locations. -/
@[simp]
theorem Declaration.display_erase (d : Declaration) : d.erase.display = d.display := by
  unfold Declaration.display
  rw [d.keyword_erase]
  unfold Declaration.erase
  cases d.kind with
  | title l | comment l | grammarType l => rfl
  | userType name type | ntType name type => simp [DeclarationKind.erase, Identifier.erase]
  | tType type => simp [DeclarationKind.erase]
  | scanner directive => exact directive.display_erase

/-- A scanner state is printed alike without locations. -/
@[simp]
theorem ScannerState.print_erase (s : ScannerState) : s.erase.print = s.print := by
  simp [ScannerState.print, ScannerState.erase, Identifier.erase, Function.comp_def]

/-- The text of a tree does not depend on its locations. -/
theorem Grammar.print_erase (g : Grammar) : g.erase.print = g.print := by
  simp [Grammar.print, Grammar.productions, Grammar.erase, Prolog.erase, Definition.erase,
    StartDeclaration.display, StartDeclaration.erase, Identifier.erase, Function.comp_def]

end GrammarFile
