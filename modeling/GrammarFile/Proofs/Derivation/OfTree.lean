import GrammarFile.Proofs.Derivation.Table
import GrammarFile.Proofs.Yield

/-!
# The derivation that a tree stands for

Each kind of node of a tree is an instance of one or two rules of the table, and `derivation` says of
which: a symbol is a `symbol` whose only part is a non-terminal, a plain terminal or one in some states,
and brackets are a `factor` whose only part is a group, an optional part or a repetition. Ranges are left
out. The empty alternation at the end of a body is no node of its own, just the pipe that stands there.

The leaves of the derivation are the tokens of the tree (`Grammar.tokens_derivation`).
-/

namespace GrammarFile

/-- The leaf of a name. -/
def Identifier.derivation (i : Identifier) : Derivation :=
  .leaf i.token

/-- The leaf of a literal. -/
def Literal.derivation (l : Literal) : Derivation :=
  .leaf l.token

/-- Names with a mark between them. -/
def derivationsBetween (separator : Mark) : List Identifier → List Derivation
  | [] => []
  | i :: rest => i.derivation :: rest.flatMap fun j => [.mark separator, j.derivation]

/-- Names between commas. -/
def IdentifierList.derivation (l : IdentifierList) : Derivation :=
  .node .identifierList (derivationsBetween .comma l.identifiers)

/-- Names between `::`. -/
def TypeName.derivation (t : TypeName) : Derivation :=
  .node .typeName (derivationsBetween .doubleColon t.segments)

/-! ### Symbols -/

/-- The operator and the literal. -/
def LookAhead.derivation (l : LookAhead) : Derivation :=
  .node .lookAhead [.mark l.kind.operator, l.literal.derivation]

/-- The literal and the look-ahead. -/
def Terminal.derivation (t : Terminal) : Derivation :=
  .node .terminal (t.literal.derivation :: (t.lookAhead.map (·.derivation)).toList)

/-- `@` and the name. -/
def MemberName.derivation (n : MemberName) : Derivation :=
  .node .memberName [.mark .atSign, n.identifier.derivation]

/-- A colon and the type. -/
def TypeAnnotation.derivation (a : TypeAnnotation) : Derivation :=
  .node RuleName.typeAnnotation [.mark .colon, a.typeName.derivation]

/-- What is written after a symbol, in a row. -/
def TreeControlKind.derivations : TreeControlKind → List Derivation
  | cut => [.mark .caret]
  | member name type => name.derivation :: (type.map (·.derivation)).toList
  | typed type => [type.derivation]

/-- What is written after a symbol. -/
def TreeControl.derivation (c : TreeControl) : Derivation :=
  .node .treeControl c.kind.derivations

/-- A symbol with what is written after it. -/
def SymbolKind.derivation (control : List Derivation) : SymbolKind → Derivation
  | nonTerminal i => .node .nonTerminal (i.derivation :: control)
  | terminal t => .node .plainTerminal (t.derivation :: control)
  | terminalIn states t => .node .terminalIn
      (.mark .lessThan :: states.derivation :: .mark .greaterThan :: t.derivation :: control)

/-- The symbol and what is written after it. -/
def Symbol.derivation (s : Symbol) : Derivation :=
  .node .symbol [s.kind.derivation (s.control.map (·.derivation)).toList]

/-! ### Bodies -/

/-- The rule of a sort of brackets. -/
def BracketKind.ruleName : BracketKind → RuleName
  | group => .group
  | optional => .optional
  | repetition => .repetition

mutual

/-- A symbol, or a body between brackets. -/
def Factor.derivation : Factor → Derivation
  | .symbol s => .node .factor [s.derivation]
  | .bracketed kind none _ =>
    .node .factor [.node kind.ruleName [.mark kind.left, .mark kind.right]]
  | .bracketed kind (some ⟨alternations, _⟩) _ =>
    .node .factor [.node kind.ruleName
      [.mark kind.left, .node .alternations (derivationsOfBody alternations), .mark kind.right]]

/-- The alternations with pipes between them. -/
def derivationsOfBody : List (AlternationOf Factor) → List Derivation
  | [] => []
  | ⟨factors, _⟩ :: rest =>
    .node .alternation (derivationsOfFactors factors) :: derivationsAfterPipe rest

/-- The alternations after the first, each after its pipe. Of an empty one there is just the pipe. -/
def derivationsAfterPipe : List (AlternationOf Factor) → List Derivation
  | [] => []
  | ⟨[], _⟩ :: rest => .mark .pipe :: derivationsAfterPipe rest
  | ⟨factor :: factors, _⟩ :: rest =>
    .mark .pipe :: .node .alternation (factor.derivation :: derivationsOfFactors factors) ::
      derivationsAfterPipe rest

/-- The factors in a row. -/
def derivationsOfFactors : List Factor → List Derivation
  | [] => []
  | factor :: rest => factor.derivation :: derivationsOfFactors rest

end

/-- The alternations with pipes between them. -/
def AlternationsOf.derivation (b : Alternations) : Derivation :=
  .node .alternations (derivationsOfBody b.alternations)

/-- The name, the colon, the body and the semicolon. -/
def Production.derivation (p : Production) : Derivation :=
  .node .production (p.name.derivation :: .mark .colon ::
    ((if p.leadingPipe then [.mark .pipe] else []) ++
      ((p.body.map AlternationsOf.derivation).toList ++ [.mark .semicolon])))

/-! ### The prolog -/

/-- The keyword and the state. -/
def StateSwitch.derivation (s : StateSwitch) : Derivation :=
  .node .stateSwitch (.mark s.keyword :: (s.target?.map (·.derivation)).toList)

/-- The keyword and what belongs to it. -/
def Directive.derivation (d : Directive) : Derivation :=
  .node .directive (.mark d.keyword ::
    match d.kind with
    | .lineComment l => [l.derivation]
    | .blockComment first last => [first.derivation, last.derivation]
    | .on terminals switch => [terminals.derivation, switch.derivation]
    | .autoNewlineOff | .autoWsOff | .allowUnmatched => [])

/-- The keyword and what belongs to it. -/
def Declaration.derivation (d : Declaration) : Derivation :=
  .node .declaration
    (match d.kind with
    | .title l | .comment l | .grammarType l => [.mark d.keyword, l.derivation]
    | .userType name type | .ntType name type =>
      [.mark d.keyword, name.derivation, .mark .equals, type.derivation]
    | .tType type => [.mark d.keyword, type.derivation]
    | .scanner directive => [directive.derivation])

/-- The keyword, the name and the directives between braces. -/
def ScannerState.derivation (s : ScannerState) : Derivation :=
  .node .scannerState (.mark .scanner :: s.name.derivation :: .mark .leftBrace ::
    (s.directives.map (·.derivation) ++ [.mark .rightBrace]))

/-- The keyword and the name. -/
def StartDeclaration.derivation (s : StartDeclaration) : Derivation :=
  .node .startDeclaration [.mark .start, s.identifier.derivation]

/-- Everything before `%%`. -/
def Prolog.derivation (p : Prolog) : Derivation :=
  .node .prolog (p.start.derivation ::
    (p.declarations.map (·.derivation) ++ p.states.map (·.derivation)))

/-- `%%` and the productions. -/
def Definition.derivation (d : Definition) : Derivation :=
  .node .definition (.mark .percentPercent :: d.productions.map (·.derivation))

/-- The whole file. -/
def Grammar.derivation (g : Grammar) : Derivation :=
  .node .file [g.prolog.derivation, g.definition.derivation]

/-! ### The leaves are the tokens -/

/-- The tokens of nodes in a row are those of each. -/
theorem tokensOfParts_map {α : Type} {f : α → Derivation} {g : α → List Token} (items : List α)
    (h : ∀ a, (f a).tokens = g a) : tokensOfParts (items.map f) = items.flatMap g := by
  induction items with
  | nil => rfl
  | cons a items ih => rw [List.map_cons, tokensOfParts, h, ih, List.flatMap_cons]

/-- The tokens of a part that may be missing. -/
theorem tokensOfParts_toList {α : Type} {f : α → Derivation} {g : α → List Token} (o : Option α)
    (h : ∀ a, (f a).tokens = g a) : tokensOfParts (o.map f).toList = o.elim [] g := by
  cases o with
  | none => rfl
  | some a => exact (tokensOfParts_singleton _).trans (h a)

/-- Names with separators derive the tokens that they print. -/
theorem tokensOfParts_between (separator : Mark) (names : List Identifier) :
    tokensOfParts (derivationsBetween separator names) = tokensBetween separator names := by
  cases names with
  | nil => rfl
  | cons i names =>
    refine congrArg (i.token :: ·) ?_
    induction names with
    | nil => rfl
    | cons j names ih => exact congrArg ([.mark separator, j.token] ++ ·) ih

/-- A list of identifiers derives its tokens. -/
theorem IdentifierList.tokens_derivation (l : IdentifierList) : l.derivation.tokens = l.tokens :=
  tokensOfParts_between .comma l.identifiers

/-- A type name derives its tokens. -/
theorem TypeName.tokens_derivation (t : TypeName) : t.derivation.tokens = t.tokens :=
  tokensOfParts_between .doubleColon t.segments

/-- A look-ahead derives its tokens. -/
theorem LookAhead.tokens_derivation (l : LookAhead) : l.derivation.tokens = l.tokens :=
  rfl

/-- A terminal derives its tokens. -/
theorem Terminal.tokens_derivation (t : Terminal) : t.derivation.tokens = t.tokens :=
  congrArg (t.literal.token :: ·) (tokensOfParts_toList t.lookAhead LookAhead.tokens_derivation)

/-- A type annotation derives its tokens. -/
theorem TypeAnnotation.tokens_derivation (a : TypeAnnotation) : a.derivation.tokens = a.tokens := by
  have htype := (tokensOfParts_singleton _).trans a.typeName.tokens_derivation
  exact congrArg (.mark .colon :: ·) htype

/-- What is written after a symbol derives its tokens. -/
theorem TreeControl.tokens_derivation (c : TreeControl) : c.derivation.tokens = c.tokens := by
  unfold TreeControl.derivation TreeControl.tokens
  cases c.kind with
  | cut => rfl
  | member name type =>
    have htype := tokensOfParts_toList type TypeAnnotation.tokens_derivation
    exact congrArg ([.mark .atSign, name.identifier.token] ++ ·) htype
  | typed type => exact (tokensOfParts_singleton _).trans type.tokens_derivation

/-- A symbol derives its own tokens in front of those of what is written after it. -/
theorem SymbolKind.tokens_derivation (s : SymbolKind) (control : List Derivation) :
    (s.derivation control).tokens = s.tokens ++ tokensOfParts control := by
  cases s with
  | nonTerminal i => rfl
  | terminal t => exact congrArg (· ++ tokensOfParts control) t.tokens_derivation
  | terminalIn states t =>
    simp only [SymbolKind.derivation, SymbolKind.tokens, Derivation.tokens, tokensOfParts,
      states.tokens_derivation, t.tokens_derivation, Derivation.mark]
    simp

/-- A symbol derives its tokens, with what is written after it. -/
theorem Symbol.tokens_derivation (s : Symbol) : s.derivation.tokens = s.tokens := by
  have hcontrol := tokensOfParts_toList s.control TreeControl.tokens_derivation
  rw [Symbol.derivation, Derivation.tokens, tokensOfParts_singleton, s.kind.tokens_derivation, hcontrol]
  rfl

mutual

/-- A factor derives its tokens. -/
theorem Factor.tokens_derivation : (f : Factor) → f.derivation.tokens = f.tokens
  | .symbol s => (tokensOfParts_singleton _).trans s.tokens_derivation
  | .bracketed _ none _ => rfl
  | .bracketed kind (some ⟨as, _⟩) _ => by
    simp only [Factor.derivation, Factor.tokens, Derivation.tokens, tokensOfParts, Derivation.mark,
      tokens_derivationsOfBody as]
    simp

/-- The alternations of a body derive the tokens of the body. -/
theorem tokens_derivationsOfBody : (as : List (AlternationOf Factor)) →
    tokensOfParts (derivationsOfBody as) = tokensOfBody as
  | [] => rfl
  | ⟨fs, _⟩ :: as => by
    rw [derivationsOfBody, tokensOfParts, Derivation.tokens, tokens_derivationsOfFactors fs,
      tokens_derivationsAfterPipe as, tokensOfBody]

/-- Alternations behind a pipe derive their tokens, with a pipe in front of each. -/
theorem tokens_derivationsAfterPipe : (as : List (AlternationOf Factor)) →
    tokensOfParts (derivationsAfterPipe as) = tokensAfterPipe as
  | [] => rfl
  | ⟨[], _⟩ :: as => congrArg (Token.mark .pipe :: ·) (tokens_derivationsAfterPipe as)
  | ⟨f :: fs, _⟩ :: as => by
    have hfs := tokens_derivationsOfFactors (f :: fs)
    rw [derivationsOfFactors] at hfs
    rw [derivationsAfterPipe, tokensOfParts, tokensOfParts, Derivation.tokens, hfs,
      tokens_derivationsAfterPipe as, tokensAfterPipe]
    rfl

/-- A list of factors derives the tokens of the factors in order. -/
theorem tokens_derivationsOfFactors : (fs : List Factor) →
    tokensOfParts (derivationsOfFactors fs) = tokensOfFactors fs
  | [] => rfl
  | f :: fs => by
    rw [derivationsOfFactors, tokensOfParts, f.tokens_derivation, tokens_derivationsOfFactors fs,
      tokensOfFactors]

end

/-- A body derives its tokens. -/
theorem AlternationsOf.tokens_derivation (b : Alternations) :
    (AlternationsOf.derivation b).tokens = AlternationsOf.tokens b :=
  tokens_derivationsOfBody b.alternations

/-- A production derives its tokens. -/
theorem Production.tokens_derivation (p : Production) : p.derivation.tokens = p.tokens := by
  have hbody := tokensOfParts_toList p.body AlternationsOf.tokens_derivation
  have hpipe : tokensOfParts (if p.leadingPipe then [.mark .pipe] else []) =
      if p.leadingPipe then [.mark .pipe] else [] := by
    cases p.leadingPipe <;> rfl
  simp only [Production.derivation, Production.tokens, Derivation.tokens, tokensOfParts,
    tokensOfParts_append, hbody, hpipe]
  rfl

/-- A switch of scanner states derives its tokens. -/
theorem StateSwitch.tokens_derivation (s : StateSwitch) : s.derivation.tokens = s.tokens := by
  unfold StateSwitch.derivation StateSwitch.tokens
  cases s.target? <;> rfl

/-- A directive derives its tokens. -/
theorem Directive.tokens_derivation (d : Directive) : d.derivation.tokens = d.tokens := by
  unfold Directive.derivation Directive.tokens
  cases d.kind with
  | on terminals switch =>
    simp only [Derivation.tokens, tokensOfParts, Derivation.mark, terminals.tokens_derivation,
      switch.tokens_derivation]
    simp
  | _ => rfl

/-- A declaration derives its tokens. -/
theorem Declaration.tokens_derivation (d : Declaration) : d.derivation.tokens = d.tokens := by
  unfold Declaration.derivation Declaration.tokens
  cases d.kind with
  | title l | comment l | grammarType l => rfl
  | userType name type | ntType name type =>
    have htype := (tokensOfParts_singleton _).trans type.tokens_derivation
    exact congrArg ([.mark d.keyword, name.token, .mark .equals] ++ ·) htype
  | tType type =>
    have htype := (tokensOfParts_singleton _).trans type.tokens_derivation
    exact congrArg (.mark d.keyword :: ·) htype
  | scanner directive => exact (tokensOfParts_singleton _).trans directive.tokens_derivation

/-- A scanner state derives its tokens. -/
theorem ScannerState.tokens_derivation (s : ScannerState) : s.derivation.tokens = s.tokens := by
  have hdirectives := tokensOfParts_map s.directives Directive.tokens_derivation
  simp only [ScannerState.derivation, ScannerState.tokens, Derivation.tokens, tokensOfParts,
    tokensOfParts_append, hdirectives]
  rfl

/-- The leaves of the derivation of a file are the tokens of its tree. -/
theorem Grammar.tokens_derivation (g : Grammar) : g.derivation.tokens = g.tokens := by
  have hdeclarations := tokensOfParts_map g.prolog.declarations Declaration.tokens_derivation
  have hstates := tokensOfParts_map g.prolog.states ScannerState.tokens_derivation
  have hproductions := tokensOfParts_map g.definition.productions Production.tokens_derivation
  simp only [Grammar.derivation, Grammar.tokens, Prolog.derivation, Prolog.tokens, Definition.derivation,
    Definition.tokens, Derivation.tokens, tokensOfParts, tokensOfParts_append, hdeclarations, hstates,
    hproductions, List.append_nil]
  rfl

end GrammarFile
