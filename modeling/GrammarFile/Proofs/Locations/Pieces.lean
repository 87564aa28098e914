import GrammarFile.Proofs.Derivation.Rules
import GrammarFile.Proofs.Parsing.Along
import GrammarFile.Proofs.Parsing.FileRule

/-!
# The places of the nodes of a tree

A `Piece` is a tree, or a part of it, as far as places are concerned: the tokens that it is written
with, the ranges that it keeps of them, and the ranges of its nodes. `Covers index pieces lexemes`
says that those places are right. The tokens of the pieces are the given ones, in their order, and
the range of every node is that from the start of its first token to the end of its last one. An
empty alternation has no token of its own. It stands at the end of the pipe before it.

What the rule of a file builds has its places right, up to the range of the whole file
(`laid_prolog`, `laid_definition`).
-/

namespace GrammarFile

/-- A tree as far as places are concerned. -/
inductive Piece where
  /-- A token, and the range that the tree keeps of it, which is none for marks. -/
  | token (token : Token) (range : Option Range)
  /-- The pipe that ends a body, and the range of the empty alternation behind it. -/
  | bare (range : Range)
  /-- A node with a range and the pieces that it is made of. -/
  | node (range : Range) (parts : List Piece)

/-- The token of a mark. -/
def Piece.mark (m : Mark) : Piece :=
  .token (.mark m) none

/-- Whether tokens are those of some pieces, in their order, and the ranges of the pieces are theirs. -/
inductive Covers (index : LineIndex) : List Piece → List Lexeme → Prop where
  | nil : Covers index [] []
  | token {t : Token} {range : Option Range} {u : Lexeme} {ps : List Piece} {us : List Lexeme} :
      u.token = t → (∀ r ∈ range, r = index.range u.span) → Covers index ps us →
      Covers index (.token t range :: ps) (u :: us)
  | bare {range : Range} {u : Lexeme} {ps : List Piece} {us : List Lexeme} :
      u.token = .mark .pipe → range = index.range ⟨u.span.stop, u.span.stop⟩ → Covers index ps us →
      Covers index (.bare range :: ps) (u :: us)
  | node {range : Range} {parts ps : List Piece} {first last : Lexeme} {us vs : List Lexeme} :
      Covers index parts us → us.head? = some first → us.getLast? = some last →
      range = index.range ⟨first.span.start, last.span.stop⟩ → Covers index ps vs →
      Covers index (.node range parts :: ps) (us ++ vs)

/-! ### The pieces of a tree

Every node is made of its marks, names and literals and its inner nodes, as they are written one
behind the other. -/

/-- A name is the token that it was read from. -/
def Identifier.piece (i : Identifier) : Piece :=
  .token i.token (some i.range)

/-- A literal is the token that it was read from. -/
def Literal.piece (l : Literal) : Piece :=
  .token l.token (some l.range)

/-- Names with a mark between them. -/
def piecesBetween (separator : Mark) : List Identifier → List Piece
  | [] => []
  | i :: rest => i.piece :: rest.flatMap fun j => [.mark separator, j.piece]

/-- A list of names, with commas between them. -/
def IdentifierList.piece (l : IdentifierList) : Piece :=
  .node l.range (piecesBetween .comma l.identifiers)

/-- A type name, with double colons between its segments. -/
def TypeName.piece (t : TypeName) : Piece :=
  .node t.range (piecesBetween .doubleColon t.segments)

/-- A look-ahead is its operator and its literal. -/
def LookAhead.piece (l : LookAhead) : Piece :=
  .node l.range [.mark l.kind.operator, l.literal.piece]

/-- A terminal is its literal, and its look-ahead where it has one. -/
def Terminal.piece (t : Terminal) : Piece :=
  .node t.range (t.literal.piece :: t.lookAhead.elim [] fun l => [l.piece])

/-- A member name behind its at sign. -/
def MemberName.piece (n : MemberName) : Piece :=
  .node n.range [.mark .atSign, n.identifier.piece]

/-- A type annotation behind its colon. -/
def TypeAnnotation.piece (a : TypeAnnotation) : Piece :=
  .node a.range [.mark .colon, a.typeName.piece]

/-- The parts of what is written after a symbol. -/
def TreeControlKind.pieces : TreeControlKind → List Piece
  | cut => [.mark .caret]
  | member name type => name.piece :: type.elim [] fun a => [a.piece]
  | typed type => [type.piece]

/-- What is written after a symbol. -/
def TreeControl.piece (c : TreeControl) : Piece :=
  .node c.range c.kind.pieces

/-- The parts of a symbol before what is written after it. -/
def SymbolKind.pieces : SymbolKind → List Piece
  | nonTerminal i => [i.piece]
  | terminal t => [t.piece]
  | terminalIn states t => [.mark .lessThan, states.piece, .mark .greaterThan, t.piece]

/-- A symbol, and what is written after it. -/
def Symbol.piece (s : Symbol) : Piece :=
  .node s.range (s.kind.pieces ++ s.control.elim [] fun c => [c.piece])

mutual

/-- A factor is a symbol, or a body between its brackets. -/
def Factor.piece : Factor → Piece
  | .symbol s => s.piece
  | .bracketed kind none r => .node r [.mark kind.left, .mark kind.right]
  | .bracketed kind (some ⟨alternations, inner⟩) r =>
    .node r [.mark kind.left, .node inner (piecesOfBody alternations), .mark kind.right]

/-- Alternations with pipes between them. -/
def piecesOfBody : List (AlternationOf Factor) → List Piece
  | [] => []
  | ⟨factors, r⟩ :: rest => .node r (piecesOfFactors factors) :: piecesAfterPipe rest

/-- Alternations after the first, each after its pipe. -/
def piecesAfterPipe : List (AlternationOf Factor) → List Piece
  | [] => []
  | ⟨[], r⟩ :: rest => .bare r :: piecesAfterPipe rest
  | ⟨factor :: factors, r⟩ :: rest =>
    .mark .pipe :: .node r (factor.piece :: piecesOfFactors factors) :: piecesAfterPipe rest

/-- Factors one behind the other. -/
def piecesOfFactors : List Factor → List Piece
  | [] => []
  | factor :: rest => factor.piece :: piecesOfFactors rest

end

/-- A body. -/
def AlternationsOf.piece (b : Alternations) : Piece :=
  .node b.range (piecesOfBody b.alternations)

/-- The pipe that leads a body, if there is one, and the body. -/
def piecesAfterColon (leadingPipe : Bool) (body : Option Alternations) : List Piece :=
  (if leadingPipe then [.mark .pipe] else []) ++ body.elim [] fun b => [AlternationsOf.piece b]

/-- A production, with its colon and its semicolon. -/
def Production.piece (p : Production) : Piece :=
  .node p.range
    (p.name.piece :: .mark .colon :: (piecesAfterColon p.leadingPipe p.body ++ [.mark .semicolon]))

/-- The parts of a change of state. -/
def StateSwitchKind.pieces : StateSwitchKind → List Piece
  | enter target => [.mark .enter, target.piece]
  | push target => [.mark .push, target.piece]
  | pop => [.mark .pop]

/-- A change of state. -/
def StateSwitch.piece (s : StateSwitch) : Piece :=
  .node s.range s.kind.pieces

/-- The parts of a directive, with its keyword. -/
def DirectiveKind.pieces : DirectiveKind → List Piece
  | lineComment l => [.mark .lineComment, l.piece]
  | blockComment first last => [.mark .blockComment, first.piece, last.piece]
  | autoNewlineOff => [.mark .autoNewlineOff]
  | autoWsOff => [.mark .autoWsOff]
  | on terminals switch => [.mark .on, terminals.piece, switch.piece]
  | allowUnmatched => [.mark .allowUnmatched]

/-- A directive. -/
def Directive.piece (d : Directive) : Piece :=
  .node d.range d.kind.pieces

/-- The parts of a declaration, with its keyword unless it is a directive. -/
def DeclarationKind.pieces : DeclarationKind → List Piece
  | title l => [.mark .title, l.piece]
  | comment l => [.mark .comment, l.piece]
  | userType name type => [.mark .userType, name.piece, .mark .equals, type.piece]
  | ntType name type => [.mark .ntType, name.piece, .mark .equals, type.piece]
  | tType type => [.mark .tType, type.piece]
  | grammarType l => [.mark .grammarType, l.piece]
  | scanner directive => [directive.piece]

/-- A declaration. -/
def Declaration.piece (d : Declaration) : Piece :=
  .node d.range d.kind.pieces

/-- A scanner state, with the block of its directives. -/
def ScannerState.piece (s : ScannerState) : Piece :=
  .node s.range (.mark .scanner :: s.name.piece :: .mark .leftBrace ::
    (s.directives.flatMap (fun d => [d.piece]) ++ [.mark .rightBrace]))

/-- The start declaration. -/
def StartDeclaration.piece (s : StartDeclaration) : Piece :=
  .node s.range [.mark .start, s.identifier.piece]

/-- The prolog: the start declaration, the other ones and the scanner states. -/
def Prolog.piece (p : Prolog) : Piece :=
  .node p.range (p.start.piece :: (p.declarations.flatMap (fun d => [d.piece]) ++
    p.states.flatMap fun s => [s.piece]))

/-- The productions behind their `%%`. -/
def Definition.piece (d : Definition) : Piece :=
  .node d.range (.mark .percentPercent :: d.productions.flatMap fun p => [p.piece])

/-- The places of a whole file. -/
def Grammar.piece (g : Grammar) : Piece :=
  .node g.range [g.prolog.piece, g.definition.piece]

/-! ### Pieces along tokens -/

variable {index : LineIndex}

/-- Pieces behind pieces cover lexemes behind lexemes. -/
theorem Covers.append {ps qs : List Piece} {us vs : List Lexeme} (h : Covers index ps us)
    (h' : Covers index qs vs) : Covers index (ps ++ qs) (us ++ vs) := by
  induction h with
  | nil => exact h'
  | token ht hr _ ih => exact .token ht hr ih
  | bare ht hr _ ih => exact .bare ht hr ih
  | node hparts hfirst hlast hr _ _ ih =>
    rw [List.append_assoc]
    exact .node hparts hfirst hlast hr ih

/-- Whether located tokens are those of some pieces. -/
def Laid (index : LineIndex) (ps : List Piece) (ts : List LocatedToken) : Prop :=
  ∀ us, ts = locate index us → Covers index ps us

instance : Joins (Laid index) where
  nil := by
    intro us hus
    rw [List.map_eq_nil_iff.mp hus.symm]
    exact .nil
  append := by
    intro ps qs ts ts' h h' us hus
    obtain ⟨vs, ws, rfl, hvs, hws⟩ := List.map_eq_append_iff.mp hus.symm
    exact (h vs hvs.symm).append (h' ws hws.symm)

/-- The range of the last of some located lexemes is that of its span. -/
theorem lastRange_locate (l : Lexeme) (us : List Lexeme) :
    lastRange (index.range l.span) (locate index us) =
      index.range ((l :: us).getLast (List.cons_ne_nil l us)).span := by
  induction us generalizing l with
  | nil => rfl
  | cons u us ih =>
    rw [List.getLast_cons (List.cons_ne_nil u us)]
    exact ih u

/-- The range of some tokens is that from the start of the first to the end of the last. -/
theorem spanOf_locate {first last : Lexeme} {us : List Lexeme} (hfirst : us.head? = some first)
    (hlast : us.getLast? = some last) :
    spanOf (locate index us) = index.range ⟨first.span.start, last.span.stop⟩ := by
  cases us with
  | nil => cases hfirst
  | cons u us =>
    cases hfirst
    rw [List.getLast?_eq_some_getLast (List.cons_ne_nil first us)] at hlast
    have hrange : lastRange (index.range first.span) (locate index us) = index.range last.span := by
      rw [lastRange_locate, Option.some.inj hlast]
    show (index.range first.span).through (lastRange (index.range first.span) (locate index us)) = _
    rw [hrange]
    rfl

/-- What a rule that always consumes a token has read reaches from a first token to a last one. -/
theorem exists_spanOf_of_reads {α : Type} {r : Rule true α} {us : List Lexeme} {x : α}
    (h : r.Reads (locate index us) x) :
    ∃ first last, us.head? = some first ∧ us.getLast? = some last ∧
      spanOf (locate index us) = index.range ⟨first.span.start, last.span.stop⟩ := by
  have hne : us ≠ [] := by
    rintro rfl
    exact Rule.ne_nil_of_reads rfl h rfl
  have hfirst := List.head?_eq_some_head hne
  have hlast := List.getLast?_eq_some_getLast hne
  exact ⟨_, _, hfirst, hlast, spanOf_locate hfirst hlast⟩

section Rules

variable {α β : Type} {f : α → List Piece} {g : β → List Piece}

/-- A rule with a range lays a node around what the rule lays. -/
theorem Rule.Along.node {r : Rule true α} {F : α → Range → β} (h : r.Along (Laid index) f)
    (hg : ∀ x range, g (F x range) = [.node range (f x)]) : (Rule.ranged F r).Along (Laid index) g := by
  rintro ts _ ⟨x, hx, rfl⟩ us rfl
  obtain ⟨first, last, hfirst, hlast, hspan⟩ := exists_spanOf_of_reads hx
  have hnode := Covers.node (h hx us rfl) hfirst hlast hspan .nil
  rwa [List.append_nil, ← hg] at hnode

/-! ### Symbols -/

/-- A mark lies along its token. -/
theorem laid_mark (m : Mark) : (Rules.mark m).Along (Laid index) fun _ => [.mark m] := by
  rintro _ t ⟨rfl, hkind⟩ us hus
  obtain ⟨u, rfl, rfl⟩ := List.map_eq_singleton_iff.mp hus.symm
  exact .token (Token.kind_eq_mark_iff.mp hkind) nofun .nil

/-- An identifier lies along its token. -/
theorem laid_identifier : Rules.identifier.Along (Laid index) fun i => [i.piece] := by
  rintro _ _ ⟨t, ⟨rfl, hkind⟩, rfl⟩ us hus
  obtain ⟨u, rfl, rfl⟩ := List.map_eq_singleton_iff.mp hus.symm
  refine .token (token_of_kind_identifier hkind).symm ?_ .nil
  rintro _ ⟨rfl⟩
  rfl

/-- A literal of one kind lies along its token. -/
theorem laid_literalOf (kind : LiteralKind) :
    (Rules.literalOf kind).Along (Laid index) fun l => [l.piece] := by
  rintro _ _ ⟨t, ⟨rfl, hkind⟩, rfl⟩ us hus
  obtain ⟨u, rfl, rfl⟩ := List.map_eq_singleton_iff.mp hus.symm
  refine .token (token_of_kind_literal hkind).symm ?_ .nil
  rintro _ ⟨rfl⟩
  rfl

/-- A literal lies along its token. -/
theorem laid_literal : Rules.literal.Along (Laid index) fun l => [l.piece] :=
  (laid_literalOf .string).choice ((laid_literalOf .rawString).choice (laid_literalOf .regex))

/-- Identifiers between marks lie along their tokens. -/
theorem laid_between (m : Mark) :
    ((Rules.mark m).separated Rules.identifier).Along (Laid index) (piecesBetween m) :=
  .map (laid_identifier.seq ((laid_mark m).skipThen laid_identifier).many)

/-- A type name lies along its tokens. -/
theorem laid_typeName : Rules.typeName.Along (Laid index) fun t => [t.piece] :=
  (laid_between .doubleColon).node fun _ _ => rfl

/-- A list of identifiers lies along its tokens. -/
theorem laid_identifierList : Rules.identifierList.Along (Laid index) fun l => [l.piece] :=
  (laid_between .comma).node fun _ _ => rfl

/-- A look-ahead lies along its tokens. -/
theorem laid_lookAhead : Rules.lookAhead.Along (Laid index) fun l => [l.piece] := by
  have hkind : Rules.lookAheadKind.Along (Laid index) fun kind => [.mark kind.operator] :=
    .choice (.map (laid_mark .positiveLookahead)) (.map (laid_mark .negativeLookahead))
  exact (hkind.seq laid_literal).node fun _ _ => rfl

/-- A terminal lies along its tokens. -/
theorem laid_terminal : Rules.terminal.Along (Laid index) fun t => [t.piece] :=
  (laid_literal.seq laid_lookAhead.optional).node fun _ _ => rfl

/-- A type annotation lies along its tokens. -/
theorem laid_typeAnnotation : Rules.typeAnnotation.Along (Laid index) fun a => [a.piece] :=
  ((laid_mark .colon).skipThen laid_typeName).node fun _ _ => rfl

/-- The name of a member lies along its tokens. -/
theorem laid_memberName : Rules.memberName.Along (Laid index) fun n => [n.piece] :=
  ((laid_mark .atSign).skipThen laid_identifier).node fun _ _ => rfl

/-- What is written after a symbol lies along its tokens. -/
theorem laid_treeControl : Rules.treeControl.Along (Laid index) fun c => [c.piece] := by
  refine .node (f := TreeControlKind.pieces) ?_ fun _ _ => rfl
  refine .choice (.map (laid_mark .caret)) (.choice (.map ?_) (.map laid_typeAnnotation))
  exact laid_memberName.seq laid_typeAnnotation.optional

/-- A symbol lies along its tokens. -/
theorem laid_symbol : Rules.symbol.Along (Laid index) fun s => [s.piece] := by
  have hkind : Rules.symbolKind.Along (Laid index) SymbolKind.pieces := by
    refine .choice (.map laid_identifier) (.choice (.map laid_terminal) (.map ?_))
    exact ((laid_mark .lessThan).skipThen (laid_identifierList.thenSkip (laid_mark .greaterThan))).seq
      laid_terminal
  exact (hkind.seq laid_treeControl.optional).node fun _ _ => rfl

/-! ### Bodies -/

/-- The pieces of factors are taken one factor behind the other. -/
theorem piecesOfFactors_eq_flatMap (fs : List Factor) :
    piecesOfFactors fs = fs.flatMap fun f => [f.piece] := by
  induction fs with
  | nil => rfl
  | cons f fs ih => rw [piecesOfFactors, ih, List.flatMap_cons, List.singleton_append]

/-- The pieces of alternations behind a pipe are taken one alternation behind the other. -/
theorem piecesAfterPipe_eq_flatMap (as : List Alternation) :
    piecesAfterPipe as = as.flatMap fun a => piecesAfterPipe [a] := by
  induction as with
  | nil => rfl
  | cons a as ih =>
    obtain ⟨fs, r⟩ := a
    rw [List.flatMap_cons, ← ih]
    cases fs <;> rfl

section Bodies

variable {factor : Rule true Factor}

/-- An alternation lies along its tokens if its factors do. -/
theorem laid_alternation (h : factor.Along (Laid index) fun f => [f.piece]) :
    (Rules.alternation factor).Along (Laid index) fun a => [.node a.range (piecesOfFactors a.factors)] :=
  h.oneOrMore.node fun fs range => by rw [piecesOfFactors_eq_flatMap]

/-- An alternation lies behind its pipe, and the empty one at the end of the pipe. -/
theorem laid_afterPipe (h : factor.Along (Laid index) fun f => [f.piece]) :
    (Rule.map Rules.afterPipe (.seq (Rules.mark .pipe) (Rules.alternation factor).optional)).Along
      (Laid index)
      fun x => piecesAfterPipe [x.value] := by
  rintro _ _ ⟨⟨pipe, o⟩, ⟨us, vs, rfl, hpipe, ⟨a, ha, rfl⟩ | ⟨rfl, rfl⟩⟩, rfl⟩
  · -- an alternation that was read has a factor
    have hpieces :
        piecesAfterPipe [a] = [.mark .pipe] ++ [.node a.range (piecesOfFactors a.factors)] := by
      obtain ⟨f, fs, hfs⟩ : ∃ f fs, a.factors = f :: fs := exists_factor_of_reads ha
      obtain ⟨_, r⟩ := a
      cases hfs
      rfl
    show Laid index (piecesAfterPipe [a]) (us ++ vs)
    rw [hpieces]
    exact Joins.append (laid_mark .pipe hpipe) (laid_alternation h ha)
  · obtain ⟨rfl, hkind⟩ := hpipe
    rintro ws hws
    obtain ⟨u, rfl, rfl⟩ := List.map_eq_singleton_iff.mp hws.symm
    exact .bare (Token.kind_eq_mark_iff.mp hkind) rfl .nil

/-- A body lies along its tokens if its factors do. -/
theorem laid_alternations (h : factor.Along (Laid index) fun f => [f.piece]) :
    (Rules.alternations factor).Along (Laid index) fun b => [AlternationsOf.piece b] := by
  have htail := Rule.Along.iterate (f := fun a => piecesAfterPipe [a]) (laid_afterPipe h)
  refine ((laid_alternation h).seq htail).node ?_
  rintro ⟨⟨fs, r⟩, as⟩ range
  rw [AlternationsOf.piece, piecesOfBody, ← piecesAfterPipe_eq_flatMap]
  rfl

/-- Brackets lie along their tokens if the body between them does. -/
theorem laid_bracketed (kind : BracketKind) {body : Rule true Alternations}
    (h : body.Along (Laid index) fun b => [AlternationsOf.piece b]) :
    (Rules.bracketed kind body).Along (Laid index) fun f => [f.piece] := by
  refine ((laid_mark kind.left).skipThen (h.optional.thenSkip (laid_mark kind.right))).node ?_
  rintro (_ | ⟨as, inner⟩) range <;> rfl

end Bodies

/-- A factor lies along its tokens, at every level. -/
theorem laid_factor (levels : Nat) : (Rules.factor levels).Along (Laid index) fun f => [f.piece] :=
  .factor (.map laid_symbol) laid_alternations laid_bracketed levels

/-- A production lies along its tokens. -/
theorem laid_production (levels : Nat) :
    (Rules.production levels).Along (Laid index) fun p => [p.piece] := by
  have hbody : (Rules.alternations (Rules.factor levels)).Along (Laid index)
      fun b => [AlternationsOf.piece b] := laid_alternations (laid_factor levels)
  have hbodies : (Rules.productionBody levels).Along (Laid index) fun x => piecesAfterColon x.1 x.2 :=
    .choice (.map ((laid_mark .pipe).skipThen hbody)) (.choice (.map hbody) (.nothing rfl))
  have hrest := (laid_mark .colon).skipThen (hbodies.thenSkip (laid_mark .semicolon))
  exact (laid_identifier.seq hrest).node fun _ _ => rfl

/-! ### The prolog -/

/-- A switch of scanner states lies along its tokens. -/
theorem laid_stateSwitch : Rules.stateSwitch.Along (Laid index) fun s => [s.piece] := by
  refine .node (f := StateSwitchKind.pieces) ?_ fun _ _ => rfl
  refine .choice (.map ((laid_mark .enter).skipThen laid_identifier)) ?_
  exact .choice (.map ((laid_mark .push).skipThen laid_identifier)) (.map (laid_mark .pop))

/-- A directive lies along its tokens. -/
theorem laid_directive : Rules.directive.Along (Laid index) fun d => [d.piece] := by
  refine .node (f := DirectiveKind.pieces) ?_ fun _ _ => rfl
  refine .choice (.map ((laid_mark .lineComment).skipThen laid_literal)) ?_
  refine .choice (.map ((laid_mark .blockComment).skipThen (laid_literal.seq laid_literal))) ?_
  refine .choice (.map (laid_mark .autoNewlineOff)) (.choice (.map (laid_mark .autoWsOff)) ?_)
  exact .choice (.map ((laid_mark .on).skipThen (laid_identifierList.seq laid_stateSwitch)))
    (.map (laid_mark .allowUnmatched))

/-- A definition of a type lies along its tokens. -/
theorem laid_typeDefinition :
    Rules.typeDefinition.Along (Laid index) fun x => [x.1.piece, .mark .equals, x.2.piece] :=
  laid_identifier.seq ((laid_mark .equals).skipThen laid_typeName)

/-- A declaration lies along its tokens. -/
theorem laid_declaration : Rules.declaration.Along (Laid index) fun d => [d.piece] := by
  refine .node (f := DeclarationKind.pieces) ?_ fun _ _ => rfl
  refine .choice (.map ((laid_mark .title).skipThen (laid_literalOf .string))) ?_
  refine .choice (.map ((laid_mark .comment).skipThen (laid_literalOf .string))) ?_
  refine .choice (.map ((laid_mark .userType).skipThen laid_typeDefinition)) ?_
  refine .choice (.map ((laid_mark .ntType).skipThen laid_typeDefinition)) ?_
  refine .choice (.map ((laid_mark .tType).skipThen laid_typeName)) ?_
  exact .choice (.map ((laid_mark .grammarType).skipThen (laid_literalOf .rawString)))
    (.map laid_directive)

/-- A scanner state lies along its tokens. -/
theorem laid_scannerState : Rules.scannerState.Along (Laid index) fun s => [s.piece] := by
  have hdirectives : Rules.directive.many.Along (Laid index) (·.flatMap fun d => [d.piece]) :=
    laid_directive.many
  have hblock := (laid_mark .leftBrace).skipThen (hdirectives.thenSkip (laid_mark .rightBrace))
  exact ((laid_mark .scanner).skipThen (laid_identifier.seq hblock)).node fun _ _ => rfl

/-- The prolog lies along its tokens. -/
theorem laid_prolog : Rules.prolog.Along (Laid index) fun p => [p.piece] := by
  have hstart : Rules.startDeclaration.Along (Laid index) fun s => [s.piece] :=
    ((laid_mark .start).skipThen laid_identifier).node fun _ _ => rfl
  exact (hstart.seq (laid_declaration.many.seq laid_scannerState.many)).node fun _ _ => rfl

/-- The productions lie along their tokens. -/
theorem laid_definition (levels : Nat) :
    (Rules.definition levels).Along (Laid index) fun d => [d.piece] :=
  ((laid_mark .percentPercent).skipThen (laid_production levels).oneOrMore).node fun _ _ => rfl

end Rules

end GrammarFile
