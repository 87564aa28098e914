import GrammarFile.Outline.OfGrammar
import GrammarFile.Proofs.Lexing.Spacing
import GrammarFile.Proofs.Locations.Pieces

/-!
# Outlines are nested like the text

In the outline of a tree every node has its children inside of it, one behind the other
(`Outline.Placed`). The outline does not show every node of the tree, and shows the parts of some
nodes that it leaves out, but what it shows lies along the tokens (`Shown`), and so it does for
every rule.
-/

namespace GrammarFile

open Outline (leaf)

namespace Outline

/-- The types of the nodes that stand for literals. -/
def literalTypes : List String :=
  ["string", "raw_string", "regex"]

/-- Whether in an outline every node has its children inside of it, one behind the other, and a literal
spells the slice of the source at its range. -/
inductive Placed (source : String) : Outline → Prop where
  | mk {o : Outline}
      (inside : ∀ c ∈ o.children, o.range.span.start ≤ c.range.span.start ∧
        c.range.span.start ≤ c.range.span.stop ∧ c.range.span.stop ≤ o.range.span.stop)
      (ordered : o.children.Pairwise fun a b => a.range.span.stop ≤ b.range.span.start)
      (literal : o.nodeType ∈ literalTypes → o.range.span.slice? source = some o.label)
      (children : ∀ c ∈ o.children, c.Placed source) : Placed source o

/-- Whether outlines stand one behind the other between two byte offsets. -/
def Within (lo : Nat) : List Outline → Nat → Prop
  | [], hi => lo ≤ hi
  | o :: os, hi =>
    lo ≤ o.range.span.start ∧ o.range.span.start ≤ o.range.span.stop ∧ Within o.range.span.stop os hi

namespace Within

variable {lo mid hi : Nat} {os os' : List Outline}

/-- Outlines in a row may be said to stand behind an earlier offset. -/
theorem mono (h : Within mid os hi) (hle : lo ≤ mid) : Within lo os hi := by
  cases os with
  | nil => exact Nat.le_trans hle h
  | cons o os => exact ⟨Nat.le_trans hle h.1, h.2⟩

/-- Outlines in a row may follow others that end where they start. -/
theorem append (h : Within lo os mid) (h' : Within mid os' hi) : Within lo (os ++ os') hi := by
  induction os generalizing lo with
  | nil => exact h'.mono h
  | cons o os ih => exact ⟨h.1, h.2.1, ih h.2.2⟩

/-- Outlines in a row are all between the two offsets. -/
theorem inside (h : Within lo os hi) :
    ∀ o ∈ os, lo ≤ o.range.span.start ∧ o.range.span.start ≤ o.range.span.stop ∧
      o.range.span.stop ≤ hi := by
  induction os generalizing lo with
  | nil => simp
  | cons o os ih =>
    obtain ⟨hlo, hle, hrest⟩ := h
    have hstop : o.range.span.stop ≤ hi := by
      cases os with
      | nil => exact hrest
      | cons o' os => have := ih hrest o' List.mem_cons_self; omega
    intro o' ho'
    rcases List.mem_cons.mp ho' with rfl | ho'
    · exact ⟨hlo, hle, hstop⟩
    · have := ih hrest o' ho'
      omega

/-- Of outlines in a row, each ends before the next one starts. -/
theorem ordered (h : Within lo os hi) :
    os.Pairwise fun a b => a.range.span.stop ≤ b.range.span.start := by
  induction os generalizing lo with
  | nil => exact .nil
  | cons o os ih => exact .cons (fun o' ho' => (h.2.2.inside o' ho').1) (ih h.2.2)

end Within

/-- Whether an outline is a node with the given range and children that stands for no literal. -/
structure IsNode (o : Outline) (range : Range) (children : List Outline) : Prop where
  range : o.range = range
  children : o.children = children
  nodeType : o.nodeType ∉ literalTypes

namespace IsNode

variable {o : Outline} {r : Range} {cs : List Outline}

/-- A leaf is a node without children, if its type is not that of a literal. -/
theorem ofLeaf {nodeType label : String} (h : nodeType ∉ literalTypes) :
    (leaf nodeType label r).IsNode r [] :=
  ⟨rfl, rfl, h⟩

/-- An attribute more changes nothing about the range and the children of a node. -/
theorem withAttribute (h : o.IsNode r cs) (name text : String) :
    (o.withAttribute name text).IsNode r cs :=
  ⟨h.range, h.children, h.nodeType⟩

/-- Children that are put below a node follow those that it has. -/
theorem withChildren (h : o.IsNode r cs) (more : List Outline) :
    (o.withChildren more).IsNode r (cs ++ more) :=
  ⟨h.range, congrArg (· ++ more) h.children, h.nodeType⟩

/-- A node that may be extended is the same node if the extension keeps range and children. -/
theorem elim {α : Type} {f : α → Outline} (h : o.IsNode r cs) (hf : ∀ x, (f x).IsNode r cs)
    (x : Option α) : (x.elim o f).IsNode r cs := by
  cases x with
  | none => exact h
  | some x => exact hf x

/-- A node is placed if its children stand one behind the other inside of it. -/
theorem placed {source : String} (h : o.IsNode r cs) (hcs : Within r.span.start cs r.span.stop)
    (hplaced : ∀ c ∈ cs, c.Placed source) : o.Placed source := by
  obtain ⟨hrange, hchildren, hnode⟩ := h
  refine ⟨?_, ?_, fun hliteral => absurd hliteral hnode, ?_⟩
  · rw [hchildren, hrange]
    exact hcs.inside
  · rw [hchildren]
    exact hcs.ordered
  · rw [hchildren]
    exact hplaced

end IsNode

end Outline

open Outline (IsNode Within)

/-! ### Outlines along tokens -/

variable {source : String} {index : LineIndex}

/-- Whether outlines stand one behind the other where some tokens do. -/
def Shown (source : String) (index : LineIndex) (os : List Outline) (ts : List LocatedToken) : Prop :=
  ∀ us lo hi, ts = locate index us → Spaced source lo us hi →
    Within lo os hi ∧ ∀ o ∈ os, o.Placed source

instance : Joins (Shown source index) where
  nil := by
    intro us lo hi _ hspaced
    exact ⟨hspaced.le, by simp⟩
  append := by
    intro os os' ts ts' h h' us lo hi hus hspaced
    obtain ⟨vs, ws, rfl, hvs, hws⟩ := List.map_eq_append_iff.mp hus.symm
    obtain ⟨mid, hfirst, hsecond⟩ := hspaced.split
    obtain ⟨hwithin, hplaced⟩ := h vs lo mid hvs.symm hfirst
    obtain ⟨hwithin', hplaced'⟩ := h' ws mid hi hws.symm hsecond
    exact ⟨hwithin.append hwithin', List.forall_mem_append.mpr ⟨hplaced, hplaced'⟩⟩

section Rules

variable {α β : Type} {f : α → List Outline}

/-- No outline need be shown. -/
theorem hidden {s : Bool} (r : Rule s α) : r.Along (Shown source index) fun _ => [] := by
  intro ts x _ us lo hi _ hspaced
  exact ⟨hspaced.le, by simp⟩

/-- A rule with a range shows a node around what the rule shows. -/
theorem Rule.Along.shown {r : Rule true α} {F : α → Range → β} {o : β → Outline}
    (h : r.Along (Shown source index) f) (ho : ∀ x range, (o (F x range)).IsNode range (f x)) :
    (Rule.ranged F r).Along (Shown source index) fun y => [o y] := by
  rintro ts _ ⟨x, hx, rfl⟩ us lo hi rfl hspaced
  obtain ⟨first, last, hfirst, hlast, hspan⟩ := exists_spanOf_of_reads hx
  obtain ⟨hlo, hlt, hhi, hinner⟩ := hspaced.hull hfirst hlast
  obtain ⟨hwithin, hplaced⟩ := h hx us _ _ rfl hinner
  have hnode := ho x (spanOf (locate index us))
  rw [hspan] at hnode ⊢
  constructor
  · refine ⟨?_, ?_, ?_⟩ <;> rw [hnode.range]
    · exact hlo
    · exact Nat.le_of_lt hlt
    · exact hhi
  · intro o' ho'
    rw [List.mem_singleton.mp ho']
    exact hnode.placed hwithin hplaced

end Rules

/-! ### Symbols -/

/-- The outline of a literal of one kind lies along its token. -/
theorem shown_literalOf (kind : LiteralKind) :
    (Rules.literalOf kind).Along (Shown source index) fun l => [l.outline] := by
  rintro _ _ ⟨t, ⟨rfl, hkind⟩, rfl⟩ us lo hi hus hspaced
  obtain ⟨u, rfl, rfl⟩ := List.map_eq_singleton_iff.mp hus.symm
  obtain ⟨hlo, hlt, hslice, hhi⟩ := hspaced
  constructor
  · exact ⟨hlo, Nat.le_of_lt hlt, hhi⟩
  · intro o ho
    rw [List.mem_singleton.mp ho]
    exact ⟨by simp [Literal.outline, leaf], .nil, fun _ => hslice, by simp [Literal.outline, leaf]⟩

/-- The outline of a literal lies along its token. -/
theorem shown_literal : Rules.literal.Along (Shown source index) fun l => [l.outline] :=
  (shown_literalOf .string).choice ((shown_literalOf .rawString).choice (shown_literalOf .regex))

/-- The outline of a list of identifiers lies along its tokens. -/
theorem shown_identifierList : Rules.identifierList.Along (Shown source index) fun l => [l.outline] :=
  (hidden _).shown fun _ _ => .ofLeaf (by decide)

/-- The outline of a look-ahead lies along its tokens. -/
theorem shown_lookAhead : Rules.lookAhead.Along (Shown source index) fun l => [l.outline] := by
  refine ((hidden Rules.lookAheadKind).seq shown_literal).shown ?_
  rintro ⟨kind, literal⟩ range
  exact (IsNode.ofLeaf (by decide)).withChildren [literal.outline]

/-- What is made of an optional value is listed if the value is there. -/
theorem toList_map {α β : Type} (f : α → β) (o : Option α) :
    (o.map f).toList = o.elim [] fun x => [f x] := by
  cases o <;> rfl

/-- The outlines of a terminal lie along its tokens. -/
theorem shown_terminal : Rules.terminal.Along (Shown source index) fun t => t.outlines := by
  refine .ranged fun range => (shown_literal.seq shown_lookAhead.optional).congr ?_
  rintro ⟨literal, lookAhead⟩
  rw [Terminal.outlines, toList_map]
  rfl

/-- The outline of what is written after a symbol lies along its tokens. -/
theorem shown_treeControl : Rules.treeControl.Along (Shown source index) fun c => [c.outline] := by
  refine (hidden _).shown fun kind range => ?_
  have hnode : IsNode ((leaf "ast_control" (TreeControl.display ⟨kind, range⟩) range).withAttribute "kind"
      kind.name) range [] := (IsNode.ofLeaf (by decide)).withAttribute _ _
  have hmember := hnode.elim (fun name => hnode.withAttribute "member" name)
    (TreeControl.memberName? ⟨kind, range⟩)
  exact hmember.elim (fun type => hmember.withAttribute "user_type" (TypeName.display type)) _

/-- The outlines of the parts of a symbol before what is written after it. -/
def SymbolKind.outlines : SymbolKind → List Outline
  | nonTerminal _ => []
  | terminal t => t.outlines
  | terminalIn states t => states.outline :: t.outlines

/-- The outlines of a symbol by itself lie along its tokens. -/
theorem shown_symbolKind : Rules.symbolKind.Along (Shown source index) fun k => k.outlines := by
  have hstates : (Rule.skipThen (Rules.mark .lessThan)
      (.thenSkip Rules.identifierList (Rules.mark .greaterThan))).Along (Shown source index)
      fun l => [l.outline] :=
    (hidden _).skipThen (shown_identifierList.thenHide (hidden _))
  refine .choice (.map ?_) (.choice (.map shown_terminal) (.map (hstates.seq shown_terminal)))
  exact hidden _

/-- The type of a symbol is not that of a literal. -/
theorem SymbolKind.name_not_mem (kind : SymbolKind) : kind.name ∉ Outline.literalTypes := by
  cases kind <;> simp [SymbolKind.name, Outline.literalTypes]

/-- The outline of a symbol lies along its tokens. -/
theorem shown_symbol : Rules.symbol.Along (Shown source index) fun s => [s.outline] := by
  refine (shown_symbolKind.seq shown_treeControl.optional).shown ?_
  rintro ⟨kind, control⟩ range
  have hnode : IsNode (leaf kind.name (Symbol.display ⟨kind, control, range⟩) range) range [] :=
    .ofLeaf kind.name_not_mem
  unfold Symbol.outline
  rw [toList_map]
  cases kind with
  | nonTerminal i => exact (hnode.withAttribute _ _).withChildren _
  | terminal t => exact (hnode.withChildren _).withChildren _
  | terminalIn states t => exact (hnode.withChildren _).withChildren _

/-! ### Bodies -/

/-- The outline of an alternation. -/
def alternationOutline (a : Alternation) : Outline :=
  (leaf "alternation" (AlternationOf.label a) a.range).withChildren (outlineFactors a.factors)

/-- Factors are outlined one by one. -/
theorem outlineFactors_eq_flatMap (fs : List Factor) :
    outlineFactors fs = fs.flatMap fun f => [f.outline] := by
  induction fs with
  | nil => rfl
  | cons f fs ih => rw [outlineFactors, ih, List.flatMap_cons, List.singleton_append]

/-- Alternations are outlined one by one. -/
theorem outlineAlternations_eq_flatMap (as : List Alternation) :
    outlineAlternations as = as.flatMap fun a => [alternationOutline a] := by
  induction as with
  | nil => rfl
  | cons a as ih =>
    rw [List.flatMap_cons, ← ih]
    rfl

/-- The outline of a body is a node with an outline for each alternation. -/
theorem isNode_alternations (as : List Alternation) (range : Range) :
    (AlternationsOf.outline ⟨as, range⟩).IsNode range (as.flatMap fun a => [alternationOutline a]) := by
  rw [← outlineAlternations_eq_flatMap]
  exact (IsNode.ofLeaf (by decide)).withChildren _

section Bodies

variable {factor : Rule true Factor}

/-- The outline of an alternation lies along its tokens if those of its factors do. -/
theorem shown_alternation (h : factor.Along (Shown source index) fun f => [f.outline]) :
    (Rules.alternation factor).Along (Shown source index) fun a => [alternationOutline a] := by
  refine h.oneOrMore.shown fun fs range => ?_
  rw [← outlineFactors_eq_flatMap]
  exact (IsNode.ofLeaf (by decide)).withChildren _

/-- An alternation stands behind its pipe, and the empty one has no width. -/
theorem shown_afterPipe (h : factor.Along (Shown source index) fun f => [f.outline]) :
    (Rule.map Rules.afterPipe (.seq (Rules.mark .pipe) (Rules.alternation factor).optional)).Along
      (Shown source index) fun x => [alternationOutline x.value] := by
  rintro _ _ ⟨⟨pipe, o⟩, ⟨us, vs, rfl, hpipe, ⟨a, ha, rfl⟩ | ⟨rfl, rfl⟩⟩, rfl⟩
  · exact Joins.append (hidden (Rules.mark .pipe) hpipe) (shown_alternation h ha)
  · obtain ⟨rfl, -⟩ := hpipe
    intro ws lo hi hws hspaced
    obtain ⟨u, rfl, rfl⟩ := List.map_eq_singleton_iff.mp hws.symm
    obtain ⟨hlo, hlt, -, hhi⟩ := hspaced
    have hstop : lo ≤ u.span.stop := Nat.le_trans hlo (Nat.le_of_lt hlt)
    constructor
    · exact ⟨hstop, Nat.le_refl _, hhi⟩
    · intro o ho
      rw [List.mem_singleton.mp ho]
      have hnode : (alternationOutline (.empty (index.range u.span).endPoint)).IsNode _ _ :=
        (IsNode.ofLeaf (by decide)).withChildren []
      exact hnode.placed (Nat.le_refl _) (by simp)

/-- The outline of a body lies along its tokens if those of its factors do. -/
theorem shown_alternations (h : factor.Along (Shown source index) fun f => [f.outline]) :
    (Rules.alternations factor).Along (Shown source index) fun b => [AlternationsOf.outline b] := by
  have htail := Rule.Along.iterate (f := fun a => [alternationOutline a]) (shown_afterPipe h)
  exact ((shown_alternation h).seq htail).shown fun x range => isNode_alternations (x.1 :: x.2) range

/-- The type of brackets is not that of a literal. -/
theorem BracketKind.name_not_mem (kind : BracketKind) : kind.name ∉ Outline.literalTypes := by
  cases kind <;> decide

/-- The outline of brackets lies along their tokens if that of the body between them does. -/
theorem shown_bracketed (kind : BracketKind) {body : Rule true Alternations}
    (h : body.Along (Shown source index) fun b => [AlternationsOf.outline b]) :
    (Rules.bracketed kind body).Along (Shown source index) fun f => [f.outline] := by
  have hbody :
      (Rule.skipThen (Rules.mark kind.left) (.thenSkip body.optional (Rules.mark kind.right))).Along
      (Shown source index) (·.elim [] fun b => [AlternationsOf.outline b]) :=
    (hidden _).skipThen (h.optional.thenHide (hidden _))
  refine hbody.shown ?_
  rintro (_ | ⟨as, inner⟩) range
  · exact .ofLeaf kind.name_not_mem
  · exact (IsNode.ofLeaf kind.name_not_mem).withChildren _

end Bodies

/-- The outline of a factor lies along its tokens. -/
theorem shown_factor (levels : Nat) :
    (Rules.factor levels).Along (Shown source index) fun f => [f.outline] :=
  .factor (.map shown_symbol) shown_alternations shown_bracketed levels

/-- The outline of a production lies along its tokens. -/
theorem shown_production (levels : Nat) :
    (Rules.production levels).Along (Shown source index) fun p => [p.outline] := by
  have hbody : (Rules.alternations (Rules.factor levels)).Along (Shown source index)
      fun b => [AlternationsOf.outline b] := shown_alternations (shown_factor levels)
  have hbodies : (Rules.productionBody levels).Along (Shown source index)
      fun x => x.2.elim [] fun b => [AlternationsOf.outline b] :=
    .choice (.map ((hidden _).skipThen hbody)) (.choice (.map hbody) (.nothing rfl))
  have hrest := (hidden (Rules.mark .colon)).skipThen (hbodies.thenHide (hidden (Rules.mark .semicolon)))
  refine ((hidden Rules.identifier).seq hrest).shown ?_
  rintro ⟨name, leadingPipe, body⟩ range
  have hnode : IsNode (leaf "production" name.name range) range [] := .ofLeaf (by decide)
  unfold Production.outline
  rw [toList_map]
  cases leadingPipe with
  | true => exact (hnode.withAttribute _ _).withChildren _
  | false => exact hnode.withChildren _

/-! ### The prolog -/

/-- The outline of a switch of scanner states lies along its tokens. -/
theorem shown_stateSwitch : Rules.stateSwitch.Along (Shown source index) fun s => [s.outline] :=
  (hidden _).shown fun _ _ => (IsNode.ofLeaf (by decide)).withAttribute _ _

/-- The outlines of the parts of a directive. -/
def DirectiveKind.outlines : DirectiveKind → List Outline
  | lineComment l => [l.outline]
  | blockComment first last => [first.outline, last.outline]
  | on terminals switch => [terminals.outline, switch.outline]
  | autoNewlineOff | autoWsOff | allowUnmatched => []

/-- The outline of a directive lies along its tokens. -/
theorem shown_directive : Rules.directive.Along (Shown source index) fun d => [d.outline] := by
  refine .shown (f := DirectiveKind.outlines) ?_ ?_
  · refine .choice (.map ((hidden _).skipThen shown_literal)) ?_
    refine .choice (.map ((hidden _).skipThen (shown_literal.seq shown_literal))) ?_
    refine .choice (.map (hidden _)) (.choice (.map (hidden _)) ?_)
    exact .choice (.map ((hidden _).skipThen (shown_identifierList.seq shown_stateSwitch)))
      (.map (hidden _))
  · intro kind range
    have hnode : IsNode ((leaf "scanner_directives" (Directive.display ⟨kind, range⟩) range).withAttribute
        "keyword" (Directive.keyword ⟨kind, range⟩).text) range [] :=
      (IsNode.ofLeaf (by decide)).withAttribute _ _
    cases kind <;> exact hnode.withChildren _

/-- The outlines of the parts of a declaration. -/
def DeclarationKind.outlines : DeclarationKind → List Outline
  | scanner directive => [directive.outline]
  | _ => []

/-- The outline of a declaration lies along its tokens. -/
theorem shown_declaration : Rules.declaration.Along (Shown source index) fun d => [d.outline] := by
  refine .shown (f := DeclarationKind.outlines) ?_ ?_
  · refine .choice (.map (hidden _)) (.choice (.map (hidden _)) (.choice (.map (hidden _)) ?_))
    refine .choice (.map (hidden _)) (.choice (.map (hidden _)) (.choice (.map (hidden _)) ?_))
    exact .map shown_directive
  · intro kind range
    have hnode : IsNode ((leaf "declaration" (Declaration.display ⟨kind, range⟩) range).withAttribute
        "keyword" (Declaration.keyword ⟨kind, range⟩).text) range [] :=
      (IsNode.ofLeaf (by decide)).withAttribute _ _
    cases kind with
    | scanner directive => exact hnode.withChildren [directive.outline]
    | _ => exact hnode

/-- The outline of a scanner state lies along its tokens. -/
theorem shown_scannerState : Rules.scannerState.Along (Shown source index) fun s => [s.outline] := by
  have hdirectives :
      (Rule.thenSkip Rules.directive.many (Rules.mark .rightBrace)).Along (Shown source index)
      (·.flatMap fun d => [d.outline]) := shown_directive.many.thenHide (hidden _)
  have hblock := (hidden Rules.identifier).seq ((hidden (Rules.mark .leftBrace)).skipThen hdirectives)
  refine ((hidden (Rules.mark .scanner)).skipThen hblock).shown ?_
  rintro ⟨name, directives⟩ range
  have hnode :
      IsNode
        ((leaf "scanner_state" name.name range).withAttribute "state_name" name.name) range [] :=
    (IsNode.ofLeaf (by decide)).withAttribute _ _
  unfold ScannerState.outline
  rw [List.map_eq_flatMap]
  exact hnode.withChildren _

/-- The outline of the prolog lies along its tokens. -/
theorem shown_prolog : Rules.prolog.Along (Shown source index) fun p => [p.outline] := by
  have hstart : Rules.startDeclaration.Along (Shown source index) fun s => [s.outline] :=
    (hidden _).shown fun _ _ => .ofLeaf (by decide)
  refine (hstart.seq (shown_declaration.many.seq shown_scannerState.many)).shown ?_
  rintro ⟨start, declarations, states⟩ range
  unfold Prolog.outline
  rw [List.map_eq_flatMap, List.map_eq_flatMap]
  exact (IsNode.ofLeaf (by decide)).withChildren _

/-- The outline of the productions lies along their tokens. -/
theorem shown_definition (levels : Nat) :
    (Rules.definition levels).Along (Shown source index) fun d => [d.outline] := by
  refine ((hidden (Rules.mark .percentPercent)).skipThen (shown_production levels).oneOrMore).shown ?_
  intro productions range
  unfold Definition.outline
  rw [List.map_eq_flatMap]
  exact (IsNode.ofLeaf (by decide)).withChildren _

end GrammarFile
