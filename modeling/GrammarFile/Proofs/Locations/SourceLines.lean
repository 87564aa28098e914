import GrammarFile.Proofs.Formats.Labels
import GrammarFile.Proofs.Locations.Ranges
import GrammarFile.Proofs.Source.Position

/-!
# The lines that nodes start on

The line of an offset is the number of line feeds in front of it
(`LineIndex.line_position_ofSource`). Each node of a parsed file starts where a token of the source
starts, or ends, so the line of a node is the number of line feeds in front of it
(`startsOnLine_of_parse`).
-/

namespace GrammarFile

open Outline (leaf)

/-! ### Ranges in a source -/

/-- Whether a range starts on a line of the source: a part of the source stands in front of it, and
its line is the number of line feeds in that part. -/
def Range.StartsOnLine (source : String) (r : Range) : Prop :=
  ∃ before behind, source.toList = before ++ behind ∧ r.span.start = byteCount before ∧
    r.start.line = before.count '\n'

/-- Whether something holds of all ranges in a piece. -/
inductive Piece.Each (q : Range → Prop) : Piece → Prop where
  | token {t : Token} {range : Option Range} (h : ∀ r ∈ range, q r) : Each q (.token t range)
  | bare {range : Range} (h : q range) : Each q (.bare range)
  | node {range : Range} {parts : List Piece} (h : q range) (hparts : ∀ p ∈ parts, p.Each q) :
    Each q (.node range parts)

namespace Piece

variable {q : Range → Prop}

/-- A property holds of each range of a token if it holds of the one that it may have. -/
@[simp]
theorem each_token {t : Token} {range : Option Range} : (token t range).Each q ↔ ∀ r ∈ range, q r :=
  ⟨fun h => by cases h; assumption, .token⟩

/-- A piece without tokens has a single range. -/
@[simp]
theorem each_bare {range : Range} : (bare range).Each q ↔ q range :=
  ⟨fun h => by cases h; assumption, .bare⟩

/-- A property holds of each range of a node if it holds of its own and of those of its parts. -/
@[simp]
theorem each_node {range : Range} {parts : List Piece} :
    (node range parts).Each q ↔ q range ∧ ∀ p ∈ parts, p.Each q :=
  ⟨fun h => by cases h; constructor <;> assumption, fun h => .node h.1 h.2⟩

end Piece

/-! ### Outlines of pieces

Each node of an outline has the range of a node of the tree, or of a literal. -/

section Outlines

variable {q : Range → Prop}

/-- The outline of a literal has ranges of its piece. -/
theorem Literal.each_outline (l : Literal) (h : l.piece.Each q) : l.outline.Each fun _ r => q r :=
  .ofLeaf (by simpa [piece] using h)

/-- The outline of a list of identifiers has ranges of its piece. -/
theorem IdentifierList.each_outline (l : IdentifierList) (h : l.piece.Each q) :
    l.outline.Each fun _ r => q r :=
  .ofLeaf (Piece.each_node.mp h).1

/-- The outline of a look-ahead has ranges of its piece. -/
theorem LookAhead.each_outline (l : LookAhead) (h : l.piece.Each q) : l.outline.Each fun _ r => q r := by
  obtain ⟨hrange, hparts⟩ := Piece.each_node.mp h
  exact (Outline.Each.ofLeaf hrange).withChildren
    (by simpa using l.literal.each_outline (hparts _ (by simp)))

/-- The outlines of a terminal have ranges of its piece. -/
theorem Terminal.each_outlines (t : Terminal) (h : t.piece.Each q) :
    ∀ o ∈ t.outlines, o.Each fun _ r => q r := by
  obtain ⟨literal, lookAhead, range⟩ := t
  obtain ⟨-, hparts⟩ := Piece.each_node.mp h
  obtain ⟨hliteral, hlookAhead⟩ := List.forall_mem_cons.mp hparts
  refine List.forall_mem_cons.mpr ⟨literal.each_outline hliteral, ?_⟩
  cases lookAhead with
  | none => simp
  | some l => simpa using l.each_outline (hlookAhead _ (by simp))

/-- The outline of what is written after a symbol has ranges of its piece. -/
theorem TreeControl.each_outline (c : TreeControl) (h : c.piece.Each q) :
    c.outline.Each fun _ r => q r := by
  have hnode : Outline.Each (fun _ r => q r)
      ((leaf "ast_control" c.display c.range).withAttribute "kind" c.kind.name) :=
    (Outline.Each.ofLeaf (Piece.each_node.mp h).1).withAttribute _ _
  unfold outline
  cases c.memberName? <;> cases c.typeName? <;> simp [hnode, Outline.Each.withAttribute]

/-- The outline of a symbol has ranges of its piece. -/
theorem Symbol.each_outline (s : Symbol) (h : s.piece.Each q) : s.outline.Each fun _ r => q r := by
  obtain ⟨hrange, hparts⟩ := Piece.each_node.mp h
  have hnode : (leaf s.kind.name s.display s.range).Each fun _ r => q r := .ofLeaf hrange
  obtain ⟨hkind, hcontrol⟩ := List.forall_mem_append.mp hparts
  have hcontrols : ∀ o ∈ (s.control.map (·.outline)).toList, o.Each fun _ r => q r := by
    cases hc : s.control with
    | none => simp
    | some c =>
      rw [hc] at hcontrol
      simpa using c.each_outline (hcontrol _ (by simp))
  obtain ⟨kind, control, range⟩ := s
  cases kind with
  | nonTerminal i => exact (hnode.withAttribute _ _).withChildren hcontrols
  | terminal t =>
    have ht := t.each_outlines (hkind _ (by simp [SymbolKind.pieces]))
    exact (hnode.withChildren ht).withChildren hcontrols
  | terminalIn states t =>
    have hstates := states.each_outline (hkind _ (by simp [SymbolKind.pieces]))
    have ht := t.each_outlines (hkind _ (by simp [SymbolKind.pieces]))
    exact (hnode.withChildren (List.forall_mem_cons.mpr ⟨hstates, ht⟩)).withChildren hcontrols

/-- What holds of the pieces behind a pipe holds of the range and the pieces of each alternation. -/
theorem each_of_piecesAfterPipe (as : List (AlternationOf Factor))
    (h : ∀ p ∈ piecesAfterPipe as, p.Each q) :
    ∀ a ∈ as, q a.range ∧ ∀ p ∈ piecesOfFactors a.factors, p.Each q := by
  induction as with
  | nil => simp
  | cons a as ih =>
    obtain ⟨factors, range⟩ := a
    cases factors with
    | nil =>
      obtain ⟨hbare, has⟩ := List.forall_mem_cons.mp h
      exact List.forall_mem_cons.mpr ⟨⟨Piece.each_bare.mp hbare, by simp [piecesOfFactors]⟩, ih has⟩
    | cons factor factors =>
      obtain ⟨-, h⟩ := List.forall_mem_cons.mp h
      obtain ⟨ha, has⟩ := List.forall_mem_cons.mp h
      exact List.forall_mem_cons.mpr ⟨Piece.each_node.mp ha, ih has⟩

/-- What holds of the pieces of a body holds of the range and the pieces of each alternation. -/
theorem each_of_piecesOfBody (as : List (AlternationOf Factor)) (h : ∀ p ∈ piecesOfBody as, p.Each q) :
    ∀ a ∈ as, q a.range ∧ ∀ p ∈ piecesOfFactors a.factors, p.Each q := by
  cases as with
  | nil => simp
  | cons a as =>
    obtain ⟨ha, has⟩ := List.forall_mem_cons.mp h
    exact List.forall_mem_cons.mpr ⟨Piece.each_node.mp ha, each_of_piecesAfterPipe as has⟩

mutual

/-- The outline of a factor has ranges of its piece. -/
theorem Factor.each_outline : (f : Factor) → f.piece.Each q → f.outline.Each fun _ r => q r
  | .symbol s, h => s.each_outline h
  | .bracketed _ none _, h => .ofLeaf (Piece.each_node.mp h).1
  | .bracketed kind (some ⟨as, inner⟩) r, h => by
    obtain ⟨hrange, hparts⟩ := Piece.each_node.mp h
    obtain ⟨hinner, hbody⟩ := Piece.each_node.mp (hparts (.node inner (piecesOfBody as)) (by simp))
    have halternations : ((leaf "alternations" (toString as.length ++ " alternatives") inner).withChildren
        (outlineAlternations as)).Each fun _ r => q r :=
      (Outline.Each.ofLeaf hinner).withChildren
        (each_outlineAlternations as (each_of_piecesOfBody as hbody))
    exact (Outline.Each.ofLeaf hrange).withChildren (by simpa using halternations)

/-- The outlines of alternations have ranges of their pieces. -/
theorem each_outlineAlternations : (as : List (AlternationOf Factor)) →
    (∀ a ∈ as, q a.range ∧ ∀ p ∈ piecesOfFactors a.factors, p.Each q) →
    ∀ o ∈ outlineAlternations as, o.Each fun _ r => q r
  | [], _ => by simp [outlineAlternations]
  | ⟨fs, r⟩ :: as, h => by
    obtain ⟨⟨hrange, hfs⟩, has⟩ := List.forall_mem_cons.mp h
    refine List.forall_mem_cons.mpr ⟨?_, each_outlineAlternations as has⟩
    exact (Outline.Each.ofLeaf hrange).withChildren (each_outlineFactors fs hfs)

/-- The outlines of factors have ranges of their pieces. -/
theorem each_outlineFactors : (fs : List Factor) → (∀ p ∈ piecesOfFactors fs, p.Each q) →
    ∀ o ∈ outlineFactors fs, o.Each fun _ r => q r
  | [], _ => by simp [outlineFactors]
  | f :: fs, h => by
    obtain ⟨hf, hfs⟩ := List.forall_mem_cons.mp h
    exact List.forall_mem_cons.mpr ⟨f.each_outline hf, each_outlineFactors fs hfs⟩

end

/-- The outline of a production has ranges of its piece. -/
theorem Production.each_outline (p : Production) (h : p.piece.Each q) :
    p.outline.Each fun _ r => q r := by
  obtain ⟨hrange, hparts⟩ := Piece.each_node.mp h
  have hnode : (leaf "production" p.name.name p.range).Each fun _ r => q r := .ofLeaf hrange
  have hchildren : ∀ o ∈ (p.body.map AlternationsOf.outline).toList, o.Each fun _ r => q r := by
    cases hb : p.body with
    | none => simp
    | some b =>
      have hbody : (AlternationsOf.piece b).Each q := by
        apply hparts
        simp [piecesAfterColon, hb]
      obtain ⟨hinner, has⟩ := Piece.each_node.mp hbody
      have halternations : (AlternationsOf.outline b).Each fun _ r => q r :=
        (Outline.Each.ofLeaf hinner).withChildren
          (each_outlineAlternations b.alternations (each_of_piecesOfBody b.alternations has))
      simpa using halternations
  unfold outline
  cases p.leadingPipe with
  | true => exact (hnode.withAttribute _ _).withChildren hchildren
  | false => exact hnode.withChildren hchildren

/-- The outline of a directive has ranges of its piece. -/
theorem Directive.each_outline (d : Directive) (h : d.piece.Each q) : d.outline.Each fun _ r => q r := by
  obtain ⟨kind, range⟩ := d
  obtain ⟨hrange, hparts⟩ := Piece.each_node.mp h
  have hnode : Outline.Each (fun _ r => q r)
      ((leaf "scanner_directives" (Directive.display ⟨kind, range⟩) range).withAttribute "keyword"
        (Directive.keyword ⟨kind, range⟩).text) := (Outline.Each.ofLeaf hrange).withAttribute _ _
  cases kind with
  | lineComment l =>
    have hl := l.each_outline (hparts _ (by simp [DirectiveKind.pieces]))
    exact hnode.withChildren (by simpa [literals] using hl)
  | blockComment first last =>
    have hfirst := first.each_outline (hparts _ (by simp [DirectiveKind.pieces]))
    have hlast := last.each_outline (hparts _ (by simp [DirectiveKind.pieces]))
    exact hnode.withChildren (by simpa [literals] using ⟨hfirst, hlast⟩)
  | on terminals switch =>
    have hterminals := terminals.each_outline (hparts _ (by simp [DirectiveKind.pieces]))
    have hpiece : switch.piece.Each q := hparts _ (by simp [DirectiveKind.pieces])
    have hswitch : switch.outline.Each fun _ r => q r :=
      (Outline.Each.ofLeaf (Piece.each_node.mp hpiece).1).withAttribute _ _
    exact hnode.withChildren (by simp [hterminals, hswitch])
  | autoNewlineOff | autoWsOff | allowUnmatched => exact hnode.withChildren (by simp [literals])

/-- The outline of a declaration has ranges of its piece. -/
theorem Declaration.each_outline (d : Declaration) (h : d.piece.Each q) :
    d.outline.Each fun _ r => q r := by
  obtain ⟨kind, range⟩ := d
  obtain ⟨hrange, hparts⟩ := Piece.each_node.mp h
  have hnode : Outline.Each (fun _ r => q r)
      ((leaf "declaration" (Declaration.display ⟨kind, range⟩) range).withAttribute "keyword"
        (Declaration.keyword ⟨kind, range⟩).text) := (Outline.Each.ofLeaf hrange).withAttribute _ _
  cases kind with
  | scanner directive =>
    have hdirective := directive.each_outline (hparts _ (by simp [DeclarationKind.pieces]))
    exact hnode.withChildren (by simpa using hdirective)
  | _ => exact hnode

/-- The outline of a scanner state has ranges of its piece. -/
theorem ScannerState.each_outline (s : ScannerState) (h : s.piece.Each q) :
    s.outline.Each fun _ r => q r := by
  obtain ⟨hrange, hparts⟩ := Piece.each_node.mp h
  simp only [List.forall_mem_cons, List.forall_mem_append] at hparts
  obtain ⟨-, -, -, hdirectives, -⟩ := hparts
  refine ((Outline.Each.ofLeaf hrange).withAttribute _ _).withChildren (List.forall_mem_map.mpr ?_)
  exact fun d hd => d.each_outline (forall_mem_flatMap hdirectives hd _ List.mem_cons_self)

/-- The outline of the prolog has ranges of its piece. -/
theorem Prolog.each_outline (p : Prolog) (h : p.piece.Each q) : p.outline.Each fun _ r => q r := by
  obtain ⟨hrange, hparts⟩ := Piece.each_node.mp h
  simp only [List.forall_mem_cons, List.forall_mem_append] at hparts
  obtain ⟨hstart, hdeclarations, hstates⟩ := hparts
  have hnode : p.start.outline.Each fun _ r => q r := .ofLeaf (Piece.each_node.mp hstart).1
  refine (Outline.Each.ofLeaf hrange).withChildren (List.forall_mem_cons.mpr ⟨hnode, ?_⟩)
  simp only [List.forall_mem_append, List.forall_mem_map]
  exact ⟨fun d hd => d.each_outline (forall_mem_flatMap hdeclarations hd _ List.mem_cons_self),
    fun s hs => s.each_outline (forall_mem_flatMap hstates hs _ List.mem_cons_self)⟩

/-- The outline of the productions has ranges of their pieces. -/
theorem Definition.each_outline (d : Definition) (h : d.piece.Each q) :
    d.outline.Each fun _ r => q r := by
  obtain ⟨hrange, hparts⟩ := Piece.each_node.mp h
  obtain ⟨-, hproductions⟩ := List.forall_mem_cons.mp hparts
  refine (Outline.Each.ofLeaf hrange).withChildren (List.forall_mem_map.mpr ?_)
  exact fun p hp => p.each_outline (forall_mem_flatMap hproductions hp _ List.mem_cons_self)

/-- What holds of the ranges of a file holds of those of its outline. -/
theorem Grammar.each_outline (g : Grammar) (h : g.piece.Each q) : g.outline.Each fun _ r => q r := by
  obtain ⟨hrange, hparts⟩ := Piece.each_node.mp h
  have hprolog := g.prolog.each_outline (hparts _ (by simp))
  have hdefinition := g.definition.each_outline (hparts _ (by simp))
  exact ((Outline.Each.ofLeaf hrange).withAttribute _ _).withChildren (by simp [hprolog, hdefinition])

end Outlines

/-! ### Parsed files -/

variable {source : String}

/-- A range that starts where some part of the source ends is on the line where it ends. -/
theorem startsOnLine_range {span : Span} {before behind : List Char}
    (h : source.toList = before ++ behind)
    (hstart : span.start = byteCount before) :
    ((LineIndex.ofSource source).range span).StartsOnLine source := by
  refine ⟨before, behind, h, hstart, ?_⟩
  rw [LineIndex.range, hstart]
  exact LineIndex.line_position_ofSource h

/-- A token that is read lies between two parts of the source. -/
theorem exists_append_of_lex {lexemes : List Lexeme} (h : lex source = .ok lexemes) :
    ∀ u ∈ lexemes, ∃ before after, source.toList = before ++ (u.token.text.toList ++ after) ∧
      u.span.start = byteCount before ∧ u.span.stop = byteCount (before ++ u.token.text.toList) := by
  obtain ⟨ts, hts, rfl⟩ := lex_eq_ok_iff.mp h
  intro u hu
  obtain ⟨before, after, hsource, hspan⟩ := exists_append_of_splits hts u (List.mem_filter.mp hu).1
  refine ⟨before, after, hsource, ?_, ?_⟩
  · rw [hspan]
  · rw [hspan, byteCount_append, byteCount_toList]

/-- Each range that is made of tokens of the source starts on a line of it. -/
theorem Covers.each_startsOnLine {ps : List Piece} {us : List Lexeme}
    (h : Covers (.ofSource source) ps us)
    (hus : ∀ u ∈ us, ∃ before after, source.toList = before ++ (u.token.text.toList ++ after) ∧
      u.span.start = byteCount before ∧ u.span.stop = byteCount (before ++ u.token.text.toList)) :
    ∀ p ∈ ps, p.Each (Range.StartsOnLine source) := by
  induction h with
  | nil => simp
  | token ht hr _ ih =>
    obtain ⟨⟨before, after, hsource, hstart, -⟩, hus⟩ := List.forall_mem_cons.mp hus
    refine List.forall_mem_cons.mpr ⟨.token fun r hmem => ?_, ih hus⟩
    rw [hr r hmem]
    exact startsOnLine_range hsource hstart
  | bare _ hr _ ih =>
    obtain ⟨⟨before, after, hsource, -, hstop⟩, hus⟩ := List.forall_mem_cons.mp hus
    refine List.forall_mem_cons.mpr ⟨.bare ?_, ih hus⟩
    rw [hr]
    rw [← List.append_assoc] at hsource
    exact startsOnLine_range hsource hstop
  | node _ hfirst _ hr _ ihparts ih =>
    obtain ⟨hparts, hrest⟩ := List.forall_mem_append.mp hus
    obtain ⟨before, after, hsource, hstart, -⟩ := hparts _ (List.mem_of_mem_head? hfirst)
    refine List.forall_mem_cons.mpr ⟨.node ?_ (ihparts hparts), ih hrest⟩
    rw [hr]
    exact startsOnLine_range hsource hstart

/-- **Each node in the outline of a parsed file starts on a line of the source**: its line is the
number of line feeds in front of it. -/
theorem startsOnLine_of_parse {options : ParserOptions} {g : Grammar} (h : parse source options = .ok g) :
    g.outline.Each fun _ r => r.StartsOnLine source := by
  obtain ⟨lexemes, hlex, hcovers⟩ := covers_of_parse h
  exact g.each_outline (hcovers.each_startsOnLine (exists_append_of_lex hlex) _ List.mem_cons_self)

end GrammarFile
