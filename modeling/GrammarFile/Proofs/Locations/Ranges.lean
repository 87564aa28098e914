import GrammarFile.Proofs.Derivation.Parse
import GrammarFile.Proofs.Locations.Nesting
import GrammarFile.Proofs.Source.Position

/-!
# Every node has the range of its tokens

In a tree that is parsed, every node has the range from the start of its first token to the end of
its last one, with the positions of those two offsets, and every name and literal has that of its
token (`Covers`). Since the tokens stand apart, no node is empty but the alternation for a bare
pipe, and names and literals spell the slices of the source at their ranges (`Piece.Placed`). The
outline is nested accordingly (`ranges_of_parse`).

For the whole file that takes a little more than for the other nodes: its range is the hull of those
of its two halves, which comes to the same because they stand one behind the other
(`LineIndex.hull_range`).
-/

namespace GrammarFile

/-- Whether all nodes of a piece have a width, but for empty alternations, and its names and
literals spell the slices of the source at their ranges. -/
inductive Piece.Placed (source : String) : Piece → Prop where
  | token {t : Token} {range : Option Range} :
      (∀ r ∈ range, r.span.start < r.span.stop ∧ r.span.slice? source = some t.text) →
      Placed source (.token t range)
  | bare {range : Range} : range.span.start = range.span.stop → Placed source (.bare range)
  | node {range : Range} {parts : List Piece} :
      range.span.start < range.span.stop → (∀ p ∈ parts, p.Placed source) →
        Placed source (.node range parts)

variable {source : String} {index : LineIndex}

/-- Pieces of tokens that stand apart are placed. -/
theorem Covers.placed {ps : List Piece} {us : List Lexeme} (h : Covers index ps us) {lo hi : Nat}
    (hspaced : Spaced source lo us hi) : ∀ p ∈ ps, p.Placed source := by
  induction h generalizing lo hi with
  | nil => simp
  | token ht hr _ ih =>
    obtain ⟨-, hlt, hslice, hrest⟩ := hspaced
    refine List.forall_mem_cons.mpr ⟨.token ?_, ih hrest⟩
    intro r hmem
    rw [hr r hmem, ← ht]
    exact ⟨hlt, hslice⟩
  | bare _ hr _ ih =>
    obtain ⟨-, -, -, hrest⟩ := hspaced
    refine List.forall_mem_cons.mpr ⟨.bare ?_, ih hrest⟩
    rw [hr]
    rfl
  | node _ hfirst hlast hr _ ihparts ih =>
    obtain ⟨mid, hus, hvs⟩ := hspaced.split
    obtain ⟨-, hlt, -, -⟩ := hus.hull hfirst hlast
    refine List.forall_mem_cons.mpr ⟨.node ?_ (ihparts hus), ih hvs⟩
    rw [hr]
    exact hlt

/-! ### Whole files -/

/-- The range of the prolog is that of the tokens it is read from. -/
theorem range_of_reads_prolog {ts : List LocatedToken} {p : Prolog} (h : Rules.prolog.Reads ts p) :
    p.range = spanOf ts := by
  obtain ⟨_, -, rfl⟩ := h
  rfl

/-- The range of the productions is that of the tokens they are read from. -/
theorem range_of_reads_definition {levels : Nat} {ts : List LocatedToken} {d : Definition}
    (h : (Rules.definition levels).Reads ts d) : d.range = spanOf ts := by
  obtain ⟨_, -, rfl⟩ := h
  rfl

/-- **A file that is read from tokens that stand apart has its places right**, and so has its outline. -/
theorem covers_of_reads_file {levels : Nat} {us : List Lexeme} {g : Grammar}
    (h : (Rules.file levels).Reads (locate index us) g) {lo hi : Nat} (hspaced : Spaced source lo us hi) :
    Covers index [g.piece] us ∧ g.outline.Placed source := by
  obtain ⟨⟨p, d⟩, ⟨ts, ts', hsplit, hp, hd⟩, rfl⟩ := h
  obtain ⟨vs, ws, rfl, rfl, rfl⟩ := List.map_eq_append_iff.mp hsplit
  obtain ⟨first, mid, hfirst, hmid, hspan⟩ := exists_spanOf_of_reads hp
  obtain ⟨mid', last, hmid', hlast, hspan'⟩ := exists_spanOf_of_reads hd
  -- the definition stands behind the prolog
  obtain ⟨between, hvs, hws⟩ := hspaced.split
  obtain ⟨-, hlt, hle, -⟩ := hvs.hull hfirst hmid
  obtain ⟨hle', hlt', -, -⟩ := hws.hull hmid' hlast
  have hrange : p.range.hull d.range = index.range ⟨first.span.start, last.span.stop⟩ := by
    have hprange : p.range = index.range ⟨first.span.start, mid.span.stop⟩ :=
      (range_of_reads_prolog hp).trans hspan
    have hdrange : d.range = index.range ⟨mid'.span.start, last.span.stop⟩ :=
      (range_of_reads_definition hd).trans hspan'
    have hstart : first.span.start ≤ mid'.span.start := by omega
    have hstop : mid.span.stop ≤ last.span.stop := by omega
    rw [hprange, hdrange, LineIndex.hull_range, Nat.min_eq_left hstart, Nat.max_eq_right hstop]
  have hfirst' : (vs ++ ws).head? = some first := by rw [List.head?_append, hfirst]; rfl
  have hlast' : (vs ++ ws).getLast? = some last := by rw [List.getLast?_append, hlast]; rfl
  constructor
  · have hparts := (laid_prolog hp vs rfl).append (laid_definition levels hd ws rfl)
    have hnode := Covers.node hparts hfirst' hlast' hrange .nil
    rwa [List.append_nil] at hnode
  · obtain ⟨-, -, -, hinner⟩ := hspaced.hull hfirst' hlast'
    obtain ⟨hwithin, hplaced⟩ :=
      Joins.append (shown_prolog hp) (shown_definition levels hd) _ _ _ (List.map_append ..).symm hinner
    have hnode : (Grammar.outline ⟨p, d, p.range.hull d.range⟩).IsNode (p.range.hull d.range)
        [p.outline, d.outline] :=
      ((Outline.IsNode.ofLeaf (by decide)).withAttribute _ _).withChildren _
    refine hnode.placed ?_ hplaced
    rw [hrange]
    exact hwithin

/-! ### Parsed grammars -/

/-- The pieces of a parsed file cover the tokens of its source. -/
theorem covers_of_parse {options : ParserOptions} {g : Grammar} (h : parse source options = .ok g) :
    ∃ lexemes, lex source = .ok lexemes ∧ Covers (.ofSource source) [g.piece] lexemes := by
  obtain ⟨lexemes, hlex, hreads⟩ := parse_eq_ok_iff.mp h
  exact ⟨lexemes, hlex, (covers_of_reads_file hreads (spaced_of_lex hlex)).1⟩

/-- **Every node of a parsed tree has the range of its own tokens**, with the positions of its two
ends. It has a width, unless it is the empty alternation at the end of a bare pipe, and the slices
at names and literals are their texts. In the outline the children of every node stand inside of it,
one behind the other. -/
theorem ranges_of_parse {options : ParserOptions} {g : Grammar} (h : parse source options = .ok g) :
    ∃ lexemes, lex source = .ok lexemes ∧ Covers (.ofSource source) [g.piece] lexemes ∧
      g.piece.Placed source ∧ g.outline.Placed source := by
  obtain ⟨lexemes, hlex, hreads⟩ := parse_eq_ok_iff.mp h
  have hspaced := spaced_of_lex hlex
  obtain ⟨hcovers, houtline⟩ := covers_of_reads_file hreads hspaced
  exact ⟨lexemes, hlex, hcovers, hcovers.placed hspaced _ List.mem_cons_self, houtline⟩

/-- The alternation for a bare pipe stands at the end of the pipe, without a width. -/
theorem ranges_of_parse_bare_pipe :
    ∃ g lexemes, parse "%start A%%A:B|;" .default = .ok g ∧ lex "%start A%%A:B|;" = .ok lexemes ∧
      g.productions.flatMap (fun p => p.alternations.map (·.range.span)) = [⟨12, 13⟩, ⟨14, 14⟩] ∧
      Covers (.ofSource "%start A%%A:B|;") [g.piece] lexemes ∧ g.piece.Placed "%start A%%A:B|;" ∧
      g.outline.Placed "%start A%%A:B|;" := by
  have hok : (parse "%start A%%A:B|;" .default).isOk := by decide +kernel
  have hspans : (parse "%start A%%A:B|;" .default).map (fun g =>
      g.productions.flatMap fun p => p.alternations.map (·.range.span)) = .ok [⟨12, 13⟩, ⟨14, 14⟩] := by
    decide +kernel
  obtain ⟨g, hg⟩ := exists_parse_of_isOk hok
  rw [hg] at hspans
  obtain ⟨lexemes, hlex, hplaces⟩ := ranges_of_parse hg
  exact ⟨g, lexemes, hg, hlex, Except.ok.inj hspans, hplaces⟩

end GrammarFile
