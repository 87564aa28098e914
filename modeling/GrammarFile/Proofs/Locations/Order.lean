import GrammarFile.Proofs.Lexing.Partition
import GrammarFile.Proofs.Locations.Pieces
import GrammarFile.Proofs.Parsing.File
import GrammarFile.Tree.Symbols
import Mathlib.Data.List.Flatten

/-!
# Names and literals stand in the order of the file

Of the tokens that it is written with, a tree keeps the names and the literals, each with its range.
`Piece.kept` takes them out of the pieces of the tree. They are tokens of the source, in the order of the
source (`Covers.kept_sublist`), so their places ascend in every grammar that is parsed
(`pairwise_kept_of_parse`), and the order of the file is that of the byte offsets.

A body keeps what its symbols keep, at any depth of brackets (`Factor.kept_piece`), and a file keeps what
its parts do (`Grammar.kept_piece`). So all that is picked out of the parts of a file one behind the other
stands in order too: the names of the productions and the non-terminals in their bodies
(`inOrder_of_parse`), the names of the scanner states and their uses, and the literals.
-/

namespace GrammarFile

/-- The token that a name is. -/
def Identifier.located (i : Identifier) : LocatedToken :=
  ⟨i.token, i.range⟩

/-- The token that a literal is. -/
def Literal.located (l : Literal) : LocatedToken :=
  ⟨l.token, l.range⟩

/-- The name of a production and the non-terminals in its body. -/
def Production.identifiers (p : Production) : List Identifier :=
  p.name :: p.references

/-- Whether the names of the productions and the non-terminals in their bodies stand one behind the
other. -/
def Grammar.InOrder (g : Grammar) : Prop :=
  (g.productions.flatMap (·.identifiers)).Pairwise (·.range.span.start < ·.range.span.start)

/-! ### The tokens that pieces keep -/

mutual

/-- The tokens of a piece of which the tree keeps the range. -/
def Piece.kept : Piece → List LocatedToken
  | .token t range => range.toList.map fun r => ⟨t, r⟩
  | .bare _ => []
  | .node _ parts => keptOf parts

/-- The tokens of some pieces of which the tree keeps the range. -/
def keptOf : List Piece → List LocatedToken
  | [] => []
  | p :: ps => p.kept ++ keptOf ps

end

/-- Some pieces keep what each of them keeps. -/
theorem keptOf_eq_flatMap (ps : List Piece) : keptOf ps = ps.flatMap (·.kept) := by
  induction ps with
  | nil => rfl
  | cons p ps ih => rw [keptOf, ih, List.flatMap_cons]

/-- A node keeps what its parts keep. -/
@[simp]
theorem Piece.kept_node (range : Range) (parts : List Piece) :
    (Piece.node range parts).kept = parts.flatMap (·.kept) := by
  rw [kept, keptOf_eq_flatMap]

/-- A piece without tokens keeps none. -/
@[simp]
theorem Piece.kept_bare (range : Range) : (Piece.bare range).kept = [] := by
  rw [kept]

/-- The range of a mark is not kept. -/
@[simp]
theorem Piece.kept_mark (m : Mark) : (Piece.mark m).kept = [] := by
  rw [mark, kept]
  rfl

/-- An identifier keeps its token. -/
@[simp]
theorem Identifier.kept_piece (i : Identifier) : i.piece.kept = [i.located] := by
  rw [piece, Piece.kept]
  rfl

/-- A literal keeps its token. -/
@[simp]
theorem Literal.kept_piece (l : Literal) : l.piece.kept = [l.located] := by
  rw [piece, Piece.kept]
  rfl

/-- **Pieces keep some of their tokens, in their order.** -/
theorem Covers.kept_sublist {index : LineIndex} {ps : List Piece} {us : List Lexeme}
    (h : Covers index ps us) : (ps.flatMap (·.kept)).Sublist (locate index us) := by
  induction h with
  | nil => exact .slnil
  | @token t range u ps us ht hr _ ih =>
    rw [List.flatMap_cons, Piece.kept]
    cases range with
    | none => exact ih.cons _
    | some r =>
      rw [hr r rfl, ← ht]
      exact ih.cons_cons _
  | bare _ _ _ ih =>
    rw [List.flatMap_cons, Piece.kept_bare]
    exact ih.cons _
  | node _ _ _ _ _ ihparts ih =>
    rw [List.flatMap_cons, Piece.kept_node, locate, List.map_append]
    exact ihparts.append ih

/-! ### Symbols -/

/-- Of names with separators the names are kept. -/
theorem kept_piecesBetween (separator : Mark) (is : List Identifier) :
    (piecesBetween separator is).flatMap (·.kept) = is.map (·.located) := by
  cases is with
  | nil => rfl
  | cons i is => simp [piecesBetween, List.flatMap_assoc, List.map_eq_flatMap]

/-- A list of identifiers keeps its identifiers. -/
theorem IdentifierList.kept_piece (l : IdentifierList) :
    l.piece.kept = l.identifiers.map (·.located) := by
  rw [piece, Piece.kept_node, kept_piecesBetween]

/-- A terminal keeps its literals. -/
theorem Terminal.kept_piece (t : Terminal) : t.piece.kept = t.literals.map (·.located) := by
  obtain ⟨literal, lookAhead, range⟩ := t
  cases lookAhead <;> simp [piece, literals, LookAhead.piece]

namespace Symbol

variable (s : Symbol)

/-- The name of a non-terminal is kept. -/
theorem nonTerminal?_sublist_kept : (s.nonTerminal?.toList.map (·.located)).Sublist s.piece.kept := by
  obtain ⟨kind, control, range⟩ := s
  cases kind <;> simp [nonTerminal?, piece, SymbolKind.pieces]

/-- The scanner states of a symbol are kept, in order. -/
theorem states_sublist_kept : (s.states.map (·.located)).Sublist s.piece.kept := by
  obtain ⟨kind, control, range⟩ := s
  cases kind <;> simp [states, piece, SymbolKind.pieces, IdentifierList.kept_piece]

/-- The literals of a symbol are kept, in order. -/
theorem literals_sublist_kept : (s.literals.map (·.located)).Sublist s.piece.kept := by
  obtain ⟨kind, control, range⟩ := s
  cases kind <;> simp [literals, terminal?, piece, SymbolKind.pieces, Terminal.kept_piece]

end Symbol

/-! ### Bodies -/

mutual

/-- **A factor keeps what its symbols keep.** Its brackets keep nothing of their own. -/
theorem Factor.kept_piece : (f : Factor) → f.piece.kept = f.symbols.flatMap (·.piece.kept)
  | .symbol s => by rw [Factor.piece, Factor.symbols, List.flatMap_singleton]
  | .bracketed kind none r => by simp [Factor.piece, Factor.symbols]
  | .bracketed kind (some ⟨as, inner⟩) r => by
    simp [Factor.piece, Factor.symbols, kept_piecesOfBody as]

/-- A body keeps what its symbols keep. -/
theorem kept_piecesOfBody : (as : List (AlternationOf Factor)) →
    (piecesOfBody as).flatMap (·.kept) = (bodySymbols as).flatMap (·.piece.kept)
  | [] => rfl
  | ⟨fs, r⟩ :: as => by
    simp [piecesOfBody, bodySymbols, kept_piecesOfFactors fs, kept_piecesAfterPipe as]

/-- Alternations behind a pipe keep what their symbols keep. -/
theorem kept_piecesAfterPipe : (as : List (AlternationOf Factor)) →
    (piecesAfterPipe as).flatMap (·.kept) = (bodySymbols as).flatMap (·.piece.kept)
  | [] => rfl
  | ⟨[], r⟩ :: as => by
    simp [piecesAfterPipe, bodySymbols, factorSymbols, kept_piecesAfterPipe as]
  | ⟨f :: fs, r⟩ :: as => by
    simp [piecesAfterPipe, bodySymbols, factorSymbols, f.kept_piece, kept_piecesOfFactors fs,
      kept_piecesAfterPipe as]

/-- Factors keep what their symbols keep. -/
theorem kept_piecesOfFactors : (fs : List Factor) →
    (piecesOfFactors fs).flatMap (·.kept) = (factorSymbols fs).flatMap (·.piece.kept)
  | [] => rfl
  | f :: fs => by
    simp [piecesOfFactors, factorSymbols, f.kept_piece, kept_piecesOfFactors fs]

end

namespace Production

variable (p : Production)

/-- A production keeps its name and what its symbols keep. -/
theorem kept_piece : p.piece.kept = p.name.located :: p.symbols.flatMap (·.piece.kept) := by
  obtain ⟨name, leadingPipe, body, range⟩ := p
  cases leadingPipe <;> cases body <;>
    simp [piece, symbols, alternations, piecesAfterColon, AlternationsOf.piece, kept_piecesOfBody,
      bodySymbols]

/-- The name of a production and the non-terminals in its body are kept, in order. -/
theorem identifiers_sublist_kept : (p.identifiers.map (·.located)).Sublist p.piece.kept := by
  rw [kept_piece, identifiers, references, List.map_cons, List.filterMap_eq_flatMap_toList,
    List.map_flatMap]
  exact (List.Sublist.flatMap_right _ fun s _ => s.nonTerminal?_sublist_kept).cons_cons _

end Production

/-! ### The prolog -/

namespace Directive

variable (d : Directive)

/-- The target of a directive is kept. -/
theorem target?_sublist_kept : (d.target?.toList.map (·.located)).Sublist d.piece.kept := by
  obtain ⟨kind, range⟩ := d
  cases kind with
  | on terminals switch =>
    obtain ⟨kind, range⟩ := switch
    cases kind <;>
      simp [target?, StateSwitch.target?, piece, DirectiveKind.pieces, StateSwitch.piece,
        StateSwitchKind.pieces]
  | _ => exact List.nil_sublist _

/-- The literals of a directive are kept, in order. -/
theorem literals_sublist_kept : (d.literals.map (·.located)).Sublist d.piece.kept := by
  obtain ⟨kind, range⟩ := d
  cases kind <;> simp [literals, piece, DirectiveKind.pieces]

end Directive

/-- A declaration keeps what its directive keeps. -/
theorem Declaration.directive?_sublist_kept (d : Declaration) :
    (d.directive?.toList.flatMap (·.piece.kept)).Sublist d.piece.kept := by
  obtain ⟨kind, range⟩ := d
  cases kind <;> simp [directive?, piece, DeclarationKind.pieces]

/-- A scanner state keeps its name and what its directives keep. -/
theorem ScannerState.kept_piece (s : ScannerState) :
    s.piece.kept = s.name.located :: s.directives.flatMap (·.piece.kept) := by
  simp [piece, List.flatMap_assoc]

/-! ### Whole files -/

namespace Grammar

variable (g : Grammar)

/-- A file keeps its start symbol and what declarations, scanner states and productions keep. -/
theorem kept_piece :
    g.piece.kept = g.prolog.start.identifier.located :: (g.prolog.declarations.flatMap (·.piece.kept) ++
      g.prolog.states.flatMap (·.piece.kept) ++ g.productions.flatMap (·.piece.kept)) := by
  simp [piece, Prolog.piece, StartDeclaration.piece, Definition.piece, productions, List.flatMap_assoc]

/-- The references of a file are among the identifiers of its productions, in order. -/
theorem references_sublist_identifiers : g.references.Sublist (g.productions.flatMap (·.identifiers)) :=
  List.Sublist.flatMap_right _ fun p _ => List.sublist_cons_self p.name p.references

/-- The names of the productions are among their identifiers, in order. -/
theorem productionNames_sublist_identifiers :
    g.productionNames.Sublist (g.productions.flatMap (·.identifiers)) := by
  rw [productionNames, List.map_eq_flatMap]
  exact List.Sublist.flatMap_right _ fun p _ => (List.nil_sublist p.references).cons_cons p.name

/-- The identifiers of the productions of a file are kept, in order. -/
theorem identifiers_sublist_kept :
    ((g.productions.flatMap (·.identifiers)).map (·.located)).Sublist g.piece.kept := by
  rw [kept_piece, List.map_flatMap]
  have hproductions := List.Sublist.flatMap_right g.productions fun p _ => p.identifiers_sublist_kept
  exact (hproductions.trans (List.sublist_append_right _ _)).cons _

/-- The names of the scanner states of a file are kept, in order. -/
theorem stateNames_sublist_kept : (g.stateNames.map (·.located)).Sublist g.piece.kept := by
  have hstates : (g.stateNames.map (·.located)).Sublist (g.prolog.states.flatMap (·.piece.kept)) := by
    rw [stateNames, List.map_map, List.map_eq_flatMap]
    refine List.Sublist.flatMap_right _ fun s _ => ?_
    rw [s.kept_piece]
    exact (List.nil_sublist _).cons_cons _
  rw [kept_piece]
  exact ((hstates.trans (List.sublist_append_right _ _)).trans (List.sublist_append_left _ _)).cons _

/-- What is picked out of the directives and then out of the symbols of a file stands in order. -/
theorem pick_sublist_kept {pick : Directive → List LocatedToken} {pick' : Symbol → List LocatedToken}
    (h : ∀ d, (pick d).Sublist d.piece.kept) (h' : ∀ s, (pick' s).Sublist s.piece.kept) :
    (g.directives.flatMap pick ++ g.symbols.flatMap pick').Sublist g.piece.kept := by
  have hdirectives : (g.directives.flatMap pick).Sublist
      (g.prolog.declarations.flatMap (·.piece.kept) ++ g.prolog.states.flatMap (·.piece.kept)) := by
    rw [directives, List.flatMap_append, List.filterMap_eq_flatMap_toList, List.flatMap_assoc,
      List.flatMap_assoc]
    refine List.Sublist.append (List.Sublist.flatMap_right _ fun d _ => ?_)
      (List.Sublist.flatMap_right _ fun s _ => ?_)
    · exact (List.Sublist.flatMap_right _ fun d _ => h d).trans d.directive?_sublist_kept
    · rw [s.kept_piece]
      exact (List.Sublist.flatMap_right _ fun d _ => h d).cons _
  have hsymbols : (g.symbols.flatMap pick').Sublist (g.productions.flatMap (·.piece.kept)) := by
    rw [symbols, List.flatMap_assoc]
    refine List.Sublist.flatMap_right _ fun p _ => ?_
    rw [p.kept_piece]
    exact (List.Sublist.flatMap_right _ fun s _ => h' s).cons _
  rw [kept_piece]
  exact (hdirectives.append hsymbols).cons _

/-- The uses of scanner states in a file are kept, in order. -/
theorem stateUses_sublist_kept : (g.stateUses.map (·.located)).Sublist g.piece.kept := by
  rw [stateUses, List.map_append, List.filterMap_eq_flatMap_toList, List.map_flatMap, List.map_flatMap]
  exact g.pick_sublist_kept Directive.target?_sublist_kept Symbol.states_sublist_kept

/-- The literals of a file are kept, in order. -/
theorem literals_sublist_kept : (g.literals.map (·.located)).Sublist g.piece.kept := by
  rw [literals, List.map_append, List.map_flatMap, List.map_flatMap]
  exact g.pick_sublist_kept Directive.literals_sublist_kept Symbol.literals_sublist_kept

end Grammar

/-! ### Parsed grammars -/

section Parsed

variable {source : String} {options : ParserOptions} {g : Grammar}

/-- What a parsed grammar keeps are tokens of the source, in their order. -/
theorem exists_kept_sublist_of_parse (h : parse source options = .ok g) :
    ∃ lexemes, lex source = .ok lexemes ∧ g.piece.kept.Sublist (locate (.ofSource source) lexemes) := by
  obtain ⟨lexemes, hlex, ⟨p, d⟩, ⟨ts, us, hsplit, hp, hd⟩, rfl⟩ := parse_eq_ok_iff.mp h
  have hlaid : Laid (.ofSource source) ([p.piece] ++ [d.piece]) (ts ++ us) :=
    Joins.append (laid_prolog hp) (laid_definition maxNesting hd)
  have hkept := (hlaid lexemes hsplit.symm).kept_sublist
  refine ⟨lexemes, hlex, ?_⟩
  rw [Grammar.piece, Piece.kept_node]
  exact hkept

/-- **What a parsed grammar keeps of its tokens stands in the order of their offsets.** -/
theorem pairwise_kept_of_parse (h : parse source options = .ok g) :
    g.piece.kept.Pairwise (·.range.span.start < ·.range.span.start) := by
  obtain ⟨lexemes, hlex, hkept⟩ := exists_kept_sublist_of_parse h
  have hstarts : (locate (.ofSource source) lexemes).Pairwise (·.range.span.start < ·.range.span.start) :=
    List.pairwise_map.mpr (pairwise_start_of_lex hlex)
  exact hstarts.sublist hkept

/-- Identifiers that are kept in order start in increasing order in a parsed file. -/
theorem pairwise_start_of_sublist_kept (h : parse source options = .ok g) {is : List Identifier}
    (his : (is.map (·.located)).Sublist g.piece.kept) :
    is.Pairwise (·.range.span.start < ·.range.span.start) := by
  have hpairwise := (pairwise_kept_of_parse h).sublist his
  rwa [List.pairwise_map] at hpairwise

/-- **The names of a parsed grammar stand in the order of their offsets.** -/
theorem inOrder_of_parse (h : parse source options = .ok g) : g.InOrder :=
  pairwise_start_of_sublist_kept h g.identifiers_sublist_kept

/-- The names of the scanner states start in increasing order in a parsed file. -/
theorem pairwise_stateNames_of_parse (h : parse source options = .ok g) :
    g.stateNames.Pairwise (·.range.span.start < ·.range.span.start) :=
  pairwise_start_of_sublist_kept h g.stateNames_sublist_kept

/-- The uses of scanner states start in increasing order in a parsed file. -/
theorem pairwise_stateUses_of_parse (h : parse source options = .ok g) :
    g.stateUses.Pairwise (·.range.span.start < ·.range.span.start) :=
  pairwise_start_of_sublist_kept h g.stateUses_sublist_kept

/-- The literals start in increasing order in a parsed file. -/
theorem pairwise_literals_of_parse (h : parse source options = .ok g) :
    g.literals.Pairwise (·.range.span.start < ·.range.span.start) := by
  have hpairwise := (pairwise_kept_of_parse h).sublist g.literals_sublist_kept
  rwa [List.pairwise_map] at hpairwise

end Parsed

end GrammarFile
