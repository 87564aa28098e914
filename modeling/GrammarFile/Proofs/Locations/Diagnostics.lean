import GrammarFile.Proofs.Lexing.Failure
import GrammarFile.Proofs.Lint.Groups
import GrammarFile.Proofs.Recovery.Faults
import GrammarFile.Proofs.Source.Excerpt
import GrammarFile.Proofs.Source.Position

/-!
# What is reported can be shown in its place

Whatever is reported on a source starts at a character of it, or else it is an error at the end of
the input (`startsAtChar_or_end_of_check`): the lexer blames what it cannot read, the parser blames
a token, and the lints find names and literals, which the tree has kept with their ranges
(`Grammar.exists_kept_of_mem_issues`).

So each diagnostic starts on a line, and an excerpt shows that line with a mark, unless an error at
the end of the input is behind the last line feed or in an empty source, where there is no line to
show (`excerpt_of_check`).
-/

namespace GrammarFile

variable {source : String} {options : ParserOptions}

/-! ### Where diagnostics start -/

/-- Whether a range starts at a character of a source, on the line of the line feeds in front of it. -/
def Range.StartsAtChar (source : String) (r : Range) : Prop :=
  ∃ before c behind, source.toList = before ++ c :: behind ∧ r.span.start = byteCount before ∧
    r.start.line = before.count '\n'

/-- Whether a diagnostic is an error that the parser has found at the end of a source. -/
def Diagnostic.AtEnd (source : String) (options : ParserOptions) (d : Diagnostic) : Prop :=
  ∃ errors, parse source options = .error (.parse errors) ∧ ∃ e ∈ errors, e.found = none ∧
    e.range = (LineIndex.ofSource source).range ⟨source.utf8ByteSize, source.utf8ByteSize⟩ ∧
      d = e.diagnostic

/-- A span that starts in front of a character has a range that does. -/
theorem startsAtChar_range {span : Span} {before behind : List Char} {c : Char}
    (h : source.toList = before ++ c :: behind) (hstart : span.start = byteCount before) :
    ((LineIndex.ofSource source).range span).StartsAtChar source := by
  refine ⟨before, c, behind, h, hstart, ?_⟩
  rw [LineIndex.range, hstart]
  exact LineIndex.line_position_ofSource h

/-- A token that is read starts at the first of its characters. -/
theorem startsAtChar_of_lex {lexemes : List Lexeme} (h : lex source = .ok lexemes) :
    ∀ u ∈ lexemes, ((LineIndex.ofSource source).range u.span).StartsAtChar source := by
  obtain ⟨ts, hts, rfl⟩ := lex_eq_ok_iff.mp h
  intro u hu
  have hplaced := (List.mem_filter.mp hu).1
  obtain ⟨before, after, hsource, hspan⟩ := exists_append_of_splits hts u hplaced
  have hmem : u.token ∈ ts := map_token_placeFrom 0 ts ▸ List.mem_map_of_mem hplaced
  obtain ⟨c, cs, htext⟩ := List.exists_cons_of_ne_nil
    (mt String.toList_eq_nil_iff.mp (text_ne_empty_of_splits hts u.token hmem))
  rw [htext, List.cons_append] at hsource
  exact startsAtChar_range hsource (by rw [hspan])

/-- A lexical error starts at a character. -/
theorem startsAtChar_of_lex_error {e : LexError} (h : lex source = .error e) :
    ((LineIndex.ofSource source).range e.span).StartsAtChar source := by
  obtain ⟨reason, span, hrun, rfl⟩ := exists_of_tokenize_eq_error (lex_eq_error_iff.mp h)
  obtain ⟨before, ts, c, cs, htext, -, -, hspan⟩ := exists_splits_of_tokenizeFrom_error hrun
  obtain ⟨blamed, after, -, hblame, -⟩ := reason.exists_blamed (0 + byteCount before) c cs
  refine startsAtChar_range htext ?_
  rw [LexError.ofSpan, hspan, hblame, Nat.zero_add]

/-- The parser blames a token or the end of the input. -/
theorem startsAtChar_or_end_of_parse_error {errors : List ParseError}
    (h : parse source options = .error (.parse errors)) {e : ParseError} (he : e ∈ errors) :
    e.range.StartsAtChar source ∨ e.diagnostic.AtEnd source options := by
  cases hlex : lex source with
  | error e =>
    rw [parse, hlex] at h
    cases h
  | ok lexemes =>
    obtain ⟨-, hplaces⟩ := wellFormed_and_places_of_parse hlex h e he
    rcases hplaces with ⟨t, ht, -, hrange⟩ | ⟨hfound, hrange⟩
    · obtain ⟨u, hu, rfl⟩ := List.mem_map.mp ht
      exact .inl (hrange ▸ startsAtChar_of_lex hlex u hu)
    · exact .inr ⟨errors, h, e, he, hfound, hrange, rfl⟩

/-! ### Lints -/

/-- Sorting by place keeps the identifiers. -/
theorem mem_sortByPlace {is : List Identifier} {i : Identifier} : i ∈ sortByPlace is ↔ i ∈ is :=
  (List.mergeSort_perm is _).mem_iff

namespace Grammar

variable {g : Grammar}

/-- **A lint is about a name or a literal that the tree has kept.** -/
theorem exists_kept_of_mem_issues {refuse : String → Option String} {issue : LintIssue}
    (h : issue ∈ g.issues refuse) : ∃ l ∈ g.piece.kept, issue.range = l.range := by
  have hkept : ∀ {is : List Identifier}, (is.map (·.located)).Sublist g.piece.kept →
      ∀ i ∈ is, ∃ l ∈ g.piece.kept, i.range = l.range :=
    fun hsublist i hi => ⟨i.located, hsublist.subset (List.mem_map_of_mem hi), rfl⟩
  simp only [issues, List.mem_append] at h
  rcases h with ((((h | h) | h) | h) | h) | h
  · rw [undefinedStarts] at h
    split at h
    · exact absurd h List.not_mem_nil
    · rw [List.mem_singleton.mp h, kept_piece]
      exact ⟨_, List.mem_cons_self, rfl⟩
  · obtain ⟨i, hi, rfl⟩ := List.mem_map.mp h
    have hreference := g.references_index_perm.mem_iff.mp (List.mem_filter.mp (mem_sortByPlace.mp hi)).1
    exact hkept ((g.references_sublist_identifiers.map _).trans g.identifiers_sublist_kept) i hreference
  · rw [unreachableProductions] at h
    split at h
    · obtain ⟨i, hi, rfl⟩ := List.mem_map.mp h
      have hdefinition :=
        g.definitions_index_perm.mem_iff.mp (List.mem_filter.mp (mem_sortByPlace.mp hi)).1
      have hnames :=
        (splitRepeats_fst_sublist [] g.productionNames).trans g.productionNames_sublist_identifiers
      exact hkept ((hnames.map _).trans g.identifiers_sublist_kept) i hdefinition
    · exact absurd h List.not_mem_nil
  · obtain ⟨i, hi, rfl⟩ := List.mem_map.mp h
    exact hkept g.stateNames_sublist_kept i ((splitRepeats_snd_sublist _ _).subset hi)
  · obtain ⟨i, hi, rfl⟩ := List.mem_map.mp h
    exact hkept g.stateUses_sublist_kept i (List.mem_filter.mp hi).1
  · obtain ⟨l, hl, hrefused⟩ := List.mem_filterMap.mp h
    obtain ⟨reason, -, rfl⟩ := Option.map_eq_some_iff.mp hrefused
    have hmem := List.mem_map_of_mem (f := Literal.located) (List.mem_filter.mp hl).1
    exact ⟨l.located, g.literals_sublist_kept.subset hmem, rfl⟩

/-- Whatever the lints find starts at a character, for every judge of patterns. -/
theorem startsAtChar_of_mem_lint (h : parse source options = .ok g) {refuse : String → Option String}
    {d : Diagnostic} (hd : d ∈ g.lint refuse) : d.range.StartsAtChar source := by
  obtain ⟨issue, hissue, rfl⟩ := List.mem_map.mp hd
  obtain ⟨l, hl, hrange⟩ := exists_kept_of_mem_issues hissue
  obtain ⟨lexemes, hlex, hkept⟩ := exists_kept_sublist_of_parse h
  obtain ⟨u, hu, rfl⟩ := List.mem_map.mp (hkept.subset hl)
  rw [LintIssue.diagnostic, hrange]
  exact startsAtChar_of_lex hlex u hu

end Grammar

/-- **Whatever is reported on a source starts at a character of it, or is an error at the end of the
input.** -/
theorem startsAtChar_or_end_of_check {refuse : String → Option String} {d : Diagnostic}
    (h : d ∈ checkSource source options refuse) :
    d.range.StartsAtChar source ∨ d.AtEnd source options := by
  rw [checkSource] at h
  cases hparse : parse source options with
  | ok g =>
    rw [hparse] at h
    exact .inl (Grammar.startsAtChar_of_mem_lint hparse h)
  | error e =>
    rw [hparse] at h
    cases e with
    | parse errors =>
      obtain ⟨e, he, rfl⟩ := List.mem_map.mp h
      exact startsAtChar_or_end_of_parse_error hparse he
    | lexical e =>
      rw [List.mem_singleton.mp h]
      exact .inl (startsAtChar_of_lex_error (parse_eq_lexical_iff.mp hparse))

/-! ### Showing diagnostics -/

/-- Whether a range starts on a line of a source, which lies between `front` and `rest`. -/
structure Range.OnLine (source : String) (r : Range) (front line rest : List Char) : Prop where
  cuts : Text.CutsLine source.toList front line rest
  number : r.start.line = front.count '\n'
  start : ∃ first last, line = first ++ last ∧ r.span.start = byteCount (front ++ first)

/-- A range that starts between characters, with as many line feeds before it as it says, is on a
line. -/
theorem exists_onLine {r : Range} {before behind : List Char} (h : source.toList = before ++ behind)
    (hstart : r.span.start = byteCount before) (hline : r.start.line = before.count '\n') :
    ∃ front line rest, r.OnLine source front line rest := by
  obtain ⟨front, first, last, rest, rfl, rfl, hcuts, hcount⟩ := Text.exists_cutsLine before behind
  exact ⟨front, first ++ last, rest, h ▸ hcuts, hline.trans hcount, first, last, rfl, hstart⟩

/-- What starts at a character is on a line that is not empty, or that is ended. -/
theorem Range.StartsAtChar.not_nil {r : Range} (h : r.StartsAtChar source) {front line rest : List Char}
    (hline : r.OnLine source front line rest) : ¬(line = [] ∧ rest = []) := by
  rintro ⟨rfl, rfl⟩
  obtain ⟨before, c, behind, hsource, hstart, -⟩ := h
  obtain ⟨first, last, hnil, hstart'⟩ := hline.start
  obtain ⟨rfl, rfl⟩ := List.append_eq_nil_iff.mp hnil.symm
  have hsize : byteCount front = byteCount before + (c.utf8Size + byteCount behind) := by
    have hcuts := hline.cuts.eq
    rw [hsource, List.append_nil, List.append_nil] at hcuts
    rw [← hcuts, byteCount_append, byteCount_cons]
  have hpos := c.utf8Size_pos
  rw [hstart, List.append_nil] at hstart'
  omega

/-- What starts on a line is shown on it, with the only mark. -/
theorem Range.OnLine.showsLine {r : Range} {front line rest : List Char}
    (h : r.OnLine source front line rest) (hne : ¬(line = [] ∧ rest = [])) :
    ShowsLine source r.start.line (Text.withoutBreak line rest) (excerpt source r.start.line) := by
  obtain ⟨prior, later, hlength, hlines⟩ := Text.exists_lines_of_cutsLine h.cuts hne
  rw [String.ofList_toList] at hlines
  rw [h.number, ← hlength]
  exact showsLine_excerpt hlines

/-- Behind the last line feed and in an empty source there is no line. -/
theorem Range.OnLine.length_lines {r : Range} {front : List Char} (h : r.OnLine source front [] []) :
    (Text.lines source).length = r.start.line := by
  have hsource : source = .ofList front := by
    rw [← String.ofList_toList (s := source), h.cuts.eq, List.append_nil, List.append_nil]
  rw [h.number, hsource]
  exact Text.length_lines_of_startsLine h.cuts.starts

/-- A diagnostic at the end of the source is on its last line. -/
theorem Diagnostic.AtEnd.exists_onLine {d : Diagnostic} (h : d.AtEnd source options) :
    ∃ front line rest, d.range.OnLine source front line rest := by
  obtain ⟨errors, -, e, -, -, hrange, rfl⟩ := h
  have hsource : source.toList = source.toList ++ [] := (List.append_nil _).symm
  have hstart : e.diagnostic.range.span.start = byteCount source.toList := by
    rw [ParseError.diagnostic, hrange, byteCount_toList]
    rfl
  refine GrammarFile.exists_onLine hsource hstart ?_
  rw [ParseError.diagnostic, hrange, LineIndex.range, ← byteCount_toList]
  exact LineIndex.line_position_ofSource hsource

/-- **Each diagnostic can be shown in its place, except at the end of a source where no line is
left.** It starts on a line of the source, with as many line feeds in front of the line as its
number says. If there is anything of that line, an excerpt shows it, with the only mark and between
its neighbours. What is left is an error at the end of the input that is behind the last line feed
or in an empty source: the last lines are shown, and none has a mark. This holds for every judge of
patterns. -/
theorem excerpt_of_check {refuse : String → Option String} {d : Diagnostic}
    (h : d ∈ checkSource source options refuse) :
    ∃ front line rest, d.range.OnLine source front line rest ∧
      (¬(line = [] ∧ rest = []) →
        ShowsLine source d.range.start.line (Text.withoutBreak line rest)
          (excerpt source d.range.start.line) ∧ markedRows (excerpt source d.range.start.line) =
          [excerptRow ">>" (d.range.start.line + 1) (Text.withoutBreak line rest)]) ∧
      (line = [] ∧ rest = [] → d.AtEnd source options ∧
        excerpt source d.range.start.line = Text.stack
          (plainRows (d.range.start.line - 2 + 1) ((Text.lines source).drop (d.range.start.line - 2))) ∧
        markedRows (excerpt source d.range.start.line) = []) := by
  have hplace := startsAtChar_or_end_of_check h
  obtain ⟨front, line, rest, hline⟩ : ∃ front line rest, d.range.OnLine source front line rest := by
    rcases hplace with ⟨before, c, behind, hsource, hstart, hnumber⟩ | hend
    · exact exists_onLine hsource hstart hnumber
    · exact hend.exists_onLine
  refine ⟨front, line, rest, hline, fun hne => ?_, ?_⟩
  · have hshows := hline.showsLine hne
    exact ⟨hshows, hshows.markedRows_eq⟩
  · rintro ⟨rfl, rfl⟩
    have hend := hplace.resolve_left fun hchar => hchar.not_nil hline ⟨rfl, rfl⟩
    have hexcerpt := excerpt_of_length_le (Nat.le_of_eq hline.length_lines)
    refine ⟨hend, hexcerpt, ?_⟩
    rw [hexcerpt]
    exact markedRows_plainRows (List.drop_subset _ _) _

/-- A bracket in front of a carriage return is shown without it. A prolog with a line feed behind it
ends too early, and no line is marked. -/
theorem excerpt_of_check_line_feed :
    (∃ d ∈ checkSource "\n]\r\n" .failFast,
      markedRows (excerpt "\n]\r\n" d.range.start.line) = [">>   2 | ]"]) ∧
    ∃ d ∈ checkSource "%start s\n" .default, d.AtEnd "%start s\n" .default ∧
      markedRows (excerpt "%start s\n" d.range.start.line) = [] := by
  constructor
  · have hlines : Text.lines "\n]\r\n" = ["", "]"] := by decide +kernel
    have hstarts : (checkSource "\n]\r\n" .failFast).map (·.range.start.line) = [1] := by decide +kernel
    obtain ⟨d, others, hcheck, hnumber, -⟩ := List.map_eq_cons_iff.mp hstarts
    have hd : d ∈ checkSource "\n]\r\n" .failFast := hcheck ▸ List.mem_cons_self
    obtain ⟨front, line, rest, hline, hshown, -⟩ := excerpt_of_check hd
    have hne : ¬(line = [] ∧ rest = []) := by
      rintro ⟨rfl, rfl⟩
      have hlength := hline.length_lines
      rw [hlines, hnumber] at hlength
      cases hlength
    obtain ⟨⟨head, before, after, tail, hsplit, hlength, -⟩, hmarked⟩ := hshown hne
    rw [hnumber] at hlength
    have hat : (Text.lines "\n]\r\n")[1]? = some (Text.withoutBreak line rest) := by
      rw [hsplit, List.getElem?_append_right (Nat.le_of_eq hlength), hlength, Nat.sub_self]
      rfl
    rw [hlines] at hat
    refine ⟨d, hd, ?_⟩
    rw [hmarked, hnumber, ← Option.some.inj hat]
    decide +kernel
  · have hlines : Text.lines "%start s\n" = ["%start s"] := by decide +kernel
    have hstarts : (checkSource "%start s\n" .default).map (·.range.start.line) = [1] := by decide +kernel
    obtain ⟨d, others, hcheck, hnumber, -⟩ := List.map_eq_cons_iff.mp hstarts
    have hd : d ∈ checkSource "%start s\n" .default := hcheck ▸ List.mem_cons_self
    obtain ⟨front, line, rest, -, hshown, hnone⟩ := excerpt_of_check hd
    have hnil : line = [] ∧ rest = [] := by
      by_contra hne
      obtain ⟨head, before, after, tail, hsplit, hlength, -⟩ := (hshown hne).1
      have hcount : (Text.lines "%start s\n").length = 1 := congrArg List.length hlines
      rw [hsplit, List.length_append, hlength, hnumber, List.length_cons] at hcount
      omega
    obtain ⟨hend, -, hmarked⟩ := hnone hnil
    exact ⟨d, hd, hend, hmarked⟩

end GrammarFile
