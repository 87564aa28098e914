import GrammarFile.Proofs.Derivation.Parse
import GrammarFile.Proofs.Locations.Outline
import GrammarFile.Proofs.Locations.Run
import GrammarFile.Proofs.Printing

/-!
# Printing and parsing again

The text of a tree lexes to the tokens of the tree (`lex_print`). For a tree that a source was parsed to
those are the tokens of the source, so the text is parsed wherever the source is, and to the same tree up
to locations (`parse_print`): the tree is decided by its tokens.
-/

namespace GrammarFile

/-- The names and literals of a source are well-formed. -/
theorem isLexeme_of_lex {source : String} {lexemes : List Lexeme} (h : lex source = .ok lexemes) :
    ∀ t ∈ lexemes.map (·.token), t.IsLexeme :=
  (lexes_of_lex h).isLexeme

/-- A tree whose names and literals are well-formed is written as a text with its tokens. -/
theorem exists_lex_print {g : Grammar} (h : ∀ t ∈ g.tokens, t.IsLexeme) :
    ∃ lexemes, lex g.print = .ok lexemes ∧ lexemes.map (·.token) = g.tokens :=
  lex_of_lexes (lexes_print g h)

/-- A source is parsed to a tree with its own tokens. -/
theorem tokens_eq_of_parse {source : String} {options : ParserOptions} {g : Grammar}
    (h : parse source options = .ok g) :
    ∃ lexemes, lex source = .ok lexemes ∧ g.tokens = lexemes.map (·.token) := by
  obtain ⟨lexemes, hlex, -⟩ := parse_eq_ok_iff.mp h
  refine ⟨lexemes, hlex, ?_⟩
  rw [← g.tokens_derivation]
  exact ((parse_derivation_iff hlex).mp ⟨g, h, rfl⟩).2.1

/-- Every token of a parsed file has the shape of its kind. -/
theorem isLexeme_of_parse {source : String} {options : ParserOptions} {g : Grammar}
    (h : parse source options = .ok g) : ∀ t ∈ g.tokens, t.IsLexeme := by
  obtain ⟨lexemes, hlex, htokens⟩ := tokens_eq_of_parse h
  rw [htokens]
  exact isLexeme_of_lex hlex

/-- Sources with the same tokens are parsed alike, up to locations. -/
theorem exists_parse_of_tokens {source other : String} {options : ParserOptions} {g : Grammar}
    {lexemes lexemes' : List Lexeme} (h : parse source options = .ok g) (hlex : lex source = .ok lexemes)
    (hlex' : lex other = .ok lexemes') (htokens : lexemes'.map (·.token) = lexemes.map (·.token))
    (options' : ParserOptions) : ∃ g', parse other options' = .ok g' ∧ g'.erase = g.erase := by
  obtain ⟨hfile, hderived, hnesting⟩ := (parse_derivation_iff hlex).mp ⟨g, h, rfl⟩
  have hparsed : ∃ g', parse other options' = .ok g' ∧ g'.derivation = g.derivation :=
    (parse_derivation_iff hlex').mpr ⟨hfile, hderived.trans htokens.symm, hnesting⟩
  obtain ⟨g', h', -⟩ := hparsed
  refine ⟨g', h', ?_⟩
  obtain ⟨us, hus, hreads⟩ := parse_eq_ok_iff.mp h
  obtain ⟨vs, hvs, hreads'⟩ := parse_eq_ok_iff.mp h'
  obtain rfl := Except.ok.inj (hlex.symm.trans hus)
  obtain rfl := Except.ok.inj (hlex'.symm.trans hvs)
  refine erase_eq_of_reads_file hreads' hreads ?_
  rw [map_token_locate, map_token_locate, htokens]

/-- **The text of a tree lexes to the tokens of the tree**, if its names and literals are well-formed.
Those of a parsed tree are, and the tokens are then those of the source. -/
theorem lex_print :
    (∀ g : Grammar, (∀ t ∈ g.tokens, t.IsLexeme) →
      ∃ lexemes, lex g.print = .ok lexemes ∧ lexemes.map (·.token) = g.tokens) ∧
    ∀ (source : String) (options : ParserOptions) (g : Grammar), parse source options = .ok g →
      (∀ t ∈ g.tokens, t.IsLexeme) ∧
      ∃ us vs, lex source = .ok us ∧ lex g.print = .ok vs ∧ vs.map (·.token) = us.map (·.token) := by
  constructor
  · exact fun g h => exists_lex_print h
  · intro source options g h
    have hlexemes := isLexeme_of_parse h
    obtain ⟨us, hus, htokens⟩ := tokens_eq_of_parse h
    obtain ⟨vs, hvs, hprinted⟩ := exists_lex_print hlexemes
    exact ⟨hlexemes, us, vs, hus, hvs, hprinted.trans htokens⟩

/-- A terminal with scanner states, a look-ahead and a type, and brackets in each other. -/
def bracketsInBrackets : String :=
  "%start A%%A:<B,C>/x/?=\"y\":T::U([\x7ba^\x7d])|;"

/-- All the tokens of such a file are kept. -/
theorem lex_print_nested_brackets :
    ∃ g us vs, parse bracketsInBrackets .default = .ok g ∧
      lex bracketsInBrackets = .ok us ∧ us.length = 27 ∧
      lex g.print = .ok vs ∧ vs.map (·.token) = us.map (·.token) := by
  have hok : (parse bracketsInBrackets .default).isOk := by decide +kernel
  have hlength : (lex bracketsInBrackets).map List.length = .ok 27 := by decide +kernel
  obtain ⟨g, hg⟩ := exists_parse_of_isOk hok
  obtain ⟨-, us, vs, hus, hvs, htokens⟩ := lex_print.2 _ .default g hg
  rw [hus] at hlength
  exact ⟨g, us, vs, hg, hus, Except.ok.inj hlength, hvs, htokens⟩

/-- **Printing a parsed tree and parsing it again changes locations only.** The text of the tree is
parsed, to the same tree without the locations. So the outlines have the same structure, and the text of
the new tree is the same character for character. -/
theorem parse_print {source : String} {options : ParserOptions} {g : Grammar}
    (h : parse source options = .ok g) :
    ∃ g', parse g.print .default = .ok g' ∧ g'.erase = g.erase ∧
      g.outline.sameStructure g'.outline ∧ g'.print = g.print := by
  obtain ⟨us, hus, htokens⟩ := tokens_eq_of_parse h
  obtain ⟨vs, hvs, hprinted⟩ := exists_lex_print (isLexeme_of_parse h)
  obtain ⟨g', hg', herase⟩ := exists_parse_of_tokens h hus hvs (hprinted.trans htokens) .default
  refine ⟨g', hg', herase, Grammar.sameStructure_of_erase_eq herase.symm, ?_⟩
  rw [← g'.print_erase, herase, g.print_erase]

/-- A prolog with a scanner state, and a body with a leading pipe. -/
def pipeBehindState : String :=
  "%start A %scanner S\x7b%on B%push S\x7d%%A:|B@n:T;"

/-- Printed in another layout, the file comes back. -/
theorem parse_print_scanner_state :
    ∃ g g', parse pipeBehindState .default = .ok g ∧
      g.print = "%start A\n\n%scanner S \x7b\n    %on B %push S\n\x7d\n\n%%\n\nA: | B@n: T;\n" ∧
      parse g.print .default = .ok g' ∧ g'.erase = g.erase ∧
      g.outline.sameStructure g'.outline ∧ g'.print = g.print := by
  have hok : (parse pipeBehindState .default).isOk := by decide +kernel
  have hprint : (parse pipeBehindState .default).map (·.print) =
      .ok "%start A\n\n%scanner S \x7b\n    %on B %push S\n\x7d\n\n%%\n\nA: | B@n: T;\n" := by
    decide +kernel
  obtain ⟨g, hg⟩ := exists_parse_of_isOk hok
  rw [hg] at hprint
  obtain ⟨g', hg'⟩ := parse_print hg
  exact ⟨g, g', hg, Except.ok.inj hprint, hg'⟩

end GrammarFile
