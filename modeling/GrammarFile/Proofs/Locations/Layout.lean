import GrammarFile.Proofs.Derivation.Parse
import GrammarFile.Proofs.Locations.Lint
import GrammarFile.Proofs.Locations.Recovery
import Mathlib.Data.List.Forall2

/-!
# Layout does not matter

White space, comments and line breaks change where the tokens of a source stand, and nothing else. Two
sources with the same tokens are read alike (`parse_layout`): to trees that are the same up to
locations, with the same text and the same findings, or to errors that agree one by one in everything
but their place.
-/

namespace GrammarFile

/-- Whether two errors are the same apart from their places. -/
structure ParseError.SameCause (e e' : ParseError) : Prop where
  expected : e.fault.expected = e'.fault.expected
  found : e.found = e'.found
  nestingLimit? : e.fault.nestingLimit? = e'.fault.nestingLimit?

/-- Errors that are equal without locations have the same cause. -/
theorem ParseError.sameCause_of_erase_eq {e e' : ParseError} (h : e.erase = e'.erase) :
    e.SameCause e' := by
  obtain ⟨hfault, hfound, -⟩ := ParseError.mk.inj h
  exact ⟨congrArg Fault.expected hfault, hfound, congrArg Fault.nestingLimit? hfault⟩

/-- Errors that are the same without their locations have the same cause one by one. -/
theorem forall₂_sameCause_of_map_erase_eq {es es' : List ParseError}
    (h : es.map (·.erase) = es'.map (·.erase)) : List.Forall₂ ParseError.SameCause es es' := by
  have hforall : List.Forall₂ (· = ·) (es.map (·.erase)) (es'.map (·.erase)) := by
    rw [h]
    exact List.forall₂_refl _
  rw [List.forall₂_map_left_iff, List.forall₂_map_right_iff] at hforall
  exact hforall.imp fun _ _ => ParseError.sameCause_of_erase_eq

/-- Readings of the same tokens are the same up to locations, wherever the sources end. -/
theorem eraseResult_parseTokens_eq {ts us : List LocatedToken}
    (h : ts.map (·.token) = us.map (·.token)) (options : ParserOptions) (r r' : Range) :
    eraseResult (parseTokens ⟨options, r⟩ ts) = eraseResult (parseTokens ⟨options, r'⟩ us) := by
  rw [← parseTokens_erase, ← parseTokens_erase, map_erase_eq h]
  rfl

/-- **Sources with the same tokens are read alike.** Under the same options both parse, and the trees
are the same up to locations, with the same text and, for every judge of patterns, the same findings apart
from the places; or neither does, and there are as many errors, with the same causes one by one. -/
theorem parse_layout {source other : String} {lexemes lexemes' : List Lexeme}
    (hlex : lex source = .ok lexemes) (hlex' : lex other = .ok lexemes')
    (htokens : lexemes.map (·.token) = lexemes'.map (·.token)) (options : ParserOptions) :
    (∃ g g', parse source options = .ok g ∧ parse other options = .ok g' ∧
      g.erase = g'.erase ∧ g.print = g'.print ∧
      ∀ refuse : String → Option String,
        (g.lint refuse).map (fun d => (d.code, d.severity, d.message)) =
          (g'.lint refuse).map fun d => (d.code, d.severity, d.message)) ∨
    ∃ es es', parse source options = .error (.parse es) ∧ parse other options = .error (.parse es') ∧
      es.length = es'.length ∧ List.Forall₂ ParseError.SameCause es es' := by
  have hresult :
      eraseResult (parseTokens (.ofSource source options) (locate (.ofSource source) lexemes)) =
      eraseResult (parseTokens (.ofSource other options) (locate (.ofSource other) lexemes')) := by
    refine eraseResult_parseTokens_eq ?_ options _ _
    rw [map_token_locate, map_token_locate, htokens]
  cases h : parseTokens (.ofSource source options) (locate (.ofSource source) lexemes) with
  | ok g =>
    cases h' : parseTokens (.ofSource other options) (locate (.ofSource other) lexemes') with
    | ok g' =>
      have herase : g.erase = g'.erase := by
        rw [h, h'] at hresult
        exact Except.ok.inj hresult
      have hg := (parse_eq_ok_of_lex hlex).mpr h
      have hg' := (parse_eq_ok_of_lex hlex').mpr h'
      refine .inl ⟨g, g', hg, hg', herase, ?_, fun refuse => ?_⟩
      · rw [← g.print_erase, herase, g'.print_erase]
      · exact Grammar.lint_of_erase_eq (inOrder_of_parse hg) (inOrder_of_parse hg') herase refuse
    | error es' =>
      rw [h, h'] at hresult
      cases hresult
  | error es =>
    cases h' : parseTokens (.ofSource other options) (locate (.ofSource other) lexemes') with
    | ok g' =>
      rw [h, h'] at hresult
      cases hresult
    | error es' =>
      have herase : es.map (·.erase) = es'.map (·.erase) := by
        rw [h, h'] at hresult
        exact Except.error.inj hresult
      have hsame := forall₂_sameCause_of_map_erase_eq herase
      exact .inr ⟨es, es', (parse_eq_error_of_lex hlex).mpr h, (parse_eq_error_of_lex hlex').mpr h',
        hsame.length_eq, hsame⟩

/-- A source with some sequence of tokens lexes to lexemes with these tokens. -/
theorem exists_lex_of_map_token {source : String} {ts : List Token}
    (h : (lex source).map (List.map (·.token)) = .ok ts) :
    ∃ lexemes, lex source = .ok lexemes ∧ lexemes.map (·.token) = ts := by
  cases hlex : lex source with
  | error e =>
    rw [hlex] at h
    cases h
  | ok lexemes =>
    rw [hlex] at h
    exact ⟨lexemes, rfl, Except.ok.inj h⟩

/-- A comment and line breaks change no error but its place. -/
theorem parse_layout_comment :
    ∃ es es', parse "%start A%%A:(;B|" .default = .error (.parse es) ∧
      parse "%start A // a\n%%\nA: ( ;\n\nB |" .default = .error (.parse es') ∧
      es.length = es'.length ∧ List.Forall₂ ParseError.SameCause es es' := by
  have hlex : (lex "%start A%%A:(;B|").map (List.map (·.token)) =
      .ok [.mark .start, .identifier "A", .mark .percentPercent, .identifier "A", .mark .colon,
        .mark .leftParen, .mark .semicolon, .identifier "B", .mark .pipe] := by
    decide +kernel
  have hlex' : (lex "%start A // a\n%%\nA: ( ;\n\nB |").map (List.map (·.token)) =
      .ok [.mark .start, .identifier "A", .mark .percentPercent, .identifier "A", .mark .colon,
        .mark .leftParen, .mark .semicolon, .identifier "B", .mark .pipe] := by
    decide +kernel
  have hfails : (parse "%start A%%A:(;B|" .default).isOk = false := by decide +kernel
  obtain ⟨us, hus, hustokens⟩ := exists_lex_of_map_token hlex
  obtain ⟨vs, hvs, hvstokens⟩ := exists_lex_of_map_token hlex'
  rcases parse_layout hus hvs (hustokens.trans hvstokens.symm) .default with ⟨g, _, hg, -⟩ | h
  · rw [hg] at hfails
    cases hfails
  · exact h

end GrammarFile
