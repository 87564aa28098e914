import GrammarFile.Proofs.Derivation.Rules
import GrammarFile.Proofs.Parsing.File

/-!
# Parsing is deriving

A source that lexes is parsed just where the rule table derives its tokens with brackets nested to the
limit, and the tree that is given stands for the one derivation there is.

That there is one only is a fact about the table, whatever the nesting (`derivation_unique`). It holds
because the rule of a file reads what the table spells, and one token decides every choice of that rule.
-/

namespace GrammarFile

/-- Whether a tree over the table is one of a whole file. -/
def Derivation.IsFile (d : Derivation) : Prop :=
  (Phrase.rule .file).Derives [d]

/-- A derivation of a file spells the tokens that it has. -/
theorem spells_file_iff {levels : Nat} {ts : List LocatedToken} {d : Derivation} :
    (Phrase.rule .file).Spells levels ts [d] ↔
      d.IsFile ∧ d.tokens = ts.map (·.token) ∧ d.nesting ≤ levels := by
  rw [← tokensOfParts_singleton d, ← nestingOfParts_singleton d]
  exact ⟨fun h => ⟨h.derives, h.tokens, h.nesting⟩, fun ⟨h, htokens, hnesting⟩ => ⟨h, htokens, hnesting⟩⟩

/-- The rule of a file reads tokens as a tree that stands for a derivation of them. -/
theorem reads_file_iff {levels : Nat} {ts : List LocatedToken} {d : Derivation} :
    (∃ g, (Rules.file levels).Reads ts g ∧ g.derivation = d) ↔
      d.IsFile ∧ d.tokens = ts.map (·.token) ∧ d.nesting ≤ levels := by
  rw [← spells_file_iff, Models.file ts [d]]
  simp only [List.cons.injEq, and_true]

/-- **The table is unambiguous.** Two derivations of a file over the same tokens are the same. -/
theorem derivation_unique {d d' : Derivation} (h : d.IsFile) (h' : d'.IsFile)
    (htokens : d.tokens = d'.tokens) : d = d' := by
  -- any ranges do, and any number of levels that is enough for both
  have hmap : (d.tokens.map fun t => LocatedToken.mk t .origin).map (·.token) = d.tokens := by
    rw [List.map_map]
    exact List.map_id _
  obtain ⟨g, hg, rfl⟩ := reads_file_iff.mpr ⟨h, hmap.symm, Nat.le_max_left d.nesting d'.nesting⟩
  obtain ⟨g', hg', rfl⟩ := reads_file_iff.mpr
    ⟨h', htokens.symm.trans hmap.symm, Nat.le_max_right g.derivation.nesting d'.nesting⟩
  rw [Rule.reads_unique (decided_file _) hg hg']

/-- Giving the lexemes their places keeps their tokens. -/
theorem map_token_locate (index : LineIndex) (lexemes : List Lexeme) :
    (locate index lexemes).map (·.token) = lexemes.map (·.token) := by
  rw [locate, List.map_map]
  rfl

/-- A parse that succeeds gives a tree. -/
theorem exists_parse_of_isOk {source : String} {options : ParserOptions}
    (h : (parse source options).isOk) : ∃ g, parse source options = .ok g := by
  cases hg : parse source options with
  | error e =>
    rw [hg] at h
    cases h
  | ok g => exact ⟨g, rfl⟩

/-- What a source is parsed to stands for a derivation of its tokens. -/
theorem parse_derivation_iff {source : String} {lexemes : List Lexeme} (h : lex source = .ok lexemes)
    {options : ParserOptions} {d : Derivation} :
    (∃ g, parse source options = .ok g ∧ g.derivation = d) ↔
      d.IsFile ∧ d.tokens = lexemes.map (·.token) ∧ d.nesting ≤ maxNesting := by
  rw [← map_token_locate (.ofSource source), ← reads_file_iff]
  simp only [parse_eq_ok_iff, h, Except.ok.injEq, exists_eq_left']

/-- **Parsing is deriving.** A source that lexes is parsed, whatever the options, just where the table
derives its tokens with brackets nested to the limit. The tree that is given has the tokens of the source
in their order, and it stands for a derivation of them, of which there is no other at any nesting. -/
theorem parse_ok_iff_derives {source : String} {lexemes : List Lexeme} (h : lex source = .ok lexemes)
    (options : ParserOptions) :
    ((∃ g, parse source options = .ok g) ↔
      ∃ d : Derivation, d.IsFile ∧ d.tokens = lexemes.map (·.token) ∧ d.nesting ≤ maxNesting) ∧
    ∀ g, parse source options = .ok g →
      g.derivation.IsFile ∧ g.derivation.nesting ≤ maxNesting ∧
      g.derivation.tokens = lexemes.map (·.token) ∧ g.tokens = lexemes.map (·.token) ∧
      ∀ d : Derivation, d.IsFile → d.tokens = lexemes.map (·.token) → d = g.derivation := by
  constructor
  · constructor
    · rintro ⟨g, hg⟩
      exact ⟨g.derivation, (parse_derivation_iff h).mp ⟨g, hg, rfl⟩⟩
    · rintro ⟨d, hd⟩
      obtain ⟨g, hg, -⟩ := (parse_derivation_iff h).mpr hd
      exact ⟨g, hg⟩
  · intro g hg
    obtain ⟨hfile, htokens, hnesting⟩ := (parse_derivation_iff h).mp ⟨g, hg, rfl⟩
    refine ⟨hfile, hnesting, htokens, g.tokens_derivation ▸ htokens, ?_⟩
    intro d hd hdtokens
    exact derivation_unique hd hfile (hdtokens.trans htokens.symm)

/-- A body between a leading pipe and one at its end is derived and parsed. -/
theorem parse_ok_iff_derives_bare_pipe :
    ∃ g, parse "%start A%%A:|B|;" .default = .ok g ∧ g.derivation.IsFile ∧
      g.tokens = [.mark .start, .identifier "A", .mark .percentPercent, .identifier "A", .mark .colon,
        .mark .pipe, .identifier "B", .mark .pipe, .mark .semicolon] := by
  have hlex : lex "%start A%%A:|B|;" =
      .ok [⟨.mark .start, ⟨0, 6⟩⟩, ⟨.identifier "A", ⟨7, 8⟩⟩, ⟨.mark .percentPercent, ⟨8, 10⟩⟩,
        ⟨.identifier "A", ⟨10, 11⟩⟩, ⟨.mark .colon, ⟨11, 12⟩⟩, ⟨.mark .pipe, ⟨12, 13⟩⟩,
        ⟨.identifier "B", ⟨13, 14⟩⟩, ⟨.mark .pipe, ⟨14, 15⟩⟩, ⟨.mark .semicolon, ⟨15, 16⟩⟩] := by
    decide +kernel
  have hok : (parse "%start A%%A:|B|;" .default).isOk := by decide +kernel
  obtain ⟨g, hg⟩ := exists_parse_of_isOk hok
  obtain ⟨hfile, -, -, htokens, -⟩ := (parse_ok_iff_derives hlex .default).2 g hg
  exact ⟨g, hg, hfile, htokens⟩

end GrammarFile
