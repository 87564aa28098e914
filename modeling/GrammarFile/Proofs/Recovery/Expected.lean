import GrammarFile.Proofs.Recovery.CorrectPrefix
import GrammarFile.Proofs.Recovery.Segments

/-!
# Which kinds the first error lists

Where a run of the rule of a file ends, it lists just the kinds of the tokens that a file can go on with
there. Such a kind is listed because it was looked for (`startsFile_of_run`). And a kind that is not
listed was not looked for, so the run would end there before a token of that kind as well
(`not_startsFile_of_run`).

The first error of a source lists the same kinds, with one exception (`parse_first_error_expected`). The
loop over the prolog ends at the end of the input before it looks for another declaration or scanner
state. So the error of a source that stops behind a whole prolog asks for `%%` and for what the last part
of the prolog can go on with, and leaves out the kinds that another part of the prolog would start with.
-/

namespace GrammarFile

open Rule

/-- The first error that a reading reports lists the kinds that a file can go on with, but for those that
start a part of the prolog where the tokens are a whole prolog. -/
theorem parseTokens_expected {context : ParseContext} {ts : List LocatedToken} {errors : List ParseError}
    (h : parseTokens context ts = .error errors) :
    ∃ e others us vs, errors = e :: others ∧ ts = us ++ vs ∧ e.blamed? = vs.head? ∧
      (e.fault.nestingLimit? = none → ∀ t : Token, t.kind ∈ e.fault.expected ↔
        StartsFile (us.map (·.token) ++ [t]) ∧
          ¬(IsProlog (ts.map (·.token)) ∧ t.kind ∈ (prologItem true).first)) := by
  obtain ⟨fault, ⟨c, others, rfl, hrest⟩, hlimit, hexpected⟩ := parseTokens_first_error h
  obtain ⟨us, hts⟩ := rest_suffix_of_run (Rules.file maxNesting) (.start ts)
  have hts : ts = us ++ ((Rules.file maxNesting).run (.start ts)).cursor.rest := hts.symm
  have hblamed := context.blamed?_blame fault c
  rw [hrest] at hblamed
  refine ⟨_, others, us, _, rfl, hts, hblamed, fun hnone t => ?_⟩
  have hunexpected : ((Rules.file maxNesting).run (.start ts)).fault.nestingLimit? = none :=
    hlimit.symm.trans hnone
  have hlisted : t.kind ∈ ((Rules.file maxNesting).run (.start ts)).fault.expected ↔
      StartsFile (us.map (·.token) ++ [t]) := by
    constructor
    · intro hkind
      cases hfault : ((Rules.file maxNesting).run (.start ts)).fault with
      | tooDeep limit =>
        rw [hfault] at hkind
        cases hkind
      | unexpected kinds =>
        obtain ⟨us', hts', -, hstarts⟩ := startsFile_of_run hfault
        obtain rfl : us = us' := List.append_cancel_right (hts.symm.trans hts')
        rw [hfault] at hkind
        exact hstarts t hkind
    · intro hstarts
      by_contra hunlisted
      exact not_startsFile_of_run hts hunexpected (.inr hunlisted) hstarts
  rw [isProlog_iff]
  exact (hexpected t.kind).trans (and_congr_left' hlisted)

/-- The place among the tokens of a source where some of them end. -/
theorem position_of_append {index : LineIndex} {lexemes : List Lexeme} {us vs : List LocatedToken}
    (h : locate index lexemes = us ++ vs) :
    us.length ≤ (lexemes.map (·.token)).length ∧ vs.head? = (locate index lexemes)[us.length]? ∧
      (lexemes.map (·.token)).take us.length = us.map (·.token) := by
  have htokens : lexemes.map (·.token) = us.map (·.token) ++ vs.map (·.token) := by
    rw [← map_token_locate index, h, List.map_append]
  refine ⟨?_, ?_, ?_⟩
  · rw [htokens, List.length_append, List.length_map]
    exact Nat.le_add_right _ _
  · rw [h, List.getElem?_append_right (Nat.le_refl _), Nat.sub_self, List.head?_eq_getElem?]
  · rw [htokens, List.take_left' (List.length_map _)]

/-- **The first error of a source lists every kind that could stand there, unless the source stops behind
a whole prolog.** If it refuses no bracket, then it lists just the kinds of the tokens with which the
tokens in front of it start a file. Only where the tokens of the source are a whole prolog, those kinds
are left out that a further declaration or scanner state would start with. -/
theorem parse_first_error_expected {source : String} {lexemes : List Lexeme}
    (hlex : lex source = .ok lexemes) {options : ParserOptions} {errors : List ParseError}
    (h : parse source options = .error (.parse errors)) :
    let tokens := lexemes.map (·.token)
    ∃ e others p, errors = e :: others ∧ p ≤ tokens.length ∧
      e.blamed? = (locate (.ofSource source) lexemes)[p]? ∧
      (e.fault.nestingLimit? = none → ∀ t : Token, t.kind ∈ e.fault.expected ↔
        StartsFile (tokens.take p ++ [t]) ∧ ¬(IsProlog tokens ∧ t.kind ∈ (prologItem true).first)) := by
  obtain ⟨e, others, us, vs, rfl, hts, hblamed, hexpected⟩ :=
    parseTokens_expected ((parse_eq_error_of_lex hlex).mp h)
  obtain ⟨hlength, hhead, htake⟩ := position_of_append hts
  refine ⟨e, others, us.length, rfl, hlength, hblamed.trans hhead, ?_⟩
  rwa [htake, ← map_token_locate (.ofSource source) lexemes]

/-- Behind `%start s` there may be a title, and the error at the end of the input does not list it: it
lists `%%` alone. -/
theorem parse_first_error_expected_title :
    ∃ lexemes errors, lex "%start s" = .ok lexemes ∧
      parse "%start s" .default = .error (.parse errors) ∧
      errors.map (fun e => (e.found, e.fault)) = [(none, .unexpected [.mark .percentPercent])] ∧
      let tokens := lexemes.map (·.token)
      StartsFile (tokens ++ [.mark .title]) ∧
      ∃ e others p, errors = e :: others ∧ p ≤ tokens.length ∧
        e.blamed? = (locate (.ofSource "%start s") lexemes)[p]? ∧
        (e.fault.nestingLimit? = none → ∀ t : Token, t.kind ∈ e.fault.expected ↔
          StartsFile (tokens.take p ++ [t]) ∧ ¬(IsProlog tokens ∧ t.kind ∈ (prologItem true).first)) := by
  have hlex : lex "%start s" = .ok [⟨.mark .start, ⟨0, 6⟩⟩, ⟨.identifier "s", ⟨7, 8⟩⟩] := by
    decide +kernel
  have herrors : (match parse "%start s" .default with
      | .error e => e.parseErrors.map fun e => (e.found, e.fault)
      | .ok _ => []) = [(none, .unexpected [.mark .percentPercent])] := by
    decide +kernel
  have htitle : StartsFile [.mark .start, .identifier "s", .mark .title] := by
    let us : List LocatedToken := [.mark .start, .identifier "s", .mark .title].map (⟨·, .origin⟩)
    let vs : List LocatedToken := [.literal .string "\"x\"", .mark .percentPercent, .identifier "s",
      .mark .colon, .mark .semicolon].map (⟨·, .origin⟩)
    obtain ⟨g, hg⟩ : ∃ g, (Rules.file 0).Reads (us ++ vs) g :=
      (exists_reads_iff (decided_file 0)).mpr (by decide +kernel)
    exact startsFile_of_viable ⟨vs, g, hg⟩
  cases hparse : parse "%start s" .default with
  | ok g =>
    rw [hparse] at herrors
    cases herrors
  | error e =>
    rw [hparse] at herrors
    cases e with
    | lexical e => cases herrors
    | parse errors =>
      exact ⟨_, errors, hlex, rfl, herrors, htitle, parse_first_error_expected hlex hparse⟩

end GrammarFile
