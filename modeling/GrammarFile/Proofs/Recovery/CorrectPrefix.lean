import GrammarFile.Proofs.Derivation.Parse
import GrammarFile.Proofs.Parsing.Brackets
import GrammarFile.Proofs.Parsing.Locality
import GrammarFile.Proofs.Parsing.Viable
import GrammarFile.Proofs.Recovery.FirstError
import GrammarFile.Proofs.Recovery.Progress

/-!
# The first error is at the first wrong token

The tokens in front of the first error of a source can be completed to a file, and with the token that
is blamed they cannot. Every kind that the error lists is one that they can be completed with. If
instead a bracket is refused, they can be completed with it, and it is one more than may be open.
(`parse_first_error`).

That a token is right is what a run keeps track of as it goes (`Deeper.tracked`). That a token is wrong
follows from running the rule of a file over any completion. The run does not see what stands behind the
token where it ends (`Rule.run_before`), and with more levels of brackets it ends there as well
(`run_file_of_le`), while a file would be read to its end.
-/

namespace GrammarFile

open Rule

/-- Whether some tokens are the first ones of a file that the table derives, of any depth of brackets. -/
def StartsFile (tokens : List Token) : Prop :=
  ∃ d : Derivation, d.IsFile ∧ tokens <+: d.tokens

/-- What is viable for the rule of a file of any number of levels starts a file. -/
theorem startsFile_of_viable {levels : Nat} {us : List LocatedToken}
    (h : Viable (Rules.file levels).Reads us) : StartsFile (us.map (·.token)) := by
  obtain ⟨vs, g, hg⟩ := h
  obtain ⟨hfile, htokens, -⟩ := reads_file_iff.mp ⟨g, hg, rfl⟩
  exact ⟨g.derivation, hfile, htokens ▸ List.map_append ▸ List.prefix_append _ _⟩

/-- The rule of a file with enough levels reads what the table derives. -/
theorem exists_reads_of_isFile {d : Derivation} (hd : d.IsFile) {ts : List LocatedToken}
    (hts : ts.map (·.token) = d.tokens) :
    ∃ levels g, maxNesting ≤ levels ∧ (Rules.file levels).Reads ts g := by
  obtain ⟨levels, hnesting, hlevels⟩ : ∃ levels, d.nesting ≤ levels ∧ maxNesting ≤ levels :=
    ⟨_, Nat.le_max_left d.nesting maxNesting, Nat.le_max_right d.nesting maxNesting⟩
  obtain ⟨g, hg, -⟩ := reads_file_iff.mpr ⟨hd, hts.symm, hnesting⟩
  exact ⟨levels, g, hlevels, hg⟩

/-! ### The token where a run ends -/

/-- Tokens behind those of a start are tokens of the start. -/
theorem Cursor.start_before (us vs : List LocatedToken) :
    (Cursor.start us).before vs = .start (us ++ vs) :=
  rfl

/-- A run that refuses no bracket in front of some tokens, and does not end with a file there, does
not come to the end of the input with others in their place that it cannot tell apart, even if more
levels are allowed. -/
theorem false_of_sameUnlessRefused {o : Outcome Grammar} {vs vs' : List LocatedToken} {g : Grammar}
    {c : Cursor} (hunexpected : (o.before vs).fault.nestingLimit? = none)
    (hfile : ∀ g c, o.before vs = .ok g c → vs' ≠ [])
    (hsame : (o.before vs').SameUnlessRefused (.ok g c)) (hc : c.rest = []) : False := by
  cases o with
  | failed fault d =>
    generalize hfailed : (Outcome.failed fault d : Outcome Grammar).before vs' = o' at hsame
    cases hsame with
    | refused limit =>
      cases hfailed
      cases hunexpected
    | ok => cases hfailed
  | ok g' d =>
    have hnil : d.rest ++ vs' = [] := by
      generalize hok : (Outcome.ok g' d).before vs' = o' at hsame
      cases hsame with
      | refused => cases hok
      | ok =>
        cases hok
        exact hc
    exact hfile g' _ rfl (List.append_eq_nil_iff.mp hnil).2

/-- Where a run of the rule of a file ends without refusing a bracket, and not with a file, no file
goes on with tokens that the run cannot tell apart from those there. -/
theorem not_reads_of_run {few many : Nat} (hlevels : few ≤ many) {us vs vs' : List LocatedToken}
    (hend : ((Rules.file few).run (.start (us ++ vs))).cursor.rest = vs)
    (hblind : Blind vs vs' ((Rules.file few).run (.start (us ++ vs))))
    (hunexpected : ((Rules.file few).run (.start (us ++ vs))).fault.nestingLimit? = none)
    (hfile : ∀ g c, (Rules.file few).run (.start (us ++ vs)) = .ok g c → vs' ≠ []) {g : Grammar} :
    ¬(Rules.file many).Reads (us ++ vs') g := by
  intro hreads
  obtain ⟨tried, hrun⟩ := run_of_reads (decided_file many) hreads .nil (.start (us ++ vs'))
    (List.append_nil _).symm
  have hsame := run_file_of_le hlevels (.start (us ++ vs'))
  rw [← Cursor.start_before us vs] at hend hblind hunexpected hfile
  have hlocal := run_before_of_blind (Rules.file few) hblind
  have hsuffix : vs <:+ ((Rules.file few).run ((Cursor.start us).before vs)).cursor.rest :=
    ⟨[], hend.symm⟩
  obtain ⟨o, ho, ho'⟩ := hlocal hsuffix
  rw [ho] at hunexpected hfile
  rw [Cursor.start_before] at ho'
  rw [hrun, ho'] at hsame
  exact false_of_sameUnlessRefused hunexpected hfile hsame rfl

/-! ### The tokens before it -/

/-- Tokens that can go on to a file with a token start one with it. -/
theorem startsFile_append {levels : Nat} {us : List LocatedToken} {t : Token}
    (h : Viable (Rules.file levels).Reads (us ++ [⟨t, .origin⟩])) :
    StartsFile (us.map (·.token) ++ [t]) := by
  have hstarts := startsFile_of_viable h
  rwa [List.map_append] at hstarts

/-- Before the first token every kind that can come next starts a file. -/
theorem startsFile_of_live {levels : Nat} {ts us : List LocatedToken} {t : Token}
    (h : Live (Rules.file levels).Reads (.start ts) us t.kind) :
    StartsFile (us.map (·.token) ++ [t]) := by
  rcases h with ⟨-, hmem⟩ | h
  · exact absurd hmem List.not_mem_nil
  · exact startsFile_append (h ⟨t, .origin⟩ rfl)

/-- What a run of the rule of a file has passed over where it ends starts a file, and so it does with
each kind that was looked for there. -/
theorem startsFile_of_run {levels : Nat} {ts : List LocatedToken} {kinds : List TokenKind}
    (h : ((Rules.file levels).run (.start ts)).fault = .unexpected kinds) :
    ∃ us, ts = us ++ ((Rules.file levels).run (.start ts)).cursor.rest ∧ StartsFile (us.map (·.token)) ∧
      ∀ t : Token, t.kind ∈ kinds → StartsFile (us.map (·.token) ++ [t]) := by
  have htracked := (deeper_file levels).tracked (.start ts)
  generalize (Rules.file levels).run (.start ts) = o at h htracked ⊢
  cases htracked with
  | ok us hrest hg hlive =>
    cases h
    exact ⟨us, hrest, startsFile_of_viable (.of_reads hg),
      fun t ht => startsFile_of_live (hlive _ (TokenKind.mem_sort.mp ht))⟩
  | unexpected us hrest hviable hlive =>
    cases h
    exact ⟨us, hrest, startsFile_of_viable hviable, fun t ht => startsFile_of_live (hlive _ ht)⟩
  | tooDeep => cases h

/-- Where a run of the rule of a file refuses a bracket, the tokens up to the bracket start a file, and
they leave more brackets open than may be. -/
theorem startsFile_of_refused {levels limit : Nat} {ts : List LocatedToken}
    (h : ((Rules.file (levels + 1)).run (.start ts)).fault = .tooDeep limit) :
    limit = maxNesting ∧ ∃ us t, ts = us ++ ((Rules.file (levels + 1)).run (.start ts)).cursor.rest ∧
      ((Rules.file (levels + 1)).run (.start ts)).cursor.rest.head? = some t ∧
      StartsFile ((us ++ [t]).map (·.token)) ∧
      (openBrackets ((us ++ [t]).map (·.token))).length = levels + 2 := by
  have htracked := (deeper_file (levels + 1)).tracked (.start ts)
  have hnests := fun (limit : Nat) (c : Cursor)
    (hrun : (Rules.file (levels + 1)).run (.start ts) = .failed (.tooDeep limit) c) =>
      (Nests.file levels).refused hrun
  generalize (Rules.file (levels + 1)).run (.start ts) = o at h htracked hnests ⊢
  cases htracked with
  | ok => cases h
  | unexpected => cases h
  | @tooDeep us t _ c hrest hhead hviable =>
    obtain ⟨hlimit, us', hrest', t', hhead', hlength⟩ := hnests _ c rfl
    cases h
    obtain rfl : us = us' := List.append_cancel_right (hrest.symm.trans hrest')
    obtain rfl : t = t' := Option.some.inj (hhead.symm.trans hhead')
    refine ⟨hlimit, us, t, hrest, hhead, startsFile_of_viable hviable, ?_⟩
    have hopen := hlength []
    rw [List.length_nil, Nat.zero_add] at hopen
    exact hopen

/-! ### The first error of a source -/

/-- Where a run ends that refuses no bracket, no file goes on with a token of the kind that is there, or
of a kind that the run does not list. -/
theorem not_startsFile_of_run {ts us : List LocatedToken} {t : Token}
    (hts : ts = us ++ ((Rules.file maxNesting).run (.start ts)).cursor.rest)
    (hunexpected : ((Rules.file maxNesting).run (.start ts)).fault.nestingLimit? = none)
    (ht : ((Rules.file maxNesting).run (.start ts)).cursor.rest.head?.map (·.token.kind) = some t.kind ∨
      t.kind ∉ ((Rules.file maxNesting).run (.start ts)).fault.expected) :
    ¬StartsFile (us.map (·.token) ++ [t]) := by
  rintro ⟨d, hd, more, hmore⟩
  generalize hend : ((Rules.file maxNesting).run (.start ts)).cursor.rest = vs at hts ht
  subst hts
  let vs' : List LocatedToken := ⟨t, .origin⟩ :: more.map (⟨·, .origin⟩)
  have htokens : (us ++ vs').map (·.token) = d.tokens := by
    simp only [← hmore, vs', List.map_append, List.map_cons, List.map_map, List.append_assoc,
      List.singleton_append, Function.comp_def, List.map_id']
  have hblind : Blind vs vs' ((Rules.file maxNesting).run (.start (us ++ vs))) := by
    refine ht.imp id fun hunlisted => ⟨hunexpected, fun _ u hu => ?_⟩
    obtain rfl := Option.some.inj hu
    exact hunlisted
  obtain ⟨levels, g, hlevels, hg⟩ := exists_reads_of_isFile hd htokens
  exact not_reads_of_run hlevels hend hblind hunexpected (fun _ _ _ => List.cons_ne_nil _ _) hg

/-- No file ends with the last token of a source that ends too early. -/
theorem not_isFile_of_run {ts : List LocatedToken}
    (hend : ((Rules.file maxNesting).run (.start ts)).cursor.rest = [])
    (hunexpected : ((Rules.file maxNesting).run (.start ts)).fault.nestingLimit? = none)
    (hfile : ∀ c, c.rest = [] → (Rules.file maxNesting).check (.start ts) ≠ .ok () c) :
    ¬∃ d : Derivation, d.IsFile ∧ d.tokens = ts.map (·.token) := by
  rintro ⟨d, hd, htokens⟩
  obtain ⟨levels, g, hlevels, hg⟩ := exists_reads_of_isFile hd htokens.symm
  rw [← List.append_nil ts] at hend hunexpected hfile hg
  refine not_reads_of_run hlevels hend (.inl rfl) hunexpected (fun g c hrun => ?_) hg
  rw [hrun] at hend
  exact absurd (check_eq_ok hrun) (hfile c hend)

/-- Whether the first error of some tokens is right about what comes after `before`, which are those in
front of it. The token that was found there is wrong, or nothing was found and the tokens are no file,
and every token of a kind that was expected is right. Or else that token opens a bracket, which is right
but for being one too many. -/
def RightAfter (tokens before : List Token) (found : Option Token) : Fault → Prop
  | .unexpected expected =>
    StartsFile before ∧ (∀ t, found = some t → ¬StartsFile (before ++ [t])) ∧
      (found = none → ¬∃ d : Derivation, d.IsFile ∧ d.tokens = tokens) ∧
      ∀ t : Token, t.kind ∈ expected → StartsFile (before ++ [t])
  | .tooDeep limit =>
    limit = maxNesting ∧ ∃ t, found = some t ∧ StartsFile (before ++ [t]) ∧
      maxNesting < (openBrackets (before ++ [t])).length

/-- The first error that a reading reports is right about the tokens in front of it. -/
theorem parseTokens_rightAfter {context : ParseContext} {ts : List LocatedToken}
    {errors : List ParseError} (h : parseTokens context ts = .error errors) :
    ∃ e others us vs, errors = e :: others ∧ ts = us ++ vs ∧ e.blamed? = vs.head? ∧
      RightAfter (ts.map (·.token)) (us.map (·.token)) e.found e.fault := by
  obtain ⟨fault, ⟨c, others, rfl, hrest⟩, hlimit, hexpected⟩ := parseTokens_first_error h
  have hblamed := context.blamed?_blame fault c
  have hfound : (context.blame fault c).found = c.rest.head?.map (·.token) := rfl
  rw [hrest] at hblamed hfound
  cases hfault : ((Rules.file maxNesting).run (.start ts)).fault with
  | unexpected kinds =>
    obtain ⟨us, hts, hbefore, hkinds⟩ := startsFile_of_run hfault
    have hunexpected : ((Rules.file maxNesting).run (.start ts)).fault.nestingLimit? = none :=
      congrArg Fault.nestingLimit? hfault
    rw [hfault] at hlimit hexpected
    refine ⟨_, others, us, _, rfl, hts, hblamed, ?_⟩
    cases fault with
    | tooDeep limit => cases hlimit
    | unexpected expected =>
      refine ⟨hbefore, fun t ht => ?_, fun hnone => ?_, fun t ht => hkinds t ((hexpected _).mp ht).1⟩
      · rw [hfound, Option.map_eq_some_iff] at ht
        obtain ⟨v, hv, rfl⟩ := ht
        exact not_startsFile_of_run hts hunexpected (.inl (by rw [hv]; rfl))
      · rw [hfound, Option.map_eq_none_iff, List.head?_eq_none_iff] at hnone
        exact not_isFile_of_run hnone hunexpected fun c hc => check_file_ne_ok h hc
  | tooDeep limit =>
    obtain ⟨n, hn⟩ : ∃ n, maxNesting = n + 1 := ⟨63, rfl⟩
    rw [hfault] at hlimit
    rw [hn] at hfault
    obtain ⟨rfl, us, t, hts, hhead, hbefore, hopen⟩ := startsFile_of_refused hfault
    rw [← hn] at hts hhead
    refine ⟨_, others, us, _, rfl, hts, hblamed, ?_⟩
    cases fault with
    | unexpected expected => cases hlimit
    | tooDeep limit =>
      rw [List.map_append] at hbefore hopen
      refine ⟨Option.some.inj hlimit, t.token, ?_, hbefore, ?_⟩
      · rw [hfound, hhead, Option.map_some]
      · exact Nat.lt_of_lt_of_eq (Nat.lt_succ_iff.mpr (Nat.le_of_eq hn)) hopen.symm

/-- What the first error says fits the tokens in front of the one that is blamed. -/
theorem parseTokens_rightAfter_take {context : ParseContext} {ts : List LocatedToken}
    {errors : List ParseError} (h : parseTokens context ts = .error errors) :
    ∃ e others p, errors = e :: others ∧ p ≤ ts.length ∧ e.blamed? = ts[p]? ∧
      RightAfter (ts.map (·.token)) ((ts.map (·.token)).take p) e.found e.fault := by
  obtain ⟨e, others, us, vs, rfl, hts, hblamed, hright⟩ := parseTokens_rightAfter h
  have htake : (ts.map (·.token)).take us.length = us.map (·.token) := by
    rw [hts, List.map_append, List.take_left' (List.length_map _)]
  refine ⟨e, others, us.length, rfl, ?_, ?_, ?_⟩
  · rw [hts, List.length_append]
    exact Nat.le_add_right _ _
  · rw [hblamed, hts, List.getElem?_append_right (Nat.le_refl _), Nat.sub_self, List.head?_eq_getElem?]
  · rwa [htake]

/-- **The first error of a source is right about the tokens in front of it.** They start a file, however
deep its brackets. With the token that is blamed they do not, or at the end of the input they are no
file, and with every token of a kind that is expected they do. Where a bracket is refused instead, the
tokens up to it start a file, and more brackets are open there than may be. -/
theorem parse_first_error {source : String} {lexemes : List Lexeme} (hlex : lex source = .ok lexemes)
    {options : ParserOptions} {errors : List ParseError}
    (h : parse source options = .error (.parse errors)) :
    let tokens := lexemes.map (·.token)
    ∃ e others p, errors = e :: others ∧ p ≤ tokens.length ∧
      e.blamed? = (locate (.ofSource source) lexemes)[p]? ∧
      RightAfter tokens (tokens.take p) e.found e.fault := by
  obtain ⟨e, others, p, rfl, hp, hblamed, hright⟩ :=
    parseTokens_rightAfter_take ((parse_eq_error_of_lex hlex).mp h)
  rw [map_token_locate] at hright
  refine ⟨e, others, p, rfl, ?_, hblamed, hright⟩
  rw [List.length_map]
  rwa [locate, List.length_map] at hp

/-- A bracket that closes none is wrong, and so many kinds are right: those that a symbol, an
alternation or the production can go on with. -/
theorem parse_first_error_stray_bracket :
    ∃ lexemes errors, lex "%start A%%A:B)" = .ok lexemes ∧
      parse "%start A%%A:B)" .default = .error (.parse errors) ∧
      errors.map (fun e => (e.found, e.fault.expected.length)) = [(some (.mark .rightParen), 13)] ∧
      let tokens := lexemes.map (·.token)
      ∃ e others p, errors = e :: others ∧ p ≤ tokens.length ∧
        e.blamed? = (locate (.ofSource "%start A%%A:B)") lexemes)[p]? ∧
        RightAfter tokens (tokens.take p) e.found e.fault := by
  have hlex : lex "%start A%%A:B)" =
      .ok [⟨.mark .start, ⟨0, 6⟩⟩, ⟨.identifier "A", ⟨7, 8⟩⟩, ⟨.mark .percentPercent, ⟨8, 10⟩⟩,
        ⟨.identifier "A", ⟨10, 11⟩⟩, ⟨.mark .colon, ⟨11, 12⟩⟩, ⟨.identifier "B", ⟨12, 13⟩⟩,
        ⟨.mark .rightParen, ⟨13, 14⟩⟩] := by
    decide +kernel
  have herrors : (match parse "%start A%%A:B)" .default with
      | .error e => e.parseErrors.map fun e => (e.found, e.fault.expected.length)
      | .ok _ => []) = [(some (.mark .rightParen), 13)] := by
    decide +kernel
  cases hparse : parse "%start A%%A:B)" .default with
  | ok g =>
    rw [hparse] at herrors
    cases herrors
  | error e =>
    rw [hparse] at herrors
    cases e with
    | lexical e => cases herrors
    | parse errors => exact ⟨_, errors, hlex, rfl, herrors, parse_first_error hlex hparse⟩

end GrammarFile
