import GrammarFile.Proofs.Lint.Occurrence
import GrammarFile.Proofs.Locations.Order
import GrammarFile.Proofs.Locations.Ranges
import GrammarFile.Proofs.Walk.Nodes
import GrammarFile.Proofs.Walk.Tokens
import GrammarFile.Proofs.WellFormed

/-!
# A walk and the names behind `%%`

Behind `%%`, a name is that of a production or of a non-terminal, or it stands for something else: a
scanner state between angle brackets, a member behind `@`, a part of a type behind a colon or a
double colon. Which of them it is can be told from the tokens in front of it, read from the left
with a little memory (`Spot`).

The names that are left when the others are passed over are those that a walk visits, with the
productions and with the non-terminals in their bodies (`Production.names_tokens`,
`Production.filterMap_name?_walk`). With the brackets and literals and with the nodes of the
outline, that is what a walk shows of a file that is parsed (`walk_of_parse`).
-/

namespace GrammarFile

/-! ### Names among tokens -/

/-- A spot behind `%%`, as the tokens in front of it tell. -/
inductive Spot where
  /-- Where a production starts, with its name. -/
  | production
  /-- Behind the name of a production, where its colon is. -/
  | colon
  /-- In a body. -/
  | body
  /-- Between angle brackets, where scanner states are named. -/
  | states
  /-- Behind `@`, a colon or a double colon in a body, where a member or a part of a type is named. -/
  | control

namespace Spot

/-- The spot behind a token. -/
def after : Spot → Token → Spot
  | production, _ => colon
  | colon, _ => body
  | control, _ => body
  | states, .mark .greaterThan => body
  | states, _ => states
  | body, .mark .lessThan => states
  | body, .mark .atSign => control
  | body, .mark .colon => control
  | body, .mark .doubleColon => control
  | body, .mark .semicolon => production
  | body, _ => body

/-- The name of a production or a non-terminal that a token is. -/
def name? : Spot → Token → Option String
  | production, .identifier name => some name
  | body, .identifier name => some name
  | _, _ => none

/-- The names of productions and non-terminals among tokens, as they stand behind a spot. -/
def names : Spot → List Token → List String
  | _, [] => []
  | spot, t :: ts => (spot.name? t).toList ++ (spot.after t).names ts

variable (ts : List Token)

/-- A literal in a body is passed over. -/
@[simp]
theorem names_literal (l : Literal) : body.names (l.token :: ts) = body.names ts :=
  rfl

/-- An identifier in a body is the name of a non-terminal. -/
@[simp]
theorem names_identifier (i : Identifier) : body.names (i.token :: ts) = i.name :: body.names ts :=
  rfl

/-- The operator of a look-ahead is passed over. -/
@[simp]
theorem names_operator (kind : LookAheadKind) :
    body.names (.mark kind.operator :: ts) = body.names ts := by
  cases kind <;> rfl

/-- A left bracket is passed over. -/
@[simp]
theorem names_left (kind : BracketKind) : body.names (.mark kind.left :: ts) = body.names ts := by
  cases kind <;> rfl

/-- A right bracket is passed over. -/
@[simp]
theorem names_right (kind : BracketKind) : body.names (.mark kind.right :: ts) = body.names ts := by
  cases kind <;> rfl

/-- Nothing between angle brackets is the name of a non-terminal. -/
theorem names_states (is : IdentifierList) :
    body.names (.mark .lessThan :: (is.tokens ++ .mark .greaterThan :: ts)) = body.names ts := by
  have hmore : ∀ more : List Identifier,
      states.names ((more.flatMap fun j => [.mark .comma, j.token]) ++ .mark .greaterThan :: ts) =
        body.names ts := by
    intro more
    induction more with
    | nil => rfl
    | cons j more ih => exact ih
  obtain ⟨identifiers, range⟩ := is
  cases identifiers with
  | nil => rfl
  | cons i more => exact hmore more

/-- No part of a type is the name of a non-terminal. -/
theorem names_typeAnnotation {a : TypeAnnotation} (h : a.typeName.segments ≠ []) :
    body.names (a.tokens ++ ts) = body.names ts := by
  have hmore : ∀ more : List Identifier,
      body.names ((more.flatMap fun j => [.mark .doubleColon, j.token]) ++ ts) = body.names ts := by
    intro more
    induction more with
    | nil => rfl
    | cons j more ih => exact ih
  obtain ⟨⟨segments, inner⟩, range⟩ := a
  cases segments with
  | nil => exact absurd rfl h
  | cons i more => exact hmore more

end Spot

/-! ### Symbols -/

/-- What is written after a symbol names no non-terminal. -/
theorem TreeControl.names_tokens {c : TreeControl} (h : c.kind.WellFormed) (ts : List Token) :
    Spot.body.names (c.tokens ++ ts) = Spot.body.names ts := by
  obtain ⟨kind, range⟩ := c
  cases kind with
  | cut => rfl
  | member name type =>
    have hname :
        Spot.body.names
          (.mark .atSign :: name.identifier.token :: (type.elim [] (·.tokens) ++ ts)) =
        Spot.body.names (type.elim [] (·.tokens) ++ ts) := rfl
    refine hname.trans ?_
    cases type with
    | none => rfl
    | some a => exact Spot.names_typeAnnotation ts (h.2 a rfl).nonempty
  | typed a => exact Spot.names_typeAnnotation ts h.nonempty

/-- A terminal names nothing. -/
theorem Terminal.names_tokens (t : Terminal) (ts : List Token) :
    Spot.body.names (t.tokens ++ ts) = Spot.body.names ts := by
  obtain ⟨literal, lookAhead, range⟩ := t
  cases lookAhead with
  | none => rfl
  | some a => simp [tokens, LookAhead.tokens]

/-- **The name among the tokens of a symbol is that of the non-terminal that it is.** -/
theorem Symbol.names_tokens {s : Symbol} (h : s.WellFormed) (ts : List Token) :
    Spot.body.names (s.tokens ++ ts) = s.nonTerminal?.toList.map (·.name) ++ Spot.body.names ts := by
  obtain ⟨kind, control, range⟩ := s
  have hcontrol : Spot.body.names (control.elim [] (·.tokens) ++ ts) = Spot.body.names ts := by
    cases control with
    | none => rfl
    | some c => exact TreeControl.names_tokens (h.control c rfl) ts
  rw [tokens, List.append_assoc]
  cases kind with
  | nonTerminal i => simp [SymbolKind.tokens, nonTerminal?, hcontrol]
  | terminal t => simp [SymbolKind.tokens, nonTerminal?, t.names_tokens, hcontrol]
  | terminalIn states t =>
    simp [SymbolKind.tokens, nonTerminal?, Spot.names_states, t.names_tokens, hcontrol]

/-! ### Bodies -/

/-- The pipes of a body name nothing. -/
theorem names_tokensAfterPipe (as : List Alternation) (ts : List Token) :
    Spot.body.names (tokensAfterPipe as ++ ts) = Spot.body.names (tokensOfBody as ++ ts) := by
  cases as with
  | nil => rfl
  | cons a as => rfl

mutual

/-- **The names among the tokens of a factor are those of its non-terminals.** -/
theorem Factor.names_tokens : (f : Factor) → (∀ s ∈ f.symbols, s.WellFormed) → (ts : List Token) →
    Spot.body.names (f.tokens ++ ts) =
      (f.symbols.filterMap (·.nonTerminal?)).map (·.name) ++ Spot.body.names ts
  | .symbol s, h, ts => by
    rw [Factor.tokens, Symbol.names_tokens (h s List.mem_cons_self)]
    cases hkind : s.nonTerminal? <;> simp [Factor.symbols, hkind]
  | .bracketed kind none r, h, ts => by
    simp [Factor.tokens, Factor.symbols]
  | .bracketed kind (some ⟨as, inner⟩) r, h, ts => by
    simp [Factor.tokens, Factor.symbols, names_tokensOfBody as h]

/-- A body names the non-terminals among its symbols, in order. -/
theorem names_tokensOfBody : (as : List (AlternationOf Factor)) → (∀ s ∈ bodySymbols as, s.WellFormed) →
    (ts : List Token) → Spot.body.names (tokensOfBody as ++ ts) =
      ((bodySymbols as).filterMap (·.nonTerminal?)).map (·.name) ++ Spot.body.names ts
  | [], h, ts => rfl
  | ⟨fs, r⟩ :: as, h, ts => by
    rw [bodySymbols] at h
    obtain ⟨hfirst, hrest⟩ := List.forall_mem_append.mp h
    simp [tokensOfBody, bodySymbols, names_tokensOfFactors fs hfirst, names_tokensAfterPipe,
      names_tokensOfBody as hrest]

/-- Factors name the non-terminals among their symbols, in order. -/
theorem names_tokensOfFactors : (fs : List Factor) → (∀ s ∈ factorSymbols fs, s.WellFormed) →
    (ts : List Token) → Spot.body.names (tokensOfFactors fs ++ ts) =
      ((factorSymbols fs).filterMap (·.nonTerminal?)).map (·.name) ++ Spot.body.names ts
  | [], h, ts => rfl
  | f :: fs, h, ts => by
    rw [factorSymbols] at h
    obtain ⟨hfirst, hrest⟩ := List.forall_mem_append.mp h
    simp [tokensOfFactors, factorSymbols, f.names_tokens hfirst, names_tokensOfFactors fs hrest]

end

/-- The symbols of a well-formed factor are well-formed. -/
theorem Factor.Holds.wellFormed {f : Factor} {s : Symbol} (h : f.Holds s) (hf : f.WellFormed) :
    s.WellFormed := by
  induction h with
  | symbol =>
    obtain ⟨hs⟩ := hf
    exact hs
  | bracketed halternation hfactor _ ih =>
    cases hf with
    | body _ hfactors => exact ih (hfactors _ halternation _ hfactor)

namespace Production

variable {p : Production}

/-- The symbols of a well-formed production are well-formed. -/
theorem WellFormed.symbols (h : p.WellFormed) : ∀ s ∈ p.symbols, s.WellFormed := by
  intro s hs
  obtain ⟨a, ha, f, hf, hholds⟩ := mem_symbols_iff.mp hs
  unfold alternations at ha
  cases hbody : p.body with
  | none => simp [hbody] at ha
  | some b =>
    rw [hbody] at ha
    exact hholds.wellFormed ((h.body b hbody).factors a ha f hf)

/-- **The names among the tokens of a production are its own and those of the non-terminals in its
body.** -/
theorem names_tokens (h : p.WellFormed) (ts : List Token) :
    Spot.production.names (p.tokens ++ ts) = p.identifiers.map (·.name) ++ Spot.production.names ts := by
  have hbody : ∀ us, Spot.body.names (p.body.elim [] AlternationsOf.tokens ++ us) =
      p.references.map (·.name) ++ Spot.body.names us := by
    intro us
    have hsymbols := h.symbols
    rw [references]
    unfold symbols alternations at hsymbols ⊢
    cases hb : p.body with
    | none => rfl
    | some b =>
      rw [hb] at hsymbols
      exact names_tokensOfBody b.alternations hsymbols us
  have hpipe : ∀ us, Spot.body.names ((if p.leadingPipe then [.mark .pipe] else []) ++ us) =
      Spot.body.names us := by
    intro us
    cases p.leadingPipe <;> rfl
  have hname : ∀ us, Spot.production.names (p.name.token :: .mark .colon :: us) =
      p.name.name :: Spot.body.names us := fun _ => rfl
  simp [tokens, identifiers, hname, hpipe, hbody]
  rfl

end Production

/-- Productions name themselves and the non-terminals in their bodies, in order. -/
theorem names_flatMap_tokens {ps : List Production} (h : ∀ p ∈ ps, p.WellFormed) :
    Spot.production.names (ps.flatMap (·.tokens)) = (ps.flatMap (·.identifiers)).map (·.name) := by
  induction ps with
  | nil => rfl
  | cons p ps ih =>
    obtain ⟨hp, hps⟩ := List.forall_mem_cons.mp h
    rw [List.flatMap_cons, List.flatMap_cons, Production.names_tokens hp, ih hps, List.map_append]

/-! ### Names that are visited -/

namespace Visit

/-- The name that is visited with a production or a non-terminal. -/
def name? : Visit → Option Identifier
  | enterProduction p => some p.name
  | symbol s => s.nonTerminal?
  | _ => none

end Visit

/-- A walk names a production, and then the non-terminals in its body. -/
theorem Production.filterMap_name?_walk (p : Production) :
    p.walk.filterMap Visit.name? = p.identifiers := by
  have hframes : ∀ v : Visit, v.isFrame → v.name?.toList = [] := by
    intro v hv
    cases v <;> simp_all [Visit.isFrame, Visit.name?]
  have hsymbols : ∀ s : Symbol, s.walk.flatMap (·.name?.toList) = s.nonTerminal?.toList := by
    intro s
    have hliterals : (s.literals.flatMap fun l => (Visit.literal l).name?.toList) = [] :=
      List.flatMap_eq_nil_iff.mpr fun _ _ => rfl
    rw [Symbol.walk, List.flatMap_cons, List.flatMap_map, hliterals, List.append_nil]
    rfl
  rw [List.filterMap_eq_flatMap_toList, p.pick_walk hframes, List.flatMap_congr fun s _ => hsymbols s,
    ← List.filterMap_eq_flatMap_toList]
  exact congrArg (p.name :: ·) (List.append_nil _)

/-- A walk shows the identifiers of the productions, in order. -/
theorem Grammar.filterMap_name?_walk (g : Grammar) :
    g.walk.filterMap Visit.name? = g.productions.flatMap (·.identifiers) := by
  have houtside : ∀ v : Visit, v.isOutside → v.name?.toList = [] := by
    intro v hv
    cases v <;> simp_all [Visit.isOutside, Visit.name?]
  have hdirectives : (g.directives.flatMap fun d => (Visit.directive d).name?.toList) = [] :=
    List.flatMap_eq_nil_iff.mpr fun _ _ => rfl
  rw [List.filterMap_eq_flatMap_toList, g.pick_walk houtside, hdirectives, List.nil_append]
  simp only [← List.filterMap_eq_flatMap_toList, Production.filterMap_name?_walk]

/-! ### In front of `%%` -/

/-- There is no `%%` among names with other separators. -/
theorem percentPercent_not_mem_tokensBetween {separator : Mark} (h : separator ≠ .percentPercent)
    (is : List Identifier) : .mark .percentPercent ∉ tokensBetween separator is := by
  intro hmem
  exact forall_mem_tokensBetween (P := (· ≠ .mark .percentPercent)) (by simp [h])
    (by simp [Identifier.token]) is _ hmem rfl

/-- There is no `%%` in a directive. -/
theorem Directive.percentPercent_not_mem (d : Directive) : .mark .percentPercent ∉ d.tokens := by
  obtain ⟨kind, range⟩ := d
  cases kind with
  | on terminals switch =>
    have hterminals : .mark .percentPercent ∉ tokensBetween .comma terminals.identifiers :=
      percentPercent_not_mem_tokensBetween (by decide) _
    obtain ⟨kind, range⟩ := switch
    cases kind <;>
      simp [tokens, keyword, IdentifierList.tokens, hterminals, StateSwitch.tokens, StateSwitch.keyword,
        StateSwitch.target?, Identifier.token]
  | _ => simp [tokens, keyword, Literal.token]

/-- There is no `%%` in a declaration. -/
theorem Declaration.percentPercent_not_mem (d : Declaration) : .mark .percentPercent ∉ d.tokens := by
  obtain ⟨kind, range⟩ := d
  have htype : ∀ t : TypeName, .mark .percentPercent ∉ tokensBetween .doubleColon t.segments :=
    fun _ => percentPercent_not_mem_tokensBetween (by decide) _
  cases kind with
  | scanner directive => exact directive.percentPercent_not_mem
  | _ => simp [tokens, keyword, Literal.token, Identifier.token, TypeName.tokens, htype]

/-- There is no `%%` in a prolog, so the definition starts with the first one of a file. -/
theorem Prolog.percentPercent_not_mem (p : Prolog) : .mark .percentPercent ∉ p.tokens := by
  simp [tokens, StartDeclaration.tokens, ScannerState.tokens, Identifier.token,
    Declaration.percentPercent_not_mem, Directive.percentPercent_not_mem]

/-! ### Parsed grammars -/

/-- **A walk shows each node of a file once, in the order of the source and nested like its text.**
What is entered is left again, and in between all that is entered inside of it. The calls go around
the outline, and each node lies inside of those entered before, or behind them. In particular the
calls for brackets and literals spell the brackets and literals among the tokens behind `%%`, and
the calls for productions and non-terminals name the names there that stand for no scanner state,
member or type. -/
theorem walk_of_parse {source : String} {options : ParserOptions} {g : Grammar}
    (h : parse source options = .ok g) :
    ∃ lexemes before behind, lex source = .ok lexemes ∧
      lexemes.map (·.token) = before ++ .mark .percentPercent :: behind ∧ .mark .percentPercent ∉ before ∧
      Visit.Nested g.walk ∧
      g.walk.map Visit.step = .enter "parol" g.range ::
        (g.prolog.outline.tour.filter (TourStep.isTold prologNodeTypes) ++
          g.definition.outline.tour.filter (TourStep.isTold bodyNodeTypes) ++ [.leave "parol" g.range]) ∧
      ((g.walk.map Visit.step).filterMap TourStep.entered?).Pairwise Range.Precedes ∧
      g.walk.filterMap Visit.token? = behind.filter Token.isBracketOrLiteral ∧
      (g.walk.filterMap Visit.name?).map (·.name) = Spot.production.names behind := by
  obtain ⟨lexemes, hlex, htokens⟩ := tokens_eq_of_parse h
  have hsplit : lexemes.map (·.token) =
      g.prolog.tokens ++ .mark .percentPercent :: g.productions.flatMap (·.tokens) := htokens.symm
  obtain ⟨lexemes', hlex', hreads⟩ := parse_eq_ok_iff.mp h
  have hwellFormed := wellFormed_of_reads hlex' hreads
  obtain ⟨-, hplaced⟩ := covers_of_reads_file hreads (spaced_of_lex hlex')
  refine ⟨lexemes, _, _, hlex, hsplit, g.prolog.percentPercent_not_mem, g.nested_walk,
    g.map_step_walk, ?_, g.filterMap_walk, ?_⟩
  · exact hplaced.pairwise_entered.sublist (g.map_step_walk_sublist.filterMap _)
  · rw [g.filterMap_name?_walk, names_flatMap_tokens hwellFormed.productions]

/-- A file with a look-ahead, brackets in each other and a body that is empty. -/
def everyBracket : String :=
  "%start A%line_comment/c/%scanner S\x7b%on X%enter S\x7d%%" ++
    "A:|B@m:T::U<S>/x/?=\"y\"([A^]|\x7b\x7d);B:;"

/-- A walk passes over the literal of a directive, a scanner state, a member and a type. -/
theorem walk_of_parse_brackets :
    ∃ g, parse everyBracket .default = .ok g ∧
      (g.walk.filterMap Visit.token?).map (·.text) =
        ["/x/", "\"y\"", "(", "[", "]", "\x7b", "\x7d", ")"] ∧
      (g.walk.filterMap Visit.name?).map (·.name) = ["A", "B", "A", "B"] ∧
      ∃ lexemes before behind,
        lex everyBracket = .ok lexemes ∧
        lexemes.map (·.token) = before ++ .mark .percentPercent :: behind ∧
        .mark .percentPercent ∉ before ∧
        Visit.Nested g.walk ∧
        g.walk.map Visit.step = .enter "parol" g.range ::
          (g.prolog.outline.tour.filter (TourStep.isTold prologNodeTypes) ++
            g.definition.outline.tour.filter (TourStep.isTold bodyNodeTypes) ++
              [.leave "parol" g.range]) ∧
        ((g.walk.map Visit.step).filterMap TourStep.entered?).Pairwise Range.Precedes ∧
        g.walk.filterMap Visit.token? = behind.filter Token.isBracketOrLiteral ∧
        (g.walk.filterMap Visit.name?).map (·.name) = Spot.production.names behind := by
  have hok : (parse everyBracket .default).isOk := by decide +kernel
  have hwalk : (parse everyBracket .default).map (fun g =>
      ((g.walk.filterMap Visit.token?).map (·.text), (g.walk.filterMap Visit.name?).map (·.name))) =
      .ok (["/x/", "\"y\"", "(", "[", "]", "\x7b", "\x7d", ")"], ["A", "B", "A", "B"]) := by
    decide +kernel
  obtain ⟨g, hg⟩ := exists_parse_of_isOk hok
  rw [hg] at hwalk
  obtain ⟨htexts, hnames⟩ := Prod.mk.inj (Except.ok.inj hwalk)
  exact ⟨g, hg, htexts, hnames, walk_of_parse hg⟩

end GrammarFile
