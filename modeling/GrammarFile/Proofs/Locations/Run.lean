import GrammarFile.Proofs.Locations.Erase
import GrammarFile.Proofs.Parsing.FileRule

/-!
# Running rules without locations

No rule decides anything by a location. `Rule.Erases r e` says so of one rule: on tokens without
locations it comes to what it comes to on the tokens themselves, with `e` applied to the value it
builds and the same fault where it refuses a token. Everything that rules are made of keeps this,
and so every rule of a grammar file has it, with the `erase` of its trees for `e`.

Whole files are the same up to locations if their tokens are (`erase_eq_of_reads_file`).
-/

namespace GrammarFile

/-- The token without its location. -/
def LocatedToken.erase (t : LocatedToken) : LocatedToken :=
  ⟨t.token, .origin⟩

/-- The place in the token stream without the locations of the tokens. -/
def Cursor.erase (c : Cursor) : Cursor :=
  ⟨c.rest.map (·.erase), .origin, c.tried⟩

/-- What a round gives, with its value replaced. -/
def Step.map {α β : Type} (e : α → β) : Step α → Step β
  | more a => more (e a)
  | last a => last (e a)

/-- The outcome with its value replaced, and without the locations of the tokens where it ends. -/
def Outcome.erase {α : Type} (e : α → α) : Outcome α → Outcome α
  | ok a c => ok (e a) c.erase
  | failed fault c => failed fault c.erase

/-- The kinds that are seen at a cursor do not depend on locations. -/
@[simp]
theorem Cursor.sees_erase (c : Cursor) (kinds : List TokenKind) : c.erase.sees kinds = c.sees kinds := by
  unfold Cursor.sees Cursor.erase
  rw [List.head?_map, Option.any_map]
  rfl

/-- What was looked for in vain does not depend on locations. -/
@[simp]
theorem Cursor.miss_erase (c : Cursor) (kinds : List TokenKind) :
    c.erase.miss kinds = (c.miss kinds).erase :=
  rfl

namespace Outcome

variable {α β : Type} {e : α → α} {e' : β → β}

/-- What is made of an outcome may be made before or after the locations are lost. -/
theorem erase_map {f : α → β} (hf : ∀ x, e' (f x) = f (e x)) (o : Outcome α) :
    (o.erase e).map f = (o.map f).erase e' := by
  cases o with
  | ok x c => rw [erase, map, map, erase, hf]
  | failed fault c => rfl

/-- What follows on an outcome may follow before or after the locations are lost. -/
theorem erase_bind {f f' : α → Cursor → Outcome β} (hf : ∀ x c, f' (e x) c.erase = (f x c).erase e')
    (o : Outcome α) : (o.erase e).bind f' = (o.bind f).erase e' := by
  cases o with
  | ok x c => exact hf x c
  | failed fault c => rfl

end Outcome

namespace Rule

/-- Whether running a rule gives the same up to locations without the locations of the tokens. -/
def Erases {s : Bool} {α : Type} (r : Rule s α) (e : α → α) : Prop :=
  ∀ c : Cursor, r.run c.erase = (r.run c).erase e

namespace Erases

section Combinators

variable {s t : Bool} {α β : Type} {e : α → α} {e' : β → β}

/-- Reading nothing does not depend on locations. -/
theorem nothing {x : α} (hx : e x = x) : Erases (.nothing x) e := by
  intro c
  rw [run, run, Outcome.erase, hx]

/-- A token is taken alike without locations. -/
theorem token (kind : TokenKind) : Erases (.token kind) LocatedToken.erase := by
  rintro ⟨rest, last, tried⟩
  cases rest with
  | nil => rfl
  | cons t rest =>
    simp only [run, Cursor.erase, List.map_cons, LocatedToken.erase]
    split <;> rfl

/-- Two rules in a row run alike without locations if both do. -/
theorem seq {a : Rule s α} {b : Rule t β} (ha : Erases a e) (hb : Erases b e') :
    Erases (.seq a b) (Prod.map e e') := by
  intro c
  rw [run, run, ha c]
  refine Outcome.erase_bind (fun x d => ?_) _
  rw [hb d]
  cases b.run d <;> rfl

/-- A choice is made alike without locations if both rules run alike. -/
theorem choice {a : Rule true α} {b : Rule t α} (ha : Erases a e) (hb : Erases b e) :
    Erases (.choice a b) e := by
  intro c
  rw [run, run, Cursor.sees_erase, Cursor.miss_erase, ha c, hb (c.miss a.first)]
  split <;> rfl

/-- Rounds of steps that do without locations do without them. -/
theorem iterateRounds_erase {first : List TokenKind} {step : Cursor → Outcome (Step α)}
    (hstep : ∀ c : Cursor, step c.erase = (step c).erase (Step.map e)) (ahead : List LocatedToken)
    (c : Cursor) :
    iterateRounds first step (ahead.map (·.erase)) c.erase =
      (iterateRounds first step ahead c).erase (List.map e) := by
  induction ahead generalizing c with
  | nil => rfl
  | cons t ahead ih =>
    rw [List.map_cons, iterateRounds, iterateRounds, Cursor.sees_erase]
    by_cases hsees : c.sees first
    · rw [if_pos hsees, if_pos hsees, hstep c]
      refine Outcome.erase_bind (fun value d => ?_) _
      cases value with
      | last a => rfl
      | more a =>
        simp only [Step.map]
        rw [ih d]
        cases iterateRounds first step ahead d <;> rfl
    · rw [if_neg hsees, if_neg hsees]
      rfl

/-- A repetition runs alike without locations if its rounds do. -/
theorem iterate {body : Rule true (Step α)} (h : Erases body (Step.map e)) :
    Erases (.iterate body) (List.map e) :=
  fun c => iterateRounds_erase h c.rest c

/-- What is made of a value is made alike without locations. -/
theorem map {r : Rule s α} {f : α → β} (h : Erases r e) (hf : ∀ x, e' (f x) = f (e x)) :
    Erases (.map f r) e' := by
  intro c
  rw [run, run, h c]
  exact Outcome.erase_map hf _

/-- The range that a rule takes from tokens without locations is that of the origin. -/
theorem ranged {r : Rule true α} {f : α → Range → β} (h : Erases r e)
    (hf : ∀ x range, e' (f x range) = f (e x) .origin) : Erases (.ranged f r) e' := by
  intro c
  rw [run, run, h c]
  refine Outcome.erase_bind (fun x d => ?_) _
  rw [Outcome.erase, hf]
  cases hrest : c.rest <;> simp only [Cursor.erase, hrest] <;> rfl

/-- A bracket is refused alike without locations. -/
theorem tooDeep (limit : Nat) (kinds : List TokenKind) : Erases (.tooDeep limit kinds) e := by
  intro c
  rw [run, run, Cursor.sees_erase, Cursor.miss_erase]
  split <;> rfl

/-- Two rules in a row run alike without locations, also if the first value is dropped. -/
theorem skipThen {a : Rule s α} {b : Rule t β} (ha : Erases a e) (hb : Erases b e') :
    Erases (a.skipThen b) e' :=
  (ha.seq hb).map fun _ => rfl

/-- Two rules in a row run alike without locations, also if the second value is dropped. -/
theorem thenSkip {a : Rule s α} {b : Rule t β} (ha : Erases a e) (hb : Erases b e') :
    Erases (a.thenSkip b) e :=
  (ha.seq hb).map fun _ => rfl

/-- An optional rule runs alike without locations if the rule does. -/
theorem optional {r : Rule true α} (h : Erases r e) : Erases r.optional (Option.map e) :=
  .choice (h.map fun _ => rfl) (.nothing rfl)

/-- Any number of times a rule runs alike without locations if the rule does. -/
theorem many {r : Rule true α} (h : Erases r e) : Erases r.many (List.map e) :=
  .iterate (h.map fun _ => rfl)

/-- One or more times a rule runs alike without locations if the rule does. -/
theorem oneOrMore {r : Rule true α} (h : Erases r e) : Erases r.oneOrMore (List.map e) :=
  (h.seq h.many).map fun _ => rfl

/-- A rule with separators runs alike without locations if both rules do. -/
theorem separated {separator : Rule true β} {r : Rule true α} (hs : Erases separator e')
    (h : Erases r e) :
    Erases (separator.separated r) (List.map e) :=
  (h.seq (hs.skipThen h).many).map fun _ => rfl

end Combinators

/-! ### Symbols -/

/-- A mark is read alike without locations. -/
theorem mark (m : Mark) : Erases (Rules.mark m) LocatedToken.erase :=
  .token (.mark m)

/-- An identifier is read alike without locations. -/
theorem identifier : Erases Rules.identifier Identifier.erase :=
  (token .identifier).map fun _ => rfl

/-- A literal of one kind is read alike without locations. -/
theorem literalOf (kind : LiteralKind) : Erases (Rules.literalOf kind) Literal.erase :=
  (token (.literal kind)).map fun _ => rfl

/-- A literal is read alike without locations. -/
theorem literal : Erases Rules.literal Literal.erase :=
  .choice (.literalOf .string) (.choice (.literalOf .rawString) (.literalOf .regex))

/-- A type name is read alike without locations. -/
theorem typeName : Erases Rules.typeName TypeName.erase :=
  ((mark .doubleColon).separated identifier).ranged fun _ _ => rfl

/-- A list of identifiers is read alike without locations. -/
theorem identifierList : Erases Rules.identifierList IdentifierList.erase :=
  ((mark .comma).separated identifier).ranged fun _ _ => rfl

/-- A look-ahead is read alike without locations. -/
theorem lookAhead : Erases Rules.lookAhead LookAhead.erase := by
  have hkind : Erases Rules.lookAheadKind id :=
    .choice ((mark .positiveLookahead).map fun _ => rfl) ((mark .negativeLookahead).map fun _ => rfl)
  exact (hkind.seq literal).ranged fun _ _ => rfl

/-- A terminal is read alike without locations. -/
theorem terminal : Erases Rules.terminal Terminal.erase :=
  (literal.seq lookAhead.optional).ranged fun _ _ => rfl

/-- A type annotation is read alike without locations. -/
theorem typeAnnotation : Erases Rules.typeAnnotation TypeAnnotation.erase :=
  ((mark .colon).skipThen typeName).ranged fun _ _ => rfl

/-- The name of a member is read alike without locations. -/
theorem memberName : Erases Rules.memberName MemberName.erase :=
  ((mark .atSign).skipThen identifier).ranged fun _ _ => rfl

/-- What is written after a symbol is read alike without locations. -/
theorem treeControl : Erases Rules.treeControl TreeControl.erase := by
  refine .ranged (e := TreeControlKind.erase) ?_ fun _ _ => rfl
  refine .choice ((mark .caret).map fun _ => rfl) ?_
  refine .choice ((memberName.seq typeAnnotation.optional).map fun _ => rfl) ?_
  exact typeAnnotation.map fun _ => rfl

/-- A symbol by itself is read alike without locations. -/
theorem symbolKind : Erases Rules.symbolKind SymbolKind.erase := by
  have hstates := (mark .lessThan).skipThen (identifierList.thenSkip (mark .greaterThan))
  refine .choice (identifier.map fun _ => rfl) ?_
  exact .choice (terminal.map fun _ => rfl) ((hstates.seq terminal).map fun _ => rfl)

/-- A symbol is read alike without locations. -/
theorem symbol : Erases Rules.symbol Symbol.erase :=
  (symbolKind.seq treeControl.optional).ranged fun _ _ => rfl

/-! ### Bodies -/

/-- An alternation is read alike without locations if its factors are. -/
theorem alternation {factor : Rule true Factor} (h : Erases factor Factor.erase) :
    Erases (Rules.alternation factor) AlternationOf.erase := by
  refine h.oneOrMore.ranged fun factors _ => ?_
  rw [AlternationOf.erase, eraseFactors_eq_map]

/-- A body is read alike without locations if its factors are. -/
theorem alternations {factor : Rule true Factor} (h : Erases factor Factor.erase) :
    Erases (Rules.alternations factor) AlternationsOf.erase := by
  have hafter :
      Erases (.map Rules.afterPipe (.seq (Rules.mark .pipe) (Rules.alternation factor).optional))
      (Step.map AlternationOf.erase) :=
    ((mark .pipe).seq h.alternation.optional).map fun
      | (_, some _) => rfl
      | (_, none) => rfl
  refine (h.alternation.seq hafter.iterate).ranged fun alternations _ => ?_
  rw [AlternationsOf.erase, eraseAlternations_eq_map]
  rfl

/-- Brackets are read alike without locations if the body between them is. -/
theorem bracketed (kind : BracketKind) {body : Rule true Alternations}
    (h : Erases body AlternationsOf.erase) : Erases (Rules.bracketed kind body) Factor.erase := by
  refine ((mark kind.left).skipThen (h.optional.thenSkip (mark kind.right))).ranged fun body _ => ?_
  cases body <;> rfl

/-- A factor is read alike without locations, at every level. -/
theorem factor (levels : Nat) : Erases (Rules.factor levels) Factor.erase := by
  have hsymbol : Erases (.map Factor.symbol Rules.symbol) Factor.erase := symbol.map fun _ => rfl
  induction levels with
  | zero => exact .choice (.tooDeep _ _) hsymbol
  | succ levels ih =>
    have hbody := ih.alternations
    exact .choice (.bracketed .group hbody)
      (.choice (.bracketed .optional hbody) (.choice (.bracketed .repetition hbody) hsymbol))

/-- A production is read alike without locations. -/
theorem production (levels : Nat) : Erases (Rules.production levels) Production.erase := by
  have hbody := (factor levels).alternations
  have hbodies :
      Erases (Rules.productionBody levels) (Prod.map id (Option.map AlternationsOf.erase)) := by
    refine .choice (((mark .pipe).skipThen hbody).map fun _ => rfl) ?_
    exact .choice (hbody.map fun _ => rfl) (.nothing rfl)
  exact (identifier.seq ((mark .colon).skipThen (hbodies.thenSkip (mark .semicolon)))).ranged
    fun _ _ => rfl

/-! ### The prolog -/

/-- A switch of scanner states is read alike without locations. -/
theorem stateSwitch : Erases Rules.stateSwitch StateSwitch.erase := by
  refine .ranged (e := StateSwitchKind.erase) ?_ fun _ _ => rfl
  refine .choice (((mark .enter).skipThen identifier).map fun _ => rfl) ?_
  exact .choice (((mark .push).skipThen identifier).map fun _ => rfl) ((mark .pop).map fun _ => rfl)

/-- A directive is read alike without locations. -/
theorem directive : Erases Rules.directive Directive.erase := by
  refine .ranged (e := DirectiveKind.erase) ?_ fun _ _ => rfl
  refine .choice (((mark .lineComment).skipThen literal).map fun _ => rfl) ?_
  refine .choice (((mark .blockComment).skipThen (literal.seq literal)).map fun _ => rfl) ?_
  refine .choice ((mark .autoNewlineOff).map fun _ => rfl) ?_
  refine .choice ((mark .autoWsOff).map fun _ => rfl) ?_
  exact .choice (((mark .on).skipThen (identifierList.seq stateSwitch)).map fun _ => rfl)
    ((mark .allowUnmatched).map fun _ => rfl)

/-- A declaration is read alike without locations. -/
theorem declaration : Erases Rules.declaration Declaration.erase := by
  have htype : Erases Rules.typeDefinition (Prod.map Identifier.erase TypeName.erase) :=
    identifier.seq ((mark .equals).skipThen typeName)
  refine .ranged (e := DeclarationKind.erase) ?_ fun _ _ => rfl
  refine .choice (((mark .title).skipThen (literalOf .string)).map fun _ => rfl) ?_
  refine .choice (((mark .comment).skipThen (literalOf .string)).map fun _ => rfl) ?_
  refine .choice (((mark .userType).skipThen htype).map fun _ => rfl) ?_
  refine .choice (((mark .ntType).skipThen htype).map fun _ => rfl) ?_
  refine .choice (((mark .tType).skipThen typeName).map fun _ => rfl) ?_
  exact .choice (((mark .grammarType).skipThen (literalOf .rawString)).map fun _ => rfl)
    (directive.map fun _ => rfl)

/-- A scanner state is read alike without locations. -/
theorem scannerState : Erases Rules.scannerState ScannerState.erase := by
  have hbraces := (mark .leftBrace).skipThen (directive.many.thenSkip (mark .rightBrace))
  exact ((mark .scanner).skipThen (identifier.seq hbraces)).ranged fun _ _ => rfl

/-- The rule of the start declaration runs alike without locations. -/
theorem startDeclaration : Erases Rules.startDeclaration StartDeclaration.erase :=
  ((mark .start).skipThen identifier).ranged fun _ _ => rfl

/-! ### Whole files -/

/-- The rule of the prolog runs alike without locations. -/
theorem prolog : Erases Rules.prolog Prolog.erase :=
  (startDeclaration.seq (declaration.many.seq scannerState.many)).ranged fun _ _ => rfl

/-- The rule of the productions runs alike without locations. -/
theorem definition (levels : Nat) : Erases (Rules.definition levels) Definition.erase :=
  ((mark .percentPercent).skipThen (production levels).oneOrMore).ranged fun _ _ => rfl

/-- The rule of a file runs alike without locations. -/
theorem file (levels : Nat) : Erases (Rules.file levels) Grammar.erase :=
  (prolog.seq (definition levels)).map fun _ => rfl

end Erases

end Rule

/-- Located tokens that are the same tokens are equal without locations. -/
theorem map_erase_eq {ts us : List LocatedToken} (h : ts.map (·.token) = us.map (·.token)) :
    ts.map (·.erase) = us.map (·.erase) := by
  have hmap : ∀ vs : List LocatedToken,
      vs.map (·.erase) = (vs.map (·.token)).map fun t => ⟨t, .origin⟩ := by
    intro vs
    rw [List.map_map]
    rfl
  rw [hmap ts, hmap us, h]

/-- **Files with the same tokens are the same up to locations.** -/
theorem erase_eq_of_reads_file {levels : Nat} {ts us : List LocatedToken} {g g' : Grammar}
    (h : (Rules.file levels).Reads ts g) (h' : (Rules.file levels).Reads us g')
    (htokens : ts.map (·.token) = us.map (·.token)) : g.erase = g'.erase := by
  have hrun : ∀ {vs x}, (Rules.file levels).Reads vs x →
      ∃ c, (Rules.file levels).run (Cursor.start vs).erase = .ok x.erase c := by
    intro vs x hx
    obtain ⟨tried, hx⟩ :=
      Rule.run_of_reads (decided_file levels) hx .nil (.start vs) (List.append_nil vs).symm
    rw [Rule.Erases.file levels (.start vs), hx]
    exact ⟨_, rfl⟩
  obtain ⟨c, hc⟩ := hrun h
  obtain ⟨c', hc'⟩ := hrun h'
  have hstart : (Cursor.start ts).erase = (Cursor.start us).erase := by
    unfold Cursor.start Cursor.erase
    rw [map_erase_eq htokens]
  rw [hstart, hc'] at hc
  exact (Outcome.ok.inj hc).1.symm

end GrammarFile
