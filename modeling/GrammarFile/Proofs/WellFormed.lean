import GrammarFile.Proofs.RoundTrip

/-!
# What holds of every tree that is parsed

The types of a tree allow more than the grammar does: a body without alternations, an empty alternation in
the middle, a leading pipe without a body, a list without names, a title between slashes, brackets of any
depth, names that are no names. `Grammar.WellFormed` rules all that out, node by node, and every tree that
is parsed has it (`wellFormed_of_parse`). What prints a tree, outlines it or takes the delimiters off its
literals can rely on that.

`Rule.Ensures r P` says that what the rule `r` builds from well-formed tokens satisfies `P`. It
follows the way in which a rule is put together, so there is one fact for each rule of grammar
files.
-/

namespace GrammarFile

/-! ### Names and literals -/

/-- Whether a name is of the shape that names have. -/
def Identifier.WellFormed (i : Identifier) : Prop :=
  i.token.IsLexeme

/-- Whether a literal is of the shape that its kind asks for. -/
def Literal.WellFormed (l : Literal) : Prop :=
  l.token.IsLexeme

/-- Whether there is a name, and all of them are well-formed. -/
structure IdentifierList.WellFormed (l : IdentifierList) : Prop where
  nonempty : l.identifiers ≠ []
  identifiers : ∀ i ∈ l.identifiers, i.WellFormed

/-- Whether there is a name, and all of them are well-formed. -/
structure TypeName.WellFormed (t : TypeName) : Prop where
  nonempty : t.segments ≠ []
  segments : ∀ i ∈ t.segments, i.WellFormed

/-! ### Symbols -/

/-- Whether the literal of a look-ahead is well-formed. -/
def LookAhead.WellFormed (l : LookAhead) : Prop :=
  l.literal.WellFormed

/-- Whether the literals of a terminal are well-formed. -/
structure Terminal.WellFormed (t : Terminal) : Prop where
  literal : t.literal.WellFormed
  lookAhead : ∀ l ∈ t.lookAhead, l.WellFormed

/-- Whether the names in what follows a symbol are well-formed. -/
def TreeControlKind.WellFormed : TreeControlKind → Prop
  | cut => True
  | member name type => name.identifier.WellFormed ∧ ∀ t ∈ type, t.typeName.WellFormed
  | typed type => type.typeName.WellFormed

/-- Whether the names and literals of a symbol are well-formed. -/
def SymbolKind.WellFormed : SymbolKind → Prop
  | nonTerminal i => i.WellFormed
  | terminal t => t.WellFormed
  | terminalIn states t => states.WellFormed ∧ t.WellFormed

/-- Whether a symbol and what follows it are well-formed. -/
structure Symbol.WellFormed (s : Symbol) : Prop where
  kind : s.kind.WellFormed
  control : ∀ c ∈ s.control, c.kind.WellFormed

/-! ### Bodies -/

/-- Whether a body has alternations, the first of which has factors, and one without factors stands only
at the end of at least two. -/
structure AlternationsOf.Filled {φ : Type} (b : AlternationsOf φ) : Prop where
  nonempty : b.alternations ≠ []
  first : ∀ a ∈ b.alternations.head?, a.factors ≠ []
  bare : ∀ before a after, b.alternations = before ++ a :: after → a.factors = [] →
    before ≠ [] ∧ after = []

/-- Whether all symbols of a factor are well-formed, and all bodies in it filled. -/
inductive Factor.WellFormed : Factor → Prop where
  | symbol {s : Symbol} : s.WellFormed → WellFormed (.symbol s)
  | empty (kind : BracketKind) (range : Range) : WellFormed (.bracketed kind none range)
  | body {kind : BracketKind} {b : Alternations} {range : Range} :
      b.Filled → (∀ a ∈ b.alternations, ∀ f ∈ a.factors, WellFormed f) →
      WellFormed (.bracketed kind (some b) range)

/-- Whether a body is filled, and its factors are well-formed. -/
structure AlternationsOf.WellFormed (b : Alternations) : Prop where
  filled : b.Filled
  factors : ∀ a ∈ b.alternations, ∀ f ∈ a.factors, f.WellFormed

mutual

/-- The greatest number of brackets that are open at once in a factor. -/
def Factor.depth : Factor → Nat
  | .symbol _ => 0
  | .bracketed _ none _ => 1
  | .bracketed _ (some ⟨alternations, _⟩) _ => depthOfBody alternations + 1

/-- The greatest depth of some alternations. -/
def depthOfBody : List (AlternationOf Factor) → Nat
  | [] => 0
  | ⟨factors, _⟩ :: rest => max (depthOfFactors factors) (depthOfBody rest)

/-- The greatest depth of some factors. -/
def depthOfFactors : List Factor → Nat
  | [] => 0
  | factor :: rest => max factor.depth (depthOfFactors rest)

end

/-- Whether a production is well-formed, with brackets nested to the limit. -/
structure Production.WellFormed (p : Production) : Prop where
  name : p.name.WellFormed
  leadingPipe : p.leadingPipe → p.body.isSome
  body : ∀ b ∈ p.body, AlternationsOf.WellFormed b
  depth : depthOfBody p.alternations ≤ maxNesting

/-! ### The prolog -/

/-- Whether the name of the state that is switched to is well-formed. -/
def StateSwitchKind.WellFormed : StateSwitchKind → Prop
  | enter target | push target => target.WellFormed
  | pop => True

/-- Whether the literals of a directive and the names in it are well-formed. -/
def DirectiveKind.WellFormed : DirectiveKind → Prop
  | lineComment l => l.WellFormed
  | blockComment first last => first.WellFormed ∧ last.WellFormed
  | on terminals switch => terminals.WellFormed ∧ switch.kind.WellFormed
  | autoNewlineOff | autoWsOff | allowUnmatched => True

/-- Whether a declaration is well-formed. Titles and comments are strings between double quotes, and a
grammar type is one between single quotes. -/
def DeclarationKind.WellFormed : DeclarationKind → Prop
  | title l | comment l => l.kind = .string ∧ l.WellFormed
  | userType name type | ntType name type => name.WellFormed ∧ type.WellFormed
  | tType type => type.WellFormed
  | grammarType l => l.kind = .rawString ∧ l.WellFormed
  | scanner directive => directive.kind.WellFormed

/-- Whether the name and the directives of a scanner state are well-formed. -/
structure ScannerState.WellFormed (s : ScannerState) : Prop where
  name : s.name.WellFormed
  directives : ∀ d ∈ s.directives, d.kind.WellFormed

/-- Whether everything in a prolog is well-formed. -/
structure Prolog.WellFormed (p : Prolog) : Prop where
  start : p.start.identifier.WellFormed
  declarations : ∀ d ∈ p.declarations, d.kind.WellFormed
  states : ∀ s ∈ p.states, s.WellFormed

/-- Whether there is a production, and everything in a file is well-formed. -/
structure Grammar.WellFormed (g : Grammar) : Prop where
  prolog : g.prolog.WellFormed
  nonempty : g.productions ≠ []
  productions : ∀ p ∈ g.productions, p.WellFormed

/-! ### What a rule ensures -/

/-- Whether what a rule builds from well-formed tokens has a property. -/
def Rule.Ensures {s : Bool} {α : Type} (r : Rule s α) (P : α → Prop) : Prop :=
  ∀ ⦃ts x⦄, (∀ t ∈ ts, t.token.IsLexeme) → r.Reads ts x → P x

namespace Rule.Ensures

variable {s t : Bool} {α β : Type} {P : α → Prop} {Q : β → Prop}

/-- Reading nothing gives its value. -/
theorem nothing {value : α} (h : P value) : (Rule.nothing value).Ensures P := by
  rintro _ _ - ⟨-, rfl⟩
  exact h

/-- A token that is read is of its kind, and has the shape of it. -/
theorem token (kind : TokenKind) :
    (Rule.token kind).Ensures fun t => t.token.kind = kind ∧ t.token.IsLexeme := by
  rintro _ t hlexemes ⟨rfl, hkind⟩
  exact ⟨hkind, hlexemes t (List.mem_singleton_self t)⟩

/-- What two rules ensure they ensure in a row. -/
theorem seq {a : Rule s α} {b : Rule t β} (ha : a.Ensures P) (hb : b.Ensures Q) :
    (Rule.seq a b).Ensures fun x => P x.1 ∧ Q x.2 := by
  rintro _ x hlexemes ⟨us, vs, rfl, hx, hy⟩
  constructor
  · exact ha (fun t ht => hlexemes t (List.mem_append_left vs ht)) hx
  · exact hb (fun t ht => hlexemes t (List.mem_append_right us ht)) hy

/-- What both rules ensure their choice does. -/
theorem choice {a : Rule true α} {b : Rule t α} (ha : a.Ensures P) (hb : b.Ensures P) :
    (Rule.choice a b).Ensures P := by
  rintro ts x hlexemes (h | h)
  · exact ha hlexemes h
  · exact hb hlexemes h

/-- What follows from what a rule ensures is ensured of what is made of its values. -/
theorem map {r : Rule s α} {f : α → β} (h : r.Ensures P) (hf : ∀ x, P x → Q (f x)) :
    (Rule.map f r).Ensures Q := by
  rintro ts _ hlexemes ⟨x, hx, rfl⟩
  exact hf x (h hlexemes hx)

/-- What follows for every range is ensured of a value with its range. -/
theorem ranged {r : Rule true α} {f : α → Range → β} (h : r.Ensures P)
    (hf : ∀ x range, P x → Q (f x range)) : (Rule.ranged f r).Ensures Q := by
  rintro ts _ hlexemes ⟨x, hx, rfl⟩
  exact hf x _ (h hlexemes hx)

/-- A property of a list that every round keeps holds of a repetition. -/
theorem iterate {body : Rule true (Step α)} {M : List α → Prop} (nil : M [])
    (h : body.Ensures fun | .more x => ∀ xs, M xs → M (x :: xs) | .last x => M [x]) :
    (Rule.iterate body).Ensures M := by
  intro ts xs hlexemes hreads
  induction hreads with
  | done => exact nil
  | last hx => exact h hlexemes hx
  | @more us vs x xs hx _ ih =>
    have hfront : ∀ t ∈ us, t.token.IsLexeme := fun t ht => hlexemes t (List.mem_append_left vs ht)
    have hback : ∀ t ∈ vs, t.token.IsLexeme := fun t ht => hlexemes t (List.mem_append_right us ht)
    exact h hfront hx xs (ih hback)

/-- A value that is dropped in front need not be ensured anything of. -/
theorem skipThen {a : Rule s α} {b : Rule t β} (h : b.Ensures Q) : (Rule.skipThen a b).Ensures Q := by
  rintro _ _ hlexemes ⟨x, ⟨us, vs, rfl, -, hy⟩, rfl⟩
  exact h (fun t ht => hlexemes t (List.mem_append_right us ht)) hy

/-- A value that is dropped behind need not be ensured anything of. -/
theorem thenSkip {a : Rule s α} {b : Rule t β} (h : a.Ensures P) : (Rule.thenSkip a b).Ensures P := by
  rintro _ _ hlexemes ⟨x, ⟨us, vs, rfl, hx, -⟩, rfl⟩
  exact h (fun t ht => hlexemes t (List.mem_append_left vs ht)) hx

/-- What is optional is ensured where it is there. -/
theorem optional {r : Rule true α} (h : r.Ensures P) : r.optional.Ensures fun o => ∀ x ∈ o, P x := by
  apply choice
  · exact h.map fun x hx y hy => Option.some.inj hy ▸ hx
  · exact nothing nofun

/-- What is ensured of one value is ensured of each. -/
theorem many {r : Rule true α} (h : r.Ensures P) : r.many.Ensures fun xs => ∀ x ∈ xs, P x := by
  apply iterate
  · exact List.forall_mem_nil P
  · exact h.map fun x hx xs hxs => List.forall_mem_cons.mpr ⟨hx, hxs⟩

/-- There is at least one value, and each is as ensured. -/
theorem oneOrMore {r : Rule true α} (h : r.Ensures P) :
    r.oneOrMore.Ensures fun xs => xs ≠ [] ∧ ∀ x ∈ xs, P x :=
  (h.seq h.many).map fun x hx => ⟨List.cons_ne_nil x.1 x.2, List.forall_mem_cons.mpr hx⟩

/-- There is at least one value between separators, and each is as ensured. -/
theorem separated {separator : Rule true β} {r : Rule true α} (h : r.Ensures P) :
    (separator.separated r).Ensures fun xs => xs ≠ [] ∧ ∀ x ∈ xs, P x :=
  (h.seq h.skipThen.many).map fun x hx => ⟨List.cons_ne_nil x.1 x.2, List.forall_mem_cons.mpr hx⟩

end Rule.Ensures

/-! ### Symbols -/

open Rule.Ensures

/-- An identifier that is read is well-formed. -/
theorem ensures_identifier : Rules.identifier.Ensures Identifier.WellFormed := by
  refine (token .identifier).map ?_
  rintro t ⟨hkind, hlexeme⟩
  rw [Identifier.WellFormed, Identifier.token, token_of_kind_identifier hkind]
  exact hlexeme

/-- A literal that is read is of its kind and well-formed. -/
theorem ensures_literalOf (kind : LiteralKind) :
    (Rules.literalOf kind).Ensures fun l => l.kind = kind ∧ l.WellFormed := by
  refine (token (.literal kind)).map ?_
  rintro t ⟨hkind, hlexeme⟩
  refine ⟨rfl, ?_⟩
  rw [Literal.WellFormed, Literal.token, token_of_kind_literal hkind]
  exact hlexeme

/-- A literal that is read is well-formed. -/
theorem ensures_literal : Rules.literal.Ensures Literal.WellFormed := by
  have hkind : ∀ kind, (Rules.literalOf kind).Ensures Literal.WellFormed := by
    intro kind ts l hlexemes hl
    exact (ensures_literalOf kind hlexemes hl).2
  exact .choice (hkind .string) (.choice (hkind .rawString) (hkind .regex))

/-- A type name that is read is well-formed. -/
theorem ensures_typeName : Rules.typeName.Ensures TypeName.WellFormed :=
  ensures_identifier.separated.ranged fun _ _ h => ⟨h.1, h.2⟩

/-- A list of identifiers that is read is well-formed. -/
theorem ensures_identifierList : Rules.identifierList.Ensures IdentifierList.WellFormed :=
  ensures_identifier.separated.ranged fun _ _ h => ⟨h.1, h.2⟩

/-- A look-ahead that is read is well-formed. -/
theorem ensures_lookAhead : Rules.lookAhead.Ensures LookAhead.WellFormed := by
  have hkind : Rules.lookAheadKind.Ensures fun _ => True := fun _ _ _ _ => trivial
  exact (hkind.seq ensures_literal).ranged fun _ _ h => h.2

/-- A terminal that is read is well-formed. -/
theorem ensures_terminal : Rules.terminal.Ensures Terminal.WellFormed :=
  (ensures_literal.seq ensures_lookAhead.optional).ranged fun _ _ h => ⟨h.1, h.2⟩

/-- The type of an annotation that is read is well-formed. -/
theorem ensures_typeAnnotation : Rules.typeAnnotation.Ensures fun a => a.typeName.WellFormed :=
  ensures_typeName.skipThen.ranged fun _ _ h => h

/-- The name of a member that is read is well-formed. -/
theorem ensures_memberName : Rules.memberName.Ensures fun n => n.identifier.WellFormed :=
  ensures_identifier.skipThen.ranged fun _ _ h => h

/-- What is read after a symbol is well-formed. -/
theorem ensures_treeControl : Rules.treeControl.Ensures fun c => c.kind.WellFormed := by
  refine .ranged (P := TreeControlKind.WellFormed) ?_ fun _ _ h => h
  refine .choice ((token _).map fun _ _ => trivial) ?_
  refine .choice ((ensures_memberName.seq ensures_typeAnnotation.optional).map fun _ h => h) ?_
  exact ensures_typeAnnotation.map fun _ h => h

/-- A symbol that is read is well-formed. -/
theorem ensures_symbol : Rules.symbol.Ensures Symbol.WellFormed := by
  have hkind : Rules.symbolKind.Ensures SymbolKind.WellFormed := by
    have hstates := ensures_identifierList.thenSkip (b := Rules.mark .greaterThan)
    refine .choice (ensures_identifier.map fun _ h => h) ?_
    refine .choice (ensures_terminal.map fun _ h => h) ?_
    exact (hstates.skipThen.seq ensures_terminal).map fun _ h => h
  exact (hkind.seq ensures_treeControl.optional).ranged fun _ _ h => ⟨h.1, h.2⟩

/-! ### Bodies -/

/-- Factors are as deep as the deepest of them. -/
theorem depthOfFactors_le {fs : List Factor} {n : Nat} :
    depthOfFactors fs ≤ n ↔ ∀ f ∈ fs, f.depth ≤ n := by
  induction fs with
  | nil => simp [depthOfFactors]
  | cons f fs ih => rw [depthOfFactors, Nat.max_le, ih, List.forall_mem_cons]

/-- A body is as deep as the deepest of its factors. -/
theorem depthOfBody_le {as : List Alternation} {n : Nat} :
    depthOfBody as ≤ n ↔ ∀ a ∈ as, ∀ f ∈ a.factors, f.depth ≤ n := by
  induction as with
  | nil => simp [depthOfBody]
  | cons a as ih =>
    obtain ⟨fs, r⟩ := a
    rw [depthOfBody, Nat.max_le, depthOfFactors_le, ih, List.forall_mem_cons]

section

variable {φ : Type} {a : AlternationOf φ} {as : List (AlternationOf φ)}

/-- Alternations behind others: one without factors is the last. -/
def BareLast (as : List (AlternationOf φ)) : Prop :=
  ∀ before a after, as = before ++ a :: after → a.factors = [] → after = []

/-- An alternation without factors stands behind one that has some. -/
theorem exists_before_bare {a' : AlternationOf φ} {before after : List (AlternationOf φ)}
    (ha : a.factors ≠ []) (heq : a :: as = before ++ a' :: after) (hnone : a'.factors = []) :
    ∃ between, before = a :: between ∧ as = between ++ a' :: after := by
  rcases List.cons_eq_append_iff.mp heq with ⟨-, hfirst⟩ | hbehind
  · cases hfirst
    exact absurd hnone ha
  · exact hbehind

/-- A body is filled if an alternation with factors comes first, and only the last one has none. -/
theorem filled_cons {range : Range} (ha : a.factors ≠ []) (has : BareLast as) :
    AlternationsOf.Filled ⟨a :: as, range⟩ := by
  refine ⟨List.cons_ne_nil a as, ?_, ?_⟩
  · intro a' ha'
    cases ha'
    exact ha
  · intro before a' after heq hnone
    obtain ⟨between, rfl, heq'⟩ := exists_before_bare ha heq hnone
    exact ⟨List.cons_ne_nil a between, has between a' after heq' hnone⟩

/-- An alternation with factors may be put in front. -/
theorem bareLast_cons (ha : a.factors ≠ []) (has : BareLast as) : BareLast (a :: as) := by
  intro before a' after heq hnone
  obtain ⟨between, -, heq'⟩ := exists_before_bare ha heq hnone
  exact has between a' after heq' hnone

/-- A single alternation is the last one. -/
theorem bareLast_singleton (a : AlternationOf φ) : BareLast [a] := by
  intro before a' after heq _
  rcases List.cons_eq_append_iff.mp heq with ⟨-, hfirst⟩ | ⟨between, -, hbehind⟩
  · cases hfirst
    rfl
  · simp at hbehind

end

section

variable {φ : Type} {factor : Rule true φ} {P : φ → Prop}

/-- An alternation that is read has factors, each as ensured. -/
theorem ensures_alternation (h : factor.Ensures P) :
    (Rules.alternation factor).Ensures fun a => a.factors ≠ [] ∧ ∀ f ∈ a.factors, P f :=
  h.oneOrMore.ranged fun _ _ h => h

/-- **A body is filled**: only the alternation behind a bare pipe has no factors, and it ends the body. -/
theorem ensures_alternations (h : factor.Ensures P) :
    (Rules.alternations factor).Ensures fun b =>
      b.Filled ∧ ∀ a ∈ b.alternations, ∀ f ∈ a.factors, P f := by
  have hone := ensures_alternation h
  have hpipe : (Rules.mark .pipe).Ensures fun _ => True := fun _ _ _ _ => trivial
  have htail : (Rule.iterate (.map Rules.afterPipe
      (.seq (Rules.mark .pipe) (Rules.alternation factor).optional))).Ensures
      fun as => BareLast as ∧ ∀ a ∈ as, ∀ f ∈ a.factors, P f := by
    refine .iterate ⟨by simp [BareLast], List.forall_mem_nil _⟩ ((hpipe.seq hone.optional).map ?_)
    rintro ⟨pipe, _ | a⟩ ⟨-, ha⟩
    · exact ⟨bareLast_singleton _, by simp [AlternationOf.empty]⟩
    · obtain ⟨hfactors, hall⟩ := ha a rfl
      intro as has
      exact ⟨bareLast_cons hfactors has.1, List.forall_mem_cons.mpr ⟨hall, has.2⟩⟩
  refine (hone.seq htail).ranged ?_
  rintro ⟨a, as⟩ range ⟨⟨hfactors, hall⟩, hbare, hmore⟩
  exact ⟨filled_cons hfactors hbare, List.forall_mem_cons.mpr ⟨hall, hmore⟩⟩

end

/-- Brackets that are read are well-formed, one level deeper than the body between them. -/
theorem ensures_bracketed (kind : BracketKind) {body : Rule true Alternations} {levels : Nat}
    (h : body.Ensures fun b => b.Filled ∧ ∀ a ∈ b.alternations, ∀ f ∈ a.factors,
      f.WellFormed ∧ f.depth ≤ levels) :
    (Rules.bracketed kind body).Ensures fun f => f.WellFormed ∧ f.depth ≤ levels + 1 := by
  refine .ranged (.skipThen (.thenSkip h.optional)) ?_
  intro o range ho
  cases o with
  | none => exact ⟨.empty kind range, by simp [Factor.depth]⟩
  | some b =>
    obtain ⟨hfilled, hfactors⟩ := ho b rfl
    constructor
    · exact .body hfilled fun a ha f hf => (hfactors a ha f hf).1
    · exact Nat.succ_le_succ (depthOfBody_le.mpr fun a ha f hf => (hfactors a ha f hf).2)

/-- **Brackets nest to the number of levels that a factor is read with.** -/
theorem ensures_factor (levels : Nat) :
    (Rules.factor levels).Ensures fun f => f.WellFormed ∧ f.depth ≤ levels := by
  have hsymbol : ∀ n, (Rule.map Factor.symbol Rules.symbol).Ensures fun f => f.WellFormed ∧ f.depth ≤ n :=
    fun n => ensures_symbol.map fun _ h => ⟨.symbol h, Nat.zero_le n⟩
  induction levels with
  | zero => exact .choice (fun _ _ _ h => h.elim) (hsymbol 0)
  | succ levels ih =>
    have hbody := ensures_alternations ih
    exact .choice (ensures_bracketed .group hbody)
      (.choice (ensures_bracketed .optional hbody)
        (.choice (ensures_bracketed .repetition hbody) (hsymbol (levels + 1))))

/-- Whether a pipe leads a body only where there is one, and the body is well-formed and nests to some
number of levels. -/
structure WellFormedBody (levels : Nat) (x : Bool × Option Alternations) : Prop where
  leadingPipe : x.1 → x.2.isSome
  body : ∀ b ∈ x.2, AlternationsOf.WellFormed b
  depth : depthOfBody (x.2.elim [] (·.alternations)) ≤ levels

/-- The body of a production that is read is well-formed, if it is there. -/
theorem ensures_productionBody (levels : Nat) :
    (Rules.productionBody levels).Ensures (WellFormedBody levels) := by
  have hbody := ensures_alternations (ensures_factor levels)
  have hsome : ∀ piped (b : Alternations), (b.Filled ∧ ∀ a ∈ b.alternations, ∀ f ∈ a.factors,
      f.WellFormed ∧ f.depth ≤ levels) → WellFormedBody levels (piped, some b) := by
    rintro piped b ⟨hfilled, hfactors⟩
    refine ⟨fun _ => rfl, ?_, depthOfBody_le.mpr fun a ha f hf => (hfactors a ha f hf).2⟩
    intro b' hb'
    cases hb'
    exact ⟨hfilled, fun a ha f hf => (hfactors a ha f hf).1⟩
  refine .choice (.map (.skipThen hbody) (hsome true)) (.choice (.map hbody (hsome false)) (.nothing ?_))
  exact ⟨nofun, nofun, Nat.zero_le _⟩

/-- A production that is read is well-formed. -/
theorem ensures_production : (Rules.production maxNesting).Ensures Production.WellFormed :=
  (ensures_identifier.seq (ensures_productionBody maxNesting).thenSkip.skipThen).ranged
    fun _ _ ⟨hname, hbody⟩ => ⟨hname, hbody.leadingPipe, hbody.body, hbody.depth⟩

/-! ### The prolog -/

/-- A switch of scanner states that is read is well-formed. -/
theorem ensures_stateSwitch : Rules.stateSwitch.Ensures fun s => s.kind.WellFormed := by
  refine .ranged (P := StateSwitchKind.WellFormed) ?_ fun _ _ h => h
  refine .choice (ensures_identifier.skipThen.map fun _ h => h) ?_
  exact .choice (ensures_identifier.skipThen.map fun _ h => h) ((token _).map fun _ _ => trivial)

/-- A directive that is read is well-formed. -/
theorem ensures_directive : Rules.directive.Ensures fun d => d.kind.WellFormed := by
  refine .ranged (P := DirectiveKind.WellFormed) ?_ fun _ _ h => h
  refine .choice (ensures_literal.skipThen.map fun _ h => h) ?_
  refine .choice ((ensures_literal.seq ensures_literal).skipThen.map fun _ h => h) ?_
  refine .choice ((token _).map fun _ _ => trivial) (.choice ((token _).map fun _ _ => trivial) ?_)
  refine .choice ((ensures_identifierList.seq ensures_stateSwitch).skipThen.map fun _ h => h) ?_
  exact (token _).map fun _ _ => trivial

/-- The name and the type of a definition of a type are well-formed. -/
theorem ensures_typeDefinition :
    Rules.typeDefinition.Ensures fun x => x.1.WellFormed ∧ x.2.WellFormed :=
  ensures_identifier.seq ensures_typeName.skipThen

/-- A declaration that is read is well-formed. -/
theorem ensures_declaration : Rules.declaration.Ensures fun d => d.kind.WellFormed := by
  refine .ranged (P := DeclarationKind.WellFormed) ?_ fun _ _ h => h
  refine .choice ((ensures_literalOf .string).skipThen.map fun _ h => h) ?_
  refine .choice ((ensures_literalOf .string).skipThen.map fun _ h => h) ?_
  refine .choice (ensures_typeDefinition.skipThen.map fun _ h => h) ?_
  refine .choice (ensures_typeDefinition.skipThen.map fun _ h => h) ?_
  refine .choice (ensures_typeName.skipThen.map fun _ h => h) ?_
  refine .choice ((ensures_literalOf .rawString).skipThen.map fun _ h => h) ?_
  exact ensures_directive.map fun _ h => h

/-- A scanner state that is read is well-formed. -/
theorem ensures_scannerState : Rules.scannerState.Ensures ScannerState.WellFormed :=
  (ensures_identifier.seq ensures_directive.many.thenSkip.skipThen).skipThen.ranged
    fun _ _ h => ⟨h.1, h.2⟩

/-- A prolog that is read is well-formed. -/
theorem ensures_prolog : Rules.prolog.Ensures Prolog.WellFormed := by
  have hstart : Rules.startDeclaration.Ensures fun s => s.identifier.WellFormed :=
    ensures_identifier.skipThen.ranged fun _ _ h => h
  exact (hstart.seq (ensures_declaration.many.seq ensures_scannerState.many)).ranged
    fun _ _ h => ⟨h.1, h.2.1, h.2.2⟩

/-- A file that is read is well-formed. -/
theorem ensures_file : (Rules.file maxNesting).Ensures Grammar.WellFormed := by
  have hdefinition : (Rules.definition maxNesting).Ensures fun d =>
      d.productions ≠ [] ∧ ∀ p ∈ d.productions, p.WellFormed :=
    ensures_production.oneOrMore.skipThen.ranged fun _ _ h => h
  exact (ensures_prolog.seq hdefinition).map fun _ h => ⟨h.1, h.2.1, h.2.2⟩

/-! ### Parsed grammars -/

/-- What the file rule reads from the tokens of a source is well-formed. -/
theorem wellFormed_of_reads {source : String} {lexemes : List Lexeme} {g : Grammar}
    (hlex : lex source = .ok lexemes)
    (hreads : (Rules.file maxNesting).Reads (locate (.ofSource source) lexemes) g) : g.WellFormed := by
  have hlexemes := isLexeme_of_lex hlex
  rw [← map_token_locate (.ofSource source)] at hlexemes
  exact ensures_file (fun t ht => hlexemes t.token (List.mem_map_of_mem ht)) hreads

/-- **Every tree that is parsed is well-formed.** -/
theorem wellFormed_of_parse {source : String} {options : ParserOptions} {g : Grammar}
    (h : parse source options = .ok g) : g.WellFormed := by
  obtain ⟨lexemes, hlex, hreads⟩ := parse_eq_ok_iff.mp h
  exact wellFormed_of_reads hlex hreads

/-- A file with a title, a type, terminals in a state, nested brackets and a bare pipe. -/
def titledFile : String :=
  "%start A %title \"t\" %grammar_type 'lalr' %nt_type A=T::U %% A:|([B]|)<S>/x/|;"

/-- The nested brackets count two levels. -/
theorem wellFormed_of_parse_nested_brackets :
    ∃ g, parse titledFile .default = .ok g ∧
      g.productions.map (fun p => depthOfBody p.alternations) = [2] ∧ g.WellFormed := by
  have hok : (parse titledFile .default).isOk := by decide +kernel
  have hdepth : (parse titledFile .default).map
      (fun g => g.productions.map fun p => depthOfBody p.alternations) = .ok [2] := by
    decide +kernel
  obtain ⟨g, hg⟩ := exists_parse_of_isOk hok
  rw [hg] at hdepth
  exact ⟨g, hg, Except.ok.inj hdepth, wellFormed_of_parse hg⟩

end GrammarFile
