import GrammarFile.Proofs.Derivation.Models
import GrammarFile.Proofs.Derivation.OfTree
import GrammarFile.Proofs.Parsing.FileRule

/-!
# Each rule against its line of the table

Every rule of grammar files reads just what its line of the table spells, and the derivation of the tree
that it builds is the one that was spelled. Most rules follow their line part by part. Those that do not
are written differently from it: a symbol reads what may follow it in one place for all three sorts of
symbols, a body reads the alternations after the first and the bare pipe at its end in one loop, and a
factor is indexed by the levels of brackets it may still open.
-/

namespace GrammarFile

open Rule

/-! ### Names and literals -/

/-- A token of the kind of identifiers is the identifier with its text. -/
theorem token_of_kind_identifier {t : Token} (h : t.kind = .identifier) : .identifier t.text = t := by
  cases t with
  | identifier name => rfl
  | _ => cases h

/-- A token has the kind of a mark only if it is that mark. -/
theorem Token.kind_eq_mark_iff {t : Token} {m : Mark} : t.kind = .mark m ↔ t = .mark m := by
  cases t <;> simp [Token.kind]

/-- A token of a kind of literals is the literal of that kind with its text. -/
theorem token_of_kind_literal {t : Token} {kind : LiteralKind} (h : t.kind = .literal kind) :
    .literal kind t.text = t := by
  cases t with
  | literal kind' text =>
    cases h
    rfl
  | _ => cases h

namespace Models

variable {levels : Nat}

/-- An identifier is read as the terminal of that name. -/
theorem identifier : Models levels Rules.identifier .identifier fun i => [i.derivation] :=
  .token fun _ hu => by rw [Identifier.derivation, Identifier.token, token_of_kind_identifier hu]

/-- A literal of one kind is read as the terminal of that kind. -/
theorem literalOf (kind : LiteralKind) :
    Models levels (Rules.literalOf kind) (.token (.literal kind)) fun l => [l.derivation] :=
  .token fun _ hu => by rw [Literal.derivation, Literal.token, token_of_kind_literal hu]

/-- A literal is read as one of the three kinds. -/
theorem literal : Models levels Rules.literal .literal fun l => [l.derivation] :=
  (literalOf .string).choice ((literalOf .rawString).choice (literalOf .regex))

/-- Identifiers between marks are read as one identifier and any number more behind a mark each. -/
theorem identifiersBetween (m : Mark) :
    Models levels (.separated (Rules.mark m) Rules.identifier)
      (.seq .identifier (.star (.seq (.mark m) .identifier))) (derivationsBetween m) :=
  identifier.separated m fun _ _ => rfl

/-- Reading a type name is deriving one. -/
theorem typeName : Models levels Rules.typeName (.rule .typeName) fun t => [t.derivation] := by
  have hparts : Models levels Rules.typeName RuleName.typeName.phrase fun t => t.derivation.parts :=
    (identifiersBetween .doubleColon).ranged fun _ _ => rfl
  exact hparts.named .typeName rfl

/-- Reading a list of identifiers is deriving one. -/
theorem identifierList :
    Models levels Rules.identifierList (.rule .identifierList) fun l => [l.derivation] := by
  have hparts : Models levels Rules.identifierList RuleName.identifierList.phrase
      fun l => l.derivation.parts :=
    (identifiersBetween .comma).ranged fun _ _ => rfl
  exact hparts.named .identifierList rfl

/-! ### Symbols -/

/-- The operator of a look-ahead is read as one of the two marks. -/
theorem lookAheadKind :
    Models levels Rules.lookAheadKind (.alt (.mark .positiveLookahead) (.mark .negativeLookahead))
      fun k => [.mark k.operator] :=
  .choice ((Models.mark .positiveLookahead).map fun _ => rfl)
    ((Models.mark .negativeLookahead).map fun _ => rfl)

/-- Reading a look-ahead is deriving one. -/
theorem lookAhead : Models levels Rules.lookAhead (.rule .lookAhead) fun l => [l.derivation] := by
  have hparts : Models levels Rules.lookAhead RuleName.lookAhead.phrase fun l => l.derivation.parts :=
    (lookAheadKind.seq literal).ranged fun _ _ => rfl
  exact hparts.named .lookAhead rfl

/-- Reading a terminal is deriving one. -/
theorem terminal : Models levels Rules.terminal (.rule .terminal) fun t => [t.derivation] := by
  have hparts : Models levels Rules.terminal RuleName.terminal.phrase fun t => t.derivation.parts :=
    (literal.seq lookAhead.optional).ranged fun _ _ => rfl
  exact hparts.named .terminal rfl

/-- Reading a type annotation is deriving one. -/
theorem typeAnnotation :
    Models levels Rules.typeAnnotation (.rule RuleName.typeAnnotation) fun a => [a.derivation] := by
  have hparts : Models levels Rules.typeAnnotation RuleName.typeAnnotation.phrase
      fun a => a.derivation.parts :=
    (typeName.afterMark .colon).ranged fun _ _ => rfl
  exact hparts.named RuleName.typeAnnotation rfl

/-- Reading the name of a member is deriving one. -/
theorem memberName : Models levels Rules.memberName (.rule .memberName) fun n => [n.derivation] := by
  have hparts : Models levels Rules.memberName RuleName.memberName.phrase fun n => n.derivation.parts :=
    (identifier.afterMark .atSign).ranged fun _ _ => rfl
  exact hparts.named .memberName rfl

/-- Reading what is written after a symbol is deriving it. -/
theorem treeControl : Models levels Rules.treeControl (.rule .treeControl) fun c => [c.derivation] := by
  have hparts : Models levels Rules.treeControl RuleName.treeControl.phrase
      fun c => c.derivation.parts := by
    refine ofKind ?_ fun _ _ => rfl
    refine .choice ((Models.mark .caret).map fun _ => rfl) ?_
    refine .choice ((memberName.seq typeAnnotation.optional).map fun _ => rfl) ?_
    exact typeAnnotation.map fun _ => rfl
  exact hparts.named .treeControl rfl

/-- The first of two rules can be chosen after the second one is put behind both. -/
theorem seq_choice {s t : Bool} {α β : Type} {a : Rule true α} {b : Rule s α} {c : Rule t β}
    {p p' : Phrase} {parts : α × β → List Derivation} (ha : Models levels (.seq a c) p parts)
    (hb : Models levels (.seq b c) p' parts) :
    Models levels (.seq (.choice a b) c) (.alt p p') parts := by
  intro ts ds
  rw [Phrase.spells_alt, ha ts ds, hb ts ds]
  constructor
  · rintro (⟨x, ⟨us, vs, hts, hx, hy⟩, hds⟩ | ⟨x, ⟨us, vs, hts, hx, hy⟩, hds⟩)
    · exact ⟨x, ⟨us, vs, hts, .inl hx, hy⟩, hds⟩
    · exact ⟨x, ⟨us, vs, hts, .inr hx, hy⟩, hds⟩
  · rintro ⟨x, ⟨us, vs, hts, hx | hx, hy⟩, hds⟩
    · exact .inl ⟨x, ⟨us, vs, hts, hx, hy⟩, hds⟩
    · exact .inr ⟨x, ⟨us, vs, hts, hx, hy⟩, hds⟩

/-- A function of what the first of two rules builds. -/
theorem seq_map {s t : Bool} {α α' β : Type} {a : Rule s α} {c : Rule t β} {p : Phrase} {f : α → α'}
    {parts : α × β → List Derivation} {parts' : α' × β → List Derivation}
    (h : Models levels (.seq a c) p parts) (hf : ∀ x y, parts' (f x, y) = parts (x, y)) :
    Models levels (.seq (.map f a) c) p parts' := by
  intro ts ds
  rw [h ts ds]
  constructor
  · rintro ⟨⟨x, y⟩, ⟨us, vs, hts, hx, hy⟩, hds⟩
    exact ⟨(f x, y), ⟨us, vs, hts, ⟨x, hx, rfl⟩, hy⟩, (hf x y).trans hds⟩
  · rintro ⟨⟨_, y⟩, ⟨us, vs, hts, ⟨x, hx, rfl⟩, hy⟩, hds⟩
    exact ⟨(x, y), ⟨us, vs, hts, hx, hy⟩, (hf x y).symm.trans hds⟩

/-- Two rules and a third one, whichever two of them are put together first. -/
theorem seq_assoc {s t u : Bool} {α β γ : Type} {a : Rule s α} {b : Rule t β} {c : Rule u γ} {p : Phrase}
    {parts : α × β × γ → List Derivation} (h : Models levels (.seq a (.seq b c)) p parts) :
    Models levels (.seq (.seq a b) c) p fun x => parts (x.1.1, x.1.2, x.2) := by
  intro ts ds
  rw [h ts ds]
  constructor
  · rintro ⟨⟨x, y, z⟩, ⟨us, _, rfl, hx, vs, ws, rfl, hy, hz⟩, hds⟩
    exact ⟨((x, y), z), ⟨us ++ vs, ws, (List.append_assoc us vs ws).symm, ⟨us, vs, rfl, hx, hy⟩, hz⟩, hds⟩
  · rintro ⟨⟨⟨x, y⟩, z⟩, ⟨_, ws, rfl, ⟨us, vs, rfl, hx, hy⟩, hz⟩, hds⟩
    exact ⟨(x, y, z), ⟨us, vs ++ ws, List.append_assoc us vs ws, hx, vs, ws, rfl, hy, hz⟩, hds⟩

/-- A mark in front of the first of two rules is one in front of both. -/
theorem afterMark_seq {s t : Bool} {α β : Type} {a : Rule s α} {c : Rule t β} {p : Phrase}
    {parts : α × β → List Derivation} (m : Mark) (h : Models levels (.seq a c) p parts) :
    Models levels (.seq (.skipThen (Rules.mark m) a) c) (.seq (.mark m) p) fun x => .mark m :: parts x :=
  ((Models.mark m).seq h).seq_assoc.seq_map fun _ _ => rfl

/-- A mark behind the first of two rules is one between them. -/
theorem beforeMark_seq {s t : Bool} {α β : Type} {a : Rule s α} {c : Rule t β} {p q : Phrase}
    {parts : α → List Derivation} {parts' : β → List Derivation} (m : Mark) (h : Models levels a p parts)
    (h' : Models levels c q parts') :
    Models levels (.seq (.thenSkip a (Rules.mark m)) c) (.seq p (.seq (.mark m) q))
      fun x => parts x.1 ++ .mark m :: parts' x.2 :=
  (h.seq ((Models.mark m).seq h')).seq_assoc.seq_map fun _ _ => rfl

/-- What may be written after a symbol. -/
theorem treeControlOrNone (levels : Nat) :
    Models levels Rules.treeControl.optional (.opt (.rule .treeControl))
      fun o => (o.map (·.derivation)).toList :=
  treeControl.optional

/-- The part of a symbol: one of its sorts, together with what is written after it. -/
def symbolParts (x : SymbolKind × Option TreeControl) : List Derivation :=
  [x.1.derivation (x.2.map (·.derivation)).toList]

/-- Reading a non-terminal is deriving the parts of that symbol. -/
theorem nonTerminal :
    Models levels (.seq (.map SymbolKind.nonTerminal Rules.identifier) Rules.treeControl.optional)
      (.rule .nonTerminal) symbolParts := by
  have hparts := (identifier.seq (treeControlOrNone levels)).named .nonTerminal rfl
  exact hparts.seq_map fun _ _ => rfl

/-- Reading a terminal outside brackets is deriving the parts of that symbol. -/
theorem plainTerminal :
    Models levels (.seq (.map SymbolKind.terminal Rules.terminal) Rules.treeControl.optional)
      (.rule .plainTerminal) symbolParts := by
  have hparts := (terminal.seq (treeControlOrNone levels)).named .plainTerminal rfl
  exact hparts.seq_map fun _ _ => rfl

/-- Reading a terminal with scanner states is deriving the parts of that symbol. -/
theorem terminalIn :
    Models levels (.seq Rules.terminalIn Rules.treeControl.optional) (.rule .terminalIn) symbolParts := by
  -- the table has what follows a terminal next to it, the rule has it outside
  have hterminal := terminal.seq (treeControlOrNone levels)
  have hstates := (identifierList.beforeMark_seq .greaterThan hterminal).afterMark_seq .lessThan
  have hparts := hstates.named .terminalIn rfl
  exact hparts.seq_assoc.seq_map fun _ _ => rfl

/-- Reading a symbol is deriving one. -/
theorem symbol : Models levels Rules.symbol (.rule .symbol) fun s => [s.derivation] := by
  have hparts : Models levels Rules.symbol RuleName.symbol.phrase fun s => s.derivation.parts :=
    (nonTerminal.seq_choice (plainTerminal.seq_choice terminalIn)).ranged fun _ _ => rfl
  exact hparts.named .symbol rfl

/-! ### Bodies -/

end Models

/-- Factors are derived one by one. -/
theorem derivationsOfFactors_eq_map (fs : List Factor) :
    derivationsOfFactors fs = fs.map (·.derivation) := by
  induction fs with
  | nil => rfl
  | cons f fs ih => rw [derivationsOfFactors, ih, List.map_cons]

/-- The part of a factor: a symbol or one sort of brackets. -/
def Factor.part : Factor → Derivation
  | .symbol s => s.derivation
  | .bracketed kind body _ =>
    .node kind.ruleName
      (.mark kind.left :: ((body.map AlternationsOf.derivation).toList ++ [.mark kind.right]))

/-- The derivation of a factor is a node with the factor as its only part. -/
theorem Factor.derivation_eq_node (f : Factor) : f.derivation = .node .factor [f.part] := by
  cases f with
  | symbol s => rfl
  | bracketed kind body range => cases body <;> rfl

/-- An alternation that is read has a factor. -/
theorem exists_factor_of_reads {factor : Rule true Factor} {ts : List LocatedToken} {a : Alternation}
    (h : (Rules.alternation factor).Reads ts a) : ∃ f fs, a.factors = f :: fs := by
  obtain ⟨_, ⟨⟨f, fs⟩, -, rfl⟩, rfl⟩ := h
  exact ⟨f, fs, rfl⟩

namespace Models

variable {levels : Nat} {factor : Rule true Factor}

/-- The derivation of an alternation with factors. -/
def alternationDerivation (a : Alternation) : Derivation :=
  .node .alternation (derivationsOfFactors a.factors)

/-- Over factors that are derived, reading an alternation is deriving one. -/
theorem alternation (h : Models levels factor (.rule .factor) fun f => [f.derivation]) :
    Models levels (Rules.alternation factor) (.rule .alternation) fun a => [alternationDerivation a] := by
  have hparts : Models levels (Rules.alternation factor) RuleName.alternation.phrase
      fun a => (alternationDerivation a).parts := by
    refine h.oneOrMore.ranged fun _ _ => ?_
    rw [alternationDerivation, Derivation.parts, derivationsOfFactors_eq_map, List.map_eq_flatMap]
  exact hparts.named .alternation rfl

/-- After a pipe stands another alternation, or the body ends. -/
theorem reads_afterPipe {ts : List LocatedToken} {x : Step Alternation} :
    (Rule.map Rules.afterPipe (.seq (Rules.mark .pipe) (Rules.alternation factor).optional)).Reads ts x ↔
      (∃ a, x = .more a ∧ (Rule.skipThen (Rules.mark .pipe) (Rules.alternation factor)).Reads ts a) ∨
        ∃ pipe, x = .last (.empty pipe.range.endPoint) ∧ (Rules.mark .pipe).Reads ts pipe := by
  constructor
  · rintro ⟨⟨pipe, o⟩, ⟨us, vs, rfl, hpipe, ⟨a, ha, rfl⟩ | ⟨rfl, rfl⟩⟩, rfl⟩
    · exact .inl ⟨a, rfl, (pipe, a), ⟨us, vs, rfl, hpipe, ha⟩, rfl⟩
    · rw [List.append_nil]
      exact .inr ⟨pipe, rfl, hpipe⟩
  · rintro (⟨_, rfl, x, ⟨us, vs, rfl, hpipe, ha⟩, rfl⟩ | ⟨pipe, rfl, hpipe⟩)
    · exact ⟨(x.1, some x.2), ⟨us, vs, rfl, hpipe, .inl ⟨x.2, ha, rfl⟩⟩, rfl⟩
    · exact ⟨(pipe, none), ⟨ts, [], (List.append_nil ts).symm, hpipe, .inr ⟨rfl, rfl⟩⟩, rfl⟩

/-- An alternation that is read after a pipe stands there with the pipe. -/
theorem derivationsAfterPipe_cons {ts : List LocatedToken} {a : Alternation}
    (h : (Rule.skipThen (Rules.mark .pipe) (Rules.alternation factor)).Reads ts a)
    (as : List Alternation) :
    derivationsAfterPipe (a :: as) = [.mark .pipe, alternationDerivation a] ++
      derivationsAfterPipe as := by
  obtain ⟨⟨_, a⟩, ⟨_, _, -, -, ha⟩, rfl⟩ := h
  obtain ⟨f, fs, hfs⟩ := exists_factor_of_reads ha
  obtain ⟨_, range⟩ := a
  obtain rfl : _ = f :: fs := hfs
  rfl

/-- The rounds that read the alternations after the first. -/
def roundsAfterPipe (factor : Rule true Factor) : Rule false (List Alternation) :=
  .iterate (.map Rules.afterPipe (.seq (Rules.mark .pipe) (Rules.alternation factor).optional))

/-- Alternations after their pipes are read, and so is the bare pipe at the end. -/
theorem exists_reads_afterPipe (h : Models levels factor (.rule .factor) fun f => [f.derivation])
    {us vs : List LocatedToken} {ds es : List Derivation}
    (hus : (Phrase.star (.seq (.mark .pipe) (.rule .alternation))).Spells levels us ds)
    (hvs : (Phrase.opt (.mark .pipe)).Spells levels vs es) :
    ∃ as, (roundsAfterPipe factor).Reads (us ++ vs) as ∧ derivationsAfterPipe as = ds ++ es := by
  obtain ⟨as, has, rfl⟩ := ((h.alternation.afterMark .pipe).many us _).mp hus
  clear hus
  induction has using many_induction with
  | nil =>
    rcases Phrase.spells_opt.mp hvs with ⟨rfl, rfl⟩ | hvs
    · exact ⟨[], .done, rfl⟩
    · obtain ⟨pipe, hpipe, rfl⟩ := (Models.mark .pipe _ _).mp hvs
      exact ⟨[.empty pipe.range.endPoint], .last (reads_afterPipe.mpr (.inr ⟨pipe, rfl, hpipe⟩)), rfl⟩
  | @cons us us' a as ha _ ih =>
    obtain ⟨xs, hxs, hds⟩ := ih
    refine ⟨a :: xs, ?_, ?_⟩
    · rw [List.append_assoc]
      exact .more (reads_afterPipe.mpr (.inl ⟨a, rfl, ha⟩)) hxs
    · dsimp only at hds ⊢
      rw [derivationsAfterPipe_cons ha, hds, List.flatMap_cons, List.append_assoc]

/-- Alternations that are read after pipes are spelled there, and so is the bare pipe at the end. -/
theorem exists_spells_afterPipe (h : Models levels factor (.rule .factor) fun f => [f.derivation])
    {ts : List LocatedToken} {as : List Alternation} (has : (roundsAfterPipe factor).Reads ts as) :
    ∃ us vs ds es, ts = us ++ vs ∧ derivationsAfterPipe as = ds ++ es ∧
      (Phrase.star (.seq (.mark .pipe) (.rule .alternation))).Spells levels us ds ∧
      (Phrase.opt (.mark .pipe)).Spells levels vs es := by
  have hnone : ∀ {a : Phrase}, (Phrase.star a).Spells levels [] [] :=
    Phrase.spells_star.mpr (.inl ⟨rfl, rfl⟩)
  unfold roundsAfterPipe Reads at has
  induction has with
  | done => exact ⟨[], [], [], [], rfl, rfl, hnone, Phrase.spells_opt.mpr (.inl ⟨rfl, rfl⟩)⟩
  | @last ts x hx =>
    rcases reads_afterPipe.mp hx with ⟨_, hx, -⟩ | ⟨pipe, hx, hpipe⟩
    · cases hx
    · cases hx
      have hspells : (Phrase.mark .pipe).Spells levels ts [.mark .pipe] :=
        (Models.mark .pipe ts _).mpr ⟨pipe, hpipe, rfl⟩
      exact ⟨[], ts, [], [.mark .pipe], rfl, rfl, hnone, Phrase.spells_opt.mpr (.inr hspells)⟩
  | @more ts _ x xs hx _ ih =>
    rcases reads_afterPipe.mp hx with ⟨a, hx, ha⟩ | ⟨_, hx, -⟩
    · cases hx
      obtain ⟨us, vs, ds, es, rfl, hds, hus, hvs⟩ := ih
      have hspells := (h.alternation.afterMark .pipe ts _).mpr ⟨x, ha, rfl⟩
      refine ⟨ts ++ us, vs, [.mark .pipe, alternationDerivation x] ++ ds, es,
        (List.append_assoc ts us vs).symm, ?_, ?_, hvs⟩
      · rw [derivationsAfterPipe_cons ha, hds, List.append_assoc]
      · refine Phrase.spells_star.mpr (.inr (Phrase.spells_seq.mpr ?_))
        exact ⟨ts, us, _, ds, rfl, rfl, hspells, hus⟩
    · cases hx

/-- The alternations after the first, and the bare pipe at the end. -/
theorem afterPipe (h : Models levels factor (.rule .factor) fun f => [f.derivation]) :
    Models levels (roundsAfterPipe factor)
      (.seq (.star (.seq (.mark .pipe) (.rule .alternation))) (.opt (.mark .pipe)))
      derivationsAfterPipe := by
  intro ts ds
  rw [Phrase.spells_seq]
  constructor
  · rintro ⟨us, vs, ds, es, rfl, rfl, hus, hvs⟩
    exact h.exists_reads_afterPipe hus hvs
  · rintro ⟨as, has, rfl⟩
    exact h.exists_spells_afterPipe has

/-- Over factors that are derived, reading a body is deriving one. -/
theorem alternations (h : Models levels factor (.rule .factor) fun f => [f.derivation]) :
    Models levels (Rules.alternations factor) (.rule .alternations)
      fun b => [AlternationsOf.derivation b] := by
  have hparts : Models levels (Rules.alternations factor) RuleName.alternations.phrase
      fun b => (AlternationsOf.derivation b).parts :=
    (h.alternation.seq h.afterPipe).ranged fun _ _ => rfl
  exact hparts.named .alternations rfl

/-- Brackets open a level around their body. -/
theorem bracketed (kind : BracketKind) {body : Rule true Alternations}
    (h : Models levels body (.rule .alternations) fun b => [AlternationsOf.derivation b]) :
    Models (levels + 1) (Rules.bracketed kind body) (.rule kind.ruleName) fun f => [f.part] := by
  have hphrase : kind.ruleName.phrase = .bracketed kind.left kind.right := by cases kind <;> rfl
  have hlevels : kind.ruleName.levels = 1 := by cases kind <;> rfl
  have hparts : Models levels
      (.skipThen (Rules.mark kind.left) (.thenSkip body.optional (Rules.mark kind.right)))
      kind.ruleName.phrase fun b => (Factor.bracketed kind b .origin).part.parts := by
    rw [hphrase]
    exact (h.optional.beforeMark kind.right).afterMark kind.left
  have hrule := hparts.rule
  rw [hlevels] at hrule
  exact hrule.ranged fun _ _ => rfl

/-- Without a level to spare no bracket is spelled. -/
theorem not_spells_bracket (kind : BracketKind) {ts : List LocatedToken} {ds : List Derivation} :
    ¬ (Phrase.rule kind.ruleName).Spells 0 ts ds := by
  rintro ⟨hderives, -, hnesting⟩
  cases hderives with | rule hderives =>
  rw [nestingOfParts_singleton, Derivation.nesting] at hnesting
  cases kind <;> cases hnesting

/-- A factor is one part, a symbol or one sort of brackets. -/
theorem ofPart {s : Bool} {r : Rule s Factor}
    (h : Models levels r RuleName.factor.phrase fun f => [f.part]) :
    Models levels r (.rule .factor) fun f => [f.derivation] := by
  have hfactor := h.named .factor rfl
  simpa only [Factor.derivation_eq_node] using hfactor

/-- Factors on every level. Brackets take a level each, and on the last one there are symbols only. -/
theorem factors (levels : Nat) :
    Models levels (Rules.factor levels) (.rule .factor) fun f => [f.derivation] := by
  have hsymbol : ∀ {levels},
      Models levels (.map Factor.symbol Rules.symbol) (.rule .symbol) fun f => [f.part] :=
    symbol.map fun _ => rfl
  induction levels with
  | zero =>
    refine ofPart fun ts ds => ?_
    have hreads : ∀ f, (Rules.factor 0).Reads ts f ↔ (Rule.map Factor.symbol Rules.symbol).Reads ts f :=
      fun f => or_iff_right id
    have hgroup : ¬ (Phrase.rule .group).Spells 0 ts ds := not_spells_bracket .group
    have hoptional : ¬ (Phrase.rule .optional).Spells 0 ts ds := not_spells_bracket .optional
    have hrepetition : ¬ (Phrase.rule .repetition).Spells 0 ts ds := not_spells_bracket .repetition
    simp only [RuleName.phrase, Phrase.spells_alt, hreads]
    rw [or_iff_right hgroup, or_iff_right hrepetition, or_iff_right hoptional, hsymbol ts ds]
  | succ levels ih =>
    have hbody := ih.alternations
    have hparts := (bracketed .group hbody).choice
      ((bracketed .optional hbody).choice ((bracketed .repetition hbody).choice hsymbol))
    refine ofPart (hparts.congr fun ts ds => ?_)
    simp only [RuleName.phrase, BracketKind.ruleName, Phrase.spells_alt]
    exact or_congr_right or_left_comm

/-- A body and the pipe that may lead it, or nothing. -/
theorem productionBody :
    Models levels (Rules.productionBody levels)
      (.opt (.alt (.rule .alternations) (.seq (.mark .pipe) (.rule .alternations))))
      fun x => (if x.1 then [.mark .pipe] else []) ++ (x.2.map AlternationsOf.derivation).toList := by
  have hbody := (factors levels).alternations
  intro ts ds
  rw [Phrase.spells_opt, Phrase.spells_alt, hbody ts ds, hbody.afterMark .pipe ts ds]
  constructor
  · rintro (⟨rfl, rfl⟩ | ⟨b, hb, rfl⟩ | ⟨b, hb, rfl⟩)
    · exact ⟨(false, none), .inr (.inr ⟨rfl, rfl⟩), rfl⟩
    · exact ⟨(false, some b), .inr (.inl ⟨b, hb, rfl⟩), rfl⟩
    · exact ⟨(true, some b), .inl ⟨b, hb, rfl⟩, rfl⟩
  · rintro ⟨_, ⟨b, hb, rfl⟩ | ⟨b, hb, rfl⟩ | ⟨rfl, rfl⟩, rfl⟩
    · exact .inr (.inr ⟨b, hb, rfl⟩)
    · exact .inr (.inl ⟨b, hb, rfl⟩)
    · exact .inl ⟨rfl, rfl⟩

/-- Reading a production is deriving one. -/
theorem production :
    Models levels (Rules.production levels) (.rule .production) fun p => [p.derivation] := by
  have hparts : Models levels (Rules.production levels) RuleName.production.phrase
      fun p => p.derivation.parts :=
    (identifier.seq ((productionBody.beforeMark .semicolon).afterMark .colon)).ranged fun _ _ => by
      simp [Production.derivation, Derivation.parts]
  exact hparts.named .production rfl

/-! ### The prolog -/

/-- Reading a switch of scanner states is deriving one. -/
theorem stateSwitch : Models levels Rules.stateSwitch (.rule .stateSwitch) fun s => [s.derivation] := by
  have hparts : Models levels Rules.stateSwitch RuleName.stateSwitch.phrase
      fun s => s.derivation.parts := by
    refine ofKind ?_ fun _ _ => rfl
    refine .choice ((identifier.afterMark .enter).map fun _ => rfl) ?_
    exact .choice ((identifier.afterMark .push).map fun _ => rfl) ((Models.mark .pop).map fun _ => rfl)
  exact hparts.named .stateSwitch rfl

/-- Reading a directive is deriving one. -/
theorem directive : Models levels Rules.directive (.rule .directive) fun d => [d.derivation] := by
  have hparts : Models levels Rules.directive RuleName.directive.phrase fun d => d.derivation.parts := by
    refine ofKind ?_ fun _ _ => rfl
    refine .choice ((literal.afterMark .lineComment).map fun _ => rfl) ?_
    refine .choice (((literal.seq literal).afterMark .blockComment).map fun _ => rfl) ?_
    refine .choice ((Models.mark .autoNewlineOff).map fun _ => rfl) ?_
    refine .choice ((Models.mark .autoWsOff).map fun _ => rfl) ?_
    exact .choice_comm (((identifierList.seq stateSwitch).afterMark .on).map fun _ => rfl)
      ((Models.mark .allowUnmatched).map fun _ => rfl)
  exact hparts.named .directive rfl

/-- Reading a definition of a type is deriving the name, the mark and the type. -/
theorem typeDefinition :
    Models levels Rules.typeDefinition .typeDefinition
      fun x => [x.1.derivation, .mark .equals, x.2.derivation] :=
  identifier.seq (typeName.afterMark .equals)

/-- Reading a declaration is deriving one. -/
theorem declaration : Models levels Rules.declaration (.rule .declaration) fun d => [d.derivation] := by
  have hparts : Models levels Rules.declaration RuleName.declaration.phrase
      fun d => d.derivation.parts := by
    refine ofKind ?_ fun _ _ => rfl
    refine .choice (((literalOf .string).afterMark .title).map fun _ => rfl) ?_
    refine .choice (((literalOf .string).afterMark .comment).map fun _ => rfl) ?_
    refine .choice ((typeDefinition.afterMark .userType).map fun _ => rfl) ?_
    refine .choice ((typeDefinition.afterMark .ntType).map fun _ => rfl) ?_
    refine .choice ((typeName.afterMark .tType).map fun _ => rfl) ?_
    exact .choice (((literalOf .rawString).afterMark .grammarType).map fun _ => rfl)
      (directive.map fun _ => rfl)
  exact hparts.named .declaration rfl

/-- Reading a scanner state is deriving one. -/
theorem scannerState :
    Models levels Rules.scannerState (.rule .scannerState) fun s => [s.derivation] := by
  have hbraces : Models levels _
      (.seq (.mark .leftBrace) (.seq (.star (.rule .directive)) (.mark .rightBrace))) _ :=
    (directive.nodes.beforeMark .rightBrace).afterMark .leftBrace
  have hparts : Models levels Rules.scannerState RuleName.scannerState.phrase
      fun s => s.derivation.parts :=
    ((identifier.seq hbraces).afterMark .scanner).ranged fun _ _ => rfl
  exact hparts.named .scannerState rfl

/-- Reading the start declaration is deriving it. -/
theorem startDeclaration :
    Models levels Rules.startDeclaration (.rule .startDeclaration) fun s => [s.derivation] := by
  have hparts : Models levels Rules.startDeclaration RuleName.startDeclaration.phrase
      fun s => s.derivation.parts :=
    (identifier.afterMark .start).ranged fun _ _ => rfl
  exact hparts.named .startDeclaration rfl

/-- Reading the prolog is deriving it. -/
theorem prolog : Models levels Rules.prolog (.rule .prolog) fun p => [p.derivation] := by
  have hparts : Models levels Rules.prolog RuleName.prolog.phrase fun p => p.derivation.parts :=
    (startDeclaration.seq (declaration.nodes.seq scannerState.nodes)).ranged fun _ _ => rfl
  exact hparts.named .prolog rfl

/-- Reading the productions is deriving them. -/
theorem definition :
    Models levels (Rules.definition levels) (.rule .definition) fun d => [d.derivation] := by
  have hparts : Models levels (Rules.definition levels) RuleName.definition.phrase
      fun d => d.derivation.parts := by
    refine (production.oneOrMore.afterMark .percentPercent).ranged fun _ _ => ?_
    rw [Definition.derivation, Derivation.parts, List.map_eq_flatMap]
  exact hparts.named .definition rfl

/-- **The rule of a whole file reads what the table spells.** -/
theorem file : Models levels (Rules.file levels) (.rule .file) fun g => [g.derivation] := by
  have hparts : Models levels (Rules.file levels) RuleName.file.phrase fun g => g.derivation.parts :=
    (prolog.seq definition).map fun _ => rfl
  exact hparts.named .file rfl

end Models

end GrammarFile
