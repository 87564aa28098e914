import GrammarFile.Proofs.Lexing.Splitting
import GrammarFile.Proofs.Yield

/-!
# Printed text lexes to the tokens of the tree

The text of a tree is written with as few blanks as it can be, so it has to be shown that longest match
never runs two neighbouring tokens together. Two statements go through. `Adds text tokens` says that the
text adds its tokens in front of those of whatever follows; `Writes text tokens` asks that what follows
does not go on with a name. A name only writes itself, a literal or a line adds itself, and texts are put
together by `Adds.append`, `Writes.append` and `Writes.end`. There is a lemma for each kind of node, and
each follows the text from token to token.

The main result is `lexes_print`: the text of a whole tree of well-formed names and literals lexes to the
tokens of the tree.
-/

namespace GrammarFile

/-- Whether a text adds the given tokens in front of those of any text. -/
def Adds (s : String) (ts : List Token) : Prop :=
  ∀ (rest : List Char) (us : List Token), Lexes rest us → Lexes (s.toList ++ rest) (ts ++ us)

/-- Whether a text adds the given tokens in front of those of any text that does not go on with a
name. -/
def Writes (s : String) (ts : List Token) : Prop :=
  ∀ (rest : List Char) (us : List Token), EndsName rest → Lexes rest us →
    Lexes (s.toList ++ rest) (ts ++ us)

/-! ### Where a name ends -/

/-- No name goes on with a character that is no part of a name. -/
theorem endsName_cons {c : Char} {rest : List Char} (hc : isIdentifierRest c = false) :
    EndsName (c :: rest) := by
  intro d hd
  obtain rfl := Option.some.inj hd
  exact hc

/-- No name goes on at a mark. -/
theorem endsName_mark (m : Mark) (s : String) (rest : List Char) :
    EndsName ((m.text ++ s).toList ++ rest) := by
  rw [String.toList_append, List.append_assoc]
  cases m <;> exact endsName_cons rfl

/-- A part that may be missing ends a name where it does so when it is there. -/
theorem endsName_elim {α : Type} (o : Option α) {f : α → String} {rest : List Char}
    (hf : ∀ a, EndsName ((f a).toList ++ rest)) (hr : EndsName rest) :
    EndsName ((o.elim "" f).toList ++ rest) := by
  cases o with
  | none => exact hr
  | some a => exact hf a

/-! ### Putting texts together -/

section Combinators

variable {s s' : String} {ts ts' : List Token}

/-- What adds its tokens anywhere writes them. -/
theorem Adds.writes (h : Adds s ts) : Writes s ts :=
  fun _ _ _ hl => h _ _ hl

/-- The empty text adds no tokens. -/
theorem Adds.nil : Adds "" [] :=
  fun _ _ hl => hl

/-- A blank adds nothing. -/
theorem Adds.blank : Adds " " [] :=
  fun _ _ hl => .blank rfl hl

/-- A mark adds itself, except that a colon would run together with another one. -/
theorem Adds.mark (m : Mark) (hm : m ≠ .colon) : Adds m.text [.mark m] :=
  fun _ _ hl => .mark m (absurd · hm) hl

/-- A colon adds itself in front of a text that starts with no other one. -/
theorem Adds.colon (h : Adds s ts) (hs : ∀ rest, (s.toList ++ rest).head? ≠ some ':') :
    Adds (":" ++ s) (.mark .colon :: ts) := by
  intro rest us hl
  rw [String.toList_append, List.append_assoc]
  exact .mark .colon (fun _ => hs rest) (h _ _ hl)

/-- A literal adds itself. -/
theorem Adds.literal (l : Literal) (h : l.token.IsLexeme) : Adds l.text [l.token] :=
  fun _ _ hl => .literal h hl

/-- A name writes itself. -/
theorem Writes.identifier (i : Identifier) (h : i.token.IsLexeme) : Writes i.name [i.token] :=
  fun _ _ hr hl => .name h hr hl

/-- One text and another. -/
theorem Adds.append (h : Adds s ts) (h' : Adds s' ts') : Adds (s ++ s') (ts ++ ts') := by
  intro rest us hl
  rw [String.toList_append, List.append_assoc, List.append_assoc]
  exact h _ _ (h' _ _ hl)

/-- One text, and another that ends before what follows. -/
theorem Adds.then (h : Adds s ts) (h' : Writes s' ts') : Writes (s ++ s') (ts ++ ts') := by
  intro rest us hr hl
  rw [String.toList_append, List.append_assoc, List.append_assoc]
  exact h _ _ (h' _ _ hr hl)

/-- One text, and another that ends a name unless it is empty. -/
theorem Writes.append (h : Writes s ts) (h' : Writes s' ts')
    (hs : ∀ {rest}, EndsName rest → EndsName (s'.toList ++ rest)) : Writes (s ++ s') (ts ++ ts') := by
  intro rest us hr hl
  rw [String.toList_append, List.append_assoc, List.append_assoc]
  exact h _ _ (hs hr) (h' _ _ hr hl)

/-- One text, and another that ends a name. -/
theorem Writes.end (h : Writes s ts) (h' : Adds s' ts') (hs : ∀ rest, EndsName (s'.toList ++ rest)) :
    Adds (s ++ s') (ts ++ ts') := by
  intro rest us hl
  rw [String.toList_append, List.append_assoc, List.append_assoc]
  exact h _ _ (hs rest) (h' _ _ hl)

/-- A line. -/
theorem Writes.line (h : Writes s ts) : Adds (s ++ "\n") ts := by
  have hbreak : Adds "\n" [] := fun _ _ hl => .blank rfl hl
  rw [← List.append_nil ts]
  exact h.end hbreak fun _ => endsName_cons rfl

/-- A part that may be missing. -/
theorem Writes.elim {α : Type} (o : Option α) {f : α → String} {g : α → List Token}
    (h : ∀ a, o = some a → Writes (f a) (g a)) : Writes (o.elim "" f) (o.elim [] g) := by
  cases o with
  | none => exact Adds.nil.writes
  | some a => exact h a rfl

/-- Texts one after the other. -/
theorem Adds.join {α : Type} (items : List α) {f : α → String} {g : α → List Token}
    (h : ∀ a ∈ items, Adds (f a) (g a)) : Adds (String.join (items.map f)) (items.flatMap g) := by
  induction items with
  | nil => exact .nil
  | cons a items ih =>
    obtain ⟨ha, hitems⟩ := List.forall_mem_cons.mp h
    rw [List.map_cons, String.join_cons, List.flatMap_cons]
    exact ha.append (ih hitems)

end Combinators

/-! ### Lists of names -/

/-- Names with a separator between them, where the separator ends a name and adds a mark. -/
theorem writes_between (separator : Mark) (text : String) (hadd : Adds text [.mark separator])
    (hend : ∀ rest, EndsName (text.toList ++ rest)) (names : List Identifier)
    (h : ∀ t ∈ tokensBetween separator names, t.IsLexeme) :
    Writes (text.intercalate (names.map (·.name))) (tokensBetween separator names) := by
  induction names with
  | nil => exact Adds.nil.writes
  | cons i names ih =>
    have hi : Writes i.name [i.token] := .identifier i (h _ List.mem_cons_self)
    cases names with
    | nil =>
      rw [List.map_singleton, String.intercalate_singleton]
      exact hi
    | cons j names =>
      rw [List.map_cons, List.map_cons, String.intercalate_cons_cons]
      refine (hi.end hadd hend).then (ih fun t ht => h t ?_)
      exact List.mem_cons_of_mem _ (List.mem_cons_of_mem _ ht)

/-- A list of identifiers writes its tokens. -/
theorem IdentifierList.writes (l : IdentifierList) (h : ∀ t ∈ l.tokens, t.IsLexeme) :
    Writes l.display l.tokens :=
  writes_between .comma ", " ((Adds.mark .comma nofun).append .blank) (fun _ => endsName_cons rfl)
    l.identifiers h

/-- A type name writes its tokens. -/
theorem TypeName.writes (t : TypeName) (h : ∀ u ∈ t.tokens, u.IsLexeme) : Writes t.display t.tokens :=
  writes_between .doubleColon "::" (.mark .doubleColon nofun) (fun _ => endsName_cons rfl) t.segments h

/-! ### Symbols -/

/-- A look-ahead adds its tokens, whatever follows. -/
theorem LookAhead.adds (l : LookAhead) (h : ∀ t ∈ l.tokens, t.IsLexeme) :
    Adds l.display l.tokens := by
  have hoperator : l.kind.operator ≠ .colon := by cases l.kind <;> nofun
  have hliteral : l.literal.token.IsLexeme := h _ (List.mem_cons_of_mem _ List.mem_cons_self)
  exact ((Adds.mark _ hoperator).append .blank).append (.literal l.literal hliteral)

/-- A terminal adds its tokens, whatever follows. -/
theorem Terminal.adds (t : Terminal) (h : ∀ u ∈ t.tokens, u.IsLexeme) : Adds t.display t.tokens := by
  obtain ⟨hliteral, hlookAhead⟩ := List.forall_mem_cons.mp h
  refine (Adds.literal t.literal hliteral).append ?_
  cases ht : t.lookAhead with
  | none => exact .nil
  | some l =>
    rw [ht] at hlookAhead
    exact Adds.blank.append (l.adds hlookAhead)

/-- A type annotation writes its tokens. -/
theorem TypeAnnotation.writes (a : TypeAnnotation) (h : ∀ t ∈ a.tokens, t.IsLexeme) :
    Writes a.display a.tokens := by
  have hcolon : Adds (":" ++ " ") [.mark .colon] := Adds.blank.colon fun _ => nofun
  exact hcolon.then (a.typeName.writes fun t ht => h t (List.mem_cons_of_mem _ ht))

/-- What is written after a symbol writes its tokens. -/
theorem TreeControl.writes (c : TreeControl) (h : ∀ t ∈ c.tokens, t.IsLexeme) :
    Writes c.display c.tokens := by
  unfold TreeControl.display TreeControl.tokens at *
  cases hc : c.kind with
  | cut => exact (Adds.mark .caret nofun).writes
  | member name type =>
    simp only [hc, List.forall_mem_cons] at h
    obtain ⟨-, hname, htype⟩ := h
    refine ((Adds.mark .atSign nofun).then (.identifier _ hname)).append (.elim type ?_) ?_
    · rintro a rfl
      exact a.writes htype
    · exact endsName_elim type fun a => endsName_mark .colon (" " ++ a.typeName.display) _
  | typed type =>
    simp only [hc] at h
    exact type.writes h

/-- What is written after a symbol starts with a mark. -/
theorem TreeControl.endsName_display (c : TreeControl) (rest : List Char) :
    EndsName (c.display.toList ++ rest) := by
  unfold TreeControl.display
  cases c.kind with
  | cut => exact endsName_cons rfl
  | member name type =>
    show EndsName (("@" ++ name.identifier.name ++ _).toList ++ rest)
    rw [String.append_assoc]
    exact endsName_mark .atSign _ rest
  | typed type => exact endsName_mark .colon (" " ++ type.typeName.display) rest

/-- A symbol by itself writes its tokens. -/
theorem SymbolKind.writes (s : SymbolKind) (h : ∀ t ∈ s.tokens, t.IsLexeme) :
    Writes s.display s.tokens := by
  cases s with
  | nonTerminal i => exact .identifier i (h _ List.mem_cons_self)
  | terminal t => exact (t.adds h).writes
  | terminalIn states t =>
    simp only [SymbolKind.tokens, List.forall_mem_cons, List.forall_mem_append] at h
    obtain ⟨-, hstates, -, ht⟩ := h
    have hopen := (Adds.mark .lessThan nofun).then (states.writes hstates)
    have hclose := hopen.end (.mark .greaterThan nofun) fun _ => endsName_cons rfl
    have hall := (hclose.append (t.adds ht)).writes
    rw [List.append_assoc] at hall
    exact hall

/-- A symbol writes its tokens, with what is written after it. -/
theorem Symbol.writes (s : Symbol) (h : ∀ t ∈ s.tokens, t.IsLexeme) : Writes s.display s.tokens := by
  obtain ⟨hkind, hcontrol⟩ := List.forall_mem_append.mp h
  refine (s.kind.writes hkind).append (.elim s.control ?_) ?_
  · intro c hc
    rw [hc] at hcontrol
    exact c.writes hcontrol
  · exact endsName_elim s.control fun c => c.endsName_display _

/-! ### Bodies -/

/-- What follows the first alternation of a body starts with a blank. -/
theorem endsName_displayAfterPipe (as : List (AlternationOf Factor)) {rest : List Char}
    (hr : EndsName rest) : EndsName ((displayAfterPipe as).toList ++ rest) := by
  unfold displayAfterPipe
  split
  · exact hr
  · rw [String.toList_append, List.append_assoc]
    exact endsName_cons rfl
  · rw [String.append_assoc, String.toList_append, List.append_assoc]
    exact endsName_cons rfl

mutual

/-- A factor writes its tokens. -/
theorem Factor.writes : (f : Factor) → (∀ t ∈ f.tokens, t.IsLexeme) → Writes f.display f.tokens
  | .symbol s, h => s.writes h
  | .bracketed kind none _, _ => by
    have hleft : kind.left ≠ .colon := by cases kind <;> nofun
    have hright : kind.right ≠ .colon := by cases kind <;> nofun
    exact ((Adds.mark _ hleft).append (.mark _ hright)).writes
  | .bracketed kind (some ⟨as, _⟩) _, h => by
    have hleft : kind.left ≠ .colon := by cases kind <;> nofun
    have hright : kind.right ≠ .colon := by cases kind <;> nofun
    have hbody : ∀ t ∈ tokensOfBody as, t.IsLexeme := by
      intro t ht
      exact h t (List.mem_cons_of_mem _ (List.mem_append_left _ ht))
    have hopen := (Adds.mark _ hleft).then (writesBody as hbody)
    have hclose := (hopen.end (.mark _ hright) fun _ => by cases kind <;> exact endsName_cons rfl).writes
    rw [List.append_assoc] at hclose
    exact hclose

/-- The alternations of a body write its tokens. -/
theorem writesBody : (as : List (AlternationOf Factor)) → (∀ t ∈ tokensOfBody as, t.IsLexeme) →
    Writes (displayBody as) (tokensOfBody as)
  | [], _ => Adds.nil.writes
  | ⟨fs, _⟩ :: as, h => by
    obtain ⟨hfs, has⟩ := List.forall_mem_append.mp h
    exact (writesFactors fs hfs).append (writesAfterPipe as has) (endsName_displayAfterPipe as)

/-- Alternations behind a pipe write their tokens. -/
theorem writesAfterPipe : (as : List (AlternationOf Factor)) →
    (∀ t ∈ tokensAfterPipe as, t.IsLexeme) → Writes (displayAfterPipe as) (tokensAfterPipe as)
  | [], _ => Adds.nil.writes
  | ⟨[], _⟩ :: as, h => by
    obtain ⟨-, has⟩ := List.forall_mem_cons.mp h
    exact (Adds.blank.append (.mark .pipe nofun)).then (writesAfterPipe as has)
  | ⟨f :: fs, _⟩ :: as, h => by
    obtain ⟨-, h⟩ := List.forall_mem_cons.mp h
    obtain ⟨hfs, has⟩ := List.forall_mem_append.mp h
    have hpipe : Adds " | " [.mark .pipe] := (Adds.blank.append (.mark .pipe nofun)).append .blank
    have hall := (hpipe.then (writesFactors (f :: fs) hfs)).append (writesAfterPipe as has)
      (endsName_displayAfterPipe as)
    rw [List.append_assoc] at hall
    exact hall

/-- Factors with blanks between them write their tokens. -/
theorem writesFactors : (fs : List Factor) → (∀ t ∈ tokensOfFactors fs, t.IsLexeme) →
    Writes (" ".intercalate (displayFactors fs)) (tokensOfFactors fs)
  | [], _ => Adds.nil.writes
  | [f], h => by
    obtain ⟨hf, -⟩ := List.forall_mem_append.mp h
    rw [displayFactors, displayFactors, String.intercalate_singleton, tokensOfFactors, tokensOfFactors,
      List.append_nil]
    exact f.writes hf
  | f :: g :: fs, h => by
    obtain ⟨hf, hfs⟩ := List.forall_mem_append.mp h
    rw [displayFactors, displayFactors, String.intercalate_cons_cons]
    have hblank := (f.writes hf).end .blank fun _ => endsName_cons rfl
    rw [List.append_nil] at hblank
    exact hblank.then (writesFactors (g :: fs) hfs)

end

/-- The text of a production after its colon. -/
def Production.displayAfterColon (p : Production) : String :=
  (if p.leadingPipe then " |" else "") ++
    ((p.body.elim "" fun body => " " ++ AlternationsOf.display body) ++ ";")

/-- After the colon comes a blank, or the semicolon right away. -/
theorem Production.head?_displayAfterColon (p : Production) (rest : List Char) :
    (p.displayAfterColon.toList ++ rest).head? ≠ some ':' := by
  unfold Production.displayAfterColon
  cases p.leadingPipe <;> cases p.body <;> simp

/-- A production adds its tokens, whatever follows its semicolon. -/
theorem Production.adds (p : Production) (h : ∀ t ∈ p.tokens, t.IsLexeme) :
    Adds p.display p.tokens := by
  simp only [Production.tokens, List.forall_mem_cons, List.forall_mem_append] at h
  obtain ⟨hname, -, -, hbody, -⟩ := h
  have hpipe :
      Adds (if p.leadingPipe then " |" else "") (if p.leadingPipe then [.mark .pipe] else []) := by
    cases p.leadingPipe with
    | false => exact .nil
    | true => exact Adds.blank.append (.mark .pipe nofun)
  have hwrites : Writes (p.body.elim "" fun body => " " ++ AlternationsOf.display body)
      (p.body.elim [] AlternationsOf.tokens) := by
    refine .elim p.body fun body hp => ?_
    rw [hp] at hbody
    exact Adds.blank.then (writesBody body.alternations hbody)
  have hafter := hpipe.append (hwrites.end (.mark .semicolon nofun) fun _ => endsName_cons rfl)
  have hcolon := Adds.colon hafter p.head?_displayAfterColon
  have hall := (Writes.identifier p.name hname).end hcolon (endsName_mark .colon _)
  unfold Production.display
  rw [String.append_assoc, String.append_assoc, String.append_assoc]
  exact hall

/-! ### The prolog -/

/-- A switch of scanner states writes its tokens. -/
theorem StateSwitch.writes (s : StateSwitch) (h : ∀ t ∈ s.tokens, t.IsLexeme) :
    Writes s.display s.tokens := by
  unfold StateSwitch.display StateSwitch.tokens at *
  have hkeyword : s.keyword ≠ .colon := by
    unfold StateSwitch.keyword
    cases s.kind <;> nofun
  cases ht : s.target? with
  | none =>
    have htext := (Adds.mark _ hkeyword).append .nil
    exact htext.writes
  | some target =>
    rw [ht] at h
    have htarget : target.token.IsLexeme := h _ (List.mem_cons_of_mem _ List.mem_cons_self)
    exact (Adds.mark _ hkeyword).then (Adds.blank.then (.identifier target htarget))

/-- No directive starts with a colon. -/
theorem Directive.keyword_ne_colon (d : Directive) : d.keyword ≠ .colon := by
  unfold Directive.keyword
  cases d.kind <;> nofun

/-- A directive writes its tokens. -/
theorem Directive.writes (d : Directive) (h : ∀ t ∈ d.tokens, t.IsLexeme) :
    Writes d.display d.tokens := by
  have hkeyword := Adds.mark _ d.keyword_ne_colon
  unfold Directive.display Directive.tokens at *
  cases hd : d.kind with
  | lineComment l =>
    simp only [hd, List.forall_mem_cons] at h
    exact ((hkeyword.append .blank).append (.literal l h.2.1)).writes
  | blockComment first last =>
    simp only [hd, List.forall_mem_cons] at h
    obtain ⟨-, hfirst, hlast, -⟩ := h
    exact ((((hkeyword.append .blank).append (.literal first hfirst)).append .blank).append
      (.literal last hlast)).writes
  | on terminals switch =>
    simp only [hd, List.forall_mem_cons, List.forall_mem_append] at h
    obtain ⟨-, hterminals, hswitch⟩ := h
    have hnames := (hkeyword.append .blank).then (terminals.writes hterminals)
    have hblank := hnames.end .blank fun _ => endsName_cons rfl
    have hall := hblank.then (switch.writes hswitch)
    rw [List.append_nil, List.append_nil, List.append_assoc] at hall
    exact hall
  | autoNewlineOff | autoWsOff | allowUnmatched => exact hkeyword.writes

/-- A declaration writes its tokens. -/
theorem Declaration.writes (d : Declaration) (h : ∀ t ∈ d.tokens, t.IsLexeme) :
    Writes d.display d.tokens := by
  have hkeyword : Adds d.keyword.text [.mark d.keyword] := by
    refine .mark _ ?_
    unfold Declaration.keyword
    cases d.kind with
    | scanner directive => exact directive.keyword_ne_colon
    | _ => nofun
  unfold Declaration.display Declaration.tokens at *
  cases hd : d.kind with
  | title l | comment l | grammarType l =>
    simp only [hd, List.forall_mem_cons] at h
    exact ((hkeyword.append .blank).append (.literal l h.2.1)).writes
  | userType name type | ntType name type =>
    simp only [hd, List.forall_mem_cons] at h
    obtain ⟨-, hname, -, htype⟩ := h
    have hequals : Adds " = " [.mark .equals] := (Adds.blank.append (.mark .equals nofun)).append .blank
    have hshown := (hkeyword.append .blank).then (.identifier name hname)
    exact (hshown.end hequals fun _ => endsName_cons rfl).then (type.writes htype)
  | tType type =>
    simp only [hd, List.forall_mem_cons] at h
    exact (hkeyword.append .blank).then (type.writes h.2)
  | scanner directive =>
    simp only [hd] at h
    exact directive.writes h

/-- The tokens of the items of a list are among those of the list. -/
theorem forall_mem_flatMap {α β : Type} {items : List α} {f : α → List β} {p : β → Prop}
    (h : ∀ b ∈ items.flatMap f, p b) {a : α} (ha : a ∈ items) : ∀ b ∈ f a, p b :=
  fun b hb => h b (List.mem_flatMap.mpr ⟨a, ha, hb⟩)

/-- A scanner state adds its tokens, whatever follows its brace. -/
theorem ScannerState.adds (s : ScannerState) (h : ∀ t ∈ s.tokens, t.IsLexeme) :
    Adds s.print s.tokens := by
  simp only [ScannerState.tokens, List.forall_mem_cons, List.forall_mem_append] at h
  obtain ⟨-, hname, -, hdirectives, -⟩ := h
  have hscanner : Adds "%scanner " [.mark .scanner] := (Adds.mark .scanner nofun).append .blank
  have hshown := hscanner.then (.identifier s.name hname)
  have hbrace : Adds (" " ++ "\x7b") [.mark .leftBrace] := Adds.blank.append (.mark .leftBrace nofun)
  have hclose : Adds "\x7d\n" [.mark .rightBrace] := (Adds.mark .rightBrace nofun).writes.line
  unfold ScannerState.print ScannerState.tokens
  split
  case isTrue hempty =>
    rw [List.isEmpty_iff.mp hempty]
    exact hshown.end (hbrace.append hclose) fun _ => endsName_cons rfl
  case isFalse =>
    have hopen := hshown.end hbrace.writes.line fun _ => endsName_cons rfl
    have hindent : Adds "    " [] := ((Adds.blank.append .blank).append .blank).append .blank
    have hlines := Adds.join s.directives fun d hd =>
      (hindent.then (d.writes (forall_mem_flatMap hdirectives hd))).line
    have hall := (hopen.append hlines).append hclose
    rw [List.append_assoc] at hall
    exact hall

/-- The line of the start declaration adds its tokens. -/
theorem StartDeclaration.adds (s : StartDeclaration) (h : ∀ t ∈ s.tokens, t.IsLexeme) :
    Adds (s.display ++ "\n") s.tokens := by
  have hname : s.identifier.token.IsLexeme := h _ (List.mem_cons_of_mem _ List.mem_cons_self)
  have hstart : Adds "%start " [.mark .start] := (Adds.mark .start nofun).append .blank
  exact (hstart.then (.identifier s.identifier hname)).line

/-! ### The whole file -/

/-- A whole file adds its tokens. -/
theorem Grammar.adds (g : Grammar) (h : ∀ t ∈ g.tokens, t.IsLexeme) : Adds g.print g.tokens := by
  simp only [Grammar.tokens, Prolog.tokens, Definition.tokens, List.forall_mem_append,
    List.forall_mem_cons] at h
  obtain ⟨⟨hstart, hdeclarations, hstates⟩, -, hproductions⟩ := h
  have hprolog := (StartDeclaration.adds _ hstart).append (Adds.join g.prolog.declarations fun d hd =>
    (d.writes (forall_mem_flatMap hdeclarations hd)).line)
  have hbreak : Adds "\n" [] := Adds.nil.writes.line
  have hblocks := Adds.join g.prolog.states fun s hs =>
    hbreak.append (s.adds (forall_mem_flatMap hstates hs))
  have hpercent : Adds "\n%%\n\n" [.mark .percentPercent] :=
    (hbreak.append (Adds.mark .percentPercent nofun)).writes.line.writes.line
  have hlines := Adds.join g.productions fun p hp =>
    (p.adds (forall_mem_flatMap hproductions hp)).writes.line
  have hall := ((hprolog.append hblocks).append hpercent).append hlines
  rw [List.append_assoc, List.append_assoc, List.append_assoc] at hall
  rw [Grammar.tokens, Prolog.tokens, List.append_assoc, List.append_assoc]
  exact hall

/-- **The text of a tree lexes to its tokens.** -/
theorem lexes_print (g : Grammar) (h : ∀ t ∈ g.tokens, t.IsLexeme) : Lexes g.print.toList g.tokens := by
  have hall := g.adds h [] [] .nil
  rwa [List.append_nil, List.append_nil] at hall

end GrammarFile
