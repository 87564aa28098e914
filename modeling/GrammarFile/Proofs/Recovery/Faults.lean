import GrammarFile.Proofs.Parsing.Levels
import GrammarFile.Proofs.Recovery.Progress

/-!
# What an error says fits what it blames

The kinds that a cursor has looked for in vain stay there across attempts that succeed and across
the going on after an error. No place of a reading has looked in vain for the very kind that is next
(`Cursor.Honest`): a run that starts at an honest place ends at one, or with a fault that fits the
place where it ends (`Fault.Fits`, `Deeper.honest`).

Whatever holds of the errors of each attempt from an honest place so holds of all that a reading reports
(`parseTokens_forall`). In particular they are well formed (`parse_errors_wellFormed`).
-/

namespace GrammarFile

variable {s t : Bool} {α β : Type}

/-- Whether none of the kinds that were looked for in vain is that of the next token. -/
def Cursor.Honest (c : Cursor) : Prop :=
  c.sees c.tried = false

/-- Whether a fault is one that the next token at a place can have. Either it lists kinds in their order,
and that of the token is none of them, or it refuses an opening bracket. -/
def Fault.Fits (c : Cursor) : Fault → Prop
  | .unexpected kinds => kinds ≠ [] ∧ kinds.Sublist TokenKind.all ∧ c.sees kinds = false
  | .tooDeep limit => limit = maxNesting ∧ c.sees Rules.openingBrackets

/-- Whether a run has ended at an honest place, or with a fault that fits its place. -/
def Outcome.Honest : Outcome α → Prop
  | ok _ c => c.Honest
  | failed fault c => fault.Fits c

namespace Cursor.Honest

/-- Where nothing was looked for since the last token, a place is honest. -/
theorem of_tried_eq_nil {c : Cursor} (h : c.tried = []) : c.Honest := by
  rw [Honest, h, sees_nil]

/-- What is looked for and not there is in vain. -/
theorem miss {c : Cursor} (h : c.Honest) {kinds : List TokenKind} (hkinds : c.sees kinds = false) :
    (c.miss kinds).Honest := by
  have hall : c.sees (kinds ++ c.tried) = false := by rw [sees_append, hkinds, h, Bool.or_false]
  exact hall

/-- What is missing at an honest place is a fault of the token there. -/
theorem fits_unexpected {c d : Cursor} (h : c.Honest) (hne : c.tried ≠ []) (hd : d.rest = c.rest) :
    c.unexpected.Fits d := by
  refine ⟨?_, List.filter_sublist, ?_⟩
  · obtain ⟨kind, rest, htried⟩ := List.exists_cons_of_ne_nil hne
    exact List.ne_nil_of_mem (TokenKind.mem_sort.mpr (htried ▸ List.mem_cons_self))
  · refine Bool.eq_false_iff.mpr fun hsees => Bool.eq_false_iff.mp h ?_
    rw [sees, hd] at hsees
    exact sees_mono (c := c) hsees fun k hk => TokenKind.mem_sort.mp hk

end Cursor.Honest

namespace Outcome.Honest

/-- What is made of a value has no part in what a run has missed. -/
theorem map {o : Outcome α} (h : o.Honest) (f : α → β) : (o.map f).Honest := by
  cases o <;> exact h

/-- A run that goes on ends honestly if both parts do. -/
theorem bind {o : Outcome α} {f : α → Cursor → Outcome β} (h : o.Honest)
    (hf : ∀ x c, o = .ok x c → c.Honest → (f x c).Honest) : (o.bind f).Honest := by
  cases o with
  | ok x c => exact hf x c rfl h
  | failed fault c => exact h

end Outcome.Honest

open Rule

/-- A token is there, or it is looked for in vain. -/
theorem honest_token (kind : TokenKind) {c : Cursor} (h : c.Honest) : ((token kind).run c).Honest := by
  cases hsees : c.sees [kind] with
  | false =>
    rw [run_token_of_not_sees hsees]
    exact (h.miss hsees).fits_unexpected (List.cons_ne_nil kind c.tried) rfl
  | true =>
    obtain ⟨u, rest, hrest, hkind⟩ := Cursor.exists_of_sees hsees
    rw [run, hrest]
    simp only [List.mem_singleton.mp hkind, if_true]
    exact .of_tried_eq_nil rfl

/-- An alternative is looked for in vain where it cannot start. -/
theorem honest_choice {a : Rule true α} {b : Rule t α} {c : Cursor} (h : c.Honest)
    (ha : c.sees a.first → (a.run c).Honest)
    (hb : (c.miss a.first).Honest → (b.run (c.miss a.first)).Honest) :
    ((choice a b).run c).Honest := by
  rw [run]
  split
  · rename_i hsees
    exact ha hsees
  · rename_i hsees
    exact hb (h.miss (Bool.eq_false_iff.mpr hsees))

/-- **A run that starts at an honest place is honest**, by every rule that refuses a bracket only where
there could be one. -/
theorem Deeper.honest {a b : Rule s α} (hab : Deeper a b) {c : Cursor} (h : c.Honest) :
    (a.run c).Honest := by
  induction hab generalizing c with
  | nothing => exact h
  | token kind => exact honest_token kind h
  | brackets _ _ ih =>
    refine honest_choice h (fun hsees => ?_) ih
    have hbracket : c.sees Rules.openingBrackets := hsees
    rw [Rule.run, if_pos hbracket]
    exact ⟨rfl, hbracket⟩
  | seq _ _ iha ihb => exact (iha h).bind fun x d _ hd => (ihb hd).map _
  | choice _ _ iha ihb => exact honest_choice h (fun _ => iha h) ihb
  | @iterate _ body _ _ ih =>
    -- every round leaves fewer tokens
    induction c using Cursor.induction_on_rest with
    | step c hrounds =>
      rw [run_iterate]
      split
      · refine (ih h).bind fun value d hrun hd => ?_
        cases value with
        | last a => exact hd
        | more a => exact (hrounds d (length_lt_of_run hrun) hd).map (a :: ·)
      · rename_i hsees
        exact h.miss (Bool.eq_false_iff.mpr hsees)
  | map _ ih => exact (ih h).map _
  | ranged _ ih => exact (ih h).bind fun _ _ _ hd => hd

/-! ### All errors of a reading -/

section Reading

variable (context : ParseContext) (tokens : List LocatedToken) (P : ParseError → Prop)

/-- Whether all errors of attempts at a rule from honest places among some tokens have a property. -/
def Rule.FailsWith (r : Rule s α) : Prop :=
  ∀ c fault c', c.rest <:+ tokens → c.Honest → r.run c = .failed fault c' → P (context.blame fault c')

/-- Whether all errors of a reading have a property, and it ends at an honest place. -/
structure Reading.Sound (r : Reading α) : Prop where
  errors : ∀ e ∈ r.found.errors, P e
  within : r.cursor.rest <:+ tokens
  honest : r.cursor.Honest

variable {context tokens P} {found : Findings} {c c' : Cursor} {fault : Fault}

/-- What is made of a value has no part in the errors of a reading. -/
theorem Reading.Sound.map {r : Reading α} (h : r.Sound tokens P) (f : α → β) : (r.map f).Sound tokens P :=
  ⟨h.errors, h.within, h.honest⟩

/-- What holds of the errors found before and of a new one holds of those that are reported. -/
theorem forall_report (h : ∀ e ∈ found.errors, P e) (he : P (context.blame fault c)) :
    ∀ e ∈ (context.report found fault c).errors, P e := by
  intro e hmem
  rcases List.mem_append.mp hmem with hmem | hmem
  · exact h e hmem
  · rwa [List.mem_singleton.mp hmem]

/-- The errors of the start declaration are those of its rule. -/
theorem sound_startDeclaration (hstart : Rules.startDeclaration.FailsWith context tokens P)
    (hc : c.rest <:+ tokens) (hhonest : c.Honest) : (startDeclaration context c).Sound tokens P := by
  have hmoved := (rest_suffix_of_run Rules.startDeclaration c).trans hc
  have hrunHonest := (Deeper.same rfl : Deeper Rules.startDeclaration _).honest hhonest
  unfold startDeclaration
  cases hrun : Rules.startDeclaration.run c with
  | ok d c' =>
    rw [hrun] at hmoved hrunHonest
    exact ⟨nofun, hmoved, hrunHonest⟩
  | failed fault c' =>
    rw [hrun] at hmoved
    refine ⟨forall_report nofun (hstart c fault c' hc hhonest hrun), ?_, ?_⟩
    · dsimp only
      split
      · exact hmoved
      · exact (Cursor.resume_suffix c' c _).trans hmoved
    · dsimp only
      split <;> exact .of_tried_eq_nil rfl

/-- There are no brackets in the prolog. -/
theorem limitless_prologItem (allowed : Bool) : (prologItem allowed).limitless := by
  cases allowed <;> rfl

/-- The errors of the items of the prolog are those of their rules. -/
theorem sound_prologItems (hitem : ∀ allowed, (prologItem allowed).FailsWith context tokens P)
    (ahead : List LocatedToken) (allowed : Bool) (hfound : ∀ e ∈ found.errors, P e)
    (hc : c.rest <:+ tokens) (hhonest : c.Honest) :
    (prologItems context ahead allowed found c).Sound tokens P := by
  induction ahead generalizing allowed found c with
  | nil => exact ⟨hfound, hc, hhonest⟩
  | cons u ahead ih =>
    by_cases hends : found.stopped || c.rest.isEmpty || c.sees [.mark .percentPercent]
    · rw [prologItems_of_ends _ hends]
      exact ⟨hfound, hc, hhonest⟩
    rw [prologItems_of_goes u ahead hends]
    have hpercent : c.sees [.mark .percentPercent] = false := by
      rw [Bool.or_eq_true, not_or] at hends
      exact Bool.eq_false_iff.mpr hends.2
    have hmissed : (c.miss [.mark .percentPercent]).Honest := hhonest.miss hpercent
    have hmoved := (rest_suffix_of_run (prologItem allowed) (c.miss [.mark .percentPercent])).trans hc
    have hrunHonest := (Deeper.same (limitless_prologItem allowed)).honest hmissed
    cases hrun : (prologItem allowed).run (c.miss [.mark .percentPercent]) with
    | ok item c' =>
      rw [hrun] at hmoved hrunHonest
      cases item with
      | declaration d => exact (ih allowed hfound hmoved hrunHonest).map _
      | state s => exact (ih false hfound hmoved hrunHonest).map _
    | failed fault c' =>
      rw [hrun] at hmoved
      refine ih allowed (forall_report hfound (hitem allowed (c.miss _) fault c' hc hmissed hrun)) ?_ ?_
      · split
        · exact ((Cursor.pass_suffix _ _).trans (Cursor.resume_suffix c' c _)).trans hmoved
        · exact (Cursor.resume_suffix c' c _).trans hmoved
      · split
        · exact .of_tried_eq_nil (Cursor.tried_pass_resume c' c _ _)
        · exact .of_tried_eq_nil rfl

/-- What holds of the errors of the parts of a prolog holds of all errors of the prolog. -/
theorem sound_prolog (hstart : Rules.startDeclaration.FailsWith context tokens P)
    (hitem : ∀ allowed, (prologItem allowed).FailsWith context tokens P) :
    (prolog context (.start tokens)).Sound tokens P := by
  have hfirst := sound_startDeclaration hstart List.suffix_rfl (.of_tried_eq_nil (c := .start tokens) rfl)
  have hitems := sound_prologItems hitem (startDeclaration context (.start tokens)).cursor.rest true
    hfirst.errors hfirst.within hfirst.honest
  exact ⟨hitems.errors, hitems.within, hitems.honest⟩

/-- The errors of an attempt at a production are those of its rule. -/
theorem sound_productionAttempt (hproduction : (Rules.production maxNesting).FailsWith context tokens P)
    (hfound : ∀ e ∈ found.errors, P e) (hc : c.rest <:+ tokens) (hhonest : c.Honest) :
    (∀ e ∈ (productionAttempt context found c).found.errors, P e) ∧
      ((productionAttempt context found c).isLast = false →
        (productionAttempt context found c).Sound tokens P) := by
  have hmoved := (rest_suffix_of_run (Rules.production maxNesting) c).trans hc
  have hrunHonest := (deeper_production maxNesting).honest hhonest
  unfold productionAttempt
  cases hrun : (Rules.production maxNesting).run c with
  | ok p c' =>
    rw [hrun] at hmoved hrunHonest
    exact ⟨hfound, fun _ => ⟨hfound, hmoved, hrunHonest⟩⟩
  | failed fault c' =>
    rw [hrun] at hmoved
    have herrors := forall_report hfound (hproduction c fault c' hc hhonest hrun)
    refine ⟨herrors, fun hlast => ?_⟩
    rw [Reading.isLast, Bool.or_eq_false_iff] at hlast
    dsimp only at hlast ⊢
    rw [hlast.1, if_neg Bool.false_ne_true]
    exact ⟨herrors, ((Cursor.pass_suffix _ _).trans (Cursor.resume_suffix c' c _)).trans hmoved,
      .of_tried_eq_nil (Cursor.tried_pass_resume c' c _ _)⟩

/-- The errors of the productions are those of their rule. -/
theorem forall_productions (hproduction : (Rules.production maxNesting).FailsWith context tokens P)
    (ahead : List LocatedToken) (hfound : ∀ e ∈ found.errors, P e) (hc : c.rest <:+ tokens)
    (hhonest : c.Honest) : ∀ e ∈ (productions context ahead found c).found.errors, P e := by
  induction ahead generalizing found c with
  | nil =>
    rw [productions_nil]
    exact (sound_productionAttempt hproduction hfound hc hhonest).1
  | cons u ahead ih =>
    obtain ⟨hfirst, hnext⟩ := sound_productionAttempt hproduction hfound hc hhonest
    rw [productions_cons]
    cases hlast : (productionAttempt context found c).isLast with
    | true =>
      simp only [hlast, if_true]
      exact hfirst
    | false =>
      obtain ⟨herrors, hwithin, hend⟩ := hnext hlast
      simp only [hlast, Bool.false_eq_true, if_false]
      exact ih herrors hwithin hend

/-- The errors behind the prolog are those of `%%` and of productions. -/
theorem forall_definition (hpercent : (Rules.mark .percentPercent).FailsWith context tokens P)
    (hproduction : (Rules.production maxNesting).FailsWith context tokens P)
    (hfound : ∀ e ∈ found.errors, P e) (hc : c.rest <:+ tokens) (hhonest : c.Honest) :
    ∀ e ∈ (definition context found c).found.errors, P e := by
  have hmoved := (rest_suffix_of_run (Rules.mark .percentPercent) c).trans hc
  have hrunHonest := (Deeper.same rfl : Deeper (Rules.mark .percentPercent) _).honest hhonest
  unfold definition
  cases hrun : (Rules.mark .percentPercent).run c with
  | failed fault c' => exact forall_report hfound (hpercent c fault c' hc hhonest hrun)
  | ok percent c' =>
    rw [hrun] at hmoved hrunHonest
    exact forall_productions hproduction c'.rest hfound hmoved hrunHonest

/-- **What holds of the errors of each attempt holds of all errors of a reading.** -/
theorem parseTokens_forall (hstart : Rules.startDeclaration.FailsWith context tokens P)
    (hitem : ∀ allowed, (prologItem allowed).FailsWith context tokens P)
    (hpercent : (Rules.mark .percentPercent).FailsWith context tokens P)
    (hproduction : (Rules.production maxNesting).FailsWith context tokens P) {errors : List ParseError}
    (h : parseTokens context tokens = .error errors) : ∀ e ∈ errors, P e := by
  obtain ⟨hprolog, hwithin, hhonest⟩ := sound_prolog hstart hitem
  rw [eq_of_parseTokens_eq_error context h, definitionAfter]
  split
  · exact hprolog
  · exact forall_definition hpercent hproduction hprolog hwithin hhonest

end Reading

/-! ### Well formed errors -/

/-- Whether an error says something that it can say of what it found. It refuses an opening bracket at the
nesting limit and expects nothing, or it expects some kinds, each once and in the order of their
declaration, and what it found is of none of them. -/
def ParseError.WellFormed (e : ParseError) : Prop :=
  (e.fault.nestingLimit? = some maxNesting ∧ e.fault.expected = [] ∧
    ∃ t, e.found = some t ∧ t.kind ∈ Rules.openingBrackets) ∨
  (e.fault.nestingLimit? = none ∧ e.fault.expected ≠ [] ∧
    e.fault.expected.Pairwise (TokenKind.all.idxOf · < TokenKind.all.idxOf ·) ∧
    ∀ t, e.found = some t → t.kind ∉ e.fault.expected)

/-- Each kind is declared once. -/
theorem TokenKind.pairwise_all :
    TokenKind.all.Pairwise (TokenKind.all.idxOf · < TokenKind.all.idxOf ·) := by
  decide

/-- Blaming a token for a fault that fits its place gives a well formed error. -/
theorem Fault.Fits.wellFormed_blame {c : Cursor} {fault : Fault} (h : fault.Fits c)
    (context : ParseContext) : (context.blame fault c).WellFormed := by
  cases fault with
  | unexpected kinds =>
    obtain ⟨hne, hsublist, hunseen⟩ := h
    refine .inr ⟨rfl, hne, TokenKind.pairwise_all.sublist hsublist, fun u hu hmem => ?_⟩
    obtain ⟨v, hv, rfl⟩ := Option.map_eq_some_iff.mp hu
    rw [Cursor.sees, hv] at hunseen
    exact Bool.eq_false_iff.mp hunseen (List.contains_iff_mem.mpr hmem)
  | tooDeep limit =>
    obtain ⟨rfl, hsees⟩ := h
    obtain ⟨u, rest, hrest, hkind⟩ := Cursor.exists_of_sees hsees
    refine .inl ⟨rfl, rfl, u.token, ?_, hkind⟩
    rw [ParseContext.blame, hrest]
    rfl

/-- Whether an error blames one of some tokens, or the end of the input. -/
def ParseError.Places (context : ParseContext) (tokens : List LocatedToken) (e : ParseError) : Prop :=
  (∃ t ∈ tokens, e.found = some t.token ∧ e.range = t.range) ∨
    e.found = none ∧ e.range = context.endOfInput

/-- What is blamed is a token with its range, or the end of the input. -/
theorem ParseContext.places_blame (context : ParseContext) (fault : Fault) {c : Cursor}
    {tokens : List LocatedToken} (h : c.rest <:+ tokens) :
    (context.blame fault c).Places context tokens := by
  unfold blame
  cases hrest : c.rest with
  | nil => exact .inr ⟨rfl, rfl⟩
  | cons u rest => exact .inl ⟨u, h.subset (hrest ▸ List.mem_cons_self), rfl, rfl⟩

/-- Honest attempts fail with well formed errors. -/
theorem Deeper.failsWith {a b : Rule s α} (hab : Deeper a b) (context : ParseContext)
    (tokens : List LocatedToken) :
    a.FailsWith context tokens fun e => e.WellFormed ∧ e.Places context tokens := by
  intro c fault c' hc hhonest hrun
  have hmoved := rest_suffix_of_run a c
  have hfits := hab.honest hhonest
  rw [hrun] at hmoved hfits
  exact ⟨Fault.Fits.wellFormed_blame hfits context, context.places_blame fault (hmoved.trans hc)⟩

/-- Each error of a source is well formed, and blames one of its tokens or its end. -/
theorem wellFormed_and_places_of_parse {source : String} {lexemes : List Lexeme}
    (hlex : lex source = .ok lexemes) {options : ParserOptions} {errors : List ParseError}
    (h : parse source options = .error (.parse errors)) :
    ∀ e ∈ errors, e.WellFormed ∧
      e.Places (.ofSource source options) (locate (.ofSource source) lexemes) :=
  parseTokens_forall ((Deeper.same rfl).failsWith _ _)
    (fun allowed => (Deeper.same (limitless_prologItem allowed)).failsWith _ _)
    ((Deeper.same rfl).failsWith _ _) ((deeper_production maxNesting).failsWith _ _)
    ((parse_eq_error_of_lex hlex).mp h)

/-- **Every error of a source is well formed**, whatever the options and however many were reported before
it. What it found is a token of the source with its range, or nothing at the end of the source. -/
theorem parse_errors_wellFormed {source : String} {lexemes : List Lexeme}
    (hlex : lex source = .ok lexemes) {options : ParserOptions} {errors : List ParseError}
    (h : parse source options = .error (.parse errors)) :
    ∀ e ∈ errors, e.WellFormed ∧
      ((∃ lexeme ∈ lexemes, e.found = some lexeme.token ∧
          e.range = (LineIndex.ofSource source).range lexeme.span) ∨
        e.found = none ∧
          e.range = (LineIndex.ofSource source).range ⟨source.utf8ByteSize, source.utf8ByteSize⟩) := by
  intro e he
  obtain ⟨hwellFormed, hplaces⟩ := wellFormed_and_places_of_parse hlex h e he
  refine ⟨hwellFormed, hplaces.imp ?_ id⟩
  rintro ⟨u, hu, hfound, hrange⟩
  obtain ⟨lexeme, hlexeme, rfl⟩ := List.mem_map.mp hu
  exact ⟨lexeme, hlexeme, hfound, hrange⟩

/-- Where `%start` is missing the reading goes on at the token it has blamed, and does not list `%start`
again. -/
theorem parse_errors_wellFormed_missing_start :
    ∃ lexemes errors, lex "%title" = .ok lexemes ∧ parse "%title" .default = .error (.parse errors) ∧
      errors.map (fun e => (e.fault.expected, e.found)) =
        [([.mark .start], some (.mark .title)), ([.literal .string], none),
          ([.mark .percentPercent], none)] ∧
      ∀ e ∈ errors, e.WellFormed ∧
        ((∃ lexeme ∈ lexemes, e.found = some lexeme.token ∧
            e.range = (LineIndex.ofSource "%title").range lexeme.span) ∨
          e.found = none ∧
            e.range = (LineIndex.ofSource "%title").range ⟨6, 6⟩) := by
  have hlex : lex "%title" = .ok [⟨.mark .title, ⟨0, 6⟩⟩] := by
    decide +kernel
  have herrors : (match parse "%title" .default with
      | .error e => e.parseErrors.map fun e => (e.fault.expected, e.found)
      | .ok _ => []) =
        [([.mark .start], some (.mark .title)), ([.literal .string], none),
          ([.mark .percentPercent], none)] := by
    decide +kernel
  cases hparse : parse "%title" .default with
  | ok g =>
    rw [hparse] at herrors
    cases herrors
  | error e =>
    rw [hparse] at herrors
    cases e with
    | lexical e => cases herrors
    | parse errors => exact ⟨_, errors, hlex, rfl, herrors, parse_errors_wellFormed hlex hparse⟩

end GrammarFile
