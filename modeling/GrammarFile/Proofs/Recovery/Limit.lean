import GrammarFile.Proofs.Derivation.Parse
import GrammarFile.Proofs.Parsing.Attempt

/-!
# Stopping after a number of errors

The options of the parser say after how many errors to stop (`ParserOptions.limit?`), and that is all
they do: a reading with a limit is the reading without one, with its errors cut off
(`parseTokens_eq_cut`).

The proof runs both readings side by side. `Findings.Cut` says how their findings stand to each other:
either they are the same and the limit is still ahead, or the first reading was stopped at its limit and
has the first errors of the other one. Every part of a file keeps this, and as long as the first reading
is not stopped the two agree in everything else too (`Reading.Cut`).
-/

namespace GrammarFile

namespace ParserOptions

/-- Go on to the end of the file. -/
def unlimited : ParserOptions := ⟨true, 0⟩

/-- The number of errors after which to stop, if there is one. -/
def limit? (options : ParserOptions) : Option Nat :=
  if options.recover then if options.maxErrors = 0 then none else some options.maxErrors else some 1

/-- The errors up to the limit. -/
def cut (options : ParserOptions) (errors : List ParseError) : List ParseError :=
  options.limit?.elim errors errors.take

/-- A limit is never 0. -/
theorem pos_of_limit? {options : ParserOptions} {n : Nat} (h : options.limit? = some n) : 0 < n := by
  unfold limit? at h
  grind

/-- Once there is an error, the options stop just where the limit is reached. -/
theorem stopsAt_iff {options : ParserOptions} {count : Nat} (hcount : 0 < count) :
    options.stopsAt count ↔ ∃ n, options.limit? = some n ∧ n ≤ count := by
  obtain ⟨recover, maxErrors⟩ := options
  cases recover with
  | false =>
    simp only [stopsAt, limit?, Bool.not_false, Bool.true_or, Bool.false_eq_true, if_false, true_iff]
    exact ⟨1, rfl, hcount⟩
  | true =>
    rcases Nat.eq_zero_or_pos maxErrors with rfl | hpos
    · simp [stopsAt, limit?]
    · simp [stopsAt, limit?, hpos, Nat.ne_of_gt hpos]

end ParserOptions

/-- The same source, read to the end. -/
def ParseContext.unlimited (context : ParseContext) : ParseContext :=
  ⟨.unlimited, context.endOfInput⟩

/-! ### Findings side by side -/

/-- Whether a reading goes on after some findings, with the limit still ahead. -/
structure Findings.Open (limit : Option Nat) (found : Findings) : Prop where
  running : found.stopped = false
  below : ∀ n, limit = some n → found.errors.length < n

/-- How the findings of a reading with a limit stand to those of one without. -/
inductive Findings.Cut (limit : Option Nat) (found all : Findings) : Prop where
  | same : found = all → found.Open limit → Cut limit found all
  | reached {n : Nat} : limit = some n → found.stopped = true → found.errors.length = n →
      found.errors <+: all.errors → Cut limit found all

/-- How a reading with a limit stands to one without. -/
structure Reading.Cut {α : Type} (limit : Option Nat) (r u : Reading α) : Prop where
  found : r.found.Cut limit u.found
  eq_of_running : r.found.stopped = false → r = u

variable {context : ParseContext}

namespace Findings.Cut

variable {limit : Option Nat} {found all : Findings}

/-- Nothing is found at the start, with or without a limit. -/
theorem none : Cut context.options.limit? .none .none :=
  .same rfl ⟨rfl, fun _ => ParserOptions.pos_of_limit?⟩

/-- As long as a reading is not stopped its findings are all there are. -/
theorem eq_and_open (h : Cut limit found all) (hrunning : found.stopped = false) :
    found = all ∧ found.Open limit := by
  cases h with
  | same heq hopen => exact ⟨heq, hopen⟩
  | reached _ hstopped => exact absurd hrunning (Bool.not_eq_false _ ▸ hstopped)

/-- A reading that is stopped stays as it is while the other one goes on. -/
theorem extend (h : Cut limit found all) (hstopped : found.stopped = true) {more : Findings}
    (hmore : all.errors <+: more.errors) : Cut limit found more := by
  cases h with
  | same _ hopen => exact absurd hopen.running (Bool.not_eq_false _ ▸ hstopped)
  | reached hn _ hlength hinitial => exact .reached hn hstopped hlength (hinitial.trans hmore)

end Findings.Cut

/-- One more error reaches the limit or leaves it ahead. -/
theorem Findings.Open.cut_report {found : Findings} (h : found.Open context.options.limit?)
    (fault : Fault) (c : Cursor) :
    Findings.Cut context.options.limit? (context.report found fault c)
      (context.unlimited.report found fault c) := by
  have hpos : 0 < (found.errors ++ [context.blame fault c]).length := by simp
  by_cases hstops : context.options.stopsAt (found.errors ++ [context.blame fault c]).length
  · obtain ⟨n, hn, hle⟩ := (ParserOptions.stopsAt_iff hpos).mp hstops
    have hlt := h.below n hn
    have hlength : (found.errors ++ [context.blame fault c]).length = n := by
      rw [List.length_append, List.length_singleton] at hle ⊢
      omega
    exact .reached hn hstops hlength List.prefix_rfl
  · have hruns := Bool.eq_false_iff.mpr hstops
    refine .same ?_ ⟨hruns, ?_⟩
    · simp only [ParseContext.report, Findings.report, hruns]
      rfl
    · intro n hn
      exact Nat.lt_of_not_le fun hle => hstops ((ParserOptions.stopsAt_iff hpos).mpr ⟨n, hn, hle⟩)

namespace Reading.Cut

variable {α β : Type} {limit : Option Nat} {r u : Reading α}

/-- What is made of the values has no part in what the limit cuts. -/
theorem map (h : Cut limit r u) (f : α → β) : Cut limit (r.map f) (u.map f) :=
  ⟨h.found, fun hrunning => congrArg (Reading.map f) (h.eq_of_running hrunning)⟩

/-- Readings that give the same value at the same place compare as their findings do. -/
theorem of_same (x : α) {found all : Findings} (h : found.Cut limit all) (c : Cursor) :
    Cut limit ⟨x, found, c⟩ ⟨x, all, c⟩ :=
  ⟨h, fun hrunning => congrArg (Reading.mk x · c) (h.eq_and_open hrunning).1⟩

/-- A reading that is stopped stays as it is while the other one goes on. -/
theorem of_stopped {found all : Findings} (h : found.Cut limit all) (hstopped : found.stopped = true)
    (hr : r.found = found) (hu : all.errors <+: u.found.errors) : Cut limit r u := by
  subst hr
  exact ⟨h.extend hstopped hu, fun hrunning => absurd hrunning (Bool.not_eq_false _ ▸ hstopped)⟩

end Reading.Cut

/-! ### The prolog -/

/-- Once the limit is reached no items of the prolog are read. -/
theorem prologItems_of_stopped (ahead : List LocatedToken) (allowed : Bool) {found : Findings}
    (h : found.stopped = true) (c : Cursor) :
    prologItems context ahead allowed found c = ⟨([], []), found, c⟩ := by
  apply prologItems_of_ends
  rw [h, Bool.true_or, Bool.true_or]

/-- The limit only cuts what the items of the prolog come to. -/
theorem prologItems_cut (ahead : List LocatedToken) (allowed : Bool) (c : Cursor) {found all : Findings}
    (h : found.Cut context.options.limit? all) :
    Reading.Cut context.options.limit? (prologItems context ahead allowed found c)
      (prologItems context.unlimited ahead allowed all c) := by
  induction ahead generalizing allowed found all c with
  | nil => exact .of_same _ h c
  | cons t ahead ih =>
    by_cases hstopped : found.stopped = true
    · rw [prologItems_of_stopped _ _ hstopped]
      exact .of_stopped h hstopped rfl (errors_prologItems _ _ _ _)
    · obtain ⟨rfl, hopen⟩ := h.eq_and_open (Bool.eq_false_iff.mpr hstopped)
      rw [prologItems, prologItems]
      split
      · exact .of_same _ h c
      cases (prologItem allowed).run (c.miss [.mark .percentPercent]) with
      | ok item c' =>
        cases item with
        | declaration d => exact (ih allowed c' h).map _
        | state s => exact (ih false c' h).map _
      | failed fault c' => exact ih allowed _ (hopen.cut_report fault c')

/-- The limit only cuts what the start declaration comes to. -/
theorem startDeclaration_cut (context : ParseContext) (c : Cursor) :
    Reading.Cut context.options.limit? (startDeclaration context c)
      (startDeclaration context.unlimited c) := by
  unfold startDeclaration
  cases Rules.startDeclaration.run c with
  | ok start c' => exact .of_same _ .none c'
  | failed fault c' =>
    have hopen : Findings.none.Open context.options.limit? := (Findings.Cut.none.eq_and_open rfl).2
    exact .of_same _ (hopen.cut_report fault c') _

/-- The limit only cuts what the prolog comes to. -/
theorem prolog_cut (context : ParseContext) (c : Cursor) :
    Reading.Cut context.options.limit? (prolog context c) (prolog context.unlimited c) := by
  have hstart := startDeclaration_cut context c
  unfold prolog
  generalize startDeclaration context c = start at hstart ⊢
  generalize startDeclaration context.unlimited c = start' at hstart ⊢
  by_cases hstopped : start.found.stopped = true
  · dsimp only
    rw [prologItems_of_stopped _ _ hstopped]
    exact .of_stopped hstart.found hstopped rfl (errors_prologItems _ _ _ _)
  · obtain rfl := hstart.eq_of_running (Bool.eq_false_iff.mpr hstopped)
    have hitems := prologItems_cut start.cursor.rest true start.cursor hstart.found
    refine ⟨hitems.found, fun hrunning => ?_⟩
    dsimp only at hrunning ⊢
    rw [hitems.eq_of_running hrunning]

/-! ### The definition -/

/-- The limit only cuts what an attempt at a production comes to. -/
theorem productionAttempt_cut {found : Findings} (h : found.Open context.options.limit?) (c : Cursor) :
    Reading.Cut context.options.limit? (productionAttempt context found c)
      (productionAttempt context.unlimited found c) := by
  unfold productionAttempt
  cases (Rules.production maxNesting).run c with
  | ok p c' => exact .of_same _ (.same rfl h) c'
  | failed fault c' =>
    have hreport := h.cut_report fault c'
    refine ⟨hreport, fun hrunning => ?_⟩
    dsimp only at hrunning ⊢
    rw [← (hreport.eq_and_open hrunning).1]

/-- The limit only cuts what the productions come to. -/
theorem productions_cut (ahead : List LocatedToken) {found : Findings}
    (h : found.Open context.options.limit?) (c : Cursor) :
    Reading.Cut context.options.limit? (productions context ahead found c)
      (productions context.unlimited ahead found c) := by
  induction ahead generalizing found c with
  | nil =>
    rw [productions_nil, productions_nil]
    exact productionAttempt_cut h c
  | cons t ahead ih =>
    have hfirst := productionAttempt_cut h c
    rw [productions_cons, productions_cons]
    generalize productionAttempt context found c = first at hfirst ⊢
    generalize productionAttempt context.unlimited found c = first' at hfirst ⊢
    by_cases hstopped : first.found.stopped = true
    · have hlast : first.isLast = true := by rw [Reading.isLast, hstopped, Bool.true_or]
      dsimp only
      rw [if_pos hlast]
      refine .of_stopped hfirst.found hstopped rfl ?_
      split
      · exact List.prefix_rfl
      · exact errors_productions _ _ _
    · have hrunning := Bool.eq_false_iff.mpr hstopped
      obtain rfl := hfirst.eq_of_running hrunning
      dsimp only
      split
      · exact hfirst
      · exact (ih (hfirst.found.eq_and_open hrunning).2 _).map _

/-- The limit only cuts what the definition comes to. -/
theorem definition_cut {found : Findings} (h : found.Open context.options.limit?) (c : Cursor) :
    Reading.Cut context.options.limit? (definition context found c)
      (definition context.unlimited found c) := by
  unfold definition
  cases (Rules.mark .percentPercent).run c with
  | ok percent c' =>
    have hitems := productions_cut c'.rest h c'
    refine ⟨hitems.found, fun hrunning => ?_⟩
    dsimp only at hrunning ⊢
    rw [hitems.eq_of_running hrunning]
  | failed fault c' => exact .of_same _ (h.cut_report fault c') c'

/-- The limit only cuts what the definition behind a prolog comes to. -/
theorem definitionAfter_cut {first first' : Reading (Option Prolog)}
    (h : Reading.Cut context.options.limit? first first') :
    Reading.Cut context.options.limit? (definitionAfter context first)
      (definitionAfter context.unlimited first') := by
  unfold definitionAfter
  by_cases hstopped : first.found.stopped = true
  · rw [if_pos hstopped]
    refine .of_stopped h.found hstopped rfl ?_
    split
    · exact List.prefix_rfl
    · exact errors_definition _ _
  · have hrunning := Bool.eq_false_iff.mpr hstopped
    obtain rfl := h.eq_of_running hrunning
    rw [if_neg hstopped, if_neg hstopped]
    exact definition_cut (h.found.eq_and_open hrunning).2 first.cursor

/-! ### A whole file -/

/-- Where there are errors there is no tree. -/
theorem assemble_of_ne_nil {errors : List ParseError} (h : errors ≠ []) (p : Option Prolog)
    (d : Option Definition) : assemble p d errors = .error errors := by
  cases errors with
  | nil => exact absurd rfl h
  | cons e errors => cases p <;> cases d <;> rfl

/-- What keeps the errors keeps what a file is put together to. -/
theorem mapError_assemble {f : List ParseError → List ParseError} {errors : List ParseError}
    (hf : f errors = errors) (p : Option Prolog) (d : Option Definition) :
    (assemble p d errors).mapError f = assemble p d errors := by
  cases p <;> cases d <;> cases errors <;> simp [assemble, Except.mapError, hf]

/-- Errors below the limit are all kept. -/
theorem cut_of_open {found : Findings} (h : found.Open context.options.limit?) :
    context.options.cut found.errors = found.errors := by
  unfold ParserOptions.cut
  cases hlimit : context.options.limit? with
  | none => rfl
  | some n => exact List.take_of_length_le (Nat.le_of_lt (h.below n hlimit))

/-- **A limit cuts off errors and does nothing else.** -/
theorem parseTokens_eq_cut (context : ParseContext) (tokens : List LocatedToken) :
    parseTokens context tokens =
      (parseTokens context.unlimited tokens).mapError context.options.cut := by
  have hfirst := prolog_cut context (.start tokens)
  have hsecond := definitionAfter_cut hfirst
  rw [parseTokens_eq, parseTokens_eq]
  generalize prolog context (.start tokens) = first at hfirst hsecond ⊢
  generalize prolog context.unlimited (.start tokens) = first' at hfirst hsecond ⊢
  dsimp only
  cases hsecond.found with
  | same _ hopen =>
    have hrunning : first.found.stopped = false := by
      refine Bool.eq_false_iff.mpr fun hstopped => Bool.eq_false_iff.mp hopen.running ?_
      rw [definitionAfter, if_pos hstopped]
      exact hstopped
    obtain rfl := hfirst.eq_of_running hrunning
    rw [← hsecond.eq_of_running hopen.running, mapError_assemble (cut_of_open hopen)]
  | @reached n hlimit hstopped hlength hinitial =>
    have hne : (definitionAfter context first).found.errors ≠ [] := by
      rw [← List.length_pos_iff, hlength]
      exact ParserOptions.pos_of_limit? hlimit
    have hne' : (definitionAfter context.unlimited first').found.errors ≠ [] := by
      intro hnil
      rw [hnil, List.prefix_nil] at hinitial
      exact hne hinitial
    rw [assemble_of_ne_nil hne, assemble_of_ne_nil hne', Except.mapError, ParserOptions.cut, hlimit,
      Option.elim, ← hlength, ← List.prefix_iff_eq_take.mp hinitial]

/-! ### Failing -/

/-- A prolog is stopped by an error only. -/
theorem errors_of_stopped_prolog {c : Cursor} (h : (prolog context c).found.stopped = true) :
    (prolog context c).found.errors ≠ [] := by
  cases (prolog_cut context c).found with
  | same _ hopen => exact absurd h (Bool.eq_false_iff.mp hopen.running)
  | reached hlimit _ hlength _ =>
    rw [← List.length_pos_iff, hlength]
    exact ParserOptions.pos_of_limit? hlimit

/-- **Where a half of a file is missing there is an error**, also where the definition was not read. -/
theorem errors_of_missing (context : ParseContext) (c : Cursor) :
    let first := prolog context c
    let second := definitionAfter context first
    first.value = none ∨ second.value = none → second.found.errors ≠ [] := by
  intro first second hmissing hnil
  have hfirst : first.found.errors = [] := by
    rw [← List.prefix_nil, ← hnil]
    exact errors_definitionAfter first
  rcases hmissing with hnone | hnone
  · exact errors_prolog_of_none hnone hfirst
  by_cases hstopped : first.found.stopped = true
  · exact errors_of_stopped_prolog hstopped hfirst
  · have hsecond : second = definition context first.found first.cursor := if_neg hstopped
    rw [hsecond] at hnone hnil
    exact errors_definition_of_none hnone hnil

/-- **There is a tree just where no error was found.** -/
theorem exists_parseTokens_eq_ok_iff (context : ParseContext) (tokens : List LocatedToken) :
    (∃ g, parseTokens context tokens = .ok g) ↔
      (definitionAfter context (prolog context (.start tokens))).found.errors = [] := by
  have hmissing := errors_of_missing context (.start tokens)
  rw [parseTokens_eq]
  dsimp only at hmissing ⊢
  generalize prolog context (.start tokens) = first at hmissing ⊢
  generalize definitionAfter context first = second at hmissing ⊢
  constructor
  · rintro ⟨g, hg⟩
    by_contra hne
    rw [assemble_of_ne_nil hne] at hg
    cases hg
  · intro hnil
    cases hp : first.value with
    | none => exact absurd hnil (hmissing (.inl hp))
    | some p =>
      cases hd : second.value with
      | none => exact absurd hnil (hmissing (.inr hd))
      | some d => exact ⟨_, by rw [hnil]; rfl⟩

/-- Where there is no tree there is an error. -/
theorem ne_nil_of_parseTokens_eq_error {tokens : List LocatedToken} {errors : List ParseError}
    (h : parseTokens context tokens = .error errors) : errors ≠ [] := by
  intro hnil
  rw [eq_of_parseTokens_eq_error context h] at hnil
  obtain ⟨g, hg⟩ := (exists_parseTokens_eq_ok_iff context tokens).mpr hnil
  rw [hg] at h
  cases h

/-- **What the options of the parser do.** Whether a source that lexes parses, and to what, does not
depend on them. Where it does not, a limit of `n` gives the first `n` errors of those that there are
without a limit, all of them if there are fewer, and without recovery there is the first one, whatever
the limit. -/
theorem parse_options {source : String} {lexemes : List Lexeme} (h : lex source = .ok lexemes) :
    (∃ g, ∀ options, parse source options = .ok g) ∨
    ∃ e es, parse source ⟨true, 0⟩ = .error (.parse (e :: es)) ∧
      (∀ n, 0 < n → parse source ⟨true, n⟩ = .error (.parse ((e :: es).take (min n (e :: es).length)))) ∧
      ∀ n, parse source ⟨false, n⟩ = .error (.parse [e]) := by
  have hcut : ∀ options, parse source options =
      ((parseTokens (.ofSource source .unlimited) (locate (.ofSource source) lexemes)).mapError
        options.cut).mapError .parse := by
    intro options
    rw [parse_of_lex h, parseTokens_eq_cut]
    rfl
  cases hresult : parseTokens (.ofSource source .unlimited) (locate (.ofSource source) lexemes) with
  | ok g =>
    refine .inl ⟨g, fun options => ?_⟩
    rw [hcut, hresult]
    rfl
  | error errors =>
    have hne : errors ≠ [] := @ne_nil_of_parseTokens_eq_error (.ofSource source .unlimited) _ _ hresult
    obtain ⟨e, es, rfl⟩ := List.exists_cons_of_ne_nil hne
    simp only [hresult, Except.mapError] at hcut
    refine .inr ⟨e, es, hcut _, fun n hn => ?_, fun n => hcut _⟩
    have hlimit : ParserOptions.limit? ⟨true, n⟩ = some n := by
      simp [ParserOptions.limit?, Nat.ne_of_gt hn]
    rw [hcut, ParserOptions.cut, hlimit, Option.elim, List.take_eq_take_min]

/-- Of two mistakes a limit of one keeps the first. -/
theorem parse_options_two_mistakes :
    ∃ e e', parse "%start A%%A:(;B|" ⟨true, 0⟩ = .error (.parse [e, e']) ∧
      parse "%start A%%A:(;B|" ⟨true, 1⟩ = .error (.parse [e]) ∧
      ∀ n, parse "%start A%%A:(;B|" ⟨false, n⟩ = .error (.parse [e]) := by
  have hlex : (lex "%start A%%A:(;B|").isOk := by decide +kernel
  have hcount : (match parse "%start A%%A:(;B|" ⟨true, 0⟩ with
      | .error e => e.parseErrors.length
      | .ok _ => 0) = 2 := by
    decide +kernel
  cases hlexemes : lex "%start A%%A:(;B|" with
  | error e =>
    rw [hlexemes] at hlex
    cases hlex
  | ok lexemes =>
    rcases parse_options hlexemes with ⟨g, hg⟩ | ⟨e, es, hall, hlimit, hfirst⟩
    · rw [hg] at hcount
      cases hcount
    · rw [hall] at hcount
      obtain ⟨e', rfl⟩ := List.length_eq_one_iff.mp (Nat.succ.inj hcount)
      exact ⟨e, e', hall, hlimit 1 Nat.one_pos, hfirst⟩

end GrammarFile
