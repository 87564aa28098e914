import GrammarFile.Parse.File

/-!
# The steps of a reading

`productions` makes one attempt at a production after another. `productionAttempt` is what one of them
comes to by itself, as a reading: what it built, the findings after it, and where the next one starts.

Likewise `definitionAfter` is the second half of a file, given the first, and `assemble` is what the two
halves are put together to (`parseTokens_eq`). A source that lexes is read by its tokens
(`parse_of_lex`).
-/

namespace GrammarFile

/-! ### Productions -/

/-- One attempt at a production. -/
def productionAttempt (context : ParseContext) (found : Findings) (c : Cursor) :
    Reading (List Production) :=
  match (Rules.production maxNesting).run c with
  | .ok p c' => ⟨[p], found, c'⟩
  | .failed fault c' =>
    let found := context.report found fault c'
    ⟨[], found, if found.stopped then c' else c'.resumeProduction c⟩

/-- Whether there is no other attempt after a reading. -/
def Reading.isLast {α : Type} (r : Reading α) : Bool :=
  r.found.stopped || r.cursor.rest.isEmpty

variable (context : ParseContext)

/-- With no token ahead there is one attempt at a production. -/
theorem productions_nil (found : Findings) (c : Cursor) :
    productions context [] found c = productionAttempt context found c := by
  unfold productions productionAttempt
  cases (Rules.production maxNesting).run c <;> rfl

/-- The productions are those of the first attempt, and those of the rest where there is another one. -/
theorem productions_cons (t : LocatedToken) (ahead : List LocatedToken) (found : Findings) (c : Cursor) :
    productions context (t :: ahead) found c =
      let first := productionAttempt context found c
      if first.isLast then first
      else (productions context ahead first.found first.cursor).map (first.value ++ ·) := by
  rw [productions]
  unfold productionAttempt Reading.isLast
  cases (Rules.production maxNesting).run c <;> rfl

/-! ### Parts of the prolog -/

variable {context} {allowed : Bool} {found : Findings} {c : Cursor}

/-- The loop over the prolog ends where it was stopped, at `%%` and at the end of the input. -/
theorem prologItems_of_ends (ahead : List LocatedToken)
    (h : found.stopped || c.rest.isEmpty || c.sees [.mark .percentPercent]) :
    prologItems context ahead allowed found c = ⟨([], []), found, c⟩ := by
  cases ahead with
  | nil => rfl
  | cons t ahead => exact if_pos h

/-- Elsewhere it makes an attempt at one more part. -/
theorem prologItems_of_goes (t : LocatedToken) (ahead : List LocatedToken)
    (h : ¬(found.stopped || c.rest.isEmpty || c.sees [.mark .percentPercent])) :
    prologItems context (t :: ahead) allowed found c =
      match (prologItem allowed).run (c.miss [.mark .percentPercent]) with
      | .ok (.declaration d) c' =>
        (prologItems context ahead allowed found c').map fun (ds, ss) => (d :: ds, ss)
      | .ok (.state s) c' =>
        (prologItems context ahead false found c').map fun (ds, ss) => (ds, s :: ss)
      | .failed fault c' =>
        prologItems context ahead allowed (context.report found fault c')
          (if c.sees [.mark .scanner] then c'.resumeState c else c'.resumeProlog c) :=
  if_neg h

/-! ### The halves of a file -/

variable (context)

/-- The definition after a prolog, unless the reading was stopped there. -/
def definitionAfter (first : Reading (Option Prolog)) : Reading (Option Definition) :=
  if first.found.stopped then ⟨none, first.found, first.cursor⟩
  else definition context first.found first.cursor

/-- A tree, if there are both halves of it and no errors. -/
def assemble : Option Prolog → Option Definition → List ParseError → Except (List ParseError) Grammar
  | some prolog, some definition, [] => .ok ⟨prolog, definition, prolog.range.hull definition.range⟩
  | _, _, errors => .error errors

/-- The errors of a failed reading are those that were found. -/
theorem eq_of_assemble_eq_error {p : Option Prolog} {d : Option Definition}
    {errors found : List ParseError} (h : assemble p d found = .error errors) : errors = found := by
  cases p <;> cases d <;> cases found <;> cases h <;> rfl

/-- A parse reads the prolog, then the productions, and puts them together. -/
theorem parseTokens_eq (tokens : List LocatedToken) :
    parseTokens context tokens =
      let first := prolog context (.start tokens)
      let second := definitionAfter context first
      assemble first.value second.value second.found.errors :=
  rfl

/-- A parse that fails gives the errors that were found on the way. -/
theorem eq_of_parseTokens_eq_error {tokens : List LocatedToken} {errors : List ParseError}
    (h : parseTokens context tokens = .error errors) :
    errors = (definitionAfter context (prolog context (.start tokens))).found.errors :=
  eq_of_assemble_eq_error ((parseTokens_eq context tokens).symm.trans h)

/-! ### From the source text -/

/-- What is the same all through a reading of a source text. -/
def ParseContext.ofSource (source : String) (options : ParserOptions) : ParseContext :=
  ⟨options, (LineIndex.ofSource source).range ⟨source.utf8ByteSize, source.utf8ByteSize⟩⟩

variable {source : String} {lexemes : List Lexeme}

/-- A source that lexes is read by its tokens. -/
theorem parse_of_lex (h : lex source = .ok lexemes) (options : ParserOptions) :
    parse source options =
      (parseTokens (.ofSource source options) (locate (.ofSource source) lexemes)).mapError .parse := by
  unfold parse
  rw [h]
  rfl

/-- A source has an error of the lexer if it does not lex. -/
theorem parse_eq_lexical_iff {options : ParserOptions} {e : LexError} :
    parse source options = .error (.lexical e) ↔ lex source = .error e := by
  cases hlex : lex source with
  | error e' => simp [parse, hlex]
  | ok lexemes =>
    rw [parse_of_lex hlex]
    cases parseTokens (.ofSource source options) (locate (.ofSource source) lexemes) <;>
      constructor <;> intro heq <;> cases heq

/-- A source that lexes parses as its located lexemes do. -/
theorem parse_eq_ok_of_lex (h : lex source = .ok lexemes) {options : ParserOptions} {g : Grammar} :
    parse source options = .ok g ↔
      parseTokens (.ofSource source options) (locate (.ofSource source) lexemes) = .ok g := by
  rw [parse_of_lex h]
  cases parseTokens (.ofSource source options) (locate (.ofSource source) lexemes) <;>
    constructor <;> intro heq <;> cases heq <;> rfl

/-- A source that lexes fails to parse with the errors of its located lexemes. -/
theorem parse_eq_error_of_lex (h : lex source = .ok lexemes) {options : ParserOptions}
    {errors : List ParseError} : parse source options = .error (.parse errors) ↔
      parseTokens (.ofSource source options) (locate (.ofSource source) lexemes) = .error errors := by
  rw [parse_of_lex h]
  cases parseTokens (.ofSource source options) (locate (.ofSource source) lexemes) <;>
    constructor <;> intro heq <;> cases heq <;> rfl

end GrammarFile
