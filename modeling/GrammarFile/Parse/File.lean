import GrammarFile.Parse.Rules
import GrammarFile.Token.Lexer

/-!
# Reading a whole file

`parse` reads a source text into a `Grammar`, or says what is wrong with it. After an error it goes on
at a place where the next part can start, so that one reading reports every independent mistake:

- in the prolog at the next declaration, `%scanner` or `%%`,
- in a scanner state after its `}`, unless the next state or `%%` comes first,
- among the productions after the next `;`, unless a name with a colon comes first.

The token that an attempt started with is always passed over, so every attempt makes progress.
`ParserOptions` says after how many errors to stop. A tree is given only where there is no error.
-/

namespace GrammarFile

/-- How far to go on after errors. -/
structure ParserOptions where
  /-- Go on after an error. -/
  recover : Bool
  /-- The number of errors after which to stop, where 0 means no limit. -/
  maxErrors : Nat
  deriving DecidableEq, Inhabited

namespace ParserOptions

/-- Go on, up to a hundred errors. -/
def default : ParserOptions := ⟨true, 100⟩

/-- Stop at the first error. -/
def failFast : ParserOptions := ⟨false, 1⟩

/-- Whether to stop once `count` errors are found, the last of them just now. -/
def stopsAt (options : ParserOptions) (count : Nat) : Bool :=
  !options.recover || (0 < options.maxErrors && options.maxErrors ≤ count)

end ParserOptions

/-- The errors of a reading so far, and whether it has been stopped. -/
structure Findings where
  errors : List ParseError
  stopped : Bool

namespace Findings

/-- Nothing found yet. -/
def none : Findings := ⟨[], false⟩

/-- One more error. -/
def report (found : Findings) (options : ParserOptions) (e : ParseError) : Findings :=
  let errors := found.errors ++ [e]
  ⟨errors, options.stopsAt errors.length⟩

end Findings

/-- What is the same all through a reading: the options, and the range of the end of the source. -/
structure ParseContext where
  options : ParserOptions
  endOfInput : Range

namespace ParseContext

/-- The error that blames the token at `c`. -/
def blame (context : ParseContext) (fault : Fault) (c : Cursor) : ParseError :=
  ⟨fault, c.rest.head?.map (·.token), c.rest.head?.elim context.endOfInput (·.range)⟩

/-- The findings with the error that blames the token at `c`. -/
def report (context : ParseContext) (found : Findings) (fault : Fault) (c : Cursor) : Findings :=
  found.report context.options (context.blame fault c)

end ParseContext

/-! ### Going on after an error -/

/-- The tokens from the first place on at which `isStart` holds. -/
def skipTo (isStart : List LocatedToken → Bool) : List LocatedToken → List LocatedToken
  | [] => []
  | t :: rest => if isStart (t :: rest) then t :: rest else skipTo isStart rest

namespace Cursor

/-- Where to go on after an attempt that started at `start` and failed at `c`: at the first place
from `c` on at which `isStart` holds, but past the token at `start`. -/
def resume (c start : Cursor) (isStart : List LocatedToken → Bool) : Cursor :=
  let rest := if c.rest.length = start.rest.length then c.rest.tail else c.rest
  ⟨skipTo isStart rest, c.last, []⟩

/-- Past the next token, if it is this mark. -/
def pass (c : Cursor) (m : Mark) : Cursor :=
  if c.sees [.mark m] then { c with rest := c.rest.tail } else c

end Cursor

/-- Whether the next token is of one of the given kinds. -/
def headIn (kinds : List TokenKind) (tokens : List LocatedToken) : Bool :=
  tokens.head?.any fun t => kinds.contains t.token.kind

/-- Where the prolog can go on: at a declaration, a scanner state or `%%`. -/
def prologStarts : List TokenKind :=
  Rules.declaration.first ++ [.mark .scanner, .mark .percentPercent]

/-- After a failed part of the prolog that is no scanner state. -/
def Cursor.resumeProlog (c start : Cursor) : Cursor :=
  c.resume start (headIn prologStarts)

/-- After a failed scanner state. -/
def Cursor.resumeState (c start : Cursor) : Cursor :=
  (c.resume start (headIn [.mark .rightBrace, .mark .scanner, .mark .percentPercent])).pass .rightBrace

/-- Where a production can start: at a name with a colon. -/
def startsProduction : List LocatedToken → Bool
  | t :: u :: _ => t.token.kind = .identifier && u.token.kind = .mark .colon
  | _ => false

/-- After a failed production. -/
def Cursor.resumeProduction (c start : Cursor) : Cursor :=
  (c.resume start fun tokens => headIn [.mark .semicolon] tokens || startsProduction tokens).pass
    .semicolon

/-! ### The parts of a file -/

/-- A part of a file as far as it was read: what was built, the findings, and where it ends. -/
structure Reading (α : Type) where
  value : α
  found : Findings
  cursor : Cursor

namespace Reading

/-- The reading with a function applied to what was built. -/
def map {α β : Type} (f : α → β) (r : Reading α) : Reading β :=
  ⟨f r.value, r.found, r.cursor⟩

end Reading

/-- A part of the prolog after the start declaration. -/
inductive PrologItem where
  | declaration (declaration : Declaration)
  | state (state : ScannerState)

/-- A part of the prolog. There are no declarations after a scanner state. -/
def prologItem (declarationsAllowed : Bool) : Rule true PrologItem :=
  let state := Rule.map PrologItem.state Rules.scannerState
  if declarationsAllowed then .choice state (.map .declaration Rules.declaration) else state

/-- The declarations and scanner states from `c` on, up to `%%` or the end of the input. Each attempt
passes over a token, so the list `ahead` of the tokens from `c` on is as long as there can be
attempts. -/
def prologItems (context : ParseContext) :
    (ahead : List LocatedToken) → (declarationsAllowed : Bool) → Findings → Cursor →
      Reading (List Declaration × List ScannerState)
  | [], _, found, c => ⟨([], []), found, c⟩
  | _ :: ahead, allowed, found, c =>
    if found.stopped || c.rest.isEmpty || c.sees [.mark .percentPercent] then ⟨([], []), found, c⟩
    else
      match (prologItem allowed).run (c.miss [.mark .percentPercent]) with
      | .ok (.declaration d) c' =>
        (prologItems context ahead allowed found c').map fun (ds, ss) => (d :: ds, ss)
      | .ok (.state s) c' =>
        (prologItems context ahead false found c').map fun (ds, ss) => (ds, s :: ss)
      | .failed fault c' =>
        let next := if c.sees [.mark .scanner] then c'.resumeState c else c'.resumeProlog c
        prologItems context ahead allowed (context.report found fault c') next

/-- The start declaration. Where it is missing, the part that stands there is not passed over. -/
def startDeclaration (context : ParseContext) (c : Cursor) : Reading (Option StartDeclaration) :=
  match Rules.startDeclaration.run c with
  | .ok start c' => ⟨some start, .none, c'⟩
  | .failed fault c' =>
    let next := if c'.sees prologStarts then { c' with tried := [] } else c'.resumeProlog c
    ⟨none, context.report .none fault c', next⟩

/-- The prolog. -/
def prolog (context : ParseContext) (c : Cursor) : Reading (Option Prolog) :=
  let start := startDeclaration context c
  let items := prologItems context start.cursor.rest true start.found start.cursor
  let build (declaration : StartDeclaration) : Prolog :=
    ⟨declaration, items.value.1, items.value.2, declaration.range.through items.cursor.last⟩
  ⟨start.value.map build, items.found, items.cursor⟩

/-- The productions from `c` on, up to the end of the input. One production is asked for even there.
Each attempt passes over a token, so the list `ahead` of the tokens from `c` on is as long as there
can be further attempts. -/
def productions (context : ParseContext) :
    (ahead : List LocatedToken) → Findings → Cursor → Reading (List Production)
  | ahead, found, c =>
    let (value, found, next) : List Production × Findings × Cursor :=
      match (Rules.production maxNesting).run c with
      | .ok p c' => ([p], found, c')
      | .failed fault c' =>
        let found := context.report found fault c'
        ([], found, if found.stopped then c' else c'.resumeProduction c)
    match ahead with
    | [] => ⟨value, found, next⟩
    | _ :: ahead =>
      if found.stopped || next.rest.isEmpty then ⟨value, found, next⟩
      else (productions context ahead found next).map (value ++ ·)

/-- The definition: `%%` and the productions. -/
def definition (context : ParseContext) (found : Findings) (c : Cursor) : Reading (Option Definition) :=
  match (Rules.mark .percentPercent).run c with
  | .failed fault c' => ⟨none, context.report found fault c', c'⟩
  | .ok percent c' =>
    let items := productions context c'.rest found c'
    ⟨some ⟨items.value, percent.range.through items.cursor.last⟩, items.found, items.cursor⟩

/-- A whole file, as tokens. -/
def parseTokens (context : ParseContext) (tokens : List LocatedToken) :
    Except (List ParseError) Grammar :=
  let first := prolog context (.start tokens)
  let second :=
    if first.found.stopped then ⟨none, first.found, first.cursor⟩
    else definition context first.found first.cursor
  match first.value, second.value, second.found.errors with
  | some prolog, some definition, [] => .ok ⟨prolog, definition, prolog.range.hull definition.range⟩
  | _, _, errors => .error errors

/-! ### From the source text -/

/-- Why a source text is no grammar file. -/
inductive GrammarError where
  | lexical (error : LexError)
  /-- The mistakes that were found, in the order of the file. -/
  | parse (errors : List ParseError)
  deriving DecidableEq, Inhabited

namespace GrammarError

/-- The parse errors, of which a lexical error has none. -/
def parseErrors : GrammarError → List ParseError
  | lexical _ => []
  | parse errors => errors

/-- The wording of an error as a whole. -/
def message : GrammarError → String
  | lexical e => "lexing failed: " ++ e.message
  | parse errors =>
    toString errors.length ++ " parse error(s), first: " ++ errors.head?.elim "" (·.message)

end GrammarError

/-- The tokens with the ranges of their texts. -/
def locate (index : LineIndex) (lexemes : List Lexeme) : List LocatedToken :=
  lexemes.map fun lexeme => ⟨lexeme.token, index.range lexeme.span⟩

/-- The grammar that a source text writes. -/
def parse (source : String) (options : ParserOptions) : Except GrammarError Grammar :=
  match lex source with
  | .error e => .error (.lexical e)
  | .ok lexemes =>
    let index := LineIndex.ofSource source
    let stop := source.utf8ByteSize
    (parseTokens ⟨options, index.range ⟨stop, stop⟩⟩ (locate index lexemes)).mapError .parse

end GrammarFile
