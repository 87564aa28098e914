import GrammarFile.Parse.File
import GrammarFile.Proofs.Indexed.Positions

/-!
# Reading tokens by their numbers

A `Cursor` holds the tokens that are left, so there is always a next one or none, and a rule with a range
knows its first token. A `Place` holds the number of the next token instead, and the number of brackets
that are open. Whatever is read there is looked up in the array of a `Tape`, and the lookups, the
differences and what is known of a token can all fail.

A reader gives nothing (`none`) where one of them does: where it takes a token behind the last one, finds
a token of another kind than the one it has just seen, counts below 0, or calls itself too often. This is
apart from a mistake in the source (`Attempt.failed`), which is an error with the place it was found at.
-/

namespace GrammarFile

/-- A source text and its tokens by their numbers. -/
structure Tape where
  source : String
  lexemes : Array Lexeme

/-- A place on a tape: the number of the next token, the kinds that were looked for there in vain, and the
number of brackets that are open. -/
structure Place where
  position : Nat
  tried : List TokenKind
  depth : Nat

/-- What an attempt comes to: a value or an error, and the place where it ends. -/
inductive Attempt (α : Type) where
  | done (value : α) (place : Place)
  | failed (error : ParseError) (place : Place)

/-- The same place, with these kinds looked for in vain. -/
def Place.miss (place : Place) (kinds : List TokenKind) : Place :=
  { place with tried := kinds ++ place.tried }

/-! ### Lookups -/

namespace Tape

variable (tape : Tape)

/-- The lines of the source text. -/
def index : LineIndex :=
  .ofSource tape.source

/-- The kind of a token, if there is one of that number. -/
def kindAt? (position : Nat) : Option TokenKind :=
  tape.lexemes[position]?.map (·.token.kind)

/-- Whether there is no next token. -/
def atEnd (place : Place) : Bool :=
  tape.lexemes.size ≤ place.position

/-- Whether the token of a number is of one of the given kinds. -/
def kindIn (kinds : List TokenKind) (position : Nat) : Bool :=
  (tape.kindAt? position).any kinds.contains

/-- Whether the next token is of one of the given kinds. -/
def sees (place : Place) (kinds : List TokenKind) : Bool :=
  tape.kindIn kinds place.position

/-- The next token, which has to be there, and the place behind it. -/
def bump? (place : Place) : Option (LocatedToken × Place) := do
  let lexeme ← tape.lexemes[place.position]?
  let range ← tape.index.range? lexeme.span
  return (⟨lexeme.token, range⟩, ⟨place.position + 1, [], place.depth⟩)

/-- The range of the token of a number, or the end of the source if there is none. -/
def currentRange? (position : Nat) : Option Range :=
  match tape.lexemes[position]? with
  | some lexeme => tape.index.range? lexeme.span
  | none => tape.index.range? ⟨tape.source.utf8ByteSize, tape.source.utf8ByteSize⟩

/-- The range of the token in front of a number, or the origin if there is none. -/
def previousRange? (position : Nat) : Option Range :=
  match (difference? position 1).bind fun before => tape.lexemes[before]? with
  | some lexeme => tape.index.range? lexeme.span
  | none => some .origin

/-- The range from the token of number `start` through the one in front of number `stop`, or the empty
range there if that is no token. -/
def rangeFrom? (start stop : Nat) : Option Range :=
  if stop ≤ start then do
    let here ← tape.currentRange? stop
    return ⟨⟨here.span.start, here.span.start⟩, here.start, here.start⟩
  else do
    let first ← tape.lexemes[start]?
    let before ← difference? stop 1
    let last ← tape.lexemes[before]?
    tape.index.range? ⟨first.span.start, last.span.stop⟩

/-- The error that blames the next token. -/
def blame? (fault : Fault) (place : Place) : Option ParseError := do
  let range ← tape.currentRange? place.position
  return ⟨fault, tape.lexemes[place.position]?.map (·.token), range⟩

end Tape

/-! ### Readers -/

/-- Reads on from a place, unless something goes wrong that is no mistake in the source. -/
def TapeReader (α : Type) : Type :=
  Place → Option (Attempt α)

namespace TapeReader

variable {α β : Type}

/-- No token. -/
def nothing (value : α) : TapeReader α :=
  fun place => some (.done value place)

/-- One reader, and another one that depends on what the first gives. -/
def bind (r : TapeReader α) (f : α → TapeReader β) : TapeReader β :=
  fun place =>
    match r place with
    | none => none
    | some (.failed error place') => some (.failed error place')
    | some (.done value place') => f value place'

/-- A reader, and a function of what it gives. -/
def map (f : α → β) (r : TapeReader α) : TapeReader β :=
  r.bind fun value => nothing (f value)

/-- One reader, then another. -/
def seq (a : TapeReader α) (b : TapeReader β) : TapeReader (α × β) :=
  a.bind fun x => b.map (x, ·)

/-- One reader, then another, of which the second one's value counts. -/
def skipThen (a : TapeReader α) (b : TapeReader β) : TapeReader β :=
  (a.seq b).map Prod.snd

/-- One reader, then another, of which the first one's value counts. -/
def thenSkip (a : TapeReader α) (b : TapeReader β) : TapeReader α :=
  (a.seq b).map Prod.fst

end TapeReader

namespace Tape

variable (tape : Tape) {α β : Type}

open TapeReader (nothing)

/-- The error that the next token is none of the kinds that were looked for, which are forgotten. -/
def unexpected : TapeReader α :=
  fun place => do
    let error ← tape.blame? (.unexpected (TokenKind.sort place.tried)) place
    return .failed error { place with tried := [] }

/-- The error that the next token opens one bracket too many. -/
def tooDeep (limit : Nat) : TapeReader α :=
  fun place => do
    let error ← tape.blame? (.tooDeep limit) place
    return .failed error place

/-- A token of the given kind. The one that is taken has to be of the kind that was seen. -/
def expect (kind : TokenKind) : TapeReader LocatedToken :=
  fun place =>
    if tape.sees place [kind] then do
      let (token, next) ← tape.bump? place
      if token.token.kind = kind then some (.done token next) else none
    else tape.unexpected (place.miss [kind])

/-- The first reader if the next token is among `kinds`, the second one otherwise. -/
def choose (kinds : List TokenKind) (a b : TapeReader α) : TapeReader α :=
  fun place => if tape.sees place kinds then a place else b (place.miss kinds)

/-- Rounds of a reader as long as the next token is among `kinds` and no round was the last, but not more
than the given number of times. -/
def rounds (kinds : List TokenKind) (body : TapeReader (Step α)) : Nat → TapeReader (List α)
  | 0 => fun _ => none
  | more + 1 =>
    tape.choose kinds
      (body.bind fun
        | .last a => nothing [a]
        | .more a => (rounds kinds body more).map (a :: ·))
      (nothing [])

/-- Rounds of a reader, of which there cannot be more than tokens. -/
def iterate (kinds : List TokenKind) (body : TapeReader (Step α)) : TapeReader (List α) :=
  tape.rounds kinds body (tape.lexemes.size + 1)

/-- A reader, and a function of what it gives and of the range of what it reads. -/
def ranged (f : α → Range → β) (r : TapeReader α) : TapeReader β :=
  fun place =>
    r.bind (fun value next => do
      let range ← tape.rangeFrom? place.position next.position
      return .done (f value range) next) place

/-- A reader if the next token is among `kinds`, or nothing. -/
def optional (kinds : List TokenKind) (r : TapeReader α) : TapeReader (Option α) :=
  tape.choose kinds (r.map some) (nothing none)

/-- At least one round of a reader. -/
def oneOrMore (kinds : List TokenKind) (r : TapeReader α) : TapeReader (List α) :=
  (r.seq (tape.iterate kinds (r.map Step.more))).map fun (head, tail) => head :: tail

end Tape

/-- Reads by a rule, token by token. -/
def Rule.reader (tape : Tape) : {s : Bool} → {α : Type} → Rule s α → TapeReader α
  | _, _, nothing value => .nothing value
  | _, _, token kind => tape.expect kind
  | _, _, seq a b => (a.reader tape).seq (b.reader tape)
  | _, _, choice a b => tape.choose a.first (a.reader tape) (b.reader tape)
  | _, _, iterate body => tape.iterate body.first (body.reader tape)
  | _, _, map f rule => (rule.reader tape).map f
  | _, _, ranged f rule => tape.ranged f (rule.reader tape)
  | _, _, tooDeep limit kinds => tape.choose kinds (tape.tooDeep limit) tape.unexpected

/-! ### Bodies

Brackets are counted while they are open, so what is made of factors is no `Rule` here. -/

namespace Tape

variable (tape : Tape)

/-- The kinds that a factor can start with. -/
def factorStarts : List TokenKind :=
  (Rules.factor 0).first

/-- A reader inside of one more open bracket, unless too many are open. However it ends, the bracket is
counted off again. -/
def nested {α : Type} (r : TapeReader α) : TapeReader α :=
  fun place =>
    if maxNesting ≤ place.depth then tape.tooDeep maxNesting place
    else
      match r { place with depth := place.depth + 1 } with
      | none => none
      | some (.done value next) => do
        let depth ← difference? next.depth 1
        return .done value { next with depth }
      | some (.failed error next) => do
        let depth ← difference? next.depth 1
        return .failed error { next with depth }

/-- At least one factor. -/
def alternation (factor : TapeReader Factor) : TapeReader Alternation :=
  tape.ranged AlternationOf.mk (tape.oneOrMore factorStarts factor)

/-- A pipe and the alternation behind it, or the empty one at the end of the pipe. -/
def afterPipe (factor : TapeReader Factor) : TapeReader (Step Alternation) :=
  (tape.expect (.mark .pipe)).bind fun _ =>
    tape.choose factorStarts ((tape.alternation factor).map .more) fun place => do
      let pipe ← tape.previousRange? place.position
      return .done (.last (.empty pipe.endPoint)) place

/-- Alternations between pipes. -/
def alternations (factor : TapeReader Factor) : TapeReader Alternations :=
  tape.ranged (fun (head, tail) range => ⟨head :: tail, range⟩)
    ((tape.alternation factor).seq (tape.iterate [.mark .pipe] (tape.afterPipe factor)))

/-- Brackets around a body or around nothing. -/
def bracketed (kind : BracketKind) (body : TapeReader Alternations) : TapeReader Factor :=
  tape.ranged (fun body range => .bracketed kind body range)
    ((tape.expect (.mark kind.left)).skipThen
      ((tape.optional factorStarts body).thenSkip (tape.expect (.mark kind.right))))

/-- Brackets of the kind that is next around a body. -/
def brackets (body : TapeReader Alternations) : TapeReader Factor :=
  tape.choose [.mark BracketKind.group.left] (tape.bracketed .group body)
    (tape.choose [.mark BracketKind.optional.left] (tape.bracketed .optional body)
      (tape.bracketed .repetition body))

/-- A factor. Inside of it a factor is asked for fewer than the given number of times. -/
def factor : Nat → TapeReader Factor
  | 0 => fun _ => none
  | calls + 1 =>
    tape.choose Rules.openingBrackets (tape.nested (tape.brackets (tape.alternations (factor calls))))
      ((Rules.symbol.reader tape).map .symbol)

/-- A production. -/
def production : TapeReader Production :=
  let body := tape.alternations (tape.factor (maxNesting + 1))
  let bodies : TapeReader (Bool × Option Alternations) :=
    tape.choose [.mark .pipe]
      (((tape.expect (.mark .pipe)).skipThen body).map fun body => (true, some body))
      (tape.choose factorStarts (body.map fun body => (false, some body)) (.nothing (false, none)))
  tape.ranged (fun (name, leadingPipe, body) range => ⟨name, leadingPipe, body, range⟩)
    ((Rules.identifier.reader tape).seq
      ((tape.expect (.mark .colon)).skipThen (bodies.thenSkip (tape.expect (.mark .semicolon)))))

end Tape

end GrammarFile
