import GrammarFile.Parse.Error

/-!
# Rules that one token decides

A `Rule` is a piece of a grammar whose every choice is settled by the kind of the next token. It is
data: `Rule.first` reads off the kinds it can start with, and `Rule.run` reads tokens by it and builds
the value it describes. The Boolean index says whether a rule always consumes a token; only such a
rule can be an alternative, be repeated or have a range.

A `Cursor` is a place in the token stream. It remembers the kinds that were looked for in vain since
the last token was consumed: those are what an error at this place lists as expected.
-/

namespace GrammarFile

/-- What a round of a repetition gives, and whether it is the last. -/
inductive Step (α : Type) where
  | more (value : α)
  | last (value : α)

/-- A piece of a grammar, and how to build a value of type `α` from what it reads. -/
inductive Rule : Bool → Type → Type 1 where
  /-- No token. -/
  | nothing {α : Type} (value : α) : Rule false α
  /-- One token of the given kind. -/
  | token (kind : TokenKind) : Rule true LocatedToken
  /-- One rule, then another. -/
  | seq {s t : Bool} {α β : Type} (first : Rule s α) (second : Rule t β) : Rule (s || t) (α × β)
  /-- The first rule if the next token can start it, the second one otherwise. -/
  | choice {t : Bool} {α : Type} (first : Rule true α) (second : Rule t α) : Rule t α
  /-- Rounds of a rule, as long as the next token can start another and no round was the last. -/
  | iterate {α : Type} (body : Rule true (Step α)) : Rule false (List α)
  /-- A rule, and a function of what it gives. -/
  | map {s : Bool} {α β : Type} (f : α → β) (rule : Rule s α) : Rule s β
  /-- A rule, and a function of what it gives and of the range of what it reads. -/
  | ranged {α β : Type} (f : α → Range → β) (rule : Rule true α) : Rule true β
  /-- No token of these kinds, since it would open one bracket too many. -/
  | tooDeep {α : Type} (limit : Nat) (kinds : List TokenKind) : Rule true α

namespace Rule

variable {s t : Bool} {α β : Type}

/-- The kinds of the tokens that a rule can start with. -/
def first : {s : Bool} → {α : Type} → Rule s α → List TokenKind
  | _, _, nothing _ => []
  | _, _, token kind => [kind]
  | _, _, seq (s := s) a b => if s then a.first else a.first ++ b.first
  | _, _, choice a b => a.first ++ b.first
  | _, _, iterate body => body.first
  | _, _, map _ rule => rule.first
  | _, _, ranged _ rule => rule.first
  | _, _, tooDeep _ kinds => kinds

/-- One rule, then another, of which the second one's value counts. -/
def skipThen (first : Rule s α) (second : Rule t β) : Rule (s || t) β :=
  map Prod.snd (seq first second)

/-- One rule, then another, of which the first one's value counts. -/
def thenSkip (first : Rule s α) (second : Rule t β) : Rule (s || t) α :=
  map Prod.fst (seq first second)

/-- A rule, or nothing. -/
def optional (rule : Rule true α) : Rule false (Option α) :=
  choice (map some rule) (nothing none)

/-- Any number of rounds of a rule. -/
def many (rule : Rule true α) : Rule false (List α) :=
  iterate (map Step.more rule)

/-- At least one round of a rule. -/
def oneOrMore (rule : Rule true α) : Rule true (List α) :=
  map (fun (head, tail) => head :: tail) (seq rule (many rule))

/-- At least one round of a rule, with a separator between the rounds. -/
def separated (separator : Rule true β) (rule : Rule true α) : Rule true (List α) :=
  map (fun (head, tail) => head :: tail) (seq rule (many (skipThen separator rule)))

end Rule

/-- A place in the token stream: the tokens from here on, the range of the one before, and the kinds
that were looked for in vain since that one was consumed. -/
structure Cursor where
  rest : List LocatedToken
  last : Range
  tried : List TokenKind

namespace Cursor

/-- The start of a token stream. -/
def start (tokens : List LocatedToken) : Cursor :=
  ⟨tokens, .origin, []⟩

/-- Whether the next token is of one of the given kinds. -/
def sees (c : Cursor) (kinds : List TokenKind) : Bool :=
  c.rest.head?.any fun t => kinds.contains t.token.kind

/-- The same place, with these kinds looked for in vain. -/
def miss (c : Cursor) (kinds : List TokenKind) : Cursor :=
  { c with tried := kinds ++ c.tried }

/-- The fault that the next token is none of the kinds that were looked for. -/
def unexpected (c : Cursor) : Fault :=
  .unexpected (TokenKind.sort c.tried)

end Cursor

/-- What reading by a rule comes to: a value, or a fault, and the place where it ends. -/
inductive Outcome (α : Type) where
  | ok (value : α) (cursor : Cursor)
  | failed (fault : Fault) (cursor : Cursor)

namespace Outcome

variable {α β : Type}

/-- The outcome with a function applied to its value. -/
def map (f : α → β) : Outcome α → Outcome β
  | ok a c => ok (f a) c
  | failed fault c => failed fault c

/-- Going on where an outcome ends. -/
def bind : Outcome α → (α → Cursor → Outcome β) → Outcome β
  | ok a c, f => f a c
  | failed fault c, _ => failed fault c

end Outcome

/-- Rounds of `step` from `c` on, as long as the next token is among `first` and no round was the
last. Every round consumes a token, so the list `ahead` of the tokens from `c` on is as long as there
can be rounds. -/
def iterateRounds {α : Type} (first : List TokenKind) (step : Cursor → Outcome (Step α)) :
    (ahead : List LocatedToken) → Cursor → Outcome (List α)
  | [], c => .ok [] (c.miss first)
  | _ :: ahead, c =>
    if c.sees first then
      (step c).bind fun value c =>
        match value with
        | .last a => .ok [a] c
        | .more a => (iterateRounds first step ahead c).map (a :: ·)
    else .ok [] (c.miss first)

/-- Reads tokens by a rule. -/
def Rule.run : {s : Bool} → {α : Type} → Rule s α → Cursor → Outcome α
  | _, _, nothing value, c => .ok value c
  | _, _, token kind, c =>
    match c.rest with
    | t :: rest =>
      if t.token.kind = kind then .ok t ⟨rest, t.range, []⟩
      else .failed (c.miss [kind]).unexpected c
    | [] => .failed (c.miss [kind]).unexpected c
  | _, _, seq a b, c => (a.run c).bind fun x c => (b.run c).map (x, ·)
  | _, _, choice a b, c => if c.sees a.first then a.run c else b.run (c.miss a.first)
  | _, _, iterate body, c => iterateRounds body.first body.run c.rest c
  | _, _, map f rule, c => (rule.run c).map f
  | _, _, ranged f rule, c =>
    (rule.run c).bind fun a c' =>
      .ok (f a (c.rest.head?.elim c'.last fun t => t.range.through c'.last)) c'
  | _, _, tooDeep limit kinds, c =>
    if c.sees kinds then .failed (.tooDeep limit) c else .failed (c.miss kinds).unexpected c

end GrammarFile
