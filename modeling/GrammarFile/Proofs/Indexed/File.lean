import GrammarFile.Proofs.Indexed.Tape

/-!
# Reading a whole file by number

This is `parse` over the array of the tokens: the loops of the prolog and of the productions, the way they
go on after an error, and the tree that is built from them. The loops are counted, since nothing but the
tokens that they pass over makes them end, and a count that runs out is one more thing to go wrong.

A tree is asked for where there is no error. That a half of it is missing there goes wrong too.
-/

namespace GrammarFile

/-- A part of a file as far as it was read by number. -/
structure TapeReading (α : Type) where
  value : α
  found : Findings
  place : Place

/-- The reading with a function applied to what was built. -/
def TapeReading.map {α β : Type} (f : α → β) (r : TapeReading α) : TapeReading β :=
  ⟨f r.value, r.found, r.place⟩

namespace Tape

variable (tape : Tape)

/-! ### Going on after an error -/

/-- Passes over tokens up to the first number at which `isStart` holds, or to the end. -/
def skip? (isStart : Nat → Bool) : Nat → Place → Option Place
  | 0, _ => none
  | more + 1, place =>
    if tape.atEnd place || isStart place.position then some place
    else do
      let (_, next) ← tape.bump? place
      skip? isStart more next

/-- Past the token of number `failedAt`, if it is the next one. -/
def leave? (failedAt : Nat) (place : Place) : Option Place :=
  if place.position = failedAt && !tape.atEnd place then (tape.bump? place).map (·.2) else some place

/-- Where to go on after an attempt that started at number `failedAt`, past the token there. -/
def synchronize? (failedAt : Nat) (isStart : Nat → Bool) (place : Place) : Option Place := do
  let past ← tape.leave? failedAt place
  let next ← tape.skip? isStart (tape.lexemes.size + 1) past
  return { next with tried := [] }

/-- Past the next token, if it is this mark. -/
def pass? (m : Mark) (place : Place) : Option Place :=
  if tape.sees place [.mark m] then (tape.bump? place).map (·.2) else some place

/-- After a failed part of the prolog that is no scanner state. -/
def synchronizeProlog? (failedAt : Nat) (place : Place) : Option Place :=
  tape.synchronize? failedAt (tape.kindIn prologStarts) place

/-- After a failed scanner state. -/
def synchronizeState? (failedAt : Nat) (place : Place) : Option Place := do
  let next ← tape.synchronize? failedAt
    (tape.kindIn [.mark .rightBrace, .mark .scanner, .mark .percentPercent]) place
  tape.pass? .rightBrace next

/-- After a failed part of the prolog that started at `start`. -/
def synchronizeItem? (start place : Place) : Option Place :=
  if tape.sees start [.mark .scanner] then tape.synchronizeState? start.position place
  else tape.synchronizeProlog? start.position place

/-- Whether a production can start with the token of a number: with a name and a colon behind it. -/
def productionAt (position : Nat) : Bool :=
  tape.kindAt? position = some .identifier && tape.kindAt? (position + 1) = some (.mark .colon)

/-- After a failed production. -/
def synchronizeProduction? (failedAt : Nat) (place : Place) : Option Place := do
  let next ← tape.synchronize? failedAt
    (fun position => tape.kindIn [.mark .semicolon] position || tape.productionAt position) place
  tape.pass? .semicolon next

/-! ### The parts of a file -/

variable (options : ParserOptions)

/-- The declarations and scanner states up to `%%` or the end, in no more than the given number of
attempts. -/
def prologItems? : Nat → Bool → Findings → Place →
    Option (TapeReading (List Declaration × List ScannerState))
  | 0, _, _, _ => none
  | more + 1, allowed, found, place =>
    if found.stopped || tape.atEnd place || tape.sees place [.mark .percentPercent] then
      some ⟨([], []), found, place⟩
    else
      match (prologItem allowed).reader tape (place.miss [.mark .percentPercent]) with
      | none => none
      | some (.done (.declaration d) next) =>
        (prologItems? more allowed found next).map (·.map fun (ds, ss) => (d :: ds, ss))
      | some (.done (.state s) next) =>
        (prologItems? more false found next).map (·.map fun (ds, ss) => (ds, s :: ss))
      | some (.failed error next) => do
        let next ← tape.synchronizeItem? place next
        prologItems? more allowed (found.report options error) next

/-- The start declaration. Where it is missing, the part that stands there is not passed over. -/
def startDeclaration? (place : Place) : Option (TapeReading (Option StartDeclaration)) :=
  match Rules.startDeclaration.reader tape place with
  | none => none
  | some (.done start next) => some ⟨some start, .none, next⟩
  | some (.failed error next) =>
    let found := Findings.none.report options error
    if tape.sees next prologStarts then some ⟨none, found, { next with tried := [] }⟩
    else (tape.synchronizeProlog? place.position next).map fun next => ⟨none, found, next⟩

/-- The prolog. Its range is looked up only if there is a start declaration. -/
def prolog? (place : Place) : Option (TapeReading (Option Prolog)) := do
  let start ← tape.startDeclaration? options place
  let items ← tape.prologItems? options (tape.lexemes.size + 1) true start.found start.place
  match start.value with
  | none => return ⟨none, items.found, items.place⟩
  | some declaration => do
    let range ← tape.rangeFrom? place.position items.place.position
    return ⟨some ⟨declaration, items.value.1, items.value.2, range⟩, items.found, items.place⟩

/-- One attempt at a production. -/
def productionAttempt? (found : Findings) (place : Place) :
    Option (TapeReading (Option (List Production))) :=
  match tape.production place with
  | none => none
  | some (.done p next) => some ⟨some [p], found, next⟩
  | some (.failed error next) =>
    let found := found.report options error
    if found.stopped then some ⟨none, found, next⟩
    else (tape.synchronizeProduction? place.position next).map fun next => ⟨none, found, next⟩

/-- The productions up to the end, in no more than the given number of attempts, or nothing where one of
them failed. -/
def productions? : Nat → Findings → Place → Option (TapeReading (Option (List Production)))
  | 0, _, _ => none
  | more + 1, found, place => do
    let first ← tape.productionAttempt? options found place
    if first.found.stopped || tape.atEnd first.place then return first
    else do
      let rest ← productions? more first.found first.place
      return rest.map fun value => first.value.bind fun ps => value.map (ps ++ ·)

/-- The definition. Its range is looked up only if no production failed. -/
def definition? (found : Findings) (place : Place) : Option (TapeReading (Option Definition)) :=
  match tape.expect (.mark .percentPercent) place with
  | none => none
  | some (.failed error next) => some ⟨none, found.report options error, next⟩
  | some (.done _ next) => do
    let items ← tape.productions? options (tape.lexemes.size + 1) found next
    match items.value with
    | none => return ⟨none, items.found, items.place⟩
    | some productions => do
      let range ← tape.rangeFrom? place.position items.place.position
      return ⟨some ⟨productions, range⟩, items.found, items.place⟩

/-- The definition after a prolog, unless the reading was stopped there. -/
def definitionAfter? (first : TapeReading (Option Prolog)) : Option (TapeReading (Option Definition)) :=
  if first.found.stopped then some ⟨none, first.found, first.place⟩
  else tape.definition? options first.found first.place

/-- A whole file. Where there is no error, both halves of it have to be there. -/
def parse? : Option (Except (List ParseError) Grammar) := do
  let first ← tape.prolog? options ⟨0, [], 0⟩
  let second ← tape.definitionAfter? options first
  match second.found.errors with
  | e :: es => return .error (e :: es)
  | [] =>
    match first.value, second.value with
    | some prolog, some definition =>
      return .ok ⟨prolog, definition, prolog.range.hull definition.range⟩
    | _, _ => none

end Tape

/-- The grammar that a source text writes, read by the numbers of its tokens. -/
def parseByNumber? (source : String) (options : ParserOptions) : Option (Except GrammarError Grammar) :=
  match lex source with
  | .error e => some (.error (.lexical e))
  | .ok lexemes => ((Tape.mk source lexemes.toArray).parse? options).map (·.mapError .parse)

end GrammarFile
