import GrammarFile.Number.Width
import GrammarFile.Pattern.CharSet
import GrammarFile.Pattern.Meaning
import GrammarFile.Text.Alphabetic
import GrammarFile.Text.Numeric

/-!
# Reading patterns

`Pattern.read` reads a regular expression from left to right. Each open group is a `GroupLevel`, the
innermost first; a step reads an atom, a set, an operator or a parenthesis, and takes at least one
character. `Pattern.refusal?` judges a text: it has to have the form of a pattern, must not nest too
deep, and must not ask for too much. It does not judge how large a pattern gets when it is compiled.
-/

namespace GrammarFile.Pattern

/-! ### Groups -/

/-- A group that is still open, or the pattern as a whole. -/
structure GroupLevel where
  flags : Flags
  /-- The verbose flag outside the group. -/
  outerVerbose : Bool
  /-- The finished branches, the last one first. -/
  branches : List Pattern
  /-- The items of the branch, the last one first. -/
  items : List Pattern

namespace GroupLevel

/-- A level with nothing read. -/
def new (flags : Flags) (outerVerbose : Bool) : GroupLevel :=
  ⟨flags, outerVerbose, [], []⟩

/-- The level with one more item. -/
def push (level : GroupLevel) (item : Pattern) : GroupLevel :=
  { level with items := item :: level.items }

/-- The level after `|`. -/
def nextBranch (level : GroupLevel) : GroupLevel :=
  { level with branches := inSequence level.items.reverse :: level.branches, items := [] }

/-- The pattern of all that was read on the level. -/
def contents (level : GroupLevel) : Pattern :=
  oneOf level.nextBranch.branches.reverse

end GroupLevel

/-- What was read so far. -/
structure Reader where
  verbose : Bool
  /-- The names of groups. -/
  names : List (List Char)
  level : GroupLevel
  outer : List GroupLevel

namespace Reader

/-- Nothing read. -/
def new : Reader := ⟨false, [], .new .unchanged false, []⟩

/-- One more item. -/
def push (r : Reader) (item : Pattern) : Reader :=
  { r with level := r.level.push item }

/-- A group is opened. -/
def openGroup (r : Reader) (flags : Flags) : Reader :=
  { r with
    verbose := flags.verbose.getD r.verbose
    level := .new flags r.verbose
    outer := r.level :: r.outer }

/-- The innermost group is closed. -/
def closeGroup (r : Reader) : Except PatternError Reader :=
  match r.outer with
  | [] => .error .groupUnopened
  | parent :: outer =>
    .ok { r with
      verbose := r.level.outerVerbose
      level := parent.push (.group r.level.flags r.level.contents)
      outer }

/-- The flags change up to the end of the group. -/
def setFlags (r : Reader) (flags : Flags) : Reader :=
  { r.push (.flags flags) with verbose := flags.verbose.getD r.verbose }

/-- The last item is repeated. Flags cannot be. -/
def repeatLast (r : Reader) : Except PatternError Reader :=
  match r.level.items with
  | [] | .empty :: _ | .flags _ :: _ => .error .repetitionMissing
  | item :: items => .ok { r with level := { r.level with items := .repetition item :: items } }

end Reader

/-! ### The start of a group -/

/-- Whether a character may stand in the name of a group, where the first is more restricted. -/
def isNameChar (first : Bool) (c : Char) : Bool :=
  c = '_' || Text.alphabetic.contains c ||
    (!first && (c = '.' || c = '[' || c = ']' || Text.numeric.contains c))

/-- The characters of a name up to `>`. -/
def nameChars (first : Bool) : List Char → Except PatternError (List Char × List Char)
  | [] => .error .groupNameUnclosed
  | '>' :: rest => .ok ([], rest)
  | c :: rest =>
    if isNameChar first c then do
      let (name, rest) ← nameChars false rest
      return (c :: name, rest)
    else .error .groupNameInvalid

/-- The letters of the flags. -/
def flagLetters : List Char := ['i', 'm', 's', 'U', 'u', 'R', 'x']

/-- The flags up to `:` or `)`, with that character. `seen` holds the flags before, the last one
first. -/
def flagChars (seen : List Char) : List Char → Except PatternError (List Char × Char × List Char)
  | [] => .error .flagIncomplete
  | c :: rest =>
    if c = ':' || c = ')' then
      if seen.head? = some '-' then .error .flagDanglingNegation else .ok (seen.reverse, c, rest)
    else if c = '-' then
      if seen.contains c then .error .flagRepeatedNegation else flagChars (c :: seen) rest
    else if !flagLetters.contains c then .error .flagUnrecognized
    else if seen.contains c then .error .flagDuplicate
    else flagChars (c :: seen) rest

/-- What flags say about one of them: those after the hyphen are turned off. -/
def flagState (flags : List Char) (flag : Char) : Option Bool :=
  if (flags.takeWhile (· ≠ '-')).contains flag then some true
  else if flags.contains flag then some false
  else none

/-- The change that flags ask for. -/
def Flags.ofChars (flags : List Char) : Flags :=
  ⟨flagState flags 'x', flagState flags 'u'⟩

/-- What is written at the start of look-around, which no pattern may have. -/
def lookAroundMarks : List (List Char) := [['?', '='], ['?', '!'], ['?', '<', '='], ['?', '<', '!']]

/-- A group with a name. -/
def openNamed (r : Reader) (cs : List Char) : Except PatternError (Reader × List Char) := do
  let (name, rest) ← nameChars true cs
  if name.isEmpty then .error .groupNameEmpty
  else if r.names.contains name then .error .groupNameDuplicate
  else return ({ r with names := name :: r.names }.openGroup .unchanged, rest)

/-- A group with flags, or flags alone, which may not be none. -/
def openFlags (r : Reader) (cs : List Char) : Except PatternError (Reader × List Char) :=
  if cs.isEmpty then .error .groupUnclosed
  else do
    let (letters, close, rest) ← flagChars [] cs
    let change := Flags.ofChars letters
    if close = ':' then return (r.openGroup change, rest)
    else if letters.isEmpty then .error .repetitionMissing
    else return (r.setFlags change, rest)

/-- What follows an opening parenthesis. -/
def openParenthesis (r : Reader) (cs : List Char) : Except PatternError (Reader × List Char) :=
  let cs := skip r.verbose cs
  if lookAroundMarks.any fun mark => mark.isPrefixOf cs then .error .lookAround
  else
    match cs with
    | '?' :: 'P' :: '<' :: rest | '?' :: '<' :: rest => openNamed r rest
    | '?' :: rest => openFlags r rest
    | cs => .ok (r.openGroup .unchanged, cs)

/-! ### Repetitions -/

/-- The characters after a mark that makes a repetition prefer fewer matches. -/
def skipLazy : List Char → List Char
  | '?' :: rest => rest
  | cs => cs

/-- A decimal number with blanks around it, and the characters after it. The number may be missing or
too large. -/
def readCount (verbose : Bool) (cs : List Char) : Except PatternError Nat × List Char :=
  let (digits, rest) := takeSignificant Char.isDigit verbose false (cs.dropWhile Text.isBlank)
  let n := Text.numeral 10 digits
  let count :=
    if digits.isEmpty then .error .countMissing
    else if fitsUnsigned 32 n then .ok n
    else .error .decimalInvalid
  (count, rest.dropWhile Text.isBlank)

/-- The characters where they go on, or an error where none is left. -/
def countContinued (cs : List Char) : Except PatternError (List Char) :=
  if cs.isEmpty then .error .countUnclosed else .ok cs

/-- The bounds of a counted repetition up to the closing brace, the upper one only if there is one. -/
def readBounds (verbose : Bool) (cs : List Char) :
    Except PatternError ((Nat × Option Nat) × List Char) := do
  let cs ← countContinued (skip verbose cs)
  let (least, cs) := readCount verbose cs
  match ← countContinued cs with
  | ',' :: rest =>
    match ← countContinued (skip verbose rest) with
    | '\x7d' :: rest => return ((← least, none), '\x7d' :: rest)
    | cs =>
      let least ← least
      let (most, rest) := readCount verbose cs
      return ((least, some (← most)), rest)
  | cs =>
    let least ← least
    return ((least, some least), cs)

/-- The characters after a counted repetition, whose opening brace is read. -/
def readCounted (verbose : Bool) (cs : List Char) : Except PatternError (List Char) := do
  let ((least, most), cs) ← readBounds verbose cs
  match cs with
  | '\x7d' :: rest =>
    if most.any (· < least) then .error .countReversed else return skipLazy (skip verbose rest)
  | _ => .error .countUnclosed

/-! ### The whole -/

/-- The step at a character that means something. -/
def step (r : Reader) (c : Char) (cs : List Char) : Except PatternError (Reader × List Char) := do
  if c = '(' then openParenthesis r cs
  else if c = ')' then return (← r.closeGroup, cs)
  else if c = '|' then return ({ r with level := r.level.nextBranch }, cs)
  else if c = '[' then
    let ((negated, set), rest) ← readSet r.verbose cs
    return (r.push (.bracketed negated set), rest)
  else if c = '?' || c = '*' || c = '+' then return (← r.repeatLast, skipLazy cs)
  else if c = '\x7b' then
    let r' ← r.repeatLast
    return (r', ← readCounted r.verbose cs)
  else if c = '\\' then
    let (a, rest) ← escape r.verbose cs
    return (r.push (.atom a), rest)
  else if c = '.' then return (r.push (.atom .dot), cs)
  else if c = '^' || c = '$' then return (r.push (.atom .assertion), cs)
  else return (r.push (.atom (.scalar ⟨c, false⟩)), cs)

/-- The rest of a pattern. There are at most as many steps as characters. -/
def readSteps : (steps : Nat) → Reader → List Char → Except PatternError Pattern
  | 0, r, _ => if r.outer.isEmpty then .ok r.level.contents else .error .groupUnclosed
  | steps + 1, r, cs =>
    match skip r.verbose cs with
    | [] => if r.outer.isEmpty then .ok r.level.contents else .error .groupUnclosed
    | c :: rest => do
      let (r, rest) ← step r c rest
      readSteps steps r rest

/-- The pattern that a text is. -/
def read (text : String) : Except PatternError Pattern :=
  readSteps (text.toList.length + 1) .new text.toList

/-- How deep a pattern may nest. -/
def depthLimit : Nat := 250

/-- The error that a text makes as a pattern, where the Unicode flag is on at its start. -/
def error? (text : String) : Option PatternError :=
  match read text with
  | .error e => some e
  | .ok pattern =>
    if depthLimit < pattern.depth then some (.nestingTooDeep depthLimit)
    else
      match pattern.meaning true with
      | .error e => some e
      | .ok _ => none

/-- The error that a text makes as a pattern, in words. -/
def refusal? (text : String) : Option String :=
  (error? text).map fun error => "error: " ++ error.message

end GrammarFile.Pattern
