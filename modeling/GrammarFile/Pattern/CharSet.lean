import GrammarFile.Pattern.Escape

/-!
# Sets of characters

How to read what stands between square brackets. Sets nest, and between `&&`, `--` and `~~` they are
operands, grouped from the left. Each open bracket is a `SetLevel`, the innermost first; a step reads an
item, an operator or a bracket, and takes at least one character.
-/

namespace GrammarFile.Pattern

/-- A set that is still open. -/
structure SetLevel where
  negated : Bool
  /-- The operand that an operator follows. -/
  left : Option CharSet
  /-- The items since then, the last one first. -/
  items : List CharSet

namespace SetLevel

/-- The level with one more item. -/
def push (level : SetLevel) (set : CharSet) : SetLevel :=
  { level with items := set :: level.items }

/-- The set of all that was read on the level. -/
def contents (level : SetLevel) : CharSet :=
  let right := CharSet.ofList level.items.reverse
  level.left.elim right fun left => .operation left right

/-- The level after an operator. -/
def operator (level : SetLevel) : SetLevel :=
  { level with left := some level.contents, items := [] }

end SetLevel

/-- The names of sets that may stand between `[:` and `:]`. -/
def namedSets : List String :=
  ["alnum", "alpha", "ascii", "blank", "cntrl", "digit", "graph", "lower", "print", "punct", "space",
   "upper", "word", "xdigit"]

/-- A named set after its opening bracket, if there is one. -/
def namedSet? (cs : List Char) : Option (CharSet × List Char) :=
  match cs with
  | ':' :: rest =>
    let (negated, rest) :=
      match rest with
      | '^' :: rest => (true, rest)
      | rest => (false, rest)
    match rest.dropWhile (· ≠ ':') with
    | ':' :: ']' :: after =>
      let name := String.ofList (rest.takeWhile (· ≠ ':'))
      if namedSets.contains name then some (.named negated, after) else none
    | _ => none
  | _ => none

/-- The characters where they go on, or an error where none is left. -/
def continued (cs : List Char) : Except PatternError (List Char) :=
  if cs.isEmpty then .error .classUnclosed else .ok cs

/-- A level after its opening bracket: `^` negates it, hyphens at its start are literal, and so is a
closing bracket right there. -/
def openSet (verbose : Bool) (cs : List Char) : Except PatternError (SetLevel × List Char) := do
  let cs ← continued (skip verbose cs)
  let (negated, cs) ←
    match cs with
    | '^' :: rest => do pure (true, ← continued (skip verbose rest))
    | cs => pure (false, cs)
  let (hyphens, cs) := takeSignificant (· = '-') verbose false cs
  let cs ← continued cs
  match hyphens, cs with
  | [], ']' :: rest => do
    let rest ← continued (skip verbose rest)
    return (⟨negated, none, [.scalar ⟨']', false⟩]⟩, rest)
  | hyphens, cs => return (⟨negated, none, hyphens.map fun c => .scalar ⟨c, false⟩⟩, cs)

/-- An escape or a character. -/
def setAtom (verbose : Bool) : List Char → Except PatternError (Atom × List Char)
  | '\\' :: rest => escape verbose rest
  | c :: rest => .ok (.scalar ⟨c, false⟩, rest)
  | [] => .error .classUnclosed

/-- An atom as an item of a set. -/
def Atom.item : Atom → Except PatternError CharSet
  | scalar s => .ok (.scalar s)
  | property query => .ok (.property query)
  | shorthand negated => .ok (.shorthand negated)
  | dot | assertion => .error .classEscapeInvalid

/-- An atom as an end of a range. -/
def Atom.bound : Atom → Except PatternError Scalar
  | scalar s => .ok s
  | _ => .error .classRangeBoundary

/-- The character after a hyphen that decides whether there is a range. With the verbose flag, blanks
are passed over, and one `#` that follows them with the blanks behind it. -/
def afterHyphen (verbose : Bool) (cs : List Char) : Option Char :=
  if verbose then
    match cs.dropWhile Text.isBlank with
    | '#' :: rest => (rest.dropWhile Text.isBlank).head?
    | rest => rest.head?
  else cs.head?

/-- An atom, or a range if a hyphen follows that is neither the last character of the set nor the first
of an operator. -/
def setItem (verbose : Bool) (cs : List Char) : Except PatternError (CharSet × List Char) := do
  let (first, cs) ← setAtom verbose cs
  let cs ← continued (skip verbose cs)
  let single : Except PatternError (CharSet × List Char) := do pure (← first.item, cs)
  match cs with
  | '-' :: rest =>
    let next := afterHyphen verbose rest
    if next = some ']' || next = some '-' then single
    else
      let rest ← continued (skip verbose rest)
      let (last, rest) ← setAtom verbose rest
      let first ← first.bound
      let last ← last.bound
      if first.char ≤ last.char then return (.range first last, rest) else .error .classRangeReversed
  | _ => single

/-- The outcome of a step: the open levels and the characters left, or the finished set. -/
inductive SetStep where
  | open (level : SetLevel) (outer : List SetLevel) (rest : List Char)
  | closed (negated : Bool) (set : CharSet) (rest : List Char)

/-- The step at a character that means something. -/
def setStep (verbose : Bool) (level : SetLevel) (outer : List SetLevel) :
    List Char → Except PatternError SetStep
  | [] => .error .classUnclosed
  | '[' :: rest =>
    match namedSet? rest with
    | some (set, rest) => .ok (.open (level.push set) outer rest)
    | none => do
      let (inner, rest) ← openSet verbose rest
      return .open inner (level :: outer) rest
  | ']' :: rest =>
    match outer with
    | [] => .ok (.closed level.negated level.contents rest)
    | parent :: outer => .ok (.open (parent.push (.bracketed level.negated level.contents)) outer rest)
  | '&' :: '&' :: rest | '-' :: '-' :: rest | '~' :: '~' :: rest => .ok (.open level.operator outer rest)
  | cs => do
    let (item, rest) ← setItem verbose cs
    return .open (level.push item) outer rest

/-- The rest of a set with the levels that are open. There are at most as many steps as characters. -/
def setSteps (verbose : Bool) :
    (steps : Nat) → SetLevel → List SetLevel → List Char →
      Except PatternError ((Bool × CharSet) × List Char)
  | 0, _, _, _ => .error .classUnclosed
  | steps + 1, level, outer, cs => do
    match ← setStep verbose level outer (skip verbose cs) with
    | .closed negated set rest => return ((negated, set), rest)
    | .open level outer rest => setSteps verbose steps level outer rest

/-- A set after its opening bracket, and whether it is negated. -/
def readSet (verbose : Bool) (cs : List Char) :
    Except PatternError ((Bool × CharSet) × List Char) := do
  let (level, rest) ← openSet verbose cs
  setSteps verbose (rest.length + 1) level [] rest

end GrammarFile.Pattern
