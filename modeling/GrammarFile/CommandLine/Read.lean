import GrammarFile.CommandLine.Similarity
import GrammarFile.CommandLine.Usage

/-!
# Reading command lines

`Invocation.read` makes out what is wanted. Arguments are taken in turn, and an option or a path is
complete only when the next one starts, so that of two mistakes the one found first by that rule is
reported. After two dashes alone, everything is a path. A request for help or for the version is
answered at once, whatever may follow it.
-/

namespace GrammarFile

/-- What is given on a command line. -/
structure Arguments where
  path : Option String
  format : Option String
  config : Option String
  check : Bool
  noRecover : Bool
  lineNumbers : Bool
  listFormats : Bool
  deriving DecidableEq, Inhabited

/-- What is wanted. -/
inductive Invocation where
  | run (arguments : Arguments)
  | help
  | version
  deriving DecidableEq, Inhabited

/-- An argument by its form alone. -/
inductive Word where
  /-- Two dashes. -/
  | separator
  /-- Two dashes and a name, which may be followed by an equals sign and a value. -/
  | long (name : String) (value : Option String)
  /-- A dash and letters. -/
  | short (first : Char) (rest : List Char)
  | plain (text : String)
  deriving DecidableEq, Inhabited

namespace Word

/-- A name and, after an equals sign, a value. -/
def ofNameAndValue (cs : List Char) : Word :=
  let name := String.ofList (cs.takeWhile (· ≠ '='))
  match cs.dropWhile (· ≠ '=') with
  | [] => long name none
  | _ :: value => long name (some (String.ofList value))

/-- The form of an argument. -/
def of (text : String) : Word :=
  match text.toList with
  | ['-', '-'] => separator
  | '-' :: '-' :: rest => ofNameAndValue rest
  | '-' :: c :: rest => short c rest
  | _ => plain text

end Word

/-- What has been read of a command line. -/
structure Progress where
  /-- What is given and complete, in order; flags with an empty text. -/
  given : List (Argument × String)
  /-- What is not complete: a path with its text, or an option whose value may still be missing. -/
  pending : Option (Argument × Option String)
  /-- Whether two dashes have been read. -/
  afterSeparator : Bool

namespace Progress

/-- Nothing. -/
def start : Progress := ⟨[], none, false⟩

/-- The arguments that are given and complete. -/
def arguments (p : Progress) : List Argument :=
  p.given.map (·.1)

/-- Whether an argument is given and complete. -/
def has (p : Progress) (argument : Argument) : Bool :=
  p.arguments.contains argument

/-- What is given, and one argument more, which may not be there yet. -/
def add (p : Progress) (argument : Argument) (text : String) : Except UsageError Progress :=
  if p.has argument then .error (.repeated argument)
  else .ok { p with given := p.given ++ [(argument, text)] }

/-- The argument that was not complete is complete now. -/
def settle (p : Progress) : Except UsageError Progress :=
  match p.pending with
  | none => .ok p
  | some (option, none) => .error (.missingValue option)
  | some (argument, some text) => { p with pending := none }.add argument text

/-- The arguments that count as given where another mistake is reported first: one that is repeated does
not count at all. -/
def settledArguments (p : Progress) : List Argument :=
  match p.pending with
  | some (argument, some _) =>
    if p.has argument then p.arguments.erase argument else p.arguments ++ [argument]
  | _ => p.arguments

/-- The progress after an option with its value. -/
def addOption (p : Progress) (option : Argument) (value : Option String) :
    Except UsageError Progress := do
  let p ← p.settle
  match value with
  | some text => p.add option text
  | none => return { p with pending := some (option, none) }

/-- The progress after a flag, or the answer to what it asks for at once. -/
def addFlag (p : Progress) (flag : Argument) : Except UsageError (Progress ⊕ Invocation) := do
  let p ← p.settle
  if flag = .help then return .inr .help
  if flag = .version then return .inr .version
  return .inl (← p.add flag "")

/-- The progress after a name, perhaps with a value. -/
def addLong (p : Progress) (name : String) (value : Option String) :
    Except UsageError (Progress ⊕ Invocation) :=
  match Argument.ofName? name with
  | none =>
    .error
      (.unknownName name (Similarity.closest? Argument.name name Argument.options)
        p.settledArguments)
  | some argument =>
    if argument.takesValue then (p.addOption argument value).map .inl
    else
      match value with
      | none => p.addFlag argument
      | some text => .error (.unwantedValue argument text p.arguments)

/-- The value of an option in the letters after its own. An equals sign in front is not part of it. -/
def valueOfLetters : List Char → Option String
  | [] => none
  | '=' :: rest => some (String.ofList rest)
  | cs => some (String.ofList cs)

/-- The progress after letters. An option takes all that follow as its value. -/
def addLetters (p : Progress) : (first : Char) → (rest : List Char) →
    Except UsageError (Progress ⊕ Invocation)
  | letter, rest =>
    match Argument.ofLetter? letter with
    | none => .error (.unknownLetter letter)
    | some argument =>
      if argument.takesValue then (p.addOption argument (valueOfLetters rest)).map .inl
      else p.addFlag argument

/-- The progress after a path. -/
def addPath (p : Progress) (text : String) : Except UsageError Progress :=
  if p.has .path || p.pending.any (·.1 = .path) then .error (.secondPath text)
  else do return { (← p.settle) with pending := some (.path, some text) }

/-- The progress after a text that is no option: the value of one that waits for it, or the path. -/
def addPlain (p : Progress) (text : String) : Except UsageError Progress :=
  match p.pending with
  | some (option, none) =>
    if p.afterSeparator then p.addPath text
    else .ok { p with pending := some (option, some text) }
  | _ => p.addPath text

/-- The progress after one more argument. -/
def step (p : Progress) (text : String) : Except UsageError (Progress ⊕ Invocation) :=
  if p.afterSeparator then (p.addPlain text).map .inl
  else
    match Word.of text with
    | .separator => .ok (.inl { p with afterSeparator := true })
    | .long name value => p.addLong name value
    | .short first rest => p.addLetters first rest
    | .plain text => (p.addPlain text).map .inl

/-- What is wanted, where no argument is left. -/
def finish (p : Progress) : Except UsageError Invocation := do
  let p ← p.settle
  let flag (argument : Argument) : Bool := p.has argument
  if p.given.isEmpty then throw .nothing
  if !flag .path && !flag .listFormats then throw (.missingPath p.arguments)
  return .run ⟨p.given.lookup .path, p.given.lookup .format, p.given.lookup .config, flag .check,
    flag .noRecover, flag .lineNumbers, flag .listFormats⟩

/-- What is wanted after more arguments. -/
def read (p : Progress) : (arguments : List String) → Except UsageError Invocation
  | [] => p.finish
  | argument :: rest => do
    match ← p.step argument with
    | .inl p => read p rest
    | .inr invocation => return invocation

end Progress

/-- What is wanted with a command line. -/
def Invocation.read (arguments : List String) : Except UsageError Invocation :=
  Progress.start.read arguments

end GrammarFile
