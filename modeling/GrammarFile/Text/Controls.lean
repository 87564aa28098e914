/-!
# Control characters and control sequences

A text that is shown as it was given could steer the terminal where it is shown. `withoutControls` keeps
of such a text what can only be read: it drops the control characters other than ASCII white space, and
with an escape character the whole sequence that it starts.
-/

namespace GrammarFile.Text

/-- Where in a control sequence a text stands. -/
inductive ControlState where
  /-- In no sequence. -/
  | outside
  /-- After the escape character. -/
  | escape
  /-- After the escape character and marks that one more character has to follow. -/
  | marked
  /-- In a sequence with parameters, which a letter or the like ends. -/
  | parameters
  /-- In a command to the terminal, which the bell ends. -/
  | command
  /-- In a text for a device, which no character but those of `nextControlState` ends. -/
  | device
  deriving DecidableEq, Inhabited

/-- Whether a character is white space in ASCII. The vertical tab does not count. -/
def isAsciiBlank (c : Char) : Bool :=
  c = ' ' || c = '\t' || c = '\n' || c = '\x0c' || c = '\r'

/-- Whether the code of a character lies between two bounds. -/
def isBetween (low high : Nat) (c : Char) : Bool :=
  low ≤ c.toNat && c.toNat ≤ high

/-- Where a text stands after one more character. An escape character starts a sequence anywhere, and two
other controls end one anywhere; white space ends those that are no texts themselves. -/
def nextControlState (state : ControlState) (c : Char) : ControlState :=
  if c = '\x1b' then .escape
  else if c = '\x18' || c = '\x1a' then .outside
  else
    match state with
    | .outside => .outside
    | .escape =>
      if isBetween 0x20 0x2F c then .marked
      else if c = '[' then .parameters
      else if c = ']' then .command
      else if c = 'P' || c = 'X' || c = '^' || c = '_' then .device
      else if isAsciiBlank c || isBetween 0x30 0x7E c then .outside
      else .escape
    | .marked =>
      if isBetween 0x20 0x2F c then .marked
      else if isAsciiBlank c || isBetween 0x30 0x7E c then .outside
      else .marked
    | .parameters =>
      if isBetween 0x20 0x3F c then .parameters
      else if isAsciiBlank c || isBetween 0x40 0x7E c then .outside
      else .parameters
    | .command => if c = '\x07' then .outside else .command
    | .device => .device

/-- Whether a character that is met at some place in a sequence is kept. -/
def isKept (state : ControlState) (c : Char) : Bool :=
  match state with
  | .outside => isAsciiBlank c || (0x20 ≤ c.toNat && c ≠ '\x7f')
  | .escape | .marked | .parameters => isAsciiBlank c && c ≠ ' '
  | .command | .device => false

/-- The characters that are kept of a text that starts somewhere in a sequence. -/
def dropControls (state : ControlState) : List Char → List Char
  | [] => []
  | c :: rest =>
    let kept := dropControls (nextControlState state c) rest
    if isKept state c then c :: kept else kept

/-- A text without control characters and control sequences. -/
def withoutControls (text : String) : String :=
  String.ofList (dropControls .outside text.toList)

end GrammarFile.Text
