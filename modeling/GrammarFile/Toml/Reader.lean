import GrammarFile.Toml.Moment
import GrammarFile.Toml.Number
import GrammarFile.Toml.Quoted
import GrammarFile.Toml.Table

/-!
# Reading TOML

`Toml.read` gives the entries of the table that a document writes, or the first fault of the document.
Arrays and inline tables may be nested to a depth of 79, and a dotted key has at most 79 parts.
-/

namespace GrammarFile.Toml

/-- How deep values may be nested, and how many parts a key may have. -/
def depthLimit : Nat := 79

/-- The wording where something goes deeper. -/
def tooDeep : String := "recursion limit exceeded"

/-! ### Between values -/

/-- A text from the end of its first line on, if only blanks and a comment come before. -/
def skipToLineEnd (cs : List Char) : List Char :=
  match skipBlanks cs with
  | '#' :: rest => rest.dropWhile isPlain
  | rest => rest

/-- What follows the first line, if only blanks and a comment are left on it. The last line may lack
its line end. -/
def endLine (cs : List Char) : Except Fault (List Char) :=
  match skipToLineEnd cs with
  | [] => .ok []
  | rest =>
    match lineEnd? rest with
    | some rest => .ok rest
    | none => .error (.expecting ["newline", "`#`"] rest)

/-- The text from its first character that is no blank and belongs to no comment or line end. The bound
is on the number of lines. -/
def skipLines : (bound : Nat) → List Char → List Char
  | 0, cs => skipBlanks cs
  | bound + 1, cs =>
    match lineEnd? (skipToLineEnd cs) with
    | some rest => skipLines bound rest
    | none => skipBlanks cs

/-- The text from what may be an item of an array, or its end. A comment or carriage return without a
line end is a fault after the character where that should have been. -/
def skipToItem (cs : List Char) : Except Fault (List Char) :=
  match skipLines cs.length cs with
  | '#' :: rest => .error (Fault.bare ((rest.dropWhile isPlain).drop 1)).soften
  | '\r' :: rest => .error (Fault.bare rest).soften
  | rest => .ok rest

/-! ### Keys -/

/-- One part of a key. -/
def readKeyPart : Reader String := fun cs =>
  match cs with
  | '\x22' :: rest => (readLine '\x22' rest).map fun (text, rest) => (String.ofList text, rest)
  | '\x27' :: rest => (readLine '\x27' rest).map fun (text, rest) => (String.ofList text, rest)
  | cs =>
    let part := cs.takeWhile isKeyChar
    if part.isEmpty then .error (Fault.invalid "key" [] cs).soften
    else .ok (String.ofList part, cs.dropWhile isKeyChar)

/-- The parts of a dotted key and the blanks after it. A point that no part follows is not taken. The
bound is on the number of parts. -/
def readKeyParts : (bound : Nat) → Reader (List String)
  | 0, cs => .error (.bare cs)
  | bound + 1, cs => do
    let (part, rest) ← readKeyPart (skipBlanks cs)
    let rest := skipBlanks rest
    match rest with
    | '.' :: after =>
      match readKeyParts bound after with
      | .ok (parts, after) => return (part :: parts, after)
      | .error fault => if fault.soft then return ([part], rest) else throw fault
    | rest => return ([part], rest)

/-- A dotted key: the path to a table, and a key in that table. -/
def readKey : Reader (List String × String) := fun cs => do
  let (parts, rest) ← readKeyParts cs.length.succ cs
  if depthLimit < parts.length then .error (Fault.because tooDeep cs).soften
  return ((parts.dropLast, parts.getLastD ""), rest)

/-! ### Values -/

/-- A key, an equals sign and a value. -/
def readPair (value : Reader Toml) : Reader ((List String × String) × Toml) := fun cs => do
  let (key, rest) ← readKey cs
  match rest with
  | '=' :: rest =>
    let (value, rest) ← (value (skipBlanks rest)).mapError (·.harden)
    return ((key, value), rest)
  | rest => .error (.expecting ["`.`", "`=`"] rest)

/-- An item of an array with what stands around it. -/
def readItem (value : Reader Toml) : Reader Toml := fun cs => do
  let (item, rest) ← value (← skipToItem cs)
  return (item, ← skipToItem rest)

/-- The items of an array, up to what is no item. A comma after the last item is not taken. -/
def readItems (value : Reader Toml) : (bound : Nat) → Reader (List Toml)
  | 0, cs => .ok ([], cs)
  | bound + 1, cs =>
    match readItem value cs with
    | .error fault => if fault.soft then .ok ([], cs) else .error fault
    | .ok (item, rest) =>
      match rest with
      | ',' :: after => do
        let (items, after) ← readItems value bound after
        return (item :: items, if items.isEmpty then rest else after)
      | rest => .ok ([item], rest)

/-- An array after its opening bracket. A comma may follow the last item, and line ends and comments may
stand anywhere. -/
def readArray (value : Reader Toml) : Reader Toml := fun cs => do
  let (items, rest) ← readItems value (cs.length + 1) cs
  let rest :=
    match items, rest with
    | _ :: _, ',' :: rest => rest
    | _, rest => rest
  match ← (skipToItem rest).mapError (·.harden) with
  | ']' :: rest => return (.array items, rest)
  | rest => .error (.invalid "array" ["`]`"] rest)

/-- The entries of an inline table, up to what is no entry. -/
def readPairs (value : Reader Toml) : (bound : Nat) → Reader (List ((List String × String) × Toml))
  | 0, cs => .ok ([], cs)
  | bound + 1, cs =>
    match readPair value cs with
    | .error fault => if fault.soft then .ok ([], cs) else .error fault
    | .ok (pair, rest) =>
      let rest := skipBlanks rest
      match rest with
      | ',' :: after => do
        let (pairs, after) ← readPairs value bound after
        return (pair :: pairs, if pairs.isEmpty then rest else after)
      | rest => .ok ([pair], rest)

/-- The entries of a table after the definition of values under keys. -/
def defineAll (pairs : List ((List String × String) × Toml)) : Except TableError Entries :=
  pairs.foldlM (fun entries ((path, key), value) => define none path key value entries) []

/-- An inline table after its opening brace. -/
def readInlineTable (value : Reader Toml) : Reader Toml := fun cs => do
  let (pairs, rest) ← readPairs value (cs.length + 1) cs
  let entries ← (defineAll pairs).mapError fun e => .because e.message cs
  match skipBlanks rest with
  | '\x7d' :: rest => return (.table (entriesToValues entries), rest)
  | rest => .error (.invalid "inline table" ["`\x7d`"] rest)

/-- What is said where no value starts: a text without its quotes is the most likely reason. -/
def noValue (cs : List Char) : Fault :=
  .invalid "string" ["`\"`", "`'`"] cs

/-- A word that stands for a value. -/
def readWord (word : String) (value : Toml) : Reader Toml := fun cs =>
  if word.toList.isPrefixOf cs then .ok (value, cs.drop word.length) else .error (noValue cs)

/-- A number, a date or a time. -/
def readNumeral : Reader Toml := fun cs =>
  match readMoment? cs, readNamed? cs with
  | some reading, _ => reading.map fun (text, rest) => (.moment (String.ofList text), rest)
  | none, some (value, rest) => .ok (.float value, rest)
  | none, none =>
    match cs with
    | '0' :: 'x' :: rest => readInBase 16 "hexadecimal integer" cs rest
    | '0' :: 'o' :: rest => readInBase 8 "octal integer" cs rest
    | '0' :: 'b' :: rest => readInBase 2 "binary integer" cs rest
    | cs => readNumber cs

/-- A value that is no array and no table. -/
def readAtom : Reader Toml := fun cs =>
  match cs with
  | [] => .error (Fault.bare []).soften
  | '\x22' :: rest => (readQuoted '\x22' rest).map fun (text, rest) =>
      (.string (String.ofList text), rest)
  | '\x27' :: rest => (readQuoted '\x27' rest).map fun (text, rest) =>
      (.string (String.ofList text), rest)
  | 't' :: _ => readWord "true" (.boolean true) cs
  | 'f' :: _ => readWord "false" (.boolean false) cs
  | '_' :: _ => .error (Fault.invalid "integer" ["leading digit"] cs).soften
  | '.' :: _ => .error (Fault.invalid fractionName ["leading digit"] cs).soften
  | c :: _ =>
    if c.isDigit || c = '+' || c = '-' then readNumeral cs
    else
      match readNamed? cs with
      | some (value, rest) => .ok (.float value, rest)
      | none => .error (noValue cs).soften

/-- The value at the front of a text. The first argument is the depth to which arrays and tables may
still be nested. -/
def readValue : (depth : Nat) → Reader Toml
  | 0, cs =>
    match cs with
    | '[' :: _ | '\x7b' :: _ => .error (.because tooDeep cs)
    | cs => readAtom cs
  | depth + 1, cs =>
    match cs with
    | '[' :: rest => readArray (readValue depth) rest
    | '\x7b' :: rest => readInlineTable (readValue depth) rest
    | cs => readAtom cs

/-! ### Documents -/

/-- What has been read of a document: its entries, and the path to the table that the last header
names. -/
structure Draft where
  entries : Entries
  header : List String

/-- A document after a header that starts at a place: the key, its closing mark, and the change that the
header asks for. -/
def readHeader (change : List String → String → Entries → Except TableError Entries)
    (close : String) (start : List Char) (draft : Draft) : Reader Draft := fun cs => do
  let ((path, key), rest) ← readKey cs
  if !close.toList.isPrefixOf rest then .error (.expecting ["`.`", "`" ++ close ++ "`"] rest)
  let rest ← endLine (rest.drop close.length)
  let entries ← (change path key draft.entries).mapError fun e => .because e.message start
  return (⟨entries, path ++ [key]⟩, rest)

/-- A document after one more line that is not empty. -/
def readStatement (draft : Draft) : Reader Draft := fun cs =>
  match cs with
  | '[' :: '[' :: rest => (readHeader appendTable "]]" cs draft rest).mapError (.within "table header")
  | '[' :: [] => .error (.invalid "table header" [] cs)
  | '[' :: rest => (readHeader openTable "]" cs draft rest).mapError (.within "table header")
  | cs => do
    let (((path, key), value), rest) ← readPair (readValue depthLimit) cs
    let rest ← endLine rest
    let entries ← (defineIn draft.header path key value draft.entries).mapError fun e =>
      .because e.message cs
    return (⟨entries, draft.header⟩, rest)

/-- A document after more lines, at most `bound` of them. -/
def readStatements : (bound : Nat) → Draft → List Char → Except Fault Draft
  | 0, _, cs => .error (.bare cs)
  | bound + 1, draft, cs =>
    match skipLines cs.length cs with
    | [] => .ok draft
    | '#' :: rest =>
      match rest.dropWhile isPlain with
      | [] => .ok draft
      | rest => .error (.bare rest)
    | '\r' :: rest => .error (.bare ('\r' :: rest))
    | rest => do
      let (draft, rest) ← readStatement draft rest
      readStatements bound draft rest

/-- The entries of the table that a document writes. A byte order mark at its front is ignored. -/
def read (text : String) : Except Fault (List (String × Toml)) :=
  let cs :=
    match text.toList with
    | '\ufeff' :: rest => rest
    | cs => cs
  (readStatements (cs.length + 1) ⟨[], []⟩ cs).map (entriesToValues ·.entries)

end GrammarFile.Toml
