import GrammarFile.Text.Quoted
import GrammarFile.Toml.Value

/-!
# Building TOML tables

The tables of a document while it is being read. What may still be added to a table depends on how it
came about: a table is defined once, by a header of its own or as an array element; one that a header
only passes through may be defined later; and one that a dotted key makes is open to dotted keys alone.
`define` adds a value under a dotted key, `openTable` and `appendTable` carry out the two sorts of
header, and each refuses to define anything twice.
-/

namespace GrammarFile.Toml

/-- How a table came about. -/
inductive TableOrigin where
  /-- By a header of its own, as an array element, or as the whole document. -/
  | defined
  /-- By a header of a table inside it. -/
  | passed
  /-- By a dotted key. -/
  | dotted
  deriving DecidableEq, Inhabited

/-- What stands under a key. -/
inductive Node where
  | value (value : Toml)
  | table (origin : TableOrigin) (entries : List (String × Node))
  /-- An array of tables: the finished ones, and the entries of the last. -/
  | tables (finished : List (List (String × Node))) (last : List (String × Node))

/-- The entries of a table. -/
abbrev Entries := List (String × Node)

/-- Why something cannot be defined. -/
inductive TableError where
  /-- The key is taken; where it is known, the path of the table comes along. -/
  | duplicate (key : String) (table : Option (List String))
  /-- What a path leads to is no table but a value of some sort. -/
  | noTable (path : List String) (sort : String)
  deriving DecidableEq, Inhabited

/-- Whether a character may stand in a key without quotes. -/
def isKeyChar (c : Char) : Bool :=
  c.isAlphanum || c = '-' || c = '_'

/-- The wording of an error. -/
def TableError.message : TableError → String
  | duplicate key none => "duplicate key `" ++ key ++ "`"
  | duplicate key (some []) => "duplicate key `" ++ key ++ "` in document root"
  | duplicate key (some path) =>
    "duplicate key `" ++ key ++ "` in table `" ++ String.intercalate "." path ++ "`"
  | noTable path sort =>
    "dotted key `" ++ String.intercalate "." path ++ "` attempted to extend non-table type (" ++
      sort ++ ")"

/-- Entries after a change to the one under a key, which may not be there yet. -/
def alter (key : String) (change : Option Node → Except TableError Node) :
    Entries → Except TableError Entries
  | [] => (change none).map fun node => [(key, node)]
  | (other, node) :: rest =>
    if other = key then (change (some node)).map fun node => (other, node) :: rest
    else (alter key change rest).map ((other, node) :: ·)

/-- The entries of a table after a change to the table that a path leads to. The last element of an
array of tables stands for the array. Tables that are not there are made, with origin `made`, and only
those for which `enters` holds are passed. The path so far is known. -/
def alterAt (made : TableOrigin) (enters : TableOrigin → Bool)
    (change : TableOrigin → Entries → Except TableError Entries) (before : List String) :
    (path : List String) → TableOrigin → Entries → Except TableError Entries
  | [], origin, entries => change origin entries
  | key :: path, _, entries =>
    let below := alterAt made enters change (before ++ [key]) path
    entries |> alter key fun
      | none => (below made []).map (.table made)
      | some (.value value) => .error (.noTable (before ++ [key]) value.sort)
      | some (.table origin entries) =>
        if enters origin then (below origin entries).map (.table origin)
        else .error (.duplicate (Text.quoted key) (some before))
      | some (.tables finished last) => (below .defined last).map (.tables finished)

/-- A table after the definition of a value under a dotted key. The path of the table is told where it
is known. -/
def define (table : Option (List String)) (path : List String) (key : String) (value : Toml)
    (entries : Entries) : Except TableError Entries :=
  alterAt .dotted (· ≠ .defined)
    (fun origin entries =>
      if path.isEmpty || origin = .dotted then
        entries |> alter key fun
          | none => .ok (.value value)
          | some _ => .error (.duplicate key table)
      else .error (.duplicate key none))
    [] path .defined entries

/-- A table after a change that a header asks for, to what stands under a path and a key. -/
def alterHeaded (path : List String) (key : String) (change : Option Node → Except TableError Node)
    (entries : Entries) : Except TableError Entries :=
  alterAt .passed (fun _ => true) (fun _ entries => alter key change entries) [] path .defined entries

/-- A document after the header of a table. -/
def openTable (path : List String) (key : String) (entries : Entries) : Except TableError Entries :=
  entries |> alterHeaded path key fun
    | none => .ok (.table .defined [])
    | some (.table .passed entries) => .ok (.table .defined entries)
    | some _ => .error (.duplicate (Text.quoted key) (some path))

/-- A document after the header of an element of an array of tables. -/
def appendTable (path : List String) (key : String) (entries : Entries) : Except TableError Entries :=
  entries |> alterHeaded path key fun
    | none => .ok (.tables [] [])
    | some (.tables finished last) => .ok (.tables (finished ++ [last]) [])
    | some _ => .error (.duplicate (Text.quoted key) (some path))

/-- A document after the definition of a value in the table that the last header names. -/
def defineIn (header path : List String) (key : String) (value : Toml) (entries : Entries) :
    Except TableError Entries :=
  alterAt .passed (fun _ => true) (fun _ entries => define (some header) path key value entries) [] header
    .defined entries

mutual

/-- The value of what stands under a key. -/
def Node.toValue : Node → Toml
  | .value value => value
  | .table _ entries => .table (entriesToValues entries)
  | .tables finished last => .array (tablesToValues finished ++ [.table (entriesToValues last)])

/-- The values of the entries of a table. -/
def entriesToValues : List (String × Node) → List (String × Toml)
  | [] => []
  | (key, node) :: rest => (key, node.toValue) :: entriesToValues rest

/-- The values of tables. -/
def tablesToValues : List (List (String × Node)) → List Toml
  | [] => []
  | entries :: rest => .table (entriesToValues entries) :: tablesToValues rest

end

end GrammarFile.Toml
