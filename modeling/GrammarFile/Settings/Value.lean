import GrammarFile.Number.Binary64
import GrammarFile.Text.Lowercase

/-!
# Values of settings

A tree of named values, as settings files and overrides build it up. A value keeps the file that it
comes from; a table that was merged has none. `Setting.assign` puts a value under a name: tables are
merged entry by entry, and any other value takes the place of what was there. Names are in lower case.
-/

namespace GrammarFile

/-- A value of one piece. -/
inductive Setting.Plain where
  | null
  | boolean (value : Bool)
  | integer (value : Int)
  | float (value : Binary64)
  | string (text : String)
  deriving DecidableEq, Inhabited

/-- A value, or a table of values by name. -/
inductive Setting where
  | plain (value : Setting.Plain) (origin : Option String)
  | array (items : List Setting) (origin : Option String)
  | table (entries : List (String × Setting)) (origin : Option String)
  deriving Inhabited

namespace Setting

/-- The value of a thing that nothing was said about. -/
def unset : Setting :=
  plain .null none

/-- The file that a value comes from. -/
def origin : Setting → Option String
  | plain _ origin | array _ origin | table _ origin => origin

/-- A table of nothing. -/
def noEntries : Setting :=
  table [] none

/-- The entries of a table; anything else has none. -/
def entries : Setting → List (String × Setting)
  | table entries _ => entries
  | _ => []

/-- The items of an array; anything else has none. -/
def items : Setting → List Setting
  | array items _ => items
  | _ => []

/-- The value under a name. -/
def get? (setting : Setting) (name : String) : Option Setting :=
  setting.entries.lookup name

/-- Entries with a value under a name, in place of the one that is there. -/
def putEntry (name : String) (value : Setting) : List (String × Setting) → List (String × Setting)
  | [] => [(name, value)]
  | (other, kept) :: rest =>
    if other = name then (other, value) :: rest else (other, kept) :: putEntry name value rest

/-- A table with a value under a name. What is no table gives way to an empty one. -/
def put (setting : Setting) (name : String) (value : Setting) : Setting :=
  match setting with
  | table entries origin => table (putEntry name value entries) origin
  | _ => table [(name, value)] none

mutual

/-- A table after the assignment of a value to a name. The entries of a table are assigned to the table
under that name, and any other value replaces the one under that name. -/
def assign (setting : Setting) (name : String) : (value : Setting) → Setting
  | table entries _ =>
    let name := Text.lowercase name
    setting.put name (assignAll ((setting.get? name).getD noEntries) entries)
  | value => setting.put (Text.lowercase name) value

/-- A table after the assignment of values to names, in turn. -/
def assignAll (setting : Setting) : (entries : List (String × Setting)) → Setting
  | [] => setting
  | (name, value) :: rest => assignAll (assign setting name value) rest

end

end Setting

end GrammarFile
