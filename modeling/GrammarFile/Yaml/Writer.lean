import GrammarFile.Json.Basic
import GrammarFile.Yaml.Scalar

/-!
# Writing YAML

A JSON value in the block style of YAML: a member or an item on each line, members of an inner object
two blanks further in, and the dashes of an array right below the name of the member it belongs to.
-/

namespace GrammarFile.Yaml

/-- A line break and an indentation. -/
def newline (indent : Nat) : String :=
  String.ofList ('\n' :: indentation indent)

mutual

/-- A value at the given indentation, from where its first line stands. -/
def block (indent : Nat) : Json → String
  | .null => "null"
  | .bool b => if b then "true" else "false"
  | .number (.whole n) => toString n
  | .number (.fraction negative digits exponent) =>
    (if negative then "-" else "") ++ toString digits ++ "e" ++ toString exponent
  | .string text => scalar (indent + 2) text
  | .array [] => "[]"
  | .array items => (newline indent).intercalate (blockItems indent items)
  | .object [] => "\x7b\x7d"
  | .object members => (newline indent).intercalate (blockMembers indent members)
  | .unreadable => "null"

/-- The items of an array, each after its dash. -/
def blockItems (indent : Nat) : List Json → List String
  | [] => []
  | item :: rest => ("- " ++ block (indent + 2) item) :: blockItems indent rest

/-- The members of an object, each after its name. -/
def blockMembers (indent : Nat) : List (String × Json) → List String
  | [] => []
  | (name, value) :: rest =>
    (scalar (indent + 2) name ++ ":" ++
      (match value with
       | .array (item :: items) => newline indent ++ block indent (.array (item :: items))
       | .object (member :: members) =>
         newline (indent + 2) ++ block (indent + 2) (.object (member :: members))
       | value => " " ++ block indent value)) :: blockMembers indent rest

end

/-- A value as a document. -/
def write (value : Json) : String :=
  block 0 value ++ "\n"

end GrammarFile.Yaml
