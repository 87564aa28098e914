/-!
# Paths

The parts of a path, between its slashes. Empty parts and single dots lead nowhere: `Path.plain` leaves
them out. `Path.withExtension?` adds a file extension to the last part that names something.
-/

namespace GrammarFile.Path

/-- The parts of a text between slashes, empty ones included. -/
def partsOf : List Char → List (List Char)
  | [] => [[]]
  | c :: rest =>
    if c = '/' then [] :: partsOf rest
    else
      match partsOf rest with
      | part :: parts => (c :: part) :: parts
      | [] => [[c]]

/-- The parts of a path, empty ones included. -/
def parts (path : String) : List String :=
  (partsOf path.toList).map String.ofList

/-- Whether a part of a path leads nowhere. -/
def isIdle (part : String) : Bool :=
  part = "" || part = "."

/-- A path relative to the directory that it starts in, without parts that lead nowhere. -/
def plain (path : String) : String :=
  String.intercalate "/" ((parts path).filter (!isIdle ·))

/-- A path with an extension after its last name; without a name at its end there is nothing to
extend. -/
def withExtension? (extension path : String) : Option String :=
  match (parts path).reverse.dropWhile isIdle with
  | [] => none
  | name :: rest =>
    if name = ".." then none
    else some (String.intercalate "/" (rest.reverse ++ [name]) ++ "." ++ extension)

end GrammarFile.Path
