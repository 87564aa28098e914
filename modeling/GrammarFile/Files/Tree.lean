import GrammarFile.Files.Basic
import GrammarFile.Files.Path

/-!
# File trees in memory

A directory given by the files and directories in it. Paths start at that directory; it knows nothing of
what lies outside, so no path out of it leads to anything but the directories above.
-/

namespace GrammarFile

/-- The files, with their contents, and the directories of a directory, by the parts of their paths. The
directories on the way to an entry need no entry of their own. -/
structure FileTree where
  entries : List (List String × Option (List UInt8))

namespace FileTree

/-- The tree with the given paths, of which those without a content are directories. -/
def ofList (entries : List (String × Option (List UInt8))) : FileTree :=
  ⟨entries.map fun (path, content) => ((Path.parts path).filter (!Path.isIdle ·), content)⟩

/-- What stands at a place in a tree. -/
def foundAt (tree : FileTree) (place : List String) : Found :=
  match tree.entries.lookup place with
  | some (some content) => .file content
  | some none => .directory
  | none =>
    if place.isEmpty || tree.entries.any (place.isPrefixOf ·.1) then .directory else .missing

/-- What the parts of a path lead to from a place in a tree. -/
def walk (tree : FileTree) : (place parts : List String) → Found
  | place, [] => tree.foundAt place
  | place, part :: rest =>
    match tree.foundAt place with
    | .directory =>
      if Path.isIdle part then walk tree place rest
      else if part ≠ ".." then walk tree (place ++ [part]) rest
      else if !place.isEmpty then walk tree place.dropLast rest
      else if rest.all fun part => Path.isIdle part || part = ".." then .directory
      else .missing
    | .file _ => .notDirectory
    | found => found

/-- What a path leads to. -/
def find (tree : FileTree) : Files := fun path =>
  match Path.parts path with
  | [""] => .missing
  | "" :: rest => if rest.all fun part => Path.isIdle part || part = ".." then .directory else .missing
  | parts => tree.walk [] parts

end FileTree

end GrammarFile
