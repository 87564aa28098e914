/-!
# Files

What a path can lead to, and what goes wrong when a file is read as text. `Files` is a file system as
far as it is read: an answer for every path.
-/

namespace GrammarFile

/-- What a path leads to. -/
inductive Found where
  | missing
  /-- A file stands where the path needs a directory. -/
  | notDirectory
  | directory
  | file (content : List UInt8)
  deriving DecidableEq, Inhabited

/-- A file system that can be read. -/
abbrev Files := String → Found

/-- Why a path gives no text. -/
inductive ReadError where
  | missing
  | notDirectory
  | directory
  | notText
  deriving DecidableEq, Inhabited

/-- The wording of an error. -/
def ReadError.message : ReadError → String
  | missing => "No such file or directory (os error 2)"
  | notDirectory => "Not a directory (os error 20)"
  | directory => "Is a directory (os error 21)"
  | notText => "stream did not contain valid UTF-8"

/-- Whether a path leads to a file. -/
def Found.isFile : Found → Bool
  | file _ => true
  | _ => false

/-- The text of the file that was found. -/
def Found.text : Found → Except ReadError String
  | missing => .error .missing
  | notDirectory => .error .notDirectory
  | directory => .error .directory
  | file content =>
    match String.fromUTF8? ⟨content.toArray⟩ with
    | none => .error .notText
    | some text => .ok text

end GrammarFile
