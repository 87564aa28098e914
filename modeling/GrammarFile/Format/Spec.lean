import GrammarFile.Format.Registry

/-!
# What to render

A render spec says which stage of reading to show, and how: `token-` and one of four listings, or
`ast-` and the name of a standard format. `RenderSpec.parse` reads a spec and `RenderSpec.available`
lists them all; a text is read exactly if it is the display of an available spec.
-/

namespace GrammarFile

/-- How to list tokens, and whether with white space and comments. -/
inductive TokenListing where
  | simple
  | json
  | rawSimple
  | rawJson
  deriving DecidableEq, Inhabited

/-- What to render. -/
inductive RenderSpec where
  | tokens (listing : TokenListing)
  /-- The tree in the format of this name. -/
  | tree (format : String)
  deriving DecidableEq, Inhabited

/-- Why a text is no render spec. -/
inductive SpecError where
  /-- There is no dash in the text. -/
  | invalidFormat (text : String)
  /-- What stands before the first dash is no stage. -/
  | invalidStage (stage : String)
  /-- What stands after the first dash is no format of the stage. -/
  | invalidFormatType (format : String)
  deriving DecidableEq, Inhabited

/-- The wording of an error. -/
def SpecError.message : SpecError → String
  | invalidFormat text => "Invalid format: " ++ text
  | invalidStage stage => "Invalid stage: " ++ stage
  | invalidFormatType format => "Invalid format type: " ++ format

namespace TokenListing

/-- The listings, plain ones first. -/
def all : List TokenListing := [simple, json, rawSimple, rawJson]

/-- The name of a listing. -/
def name : TokenListing → String
  | simple => "simple"
  | json => "json"
  | rawSimple => "raw-simple"
  | rawJson => "raw-json"

/-- What a listing shows. -/
def description : TokenListing → String
  | simple => "Tokens, one per line"
  | json => "Tokens as JSON"
  | rawSimple => "Tokens including whitespace and comments, one per line"
  | rawJson => "Tokens including whitespace and comments as JSON"

/-- Whether white space and comments are listed. -/
def isRaw : TokenListing → Bool
  | simple | json => false
  | rawSimple | rawJson => true

/-- The listing of the given name. -/
def ofName? (name : String) : Option TokenListing :=
  all.find? (·.name == name)

end TokenListing

namespace RenderSpec

/-- A spec as it is written. -/
def display : RenderSpec → String
  | tokens listing => "token-" ++ listing.name
  | tree format => "ast-" ++ format

/-- What a spec shows. -/
def description : RenderSpec → String
  | tokens listing => listing.description
  | tree format => ((Registry.standard false).get? format).elim "" (·.description)

/-- The listings, then the standard formats by name. -/
def available : List RenderSpec :=
  TokenListing.all.map tokens ++ (Registry.standard false).names.map tree

/-- The spec that a text stands for. The first of its parts between dashes is the stage, and the
others with the dashes between them name the format. -/
def parse (text : String) : Except SpecError RenderSpec :=
  match text.toList.splitOn '-' with
  | stage :: part :: parts =>
    let stage := String.ofList stage
    let format := String.ofList (['-'].intercalate (part :: parts))
    if stage = "token" then
      match TokenListing.ofName? format with
      | some listing => .ok (tokens listing)
      | none => .error (.invalidFormatType format)
    else if stage = "ast" then
      if (Registry.standard false).names.contains format then .ok (tree format)
      else .error (.invalidFormatType format)
    else .error (.invalidStage stage)
  | _ => .error (.invalidFormat text)

end RenderSpec

end GrammarFile
