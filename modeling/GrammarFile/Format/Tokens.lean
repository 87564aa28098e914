import GrammarFile.Json.Writer
import GrammarFile.Text.Quoted
import GrammarFile.Token.Lexer
import GrammarFile.Token.Name

/-!
# Listings of tokens

Two ways to list tokens with the spans they cover: one token on each line, with its kind, its span and
its text in quotes, or as a JSON array. In JSON a mark is the name of its kind, and any other token an
object that gives its text under the name of its kind. `Token.ofJson?` reads that form.
-/

namespace GrammarFile

/-- One line of a listing. -/
def Lexeme.line (l : Lexeme) : String :=
  l.token.kind.name ++ " " ++ toString l.span.start ++ ".." ++ toString l.span.stop ++ " " ++
    Text.quoted l.token.text

/-- One token on each line. -/
def listTokens (lexemes : List Lexeme) : String :=
  "\n".intercalate (lexemes.map (·.line))

/-- A token as JSON. -/
def Token.toJson (t : Token) : Json :=
  match t with
  | mark m => .string m.name
  | _ => .object [(t.kind.name, .string t.text)]

/-- The token of the given kind and text; a mark has no text of its own. -/
def Token.ofKind? : TokenKind → Option String → Option Token
  | .mark m, none => some (mark m)
  | .trivia k, some text => some (trivia k text)
  | .identifier, some text => some (identifier text)
  | .literal k, some text => some (literal k text)
  | _, _ => none

/-- The token that a JSON value describes. A mark may also be an object with a null. -/
def Token.ofJson? : Json → Option Token
  | .string name => (TokenKind.ofName? name).bind (ofKind? · none)
  | .object [(name, .null)] => (TokenKind.ofName? name).bind (ofKind? · none)
  | .object [(name, .string text)] => (TokenKind.ofName? name).bind (ofKind? · (some text))
  | _ => none

/-- A span as JSON. -/
def Span.toJson (s : Span) : Json :=
  .object [("start", .ofNat s.start), ("end", .ofNat s.stop)]

/-- Tokens and spans as JSON. -/
def tokensToJson (lexemes : List Lexeme) : Json :=
  .array (lexemes.map fun l => .array [l.token.toJson, l.span.toJson])

end GrammarFile
