/-!
# Tokens

A grammar file is a sequence of tokens of four sorts: trivia (white space and comments), identifiers,
literals and marks. The marks are the tokens of fixed spelling: the `%` keywords, operators and
punctuation. A token of the other sorts carries its text, so that every token knows its spelling
(`Token.text`).

`TokenKind` forgets the text. `TokenKind.all` lists the kinds in the order in which messages name
them, and `TokenKind.mem_all` says that it misses none.
-/

namespace GrammarFile

/-- Tokens that only separate others. -/
inductive TriviaKind where
  | whitespace
  | lineComment
  | blockComment
  deriving DecidableEq, Inhabited

/-- The three ways to write a terminal. -/
inductive LiteralKind where
  /-- Between double quotes. -/
  | string
  /-- Between single quotes. -/
  | rawString
  /-- Between slashes. -/
  | regex
  deriving DecidableEq, Inhabited

/-- The tokens of fixed spelling. -/
inductive Mark where
  | start
  | title
  | comment
  | userType
  | ntType
  | tType
  | grammarType
  | lineComment
  | blockComment
  | autoNewlineOff
  | autoWsOff
  | on
  | allowUnmatched
  | enter
  | push
  | pop
  | scanner
  | percentPercent
  | doubleColon
  | positiveLookahead
  | negativeLookahead
  | colon
  | semicolon
  | pipe
  | leftParen
  | rightParen
  | leftBracket
  | rightBracket
  | leftBrace
  | rightBrace
  | lessThan
  | greaterThan
  | comma
  | equals
  | atSign
  | caret
  deriving DecidableEq, Inhabited

namespace Mark

/-- Every mark, in declaration order. -/
def all : List Mark :=
  [start, title, comment, userType, ntType, tType, grammarType, lineComment, blockComment,
   autoNewlineOff, autoWsOff, on, allowUnmatched, enter, push, pop, scanner, percentPercent,
   doubleColon, positiveLookahead, negativeLookahead, colon, semicolon, pipe, leftParen, rightParen,
   leftBracket, rightBracket, leftBrace, rightBrace, lessThan, greaterThan, comma, equals, atSign,
   caret]

/-- `all` misses no mark. -/
theorem mem_all (m : Mark) : m ∈ all := by
  cases m <;> decide

/-- The spelling of a mark. -/
def text : Mark → String
  | start => "%start"
  | title => "%title"
  | comment => "%comment"
  | userType => "%user_type"
  | ntType => "%nt_type"
  | tType => "%t_type"
  | grammarType => "%grammar_type"
  | lineComment => "%line_comment"
  | blockComment => "%block_comment"
  | autoNewlineOff => "%auto_newline_off"
  | autoWsOff => "%auto_ws_off"
  | on => "%on"
  | allowUnmatched => "%allow_unmatched"
  | enter => "%enter"
  | push => "%push"
  | pop => "%pop"
  | scanner => "%scanner"
  | percentPercent => "%%"
  | doubleColon => "::"
  | positiveLookahead => "?="
  | negativeLookahead => "?!"
  | colon => ":"
  | semicolon => ";"
  | pipe => "|"
  | leftParen => "("
  | rightParen => ")"
  | leftBracket => "["
  | rightBracket => "]"
  | leftBrace => "\x7b"
  | rightBrace => "\x7d"
  | lessThan => "<"
  | greaterThan => ">"
  | comma => ","
  | equals => "="
  | atSign => "@"
  | caret => "^"

/-- The keywords: the marks that start with `%`. -/
def isDirective (m : Mark) : Bool :=
  m.text.startsWith "%"

end Mark

/-- What sort of token a token is, without its text. -/
inductive TokenKind where
  | trivia (kind : TriviaKind)
  | identifier
  | literal (kind : LiteralKind)
  | mark (mark : Mark)
  deriving DecidableEq, Inhabited

namespace TokenKind

/-- Every kind, in the order in which messages list them. -/
def all : List TokenKind :=
  [trivia .whitespace, trivia .lineComment, trivia .blockComment, identifier, literal .string,
   literal .rawString, literal .regex] ++ Mark.all.map mark

/-- `all` misses no kind. -/
theorem mem_all (k : TokenKind) : k ∈ all := by
  cases k with
  | trivia k => cases k <;> simp [all]
  | identifier => simp [all]
  | literal k => cases k <;> simp [all]
  | mark m => exact List.mem_append_right _ (List.mem_map_of_mem m.mem_all)

/-- Whether the parser never sees tokens of this kind. -/
def isTrivia : TokenKind → Bool
  | trivia _ => true
  | _ => false

/-- Whether tokens of this kind are terminals. -/
def isLiteral : TokenKind → Bool
  | literal _ => true
  | _ => false

/-- Whether tokens of this kind are `%` keywords. -/
def isDirective : TokenKind → Bool
  | mark m => m.isDirective
  | _ => false

/-- The name of a kind in messages: marks are quoted, other kinds are named. -/
def describe : TokenKind → String
  | trivia .whitespace => "whitespace"
  | trivia .lineComment => "line comment"
  | trivia .blockComment => "block comment"
  | identifier => "identifier"
  | literal .string => "string literal"
  | literal .rawString => "raw string literal"
  | literal .regex => "regex literal"
  | mark m => "`" ++ m.text ++ "`"

end TokenKind

/-- A token. The text of a literal or a comment includes its delimiters. -/
inductive Token where
  | trivia (kind : TriviaKind) (text : String)
  | identifier (name : String)
  | literal (kind : LiteralKind) (text : String)
  | mark (mark : Mark)
  deriving DecidableEq, Inhabited

namespace Token

/-- The kind of a token. -/
def kind : Token → TokenKind
  | trivia k _ => .trivia k
  | identifier _ => .identifier
  | literal k _ => .literal k
  | mark m => .mark m

/-- The spelling of a token. -/
def text : Token → String
  | trivia _ s => s
  | identifier s => s
  | literal _ s => s
  | mark m => m.text

/-- A token as messages about it show it: names and literals with their text. -/
def describe (t : Token) : String :=
  match t with
  | identifier s | literal _ s => t.kind.describe ++ " `" ++ s ++ "`"
  | _ => t.kind.describe

/-- The text that a list of tokens spells. -/
def spell (tokens : List Token) : String :=
  String.join (tokens.map text)

end Token

end GrammarFile
