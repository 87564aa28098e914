import GrammarFile.Token.Basic

/-!
# Names of token kinds

The names under which listings of tokens show the kinds, one for each.
-/

namespace GrammarFile

/-- The name of a mark in listings. -/
def Mark.name : Mark → String
  | start => "Start"
  | title => "Title"
  | comment => "Comment"
  | userType => "UserType"
  | ntType => "NtType"
  | tType => "TType"
  | grammarType => "GrammarType"
  | lineComment => "LineCommentDirective"
  | blockComment => "BlockCommentDirective"
  | autoNewlineOff => "AutoNewlineOff"
  | autoWsOff => "AutoWsOff"
  | on => "On"
  | allowUnmatched => "AllowUnmatched"
  | enter => "Enter"
  | push => "Push"
  | pop => "Pop"
  | scanner => "Scanner"
  | percentPercent => "PercentPercent"
  | doubleColon => "DoubleColon"
  | positiveLookahead => "PositiveLookahead"
  | negativeLookahead => "NegativeLookahead"
  | colon => "Colon"
  | semicolon => "Semicolon"
  | pipe => "Pipe"
  | leftParen => "LParen"
  | rightParen => "RParen"
  | leftBracket => "LBracket"
  | rightBracket => "RBracket"
  | leftBrace => "LBrace"
  | rightBrace => "RBrace"
  | lessThan => "LessThan"
  | greaterThan => "GreaterThan"
  | comma => "Comma"
  | equals => "Equals"
  | atSign => "At"
  | caret => "Caret"

namespace TokenKind

/-- The name of a kind in listings. -/
def name : TokenKind → String
  | trivia .whitespace => "Whitespace"
  | trivia .lineComment => "LineComment"
  | trivia .blockComment => "BlockComment"
  | identifier => "Identifier"
  | literal .string => "String"
  | literal .rawString => "RawString"
  | literal .regex => "Regex"
  | mark m => m.name

/-- The kind of the given name. -/
def ofName? (name : String) : Option TokenKind :=
  all.find? (·.name == name)

end TokenKind

end GrammarFile
