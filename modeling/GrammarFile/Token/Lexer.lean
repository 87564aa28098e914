import GrammarFile.Source.Position
import GrammarFile.Text.Blank
import GrammarFile.Token.Basic

/-!
# From text to tokens

`scan` cuts the first token off a text and returns it with the rest. The first character settles the
sort of token, the next one tells comments from a regex, and a token is always the longest that the
text allows: a run of blank characters or of identifier characters is taken whole, and `::` is tried
before `:`. A keyword needs no boundary after it.

A literal reaches to the first closing delimiter that no backslash takes along, a block comment to
the first `*/` after its opener. Where that is missing, or where no token starts, `scan` says why.

`tokenize` repeats `scan` until the text is used up, or up to the first failure, and gives each token
its span. `lex` drops the trivia.
-/

namespace GrammarFile

/-- Why no token could be cut off a text. -/
inductive LexErrorKind where
  /-- No token starts with the character. -/
  | unexpectedCharacter
  /-- A literal of this kind is opened and not closed. -/
  | unterminatedLiteral (kind : LiteralKind)
  /-- A block comment is opened and not closed. -/
  | unterminatedBlockComment
  deriving DecidableEq, Inhabited

/-- The wording of a reason. -/
def LexErrorKind.describe : LexErrorKind → String
  | unexpectedCharacter => "unexpected character"
  | unterminatedLiteral .string => "unterminated string literal"
  | unterminatedLiteral .rawString => "unterminated raw string literal"
  | unterminatedLiteral .regex => "unterminated regex literal"
  | unterminatedBlockComment => "unterminated block comment"

/-- The number of bytes of a text in UTF-8. -/
def byteLength (cs : List Char) : Nat :=
  cs.foldl (fun n c => n + c.utf8Size) 0

/-- The part of a text from byte `offset` on, if a character starts there or the text ends there. -/
def dropBytes : Nat → List Char → Option (List Char)
  | 0, cs => some cs
  | _ + 1, [] => none
  | n + 1, c :: rest => if n + 1 < c.utf8Size then none else dropBytes (n + 1 - c.utf8Size) rest

/-- The first `count` bytes of a text, if a character ends there. -/
def takeBytes : Nat → List Char → Option (List Char)
  | 0, _ => some []
  | _ + 1, [] => none
  | n + 1, c :: rest =>
    if n + 1 < c.utf8Size then none else (takeBytes (n + 1 - c.utf8Size) rest).map (c :: ·)

/-- The text of a span of the source, or nothing where the span is reversed, goes past the end or
cuts a character. -/
def Span.slice? (span : Span) (source : String) : Option String :=
  if span.start ≤ span.stop then
    (dropBytes span.start source.toList).bind fun rest =>
      (takeBytes (span.stop - span.start) rest).map String.ofList
  else none

/-- The most characters of the source that the message of a lexical error repeats. -/
def LexError.shownLength : Nat := 24

/-- A text no token could be cut off from: the reason, the span that is to blame and its text. -/
structure LexError where
  reason : LexErrorKind
  span : Span
  lexeme : String
  deriving DecidableEq, Inhabited

namespace LexError

/-- A text cut after `shownLength` characters, with an ellipsis where something is missing. -/
def shorten (text : String) : String :=
  if text.length ≤ shownLength then text
  else String.ofList (text.toList.take shownLength) ++ "..."

/-- The error at a span of the source. A span that names no stretch of it has no text. -/
def ofSpan (reason : LexErrorKind) (span : Span) (source : String) : LexError :=
  ⟨reason, span, shorten ((span.slice? source).getD "")⟩

/-- The wording of a lexical error. -/
def message (e : LexError) : String :=
  e.reason.describe ++ " `" ++ e.lexeme ++ "` at bytes " ++ toString e.span.start ++ ".." ++
    toString e.span.stop

end LexError

/-- The characters an identifier can start with: ASCII letters and the underscore. -/
def isIdentifierStart (c : Char) : Bool :=
  c.isAlpha || c = '_'

/-- The characters an identifier can go on with: those it can start with, and ASCII digits. -/
def isIdentifierRest (c : Char) : Bool :=
  c.isAlphanum || c = '_'

/-- The delimiter at both ends of a literal. -/
def LiteralKind.delimiter : LiteralKind → Char
  | string => '\x22'
  | rawString => '\x27'
  | regex => '/'

/-- The kind of literal that a delimiter opens. -/
def LiteralKind.ofDelimiter? (c : Char) : Option LiteralKind :=
  [string, rawString, regex].find? fun kind => kind.delimiter = c

/-- The text up to and including the first closing delimiter, and what follows it. A backslash takes
the next character along, whatever it is. -/
def closeLiteral (delimiter : Char) : List Char → Option (List Char × List Char)
  | [] => none
  | c :: rest =>
    if c = '\\' then
      match rest with
      | [] => none
      | next :: rest => (closeLiteral delimiter rest).map fun (body, after) => (c :: next :: body, after)
    else if c = delimiter then some ([c], rest)
    else (closeLiteral delimiter rest).map fun (body, after) => (c :: body, after)

/-- The text up to and including the first `*/`, and what follows it. -/
def closeBlockComment : List Char → Option (List Char × List Char)
  | [] => none
  | '*' :: '/' :: rest => some (['*', '/'], rest)
  | c :: rest => (closeBlockComment rest).map fun (body, after) => (c :: body, after)

/-- Whether a character ends a line comment. -/
def isLineEnd (c : Char) : Bool :=
  c = '\n' || c = '\r'

/-- The text that is scanned as a mark. The text that a mark is written as is `Mark.text`. -/
def Mark.scanned : Mark → String
  | start => "%start"
  | title => "%title"
  | comment => "%comment"
  | userType => "%user_type"
  | ntType => "%nt_type"
  | tType => "%t_type"
  | grammarType => "%grammar_type"
  | lineComment => "%line_comment"
  | blockComment => "%block_comment"
  | autoNewlineOff => "%auto_newline_off"
  | autoWsOff => "%auto_ws_off"
  | on => "%on"
  | allowUnmatched => "%allow_unmatched"
  | enter => "%enter"
  | push => "%push"
  | pop => "%pop"
  | scanner => "%scanner"
  | percentPercent => "%%"
  | doubleColon => "::"
  | positiveLookahead => "?="
  | negativeLookahead => "?!"
  | colon => ":"
  | semicolon => ";"
  | pipe => "|"
  | leftParen => "("
  | rightParen => ")"
  | leftBracket => "["
  | rightBracket => "]"
  | leftBrace => "\x7b"
  | rightBrace => "\x7d"
  | lessThan => "<"
  | greaterThan => ">"
  | comma => ","
  | equals => "="
  | atSign => "@"
  | caret => "^"

/-- The first token of the text `c :: cs`, and what follows it. -/
def scan (c : Char) (cs : List Char) : Except LexErrorKind (Token × List Char) :=
  if Text.isBlank c then
    .ok (.trivia .whitespace (String.ofList (c :: cs.takeWhile Text.isBlank)), cs.dropWhile Text.isBlank)
  else if isIdentifierStart c then
    .ok (.identifier (String.ofList (c :: cs.takeWhile isIdentifierRest)), cs.dropWhile isIdentifierRest)
  else if c = '/' ∧ cs.head? = some '/' then
    .ok
      (.trivia .lineComment (String.ofList (c :: cs.takeWhile (!isLineEnd ·))),
        cs.dropWhile (!isLineEnd ·))
  else if c = '/' ∧ cs.head? = some '*' then
    match closeBlockComment cs.tail with
    | some (body, rest) => .ok (.trivia .blockComment (String.ofList (c :: '*' :: body)), rest)
    | none => .error .unterminatedBlockComment
  else
    match LiteralKind.ofDelimiter? c with
    | some kind =>
      match closeLiteral c cs with
      | some (body, rest) => .ok (.literal kind (String.ofList (c :: body)), rest)
      | none => .error (.unterminatedLiteral kind)
    | none =>
      match Mark.all.find? fun m => m.scanned.toList.isPrefixOf (c :: cs) with
      | some m => .ok (.mark m, (c :: cs).drop m.scanned.length)
      | none => .error .unexpectedCharacter

/-- A closed literal leaves less than it was given. -/
theorem length_lt_of_closeLiteral {delimiter : Char} {cs body rest : List Char}
    (h : closeLiteral delimiter cs = some (body, rest)) : rest.length < cs.length := by
  fun_induction closeLiteral delimiter cs generalizing body rest with
  | case1 | case2 => simp at h
  | case3 next cs ih =>
    obtain ⟨⟨inner, after⟩, hi, he⟩ := Option.map_eq_some_iff.mp h
    have hr : after = rest := congrArg Prod.snd he
    subst hr
    have := ih hi
    simp only [List.length_cons]
    omega
  | case4 c cs =>
    simp only [Option.some.injEq, Prod.mk.injEq] at h
    simp [← h.2]
  | case5 c cs _ _ ih =>
    obtain ⟨⟨inner, after⟩, hi, he⟩ := Option.map_eq_some_iff.mp h
    have hr : after = rest := congrArg Prod.snd he
    subst hr
    have := ih hi
    simp only [List.length_cons]
    omega

/-- A closed comment leaves less than it was given. -/
theorem length_lt_of_closeBlockComment {cs body rest : List Char}
    (h : closeBlockComment cs = some (body, rest)) : rest.length < cs.length := by
  fun_induction closeBlockComment cs generalizing body rest with
  | case1 => simp at h
  | case2 cs =>
    simp only [Option.some.injEq, Prod.mk.injEq] at h
    simp only [← h.2, List.length_cons]
    omega
  | case3 c cs _ ih =>
    obtain ⟨⟨inner, after⟩, hi, he⟩ := Option.map_eq_some_iff.mp h
    have hr : after = rest := congrArg Prod.snd he
    subst hr
    have := ih hi
    simp only [List.length_cons]
    omega

/-- Dropping a run leaves at most what there was. -/
theorem length_dropWhile_le (p : Char → Bool) (cs : List Char) :
    (cs.dropWhile p).length ≤ cs.length :=
  (List.dropWhile_suffix p).length_le

/-- A scanned token leaves less text than there was, so scanning again and again comes to an end. -/
theorem length_lt_of_scan {c : Char} {cs rest : List Char} {t : Token}
    (h : scan c cs = .ok (t, rest)) : rest.length < (c :: cs).length := by
  have hd := fun p => length_dropWhile_le p cs
  unfold scan at h
  split at h
  · cases h; have := hd Text.isBlank; simp only [List.length_cons]; omega
  split at h
  · cases h; have := hd isIdentifierRest; simp only [List.length_cons]; omega
  split at h
  · cases h; have := hd (!isLineEnd ·); simp only [List.length_cons]; omega
  split at h
  · split at h
    · rename_i body after hb
      cases h
      have := length_lt_of_closeBlockComment hb
      simp only [List.length_tail, List.length_cons] at this ⊢
      omega
    · cases h
  split at h
  · split at h
    · rename_i body after hb
      cases h
      have := length_lt_of_closeLiteral hb
      simp only [List.length_cons]
      omega
    · cases h
  split at h
  · rename_i m hm
    cases h
    have : 0 < m.scanned.length := by cases m <;> decide
    simp only [List.length_drop, List.length_cons]
    omega
  · cases h

/-- A token with the span it covers. -/
structure Lexeme where
  token : Token
  span : Span
  deriving DecidableEq, Inhabited

/-- A failure to scan at byte `offset` before the text `cs`: an unexpected character is blamed alone,
an opener with all that follows it. -/
def LexErrorKind.blame (reason : LexErrorKind) (offset : Nat) (cs : List Char) : Span :=
  match reason with
  | unexpectedCharacter => ⟨offset, offset + byteLength (cs.take 1)⟩
  | _ => ⟨offset, offset + byteLength cs⟩

/-- The tokens of a text that starts at byte `offset`, or the first failure and the span to blame. -/
def tokenizeFrom (offset : Nat) (text : List Char) : Except (LexErrorKind × Span) (List Lexeme) :=
  match text with
  | [] => .ok []
  | c :: cs =>
    match _h : scan c cs with
    | .error reason => .error (reason, reason.blame offset (c :: cs))
    | .ok (token, rest) =>
      let stop := offset + token.text.utf8ByteSize
      (tokenizeFrom stop rest).map (⟨token, ⟨offset, stop⟩⟩ :: ·)
termination_by text.length
decreasing_by exact length_lt_of_scan _h

/-- Every token of a source text, trivia included. -/
def tokenize (source : String) : Except LexError (List Lexeme) :=
  (tokenizeFrom 0 source.toList).mapError fun (reason, span) => .ofSpan reason span source

/-- The tokens of a source text that the parser reads. -/
def lex (source : String) : Except LexError (List Lexeme) :=
  (tokenize source).map (List.filter fun lexeme => !lexeme.token.kind.isTrivia)

end GrammarFile
