import GrammarFile.Text.Ascending

/-!
# Places in a source text

A source text is addressed in two ways: by byte offsets (`Span`) and by line and column
(`Position`). A `Range` holds both for one stretch of text. The offsets and columns count bytes of
the UTF-8 form of the text, and lines and columns start at 0.

`LineIndex` holds the offsets at which lines start. It turns an offset into a position by finding
the last line start that is not past it.
-/

namespace GrammarFile

/-- A stretch of the source text, as two byte offsets: from `start` up to but not including `stop`. -/
structure Span where
  start : Nat
  stop : Nat
  deriving DecidableEq, Inhabited

/-- A line and a column, both counted from 0, the column in bytes. -/
structure Position where
  line : Nat
  column : Nat
  deriving DecidableEq, Inhabited

/-- A position as `line:column`. -/
def Position.render (p : Position) : String :=
  toString p.line ++ ":" ++ toString p.column

/-- A stretch of the source text, with the positions of its two ends. -/
structure Range where
  span : Span
  start : Position
  stop : Position
  deriving DecidableEq, Inhabited

namespace Range

/-- The empty range at the start of a text. -/
def origin : Range := ⟨⟨0, 0⟩, ⟨0, 0⟩, ⟨0, 0⟩⟩

/-- A range as its two positions, `line:column..line:column`. -/
def render (r : Range) : String :=
  r.start.render ++ ".." ++ r.stop.render

/-- The smallest range that covers both `a` and `b`. -/
def hull (a b : Range) : Range :=
  let first := if b.span.start < a.span.start then b else a
  let last := if b.span.stop > a.span.stop then b else a
  ⟨⟨first.span.start, last.span.stop⟩, first.start, last.stop⟩

/-- The range from the start of `a` to the end of `b`. -/
def through (a b : Range) : Range :=
  ⟨⟨a.span.start, b.span.stop⟩, a.start, b.stop⟩

/-- The empty range at the end of `r`. -/
def endPoint (r : Range) : Range :=
  ⟨⟨r.span.stop, r.span.stop⟩, r.stop, r.stop⟩

end Range

/-- The byte offset after each line feed of a text that starts at byte `offset`, in order. -/
def offsetsAfterFeeds (offset : Nat) : List Char → List Nat
  | [] => []
  | c :: rest =>
    let next := offset + c.utf8Size
    if c = '\n' then next :: offsetsAfterFeeds next rest else offsetsAfterFeeds next rest

/-- The byte offsets at which the lines of a text start, in ascending order. The first is 0. -/
structure LineIndex where
  starts : Array Nat
  deriving DecidableEq, Inhabited

namespace LineIndex

/-- The line index of a source text. -/
def ofSource (source : String) : LineIndex :=
  ⟨(0 :: offsetsAfterFeeds 0 source.toList).toArray⟩

/-- The position of a byte offset. An offset past the end counts on along the last line. -/
def position (index : LineIndex) (offset : Nat) : Position :=
  let line := countUpTo index.starts offset 0 index.starts.size - 1
  ⟨line, offset - index.starts.getD line 0⟩

/-- The range of a span. -/
def range (index : LineIndex) (span : Span) : Range :=
  ⟨span, index.position span.start, index.position span.stop⟩

end LineIndex

end GrammarFile
