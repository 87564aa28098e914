import GrammarFile.Proofs.Text.Digits
import GrammarFile.Proofs.Text.Lines
import GrammarFile.Source.Excerpt
import Mathlib.Data.List.Induction

/-!
# What an excerpt shows of a source

A text is cut at a line by the line feeds on both sides of it, or by the ends of the text
(`Text.CutsLine`). There are as many lines in front of it as there are line feeds, and it comes next
(`Text.exists_lines_of_cutsLine`), with one exception: behind a line feed at the end of a text, or
in an empty text, no line is left, though there is a place for one
(`Text.length_lines_of_startsLine`).

An excerpt shows a line that there is, with a mark, and up to two lines on either side of it
(`showsLine_excerpt`). No other of its rows has a mark (`ShowsLine.markedRows_eq`). Where there is
no line, none is marked (`excerpt_of_length_le`, `markedRows_plainRows`).
-/

namespace GrammarFile

/-! ### Lines of a text that is cut -/

namespace Text

/-- Whether a line starts behind characters: there are none, or the last of them is a line feed. -/
def StartsLine (front : List Char) : Prop :=
  front = [] ∨ ∃ more, front = more ++ ['\n']

/-- Whether a line ends in front of characters: there are none, or the first of them is a line feed. -/
def EndsLine (rest : List Char) : Prop :=
  rest = [] ∨ ∃ more, rest = '\n' :: more

/-- Whether characters are cut where a line starts and where it ends. -/
structure CutsLine (cs front line rest : List Char) : Prop where
  eq : cs = front ++ (line ++ rest)
  starts : StartsLine front
  noFeed : '\n' ∉ line
  ends : EndsLine rest

/-- What is in front of a place falls into lines that are ended and the start of the line of the place. -/
theorem exists_append_of_front (before : List Char) :
    ∃ front first, before = front ++ first ∧ StartsLine front ∧ '\n' ∉ first := by
  induction before using List.reverseRecOn with
  | nil => exact ⟨[], [], rfl, .inl rfl, List.not_mem_nil⟩
  | append_singleton before c ih =>
    by_cases hc : c = '\n'
    · subst hc
      exact ⟨before ++ ['\n'], [], (List.append_nil _).symm, .inr ⟨before, rfl⟩, List.not_mem_nil⟩
    · obtain ⟨front, first, rfl, hfront, hfirst⟩ := ih
      refine ⟨front, first ++ [c], List.append_assoc .., hfront, ?_⟩
      rw [List.mem_append, List.mem_singleton, not_or]
      exact ⟨hfirst, Ne.symm hc⟩

/-- What is behind a place falls into the end of the line of the place and the line feed with all
behind it. -/
theorem exists_append_of_behind (behind : List Char) :
    ∃ last rest, behind = last ++ rest ∧ '\n' ∉ last ∧ EndsLine rest := by
  by_cases hfeed : '\n' ∈ behind
  · obtain ⟨last, more, hbehind, hlast⟩ := List.eq_append_cons_of_mem hfeed
    exact ⟨last, '\n' :: more, hbehind, hlast, .inr ⟨more, rfl⟩⟩
  · exact ⟨behind, [], (List.append_nil _).symm, hfeed, .inl rfl⟩

/-- Each place of a text is on a line of it, with as many line feeds in front of the line as in
front of the place. -/
theorem exists_cutsLine (before behind : List Char) :
    ∃ front first last rest, before = front ++ first ∧ behind = last ++ rest ∧
      CutsLine (before ++ behind) front (first ++ last) rest ∧ before.count '\n' = front.count '\n' := by
  obtain ⟨front, first, rfl, hfront, hfirst⟩ := exists_append_of_front before
  obtain ⟨last, rest, rfl, hlast, hrest⟩ := exists_append_of_behind behind
  refine ⟨front, first, last, rest, rfl, rfl, ⟨?_, hfront, ?_, hrest⟩, ?_⟩
  · simp only [List.append_assoc]
  · rw [List.mem_append, not_or]
    exact ⟨hfirst, hlast⟩
  · rw [List.count_append, List.count_eq_zero.mpr hfirst, Nat.add_zero]

/-- A line without its line break, which a carriage return belongs to only where a line feed follows. -/
def withoutBreak (line rest : List Char) : String :=
  String.ofList (if rest = [] then line else dropReturn line)

/-- What ends in a line feed falls into lines, one for each line feed, and leaves the lines behind
it alone. -/
theorem exists_lines_append {front : List Char} (h : StartsLine front) (behind : List Char) :
    ∃ prior, prior.length = front.count '\n' ∧
      lines (.ofList (front ++ behind)) = prior ++ lines (.ofList behind) := by
  rcases h with rfl | ⟨more, rfl⟩
  · exact ⟨[], rfl, rfl⟩
  · refine ⟨((pieces more).map dropReturn).map String.ofList, ?_, ?_⟩
    · rw [List.length_map, List.length_map, length_pieces, List.count_append]
      rfl
    · rw [List.append_assoc, List.singleton_append, lines_append_feed]

/-- Text up to the start of a line has as many lines as line feeds. -/
theorem length_lines_of_startsLine {front : List Char} (h : StartsLine front) :
    (lines (.ofList front)).length = front.count '\n' := by
  obtain ⟨prior, hlength, hlines⟩ := exists_lines_append h []
  rw [List.append_nil] at hlines
  rw [hlines, List.length_append, hlength]
  rfl

/-- **A text has a line for each line feed in front, and then the line that it is cut at**, if there
is anything of it. -/
theorem exists_lines_of_cutsLine {cs front line rest : List Char} (h : CutsLine cs front line rest)
    (hne : ¬(line = [] ∧ rest = [])) :
    ∃ prior later, prior.length = front.count '\n' ∧
      lines (.ofList cs) = prior ++ withoutBreak line rest :: later := by
  obtain ⟨prior, hlength, hlines⟩ := exists_lines_append h.starts (line ++ rest)
  rw [h.eq, hlines]
  rcases h.ends with rfl | ⟨more, rfl⟩
  · obtain ⟨c, cs, rfl⟩ := List.exists_cons_of_ne_nil fun hline => hne ⟨hline, rfl⟩
    refine ⟨prior, [], hlength, ?_⟩
    rw [List.append_nil, lines, String.toList_ofList, pieces_of_not_mem h.noFeed]
    rfl
  · refine ⟨prior, lines (.ofList more), hlength, ?_⟩
    rw [lines_append_feed, pieces_of_not_mem h.noFeed]
    rfl

end Text

/-! ### Rows -/

open Text (lines stack)

/-- A row with its mark, the number of a line and the line. -/
def excerptRow (mark : String) (number : Nat) (line : String) : String :=
  mark ++ " " ++ Text.padLeft 3 (toString number) ++ " | " ++ line

/-- The rows of lines without a mark, which are numbered from `first` on. -/
def plainRows (first : Nat) (texts : List String) : List String :=
  (texts.zipIdx first).map fun (line, number) => excerptRow "  " number line

/-- The rows of a text that have a mark. -/
def markedRows (shown : String) : List String :=
  ((Text.pieces shown.toList).filter (['>', '>'].isPrefixOf ·)).map String.ofList

/-- A row of an excerpt has no line feed in it. -/
theorem not_mem_excerptRow {mark line : String} (hmark : '\n' ∉ mark.toList) (hline : '\n' ∉ line.toList)
    (number : Nat) : '\n' ∉ (excerptRow mark number line).toList := by
  have hdigits : '\n' ∉ Nat.toDigits 10 number := fun h =>
    absurd (Nat.isDigit_of_mem_toDigits (by omega) (by omega) h) (by decide)
  simp [excerptRow, Text.padLeft, hmark, hline, hdigits]

/-- Rows without a mark have no line feeds in them. -/
theorem not_mem_plainRows {texts : List String} (h : ∀ line ∈ texts, '\n' ∉ line.toList) (first : Nat) :
    ∀ row ∈ plainRows first texts, '\n' ∉ row.toList := by
  intro row hrow
  obtain ⟨⟨line, number⟩, hmem, rfl⟩ := List.mem_map.mp hrow
  exact not_mem_excerptRow (by decide) (h line (List.fst_mem_of_mem_zipIdx hmem)) number

/-- The marked rows of a stack are those of its rows that start with the mark. -/
theorem markedRows_stack {rows : List String} (h : ∀ row ∈ rows, '\n' ∉ row.toList) :
    markedRows (stack rows) = rows.filter (['>', '>'].isPrefixOf ·.toList) := by
  have hlast : List.filter (['>', '>'].isPrefixOf ·) [([] : List Char)] = [] := rfl
  rw [markedRows, Text.pieces_stack h, List.filter_append, hlast, List.append_nil, List.filter_map,
    List.map_map]
  simp [Function.comp_def]

/-- Rows without a mark have none. -/
theorem filter_plainRows (first : Nat) (texts : List String) :
    (plainRows first texts).filter (['>', '>'].isPrefixOf ·.toList) = [] := by
  refine List.filter_eq_nil_iff.mpr fun row hrow => ?_
  obtain ⟨⟨line, number⟩, -, rfl⟩ := List.mem_map.mp hrow
  simp [excerptRow]

/-! ### Excerpts -/

/-- Whether a text shows a line of a source: the line has a mark, and up to two lines in front of it
and up to two lines behind it have none. All have their numbers. Lines are counted from 0, and
numbered from 1. -/
def ShowsLine (source : String) (n : Nat) (line shown : String) : Prop :=
  ∃ head before after tail, lines source = (head ++ before) ++ line :: (after ++ tail) ∧
    (head ++ before).length = n ∧ before.length = min 2 n ∧ after.length = min 2 (after ++ tail).length ∧
    shown =
      stack
        (plainRows (head.length + 1) before ++ excerptRow ">>" (n + 1) line ::
          plainRows (n + 2) after)

/-- **No other row has a mark.** -/
theorem ShowsLine.markedRows_eq {source line shown : String} {n : Nat}
    (h : ShowsLine source n line shown) :
    markedRows shown = [excerptRow ">>" (n + 1) line] := by
  obtain ⟨head, before, after, tail, hlines, -, -, -, rfl⟩ := h
  have hfeed : ∀ line' ∈ (head ++ before) ++ line :: (after ++ tail), '\n' ∉ line'.toList := by
    rw [← hlines]
    exact fun _ => Text.not_mem_of_mem_lines
  simp only [List.forall_mem_append, List.forall_mem_cons] at hfeed
  obtain ⟨⟨-, hbefore⟩, hline, hafter, -⟩ := hfeed
  have hmarked : (['>', '>'].isPrefixOf (excerptRow ">>" (n + 1) line).toList) = true := by
    simp [excerptRow]
  rw [markedRows_stack, List.filter_append, List.filter_cons, if_pos hmarked, filter_plainRows,
    filter_plainRows, List.nil_append]
  simp only [List.forall_mem_append, List.forall_mem_cons]
  exact ⟨not_mem_plainRows hbefore _, not_mem_excerptRow (by decide) hline _, not_mem_plainRows hafter _⟩

/-- A stack of rows without a mark has no marked row. -/
theorem markedRows_plainRows {source : String} {texts : List String} (h : texts ⊆ lines source)
    (first : Nat) :
    markedRows (stack (plainRows first texts)) = [] := by
  rw [markedRows_stack (not_mem_plainRows (fun _ hline => Text.not_mem_of_mem_lines (h hline)) first),
    filter_plainRows]

/-- The rows of lines of which one may be that of the mark. -/
def rowsOf (marked first : Nat) (texts : List String) : List String :=
  (texts.zipIdx first).map fun (line, number) =>
    excerptRow (if number = marked then ">>" else "  ") (number + 1) line

/-- An excerpt is a stack of rows, from two lines in front to two behind. -/
theorem excerpt_eq (source : String) (n : Nat) :
    excerpt source n = stack (rowsOf n (n - 2) (((lines source).take (n + 3)).drop (n - 2))) := by
  rw [excerpt, stack, rowsOf, List.map_map]
  rfl

/-- The first row has the first number, and the mark if the number is that of the mark. -/
theorem rowsOf_cons (marked first : Nat) (line : String) (texts : List String) :
    rowsOf marked first (line :: texts) =
      excerptRow (if first = marked then ">>" else "  ") (first + 1) line ::
        rowsOf marked (first + 1) texts := by
  rw [rowsOf, List.zipIdx_cons]
  rfl

/-- Rows of lines behind lines are numbered on. -/
theorem rowsOf_append (marked first : Nat) (texts texts' : List String) :
    rowsOf marked first (texts ++ texts') =
      rowsOf marked first texts ++ rowsOf marked (first + texts.length) texts' := by
  rw [rowsOf, List.zipIdx_append, List.map_append]
  rfl

/-- Lines that are not at the mark have none. -/
theorem rowsOf_of_ne {marked first : Nat} {texts : List String}
    (h : ∀ i, first ≤ i → i < first + texts.length → i ≠ marked) :
    rowsOf marked first texts = plainRows (first + 1) texts := by
  induction texts generalizing first with
  | nil => rfl
  | cons line texts ih =>
    rw [List.length_cons] at h
    have hrest : rowsOf marked (first + 1) texts = plainRows (first + 1 + 1) texts :=
      ih fun i hle hlt => h i (by omega) (by omega)
    rw [rowsOf_cons,
      if_neg (h first (by omega) (by omega)), hrest, plainRows, plainRows, List.zipIdx_cons]
    rfl

/-- **An excerpt shows a line that there is.** -/
theorem showsLine_excerpt {source line : String} {prior later : List String}
    (h : lines source = prior ++ line :: later) :
    ShowsLine source prior.length line (excerpt source prior.length) := by
  refine ⟨prior.take (prior.length - 2), prior.drop (prior.length - 2), later.take 2, later.drop 2,
    ?_, ?_, ?_, ?_, ?_⟩
  · rw [List.take_append_drop, List.take_append_drop, h]
  · rw [List.take_append_drop]
  · rw [List.length_drop]
    omega
  · rw [List.take_append_drop, List.length_take]
  · have htake : (lines source).take (prior.length + 3) = prior ++ line :: later.take 2 := by
      rw [h, List.take_length_add_append]
      rfl
    have hbefore : rowsOf prior.length (prior.length - 2) (prior.drop (prior.length - 2)) =
        plainRows (prior.length - 2 + 1) (prior.drop (prior.length - 2)) := by
      refine rowsOf_of_ne fun i hle hlt => ?_
      rw [List.length_drop] at hlt
      omega
    have hafter : rowsOf prior.length (prior.length + 1) (later.take 2) =
        plainRows (prior.length + 2) (later.take 2) :=
      rowsOf_of_ne fun i hle hlt => by omega
    have hat : prior.length - 2 + (prior.drop (prior.length - 2)).length = prior.length := by
      rw [List.length_drop]
      omega
    rw [excerpt_eq, htake, List.drop_append_of_le_length (by omega), rowsOf_append, hbefore, hat,
      rowsOf_cons, if_pos rfl, hafter, List.length_take, Nat.min_eq_left (by omega)]

/-- Where there is no line, the up to two lines in front of it are shown, and none has a mark. -/
theorem excerpt_of_length_le {source : String} {n : Nat} (h : (lines source).length ≤ n) :
    excerpt source n = stack (plainRows (n - 2 + 1) ((lines source).drop (n - 2))) := by
  rw [excerpt_eq, List.take_of_length_le (by omega), rowsOf_of_ne]
  intro i hle hlt
  rw [List.length_drop] at hlt
  omega

end GrammarFile
