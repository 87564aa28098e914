import GrammarFile.Text.Blank
import Mathlib.Algebra.GroupWithZero.Nat
import Mathlib.Data.List.Basic

/-!
# The lines of a text that is put together

A text falls into lines at its line feeds: what stands in front of a feed and what stands behind it
are cut by themselves (`lines_append`). So rows of text, each with a feed behind it, are cut into
those rows again (`lines_stack`), and rows with feeds between them are, too (`lines_intercalate`),
provided that each row is one line (`OneLine`). Texts that are one line can be put together to one
line.
-/

namespace GrammarFile.Text

/-! ### Cutting at a character -/

/-- Texts are the same up to the first character of a sort, where they have one. -/
theorem append_cons_inj {p : Char → Prop} {before before' behind behind' : List Char} {c c' : Char}
    (h : ∀ d ∈ before, ¬ p d) (h' : ∀ d ∈ before', ¬ p d) (hc : p c) (hc' : p c')
    (heq : before ++ c :: behind = before' ++ c' :: behind') :
    before = before' ∧ c = c' ∧ behind = behind' := by
  induction before generalizing before' with
  | nil =>
    cases before' with
    | nil => simpa using heq
    | cons d before' =>
      obtain ⟨rfl, -⟩ := List.cons.inj heq
      exact absurd hc (h' c List.mem_cons_self)
  | cons d before ih =>
    obtain ⟨hd, hbefore⟩ := List.forall_mem_cons.mp h
    cases before' with
    | nil =>
      obtain ⟨rfl, -⟩ := List.cons.inj heq
      exact absurd hc' hd
    | cons d' before' =>
      obtain ⟨rfl, htail⟩ := List.cons.inj heq
      obtain ⟨rfl, hrest⟩ := ih hbefore (fun x hx => h' x (List.mem_cons_of_mem d hx)) htail
      exact ⟨rfl, hrest⟩

/-- Texts that go on with the same character, and do not have it before, are the same up to there. -/
theorem append_cons_inj_of_not_mem {c : Char} {before before' behind behind' : List Char} (h : c ∉ before)
    (h' : c ∉ before') (heq : before ++ c :: behind = before' ++ c :: behind') :
    before = before' ∧ behind = behind' := by
  have hne : ∀ {cs : List Char}, c ∉ cs → ∀ d ∈ cs, ¬ d = c := fun hcs d hd heq => hcs (heq ▸ hd)
  obtain ⟨hbefore, -, hbehind⟩ := append_cons_inj (p := (· = c)) (hne h) (hne h') rfl rfl heq
  exact ⟨hbefore, hbehind⟩

/-! ### Cutting at line feeds -/

/-- Every text has a piece, if only an empty one. -/
theorem pieces_ne_nil (cs : List Char) : pieces cs ≠ [] := by
  cases cs with
  | nil => exact List.cons_ne_nil _ _
  | cons c cs =>
    rw [pieces]
    split
    · exact List.cons_ne_nil _ _
    · split <;> exact List.cons_ne_nil _ _

/-- A character that is no line feed goes to the first piece. -/
theorem pieces_cons_of_ne {c : Char} (hc : c ≠ '\n') {cs piece : List Char} {more : List (List Char)}
    (h : pieces cs = piece :: more) : pieces (c :: cs) = (c :: piece) :: more := by
  rw [pieces, if_neg hc, h]

/-- A line feed cuts a text in two. -/
theorem pieces_append_feed (cs rest : List Char) :
    pieces (cs ++ '\n' :: rest) = pieces cs ++ pieces rest := by
  induction cs with
  | nil => rfl
  | cons c cs ih =>
    by_cases hc : c = '\n'
    · subst hc
      simp [pieces, ih]
    · obtain ⟨piece, more, hpieces⟩ := List.exists_cons_of_ne_nil (pieces_ne_nil cs)
      rw [hpieces, List.cons_append] at ih
      rw [List.cons_append, pieces_cons_of_ne hc ih, pieces_cons_of_ne hc hpieces, List.cons_append]

/-- A text without line feeds is one piece. -/
theorem pieces_of_not_mem {cs : List Char} (h : '\n' ∉ cs) : pieces cs = [cs] := by
  induction cs with
  | nil => rfl
  | cons c cs ih =>
    obtain ⟨hc, hcs⟩ := not_or.mp (mt List.mem_cons.mpr h)
    exact pieces_cons_of_ne (Ne.symm hc) (ih hcs)

/-- There is one piece more than there are line feeds. -/
theorem length_pieces (cs : List Char) : (pieces cs).length = cs.count '\n' + 1 := by
  induction cs with
  | nil => rfl
  | cons c cs ih =>
    by_cases hc : c = '\n'
    · subst hc
      simp [pieces, ih]
    · obtain ⟨piece, more, hpieces⟩ := List.exists_cons_of_ne_nil (pieces_ne_nil cs)
      rw [hpieces, List.length_cons] at ih
      rw [pieces_cons_of_ne hc hpieces, List.length_cons, ih, List.count_cons_of_ne hc]

/-- Pieces in front of others are ended by a line feed. -/
theorem linesOfPieces_append (ps : List (List Char)) {qs : List (List Char)} (hqs : qs ≠ []) :
    linesOfPieces (ps ++ qs) = ps.map dropReturn ++ linesOfPieces qs := by
  induction ps with
  | nil => rfl
  | cons p ps ih =>
    obtain ⟨q, rest, hrest⟩ := List.exists_cons_of_ne_nil (List.append_ne_nil_of_right_ne_nil ps hqs)
    rw [hrest] at ih
    rw [List.cons_append, hrest, linesOfPieces, ih, List.map_cons, List.cons_append]
    exact List.cons_ne_nil q rest

/-- The lines up to a line feed are followed by those of the text behind it. -/
theorem lines_append_feed (first second : List Char) :
    lines (.ofList (first ++ '\n' :: second)) =
      ((pieces first).map dropReturn).map String.ofList ++ lines (.ofList second) := by
  rw [lines, String.toList_ofList, pieces_append_feed, linesOfPieces_append _ (pieces_ne_nil _),
    List.map_append, lines, String.toList_ofList]

/-- A text is cut into the lines up to a line feed and the lines behind it. -/
theorem lines_append (first second : String) :
    lines (first ++ "\n" ++ second) =
      ((pieces first.toList).map dropReturn).map String.ofList ++ lines second := by
  have htext : first ++ "\n" ++ second = .ofList (first.toList ++ '\n' :: second.toList) := by
    apply String.toList_inj.mp
    simp
  rw [htext, lines_append_feed, String.ofList_toList]

/-! ### No line feeds in lines -/

/-- A piece has no line feed. -/
theorem not_mem_of_mem_pieces {cs piece : List Char} (h : piece ∈ pieces cs) : '\n' ∉ piece := by
  induction cs generalizing piece with
  | nil =>
    rw [pieces, List.mem_singleton] at h
    exact h ▸ List.not_mem_nil
  | cons c cs ih =>
    obtain ⟨first, more, hpieces⟩ := List.exists_cons_of_ne_nil (pieces_ne_nil cs)
    by_cases hc : c = '\n'
    · rw [pieces, if_pos hc] at h
      rcases List.mem_cons.mp h with rfl | hmem
      · exact List.not_mem_nil
      · exact ih hmem
    · rw [pieces_cons_of_ne hc hpieces] at h
      rcases List.mem_cons.mp h with rfl | hmem
      · rw [List.mem_cons, not_or]
        exact ⟨Ne.symm hc, ih (hpieces ▸ List.mem_cons_self)⟩
      · exact ih (hpieces ▸ List.mem_cons_of_mem first hmem)

/-- A piece without its carriage return has no line feed either. -/
theorem not_mem_dropReturn {piece : List Char} (h : '\n' ∉ piece) : '\n' ∉ dropReturn piece := by
  rw [dropReturn]
  split
  · exact fun hmem => h (List.dropLast_subset piece hmem)
  · exact h

/-- Lines of pieces have no line feeds. -/
theorem not_mem_of_mem_linesOfPieces {ps : List (List Char)} (h : ∀ p ∈ ps, '\n' ∉ p) :
    ∀ line ∈ linesOfPieces ps, '\n' ∉ line := by
  induction ps with
  | nil => simp [linesOfPieces]
  | cons p ps ih =>
    obtain ⟨hp, hps⟩ := List.forall_mem_cons.mp h
    cases ps with
    | nil =>
      rw [linesOfPieces]
      split
      · exact nofun
      · simpa using hp
    | cons q ps =>
      rw [linesOfPieces]
      · exact List.forall_mem_cons.mpr ⟨not_mem_dropReturn hp, ih hps⟩
      · exact List.cons_ne_nil q ps

/-- No line of a text has a line feed in it. -/
theorem not_mem_of_mem_lines {text line : String} (h : line ∈ lines text) : '\n' ∉ line.toList := by
  obtain ⟨cs, hcs, rfl⟩ := List.mem_map.mp h
  rw [String.toList_ofList]
  exact not_mem_of_mem_linesOfPieces (fun _ => not_mem_of_mem_pieces) cs hcs

/-! ### Texts that are one line -/

/-- Whether a text stays one line when a line feed is put behind it: it has no line feed, and no carriage
return at its end. -/
structure OneLine (text : String) : Prop where
  noFeed : '\n' ∉ text.toList
  noReturn : text.toList.getLast? ≠ some '\r'

instance (text : String) : Decidable (OneLine text) :=
  decidable_of_iff ('\n' ∉ text.toList ∧ text.toList.getLast? ≠ some '\r')
    ⟨fun h => ⟨h.1, h.2⟩, fun h => ⟨h.noFeed, h.noReturn⟩⟩

namespace OneLine

variable {first second : String}

/-- The empty text is on one line. -/
theorem empty : OneLine "" := by
  decide

/-- A text of characters that are all of a sort, to which neither the feed nor the return belongs. -/
theorem ofAll {p : Char → Prop} (h : ∀ c ∈ first.toList, p c) (hfeed : ¬ p '\n') (hreturn : ¬ p '\r') :
    OneLine first :=
  ⟨fun hmem => hfeed (h _ hmem), fun hlast => hreturn (h _ (List.mem_of_getLast? hlast))⟩

/-- In front of a text that is one line there need only be no line feed. -/
theorem append_of_ne (h : '\n' ∉ first.toList) (h' : OneLine second) (hne : second ≠ "") :
    OneLine (first ++ second) := by
  constructor
  · rw [String.toList_append, List.mem_append, not_or]
    exact ⟨h, h'.noFeed⟩
  · have hsecond : second.toList ≠ [] := by simpa using hne
    rw [String.toList_append, List.getLast?_append_of_ne_nil _ hsecond]
    exact h'.noReturn

/-- Two texts on one line are on one line together. -/
theorem append (h : OneLine first) (h' : OneLine second) : OneLine (first ++ second) := by
  constructor
  · rw [String.toList_append, List.mem_append, not_or]
    exact ⟨h.noFeed, h'.noFeed⟩
  · rw [String.toList_append, List.getLast?_append]
    intro hlast
    rcases Option.or_eq_some_iff.mp hlast with hsecond | ⟨-, hfirst⟩
    · exact h'.noReturn hsecond
    · exact h.noReturn hfirst

/-- An optional text is on one line if it is so where it is there. -/
theorem elim {α : Type} (o : Option α) {f : α → String} (h : ∀ a, o = some a → OneLine (f a)) :
    OneLine (o.elim "" f) := by
  cases o with
  | none => exact .empty
  | some a => exact h a rfl

/-- Texts on one line, with such a text between them, are on one line together. -/
theorem intercalate {separator : String} (hseparator : OneLine separator) {texts : List String}
    (h : ∀ text ∈ texts, OneLine text) : OneLine (separator.intercalate texts) := by
  induction texts with
  | nil => exact .empty
  | cons text texts ih =>
    obtain ⟨htext, htexts⟩ := List.forall_mem_cons.mp h
    cases texts with
    | nil => rwa [String.intercalate_singleton]
    | cons other texts =>
      rw [String.intercalate_cons_cons]
      exact (htext.append hseparator).append (ih htexts)

/-- A text on one line is its only line. -/
theorem pieces_eq {text : String} (h : OneLine text) :
    ((pieces text.toList).map dropReturn).map String.ofList = [text] := by
  rw [pieces_of_not_mem h.noFeed, List.map_singleton, dropReturn, if_neg h.noReturn, List.map_singleton,
    String.ofList_toList]

end OneLine

/-! ### Rows of a text -/

/-- What can be told of each row can be told of all of them. -/
theorem map_eq_of_map_eq {α β γ : Type} {p : α → Prop} {f : α → β} {g : α → γ}
    (hfg : ∀ a a', p a → p a' → f a = f a' → g a = g a') {as as' : List α} (h : ∀ a ∈ as, p a)
    (h' : ∀ a ∈ as', p a) (heq : as.map f = as'.map f) : as.map g = as'.map g := by
  induction as generalizing as' with
  | nil =>
    rw [List.map_nil, eq_comm, List.map_eq_nil_iff] at heq
    rw [heq]
  | cons a as ih =>
    obtain ⟨a', rest, rfl, hfirst, hrest⟩ := List.map_eq_cons_iff.mp heq.symm
    obtain ⟨ha, has⟩ := List.forall_mem_cons.mp h
    obtain ⟨ha', has'⟩ := List.forall_mem_cons.mp h'
    rw [List.map_cons, List.map_cons, hfg a a' ha ha' hfirst.symm, ih has has' hrest.symm]

/-- Rows with a line feed behind each. -/
def stack (rows : List String) : String :=
  String.join (rows.map (· ++ "\n"))

/-- Rows below rows are stacked below them. -/
theorem stack_append (rows rows' : List String) : stack (rows ++ rows') = stack rows ++ stack rows' := by
  simp [stack]

/-- The first row is on top of the others. -/
theorem stack_cons (row : String) (rows : List String) :
    stack (row :: rows) = row ++ "\n" ++ stack rows := by
  rw [stack, List.map_cons, String.join_cons, stack]

/-- Rows without line feeds are cut apart again, and behind the last of them is nothing. -/
theorem pieces_stack {rows : List String} (h : ∀ row ∈ rows, '\n' ∉ row.toList) :
    pieces (stack rows).toList = rows.map String.toList ++ [[]] := by
  induction rows with
  | nil => rfl
  | cons row rows ih =>
    obtain ⟨hrow, hrows⟩ := List.forall_mem_cons.mp h
    have htext : (stack (row :: rows)).toList = row.toList ++ '\n' :: (stack rows).toList := by
      rw [stack_cons, String.toList_append, String.toList_append, List.append_assoc]
      rfl
    rw [htext, pieces_append_feed, pieces_of_not_mem hrow, ih hrows]
    rfl

/-- **Rows of one line each are the lines of their text.** -/
theorem lines_stack {rows : List String} (h : ∀ row ∈ rows, OneLine row) : lines (stack rows) = rows := by
  induction rows with
  | nil => rfl
  | cons row rows ih =>
    obtain ⟨hrow, hrows⟩ := List.forall_mem_cons.mp h
    rw [stack_cons, lines_append, hrow.pieces_eq, ih hrows, List.singleton_append]

/-- A row takes one line more than it has line feeds. -/
theorem length_lines_stack (rows : List String) :
    (lines (stack rows)).length = rows.length + (rows.map fun row => row.toList.count '\n').sum := by
  induction rows with
  | nil => rfl
  | cons row rows ih =>
    rw [stack_cons, lines_append, List.length_append, ih, List.length_map, List.length_map, length_pieces,
      List.map_cons, List.sum_cons, List.length_cons]
    omega

/-- Rows with line feeds between them are the lines of their text, if there is something in the last
one. -/
theorem lines_intercalate {rows : List String} (h : ∀ row ∈ rows, OneLine row) (hempty : "" ∉ rows) :
    lines ("\n".intercalate rows) = rows := by
  induction rows with
  | nil => rfl
  | cons row rows ih =>
    obtain ⟨hrow, hrows⟩ := List.forall_mem_cons.mp h
    obtain ⟨hne, hempty⟩ := not_or.mp (mt List.mem_cons.mpr hempty)
    cases rows with
    | nil =>
      have hrow' : row.toList.isEmpty = false := by
        simpa using Ne.symm hne
      rw [String.intercalate_singleton, lines, pieces_of_not_mem hrow.noFeed, linesOfPieces, hrow']
      simp
    | cons other rows =>
      rw [String.intercalate_cons_cons, lines_append, hrow.pieces_eq, ih hrows hempty,
        List.singleton_append]

end GrammarFile.Text
