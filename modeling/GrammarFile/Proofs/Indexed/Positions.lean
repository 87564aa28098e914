import GrammarFile.Source.Position

/-!
# Positions by checked lookups

`LineIndex.position` is total: it subtracts without going below 0, and a line that is not in the index
would start at 0. Here is the same search with every step checked (`LineIndex.position?`). It gives
nothing where a difference would be negative or an entry would not be there.

In the index of a source text that never happens, whatever the offset (`position?_ofSource`,
`range?_ofSource`): the first line starts at 0, so a search ends behind some line, and the last line start
that is not past the offset is not past it.
-/

namespace GrammarFile

/-- The difference of two numbers, unless it is negative. -/
def difference? (a b : Nat) : Option Nat :=
  if b ≤ a then some (a - b) else none

/-- A difference that is not negative is found. -/
theorem difference?_of_le {a b : Nat} (h : b ≤ a) : difference? a b = some (a - b) :=
  if_pos h

/-- What is counted ends behind an entry that is at most `x` and in front of one that is above it. -/
theorem countUpTo_spec {a : Array Nat} {x low high : Nat} (hle : low ≤ high)
    (hlow : low = 0 ∨ a.getD (low - 1) 0 ≤ x) :
    countUpTo a x low high ≤ high ∧
      (countUpTo a x low high = 0 ∨ a.getD (countUpTo a x low high - 1) 0 ≤ x) ∧
      (countUpTo a x low high = high ∨ x < a.getD (countUpTo a x low high) 0) := by
  fun_induction countUpTo a x low high with
  | case1 low high hlt middle hmiddle ih => exact ih (by omega) (.inr hmiddle)
  | case2 low high hlt middle hmiddle ih =>
    have hbefore : middle < high := by omega
    obtain ⟨hcount, hbelow, habove⟩ := ih (by omega) hlow
    refine ⟨Nat.le_trans hcount (Nat.le_of_lt hbefore), hbelow, ?_⟩
    -- where the search of the lower half ends at its end, the entry there is the one that was too large
    rcases habove with heq | habove
    · rw [heq]
      exact .inr (Nat.lt_of_not_le hmiddle)
    · exact .inr habove
  | case3 low high hge =>
    obtain rfl : low = high := Nat.le_antisymm hle (Nat.le_of_not_lt hge)
    exact ⟨Nat.le_refl low, hlow, .inl rfl⟩

namespace LineIndex

/-- The position of a byte offset, with every lookup and every difference checked. -/
def position? (index : LineIndex) (offset : Nat) : Option Position := do
  let line ← difference? (countUpTo index.starts offset 0 index.starts.size) 1
  let start ← index.starts[line]?
  let column ← difference? offset start
  return ⟨line, column⟩

/-- The range of a span, with every lookup and every difference checked. -/
def range? (index : LineIndex) (span : Span) : Option Range := do
  let start ← index.position? span.start
  let stop ← index.position? span.stop
  return ⟨span, start, stop⟩

/-- The first line of a text starts at 0. -/
theorem starts_ofSource (source : String) :
    0 < (ofSource source).starts.size ∧ (ofSource source).starts.getD 0 0 = 0 := by
  unfold ofSource
  rw [List.size_toArray, List.length_cons]
  exact ⟨Nat.succ_pos _, rfl⟩

/-- **Every offset has a position**, in the text or past its end. -/
theorem position?_ofSource (source : String) (offset : Nat) :
    (ofSource source).position? offset = some ((ofSource source).position offset) := by
  obtain ⟨hsize, hfirst⟩ := starts_ofSource source
  obtain ⟨hle, hbelow, habove⟩ :=
    countUpTo_spec (a := (ofSource source).starts) (x := offset)
      (Nat.zero_le (ofSource source).starts.size) (.inl rfl)
  unfold position? position
  generalize (ofSource source).starts = starts at hsize hfirst hle hbelow habove ⊢
  generalize countUpTo starts offset 0 starts.size = count at hle hbelow habove ⊢
  have hpos : 1 ≤ count := by
    -- a search that ends in front of the first line would have found it past the offset
    refine Nat.pos_of_ne_zero fun hzero => ?_
    subst hzero
    rcases habove with hempty | hpast
    · omega
    · rw [hfirst] at hpast
      exact Nat.not_lt_zero offset hpast
  have hline : count - 1 < starts.size := by omega
  have hentry : starts[count - 1]? = some (starts.getD (count - 1) 0) := by
    rw [Array.getD_eq_getD_getElem?, Array.getElem?_eq_getElem hline, Option.getD_some]
  have hstart : starts.getD (count - 1) 0 ≤ offset := hbelow.resolve_left (Nat.ne_of_gt hpos)
  simp only [difference?_of_le hpos, hentry, difference?_of_le hstart, Option.bind_eq_bind,
    Option.bind_some, Option.pure_def]

/-- **Every span has a range.** -/
theorem range?_ofSource (source : String) (span : Span) :
    (ofSource source).range? span = some ((ofSource source).range span) := by
  unfold range?
  rw [position?_ofSource, position?_ofSource]
  rfl

/-- A search that ends in front of the first line is none that has a line. -/
example : (LineIndex.mk #[4, 9]).position? 3 = none := by cbv

end LineIndex

end GrammarFile
