import GrammarFile.Proofs.Indexed.Positions
import GrammarFile.Proofs.Lexing.Partition
import Mathlib.Data.List.Basic

/-!
# Where an offset is

The line of a byte offset is the number of line feeds among the bytes in front of it, and its column
is the distance from behind the last of them (`LineIndex.line_position`,
`LineIndex.lineStart_add_column`). That is said of the bytes of the text alone, so it holds within a
character of several bytes, and past the end of the text. The index of a source goes through
characters instead, but none but the line feed itself has the byte of a line feed in it
(`not_mem_utf8EncodeChar`), so the index has an entry behind each such byte
(`offsetsAfterFeeds_eq`).

The line is found by counting the entries up to an offset. A search that gives the entry it has hit,
or else the place where a new entry would have to be put in (`LineIndex.search`), leads to the same
line, and it never names the front of the index for that place (`LineIndex.search_ofSource`).

Positions come in the order of their offsets, and the hull of two ranges of a source is the range of
the hull of their spans (`positions_of_offsets`).
-/

namespace GrammarFile

/-! ### Line feeds among bytes -/

/-- The bytes of a text in UTF-8. -/
def Text.bytes (text : String) : List UInt8 :=
  text.toByteArray.data.toList

/-- The byte that a line feed is written as. -/
def feedByte : UInt8 := '\n'.toUInt8

/-- The offsets of the line feeds in front of a byte offset, in order. -/
def feedsBefore (source : String) (offset : Nat) : List Nat :=
  ((Text.bytes source).take offset).idxsOf feedByte

/-- Where the line of a byte offset starts: behind the last line feed in front of the offset, or at 0. -/
def lineStart (source : String) (offset : Nat) : Nat :=
  (feedsBefore source offset).getLast?.elim 0 (· + 1)

/-- The bytes of a text are those of its characters. -/
theorem bytes_eq_flatMap (text : String) :
    Text.bytes text = text.toList.flatMap String.utf8EncodeChar := by
  have hbytes : text.toByteArray = text.toList.utf8Encode := by
    rw [← String.toByteArray_ofList, String.ofList_toList]
  rw [Text.bytes, hbytes, List.utf8Encode, List.data_toByteArray, List.toList_toArray]

/-- Only a line feed has the byte of a line feed in it. -/
theorem not_mem_utf8EncodeChar {c : Char} (h : c ≠ '\n') : feedByte ∉ String.utf8EncodeChar c := by
  have hne : ∀ n, n % 256 ≠ 10 → feedByte ≠ UInt8.ofNat n := by
    intro n hn heq
    exact hn (congrArg UInt8.toNat heq).symm
  have hcode : c.val.toNat ≠ 10 := fun heq => h (Char.ext (UInt32.toNat_inj.mp heq))
  unfold String.utf8EncodeChar
  simp only
  split
  · simp only [List.mem_singleton]
    exact hne _ (by omega)
  split
  · simp only [List.mem_cons, List.not_mem_nil, or_false, not_or]
    exact ⟨hne _ (by omega), hne _ (by omega)⟩
  split
  · simp only [List.mem_cons, List.not_mem_nil, or_false, not_or]
    exact ⟨hne _ (by omega), hne _ (by omega), hne _ (by omega)⟩
  · simp only [List.mem_cons, List.not_mem_nil, or_false, not_or]
    exact ⟨hne _ (by omega), hne _ (by omega), hne _ (by omega), hne _ (by omega)⟩

/-- **The index goes by the bytes**: an offset behind each byte that is a line feed. -/
theorem offsetsAfterFeeds_eq (offset : Nat) (cs : List Char) :
    offsetsAfterFeeds offset cs =
      ((cs.flatMap String.utf8EncodeChar).idxsOf feedByte offset).map (· + 1) := by
  induction cs generalizing offset with
  | nil => rfl
  | cons c cs ih =>
    rw [offsetsAfterFeeds, List.flatMap_cons, List.idxsOf_append, String.length_utf8EncodeChar,
      List.map_append, ← ih]
    split
    · rename_i hc
      subst hc
      rfl
    · rename_i hc
      have hnone : (String.utf8EncodeChar c).idxsOf feedByte offset = [] := by
        refine List.idxsOf_eq_nil_iff.mpr fun b hb => beq_false_of_ne ?_
        rintro rfl
        exact not_mem_utf8EncodeChar hc hb
      rw [hnone, List.map_nil, List.nil_append]

/-- Line feeds in front of an offset are in front of it. -/
theorem lt_of_mem_feedsBefore {source : String} {offset : Nat} :
    ∀ i ∈ feedsBefore source offset, i < offset := by
  intro i hi
  have hlt := List.lt_add_of_mem_idxsOf i hi
  rw [List.length_take] at hlt
  omega

/-- A line does not start behind an offset on it. -/
theorem lineStart_le (source : String) (offset : Nat) : lineStart source offset ≤ offset := by
  unfold lineStart
  cases hlast : (feedsBefore source offset).getLast? with
  | none => exact Nat.zero_le offset
  | some i => exact lt_of_mem_feedsBefore i (List.mem_of_getLast? hlast)

/-- Farther on there are more line feeds in front. -/
theorem feedsBefore_prefix {offset offset' : Nat} (h : offset ≤ offset') (source : String) :
    feedsBefore source offset <+: feedsBefore source offset' := by
  obtain ⟨more, hmore⟩ := List.take_prefix_take_left (l := Text.bytes source) h
  exact ⟨_, by rw [feedsBefore, feedsBefore, ← hmore, List.idxsOf_append]⟩

/-! ### Searching ascending arrays -/

/-- A search counts the entries up to a bound where those beyond it come behind them. -/
theorem countUpTo_of_append {a : Array Nat} {x : Nat} {first second : List Nat}
    (h : a.toList = first ++ second)
    (hfirst : ∀ n ∈ first, n ≤ x) (hsecond : ∀ n ∈ second, x < n) :
    countUpTo a x 0 a.size = first.length := by
  have hentry : ∀ i, a.getD i 0 = ((first ++ second)[i]?).getD 0 := by
    intro i
    rw [← h, Array.getElem?_toList, Array.getD_eq_getD_getElem?]
  have hsize : a.size = first.length + second.length := by
    rw [← List.length_append, ← h, Array.length_toList]
  obtain ⟨hle, hbelow, habove⟩ := countUpTo_spec (a := a) (x := x) (Nat.zero_le a.size) (.inl rfl)
  generalize countUpTo a x 0 a.size = count at hle hbelow habove ⊢
  refine Nat.le_antisymm (Nat.not_lt.mp fun hlt => ?_) (Nat.not_lt.mp fun hlt => ?_)
  · -- the last entry that is counted would be one beyond the bound
    have hlast : count - 1 - first.length < second.length := by omega
    have hentry := hentry (count - 1)
    rw [List.getElem?_append_right (by omega), List.getElem?_eq_getElem hlast, Option.getD_some] at hentry
    have hbeyond := hsecond _ (List.getElem_mem hlast)
    omega
  · -- the first entry that is not counted would be one up to the bound
    have hentry := hentry count
    rw [List.getElem?_append_left hlt, List.getElem?_eq_getElem hlt, Option.getD_some] at hentry
    have hwithin := hfirst _ (List.getElem_mem hlt)
    omega

/-- Nothing is counted where all entries are above the bound. -/
theorem countUpTo_of_lt {a : Array Nat} {x low high : Nat} (hle : low ≤ high)
    (h : ∀ j, low ≤ j → j < high → x < a.getD j 0) : countUpTo a x low high = low := by
  fun_induction countUpTo a x low high with
  | case1 low high hlt middle hmiddle ih =>
    have habove := h middle (by omega) (by omega)
    omega
  | case2 low high hlt middle hmiddle ih => exact ih (by omega) fun j hlow hhigh => h j hlow (by omega)
  | case3 low high hge => rfl

/-- A search for `x` in an ascending array by halving between `low` and `high`: the index of an
entry that is `x`, or else the index at which `x` would have to be put in. -/
def searchFor (a : Array Nat) (x low high : Nat) : Except Nat Nat :=
  if low < high then
    let middle := (low + high) / 2
    if a.getD middle 0 = x then .ok middle
    else if a.getD middle 0 < x then searchFor a x (middle + 1) high
    else searchFor a x low middle
  else .error low
termination_by high - low

/-- What is counted ends behind the entry that is hit, or else where a new one would be put in. -/
theorem countUpTo_eq_of_searchFor {a : Array Nat} {x low high : Nat} (ha : a.toList.Pairwise (· < ·))
    (hhigh : high ≤ a.size) :
    countUpTo a x low high = match searchFor a x low high with
      | .ok i => i + 1
      | .error i => i := by
  have hascending : ∀ i j, i < j → j < a.size → a.getD i 0 < a.getD j 0 := by
    intro i j hij hj
    rw [Array.getD_eq_getD_getElem?, Array.getD_eq_getD_getElem?, Array.getElem?_eq_getElem hj,
      Array.getElem?_eq_getElem (Nat.lt_trans hij hj)]
    exact List.pairwise_iff_getElem.mp ha i j (Nat.lt_trans hij hj) hj hij
  fun_induction searchFor a x low high with
  | case1 low high hlt middle hmiddle =>
    -- the entry is hit, and all behind it are above it
    rw [countUpTo, if_pos hlt]
    show (if a.getD middle 0 ≤ x then countUpTo a x (middle + 1) high
      else countUpTo a x low middle) = middle + 1
    rw [if_pos (Nat.le_of_eq hmiddle)]
    refine countUpTo_of_lt (by omega) fun j hj hjhigh => ?_
    rw [← hmiddle]
    exact hascending middle j hj (by omega)
  | case2 low high hlt middle hne hmiddle ih =>
    rw [countUpTo, if_pos hlt, ← ih hhigh]
    exact if_pos (Nat.le_of_lt hmiddle)
  | case3 low high hlt middle hne hmiddle ih =>
    have hbeyond : ¬ a.getD middle 0 ≤ x := by omega
    rw [countUpTo, if_pos hlt, ← ih (by omega)]
    exact if_neg hbeyond
  | case4 low high hge => rw [countUpTo, if_neg hge]

/-! ### The index of a source -/

/-- Characters have as many bytes as they are written with. -/
theorem length_flatMap_utf8EncodeChar (cs : List Char) :
    (cs.flatMap String.utf8EncodeChar).length = byteCount cs := by
  induction cs with
  | nil => rw [List.flatMap_nil, List.length_nil, byteCount_nil]
  | cons c cs ih =>
    rw [List.flatMap_cons, List.length_append, String.length_utf8EncodeChar, ih, byteCount_cons]

/-- There is an offset for each line feed. -/
theorem length_offsetsAfterFeeds (offset : Nat) (cs : List Char) :
    (offsetsAfterFeeds offset cs).length = cs.count '\n' := by
  induction cs generalizing offset with
  | nil => rfl
  | cons c cs ih =>
    rw [offsetsAfterFeeds]
    split
    · rename_i hc
      rw [List.length_cons, ih, hc, List.count_cons_self]
    · rename_i hc
      rw [ih, List.count_cons_of_ne hc]

/-- In front of a character there are the line feeds of the text in front of it. -/
theorem length_feedsBefore {source : String} {before behind : List Char}
    (h : source.toList = before ++ behind) :
    (feedsBefore source (byteCount before)).length = before.count '\n' := by
  have htake : (Text.bytes source).take (byteCount before) = before.flatMap String.utf8EncodeChar := by
    rw [bytes_eq_flatMap, h, List.flatMap_append, ← length_flatMap_utf8EncodeChar, List.take_left]
  rw [feedsBefore, htake, ← length_offsetsAfterFeeds 0, offsetsAfterFeeds_eq, List.length_map]

namespace LineIndex

/-- Whatever the offset, the entries up to it come from the line feeds in front of it. -/
theorem exists_starts_ofSource (source : String) (offset : Nat) :
    ∃ later, (ofSource source).starts.toList = (0 :: (feedsBefore source offset).map (· + 1)) ++ later ∧
      ∀ n ∈ later, offset < n := by
  let behind := ((Text.bytes source).drop offset).idxsOf feedByte ((Text.bytes source).take offset).length
  refine ⟨behind.map (· + 1), ?_, ?_⟩
  · have hbytes : (Text.bytes source).idxsOf feedByte = feedsBefore source offset ++ behind := by
      conv_lhs =>
        rw [← List.take_append_drop offset (Text.bytes source), List.idxsOf_append, Nat.zero_add]
      rfl
    rw [ofSource, offsetsAfterFeeds_eq, ← bytes_eq_flatMap, hbytes, List.map_append]
    rfl
  · intro n hn
    obtain ⟨i, hi, rfl⟩ := List.mem_map.mp hn
    have hge := List.ge_of_mem_idxsOf i hi
    have hlt := List.lt_add_of_mem_idxsOf i hi
    rw [List.length_take] at hge
    rw [List.length_take, List.length_drop] at hlt
    omega

/-- The lines of a source start at increasing offsets. -/
theorem pairwise_starts_ofSource (source : String) :
    (ofSource source).starts.toList.Pairwise (· < ·) := by
  rw [ofSource, offsetsAfterFeeds_eq]
  refine List.pairwise_cons.mpr ⟨fun n hn => ?_, List.pairwise_map.mpr ?_⟩
  · obtain ⟨i, -, rfl⟩ := List.mem_map.mp hn
    exact Nat.succ_pos i
  · exact List.pairwise_idxsOf.imp fun h => Nat.succ_lt_succ h

/-- Up to an offset one line more starts than there are line feeds in front of it. -/
theorem countUpTo_ofSource (source : String) (offset : Nat) :
    countUpTo (ofSource source).starts offset 0 (ofSource source).starts.size =
      (feedsBefore source offset).length + 1 := by
  obtain ⟨later, hstarts, hlater⟩ := exists_starts_ofSource source offset
  have hfirst : ∀ n ∈ 0 :: (feedsBefore source offset).map (· + 1), n ≤ offset := by
    refine List.forall_mem_cons.mpr ⟨Nat.zero_le offset, List.forall_mem_map.mpr ?_⟩
    exact lt_of_mem_feedsBefore
  rw [countUpTo_of_append hstarts hfirst hlater, List.length_cons, List.length_map]

/-- **The line of an offset is the number of line feeds in front of it.** -/
theorem line_position (source : String) (offset : Nat) :
    ((ofSource source).position offset).line = (feedsBefore source offset).length := by
  rw [position, countUpTo_ofSource, Nat.add_sub_cancel]

/-- The entry of the line of an offset is where the line starts. -/
theorem starts_getD_line (source : String) (offset : Nat) :
    (ofSource source).starts.getD (feedsBefore source offset).length 0 = lineStart source offset := by
  obtain ⟨later, hstarts, -⟩ := exists_starts_ofSource source offset
  have hlength :
      (feedsBefore source offset).length <
        (0 :: (feedsBefore source offset).map (· + 1)).length := by
    rw [List.length_cons, List.length_map]
    exact Nat.lt_succ_self _
  have hlast : (0 :: (feedsBefore source offset).map (· + 1))[(feedsBefore source offset).length]? =
      (0 :: (feedsBefore source offset).map (· + 1)).getLast? := by
    rw [List.getLast?_eq_getElem?, List.length_cons, List.length_map, Nat.add_sub_cancel]
  rw [Array.getD_eq_getD_getElem?, ← Array.getElem?_toList, hstarts,
    List.getElem?_append_left hlength, hlast,
    List.getLast?_cons, List.getLast?_map, Option.getD_some, lineStart]
  cases (feedsBefore source offset).getLast? <;> rfl

/-- **The column of an offset is its distance from the start of its line.** -/
theorem lineStart_add_column (source : String) (offset : Nat) :
    lineStart source offset + ((ofSource source).position offset).column = offset := by
  have hle := lineStart_le source offset
  have hcolumn : ((ofSource source).position offset).column = offset - lineStart source offset := by
    rw [position, countUpTo_ofSource, Nat.add_sub_cancel, starts_getD_line]
  omega

/-- The line of an offset at which a character starts. -/
theorem line_position_ofSource {source : String} {before behind : List Char}
    (h : source.toList = before ++ behind) :
    ((ofSource source).position (byteCount before)).line = before.count '\n' := by
  rw [line_position, length_feedsBefore h]

/-- The entry of the line that starts at an offset, or else the place at which such an entry would
have to be put in. -/
def search (index : LineIndex) (offset : Nat) : Except Nat Nat :=
  searchFor index.starts offset 0 index.starts.size

/-- **A search either hits the entry of the line, or names the place behind it**, which is never the
front of the index. -/
theorem search_ofSource (source : String) (offset : Nat) :
    (ofSource source).search offset = .ok ((ofSource source).position offset).line ∨
      (ofSource source).search offset = .error (((ofSource source).position offset).line + 1) := by
  have hcount : countUpTo (ofSource source).starts offset 0 (ofSource source).starts.size = _ :=
    countUpTo_eq_of_searchFor (pairwise_starts_ofSource source) (Nat.le_refl _)
  rw [countUpTo_ofSource, ← line_position] at hcount
  unfold search
  cases hsearch : searchFor (ofSource source).starts offset 0 (ofSource source).starts.size with
  | ok i =>
    rw [hsearch] at hcount
    exact .inl (congrArg _ (Nat.succ.inj hcount).symm)
  | error i =>
    rw [hsearch] at hcount
    exact .inr (congrArg _ hcount.symm)

end LineIndex

/-! ### The order of positions -/

/-- Positions come by lines, and on one line by columns. -/
instance : LT Position :=
  ⟨fun p q => p.line < q.line ∨ p.line = q.line ∧ p.column < q.column⟩

namespace LineIndex

/-- Farther on is a later position. -/
theorem position_lt_position (source : String) {offset offset' : Nat} (h : offset < offset') :
    (ofSource source).position offset < (ofSource source).position offset' := by
  have hprefix := feedsBefore_prefix (Nat.le_of_lt h) source
  have hcolumn := lineStart_add_column source offset
  have hcolumn' := lineStart_add_column source offset'
  rcases Nat.lt_or_eq_of_le hprefix.length_le with hlt | heq
  · left
    rwa [line_position, line_position]
  · -- with as many line feeds in front of them, the two are on one line
    right
    have hstart : lineStart source offset = lineStart source offset' := by
      rw [lineStart, lineStart, hprefix.eq_of_length heq]
    refine ⟨by rw [line_position, line_position, heq], ?_⟩
    omega

/-- **Positions come in the order of their offsets.** -/
theorem position_lt_position_iff (source : String) {offset offset' : Nat} :
    (ofSource source).position offset < (ofSource source).position offset' ↔ offset < offset' := by
  refine ⟨fun h => ?_, position_lt_position source⟩
  rcases Nat.lt_trichotomy offset offset' with hlt | heq | hgt
  · exact hlt
  · subst heq
    rcases h with h | ⟨-, h⟩ <;> exact absurd h (Nat.lt_irrefl _)
  · rcases h with h | ⟨hline, h⟩ <;>
      rcases position_lt_position source hgt with h' | ⟨hline', h'⟩ <;> omega

/-! ### Hulls -/

/-- **The hull of two ranges is the range of the hull of their spans**, which may also be reversed. -/
theorem hull_range (index : LineIndex) (a b : Span) :
    (index.range a).hull (index.range b) = index.range ⟨min a.start b.start, max a.stop b.stop⟩ := by
  have hmin : min a.start b.start = if b.start < a.start then b.start else a.start := by split <;> omega
  have hmax : max a.stop b.stop = if b.stop > a.stop then b.stop else a.stop := by split <;> omega
  rw [hmin, hmax]
  unfold Range.hull range
  dsimp only
  split <;> split <;> rfl

/-- The order of two ranges does not matter for their hull. -/
theorem hull_range_comm (index : LineIndex) (a b : Span) :
    (index.range a).hull (index.range b) = (index.range b).hull (index.range a) := by
  rw [hull_range, hull_range, Nat.min_comm, Nat.max_comm]

/-- It does not matter for the hull which of three ranges are put together first. -/
theorem hull_range_assoc (index : LineIndex) (a b c : Span) :
    ((index.range a).hull (index.range b)).hull (index.range c) =
      (index.range a).hull ((index.range b).hull (index.range c)) := by
  rw [hull_range, hull_range, hull_range, hull_range, Nat.min_assoc, Nat.max_assoc]

/-- A range is its own hull. -/
theorem hull_range_self (index : LineIndex) (a : Span) :
    (index.range a).hull (index.range a) = index.range a := by
  rw [hull_range, Nat.min_self, Nat.max_self]

end LineIndex

/-- **An offset has the line of the line feeds in front of it and the column from behind the last of
them**, in the text, within a character or past the end. A search for the offset hits the entry of
that line or names the place behind it. So positions come in the order of their offsets, and hulls
of ranges go by their offsets alone: they are commutative, associative and idempotent. -/
theorem positions_of_offsets (source : String) :
    (∀ offset,
      ((LineIndex.ofSource source).position offset).line = (feedsBefore source offset).length ∧
      lineStart source offset + ((LineIndex.ofSource source).position offset).column = offset ∧
      ((LineIndex.ofSource source).search offset =
        .ok ((LineIndex.ofSource source).position offset).line ∨
        (LineIndex.ofSource source).search offset =
          .error (((LineIndex.ofSource source).position offset).line + 1))) ∧
    (∀ offset offset',
      (LineIndex.ofSource source).position offset < (LineIndex.ofSource source).position offset' ↔
        offset < offset') ∧
    (∀ a b : Span,
      ((LineIndex.ofSource source).range a).hull ((LineIndex.ofSource source).range b) =
        (LineIndex.ofSource source).range ⟨min a.start b.start, max a.stop b.stop⟩) ∧
    (∀ a b : Span,
      ((LineIndex.ofSource source).range a).hull ((LineIndex.ofSource source).range b) =
        ((LineIndex.ofSource source).range b).hull ((LineIndex.ofSource source).range a)) ∧
    (∀ a b c : Span,
      (((LineIndex.ofSource source).range a).hull ((LineIndex.ofSource source).range b)).hull
          ((LineIndex.ofSource source).range c) =
        ((LineIndex.ofSource source).range a).hull
          (((LineIndex.ofSource source).range b).hull ((LineIndex.ofSource source).range c))) ∧
    ∀ a : Span,
      ((LineIndex.ofSource source).range a).hull ((LineIndex.ofSource source).range a) =
        (LineIndex.ofSource source).range a := by
  refine ⟨fun offset => ⟨?_, ?_, ?_⟩, fun _ _ => ?_, ?_, ?_, ?_, ?_⟩
  · exact LineIndex.line_position source offset
  · exact LineIndex.lineStart_add_column source offset
  · exact LineIndex.search_ofSource source offset
  · exact LineIndex.position_lt_position_iff source
  · exact LineIndex.hull_range _
  · exact LineIndex.hull_range_comm _
  · exact LineIndex.hull_range_assoc _
  · exact LineIndex.hull_range_self _

/-- Within a character of two bytes, behind two line feeds. -/
example : feedsBefore "\n\né\n" 3 = [0, 1] ∧ lineStart "\n\né\n" 3 = 2 ∧
    (LineIndex.ofSource "\n\né\n").position 3 = ⟨2, 1⟩ := by
  decide +kernel

end GrammarFile
