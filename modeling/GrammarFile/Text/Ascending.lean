/-!
# Searching ascending arrays

`countUpTo` counts the entries of an ascending array up to a bound by halving. A set of code points is
stored as an ascending array of closed intervals and searched in the same way.
-/

namespace GrammarFile

/-- The number of entries of `a` that are at most `x`, for ascending `a`, found by halving: it lies
between `low` and `high`, since the entries before `low` are at most `x` and those from `high` on
are above it. -/
def countUpTo (a : Array Nat) (x low high : Nat) : Nat :=
  if low < high then
    let middle := (low + high) / 2
    if a.getD middle 0 ≤ x then countUpTo a x (middle + 1) high else countUpTo a x low middle
  else low
termination_by high - low

/-- Code points in ascending order as closed intervals: interval `i` is from `firsts[i]` to
`lasts[i]`. -/
structure CodeSet where
  firsts : Array Nat
  lasts : Array Nat

namespace CodeSet

/-- The set of the given intervals, which have to be in ascending order. -/
def ofIntervals (intervals : Array (Nat × Nat)) : CodeSet :=
  ⟨intervals.map (·.1), intervals.map (·.2)⟩

/-- Whether a character is in the set. -/
def contains (set : CodeSet) (c : Char) : Bool :=
  match countUpTo set.firsts c.toNat 0 set.firsts.size with
  | 0 => false
  | i + 1 => c.toNat ≤ set.lasts.getD i 0

end CodeSet

end GrammarFile
