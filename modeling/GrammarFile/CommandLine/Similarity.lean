/-!
# Similar words

How similar two words are, between 0 and 1. A character of one word matches an equal one of the other
that is not too far away and not matched yet, each character taking the first it can get. The measure is
the mean of three shares: of the matched characters in either word, and of the matches that are in
order, where two matches that have changed places count as one out of order.
-/

namespace GrammarFile.Similarity

/-- The characters of a word, each with whether it is matched, after the match of `c` with the first
character that is free and stands between the positions `low` and `high`. The positions are counted from
`position`. -/
def takeMatch (c : Char) (low high : Nat) :
    (position : Nat) → List (Char × Bool) → Option (List (Char × Bool))
  | _, [] => none
  | position, (other, taken) :: rest =>
    if low ≤ position && position ≤ high && c = other && !taken then some ((other, true) :: rest)
    else (takeMatch c low high (position + 1) rest).map ((other, taken) :: ·)

/-- The characters from position `position` on that have a match in the other word, and the other word
with what is matched. -/
def matchAll (range : Nat) : (position : Nat) → List Char → List (Char × Bool) →
    List Char × List (Char × Bool)
  | _, [], other => ([], other)
  | position, c :: rest, other =>
    match takeMatch c (position - range) (position + range) 0 other with
    | none => matchAll range (position + 1) rest other
    | some other =>
      let (matched, other) := matchAll range (position + 1) rest other
      (c :: matched, other)

/-- How far apart matching characters of two words may be. -/
def matchRange (a b : List Char) : Nat :=
  max a.length b.length / 2 - 1

/-- The similarity of two words. -/
def measure (a b : List Char) : Float :=
  let (first, other) := matchAll (matchRange a b) 0 a (b.map (·, false))
  let second := (other.filter (·.2)).map (·.1)
  let matched := first.length
  let moved := (first.zip second).countP fun (c, d) => c != d
  if matched = 0 then 0
  else
    (matched.toFloat / a.length.toFloat + matched.toFloat / b.length.toFloat +
      (matched - moved / 2).toFloat / matched.toFloat) / 3

/-- The least similarity that is too little to call words similar. -/
def threshold : Float := 0.7

/-- The best one so far, or a candidate that is similar enough and no worse. -/
def better {α : Type} (text : α → String) (word : String) (best : Option (α × Float)) (candidate : α) :
    Option (α × Float) :=
  let score := measure word.toList (text candidate).toList
  if threshold < score && best.all (·.2 ≤ score) then some (candidate, score) else best

/-- The candidate whose text is most similar to a word, if one is similar enough; of equally similar
ones the last. -/
def closest? {α : Type} (text : α → String) (word : String) (candidates : List α) : Option α :=
  (candidates.foldl (better text word) none).map (·.1)

end GrammarFile.Similarity
