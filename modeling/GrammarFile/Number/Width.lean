/-!
# Whole numbers of a fixed width

Which whole numbers fit a word of some bits, without a sign and with one.
-/

namespace GrammarFile

/-- How many values a word of the given width has. -/
def wordCount (bits : Nat) : Nat :=
  Nat.pow 2 bits

/-- Whether a number fits a word without a sign. -/
def fitsUnsigned (bits n : Nat) : Bool :=
  n < wordCount bits

/-- Whether a number fits a word with a sign, which takes one of the bits. -/
def fitsSigned (bits : Nat) (n : Int) : Bool :=
  -(wordCount (bits - 1) : Int) ≤ n && n < wordCount (bits - 1)

end GrammarFile
