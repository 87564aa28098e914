import GrammarFile.Number.Width
import GrammarFile.Text.Digits

/-!
# Binary floating point

Numbers with 53 binary digits, as exact pairs of a whole number and a power of two. A decimal numeral
stands for the nearest such number, of two nearest the one with the even last digit. A number is
written with the fewest decimal digits that read back as it, and always without an exponent.
-/

namespace GrammarFile

/-- A number with 53 binary digits. -/
inductive Binary64 where
  | notANumber
  | infinite (negative : Bool)
  /-- `mantissa * 2 ^ exponent`, where the exponent is the least possible one, at least -1074, or the
  mantissa has all its 53 digits. -/
  | finite (negative : Bool) (mantissa : Nat) (exponent : Int)
  deriving DecidableEq, Inhabited

namespace Binary64

/-- The least exponent. -/
def leastExponent : Int := -1074

/-- The greatest exponent. -/
def greatestExponent : Int := 971

/-- `2 ^ 53`, the least mantissa that is too large. -/
def mantissaBound : Nat := wordCount 53

/-- The nearest whole number to a quotient, the even one of two. -/
def roundQuotient (numerator denominator : Nat) : Nat :=
  let quotient := numerator / denominator
  let twice := 2 * (numerator % denominator)
  if denominator < twice || (twice = denominator && quotient % 2 = 1) then quotient + 1 else quotient

/-- A quotient times a power of two, as a quotient. -/
def scale (numerator denominator : Nat) (exponent : Int) : Nat × Nat :=
  if 0 ≤ exponent then (numerator * Nat.pow 2 exponent.toNat, denominator)
  else (numerator, denominator * Nat.pow 2 (-exponent).toNat)

/-- The exponent for a quotient: the one that leaves 53 digits before the point, or the least one. -/
def exponentOf (numerator denominator : Nat) : Int :=
  let guess : Int := numerator.log2 - denominator.log2 - 52
  let (n, d) := scale numerator denominator (-guess)
  max (if n < d * wordCount 52 then guess - 1 else guess) leastExponent

/-- The number nearest to a quotient. -/
def ofQuotient (negative : Bool) (numerator denominator : Nat) : Binary64 :=
  let exponent := exponentOf numerator denominator
  let (n, d) := scale numerator denominator (-exponent)
  let mantissa := roundQuotient n d
  let (mantissa, exponent) :=
    if mantissa = mantissaBound then (wordCount 52, exponent + 1) else (mantissa, exponent)
  if greatestExponent < exponent then infinite negative else finite negative mantissa exponent

/-- The number nearest to `digits * 10 ^ exponent`. -/
def ofDecimal (negative : Bool) (digits : Nat) (exponent : Int) : Binary64 :=
  let size : Int := (Nat.toDigits 10 digits).length
  if digits = 0 || exponent + size < -330 then finite negative 0 leastExponent
  else if 320 < exponent + size then infinite negative
  else if 0 ≤ exponent then ofQuotient negative (digits * Nat.pow 10 exponent.toNat) 1
  else ofQuotient negative digits (Nat.pow 10 (-exponent).toNat)

/-- Whether a number is zero. -/
def isZero : Binary64 → Bool
  | finite _ mantissa _ => mantissa = 0
  | _ => false

/-- The nearest whole number of at most 64 bits that is not negative; a half goes up, and what is no
number counts as zero. -/
def toWord : Binary64 → Nat
  | notANumber => 0
  | infinite negative => if negative then 0 else wordCount 64 - 1
  | finite true _ _ => 0
  | finite false mantissa exponent =>
    let (n, d) := scale (2 * mantissa) 1 exponent
    min ((n + d) / (2 * d)) (wordCount 64 - 1)

/-! ### Writing -/

/-- Whether a decimal `digits * 10 ^ exponent` reads back as a positive number of the given mantissa and
exponent. -/
def readsBack (mantissa : Nat) (binary : Int) (digits : Nat) (exponent : Int) : Bool :=
  ofDecimal false digits exponent = finite false mantissa binary

/-- The decimal numbers with the given exponent next to a quotient, from below and from above, the
nearer one first. -/
def decimalNeighbours (numerator denominator : Nat) (exponent : Int) : Nat × Nat :=
  let (n, d) :=
    if 0 ≤ exponent then (numerator, denominator * Nat.pow 10 exponent.toNat)
    else (numerator * Nat.pow 10 (-exponent).toNat, denominator)
  let below := n / d
  if 2 * (n % d) ≤ d then (below, below + 1) else (below + 1, below)

/-- The decimal with the greatest exponent that reads back, where the exponents `top`, `top - 1` and so
on down to `top - steps` are tried. -/
def shortest (mantissa : Nat) (binary : Int) : (steps : Nat) → (top : Int) → Nat × Int
  | 0, top =>
    let (n, d) := scale mantissa 1 binary
    ((decimalNeighbours n d top).1, top)
  | steps + 1, top =>
    let (n, d) := scale mantissa 1 binary
    let (first, second) := decimalNeighbours n d top
    if readsBack mantissa binary first top then (first, top)
    else if readsBack mantissa binary second top then (second, top)
    else shortest mantissa binary steps (top - 1)

/-- The decimal exponent of the first digit of a quotient, or one more. -/
def decimalSize (numerator denominator : Nat) : Int :=
  (Nat.toDigits 10 numerator).length - (Nat.toDigits 10 denominator).length + 1

/-- `digits * 10 ^ exponent` without an exponent. -/
def writeDecimal (digits : Nat) (exponent : Int) : String :=
  let cs := Nat.toDigits 10 digits
  if 0 ≤ exponent then String.ofList (cs ++ List.replicate exponent.toNat '0')
  else
    let places := (-exponent).toNat
    let padded := List.replicate (places + 1 - cs.length) '0' ++ cs
    let whole := padded.length - places
    String.ofList (padded.take whole ++ '.' :: padded.drop whole)

/-- A number with the fewest digits that read back as it. -/
def write : Binary64 → String
  | notANumber => "NaN"
  | infinite negative => if negative then "-inf" else "inf"
  | finite negative mantissa exponent =>
    (if negative then "-" else "") ++
      if mantissa = 0 then "0"
      else
        let (n, d) := scale mantissa 1 exponent
        let (digits, decimal) := shortest mantissa exponent 18 (decimalSize n d)
        writeDecimal digits decimal

/-- A number as `write` gives it, but with a point in it. -/
def writePointed (x : Binary64) : String :=
  let text := x.write
  match x with
  | finite _ _ _ => if text.toList.contains '.' then text else text ++ ".0"
  | _ => text

end Binary64

end GrammarFile
