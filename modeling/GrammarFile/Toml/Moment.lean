import GrammarFile.Text.Digits
import GrammarFile.Toml.Fault

/-!
# TOML dates and times

A date, a time of day, or both, perhaps with an offset from universal time. The readers give the normal
form: a `T` between date and time, an upper case `Z`, and no zeros at the end of a fraction of a second.
A date is a day of the calendar.
-/

namespace GrammarFile.Toml

/-- The wording where a number is out of its range. -/
def outOfRange : String := "value is out of range"

/-- Two digits of a number in a range. -/
def readTwoDigits (low high : Nat) : Reader (List Char)
  | a :: b :: rest =>
    match Text.decimal? [a, b] with
    | some n =>
      if low ≤ n && n ≤ high then .ok ([a, b], rest)
        else .error (.because outOfRange (a :: b :: rest))
    | none => .error (.bare (a :: b :: rest))
  | rest => .error (.bare rest)

/-- A character that has to stand at a place. -/
def readChar (expected : Char) : Reader Char
  | c :: rest => if c = expected then .ok (c, rest) else .error (.bare (c :: rest))
  | [] => .error (.bare [])

/-- How many days a month has. -/
def daysInMonth (year month : Nat) : Nat :=
  if month = 2 then
    if year % 4 = 0 && (year % 100 ≠ 0 || year % 400 = 0) then 29 else 28
  else if month = 4 || month = 6 || month = 9 || month = 11 then 30
  else 31

/-- The month and the day of a date after the year and a dash. -/
def readMonthAndDay (year : List Char) : Reader (List Char) := fun cs => do
  let (month, rest) ← readTwoDigits 1 12 cs
  let (_, rest) ← readChar '-' rest
  let (day, after) ← readTwoDigits 1 31 rest
  if daysInMonth (Text.numeral 10 year) (Text.numeral 10 month) < Text.numeral 10 day then
    .error (.because outOfRange rest)
  else return (year ++ '-' :: month ++ '-' :: day, after)

/-- A part of a second in its normal form: nine digits at most, without zeros at the end. -/
def normalFraction (digits : List Char) : List Char :=
  match ((digits.take 9).reverse.dropWhile (· = '0')).reverse with
  | [] => []
  | digits => '.' :: digits

/-- A part of a second, if there is one. -/
def readFraction : List Char → List Char × List Char
  | '.' :: rest =>
    let digits := rest.takeWhile Char.isDigit
    if digits.isEmpty then ([], '.' :: rest) else (normalFraction digits, rest.dropWhile Char.isDigit)
  | rest => ([], rest)

/-- The minutes and seconds of a time after the hour and a colon. A minute may have a leap second. -/
def readMinutes (hour : List Char) : Reader (List Char) := fun cs => do
  let (minute, rest) ← readTwoDigits 0 59 cs
  let (_, rest) ← readChar ':' rest
  let (second, rest) ← readTwoDigits 0 60 rest
  let (fraction, rest) := readFraction rest
  return (hour ++ ':' :: minute ++ ':' :: second ++ fraction, rest)

/-- The hour that starts a time, if a time starts here: two digits and a colon. -/
def startsTime? : List Char → Option (List Char × List Char)
  | a :: b :: ':' :: rest =>
    match readTwoDigits 0 23 [a, b] with
    | .ok (hour, _) => some (hour, rest)
    | .error _ => none
  | _ => none

/-- The year that starts a date, if a date starts here: four digits and a dash. -/
def startsDate? : List Char → Option (List Char × List Char)
  | a :: b :: c :: d :: '-' :: rest =>
    if [a, b, c, d].all Char.isDigit then some ([a, b, c, d], rest) else none
  | _ => none

/-- The offset from universal time, if there is one. -/
def readOffset : Reader (List Char)
  | [] => .ok ([], [])
  | c :: rest =>
    if c = 'Z' || c = 'z' then .ok (['Z'], rest)
    else if c = '+' || c = '-' then do
      let (hours, rest) ← readTwoDigits 0 23 rest
      let (_, rest) ← readChar ':' rest
      let (minutes, rest) ← readTwoDigits 0 59 rest
      let isZero := (hours ++ minutes).all (· = '0')
      return ((if isZero then '+' else c) :: hours ++ ':' :: minutes, rest)
    else .ok ([], c :: rest)

/-- Whether a character separates a date from the time of day. -/
def isDateEnd (c : Char) : Bool :=
  c = 'T' || c = 't' || c = ' '

/-- The rest of a date, and the time after it, if there is one. -/
def readDate (year : List Char) : Reader (List Char) := fun cs => do
  let (date, rest) ← readMonthAndDay year cs
  match rest with
  | c :: after =>
    match if isDateEnd c then startsTime? after else none with
    | some (hour, after) =>
      let (time, after) ← readMinutes hour after
      let (offset, after) ← (readOffset after).mapError (.within "time offset")
      return (date ++ 'T' :: time ++ offset, after)
    | none => return (date, rest)
  | [] => return (date, rest)

/-- The date or time that starts here, if one does. -/
def readMoment? (cs : List Char) : Option (Except Fault (List Char × List Char)) :=
  match startsDate? cs, startsTime? cs with
  | some (year, rest), _ => some ((readDate year rest).mapError (.within "date-time"))
  | none, some (hour, rest) => some ((readMinutes hour rest).mapError (.within "time"))
  | none, none => none

end GrammarFile.Toml
