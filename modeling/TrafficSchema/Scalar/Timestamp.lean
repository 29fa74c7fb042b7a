import TrafficSchema.Scalar.Numeral

/-!
# Timestamps

A timestamp is `YYYY-MM-DDTHH:MM:SS`, then a point and digits or nothing, then `Z` or nothing.
Its date has to exist in the Gregorian calendar, which is extended to all years from 0000 on;
the hour is at most 23, the minute at most 59, and the second at most 60, as a leap second may
be inserted.

A value is recognised in two steps. Its form is checked first, and there digits of all scripts
count (`Timestamp.hasForm`). Then, without its `Z`, it is read as a date and a time of day
(`Moment.read?`), and only ASCII digits are read.
-/

namespace TrafficSchema

namespace Calendar

/-- Whether a year has a 29th of February. -/
def isLeap (year : Nat) : Bool := year % 4 == 0 && (year % 100 != 0 || year % 400 == 0)

/-- The number of days of a month. -/
def daysIn (year month : Nat) : Nat :=
  if month = 2 then (if isLeap year then 29 else 28)
  else if month = 4 ∨ month = 6 ∨ month = 9 ∨ month = 11 then 30
  else 31

/-- Whether a date exists. -/
def isDate (year month day : Nat) : Bool :=
  1 ≤ month && month ≤ 12 && 1 ≤ day && day ≤ daysIn year month

/-- Whether a time of day exists, with leap seconds. -/
def isTime (hour minute second : Nat) : Bool := hour ≤ 23 && minute ≤ 59 && second ≤ 60

end Calendar

namespace Timestamp

/-! ## Form -/

/-- The form of a timestamp up to its seconds; each `0` stands for a digit. -/
def outline : List Char := "0000-00-00T00:00:00".toList

/-- Takes a text of the given form off the front of a text. Digits of all scripts count. -/
def afterOutline? : List Char → List Char → Option (List Char)
  | [], cs => some cs
  | p :: form, c :: cs =>
    if (if p = '0' then Text.isDecimalDigit c else c == p) then afterOutline? form cs else none
  | _ :: _, [] => none

/-- What may follow the seconds: a fraction or nothing, then `Z` or nothing. -/
def isTail : List Char → Bool
  | '.' :: rest =>
    let digits := rest.takeWhile Text.isDecimalDigit
    let rest := rest.dropWhile Text.isDecimalDigit
    digits ≠ [] && (rest == [] || rest == ['Z'])
  | rest => rest == [] || rest == ['Z']

/-- Whether a text has the form of a timestamp. -/
def hasForm (cs : List Char) : Bool := (afterOutline? outline cs).any isTail

/-- The text without the `Z` at its end, if it has one there. -/
def dropZulu (cs : List Char) : List Char := if cs.getLast? = some 'Z' then cs.dropLast else cs

end Timestamp

/-! ## Reading -/

/-- A date and a time of day, which need not exist. -/
structure Moment where
  year : Nat
  month : Nat
  day : Nat
  hour : Nat
  minute : Nat
  second : Nat
  deriving DecidableEq

namespace Moment

/-- Takes a number of at most `width` digits off the front of a text. -/
def number? (width : Nat) (cs : List Char) : Option (Nat × List Char) :=
  let digits := (cs.take width).takeWhile Char.isDigit
  if digits = [] then none else some (digitsValue digits, cs.drop digits.length)

/-- Takes a character off the front of a text. -/
def literal? (c : Char) : List Char → Option (List Char)
  | [] => none
  | d :: cs => if d = c then some cs else none

/-- Takes a fraction of a second off the front of a text, if there is one. Its value does not
matter here; nine digits of it would be kept. -/
def fraction? : List Char → Option (List Char)
  | '.' :: cs => (number? 9 cs).map fun (_, rest) => rest.dropWhile Char.isDigit
  | cs => some cs

/-- The date and the time of day that a text consists of. -/
def read? (cs : List Char) : Option Moment := do
  let (year, cs) ← number? 4 cs
  let (month, cs) ← number? 2 (← literal? '-' cs)
  let (day, cs) ← number? 2 (← literal? '-' cs)
  let (hour, cs) ← number? 2 (← literal? 'T' cs)
  let (minute, cs) ← number? 2 (← literal? ':' cs)
  let (second, cs) ← number? 2 (← literal? ':' cs)
  let rest ← fraction? cs
  if rest = [] then some ⟨year, month, day, hour, minute, second⟩ else none

/-- Whether there is such a day, and such a time on it. -/
def isValid (m : Moment) : Bool :=
  Calendar.isDate m.year m.month m.day && Calendar.isTime m.hour m.minute m.second

end Moment

/-- Whether a value is a timestamp. -/
def isTimestamp (value : String) : Bool :=
  let cs := value.toList
  Timestamp.hasForm cs && (Moment.read? (Timestamp.dropZulu cs)).any Moment.isValid

end TrafficSchema
