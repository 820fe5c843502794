import Fillout.Calendar.Date

set_option autoImplicit false

/-! # Reading a date

`reformatDate` takes a text that writes one date and writes the date with points. Two forms are
read:

* four digits for the year, then the month and the day of one or two digits each, with a gap before
  each of them;
* the form with points, day first.

A gap is white space around at most one hyphen, slash or point, and it may be empty. Where a digit
could belong to the month or to the day, the month takes it if a day remains. Digits of other
scripts have the shape of a date but do not denote one.
-/

namespace Fillout

namespace Calendar

open Unicode (isDecimalDigit)

/-- The first `n` characters and the rest, if they are digits. -/
def takeDigits? (n : Nat) (t : Text) : Option (Text × Text) :=
  let digits := t.take n
  if digits.length = n ∧ digits.all isDecimalDigit then some (digits, t.drop n) else none

/-- The punctuation that may stand in a gap. -/
def isSeparator (c : Char) : Bool := c == '-' || c == '/' || c == '.'

/-- The text behind a gap: white space, a separator if there is one, and white space again. -/
def skipGap (t : Text) : Text :=
  match t.trimStart with
  | c :: rest => if isSeparator c then Text.trimStart rest else c :: rest
  | [] => []

/-- The day that `t` consists of but for a gap before it: one or two digits. -/
def readDay? (t : Text) : Option Text :=
  let day := skipGap t
  if (day.length = 1 ∨ day.length = 2) ∧ day.all isDecimalDigit then some day else none

/-- The month, of `width` digits, and the day that `t` consists of. -/
def readMonthOfWidth? (width : Nat) (t : Text) : Option (Text × Text) := do
  let (month, rest) ← takeDigits? width t
  let day ← readDay? rest
  some (month, day)

/-- The year, the month and the day that `t` consists of, the year first. The month has two digits
unless none would be left for the day. -/
def readYearFirst? (t : Text) : Option (Text × Text × Text) := do
  let (year, rest) ← takeDigits? 4 t
  let (month, day) ←
    (readMonthOfWidth? 2 (skipGap rest)).or (readMonthOfWidth? 1 (skipGap rest))
  some (year, month, day)

/-- The year, the month and the day that `t` consists of, in the form with points. -/
def readDayFirst? (t : Text) : Option (Text × Text × Text) :=
  match t.splitOnP (· == '.') with
  | [day, month, year] =>
      if (day.length = 1 ∨ day.length = 2) ∧ (month.length = 1 ∨ month.length = 2) ∧
          year.length = 4 ∧ (day ++ month ++ year).all isDecimalDigit then
        some (year, month, day)
      else none
  | _ => none

/-- The text of a single date in the form `DD.MM.YYYY`; `none` if the text has another shape or no
date of the calendar. Digits alone must be eight. -/
def reformatDate (input : Text) : Option Text :=
  let t := input.trim
  match readYearFirst? t with
  | some (year, month, day) =>
      if t.all Char.isDigit ∧ t.length ≠ 8 then none
      else (Date.ofDigits? year month day).map Date.dotted
  | none => do
      let (year, month, day) ← readDayFirst? t
      (Date.ofDigits? year month day).map Date.dotted

example : reformatDate "2013//1-5".toList = none := by decide +kernel

example : reformatDate "2013 / 1-5".toList = some "05.01.2013".toList := by decide +kernel

end Calendar

end Fillout
