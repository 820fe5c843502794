import Fillout.Text.Basic

set_option autoImplicit false

/-! # Calendar dates

Dates of the Gregorian calendar, extended to the years before it, from year 0 to year 9999. They are
written with points, the day first: `30.10.2013`.
-/

namespace Fillout

namespace Calendar

/-- Every fourth year is a leap year, except for the centuries that 400 does not divide. -/
def isLeapYear (year : Nat) : Bool := year % 4 == 0 && (year % 100 != 0 || year % 400 == 0)

/-- The number of days of a month; there are none in a month that does not exist. -/
def daysInMonth (year month : Nat) : Nat :=
  if month = 2 then
    if isLeapYear year then 29 else 28
  else if month = 4 ∨ month = 6 ∨ month = 9 ∨ month = 11 then 30
  else if 1 ≤ month ∧ month ≤ 12 then 31
  else 0

/-- A day of the calendar. -/
structure Date where
  year : Nat
  month : Nat
  day : Nat
  year_lt : year < 10000
  one_le_day : 1 ≤ day
  day_le : day ≤ daysInMonth year month
  deriving DecidableEq

namespace Date

/-- The date of the given numbers, if there is one. -/
def ofNumbers? (year month day : Nat) : Option Date :=
  if h : year < 10000 ∧ 1 ≤ day ∧ day ≤ daysInMonth year month then
    some ⟨year, month, day, h.1, h.2.1, h.2.2⟩
  else none

/-- The date of the given numbers in ASCII digits, if there is one. -/
def ofDigits? (year month day : Text) : Option Date := do
  let y ← year.toNat?
  let m ← month.toNat?
  let d ← day.toNat?
  ofNumbers? y m d

/-- A number with leading zeros up to `width` digits. -/
def padded (width n : Nat) : Text :=
  let digits := Text.ofNat n
  List.replicate (width - digits.length) '0' ++ digits

/-- The date in the form `DD.MM.YYYY`. -/
def dotted (date : Date) : Text :=
  padded 2 date.day ++ '.' :: (padded 2 date.month ++ '.' :: padded 4 date.year)

theorem ofNumbers?_eq_some_iff {year month day : Nat} {date : Date} :
    ofNumbers? year month day = some date ↔
      date.year = year ∧ date.month = month ∧ date.day = day := by
  unfold ofNumbers?
  constructor
  · intro h
    split at h
    · cases h
      exact ⟨rfl, rfl, rfl⟩
    · cases h
  · rintro ⟨rfl, rfl, rfl⟩
    rw [dif_pos ⟨date.year_lt, date.one_le_day, date.day_le⟩]

/-- The month of a date lies between 1 and 12. -/
theorem month_bounds (date : Date) : 1 ≤ date.month ∧ date.month ≤ 12 := by
  have hd := date.one_le_day
  have hle := date.day_le
  unfold daysInMonth at hle
  split at hle
  · omega
  · split at hle
    · omega
    · split at hle <;> omega

end Date

example : (Date.ofNumbers? 2024 2 29).map Date.dotted = some "29.02.2024".toList := by
  decide +kernel

example : Date.ofNumbers? 1900 2 29 = none := by decide

end Calendar

end Fillout
