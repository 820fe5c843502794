import Fillout.Calendar.Date

set_option autoImplicit false

/-! # Compact dates inside a text

A compact date is a word of eight digits `YYYYMMDD`. A word is a maximal run of word characters, so
the eight digits stand neither behind nor before a letter, a digit or an underscore.
-/

namespace Fillout

namespace Calendar

open Unicode (isDecimalDigit isWord)

/-- The eight digits that `t` starts with, if no word character follows them. -/
def compactWord? (t : Text) : Option Text :=
  let word := t.take 8
  if word.length = 8 ∧ word.all isDecimalDigit ∧ !(t.drop 8).head?.any isWord then some word
  else none

/-- Eight digits as a date with points; as they are if they denote no date. -/
def expandWord (word : Text) : Text :=
  match Date.ofDigits? (word.take 4) ((word.drop 4).take 2) (word.drop 6) with
  | some date => date.dotted
  | none => word

/-- Expands the compact dates of a text; `inWord` says whether a word character stands before it. -/
def reformatFrom (inWord : Bool) : Text → Text
  | [] => []
  | c :: rest =>
      match if inWord then none else compactWord? (c :: rest) with
      | some word => expandWord word ++ reformatFrom true (rest.drop 7)
      | none => c :: reformatFrom (isWord c) rest
termination_by t => t.length

/-- The text with every compact date in the form `DD.MM.YYYY`. -/
def reformatCompactDates (t : Text) : Text := reformatFrom false t

example : reformatCompactDates "born 20131030, id 120131030".toList =
    "born 30.10.2013, id 120131030".toList := by decide +kernel

end Calendar

end Fillout
