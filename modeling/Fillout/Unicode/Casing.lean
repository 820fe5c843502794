import Fillout.Unicode.Category

set_option autoImplicit false

/-! # Upper and lower case

Which characters have a case, and which of them change when a text is put into lower case, upper
case, title case or the form in which case does not count.
-/

namespace Fillout.Unicode

/-- Characters other than lower-case letters that count as lower case. -/
def otherLowercase : CodeSet := .ofTable
  ["170 1 15 1 501 9 7 2 30 5 96 1 52 1 3457 1 3119 63 13 1 34 37 689 1 13 1 16 13 211 16 848 26 ",
   "1938 2 31262 2 210 1 129 3 3 2 866 4 9 1 23574 1 2 3 1 42 1 9 55413 62"]

/-- Characters in lower case. -/
def lowercase : CodeSet := (Category.setOf [.lowercaseLetter]).union otherLowercase

/-- Characters other than upper-case letters that count as upper case. -/
def otherUppercase : CodeSet := .ofIntervals
  [(0x2160, 0x216F), (0x24B6, 0x24CF), (0x1F130, 0x1F149), (0x1F150, 0x1F169),
   (0x1F170, 0x1F189)]

/-- Characters in upper case. -/
def uppercase : CodeSet := (Category.setOf [.uppercaseLetter]).union otherUppercase

/-- Letters in title case: pairs of letters of which the first one is large. -/
def titlecase : CodeSet := Category.setOf [.titlecaseLetter]

/-- Characters with a case. -/
def cased : CodeSet := CodeSet.unions [lowercase, uppercase, titlecase]

/-- Characters with a dot that a mark above them takes the place of. -/
def softDotted : CodeSet := .ofTable
  ["105 2 196 1 281 1 30 1 52 1 20 1 320 1 98 1 1 1 6409 1 51 1 13 1 3 1 132 1 157 1 421 1 214 2 ",
   "2866 1 108453 2 50 2 50 2 50 2 50 2 50 2 50 2 50 2 50 2 50 2 50 2 50 2 50 2 2182 1 305 2 26 1"]

/-- Characters in upper case without a lower-case form. -/
def uppercaseForGood : CodeSet := .ofTable
  ["978 3 7469 1 4 1 3 3 2 3 2 1 3 5 6 1 3 1 3 2 2 2 1 1 10 2 5 1 111290 26 26 26 26 26 26 1 1 2 ",
   "2 1 2 2 2 4 1 8 26 26 26 2 1 4 2 8 1 7 27 2 1 4 1 5 1 1 3 7 27 26 26 26 26 26 26 26 26 26 26 ",
   "26 30 25 33 25 33 25 33 25 33 25 33 1 6501 26 6 26 6 26"]

/-- Characters that change in lower case. -/
def changesWhenLowercased : CodeSet := (uppercase.diff uppercaseForGood).union titlecase

/-- Characters in lower case without an upper-case form. -/
def lowercaseForGood : CodeSet := .ofTable
  ["170 1 15 1 125 1 84 1 28 2 14 1 3 1 98 1 18 6 27 1 2 1 1 1 2 3 2 1 4 1 5 2 1 1 2 2 1 7 1 2 1 ",
   "1 2 3 6 5 1 1 1 8 2 26 7 2 30 5 149 1 129 1 355 1 39 1 2931 1 3075 121 1 3 1 16 1 49 220 2 1 ",
   "1 465 1 13 1 16 13 109 1 3 2 3 1 27 1 4 1 4 1 2 2 8 4 2855 1 2 1 2 7 102 1 31159 2 146 2 62 9 ",
   "21 1 6 1 25 1 35 1 1 1 28 3 3 3 821 35 1 7 1 14 23574 1 2 3 1 42 1 9 52319 26 26 7 1 18 26 26 ",
   "26 4 1 1 1 7 1 11 26 26 26 26 26 26 26 26 26 26 26 26 26 26 26 26 26 28 28 25 1 6 26 25 1 6 ",
   "26 25 1 6 26 25 1 6 26 25 1 6 1 1 1844 10 1 20 6 6 261 62"]

/-- Characters that change in upper case. -/
def changesWhenUppercased : CodeSet := (lowercase.diff lowercaseForGood).union titlecase

/-- Characters that change in title case. Georgian letters do not, and of the pairs of letters those
in upper case do. -/
def changesWhenTitlecased : CodeSet :=
  ((lowercase.diff lowercaseForGood).diff
    (.ofIntervals [(0x10D0, 0x10FA), (0x10FD, 0x10FF)])).union
    (.ofIntervals [(0x01C4, 0x01C4), (0x01C7, 0x01C7), (0x01CA, 0x01CA), (0x01F1, 0x01F1)])

/-- Characters that change with the case of a text. -/
def changesWhenCasemapped : CodeSet :=
  CodeSet.unions [changesWhenLowercased, changesWhenUppercased, changesWhenTitlecased]

/-- Characters that change where case does not count, though lower case leaves them alone. -/
def foldedLowercase : CodeSet := .ofTable
  ["181 1 41 1 105 1 53 1 453 1 124 1 13 2 3 2 25 2 3 1 401 1 3696 6 2178 9 529 2 228 8 8 8 8 8 ",
   "10 3 2 1 10 3 2 1 42 3 2 1 35704 80 20288 7 12 5"]

/-- Characters that change where case does not count. Cherokee letters are compared in upper case,
so it is the small ones that change. -/
def changesWhenCasefolded : CodeSet :=
  (changesWhenLowercased.diff (.interval 0x13A0 0x13F5)).union foldedLowercase

/-- Characters that do not count when the case of a word is looked at: marks, format characters,
modifiers, and the signs that stand inside words. -/
def caseIgnorable : CodeSet :=
  (Category.setOf
    [.nonspacingMark, .enclosingMark, .format, .modifierLetter, .modifierSymbol]).union
    (.ofTable
      ["39 1 6 1 11 1 124 1 719 1 471 1 148 1 6691 2 10 1 2 1 56811 1 62 1 2 1 177 1 6 1 11 1"])

end Fillout.Unicode
