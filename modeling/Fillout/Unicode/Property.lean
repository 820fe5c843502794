import Fillout.Unicode.Letter
import Fillout.Unicode.Invisible

set_option autoImplicit false

/-! # Properties of characters

The classes of characters that the rest of the library asks about. Each class has its ASCII part
written out, so that a statement about ASCII text needs no table.

Two versions of the standard are in use. Word characters and decimal digits are notions of regular
expressions and of dates and go by version 16, as the tables do. Which characters are letters, can
be printed or combine with others is asked of text, and goes by version 17, which has brought the
characters of the section on newcomers.
-/

namespace Fillout.Unicode

/-- White space: the characters with the property `White_Space`. -/
def isWhitespace (c : Char) : Bool :=
  let n := c.toNat
  (0x09 ≤ n && n ≤ 0x0D) || n == 0x20 || n == 0x85 || n == 0xA0 || n == 0x1680 ||
    (0x2000 ≤ n && n ≤ 0x200A) || n == 0x2028 || n == 0x2029 || n == 0x202F || n == 0x205F ||
    n == 0x3000

/-- A character of the standard library's white space is white space here too. -/
theorem isWhitespace_of_isWhitespace {c : Char} (h : c.isWhitespace = true) :
    isWhitespace c = true := by
  simp only [Char.isWhitespace, Bool.or_eq_true, decide_eq_true_eq] at h
  rcases h with ((rfl | rfl) | rfl) | rfl <;> decide

/-! ## Words and digits -/

/-- Decimal digits of any script. -/
def decimalDigit : CodeSet := Category.setOf [.decimalNumber]

/-- Word characters: alphabetic characters, marks, decimal digits, connectors such as the
underscore, and the two invisible joiners. -/
def word : CodeSet :=
  CodeSet.unions
    [alphabetic,
     Category.codeSet fun k => k.isMark || k = .decimalNumber || k = .connectorPunctuation,
     joinControl]

/-- Decimal digits of any script. -/
def isDecimalDigit (c : Char) : Bool := if c.toNat < 0x80 then c.isDigit else decimalDigit.mem c

/-- Word characters. -/
def isWord (c : Char) : Bool :=
  if c.toNat < 0x80 then c.isAlphanum || c == '_' else word.mem c

/-! ## Newcomers -/

/-- The characters that version 17 has brought. All of them can be printed. -/
def newcomers : CodeSet := .ofTable
  ["2191 1 972 1 127 1 3570 15 2 12 1493 1 2772 1 31799 2 2 1 1 1 28 1 21457 16 445 2 54 7 2929 ",
   "26 1387 3 8 9 33 2 3172 8 584 44 4 10 20662 25 2 25 286 5 6145 8 1289 22 97 115 16135 3 445 ",
   "23 15 17 6095 31 1 22 8 2 4056 1 158 4 341 9 379 4 50 1 3 1 57 1 4 1 28 1 4 1 266 1 47935 6 ",
   "5986 12 21762 4298"]

/-- Those of the newcomers that are alphabetic. -/
def alphabeticNewcomers : CodeSet := .ofTable
  ["2191 1 972 1 127 1 39665 2 2 1 1 1 28 1 24910 26 1387 3 50 2 3172 8 584 44 20676 25 2 25 286 ",
   "5 6145 8 1289 22 97 115 22733 31 1 22 8 2 53306 6 5986 12 21762 4298"]

/-- Those of the newcomers that are numbers. -/
def numberNewcomers : CodeSet := .ofIntervals [(0x11DE0, 0x11DE9), (0x16FF4, 0x16FF6)]

/-- Those of the newcomers that are nonspacing marks. -/
def markNewcomers : CodeSet := .ofIntervals
  [(0x1ACF, 0x1ADD), (0x1AE0, 0x1AEB), (0x10EFA, 0x10EFB), (0x11B60, 0x11B60),
   (0x11B62, 0x11B64), (0x11B66, 0x11B66), (0x1E6E3, 0x1E6E3), (0x1E6E6, 0x1E6E6),
   (0x1E6EE, 0x1E6EF), (0x1E6F5, 0x1E6F5)]

/-! ## Letters, print and marks -/

/-- Alphabetic characters, the newcomers included. -/
def currentAlphabetic : CodeSet := alphabetic.union alphabeticNewcomers

/-- Characters with the property `Alphabetic`. -/
def isAlphabetic (c : Char) : Bool :=
  if c.toNat < 0x80 then c.isAlpha else currentAlphabetic.mem c

/-- Alphabetic characters and numbers of any kind, the newcomers included. -/
def currentAlphanumeric : CodeSet :=
  CodeSet.unions [currentAlphabetic, Category.codeSet (·.isNumber), numberNewcomers]

/-- Letters and digits: alphabetic characters and numbers of any kind. -/
def isAlphanumeric (c : Char) : Bool :=
  if c.toNat < 0x80 then c.isAlphanum else currentAlphanumeric.mem c

/-- Characters that show on paper: no controls, format characters, separators other than the blank,
private or unassigned code points. -/
def printable : CodeSet :=
  (CodeSet.all.diff
    (Category.setOf
      [.control, .format, .surrogate, .privateUse, .unassigned, .spaceSeparator, .lineSeparator,
       .paragraphSeparator])).union newcomers

/-- Characters that show on paper; of white space only the blank does. -/
def isPrintable (c : Char) : Bool :=
  if c.toNat < 0x80 then 0x20 ≤ c.toNat && c.toNat < 0x7F else printable.mem c

/-- Characters that cannot be told apart in print by themselves: marks that continue a grapheme, and
letters that hold a place without showing. -/
def dependent : CodeSet :=
  CodeSet.unions
    [graphemeExtend.inter (Category.codeSet (·.isMark)), markNewcomers,
     defaultIgnorable.inter (Category.codeSet (·.isLetter))]

/-- Characters that cannot be told apart in print by themselves. -/
def isDependent (c : Char) : Bool := if c.toNat < 0x80 then false else dependent.mem c

end Fillout.Unicode
