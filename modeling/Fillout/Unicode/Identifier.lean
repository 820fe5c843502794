import Fillout.Unicode.Letter
import Fillout.Unicode.Invisible
import Fillout.Unicode.Punctuation

set_option autoImplicit false

/-! # Identifiers

Characters of which names and patterns are made. The variants whose names start with `x` are closed
under compatible normal forms, so they lack a few characters.
-/

namespace Fillout.Unicode

/-- Characters that patterns may use as signs of their own. -/
def patternSyntax : CodeSet := .ofTable
  ["33 15 10 7 26 4 1 1 26 4 34 7 1 1 1 2 1 1 1 2 4 1 4 1 3 1 23 1 31 1 7960 24 8 15 2 19 1 10 ",
   "305 720 160 630 30 1026 1 105 512 128 385 3 4 25 15 1 52493 2 261 2"]

/-- Characters that patterns treat as white space. -/
def patternWhiteSpace : CodeSet := .ofIntervals
  [(0x0009, 0x000D), (0x0020, 0x0020), (0x0085, 0x0085), (0x200E, 0x200F), (0x2028, 0x2029)]

/-- Characters other than letters that have been allowed to start an identifier. -/
def otherIdStart : CodeSet := .ofIntervals
  [(0x1885, 0x1886), (0x2118, 0x2118), (0x212E, 0x212E), (0x309B, 0x309C)]

/-- Characters that have been allowed inside an identifier, whatever their category is. -/
def otherIdContinue : CodeSet := .ofIntervals
  [(0x00B7, 0x00B7), (0x0387, 0x0387), (0x1369, 0x1371), (0x19DA, 0x19DA), (0x200C, 0x200D),
   (0x30FB, 0x30FB), (0xFF65, 0xFF65)]

/-- Characters that start an identifier. -/
def idStart : CodeSet :=
  ((Category.codeSet fun k => k.isLetter || k = .letterNumber).union otherIdStart).diff
    (patternSyntax.union patternWhiteSpace)

/-- Characters that continue an identifier. -/
def idContinue : CodeSet :=
  (CodeSet.unions
    [idStart,
     Category.setOf [.nonspacingMark, .spacingMark, .decimalNumber, .connectorPunctuation],
     otherIdContinue]).diff
    (patternSyntax.union patternWhiteSpace)

/-- Characters that normal forms take from the continuation of an identifier. -/
def xidContinueLost : CodeSet := .ofTable
  ["890 1 11552 2 52161 6 406 2 116 1 1 1 1 1 1 1 1 1 1 1 1 1 1 1"]

/-- Characters that continue an identifier, also in its normal forms. -/
def xidContinue : CodeSet := idContinue.diff xidContinueLost

/-- Further characters that normal forms take from the start of an identifier. -/
def xidStartLost : CodeSet := .ofIntervals [(0x0E33, 0x0E33), (0x0EB3, 0x0EB3), (0xFF9E, 0xFF9F)]

/-- Characters that start an identifier, also in its normal forms. -/
def xidStart : CodeSet := idStart.diff (xidContinueLost.union xidStartLost)

/-- Signs of mathematics that may start an identifier where that is asked for. -/
def idCompatMathStart : CodeSet := .ofTable
  ["8706 1 4 1 22 1 111778 1 25 1 31 1 25 1 31 1 25 1 31 1 25 1 31 1 25 1"]

/-- Signs of mathematics, and raised and lowered digits and signs, that may continue one. -/
def idCompatMathContinue : CodeSet :=
  idCompatMathStart.union
    (.ofIntervals
      [(0x00B2, 0x00B3), (0x00B9, 0x00B9), (0x2070, 0x2070), (0x2074, 0x207E), (0x2080, 0x208E)])
end Fillout.Unicode
