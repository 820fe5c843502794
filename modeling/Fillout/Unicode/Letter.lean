import Fillout.Unicode.Category

set_option autoImplicit false

/-! # Letters

Alphabetic characters, and the ideographs with the signs that describe how they are put together.
-/

namespace Fillout.Unicode

/-- Characters that count as alphabetic though they are no letters: signs of vowels, and letters in
circles. -/
def otherAlphabetic : CodeSet := .ofTable
  ["837 1 29 13 576 14 1 1 1 2 1 2 1 1 72 11 48 13 1 7 16 1 101 7 4 4 2 2 4 1 35 1 30 16 102 11 ",
   "101 2 3 9 1 3 1 4 106 1 60 12 3 7 6 20 54 2 2 15 1 2 5 3 10 2 29 3 58 7 2 2 2 2 10 1 10 2 29 ",
   "3 58 5 4 2 2 2 4 1 30 2 3 1 11 3 58 8 1 3 1 2 21 2 22 3 4 3 58 7 2 2 2 2 9 2 10 2 30 1 59 5 3 ",
   "3 1 3 10 1 40 5 57 7 1 3 1 3 8 2 11 2 29 3 58 7 1 3 1 3 8 2 11 2 15 1 12 4 58 7 1 3 1 3 10 1 ",
   "10 2 29 3 75 6 1 1 1 8 18 2 61 1 2 7 18 1 99 1 2 6 1 2 16 1 163 19 9 11 1 36 110 12 1 1 2 4 ",
   "23 4 4 3 1 3 2 7 3 4 13 12 1 1 10 4 1652 2 30 2 30 2 30 2 66 19 188 2 34 1 118 12 4 9 222 5 ",
   "57 10 2 20 74 2 11 3 49 5 48 15 60 3 30 9 2 2 57 11 50 19 412 34 1729 52 2294 32 30836 8 34 2 ",
   "354 1 8 1 23 5 88 2 50 16 1 1 57 1 38 5 28 12 45 4 48 12 37 1 67 14 12 1 8 2 45 3 50 1 1 3 2 ",
   "2 5 1 44 5 5 1 237 8 20275 1 2135 5 1670 3 1 2 5 4 788 4 65 1 321 2 79 1 259 3 53 14 45 2 11 ",
   "3 45 9 9 1 61 3 36 12 18 2 57 3 48 13 14 2 92 9 2 1 6 1 2 1 157 10 23 4 58 7 2 2 2 2 10 1 10 ",
   "2 84 9 1 1 2 1 1 4 1 2 103 13 1 3 106 18 237 7 2 7 29 2 82 15 1 1 106 11 103 14 257 13 247 6 ",
   "1 2 2 2 3 1 1 1 142 7 2 6 4 1 28 10 42 5 1 4 18 11 46 14 407 8 1 7 83 22 1 14 122 6 3 1 1 2 1 ",
   "3 1 1 3 1 66 5 1 2 1 4 348 4 9 2 1 1 48 7 3 3 16861 17 3616 1 1 55 7 4 93 2 19628 1 9057 7 1 ",
   "17 2 7 1 2 1 5 100 1 2231 1 2024 26 6 26 6 26"]

/-- Alphabetic characters: letters, numbers made of letters, and `otherAlphabetic`. -/
def alphabetic : CodeSet :=
  (Category.codeSet fun k => k.isLetter || k = .letterNumber).union otherAlphabetic

/-- The ideographs of Chinese characters that are not there for the sake of other standards. -/
def unifiedIdeograph : CodeSet := .ofTable
  ["13312 6592 64 20992 23054 2 1 1 1 2 10 1 1 1 1 2 2 3 67030 42720 32 4154 6 222 2 5762 14 7473 ",
   "15 622 4514 4939 5 4192"]

/-- Ideographs of any kind. -/
def ideographic : CodeSet := .ofTable
  ["12294 2 25 9 14 3 965 6592 64 20992 22784 366 2 106 29962 1 27 6136 8 1238 41 10 9319 396 ",
   "19716 42720 32 4154 6 222 2 5762 14 7473 15 622 2466 542 1506 4939 5 4192"]
/-- The radicals of Chinese characters. -/
def radical : CodeSet := .ofIntervals [(0x2E80, 0x2E99), (0x2E9B, 0x2EF3), (0x2F00, 0x2FD5)]

/-- Signs that describe an ideograph by one part. -/
def idsUnaryOperator : CodeSet := .ofIntervals [(0x2FFE, 0x2FFF)]

/-- Signs that describe an ideograph by two parts. -/
def idsBinaryOperator : CodeSet := .ofIntervals
  [(0x2FF0, 0x2FF1), (0x2FF4, 0x2FFD), (0x31EF, 0x31EF)]

/-- Signs that describe an ideograph by three parts. -/
def idsTrinaryOperator : CodeSet := .ofIntervals [(0x2FF2, 0x2FF3)]

/-- Vowel signs that are written in front of the consonant they follow in speech. -/
def logicalOrderException : CodeSet := .ofIntervals
  [(0x0E40, 0x0E44), (0x0EC0, 0x0EC4), (0x19B5, 0x19B7), (0x19BA, 0x19BA), (0xAAB5, 0xAAB6),
   (0xAAB9, 0xAAB9), (0xAABB, 0xAABC)]

end Fillout.Unicode
