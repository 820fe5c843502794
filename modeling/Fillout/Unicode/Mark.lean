import Fillout.Unicode.Category

set_option autoImplicit false

/-! # Marks

Characters that go with the character before them, and those that modify it.
-/

namespace Fillout.Unicode

/-- Characters other than nonspacing and enclosing marks that continue a grapheme. -/
def otherGraphemeExtend : CodeSet := .ofTable
  ["2494 1 24 1 358 1 24 1 102 1 24 1 232 1 1 1 4 2 1 2 9 2 103 1 24 1 119 1 15 1 2357 1 30 1 ",
   "1024 1 5 1 1 1 5 2 101 1 71 2 1048 1 4129 2 31011 1 108 1 21981 2 4640 1 116 1 264 1 14 1 9 1 ",
   "96 1 9 1 2 1 1 3 5 1 224 1 12 1 241 1 262 1 633 1 12 1 1539 1 20654 2 24947 2 6 6 798381 96"]

/-- Characters that continue the grapheme before them. -/
def graphemeExtend : CodeSet :=
  (Category.setOf [.nonspacingMark, .enclosingMark]).union otherGraphemeExtend

/-- Characters that start a grapheme: those that show, apart from the ones that continue it. -/
def graphemeBase : CodeSet :=
  (CodeSet.all.diff
    (Category.setOf
      [.control, .format, .surrogate, .privateUse, .unassigned, .lineSeparator,
       .paragraphSeparator])).diff graphemeExtend

/-- Signs that take away the vowel of a letter and so link it to the next one. -/
def graphemeLink : CodeSet := .ofTable
  ["2381 1 127 1 127 1 127 1 127 1 127 1 127 1 127 1 109 2 16 1 124 1 111 1 127 1 201 1 180 2 ",
   "1753 2 30 1 157 1 653 1 227 1 101 2 70 2 4491 1 31366 1 37 1 151 1 142 1 108 1 309 1 246 1 ",
   "24145 1 1542 1 41 1 14 1 57 1 121 2 139 1 116 1 180 1 98 1 128 3 113 1 127 1 252 1 127 1 118 ",
   "1 116 1 269 1 259 2 161 1 83 1 18 1 81 1 421 1 260 2 81 1 425 2 16876 1"]

/-- Characters that modify another one by how they sound or look. -/
def diacritic : CodeSet := .ofTable
  ["94 1 1 1 71 1 6 1 4 1 2 2 503 159 1 8 5 6 17 2 4 1 9 2 253 5 209 1 55 45 1 1 1 2 1 2 1 1 131 ",
   "8 4 2 134 2 4 2 3 3 67 27 91 11 58 11 34 2 126 8 41 10 16 28 61 1 16 1 3 4 28 1 74 1 16 1 110 ",
   "1 16 1 110 1 16 1 47 3 60 1 16 1 7 1 119 1 110 1 16 1 110 1 16 1 109 2 16 1 124 1 111 1 12 6 ",
   "1 1 107 1 13 5 75 2 27 1 1 1 1 1 4 2 66 3 1 2 62 1 112 1 1 2 40 2 4 5 25 7 1 1 10 2 705 3 948 ",
   "2 30 1 148 11 9 1 347 3 292 1 20 8 2 1 48 15 2 11 104 1 15 1 38 9 54 2 58 1 11 2 66 2 64 6 82 ",
   "25 4 1 6 1 2 3 50 63 48 36 5 12 37 11 445 1 1 3 11 3 13 3 13 3 13 2 3312 3 317 1 506 6 105 4 ",
   "95 1 30066 1 12 2 1 1 28 2 82 2 14 34 102 3 109 2 12 1 37 1 151 1 27 18 57 4 36 1 95 1 12 1 ",
   "36 1 149 3 65 4 51 1 100 5 9 3 128 2 20272 1 769 16 270 1 1 1 47 1 45 2 67 1 764 1 1183 6 1 ",
   "42 1 9 637 3 4 1 165 2 571 6 38 1 26 5 399 3 70 11 49 4 192 1 41 1 72 2 120 2 62 1 76 1 9 3 ",
   "104 2 178 2 80 2 16 1 24 7 3 5 89 3 1 2 13 2 95 1 3 1 123 2 251 2 126 1 118 2 115 1 269 2 258 ",
   "2 4 1 156 1 83 1 18 1 81 1 421 1 258 1 1 2 81 1 425 2 23 1 5356 15 11481 1 2496 5 59 7 564 2 ",
   "546 17 80 2 16382 4 1 7 1 2 7937 46 2 23 544 3 3 6 8 8 2 7 30 4 3714 62 194 7 375 1 61 4 766 ",
   "2 736 7 109 3 1 3"]

/-- Characters that lengthen or repeat another one. -/
def extender : CodeSet := .ofTable
  ["183 1 536 2 878 1 441 1 630 1 137 1 89 1 752 1 127 1 2371 1 56 1 611 1 398 1 68 1 5001 1 43 5 ",
   "103 2 93 3 28438 1 1526 1 962 1 22 1 137 1 108 1 21 2 21627 1 2064 2 1483 1 27 1 4 1 1223 1 ",
   "293 1 116 2 498 3 1231 1 20649 2 1180 2 1 1 29016 2 1201 1 852 3"]

/-- Marks that are set closer to their letter than other marks. -/
def modifierCombiningMark : CodeSet := .ofIntervals
  [(0x0654, 0x0655), (0x0658, 0x0658), (0x06DC, 0x06DC), (0x06E3, 0x06E3), (0x06E7, 0x06E8),
   (0x08CA, 0x08CB), (0x08CD, 0x08CF), (0x08D3, 0x08D3), (0x08F3, 0x08F3)]

/-- Characters that choose among the forms of the character before them. -/
def variationSelector : CodeSet := .ofIntervals
  [(0x180B, 0x180D), (0x180F, 0x180F), (0xFE00, 0xFE0F), (0xE0100, 0xE01EF)]

/-- Signs that stand before the numbers they embrace. -/
def prependedConcatenationMark : CodeSet := .ofIntervals
  [(0x0600, 0x0605), (0x06DD, 0x06DD), (0x070F, 0x070F), (0x0890, 0x0891), (0x08E2, 0x08E2),
   (0x110BD, 0x110BD), (0x110CD, 0x110CD)]

end Fillout.Unicode
