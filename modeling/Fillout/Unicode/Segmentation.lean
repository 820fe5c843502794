import Fillout.Unicode.Script
import Fillout.Unicode.Casing
import Fillout.Unicode.Letter
import Fillout.Unicode.Invisible
import Fillout.Unicode.Emoji
import Fillout.Unicode.Punctuation

set_option autoImplicit false

/-! # Segmentation of text

The classes of characters by which a text is cut into graphemes, words and sentences: the properties
`Grapheme_Cluster_Break`, `Word_Break` and `Sentence_Break`. Each is a table of names and sets; a
character in none of the sets has no part in the segmentation. The names are in the form that is
left when case, blanks, hyphens and underscores are dropped.
-/

namespace Fillout.Unicode

namespace Segmentation

/-- The single code point `n`. -/
def point (n : Nat) : CodeSet := .interval n n

/-- The code points of a script. -/
def script (code : String) : CodeSet := Script.codeSet code.toList

/-- The set that goes by a name in a table. -/
def named? (table : List (List String × CodeSet)) (name : List Char) : Option CodeSet :=
  (table.find? (·.1.any (·.toList = name))).map (·.2)

/-! ## Graphemes -/

/-- Characters that are drawn together with the next one. -/
def prepended : CodeSet :=
  prependedConcatenationMark.union
    (.ofIntervals
      [(0x0D4E, 0x0D4E), (0x111C2, 0x111C3), (0x113D1, 0x113D1), (0x1193F, 0x1193F),
       (0x11941, 0x11941), (0x11A3A, 0x11A3A), (0x11A84, 0x11A89), (0x11D46, 0x11D46),
       (0x11F02, 0x11F02)])

/-- Spacing marks that continue a grapheme, and two vowel signs that are letters. The marks taken
out stand by themselves in their scripts. -/
def graphemeSpacingMark : CodeSet :=
  (((Category.setOf [.spacingMark]).diff graphemeExtend).diff
    (.ofTable
      ["4139 2 11 1 41 3 2 7 21 1 3 6 2 1 10 3 2500 1 1 2 36886 1 1 1 27810 2"])).union
    (.ofIntervals [(0x0E33, 0x0E33), (0x0EB3, 0x0EB3)])

/-- Characters that break a grapheme on either side. -/
def graphemeControl : CodeSet :=
  (CodeSet.unions
    [Category.setOf [.lineSeparator, .paragraphSeparator, .control, .format],
     (Category.setOf [.unassigned]).inter defaultIgnorable]).diff
    (CodeSet.unions
      [point 0x0A, point 0x0D, joinControl, prependedConcatenationMark, graphemeExtend])

/-- Hangul syllables without a final consonant: one in 28, by the order of the syllables. -/
def openSyllable : CodeSet :=
  .ofIntervals ((List.range 399).map fun i => (0xAC00 + 28 * i, 0xAC00 + 28 * i))

/-- The classes of `Grapheme_Cluster_Break`. -/
def graphemeTable : List (List String × CodeSet) :=
  [ (["control", "cn"], graphemeControl),
    (["cr"], point 0x0D),
    (["extend", "ex"], graphemeExtend.union emojiModifier),
    (["l"], .ofIntervals [(0x1100, 0x115F), (0xA960, 0xA97C)]),
    (["lf"], point 0x0A),
    (["lv"], openSyllable),
    (["lvt"], (CodeSet.interval 0xAC00 0xD7A3).diff openSyllable),
    (["prepend", "pp"], prepended),
    (["regionalindicator", "ri"], regionalIndicator),
    (["spacingmark", "sm"], graphemeSpacingMark),
    (["t"], .ofIntervals [(0x11A8, 0x11FF), (0xD7CB, 0xD7FB)]),
    (["v"],
      .ofIntervals [(0x1160, 0x11A7), (0xD7B0, 0xD7C6), (0x16D63, 0x16D63), (0x16D67, 0x16D6A)]),
    (["zwj"], point 0x200D) ]

/-! ## Words and sentences -/

/-- Signs of numbers that go with the digits they embrace. -/
def numberSign : CodeSet := prependedConcatenationMark.diff (point 0x070F)

/-- Digits, the decimal separator of Arabic and the signs of numbers. -/
def numeric : CodeSet :=
  CodeSet.unions [Category.setOf [.decimalNumber], point 0x066B, numberSign]

/-- Marks of any width, which continue a word. -/
def wordExtend : CodeSet :=
  (CodeSet.unions [graphemeExtend, Category.setOf [.spacingMark], emojiModifier]).diff
    (point 0x200D)

/-- Katakana, with the signs that are used with them. -/
def wordKatakana : CodeSet :=
  (script "Kana").union
    (.ofIntervals
      [(0x3031, 0x3035), (0x309B, 0x309C), (0x30A0, 0x30A0), (0x30FC, 0x30FC), (0xFF70, 0xFF70)])

/-- The letters of Hebrew. -/
def hebrewLetter : CodeSet := (script "Hebr").inter (Category.setOf [.otherLetter])

/-- Letters and signs of scripts that do not mark where a word ends. -/
def unmarkedLetter : CodeSet :=
  (CodeSet.unions
    (["Thai", "Laoo", "Mymr", "Khmr", "Tale", "Talu", "Lana", "Tavt", "Ahom"].map script)).inter
    (Category.codeSet fun k => k.isLetter || k = .nonspacingMark || k = .spacingMark)

/-- Letters of scripts that mark where a word ends, and the signs that are used like them. -/
def wordLetter : CodeSet :=
  (alphabetic.union
    (.ofTable
      ["706 4 12 6 6 2 5 7 1 1 1 17 602 3 1 1 43 1 104 1 283 1 40952 15 9 2 103 2 976 1"])).diff
    (CodeSet.unions
      [ideographic, wordKatakana, unmarkedLetter, script "Hira", wordExtend, hebrewLetter])

/-- The classes of `Word_Break`. -/
def wordTable : List (List String × CodeSet) :=
  [ (["aletter", "le"], wordLetter),
    (["cr"], point 0x0D),
    (["doublequote", "dq"], point 0x22),
    (["extend"], wordExtend),
    (["extendnumlet", "ex"],
      (Category.setOf [.connectorPunctuation]).union (point 0x202F)),
    (["format", "fo"],
      (Category.setOf [.format]).diff
        (CodeSet.unions [point 0x200B, joinControl, prependedConcatenationMark, graphemeExtend])),
    (["hebrewletter", "hl"], hebrewLetter),
    (["katakana", "ka"], wordKatakana),
    (["lf"], point 0x0A),
    (["midletter", "ml"],
      .ofIntervals
        [(0x003A, 0x003A), (0x00B7, 0x00B7), (0x0387, 0x0387), (0x055F, 0x055F),
         (0x05F4, 0x05F4), (0x2027, 0x2027), (0xFE13, 0xFE13), (0xFE55, 0xFE55),
         (0xFF1A, 0xFF1A)]),
    (["midnum", "mn"],
      .ofTable
        ["44 1 14 1 834 1 522 1 130 2 94 1 395 1 6219 1 56779 1 3 1 59 1 3 1 183 1 14 1"]),
    (["midnumlet", "mb"],
      .ofIntervals
        [(0x002E, 0x002E), (0x2018, 0x2019), (0x2024, 0x2024), (0xFE52, 0xFE52),
         (0xFF07, 0xFF07), (0xFF0E, 0xFF0E)]),
    (["newline", "nl"], .ofIntervals [(0x0B, 0x0C), (0x85, 0x85), (0x2028, 0x2029)]),
    (["numeric", "nu"], numeric),
    (["regionalindicator", "ri"], regionalIndicator),
    (["singlequote", "sq"], point 0x27),
    (["wsegspace"],
      (Category.setOf [.spaceSeparator]).diff
        (CodeSet.unions [point 0xA0, point 0x2007, point 0x202F])),
    (["zwj"], point 0x200D) ]

/-- Full stops, which may also end an abbreviation. -/
def fullStop : CodeSet :=
  .ofIntervals [(0x2E, 0x2E), (0x2024, 0x2024), (0xFE52, 0xFE52), (0xFF0E, 0xFF0E)]

/-- Marks of any width, which continue a sentence. -/
def sentenceExtend : CodeSet :=
  CodeSet.unions [graphemeExtend, Category.setOf [.spacingMark], point 0x200D]

/-- Lower case, without the Georgian letters that have capitals only in titles. -/
def sentenceLower : CodeSet :=
  lowercase.diff
    (graphemeExtend.union (.ofIntervals [(0x10D0, 0x10FA), (0x10FD, 0x10FF)]))

/-- Upper case, without these capitals. -/
def sentenceUpper : CodeSet :=
  (uppercase.union titlecase).diff (.ofIntervals [(0x1C90, 0x1CBA), (0x1CBD, 0x1CBF)])

/-- The classes of `Sentence_Break`. -/
def sentenceTable : List (List String × CodeSet) :=
  [ (["aterm", "at"], fullStop),
    (["close", "cl"],
      (CodeSet.unions
        [Category.setOf
          [.openPunctuation, .closePunctuation, .initialPunctuation, .finalPunctuation],
         .ofIntervals
          [(0x0022, 0x0022), (0x0027, 0x0027), (0x275B, 0x2760), (0x2E00, 0x2E01),
           (0x2E06, 0x2E08), (0x2E0B, 0x2E0B), (0x1F676, 0x1F678)]]).diff
        (sentenceTerminal.union fullStop)),
    (["cr"], point 0x0D),
    (["extend", "ex"], sentenceExtend),
    (["format", "fo"],
      (Category.setOf [.format]).diff
        (CodeSet.unions [joinControl, numberSign, graphemeExtend])),
    (["oletter", "le"],
      (alphabetic.union (point 0x05F3)).diff
        (CodeSet.unions [sentenceLower, sentenceUpper, sentenceExtend])),
    (["lf"], point 0x0A),
    (["lower", "lo"], sentenceLower),
    (["numeric", "nu"], numeric.union (point 0x066C)),
    (["scontinue", "sc"],
      .ofTable
        ["44 2 12 2 834 1 478 1 174 2 490 1 4105 1 5 1 2058 2 4076 1 52750 2 1 2 28 2 29 2 2 2 2 ",
         "1 10 1 168 2 12 2 72 1"]),
    (["sep", "se"], .ofIntervals [(0x85, 0x85), (0x2028, 0x2029)]),
    (["sp"],
      whiteSpace.diff
        (CodeSet.unions [point 0x0A, point 0x0D, point 0x85, .interval 0x2028 0x2029])),
    (["sterm", "st"], sentenceTerminal.diff fullStop),
    (["upper", "up"], sentenceUpper) ]

/-- The class of `Grapheme_Cluster_Break` with the given name. -/
def graphemeBreak? (name : List Char) : Option CodeSet := named? graphemeTable name

/-- The class of `Word_Break` with the given name. -/
def wordBreak? (name : List Char) : Option CodeSet := named? wordTable name

/-- The class of `Sentence_Break` with the given name. -/
def sentenceBreak? (name : List Char) : Option CodeSet := named? sentenceTable name

end Segmentation

end Fillout.Unicode
