import Fillout.Unicode.Mark

set_option autoImplicit false

/-! # Characters that do not show

Characters that steer the layout, characters to be ignored where they are not known, and code points
that are not meant to be used.
-/

namespace Fillout.Unicode

/-- White space. -/
def whiteSpace : CodeSet := .ofIntervals
  [(0x0009, 0x000D), (0x0020, 0x0020), (0x0085, 0x0085), (0x00A0, 0x00A0), (0x1680, 0x1680),
   (0x2000, 0x200A), (0x2028, 0x2029), (0x202F, 0x202F), (0x205F, 0x205F), (0x3000, 0x3000)]

/-- The two characters that ask for joined and for separate forms of the letters beside them. -/
def joinControl : CodeSet := .ofIntervals [(0x200C, 0x200D)]

/-- Characters that set the direction of the text. -/
def bidiControl : CodeSet := .ofIntervals
  [(0x061C, 0x061C), (0x200E, 0x200F), (0x202A, 0x202E), (0x2066, 0x2069)]

/-- Characters and open code points to be ignored in display whatever their category is. -/
def otherDefaultIgnorable : CodeSet := .ofIntervals
  [(0x034F, 0x034F), (0x115F, 0x1160), (0x17B4, 0x17B5), (0x2065, 0x2065), (0x3164, 0x3164),
   (0xFFA0, 0xFFA0), (0xFFF0, 0xFFF8), (0xE0000, 0xE0000), (0xE0002, 0xE001F),
   (0xE0080, 0xE00FF), (0xE01F0, 0xE0FFF)]

/-- Characters that are ignored in display where they are not supported: format characters,
selectors of variants and `otherDefaultIgnorable`, but not the format characters that show
something. -/
def defaultIgnorable : CodeSet :=
  (CodeSet.unions [otherDefaultIgnorable, Category.setOf [.format], variationSelector]).diff
    (CodeSet.unions
      [whiteSpace, .interval 0xFFF9 0xFFFB, .interval 0x13430 0x1343F, prependedConcatenationMark])

/-- Characters whose use is discouraged. -/
def deprecated : CodeSet := .ofIntervals
  [(0x0149, 0x0149), (0x0673, 0x0673), (0x0F77, 0x0F77), (0x0F79, 0x0F79), (0x17A3, 0x17A4),
   (0x206A, 0x206F), (0x2329, 0x232A), (0xE0001, 0xE0001)]

/-- Code points that will never stand for a character: 32 in a block of their own, and the last two
of each plane. -/
def noncharacter : CodeSet := .ofIntervals
  ((0xFDD0, 0xFDEF) ::
    (List.range 17).map fun plane => (plane * 0x10000 + 0xFFFE, plane * 0x10000 + 0xFFFF))

end Fillout.Unicode
