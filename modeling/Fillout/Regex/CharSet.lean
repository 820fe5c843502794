import Fillout.Text.Basic
import Fillout.Unicode.CaseFold

set_option autoImplicit false

/-! # Sets of characters in expressions

The sets that a regular expression is made of are sets of code points. Surrogates are code points
but no characters. A stretch of characters may run across them, and then the set contains them;
where no stretch does, the set is kept free of them (`tidy`), so that sets with the same stretches
are equal.
-/

namespace Fillout

namespace Regex

/-- A set of characters. -/
abbrev CharSet := Unicode.CodeSet

namespace CharSet

/-- The set with one member. -/
def single (c : Char) : CharSet := .interval c.toNat c.toNat

/-- The characters from `first` to `last`. -/
def range (first last : Char) : CharSet := .interval first.toNat last.toNat

/-- The only member of a set with one member. -/
def toChar? (s : CharSet) : Option Char :=
  match s.bounds with
  | [first, stop] => if stop = first + 1 then some (Char.ofNat first) else none
  | _ => none

/-- The last character in front of the surrogates. -/
def belowSurrogates : Nat := 0xD7FF

/-- The first character behind the surrogates. -/
def aboveSurrogates : Nat := 0xE000

/-- The surrogates. -/
def surrogates : CharSet := .interval (belowSurrogates + 1) (aboveSurrogates - 1)

/-- A set without the surrogates, unless a stretch of characters runs across them. -/
def tidy (s : CharSet) : CharSet :=
  if s.contains belowSurrogates && s.contains aboveSurrogates then s else s.diff surrogates

/-- The characters outside a set: those between one stretch of members and the next. Where one
stretch ends below the surrogates and the next one starts above them, there are none between the
two; the ends of the gap change places, and it consists of the characters on both sides of the
surrogates. -/
def compl (s : CharSet) : CharSet :=
  let rest := Unicode.CodeSet.all.diff s
  let meets := s.contains belowSurrogates && s.contains aboveSurrogates
  if meets && rest.inter surrogates != .empty then
    rest.union (.interval belowSurrogates aboveSurrogates)
  else tidy rest

/-- The members of the first set only. -/
def subtract (s t : CharSet) : CharSet := tidy (s.diff t)

/-- The members of exactly one of the sets. -/
def exclusive (s t : CharSet) : CharSet := tidy (s.symmDiff t)

/-- Word characters in ASCII. -/
def asciiWord : CharSet := .ofIntervals [(0x30, 0x39), (0x41, 0x5A), (0x5F, 0x5F), (0x61, 0x7A)]

/-- The ASCII characters. -/
def ascii : CharSet := .interval 0 0x7F

/-- Whether all members are ASCII characters. -/
def isAscii (s : CharSet) : Bool := s.bounds.all (· ≤ 0x80)

example : toChar? (single 'x') = some 'x' := by decide

end CharSet

end Regex

end Fillout
