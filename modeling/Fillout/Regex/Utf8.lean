import Fillout.Regex.CharSet

set_option autoImplicit false

/-! # Characters as bytes

An automaton that reads UTF-8 sees the bytes of a character one by one. A stretch of characters is
therefore cut into pieces such that the characters of a piece have the same number of bytes and each
of these bytes runs through a range of its own: the piece is the product of its byte ranges.
-/

namespace Fillout

namespace Regex

/-- The bytes from the first to the last one. -/
abbrev ByteRange := UInt8 × UInt8

/-- The first code point at which the stretch from `first` to `last` has to be cut: where characters
get longer, or else where a byte in front would change before the bytes behind it have run through
all of their values. -/
def cut? (first last : Nat) : Option Nat :=
  let isInside (p : Nat) : Bool := first < p && p ≤ last
  let block (size : Nat) : Option Nat :=
    if first / size = last / size then none
    else if first % size ≠ 0 then some (first - first % size + size)
    else if last % size ≠ size - 1 then some (last - last % size)
    else none
  match [0x80, 0x800, 0x10000].find? isInside with
  | some p => some p
  | none => if last < 0x80 then none else [0x40, 0x1000, 0x40000].findSome? block

/-- The bytes of a code point. -/
def bytesOf (n : Nat) : List UInt8 := String.utf8EncodeChar (Char.ofNat n)

/-- The products of byte ranges that make up the characters from `first` to `last`, in order. No
surrogate lies between the two. -/
def byteProducts (first last : Nat) : List (List ByteRange) :=
  match cut? first last with
  | some p =>
      if _h : first < p ∧ p ≤ last then byteProducts first (p - 1) ++ byteProducts p last
      else [(bytesOf first).zip (bytesOf last)]
  | none => [(bytesOf first).zip (bytesOf last)]
termination_by last - first
decreasing_by all_goals omega

/-- The products of byte ranges that make up a set of characters, in order. -/
def CharSet.byteProducts (s : CharSet) : List (List ByteRange) :=
  s.intervals.flatMap fun (first, last) =>
    let below := min last belowSurrogates
    let above := max first aboveSurrogates
    (if first ≤ below then Regex.byteProducts first below else []) ++
      (if above ≤ last then Regex.byteProducts above last else [])

end Regex

end Fillout
