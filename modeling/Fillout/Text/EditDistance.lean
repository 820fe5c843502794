import Fillout.Text.Basic

set_option autoImplicit false

/-! # Edit distance

The least number of insertions, deletions and replacements of one character that lead from one text
to another. The table of distances between the prefixes of both texts is computed row by row; the
row of a prefix of `s` holds its distances from all prefixes of `t`.
-/

namespace Fillout

namespace Text

/-- The rest of the row for a prefix that ends in `x`: `left` is the entry just computed, `corner`
the entry above it, and the lists hold the characters of `t` still to come and the entries of the
row above that belong to them. -/
def nextEntries (x : Char) (left corner : Nat) : Text → List Nat → List Nat
  | y :: ys, above :: more =>
      let entry := min (min (left + 1) (above + 1)) (corner + if x = y then 0 else 1)
      entry :: nextEntries x entry above ys more
  | _, _ => []

/-- The row below `row` for the next character `x`. -/
def nextRow (t : Text) (row : List Nat) (x : Char) : List Nat :=
  match row with
  | [] => []
  | corner :: more => (corner + 1) :: nextEntries x (corner + 1) corner t more

/-- The edit distance of two texts. -/
def editDistance (s t : Text) : Nat :=
  ((s.foldl (nextRow t) (List.range (t.length + 1))).getLast?).getD 0

example : editDistance "kitten".toList "sitting".toList = 3 := by decide

end Text

end Fillout
