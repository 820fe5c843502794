import Fillout.Text.Basic

set_option autoImplicit false

/-! # Bytes

Byte strings, numbers of a fixed width in them with the lowest byte first, and text in UTF-8. What
is written reads back (`ofLittleEndian_littleEndian`, `toText?_ofText`).
-/

namespace Fillout

/-- A byte string. -/
abbrev Bytes := List UInt8

namespace Bytes

/-- The lowest `width` bytes of a number, the lowest one first. -/
def littleEndian : (width : Nat) → Nat → Bytes
  | 0, _ => []
  | width + 1, n => UInt8.ofNat n :: littleEndian width (n / 256)

/-- The number that bytes write, the lowest one first. -/
def ofLittleEndian : Bytes → Nat
  | [] => 0
  | b :: rest => b.toNat + 256 * ofLittleEndian rest

@[simp] theorem length_littleEndian (width n : Nat) : (littleEndian width n).length = width := by
  induction width generalizing n with
  | zero => rfl
  | succ width ih => simp [littleEndian, ih]

theorem ofLittleEndian_littleEndian {width n : Nat} (h : n < 256 ^ width) :
    ofLittleEndian (littleEndian width n) = n := by
  induction width generalizing n with
  | zero => simp_all [littleEndian, ofLittleEndian]
  | succ width ih =>
    have hn : n / 256 < 256 ^ width := by
      rw [Nat.pow_succ] at h
      omega
    rw [littleEndian, ofLittleEndian, ih hn, UInt8.toNat_ofNat']
    omega

/-- The first `n` bytes and the rest, if there are so many. -/
def splitAt? (n : Nat) (b : Bytes) : Option (Bytes × Bytes) :=
  if n ≤ b.length then some (b.take n, b.drop n) else none

theorem splitAt?_append {n : Nat} {b : Bytes} (h : b.length = n) (rest : Bytes) :
    splitAt? n (b ++ rest) = some (b, rest) := by
  subst h
  simp [splitAt?]

/-- A text in UTF-8. -/
def ofText (t : Text) : Bytes := t.flatMap String.utf8EncodeChar

/-- The text that bytes hold in UTF-8; `none` if they are no UTF-8. -/
def toText? (b : Bytes) : Option Text := b.toByteArray.utf8Decode?.map Array.toList

theorem toText?_ofText (t : Text) : (ofText t).toText? = some t := by
  have h : (ofText t).toByteArray = t.utf8Encode := rfl
  rw [toText?, h, List.utf8Decode?_utf8Encode]
  rfl

end Bytes

end Fillout
