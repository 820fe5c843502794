import Fillout.Bytes

set_option autoImplicit false

/-! # Numbers of varying width

A number up to 250 is one byte. A larger one is a mark, which gives the width, and then two, four or
eight bytes with the lowest first. The writer takes the shortest form; the reader accepts a longer
one too. What is written reads back (`read_write`).
-/

namespace Fillout

namespace Varint

/-- The largest number that is its own byte. -/
def largestSingle : Nat := 250

/-- The number of bytes behind a mark. -/
def widthOfMark? (mark : UInt8) : Option Nat :=
  if mark = 251 then some 2 else if mark = 252 then some 4 else if mark = 253 then some 8 else none

/-- Writes a number below 2⁶⁴. -/
def write (n : Nat) : Bytes :=
  if n ≤ largestSingle then [UInt8.ofNat n]
  else if n < 2 ^ 16 then 251 :: Bytes.littleEndian 2 n
  else if n < 2 ^ 32 then 252 :: Bytes.littleEndian 4 n
  else 253 :: Bytes.littleEndian 8 n

/-- Reads a number that takes at most `widest` bytes behind its mark. -/
def read (widest : Nat) : Bytes → Option (Nat × Bytes)
  | [] => none
  | b :: rest =>
      if b.toNat ≤ largestSingle then some (b.toNat, rest)
      else
        match widthOfMark? b with
        | none => none
        | some width =>
            if width ≤ widest then
              (Bytes.splitAt? width rest).map fun (bytes, rest) => (bytes.ofLittleEndian, rest)
            else none

private theorem read_mark {mark : UInt8} {width n : Nat} (hm : largestSingle < mark.toNat)
    (hw : widthOfMark? mark = some width) (hw8 : width ≤ 8) (hn : n < 256 ^ width) (rest : Bytes) :
    read 8 (mark :: Bytes.littleEndian width n ++ rest) = some (n, rest) := by
  rw [List.cons_append, read, if_neg (by omega), hw]
  simp only [if_pos hw8]
  rw [Bytes.splitAt?_append (Bytes.length_littleEndian width n), Option.map_some,
    Bytes.ofLittleEndian_littleEndian hn]

/-- A number below 2⁶⁴ reads back. -/
theorem read_write {n : Nat} (h : n < 2 ^ 64) (rest : Bytes) :
    read 8 (write n ++ rest) = some (n, rest) := by
  rw [write]
  split
  · rename_i hs
    have hb : (UInt8.ofNat n).toNat = n := by
      rw [UInt8.toNat_ofNat']
      unfold largestSingle at hs
      omega
    rw [List.singleton_append, read, hb, if_pos hs]
  split
  · exact read_mark (by decide) rfl (by decide) (by omega) rest
  split
  · exact read_mark (by decide) rfl (by decide) (by omega) rest
  · exact read_mark (by decide) rfl (by decide) (by omega) rest

/-- A number that is its own byte reads back, however narrow the others have to be. -/
theorem read_write_single {n widest : Nat} (h : n ≤ largestSingle) (rest : Bytes) :
    read widest (write n ++ rest) = some (n, rest) := by
  have hb : (UInt8.ofNat n).toNat = n := by
    rw [UInt8.toNat_ofNat']
    unfold largestSingle at h
    omega
  rw [write, if_pos h, List.singleton_append, read, hb, if_pos h]

end Varint

end Fillout
