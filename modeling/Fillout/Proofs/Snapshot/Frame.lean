import Fillout.Snapshot.Frame
import Mathlib.Data.List.Basic

set_option autoImplicit false

/-! # Frames

The payload is found again in the bytes of a snapshot, whatever stands behind them
(`payloadOf_frame`). A header is read at fixed places, so what is needed is that each of its parts
has the length that the parts behind it count on.
-/

namespace Fillout

namespace Snapshot

/-! ## Parts -/

/-- The part at the start. -/
theorem part_zero {a : Bytes} {length : Nat} (h : a.length = length) (b : Bytes) :
    part (a ++ b) 0 length = a := by
  subst h
  exact List.take_left

/-- A part behind the start is a part of the rest. -/
theorem part_add {a : Bytes} {n : Nat} (h : a.length = n) (b : Bytes)
    (place length : Nat) : part (a ++ b) (n + place) length = part b place length := by
  subst h
  unfold part
  rw [← List.drop_drop, List.drop_left]

theorem length_checksum (payload : Bytes) : (checksum payload).length = 16 := by
  unfold checksum
  rw [List.length_take, Blake3.length_hash]
  rfl

theorem length_frame (payload : Bytes) :
    (frame payload).length = headerLength + payload.length := by
  rw [frame, List.length_append, length_header]

/-! ## The parts of a header -/

variable (payload rest : Bytes)

theorem part_magic : part (header payload ++ rest) 0 4 = magic := by
  unfold header
  rw [List.append_assoc]
  exact part_zero rfl _

theorem part_version :
    part (header payload ++ rest) 4 2 = Bytes.littleEndian 2 formatVersion := by
  unfold header
  simp only [List.append_assoc]
  rw [part_add (n := 4) rfl _ 0]
  exact part_zero rfl _

theorem part_length :
    part (header payload ++ rest) 12 4 = Bytes.littleEndian 4 payload.length := by
  unfold header
  simp only [List.append_assoc]
  rw [part_add (n := 4) rfl _ 8, part_add (n := 2) rfl _ 6, part_add (n := 2) rfl _ 4,
    part_add (n := 4) rfl _ 0]
  exact part_zero (Bytes.length_littleEndian 4 payload.length) _

theorem part_checksum : part (header payload ++ rest) 16 16 = checksum payload := by
  unfold header
  simp only [List.append_assoc]
  rw [part_add (n := 4) rfl _ 12, part_add (n := 2) rfl _ 10,
    part_add (n := 2) rfl _ 8, part_add (n := 4) rfl _ 4,
    part_add (Bytes.length_littleEndian 4 payload.length) _ 0]
  exact part_zero (length_checksum payload) _

/-- Behind the header of a payload there must stand enough bytes, and with the right checksum. -/
theorem payloadOf_header {payload : Bytes} (h : payload.length < 2 ^ 32) (rest : Bytes) :
    payloadOf (header payload ++ rest) =
      if rest.length < payload.length then .error (.wrongLength payload.length rest.length)
      else if checksum payload ≠ checksum (rest.take payload.length) then .error .wrongChecksum
      else .ok (rest.take payload.length) := by
  have hbehind : (header payload ++ rest).drop headerLength = rest :=
    List.drop_left' (length_header payload)
  have hlength : (Bytes.littleEndian 4 payload.length).ofLittleEndian = payload.length :=
    Bytes.ofLittleEndian_littleEndian h
  have hversion : (Bytes.littleEndian 2 formatVersion).ofLittleEndian = formatVersion :=
    Bytes.ofLittleEndian_littleEndian (by decide)
  have hlong : ¬ (header payload ++ rest).length < headerLength := by
    rw [List.length_append, length_header]
    exact Nat.not_lt.2 (Nat.le_add_right _ _)
  unfold payloadOf
  rw [if_neg hlong, part_magic, if_neg (not_not_intro rfl)]
  dsimp only
  rw [part_version, part_length, part_checksum, hbehind, hversion, hlength,
    if_neg (not_not_intro rfl)]

/-- The payload of a snapshot, whatever stands behind it. -/
theorem payloadOf_frame {payload : Bytes} (h : payload.length < 2 ^ 32) (rest : Bytes) :
    payloadOf (frame payload ++ rest) = .ok payload := by
  have henough : ¬ (payload ++ rest).length < payload.length := by
    rw [List.length_append]
    exact Nat.not_lt.2 (Nat.le_add_right _ _)
  unfold frame
  rw [List.append_assoc, payloadOf_header h, if_neg henough, List.take_left,
    if_neg (not_not_intro rfl)]

end Snapshot

end Fillout
