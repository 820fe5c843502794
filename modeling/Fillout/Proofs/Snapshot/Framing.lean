import Fillout.Proofs.Snapshot.RoundTrip
import Mathlib

set_option autoImplicit false

/-! # What a reader of snapshots looks at

A snapshot that is cut off is refused for its length, and what stands behind one is not looked at
(`ofBytes_take_and_append`). The reason is the same for bytes of any origin: all that a reader takes
from them is a header of 32 bytes and the payload that the header announces.

`Snapshot.decode?` reads a frame by ranges of its bytes, as one reads an array: a range that is not
within the input has no bytes, and the reading has no outcome then. It always has one
(`decode?_eq`), because every range is within a length that has been compared with that of the input
before, be the announced length what it may.
-/

namespace Fillout

namespace Snapshot

/-! ## Reading by ranges -/

/-- The bytes from one place to another; there are none if the range is not within the input. -/
def slice? (b : Bytes) (start stop : Nat) : Option Bytes :=
  if start ≤ stop ∧ stop ≤ b.length then some ((b.drop start).take (stop - start)) else none

/-- Reads the version, the length and the checksum in a header. -/
def readHeader? (b : Bytes) : Option (Except SnapshotError (Nat × Nat × Bytes)) :=
  if b.length < headerLength then some (.error (.wrongLength headerLength b.length))
  else do
    let start ← slice? b 0 4
    if start ≠ magic then return .error .badMagic
    let version ← slice? b 4 6
    let length ← slice? b 12 16
    let digest ← slice? b 16 32
    return .ok (version.ofLittleEndian, length.ofLittleEndian, digest)

/-- Reads the payload in a frame. There is no outcome if a range is read that is not within the
input, or a length is subtracted that is too large. -/
def decode? (b : Bytes) : Option (Except SnapshotError Bytes) := do
  match ← readHeader? b with
  | .error e => return .error e
  | .ok (version, length, digest) =>
      if version ≠ formatVersion then return .error (.wrongVersion version)
      let stop := headerLength + length
      if b.length < stop then
        guard (headerLength ≤ b.length)
        return .error (.wrongLength length (b.length - headerLength))
      let payload ← slice? b headerLength stop
      if checksum payload ≠ digest then return .error .wrongChecksum
      return .ok payload

variable {b : Bytes}

theorem slice?_eq {start stop : Nat} (h : start ≤ stop) (hstop : stop ≤ b.length) :
    slice? b start stop = some (part b start (stop - start)) := if_pos ⟨h, hstop⟩

theorem readHeader?_eq (h : headerLength ≤ b.length) :
    readHeader? b =
      some (if part b 0 4 ≠ magic then .error .badMagic
        else .ok ((part b 4 2).ofLittleEndian, (part b 12 4).ofLittleEndian, part b 16 16)) := by
  have hlong : 32 ≤ b.length := h
  unfold readHeader?
  rw [if_neg (Nat.not_lt.2 h), slice?_eq (by omega) (by omega), slice?_eq (by omega) (by omega),
    slice?_eq (by omega) (by omega), slice?_eq (by omega) (by omega)]
  by_cases hmagic : part b 0 4 = magic <;> simp [hmagic]

/-- Whatever the bytes, nothing is read that is not there, and the payload is that of the
snapshot. -/
theorem decode?_eq (b : Bytes) : decode? b = some (payloadOf b) := by
  by_cases hshort : b.length < headerLength
  · have hheader : readHeader? b = some (.error (.wrongLength headerLength b.length)) :=
      if_pos hshort
    unfold decode? payloadOf
    rw [hheader, if_pos hshort]
    rfl
  · have hlong := Nat.not_lt.1 hshort
    have hrest : (b.drop headerLength).length = b.length - headerLength := List.length_drop
    unfold decode? payloadOf
    rw [readHeader?_eq hlong, if_neg hshort]
    dsimp only
    rw [hrest]
    -- The cases are those of the reader, in the order in which it looks at the input.
    generalize (part b 4 2).ofLittleEndian = version, (part b 12 4).ofLittleEndian = length
    by_cases hmagic : part b 0 4 = magic
    · rw [if_neg (not_not_intro hmagic), if_neg (not_not_intro hmagic), Option.bind_eq_bind,
        Option.bind_some]
      dsimp only
      by_cases hversion : version = formatVersion
      · rw [if_neg (not_not_intro hversion), if_neg (not_not_intro hversion)]
        -- The reader compares the end of the payload, `payloadOf` the number of bytes behind the
        -- header.
        by_cases hless : b.length < headerLength + length
        · rw [if_pos hless, if_pos (by omega), guard, if_pos hlong]
          rfl
        · rw [if_neg hless, if_neg (by omega), slice?_eq (by omega) (by omega),
            Nat.add_sub_cancel_left]
          have hpayload : part b headerLength length = (b.drop headerLength).take length := rfl
          rw [hpayload, Option.bind_eq_bind, Option.bind_some]
          by_cases hsum : part b 16 16 = checksum ((b.drop headerLength).take length)
          · rw [if_neg (not_not_intro hsum.symm), if_neg (not_not_intro hsum)]
            rfl
          · rw [if_pos (Ne.symm hsum), if_pos hsum]
            rfl
      · rw [if_pos hversion, if_pos hversion]
        rfl
    · rw [if_pos hmagic, if_pos hmagic]
      rfl

/-! ## What is taken -/

/-- The bytes of the payload that a header announces. -/
def announced (b : Bytes) : Bytes := (b.drop headerLength).take (part b 12 4).ofLittleEndian

/-- A payload is the announced one. -/
theorem payloadOf_eq_ok {payload : Bytes} (h : payloadOf b = .ok payload) :
    payload = announced b := by
  unfold payloadOf at h
  dsimp only at h
  split at h
  · cases h
  split at h
  · cases h
  split at h
  · cases h
  split at h
  · cases h
  split at h
  · cases h
  · exact (Except.ok.inj h).symm

/-- A frame that is cut off is refused for its length: that of a header, or that of the payload. -/
theorem payloadOf_take {payload : Bytes} (h : payload.length < 2 ^ 32) {k : Nat}
    (hk : k < (frame payload).length) :
    payloadOf ((frame payload).take k) =
      .error (if k < headerLength then .wrongLength headerLength k
        else .wrongLength payload.length (k - headerLength)) := by
  by_cases hshort : k < headerLength
  · have hlength : ((frame payload).take k).length = k := by
      rw [List.length_take]
      omega
    unfold payloadOf
    rw [hlength, if_pos hshort, if_pos hshort]
  · have hheader := length_header payload
    -- The header is whole, and it announces the payload that was written.
    have hbytes : (frame payload).take k = header payload ++ payload.take (k - headerLength) := by
      unfold frame
      rw [List.take_append, List.take_of_length_le (by omega), hheader]
    rw [length_frame] at hk
    have hlength : (payload.take (k - headerLength)).length = k - headerLength := by
      rw [List.length_take]
      omega
    have hless : k - headerLength < payload.length := by omega
    rw [hbytes, payloadOf_header h, hlength, if_pos hless, if_neg hshort]

end Snapshot

namespace RuleStore

open Snapshot (headerLength announced decode? payloadOf)

variable {s : RuleStore}

theorem ofBytes_of_payloadOf_error {b : Bytes} {e : SnapshotError} (h : payloadOf b = .error e) :
    ofBytes b = .error e := by
  unfold ofBytes
  rw [h]
  rfl

/-- What is made of bytes depends on their payload. -/
theorem ofBytes_congr {b b' : Bytes} (h : payloadOf b = payloadOf b') : ofBytes b = ofBytes b' := by
  unfold ofBytes
  rw [h]

/-- A rule of the case, and the same for a profile that is named like it. -/
def caseTwice : RuleStore :=
  (RuleStore.ofRecords
    [{ kind := .equal, pattern := "a".toList, value := .literal "1".toList, owner := .case },
     { kind := .equal, pattern := "a".toList, value := .literal "1".toList,
       owner := .profile "case".toList }]).1

end RuleStore

end Fillout
