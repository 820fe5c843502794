import Fillout.Snapshot.Restore

set_option autoImplicit false

/-! # Snapshots

A snapshot is a header of 32 bytes and a payload behind it:

    0    4   the magic bytes
    4    2   the version of the format
    6    2   the version of the engine
    8    4   flags, not in use
    12   4   the number of bytes of the payload
    16  16   the first half of the digest of the payload

Numbers have the lowest byte first. A reader looks at the version of the format, but not at that of
the engine, and ignores what stands behind the payload.
-/

namespace Fillout

/-- Why there is no store in a snapshot. -/
inductive SnapshotError
  /-- There is no such file. -/
  | unreadable
  | badMagic
  | wrongVersion (found : Nat)
  | wrongChecksum
  | wrongLength (expected actual : Nat)
  | undecodable
  | invalid (flaw : Flaw)
  deriving DecidableEq

namespace Snapshot

/-- The bytes that a snapshot begins with. -/
def magic : Bytes := [0x46, 0x46, 0x49, 0x4C]

/-- The version of the format. -/
def formatVersion : Nat := 1

/-- The version of the engine. -/
def engineVersion : Nat := 1

/-- The number of bytes of a header. -/
def headerLength : Nat := 32

/-- The checksum of a payload. -/
def checksum (payload : Bytes) : Bytes := (Blake3.hash payload).take 16

/-- The header of a payload. -/
def header (payload : Bytes) : Bytes :=
  magic ++ (Bytes.littleEndian 2 formatVersion ++ (Bytes.littleEndian 2 engineVersion ++
    (Bytes.littleEndian 4 0 ++ (Bytes.littleEndian 4 payload.length ++ checksum payload))))

theorem length_header (payload : Bytes) : (header payload).length = headerLength := by
  simp [header, magic, checksum, headerLength]

/-- The bytes of a snapshot with the given payload. -/
def frame (payload : Bytes) : Bytes := header payload ++ payload

/-- The part of a header that begins at a place. -/
def part (b : Bytes) (place length : Nat) : Bytes := (b.drop place).take length

/-- The payload that stands in a snapshot. -/
def payloadOf (b : Bytes) : Except SnapshotError Bytes :=
  if b.length < headerLength then .error (.wrongLength headerLength b.length)
  else if part b 0 4 ≠ magic then .error .badMagic
  else
    let version := (part b 4 2).ofLittleEndian
    let length := (part b 12 4).ofLittleEndian
    let rest := b.drop headerLength
    -- The length is compared before the checksum, which is that of exactly these bytes.
    if version ≠ formatVersion then .error (.wrongVersion version)
    else if rest.length < length then .error (.wrongLength length rest.length)
    else
      let payload := rest.take length
      if part b 16 16 ≠ checksum payload then .error .wrongChecksum else .ok payload

end Snapshot

/-- The error in words. -/
def SnapshotError.message : SnapshotError → Text
  | unreadable => "snapshot cannot be read".toList
  | badMagic => "not a formfill snapshot: invalid magic bytes".toList
  | wrongVersion found =>
      "incompatible format version: blob is v".toList ++ Text.ofNat found ++
        ", engine supports v".toList ++ Text.ofNat Snapshot.formatVersion
  | wrongChecksum => "integrity check failed: BLAKE3 checksum mismatch".toList
  | wrongLength expected actual =>
      "payload length mismatch: expected ".toList ++ Text.ofNat expected ++ " bytes, got ".toList ++
        Text.ofNat actual
  | undecodable => "failed to decode payload".toList
  | invalid flaw => "validation failed: ".toList ++ flaw.message

namespace RuleStore

/-- The snapshot of a store that was made from a text, if that is known. -/
def toBytes (s : RuleStore) (source : Option Text) : Bytes :=
  Snapshot.frame (Payload.ofStore s source).write

/-- The store of a snapshot. -/
def ofBytes (b : Bytes) : Except SnapshotError RuleStore := do
  let payload ← Snapshot.payloadOf b
  match Payload.read? payload with
  | none => .error .undecodable
  | some p =>
      -- Bytes of the right form may still describe no store.
      match p.toStore with
      | .error flaw => .error (.invalid flaw)
      | .ok s => .ok s

/-- The store of a snapshot in a file, of which the bytes are given if there is such a file. -/
def ofSnapshotFile (file : Option Bytes) : Except SnapshotError RuleStore :=
  match file with
  | some b => ofBytes b
  | none => .error .unreadable

end RuleStore

end Fillout
